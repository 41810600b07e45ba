import Mathlib.Init

/-!
# Identifiers

The types the agent and the resolver take from other crates, each as the data that
determines its values.
-/

namespace IpcAgent

/-- `ipc_sdk::SubnetID`, by its text such as `/root/t01001`. -/
structure SubnetID where
  text : String
deriving DecidableEq, Repr

/-- `fvm_shared::Address`, by its bytes. -/
structure Address where
  bytes : List UInt8
deriving DecidableEq, Repr

/-- `cid::Cid`, by the result of `to_bytes`. -/
structure Cid where
  bytes : List UInt8
deriving DecidableEq, Repr

/-- `libp2p::PeerId`, by its multihash. -/
structure PeerId where
  bytes : List UInt8
deriving DecidableEq, Repr

/-- `libp2p::identity::PublicKey`, by its kind and its bytes. -/
structure PublicKey where
  kind : Nat
  bytes : List UInt8
deriving DecidableEq, Repr

/-- One component of a multiaddress; `other` stands for those the resolver never names. -/
inductive Protocol
  | ip4 (addr : Nat)
  | ip6 (addr : Nat)
  | tcp (port : Nat)
  | udp (port : Nat)
  | p2p (multihash : List UInt8)
  | other (text : String)
deriving DecidableEq, Repr

/-- `libp2p::Multiaddr`, from the outermost component on; `pop` takes the last one. -/
abbrev Multiaddr := List Protocol

end IpcAgent

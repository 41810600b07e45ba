import IpcAgent.Resolver.Content
import Mathlib.Logic.Relation

/-!
# What the rate limit is keyed by

`select_non_ephemeral` goes through an address from its end: the first IP it meets is all that
is kept, and if it meets none, all but the identity and the ports is. So the key of a peer
stays the same however these change.
-/

namespace IpcAgent

def Protocol.isIp : Protocol → Bool
  | .ip4 _ | .ip6 _ => true
  | _ => false

/-- The identity and the ports. -/
def Protocol.isEphemeral : Protocol → Bool
  | .p2p _ | .tcp _ | .udp _ => true
  | _ => false

namespace Resolver.Content

/-- The last IP of an address. -/
def lastIp (addr : Multiaddr) : Option Protocol := (addr.filter Protocol.isIp).getLast?

/-- An address without its identities and ports. -/
def lasting (addr : Multiaddr) : Multiaddr := addr.filter (fun p => !p.isEphemeral)

theorem selectLoop_eq (addr keep : List Protocol) :
    selectLoop addr keep = match addr.find? Protocol.isIp with
      | some ip => [ip]
      | none => keep ++ lasting addr := by
  fun_induction selectLoop addr keep with
  | case1 keep => simp [lasting]
  | case2 => rfl
  | case3 => rfl
  | case4 _ _ _ ih | case5 _ _ _ ih | case6 _ _ _ ih | case7 _ _ _ ih =>
    simpa [lasting, Protocol.isIp, Protocol.isEphemeral] using ih

theorem selectNonEphemeral_eq (addr : Multiaddr) :
    selectNonEphemeral addr = match lastIp addr with
      | some ip => [ip]
      | none => lasting addr := by
  have last : addr.reverse.find? Protocol.isIp = lastIp addr := by
    rw [← List.head?_filter, List.filter_reverse, List.head?_reverse, lastIp]
  rw [selectNonEphemeral, selectLoop_eq, last]
  cases lastIp addr with
  | some ip => rfl
  | none => simp [lasting, List.filter_reverse]

theorem isIp_of_lastIp {addr : Multiaddr} {ip : Protocol} (last : lastIp addr = some ip) :
    ip.isIp = true :=
  (List.mem_filter.mp (List.mem_of_getLast? last)).2

/-! ## What the key depends on -/

theorem not_isEphemeral_of_isIp {p : Protocol} (ip : p.isIp = true) : p.isEphemeral = false := by
  cases p <;> first | rfl | cases ip

theorem lastIp_lasting (addr : Multiaddr) : lastIp (lasting addr) = lastIp addr := by
  unfold lastIp lasting
  rw [List.filter_filter]
  refine congrArg List.getLast? (List.filter_congr fun p _ => ?_)
  cases ip : p.isIp with
  | false => rfl
  | true => simp [not_isEphemeral_of_isIp ip]

theorem lasting_lasting (addr : Multiaddr) : lasting (lasting addr) = lasting addr := by
  simp [lasting, List.filter_filter]

theorem selectNonEphemeral_lasting (addr : Multiaddr) :
    selectNonEphemeral (lasting addr) = selectNonEphemeral addr := by
  rw [selectNonEphemeral_eq, selectNonEphemeral_eq, lastIp_lasting, lasting_lasting]

theorem selectNonEphemeral_idem (addr : Multiaddr) :
    selectNonEphemeral (selectNonEphemeral addr) = selectNonEphemeral addr := by
  cases last : lastIp addr with
  | some ip =>
    have kept : selectNonEphemeral addr = [ip] := by rw [selectNonEphemeral_eq, last]
    have alone : lastIp [ip] = some ip := by simp [lastIp, isIp_of_lastIp last]
    rw [kept, selectNonEphemeral_eq, alone]
  | none =>
    have kept : selectNonEphemeral addr = lasting addr := by rw [selectNonEphemeral_eq, last]
    rw [kept, selectNonEphemeral_lasting, kept]

/-- Insert, delete or change one identity or port. -/
inductive EphemeralEdit : Multiaddr → Multiaddr → Prop
  | insert (before after : Multiaddr) {p : Protocol} (ephemeral : p.isEphemeral = true) :
    EphemeralEdit (before ++ after) (before ++ p :: after)
  | delete (before after : Multiaddr) {p : Protocol} (ephemeral : p.isEphemeral = true) :
    EphemeralEdit (before ++ p :: after) (before ++ after)
  | change (before after : Multiaddr) {p q : Protocol} (ephemeral : p.isEphemeral = true)
      (ephemeral' : q.isEphemeral = true) :
    EphemeralEdit (before ++ p :: after) (before ++ q :: after)

theorem EphemeralEdit.lasting_eq {addr addr' : Multiaddr} (edit : EphemeralEdit addr addr') :
    lasting addr' = lasting addr := by
  cases edit with
  | insert before after ephemeral => simp [lasting, ephemeral]
  | delete before after ephemeral => simp [lasting, ephemeral]
  | change before after ephemeral ephemeral' => simp [lasting, ephemeral, ephemeral']

theorem lasting_eq_of_edits {addr addr' : Multiaddr}
    (edits : Relation.ReflTransGen EphemeralEdit addr addr') : lasting addr' = lasting addr := by
  induction edits with
  | refl => rfl
  | tail _ edit ih => exact edit.lasting_eq.trans ih

/-- The key is the last IP, or without one the address apart from its identities and ports; so
it is a key of itself, and addresses that differ in identities and ports only have the same. -/
theorem key_ignores_ephemeral_parts (addr : Multiaddr) :
    (selectNonEphemeral addr = match lastIp addr with
      | some ip => [ip]
      | none => lasting addr) ∧
    selectNonEphemeral (selectNonEphemeral addr) = selectNonEphemeral addr ∧
    ∀ addr', Relation.ReflTransGen EphemeralEdit addr addr' →
      selectNonEphemeral addr' = selectNonEphemeral addr := by
  refine ⟨selectNonEphemeral_eq addr, selectNonEphemeral_idem addr, fun addr' edits => ?_⟩
  rw [← selectNonEphemeral_lasting addr', lasting_eq_of_edits edits, selectNonEphemeral_lasting]

/-- A relayed address with another port and identity. -/
theorem key_of_relayed_address :
    let addr (port : Nat) (mh : List UInt8) : Multiaddr :=
      [.ip4 0x5fd9c261, .tcp 8008, .p2p [1], .other "p2p-circuit", .ip6 1, .udp port, .p2p mh]
    selectNonEphemeral (addr 4001 [2]) = [.ip6 1] ∧
      selectNonEphemeral (addr 4002 [3]) = selectNonEphemeral (addr 4001 [2]) := by
  intro addr
  refine ⟨rfl, (key_ignores_ephemeral_parts (addr 4001 [2])).2.2 _ ?_⟩
  refine .tail (.single (.change [.ip4 0x5fd9c261, .tcp 8008, .p2p [1], .other "p2p-circuit",
    .ip6 1] [.p2p [2]] (q := .udp 4002) rfl rfl)) ?_
  exact .change [.ip4 0x5fd9c261, .tcp 8008, .p2p [1], .other "p2p-circuit", .ip6 1, .udp 4002] []
    rfl rfl

end Resolver.Content

end IpcAgent

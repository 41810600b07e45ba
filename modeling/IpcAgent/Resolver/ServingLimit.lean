import IpcAgent.Library.Run
import IpcAgent.Resolver.Content
import Mathlib.Tactic.Linarith

/-!
# How much is served

A request is charged before it is answered, by the size of its identifier only; the block is
charged after it was served, and a charge for which there is no room is dropped. So the limit
holds as long as every block fits into what is left of it.
-/

namespace IpcAgent.Resolver.Content
open Library

theorem eq_of_rateLimitOf {bytes : Nat} {period : ℚ} {limit : RateLimit ℚ}
    (limited : rateLimitOf bytes period = some limit) :
    limit.resourceLimit = bytes ∧ limit.period = period := by
  unfold rateLimitOf at limited
  split at limited
  · cases limited
    exact ⟨rfl, rfl⟩
  · cases limited

/-! ## What a charge does -/

namespace Behaviour

variable {b : Behaviour} {limit : RateLimit ℚ} {addr : Multiaddr} {now : ℚ} {peer : PeerId}
  {bytes : Nat}

/-- The bucket that requests from an address are charged to. -/
def bucket (b : Behaviour) (addr : Multiaddr) : GcraState ℚ := b.rateLimiter.bucket addr

/-- A charge changes no more than the buckets. -/
theorem charge_frame (now : ℚ) (b : Behaviour) (peer : PeerId) (bytes : Nat) :
    (b.charge now peer bytes).1 =
      { b with rateLimiter := (b.charge now peer bytes).1.rateLimiter } := by
  unfold charge
  split
  · rfl
  · split <;> rfl

@[simp] theorem outbox_charge (now : ℚ) (b : Behaviour) (peer : PeerId) (bytes : Nat) :
    (b.charge now peer bytes).1.outbox = b.outbox := by
  rw [charge_frame]

theorem charge_of_known (limited : b.rateLimit = some limit)
    (known : b.peerAddresses.lookup peer = some addr) (now : ℚ) (bytes : Nat) :
    (b.charge now peer bytes).2 = ((b.bucket addr).checkAndModifyAt limit now (toU32 bytes)).2 ∧
      (b.charge now peer bytes).1.bucket addr =
        ((b.bucket addr).checkAndModifyAt limit now (toU32 bytes)).1 := by
  unfold charge bucket
  simp only [limited, known, RateLimiter.bucket_addAt_self]
  exact ⟨rfl, trivial⟩

/-- Any charge is one to this bucket, or to none, or to another one. -/
theorem bucket_charge (limited : b.rateLimit = some limit) (addr : Multiaddr) (now : ℚ)
    (peer : PeerId) (bytes : Nat) :
    (b.charge now peer bytes).1.bucket addr = b.bucket addr ∨
      (b.charge now peer bytes).1.bucket addr =
        ((b.bucket addr).checkAndModifyAt limit now (toU32 bytes)).1 := by
  cases known : b.peerAddresses.lookup peer with
  | none => simp [charge, limited, known]
  | some addr' =>
    by_cases same : addr = addr'
    · subst same
      exact .inr (charge_of_known limited known now bytes).2
    · left
      unfold charge bucket
      simp only [limited, known]
      exact RateLimiter.bucket_addAt_of_ne _ _ same _ _

/-- No charge lets a bucket be empty earlier. -/
theorem emptyAt_le_charge (limited : b.rateLimit = some limit) (addr : Multiaddr) {t : ℚ}
    (le : t ≤ now) (peer : PeerId) (bytes : Nat) :
    (b.bucket addr).emptyAt t ≤ ((b.charge now peer bytes).1.bucket addr).emptyAt t := by
  rcases bucket_charge limited addr now peer bytes with same | charged
  · rw [same]
  · rw [charged]
    exact GcraState.emptyAt_le_checkAndModifyAt le (Nat.cast_nonneg _)

/-- No bucket holds more than drains in a period. -/
theorem emptyAt_charge_le (limited : b.rateLimit = some limit) {t : ℚ} (le : now ≤ t)
    (bound : (b.bucket addr).emptyAt t ≤ t + limit.period) (peer : PeerId) (bytes : Nat) :
    ((b.charge now peer bytes).1.bucket addr).emptyAt t ≤ t + limit.period := by
  rcases bucket_charge limited addr now peer bytes with same | charged
  · rwa [same]
  · rw [charged]
    exact GcraState.emptyAt_checkAndModifyAt_le le bound

end Behaviour

/-! ## The peers of one address -/

/-- The sizes listed for some peers. -/
def sizes (peers : Finset PeerId) (l : List (PeerId × Nat)) : List Nat :=
  (l.filter (·.1 ∈ peers)).map (·.2)

@[simp] theorem sizes_nil (peers : Finset PeerId) : sizes peers [] = [] := rfl

@[simp] theorem sizes_cons (peers : Finset PeerId) (e : PeerId × Nat) (l : List (PeerId × Nat)) :
    sizes peers (e :: l) = if e.1 ∈ peers then e.2 :: sizes peers l else sizes peers l := by
  by_cases h : e.1 ∈ peers <;> simp [sizes, h]

@[simp] theorem sizes_append (peers : Finset PeerId) (l l' : List (PeerId × Nat)) :
    sizes peers (l ++ l') = sizes peers l ++ sizes peers l' := by
  simp [sizes]

/-- The input is a request of one of the peers. -/
def Input.isRequestOf (peers : Finset PeerId) : Input → Bool
  | .request p _ => p ∈ peers
  | _ => false

namespace Node

variable (peers : Finset PeerId)

/-- The number of requests of the peers that are let through and not yet charged for. -/
def outstanding (n : Node) : Nat :=
  n.content.outbox.countP (· ∈ peers) + n.pending.countP (·.peer ∈ peers) +
    (sizes peers n.reports).length

/-- The total number of bytes served to the peers. -/
def servedTo (n : Node) : Nat := (sizes peers n.served).sum

/-- The size of the last block served to the peers. -/
def lastServedTo (n : Node) : Nat := (sizes peers n.served).getLast?.getD 0

/-- The peers make no request until `t₀`, and the limit is the given one. -/
structure Quiet (limit : RateLimit ℚ) (t₀ : ℚ) (n : Node) (i : ℚ × Input) : Prop where
  limited : n.content.rateLimit = some limit
  early : i.1 ≤ t₀
  silent : i.2.isRequestOf peers = false

/-- From `t₀` on and for the time `t` the limit is the given one, the peers stay connected
from one address, and none of their requests comes before the one before it is settled. -/
structure Orderly (limit : RateLimit ℚ) (addr : Multiaddr) (t₀ t : ℚ) (n : Node)
    (i : ℚ × Input) : Prop where
  limited : n.content.rateLimit = some limit
  since : t₀ ≤ i.1
  within : i.1 ≤ t₀ + t
  connected : ∀ p ∈ peers, n.content.peerAddresses.lookup p = some addr
  oneAtATime : i.2.isRequestOf peers = true → n.outstanding peers = 0

instance (limit : RateLimit ℚ) (t₀ : ℚ) (n : Node) (i : ℚ × Input) :
    Decidable (n.Quiet peers limit t₀ i) :=
  decidable_of_iff (n.content.rateLimit = some limit ∧ i.1 ≤ t₀ ∧ i.2.isRequestOf peers = false)
    ⟨fun ⟨h₁, h₂, h₃⟩ => ⟨h₁, h₂, h₃⟩, fun ⟨h₁, h₂, h₃⟩ => ⟨h₁, h₂, h₃⟩⟩

instance (limit : RateLimit ℚ) (addr : Multiaddr) (t₀ t : ℚ) (n : Node) (i : ℚ × Input) :
    Decidable (n.Orderly peers limit addr t₀ t i) :=
  decidable_of_iff (n.content.rateLimit = some limit ∧ t₀ ≤ i.1 ∧ i.1 ≤ t₀ + t ∧
      (∀ p ∈ peers, n.content.peerAddresses.lookup p = some addr) ∧
      (i.2.isRequestOf peers = true → n.outstanding peers = 0))
    ⟨fun ⟨h₁, h₂, h₃, h₄, h₅⟩ => ⟨h₁, h₂, h₃, h₄, h₅⟩,
      fun ⟨h₁, h₂, h₃, h₄, h₅⟩ => ⟨h₁, h₂, h₃, h₄, h₅⟩⟩

/-- If the service takes a report about one of the peers, there is room for the whole of it
in the bucket. -/
def Charged (n : Node) (i : ℚ × Input) : Prop :=
  i.2 = .used → ∀ report ∈ n.reports.head?, report.1 ∈ peers →
    report.2 ≤ 0xffffffff ∧ (n.content.charge i.1 report.1 report.2).2 = true

instance (n : Node) (i : ℚ × Input) : Decidable (n.Charged peers i) :=
  inferInstanceAs (Decidable (_ = _ → ∀ report ∈ _, _ → _ ∧ _))

variable {peers} {limit : RateLimit ℚ} {addr : Multiaddr} {n : Node}

/-! ## What a step does -/

theorem countP_eraseIdx (peers : Finset PeerId) {l : List Pending} {k : Nat} {p : Pending}
    (at_k : l[k]? = some p) :
    l.countP (·.peer ∈ peers) =
      (l.eraseIdx k).countP (·.peer ∈ peers) + if p.peer ∈ peers then 1 else 0 := by
  obtain ⟨lt, rfl⟩ := List.getElem?_eq_some_iff.mp at_k
  rw [← (List.getElem_cons_eraseIdx_perm lt).countP_eq, List.countP_cons]
  simp

/-- The steps one by one: nothing to do, a change of settings, the three ways a request can go, a
request handed to Bitswap, an answer without and with a block, and a report taken up. -/
inductive Stepped (n : Node) : ℚ × Input → Node → Prop
  | idle {i : ℚ × Input} : Stepped n i n
  | configured {i : ℚ × Input} {content : Behaviour} (outbox : content.outbox = n.content.outbox)
    (limiter : content.rateLimiter = n.content.rateLimiter) :
    Stepped n i { n with content := content }
  | unlimited {now : ℚ} {peer : PeerId} {cid : Cid} (unlimited : n.content.rateLimit = none) :
    Stepped n (now, .request peer cid) { n with pending := n.pending ++ [⟨peer, false⟩] }
  | refused {now : ℚ} {peer : PeerId} {cid : Cid} :
    Stepped n (now, .request peer cid)
      { n with content := (n.content.charge now peer cid.bytes.length).1 }
  | passed {now : ℚ} {peer : PeerId} {cid : Cid} :
    Stepped n (now, .request peer cid) { n with
      content := { (n.content.charge now peer cid.bytes.length).1 with
        outbox := n.content.outbox ++ [peer] } }
  | forwarded {now : ℚ} {peer : PeerId} {outbox : List PeerId}
    (oldest : n.content.outbox = peer :: outbox) :
    Stepped n (now, .forward) { n with
      content := { n.content with outbox := outbox }
      pending := n.pending ++ [⟨peer, true⟩] }
  | closed {now : ℚ} {k : Nat} {response : Option BitswapResponse} {p : Pending}
    (found : n.pending[k]? = some p) :
    Stepped n (now, .answer k response) { n with pending := n.pending.eraseIdx k }
  | served {now : ℚ} {k : Nat} {data : List UInt8} {p : Pending}
    (found : n.pending[k]? = some p) :
    Stepped n (now, .answer k (some (.block data))) { n with
      pending := n.pending.eraseIdx k
      reports := if p.counted then n.reports ++ [(p.peer, data.length)] else n.reports
      served := n.served ++ [(p.peer, data.length)] }
  | used {now : ℚ} {peer : PeerId} {bytes : Nat} {reports : List (PeerId × Nat)}
    (oldest : n.reports = (peer, bytes) :: reports) :
    Stepped n (now, .used)
      { n with content := n.content.rateLimitUsed now peer bytes, reports := reports }

theorem stepped_onRequest (now : ℚ) (n : Node) (peer : PeerId) (cid : Cid) :
    Stepped n (now, .request peer cid) (n.onRequest now peer cid) := by
  unfold onRequest Behaviour.checkRateLimit
  cases limited : n.content.rateLimit with
  | none => exact .unlimited limited
  | some limit =>
    dsimp only
    split
    · rw [Behaviour.outbox_charge]
      exact .passed
    · exact .refused

theorem stepped_step (n : Node) (i : ℚ × Input) : Stepped n i (n.step i) := by
  obtain ⟨now, i⟩ := i
  cases i with
  | swarm e => exact .configured rfl rfl
  | updateRateLimit bytes => exact .configured rfl rfl
  | request peer cid => exact stepped_onRequest now n peer cid
  | forward =>
    simp only [step, forward]
    split
    · exact .idle
    · exact .forwarded ‹_›
  | answer k response =>
    simp only [step, answer]
    split
    · exact .idle
    · match response with
      | none => exact .closed ‹_›
      | some (.have_ _) => exact .closed ‹_›
      | some (.block data) => exact .served ‹_›
  | used =>
    simp only [step, used]
    split
    · exact .idle
    · exact .used ‹_›

namespace Stepped

variable {n' : Node} {i : ℚ × Input}

/-- A step lets at most one request of the peers through, if it is one. -/
theorem outstanding_le (stepped : Stepped n i n') (peers : Finset PeerId) :
    n'.outstanding peers ≤ n.outstanding peers + if i.2.isRequestOf peers then 1 else 0 := by
  cases stepped with
  | idle => exact Nat.le_add_right _ _
  | configured outbox limiter => simp [outstanding, outbox]
  | unlimited =>
    simp only [outstanding, Input.isRequestOf, List.countP_append, List.countP_cons,
      List.countP_nil]
    grind
  | refused => simp [outstanding, Behaviour.outbox_charge]
  | passed =>
    simp only [outstanding, Input.isRequestOf, List.countP_append, List.countP_cons,
      List.countP_nil]
    grind
  | forwarded oldest =>
    simp only [outstanding, oldest, List.countP_cons, List.countP_append, List.countP_nil]
    omega
  | closed found =>
    have fewer := countP_eraseIdx peers found
    simp only [outstanding]
    omega
  | @served now k data p found =>
    have fewer := countP_eraseIdx peers found
    have reported : (sizes peers (if p.counted then n.reports ++ [(p.peer, data.length)]
        else n.reports)).length ≤
        (sizes peers n.reports).length + if p.peer ∈ peers then 1 else 0 := by
      split
      · by_cases own : p.peer ∈ peers <;> simp [own]
      · exact Nat.le_add_right _ _
    simp only [outstanding]
    omega
  | used oldest =>
    simp only [outstanding, oldest, sizes_cons, Behaviour.rateLimitUsed, Behaviour.outbox_charge]
    split
    · simp only [List.length_cons]
      omega
    · exact Nat.le_add_right _ _

/-- As long as there is a limit, responses are counted. -/
theorem mem_pending (stepped : Stepped n i n') (limited : n.content.rateLimit = some limit) :
    ∀ p ∈ n'.pending, p ∈ n.pending ∨ p.counted = true := by
  intro p mem
  cases stepped with
  | unlimited unlimited =>
    rw [limited] at unlimited
    cases unlimited
  | forwarded oldest =>
    rcases List.mem_append.mp mem with old | new
    · exact .inl old
    · rw [List.mem_singleton.mp new]
      exact .inr rfl
  | closed found => exact .inl (List.mem_of_mem_eraseIdx mem)
  | served found => exact .inl (List.mem_of_mem_eraseIdx mem)
  | _ => exact .inl mem

/-- The buckets change by charges only. -/
theorem bucket_eq (stepped : Stepped n i n') (addr : Multiaddr) :
    n'.content.bucket addr = n.content.bucket addr ∨
      ∃ peer bytes, n'.content.bucket addr = (n.content.charge i.1 peer bytes).1.bucket addr := by
  cases stepped with
  | configured outbox limiter =>
    left
    simp only [Behaviour.bucket, limiter]
  | @refused now peer cid => exact .inr ⟨peer, cid.bytes.length, rfl⟩
  | @passed now peer cid => exact .inr ⟨peer, cid.bytes.length, rfl⟩
  | @used now peer bytes reports oldest => exact .inr ⟨peer, bytes, rfl⟩
  | _ => exact .inl rfl

/-- What a step does to the blocks served to the peers and to the reports about them: nothing,
or it serves a block, or it takes up a report. -/
theorem traffic (stepped : Stepped n i n') (peers : Finset PeerId) :
    (sizes peers n'.reports = sizes peers n.reports ∧
      sizes peers n'.served = sizes peers n.served) ∨
    (∃ p ∈ n.pending, p.peer ∈ peers ∧ ∃ size,
      sizes peers n'.served = sizes peers n.served ++ [size] ∧
      sizes peers n'.reports =
        if p.counted then sizes peers n.reports ++ [size] else sizes peers n.reports) ∨
    (i.2 = .used ∧ ∃ p ∈ peers, ∃ size, n.reports.head? = some (p, size) ∧
      n'.content = n.content.rateLimitUsed i.1 p size ∧
      sizes peers n.reports = size :: sizes peers n'.reports ∧
      sizes peers n'.served = sizes peers n.served) := by
  cases stepped with
  | @served now k data p found =>
    by_cases own : p.peer ∈ peers
    · refine .inr (.inl ⟨p, List.mem_of_getElem? found, own, data.length, ?_, ?_⟩)
      · simp [own]
      · dsimp only
        split <;> simp [own]
    · refine .inl ⟨?_, by simp [own]⟩
      dsimp only
      split <;> simp [own]
  | @used now peer bytes reports oldest =>
    by_cases own : peer ∈ peers
    · exact .inr (.inr ⟨rfl, peer, own, bytes, by simp [oldest], rfl, by simp [oldest, own], rfl⟩)
    · exact .inl ⟨by simp [oldest, own], rfl⟩
  | _ => exact .inl ⟨rfl, rfl⟩

end Stepped

theorem outstanding_pos {p : Pending} (pending : p ∈ n.pending) (own : p.peer ∈ peers) :
    0 < n.outstanding peers := by
  have : 0 < n.pending.countP (·.peer ∈ peers) :=
    List.countP_pos_iff.mpr ⟨p, pending, by simpa using own⟩
  unfold outstanding
  omega

/-! ## Whole runs -/

section Buckets

variable {i : ℚ × Input} (limited : n.content.rateLimit = some limit)

include limited

theorem emptyAt_le_step (addr : Multiaddr) {t : ℚ} (le : t ≤ i.1) :
    (n.content.bucket addr).emptyAt t ≤ ((n.step i).content.bucket addr).emptyAt t := by
  rcases (n.stepped_step i).bucket_eq addr with same | ⟨peer, bytes, charged⟩
  · rw [same]
  · rw [charged]
    exact Behaviour.emptyAt_le_charge limited addr le peer bytes

theorem emptyAt_step_le {t : ℚ} (le : i.1 ≤ t)
    (bound : (n.content.bucket addr).emptyAt t ≤ t + limit.period) :
    ((n.step i).content.bucket addr).emptyAt t ≤ t + limit.period := by
  rcases (n.stepped_step i).bucket_eq addr with same | ⟨peer, bytes, charged⟩
  · rwa [same]
  · rw [charged]
    exact Behaviour.emptyAt_charge_le limited le bound peer bytes

end Buckets

/-- Nothing has been served to the peers and no request of theirs is on the way. -/
structure Idle (peers : Finset PeerId) (limit : RateLimit ℚ) (addr : Multiaddr) (t : ℚ)
    (n : Node) : Prop where
  outstanding : n.outstanding peers = 0
  served : sizes peers n.served = []
  bound : (n.content.bucket addr).emptyAt t ≤ t + limit.period

theorem Idle.step {t₀ t : ℚ} (idle : n.Idle peers limit addr t) {i : ℚ × Input} (le : t₀ ≤ t)
    (quiet : n.Quiet peers limit t₀ i) : (n.step i).Idle peers limit addr t := by
  refine ⟨?_, ?_, emptyAt_step_le quiet.limited (quiet.early.trans le) idle.bound⟩
  · have fewer := (n.stepped_step i).outstanding_le peers
    rw [idle.outstanding, quiet.silent] at fewer
    exact Nat.le_zero.mp fewer
  · rcases (n.stepped_step i).traffic peers with ⟨-, served⟩ | ⟨p, pending, own, -⟩ |
      ⟨-, -, -, -, -, -, -, served⟩
    · rw [served, idle.served]
    · exact absurd idle.outstanding (outstanding_pos pending own).ne'
    · rw [served, idle.served]

/-- What has been served is paid for, but for the last block if its report is on the way. -/
structure Accounted (peers : Finset PeerId) (limit : RateLimit ℚ) (addr : Multiaddr) (t₀ t : ℚ)
    (n : Node) : Prop where
  outstanding : n.outstanding peers ≤ 1
  counted : ∀ p ∈ n.pending, p.peer ∈ peers → p.counted = true
  last : ∀ size ∈ sizes peers n.reports, (sizes peers n.served).getLast? = some size
  paid : limit.incrementInterval (n.servedTo peers) + t₀ ≤
    limit.incrementInterval (sizes peers n.reports).sum + (n.content.bucket addr).emptyAt t₀
  bound : (n.content.bucket addr).emptyAt (t₀ + t) ≤ t₀ + t + limit.period

theorem Idle.accounted {t₀ t : ℚ} (idle : n.Idle peers limit addr (t₀ + t)) :
    n.Accounted peers limit addr t₀ t := by
  have none := idle.outstanding
  unfold Node.outstanding at none
  have reports : sizes peers n.reports = [] := List.eq_nil_of_length_eq_zero (by omega)
  refine ⟨?_, ?_, ?_, ?_, idle.bound⟩
  · rw [idle.outstanding]
    exact Nat.zero_le 1
  · intro p pending own
    exact absurd idle.outstanding (outstanding_pos pending own).ne'
  · simp [reports]
  · have := (n.content.bucket addr).le_emptyAt t₀
    simpa [servedTo, idle.served, reports] using this

namespace Accounted

variable {t₀ t : ℚ}

/-- The two ways in which a block moves the books: it is served, and it is charged for. -/
theorem step (acc : n.Accounted peers limit addr t₀ t) {i : ℚ × Input}
    (orderly : n.Orderly peers limit addr t₀ t i) (charged : n.Charged peers i) :
    (n.step i).Accounted peers limit addr t₀ t := by
  have later := emptyAt_le_step orderly.limited addr orderly.since
  have counted : ∀ p ∈ (n.step i).pending, p.peer ∈ peers → p.counted = true := by
    intro p mem own
    rcases (n.stepped_step i).mem_pending orderly.limited p mem with old | new
    · exact acc.counted p old own
    · exact new
  have outstanding : (n.step i).outstanding peers ≤ 1 := by
    have more := (n.stepped_step i).outstanding_le peers
    have few := acc.outstanding
    cases request : i.2.isRequestOf peers
    · simp only [request, Bool.false_eq_true, if_false] at more
      omega
    · simp only [request, if_true, orderly.oneAtATime request] at more
      omega
  have bound := emptyAt_step_le orderly.limited orderly.within acc.bound
  have paid := acc.paid
  unfold Node.servedTo at paid
  rcases (n.stepped_step i).traffic peers with ⟨reports, served⟩ |
    ⟨p, pending, own, size, served, reports⟩ |
    ⟨isUsed, p, own, size, head, content, reports, served⟩
  · refine ⟨outstanding, counted, ?_, ?_, bound⟩
    · rw [reports, served]
      exact acc.last
    · rw [Node.servedTo, reports, served]
      linarith
  · rw [if_pos (acc.counted p pending own)] at reports
    refine ⟨outstanding, counted, ?_, ?_, bound⟩
    · -- The request was the only one outstanding, so this is the only report.
      have only : sizes peers n.reports = [] := by
        unfold Node.outstanding at outstanding
        rw [reports, List.length_append, List.length_singleton] at outstanding
        exact List.eq_nil_of_length_eq_zero (by omega)
      rw [reports, served, only]
      simp
    · rw [Node.servedTo, reports, served, List.sum_append, List.sum_append, List.sum_singleton,
        Nat.cast_add, Nat.cast_add, limit.incrementInterval_add, limit.incrementInterval_add]
      linarith
  · obtain ⟨small, admitted⟩ := charged isUsed (p, size) head own
    have whole : toU32 size = size := min_eq_left small
    obtain ⟨same, bucket⟩ := Behaviour.charge_of_known orderly.limited (orderly.connected p own)
      i.1 size
    have delayed := GcraState.emptyAt_add_le (same ▸ admitted) orderly.since
    refine ⟨outstanding, counted, ?_, ?_, bound⟩
    · intro size' mem
      rw [served]
      exact acc.last size' (by rw [reports]; exact List.mem_cons_of_mem size mem)
    · rw [reports, List.sum_cons, Nat.cast_add, limit.incrementInterval_add] at paid
      rw [Node.servedTo, served, content, Behaviour.rateLimitUsed, bucket]
      rw [whole] at delayed ⊢
      linarith

/-- What the books say about the number of bytes served. -/
theorem servedTo_le (acc : n.Accounted peers limit addr t₀ t) (nonneg : 0 ≤ t) :
    (n.servedTo peers : ℚ) ≤
      limit.resourceLimit + limit.resourceLimit * t / limit.period + n.lastServedTo peers := by
  obtain ⟨outstanding, -, last, paid, bound⟩ := acc
  have due : (sizes peers n.reports).sum ≤ n.lastServedTo peers := by
    unfold Node.outstanding at outstanding
    match due : sizes peers n.reports with
    | [] => simp
    | [size] => simp [Node.lastServedTo, last size (by simp [due])]
    | _ :: _ :: _ =>
      simp only [due, List.length_cons] at outstanding
      omega
  have settled := (n.content.bucket addr).emptyAt_mono (le_add_of_nonneg_right nonneg : t₀ ≤ t₀ + t)
  have rest : limit.incrementInterval ((n.servedTo peers : ℚ) - (sizes peers n.reports).sum) ≤
      t + limit.period := by
    have split := limit.incrementInterval_add ((n.servedTo peers : ℚ) - (sizes peers n.reports).sum)
      (sizes peers n.reports).sum
    rw [sub_add_cancel] at split
    linarith
  have served := limit.le_of_incrementInterval_le rest
  have due : ((sizes peers n.reports).sum : ℚ) ≤ n.lastServedTo peers := Nat.cast_le.mpr due
  linarith

end Accounted

/-- The peers of an address are served no more than the limit allows in the time since their
first request, and one block more, if each of their blocks fits into what is left of the limit
when it is charged. -/
theorem servedTo_le_of_charged (config : Config) (limit : RateLimit ℚ)
    (limited : rateLimitOf config.rateLimitBytes config.rateLimitPeriod = some limit)
    (peers : Finset PeerId) (addr : Multiaddr) (t₀ t : ℚ) (nonneg : 0 ≤ t)
    (before during : List (ℚ × Input))
    (quiet : Along step (Quiet peers limit t₀) (Node.new config) before)
    (orderly : Along step (Orderly peers limit addr t₀ t) ((Node.new config).run before) during)
    (charged : Along step (Charged peers) ((Node.new config).run before) during) :
    (((Node.new config).run (before ++ during)).servedTo peers : ℚ) ≤
      config.rateLimitBytes + config.rateLimitBytes * t / config.rateLimitPeriod +
        ((Node.new config).run (before ++ during)).lastServedTo peers := by
  have fresh : (Node.new config).Idle peers limit addr (t₀ + t) := by
    refine ⟨rfl, rfl, ?_⟩
    exact le_add_of_nonneg_right limit.period_pos.le
  have idle : ((Node.new config).run before).Idle peers limit addr (t₀ + t) :=
    quiet.foldl (fun n i quiet idle => idle.step (le_add_of_nonneg_right nonneg) quiet) fresh
  have both := along_and.mpr ⟨orderly, charged⟩
  have acc : ((Node.new config).run (before ++ during)).Accounted peers limit addr t₀ t := by
    have split : (Node.new config).run (before ++ during) =
        during.foldl step ((Node.new config).run before) := List.foldl_append
    rw [split]
    exact both.foldl (fun n i h acc => acc.step h.1 h.2) idle.accounted
  have le := acc.servedTo_le nonneg
  obtain ⟨bytes, period⟩ := eq_of_rateLimitOf limited
  rwa [bytes, period] at le

/-- A peer connects. -/
def connects : List (ℚ × Input) :=
  [(0, .swarm (.connectionEstablished ⟨[1]⟩ (.dialer [.ip4 7]) 0))]

/-- The peer asks for two blocks of the same size, one after the other. -/
def twoBlocks (size : Nat) : List (ℚ × Input) :=
  [(0, .request ⟨[1]⟩ ⟨[1]⟩), (0, .forward),
    (0, .answer 0 (some (.block (List.replicate size 0)))), (0, .used),
    (0, .request ⟨[1]⟩ ⟨[2]⟩), (0, .forward),
    (0, .answer 0 (some (.block (List.replicate size 0)))), (0, .used)]

/-- Two blocks of 4 bytes under a limit of 12 bytes a second. -/
theorem servedTo_le_of_charged_small :
    (((Node.new ⟨12, 1⟩).run (connects ++ twoBlocks 4)).servedTo {⟨[1]⟩} : ℚ) ≤
      (12 : Nat) + (12 : Nat) * 0 / 1 +
        ((Node.new ⟨12, 1⟩).run (connects ++ twoBlocks 4)).lastServedTo {⟨[1]⟩} := by
  have bound := servedTo_le_of_charged ⟨12, 1⟩ ⟨12, 1, by norm_num, by norm_num⟩
    (by decide +kernel) {⟨[1]⟩} [.ip4 7] 0 0 le_rfl connects (twoBlocks 4) (by decide +kernel)
    (by decide +kernel) (by decide +kernel)
  exact bound

/-- Two blocks of 20 bytes are served at once under a limit of 10 bytes a second: neither of
them fits into the limit, so neither is charged. -/
theorem large_blocks_served :
    ∃ limit, rateLimitOf 10 1 = some limit ∧
      Along step (Quiet {⟨[1]⟩} limit 0) (Node.new ⟨10, 1⟩) connects ∧
      Along step (Orderly {⟨[1]⟩} limit [.ip4 7] 0 0) ((Node.new ⟨10, 1⟩).run connects)
        (twoBlocks 20) ∧
      ((Node.new ⟨10, 1⟩).run (connects ++ twoBlocks 20)).servedTo {⟨[1]⟩} = 40 ∧
      ((Node.new ⟨10, 1⟩).run (connects ++ twoBlocks 20)).lastServedTo {⟨[1]⟩} = 20 ∧
      ¬ (40 : ℚ) ≤ (10 : Nat) + (10 : Nat) * 0 / 1 + 20 := by
  exact ⟨⟨10, 1, by norm_num, by norm_num⟩, by decide +kernel, by decide +kernel,
    by decide +kernel, by decide +kernel, by decide +kernel, by norm_num⟩

end Node

end IpcAgent.Resolver.Content

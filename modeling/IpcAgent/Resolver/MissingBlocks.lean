import IpcAgent.Library.Worklist
import IpcAgent.Types

/-!
# Missing blocks

`ipld/resolver/src/missing_blocks.rs`. The blocks that are missing below a CID are found by
a search with an explicit stack and no record of what it has looked at. The search is one of
`Library/Worklist`, cut short by the first error.
-/

namespace IpcAgent.Resolver
open Library

/-- What the search uses: the lookup of the block store, and the decoding of the references
of a block, which goes by the codec in its CID. -/
structure Blocks (ε : Type) where
  get : Cid → Except ε (Option (List UInt8))
  references : Cid → List UInt8 → Except ε (List Cid)

/-- What `missing_blocks` returns, and the lookups it has made for it. -/
structure Searched (ε : Type) where
  result : Except ε (List Cid)
  lookups : List Cid

/-- No CID is looked up or returned twice. -/
def Searched.AsksOnce {ε : Type} (s : Searched ε) : Prop :=
  s.lookups.Nodup ∧ ∀ missing, s.result = .ok missing → missing.Nodup

namespace Blocks

variable {ε : Type}

/-- The loop of `missing_blocks`; the head of the list is the top of the stack. `none` says
that the loop is not through yet. -/
def search (bs : Blocks ε) : Nat → (stack missing lookups : List Cid) → Option (Searched ε)
  | _, [], missing, lookups => some ⟨.ok missing, lookups⟩
  | 0, _ :: _, _, _ => none
  | fuel + 1, cid :: stack, missing, lookups =>
    match bs.get cid with
    | .error e => some ⟨.error e, lookups ++ [cid]⟩
    | .ok (some data) =>
      match bs.references cid data with
      | .error e => some ⟨.error e, lookups ++ [cid]⟩
      -- The references are pushed in their order, so the last one is on top.
      | .ok cids => bs.search fuel (cids.reverse ++ stack) missing (lookups ++ [cid])
    | .ok none => bs.search fuel stack (missing ++ [cid]) (lookups ++ [cid])

def missingBlocks (bs : Blocks ε) (fuel : Nat) (cid : Cid) : Option (Searched ε) :=
  bs.search fuel [cid] [] []

/-! ## The links between blocks -/

/-- The references decoded from the block that is stored under the CID. -/
def links (bs : Blocks ε) (cid : Cid) : List Cid :=
  match bs.get cid with
  | .ok (some data) =>
    match bs.references cid data with
    | .ok cids => cids
    | .error _ => []
  | _ => []

/-- The error that looking the CID up or decoding its block ends with. -/
def failure (bs : Blocks ε) (cid : Cid) : Option ε :=
  match bs.get cid with
  | .error e => some e
  | .ok (some data) =>
    match bs.references cid data with
    | .error e => some e
    | .ok _ => none
  | .ok none => none

def isMissing (bs : Blocks ε) (cid : Cid) : Bool :=
  match bs.get cid with
  | .ok none => true
  | _ => false

/-- The links in the order the search follows them. -/
def next (bs : Blocks ε) (cid : Cid) : List Cid := (bs.links cid).reverse

/-- A CID can be reached from another one through stored blocks. -/
def Reachable (bs : Blocks ε) : Cid → Cid → Prop :=
  Relation.ReflTransGen (fun c d => d ∈ bs.links c)

/-- The link relation is well-founded. -/
def WellLinked (bs : Blocks ε) : Prop := WellFounded (fun d c => d ∈ bs.links c)

/-- Nothing below the CID is linked to twice, by one block or by two. -/
def NoSharing (bs : Blocks ε) (root : Cid) : Prop :=
  ∀ c, bs.Reachable root c → (bs.links c).Nodup ∧
    ∀ d, bs.Reachable root d → d ≠ c → (bs.links c).Disjoint (bs.links d)

/-- Under the CID there is a failing lookup, or a block whose references cannot be decoded. -/
def Fails (bs : Blocks ε) (cid : Cid) : Prop :=
  (∃ e, bs.get cid = .error e) ∨
    ∃ data, bs.get cid = .ok (some data) ∧ ∃ e, bs.references cid data = .error e

variable {bs : Blocks ε}

theorem mem_next (c d : Cid) : d ∈ bs.next c ↔ d ∈ bs.links c := List.mem_reverse

theorem reaches_iff (c d : Cid) : Reaches bs.next c d ↔ bs.Reachable c d := by
  unfold Reaches Reachable
  simp only [mem_next]

theorem WellLinked.descends (wf : bs.WellLinked) : Descends bs.next := by
  unfold Descends
  simp only [mem_next]
  exact wf

theorem unshared_iff (root : Cid) : Unshared bs.next root ↔ bs.NoSharing root := by
  unfold Unshared NoSharing
  simp only [reaches_iff, List.Disjoint, mem_next]
  simp only [next, List.nodup_reverse]

theorem isSome_failure_iff (c : Cid) : (∃ e, bs.failure c = some e) ↔ bs.Fails c := by
  unfold failure Fails
  cases bs.get c with
  | error e => simp
  | ok found =>
    cases found with
    | none => simp
    | some data => cases decoded : bs.references c data <;> simp [decoded]

/-! ## The loop follows the search -/

/-- One round of the loop without an error. -/
theorem search_step {c : Cid} (sound : bs.failure c = none) (fuel : Nat)
    (stack missing lookups : List Cid) :
    bs.search (fuel + 1) (c :: stack) missing lookups =
      bs.search fuel (bs.next c ++ stack)
        (missing ++ if bs.isMissing c then [c] else []) (lookups ++ [c]) := by
  unfold failure at sound
  cases found : bs.get c with
  | error e => simp [found] at sound
  | ok block =>
    cases block with
    | none => simp [search, found, next, links, isMissing]
    | some data =>
      cases decoded : bs.references c data with
      | error e => simp [found, decoded] at sound
      | ok cids => simp [search, found, decoded, next, links, isMissing]

/-- One round with an error. -/
theorem search_stop {c : Cid} {e : ε} (fails : bs.failure c = some e) (fuel : Nat)
    (stack missing lookups : List Cid) :
    bs.search (fuel + 1) (c :: stack) missing lookups = some ⟨.error e, lookups ++ [c]⟩ := by
  unfold failure at fails
  cases found : bs.get c with
  | error e' => simp_all [search]
  | ok block =>
    cases block with
    | none => simp [found] at fails
    | some data => cases decoded : bs.references c data <;> simp_all [search]

/-- Without errors on its way, the loop looks up what the search visits, and returns what is
missing among it. -/
theorem search_eq {stack visited : List Cid} (visits : Visits bs.next stack visited)
    (sound : ∀ c ∈ visited, bs.failure c = none) {fuel : Nat} (enough : visited.length ≤ fuel)
    (missing lookups : List Cid) :
    bs.search fuel stack missing lookups =
      some ⟨.ok (missing ++ visited.filter bs.isMissing), lookups ++ visited⟩ := by
  induction visits generalizing fuel missing lookups with
  | nil => simp [search]
  | @cons c stack visited after ih =>
    obtain ⟨here, sound⟩ := List.forall_mem_cons.mp sound
    obtain ⟨fuel, rfl⟩ : ∃ n, fuel = n + 1 :=
      Nat.exists_eq_succ_of_ne_zero (by rw [List.length_cons] at enough; omega)
    rw [search_step here, ih sound (by simpa using enough)]
    cases absent : bs.isMissing c <;> simp [absent]

/-- The first error on its way ends the loop. -/
theorem search_eq_error {stack visited : List Cid} (visits : Visits bs.next stack visited)
    {first rest : List Cid} {c : Cid} {e : ε} (split : visited = first ++ c :: rest)
    (sound : ∀ c ∈ first, bs.failure c = none) (fails : bs.failure c = some e) {fuel : Nat}
    (enough : visited.length ≤ fuel) (missing lookups : List Cid) :
    bs.search fuel stack missing lookups = some ⟨.error e, lookups ++ first ++ [c]⟩ := by
  induction visits generalizing first fuel missing lookups with
  | nil => simp at split
  | @cons d stack visited after ih =>
    obtain ⟨fuel, rfl⟩ : ∃ n, fuel = n + 1 :=
      Nat.exists_eq_succ_of_ne_zero (by rw [List.length_cons] at enough; omega)
    cases first with
    | nil =>
      obtain rfl := (List.cons.inj split).1
      rw [search_stop fails, List.append_nil]
    | cons d' first =>
      obtain ⟨rfl, tail⟩ := List.cons.inj split
      obtain ⟨here, sound⟩ := List.forall_mem_cons.mp sound
      rw [search_step here, ih tail sound (by simpa using enough)]
      simp

/-- The list up to its first error, if there is one. -/
theorem sound_or_split (bs : Blocks ε) (visited : List Cid) :
    (∀ c ∈ visited, bs.failure c = none) ∨
    ∃ first c rest e, visited = first ++ c :: rest ∧ (∀ c ∈ first, bs.failure c = none) ∧
      bs.failure c = some e := by
  induction visited with
  | nil => exact .inl (by simp)
  | cons c visited ih =>
    cases fails : bs.failure c with
    | some e => exact .inr ⟨[], c, visited, e, rfl, by simp, fails⟩
    | none =>
      rcases ih with sound | ⟨first, d, rest, e, rfl, sound, fails'⟩
      · exact .inl (List.forall_mem_cons.mpr ⟨fails, sound⟩)
      · exact .inr ⟨c :: first, d, rest, e, rfl, List.forall_mem_cons.mpr ⟨fails, sound⟩, fails'⟩

/-- How the loop ends, by the search it follows. -/
theorem missingBlocks_cases (wf : bs.WellLinked) (root : Cid) :
    ∃ visited, Visits bs.next [root] visited ∧ ∃ searched : Searched ε,
      (∀ fuel ≥ visited.length, bs.missingBlocks fuel root = some searched) ∧
      ((searched = ⟨.ok (visited.filter bs.isMissing), visited⟩ ∧
          ∀ c ∈ visited, bs.failure c = none) ∨
        ∃ e, searched.result = .error e ∧ searched.lookups <+: visited ∧
          ∃ c ∈ visited, bs.failure c = some e) := by
  obtain ⟨visited, visits⟩ := wf.descends.exists_visits [root]
  refine ⟨visited, visits, ?_⟩
  rcases sound_or_split bs visited with sound | ⟨first, c, rest, e, split, sound, fails⟩
  · refine ⟨_, fun fuel enough => ?_, .inl ⟨rfl, sound⟩⟩
    simpa [missingBlocks] using search_eq visits sound enough [] []
  · refine ⟨⟨.error e, first ++ [c]⟩, fun fuel enough => ?_,
      .inr ⟨e, rfl, ⟨rest, ?_⟩, c, ?_, fails⟩⟩
    · simpa [missingBlocks] using search_eq_error visits split sound fails enough [] []
    · rw [split, List.append_assoc, List.singleton_append]
    · rw [split]
      exact List.mem_append_right _ List.mem_cons_self

/-- Where the links are well-founded, `missing_blocks` returns. It fails if and only if it can
come to a CID that fails; otherwise it returns what it can come to and is not stored. -/
theorem missingBlocks_frontier (bs : Blocks ε) (wf : bs.WellLinked) (root : Cid) :
    ∃ (searched : Searched ε) (enough : Nat),
      (∀ fuel ≥ enough, bs.missingBlocks fuel root = some searched) ∧
      ((∃ e, searched.result = .error e) ↔ ∃ c, bs.Reachable root c ∧ bs.Fails c) ∧
      ∀ missing, searched.result = .ok missing →
        ∀ c, c ∈ missing ↔ bs.Reachable root c ∧ bs.get c = .ok none := by
  obtain ⟨visited, visits, searched, returns, ends⟩ := missingBlocks_cases wf root
  have visited_iff : ∀ c, c ∈ visited ↔ bs.Reachable root c := fun c =>
    (visits.mem_iff_reaches c).trans (reaches_iff root c)
  refine ⟨searched, visited.length, returns, ?_⟩
  rcases ends with ⟨rfl, sound⟩ | ⟨e, failed, -, c, mem, fails⟩
  · constructor
    · refine ⟨by simp, ?_⟩
      rintro ⟨c, reached, fails⟩
      obtain ⟨e, fails⟩ := (isSome_failure_iff c).mpr fails
      simp [sound c ((visited_iff c).mpr reached)] at fails
    · intro missing eq c
      obtain rfl := Except.ok.inj eq
      have absent : bs.isMissing c = true ↔ bs.get c = .ok none := by
        unfold isMissing
        split <;> simp_all
      rw [List.mem_filter, visited_iff, absent]
  · constructor
    · exact ⟨fun _ => ⟨c, (visited_iff c).mp mem, (isSome_failure_iff c).mp ⟨e, fails⟩⟩,
        fun _ => ⟨e, failed⟩⟩
    · intro missing eq
      simp [failed] at eq

/-- Blocks are stored under the first two CIDs only, each a list of one-byte references. -/
def twoBlocks (first second : List UInt8) : Blocks String where
  get c := .ok (if c = ⟨[0]⟩ then some first else if c = ⟨[1]⟩ then some second else none)
  references _ data := .ok (data.map fun byte => ⟨[byte]⟩)

theorem links_twoBlocks (first second : List UInt8) (c : Cid) :
    (twoBlocks first second).links c =
      if c = ⟨[0]⟩ then first.map (⟨[·]⟩) else if c = ⟨[1]⟩ then second.map (⟨[·]⟩) else [] := by
  split_ifs <;> simp [links, twoBlocks, *]

/-- References that only lead on are well-founded. -/
theorem wellLinked_twoBlocks {first second : List UInt8} (onFirst : ∀ b ∈ first, b ≠ 0)
    (onSecond : ∀ b ∈ second, b ≠ 0 ∧ b ≠ 1) : (twoBlocks first second).WellLinked := by
  let rank (c : Cid) : Nat := if c = ⟨[0]⟩ then 2 else if c = ⟨[1]⟩ then 1 else 0
  refine Subrelation.wf (r := InvImage (· < ·) rank) ?_ (InvImage.wf rank Nat.lt_wfRel.wf)
  intro d c link
  rw [links_twoBlocks] at link
  split_ifs at link with isFirst isSecond
  · obtain ⟨b, mem, rfl⟩ := List.mem_map.mp link
    simp only [InvImage, rank, isFirst, Cid.mk.injEq, List.cons.injEq, onFirst b mem, false_and,
      if_false, if_true]
    split <;> omega
  · obtain ⟨b, mem, rfl⟩ := List.mem_map.mp link
    simp [InvImage, rank, isSecond, onSecond b mem]
  · simp at link

/-- Both blocks are stored, and two of the references are not. -/
theorem missingBlocks_frontier_twoBlocks :
    let bs := twoBlocks [1, 3] [2]
    bs.WellLinked ∧ ∃ (searched : Searched String) (enough : Nat),
      (∀ fuel ≥ enough, bs.missingBlocks fuel ⟨[0]⟩ = some searched) ∧
      ((∃ e, searched.result = .error e) ↔ ∃ c, bs.Reachable ⟨[0]⟩ c ∧ bs.Fails c) ∧
      ∀ missing, searched.result = .ok missing →
        ∀ c, c ∈ missing ↔ bs.Reachable ⟨[0]⟩ c ∧ bs.get c = .ok none := by
  intro bs
  have wf : bs.WellLinked := wellLinked_twoBlocks (by decide +kernel) (by decide +kernel)
  exact ⟨wf, missingBlocks_frontier bs wf ⟨[0]⟩⟩

/-! ## How often a block is asked for -/

/-- Where the links are well-founded and nothing is shared, `missing_blocks` asks for each
block once; and if it succeeds, it does so only then. -/
theorem asksOnce_of_noSharing (bs : Blocks ε) (wf : bs.WellLinked) (root : Cid) :
    ∃ (searched : Searched ε) (enough : Nat),
      (∀ fuel ≥ enough, bs.missingBlocks fuel root = some searched) ∧
      (bs.NoSharing root → searched.AsksOnce) ∧
      ((∃ missing, searched.result = .ok missing) → searched.AsksOnce → bs.NoSharing root) := by
  obtain ⟨visited, visits, searched, returns, ends⟩ := missingBlocks_cases wf root
  have nodup_iff : visited.Nodup ↔ bs.NoSharing root :=
    (visits.nodup_iff wf.descends).trans (unshared_iff root)
  refine ⟨searched, visited.length, returns, fun unshared => ?_, fun ok once => ?_⟩
  · have nodup := nodup_iff.mpr unshared
    rcases ends with ⟨rfl, -⟩ | ⟨e, failed, part, -⟩
    · refine ⟨nodup, fun missing eq => ?_⟩
      obtain rfl := Except.ok.inj eq
      exact nodup.filter _
    · refine ⟨nodup.sublist part.sublist, fun missing eq => ?_⟩
      simp [failed] at eq
  · rcases ends with ⟨rfl, -⟩ | ⟨e, failed, -⟩
    · exact nodup_iff.mp once.1
    · obtain ⟨missing, ok⟩ := ok
      simp [failed] at ok

/-- Where every reference occurs once. -/
theorem asksOnce_of_noSharing_twoBlocks :
    let bs := twoBlocks [1, 3] [2]
    bs.WellLinked ∧ bs.NoSharing ⟨[0]⟩ ∧ ∃ (searched : Searched String) (enough : Nat),
      (∀ fuel ≥ enough, bs.missingBlocks fuel ⟨[0]⟩ = some searched) ∧ searched.AsksOnce := by
  intro bs
  have wf : bs.WellLinked := wellLinked_twoBlocks (by decide +kernel) (by decide +kernel)
  have visits : Visits bs.next [⟨[0]⟩] [⟨[0]⟩, ⟨[3]⟩, ⟨[1]⟩, ⟨[2]⟩] :=
    .cons (.cons (.cons (.cons .nil)))
  have unshared : bs.NoSharing ⟨[0]⟩ :=
    (unshared_iff _).mp ((visits.nodup_iff wf.descends).mp (by decide))
  obtain ⟨searched, enough, returns, once, -⟩ := asksOnce_of_noSharing bs wf ⟨[0]⟩
  exact ⟨wf, unshared, searched, enough, returns, once unshared⟩

/-- With two references to the same CID at each level the lookups double: the one block that
is missing is looked up and returned four times. -/
theorem shared_block_asked_again :
    let bs := twoBlocks [1, 1] [2, 2]
    bs.WellLinked ∧ ∃ searched : Searched String,
      (∀ fuel ≥ 7, bs.missingBlocks fuel ⟨[0]⟩ = some searched) ∧
      searched.result = .ok [⟨[2]⟩, ⟨[2]⟩, ⟨[2]⟩, ⟨[2]⟩] ∧
      searched.lookups = [⟨[0]⟩, ⟨[1]⟩, ⟨[2]⟩, ⟨[2]⟩, ⟨[1]⟩, ⟨[2]⟩, ⟨[2]⟩] ∧
      ¬ searched.AsksOnce := by
  intro bs
  refine ⟨wellLinked_twoBlocks (by decide +kernel) (by decide +kernel), ⟨_, _⟩,
    fun fuel enough => ?_, rfl, rfl, ?_⟩
  · obtain ⟨extra, rfl⟩ := Nat.exists_eq_add_of_le' enough
    simp [bs, missingBlocks, search, twoBlocks]
  · rintro ⟨nodup, -⟩
    exact absurd nodup (by decide)

end Blocks

end IpcAgent.Resolver

import IpcAgent.Library.HashMap

/-!
# Caches whose entries expire

An entry lives for a fixed time after its insertion, however often it is used. Every access
first removes the entries whose time is over, so that the next use of such a key starts
afresh.
-/

namespace IpcAgent.Library

/-- A value with the time at which it is dropped. -/
structure Expiring (ν τ : Type) where
  element : ν
  expires : τ

structure TimeCache (κ ν τ : Type) where
  map : HashMap κ (Expiring ν τ)
  ttl : τ

namespace TimeCache

def new {κ ν τ : Type} (ttl : τ) : TimeCache κ ν τ := ⟨∅, ttl⟩

variable {κ ν τ β : Type} [DecidableEq κ] [LinearOrder τ] [Add τ]

/-- The entries that are still alive. -/
def removeExpiredKeys (c : TimeCache κ ν τ) (now : τ) : TimeCache κ ν τ :=
  { c with map := c.map.retain (fun e => now < e.expires) }

/-- The entry of a key, if it is still alive. -/
def get (c : TimeCache κ ν τ) (now : τ) (key : κ) : Option (Expiring ν τ) :=
  (c.removeExpiredKeys now).map.lookup key

/-- `entry(key).or_insert_with(default)`, and what is then done to the value in place. -/
def update (c : TimeCache κ ν τ) (now : τ) (key : κ) (default : ν) (f : ν → ν × β) :
    TimeCache κ ν τ × β :=
  let entry := (c.get now key).getD ⟨default, now + c.ttl⟩
  let changed := f entry.element
  ({ c with map := (c.removeExpiredKeys now).map.insert key { entry with element := changed.1 } },
    changed.2)

variable {c : TimeCache κ ν τ} {now : τ} {key key' : κ} {default : ν} {f : ν → ν × β}
  {e : Expiring ν τ}

omit [Add τ] in
theorem get_eq (c : TimeCache κ ν τ) (now : τ) (key : κ) :
    c.get now key = (c.map.lookup key).filter fun e => now < e.expires := by
  unfold get removeExpiredKeys
  exact AList.lookup_retain ..

omit [Add τ] in
theorem lookup_of_get (found : c.get now key = some e) : c.map.lookup key = some e := by
  rw [get_eq] at found
  exact (Option.filter_eq_some_iff.mp found).1

theorem lookup_update_self : (c.update now key default f).1.map.lookup key =
    some { (c.get now key).getD ⟨default, now + c.ttl⟩ with
      element := (f ((c.get now key).getD ⟨default, now + c.ttl⟩).element).1 } :=
  AList.lookup_insert _

theorem lookup_update_of_ne (ne : key' ≠ key) :
    (c.update now key default f).1.map.lookup key' = c.get now key' :=
  AList.lookup_insert_ne ne

omit [Add τ] in
theorem lt_expires_of_get (found : c.get now key = some e) : now < e.expires := by
  rw [get_eq, Option.filter_eq_some_iff] at found
  simpa using found.2

omit [Add τ] in
/-- What is alive later was alive before. -/
theorem get_get {now' : τ} (le : now ≤ now') :
    (c.get now key).filter (fun e => decide (now' < e.expires)) = c.get now' key := by
  rw [get_eq, get_eq, Option.filter_filter]
  congr 1
  funext e
  by_cases alive : now' < e.expires
  · simp [alive, lt_of_le_of_lt le alive]
  · simp [alive]

/-- Nothing happens to the other keys but that their time goes by. -/
theorem get_update_of_ne (ne : key' ≠ key) {now' : τ} (le : now ≤ now') :
    (c.update now key default f).1.get now' key' = c.get now' key' := by
  rw [get_eq, lookup_update_of_ne ne, get_get le]

/-- The entry that is used is there afterwards, if it is alive. -/
theorem get_update_self
    (alive : now < ((c.get now key).getD ⟨default, now + c.ttl⟩).expires) :
    (c.update now key default f).1.get now key =
      some { (c.get now key).getD ⟨default, now + c.ttl⟩ with
        element := (f ((c.get now key).getD ⟨default, now + c.ttl⟩).element).1 } := by
  rw [get_eq, lookup_update_self, Option.filter_some, if_pos (by simpa using alive)]

end TimeCache

end IpcAgent.Library

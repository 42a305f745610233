import Mathlib.Data.List.Basic

/-! Trees of values. A value of a tree cannot be a dictionary whose keys are
distinct by proof, so it is a list of entries, with the same operations. -/
namespace Collections

variable {κ ν σ α ε : Type*}

/-! ## Lists of entries -/

section Entries

variable [BEq κ] {entries : List (κ × ν)} {k k' : κ} {u v w : ν}

/-- Store a value: in place when the key is known, at the end when it is new. -/
def setEntry : List (κ × ν) → κ → ν → List (κ × ν)
  | [], k, v => [(k, v)]
  | entry :: rest, k, v => if entry.1 == k then (k, v) :: rest else entry :: setEntry rest k v

variable [LawfulBEq κ]

@[simp] theorem lookup_setEntry_self : (setEntry entries k v).lookup k = some v := by
  induction entries with
  | nil => simp [setEntry]
  | cons entry rest ih =>
    rw [setEntry]
    split
    · simp
    · rename_i differ
      rw [List.lookup_cons, beq_eq_false_iff_ne.mpr fun same => differ (beq_iff_eq.mpr same.symm)]
      exact ih

@[simp] theorem lookup_setEntry_ne (differ : k' ≠ k) :
    (setEntry entries k v).lookup k' = entries.lookup k' := by
  induction entries with
  | nil => simp [setEntry, List.lookup_cons, beq_eq_false_iff_ne.mpr differ]
  | cons entry rest ih =>
    obtain ⟨key, value⟩ := entry
    rw [setEntry]
    split
    · rename_i same
      obtain rfl : key = k := eq_of_beq same
      simp [List.lookup_cons, beq_eq_false_iff_ne.mpr differ]
    · rw [List.lookup_cons, List.lookup_cons, ih]

@[simp] theorem setEntry_setEntry : setEntry (setEntry entries k v) k w = setEntry entries k w := by
  induction entries with
  | nil => simp [setEntry]
  | cons entry rest ih =>
    by_cases same : entry.1 = k
    · simp [setEntry, same]
    · simp [setEntry, same, ih]

/-- Storing the value that is there changes nothing. -/
theorem setEntry_lookup (found : entries.lookup k = some v) : setEntry entries k v = entries := by
  induction entries with
  | nil => simp at found
  | cons entry rest ih =>
    obtain ⟨key, value⟩ := entry
    by_cases same : key = k
    · subst same
      rw [List.lookup_cons_self, Option.some.injEq] at found
      rw [setEntry, if_pos BEq.rfl, found]
    · rw [List.lookup_cons, beq_eq_false_iff_ne.mpr fun equal => same equal.symm] at found
      rw [setEntry, if_neg (by simpa using same), ih found]

/-- A key that is there keeps its place, whether it is stored first or second. -/
theorem setEntry_comm (found : entries.lookup k = some u) (differ : k' ≠ k) :
    setEntry (setEntry entries k v) k' w = setEntry (setEntry entries k' w) k v := by
  induction entries with
  | nil => simp at found
  | cons entry rest ih =>
    obtain ⟨key, value⟩ := entry
    by_cases here : key = k
    · simp [setEntry, here, differ.symm]
    · by_cases there : key = k'
      · simp [setEntry, there, differ]
      · rw [List.lookup_cons, beq_eq_false_iff_ne.mpr fun same => here same.symm] at found
        simp [setEntry, here, there, ih found]

end Entries

/-- A loop over a list that changes its elements and carries a state. -/
def each (body : σ → α → Except ε (σ × α)) : σ → List α → Except ε (σ × List α)
  | s, [] => .ok (s, [])
  | s, item :: rest => do
    let (s, item) ← body s item
    let (s, rest) ← each body s rest
    return (s, item :: rest)

variable {body : σ → α → Except ε (σ × α)} {s s' s'' : σ} {item item' : α} {rest rest' : List α}

@[simp] theorem each_nil : each body s [] = .ok (s, []) := rfl

theorem each_cons (first : body s item = .ok (s', item'))
    (others : each body s' rest = .ok (s'', rest')) :
    each body s (item :: rest) = .ok (s'', item' :: rest') := by
  rw [each, first]
  change (each body s' rest >>= _) = _
  rw [others]
  rfl

end Collections

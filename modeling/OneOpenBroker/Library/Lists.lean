import Mathlib.Data.List.Nodup
import Mathlib.Data.List.Perm.Basic
import Mathlib.Data.List.DropRight
import Mathlib.Data.List.Forall2
import Mathlib.Data.Nat.Init

/-! Facts about lists: their last element of a kind, lists that are related
element by element, ordered lists, lists without repetitions and their order,
the order of last occurrences, and repetitions at a distance. -/
namespace Lists

variable {α β : Type*} {l l' : List α} {r : α → α → Prop}

/-- A list with an element of a kind splits at its last one. -/
theorem exists_last {P : α → Prop} (some : ∃ a ∈ l, P a) :
    ∃ first a rest, l = first ++ a :: rest ∧ P a ∧ ∀ b ∈ rest, ¬ P b := by
  induction l with
  | nil => exact absurd some (by simp)
  | cons head tail ih =>
    by_cases more : ∃ a ∈ tail, P a
    · obtain ⟨first, a, rest, rfl, holds, none⟩ := ih more
      exact ⟨head :: first, a, rest, rfl, holds, none⟩
    · obtain ⟨a, member, holds⟩ := some
      rcases List.mem_cons.mp member with rfl | later
      · exact ⟨[], a, tail, rfl, holds, fun b there fits => more ⟨b, there, fits⟩⟩
      · exact absurd ⟨a, later, holds⟩ more

/-- An element has a counterpart in a list that is related element by element. -/
theorem exists_of_forall₂ {R : α → β → Prop} {others : List β} {a : α}
    (paired : List.Forall₂ R l others) (member : a ∈ l) : ∃ b ∈ others, R a b := by
  induction paired with
  | nil => cases member
  | cons here _ ih =>
    rcases List.mem_cons.mp member with rfl | later
    · exact ⟨_, List.mem_cons_self, here⟩
    · obtain ⟨b, listed, there⟩ := ih later
      exact ⟨b, List.mem_cons_of_mem _ listed, there⟩

/-- In an ordered list the elements of a kind that earlier elements share with
later ones are the first ones. -/
theorem mem_takeWhile_of_ordered {p : α → Bool} {a : α} (ordered : l.Pairwise r)
    (down : ∀ a b, r a b → p b = true → p a = true) (member : a ∈ l) (holds : p a = true) :
    a ∈ l.takeWhile p := by
  induction l with
  | nil => cases member
  | cons head tail ih =>
    obtain ⟨before, rest⟩ := List.pairwise_cons.mp ordered
    have first : p head = true := by
      rcases List.mem_cons.mp member with rfl | later
      · exact holds
      · exact down head a (before a later) holds
    rw [List.takeWhile_cons_of_pos first]
    rcases List.mem_cons.mp member with rfl | later
    · exact List.mem_cons_self
    · exact List.mem_cons_of_mem _ (ih rest later)

/-! ## Lists without repetitions -/

/-- A list without repetitions is determined by its members and an order they are in. -/
theorem eq_of_ordered (asymmetric : ∀ a b, r a b → r b a → False) (distinct : l.Nodup)
    (distinct' : l'.Nodup) (members : ∀ a, a ∈ l ↔ a ∈ l') (ordered : l.Pairwise r)
    (ordered' : l'.Pairwise r) : l = l' :=
  List.Perm.eq_of_pairwise (fun a b _ _ before after => (asymmetric a b before after).elim) ordered
    ordered' ((List.perm_ext_iff_of_nodup distinct distinct').mpr members)

variable [DecidableEq α]

/-- In a list without repetitions, what comes earlier has the smaller index. -/
theorem sublist_idxOf (distinct : l.Nodup) (sub : l'.Sublist l) :
    l'.Pairwise fun a b => l.idxOf a < l.idxOf b := by
  refine List.Pairwise.sublist sub ?_
  rw [List.pairwise_iff_getElem]
  intro i j early late before
  rw [distinct.idxOf_getElem, distinct.idxOf_getElem]
  exact before

theorem nodup_eraseDups (l : List α) : l.eraseDups.Nodup := by
  induction length : l.length using Nat.strong_induction_on generalizing l with
  | _ n ih =>
    cases l with
    | nil => exact List.nodup_nil
    | cons a l =>
      rw [List.eraseDups_cons]
      have shorter : (l.filter fun b => !b == a).length < n := by
        rw [← length]
        exact Nat.lt_succ_of_le (List.length_filter_le _ l)
      refine List.nodup_cons.mpr ⟨fun again => ?_, ih _ shorter _ rfl⟩
      simpa using (List.mem_filter.mp (List.mem_eraseDups.mp again)).2

theorem eraseDups_of_nodup (distinct : l.Nodup) : l.eraseDups = l := by
  induction l with
  | nil => rfl
  | cons a l ih =>
    obtain ⟨absent, tail⟩ := List.nodup_cons.mp distinct
    have kept : (l.filter fun b => !b == a) = l := by
      refine List.filter_eq_self.mpr fun b member => ?_
      simpa using fun same : b = a => absent (same ▸ member)
    rw [List.eraseDups_cons, kept, ih tail]

/-- Of `k` names at most, each given once if it is wanted, as many are wanted as
there can be: all that are wanted are named, or `k` of them. -/
theorem length_filter_eq_min_iff {wanted names : List α} {k : Nat}
    (distinct : wanted.Nodup) (bounded : names.length ≤ k)
    (once : (names.filter (· ∈ wanted)).Nodup) :
    (names.filter (· ∈ wanted)).length = min wanted.length k ↔
      (∀ a ∈ wanted, a ∈ names) ∨ names.length = k ∧ ∀ a ∈ names, a ∈ wanted := by
  have inside : (names.filter (· ∈ wanted)).Subperm wanted :=
    List.subperm_of_subset once fun a shown => of_decide_eq_true (List.mem_filter.mp shown).2
  have few := inside.length_le
  have shorter := List.length_filter_le (· ∈ wanted) names
  constructor
  · intro length
    rcases Nat.le_total wanted.length k with fits | exceeds
    · rw [Nat.min_eq_left fits] at length
      refine .inl fun a there => ?_
      have same := inside.perm_of_length_le (Nat.le_of_eq length.symm)
      exact (List.mem_filter.mp (same.mem_iff.mpr there)).1
    · rw [Nat.min_eq_right exceeds] at length
      have all : (names.filter (· ∈ wanted)).length = names.length := by omega
      refine .inr ⟨by omega, fun a named => ?_⟩
      exact of_decide_eq_true (List.length_filter_eq_length_iff.mp all a named)
  · rintro (every | ⟨full, all⟩)
    · have covers : wanted.Subperm (names.filter (· ∈ wanted)) :=
        List.subperm_of_subset distinct fun a there =>
          List.mem_filter.mpr ⟨every a there, decide_eq_true there⟩
      have many := covers.length_le
      omega
    · have same : (names.filter (· ∈ wanted)).length = names.length :=
        List.length_filter_eq_length_iff.mpr fun a named => decide_eq_true (all a named)
      omega

/-! ## The last occurrences of elements -/

/-- The last occurrence of one element comes before that of another. -/
def LastBefore (a b : α) (l : List α) : Prop :=
  ∃ first later, l = first ++ later ∧ a ∈ first ∧ a ∉ later ∧ b ∈ later

omit [DecidableEq α] in
/-- What is appended matters only if it is one of the two. -/
theorem LastBefore.of_append {a b : α} {new : List α} (before : LastBefore a b (l ++ new))
    (other : a ∉ new) (other' : b ∉ new) : LastBefore a b l := by
  obtain ⟨first, later, split, there, absent, there'⟩ := before
  rcases List.append_eq_append_iff.mp split with ⟨middle, rfl, rfl⟩ | ⟨middle, rfl, rfl⟩
  · exact absurd (List.mem_append_right _ there') other'
  · refine ⟨first, middle, rfl, there, fun again => absent (List.mem_append_left _ again), ?_⟩
    exact (List.mem_append.mp there').resolve_right other'

omit [DecidableEq α] in
/-- What was appended last was seen before nothing else. -/
theorem not_lastBefore_append {a b : α} : ¬ LastBefore a b (l ++ [a]) := by
  rintro ⟨first, later, split, _, absent, there⟩
  rcases List.append_eq_append_iff.mp split with ⟨middle, _, tail⟩ | ⟨middle, _, rfl⟩
  · rcases List.append_eq_singleton_iff.mp tail.symm with ⟨_, rfl⟩ | ⟨_, rfl⟩
    · exact absent List.mem_cons_self
    · cases there
  · exact absent (List.mem_append_right _ List.mem_cons_self)

/-! ## Repetitions at a distance -/

section Distance

variable {n : Nat} {a : α}

/-- Elements that are at most `n` places apart are different. -/
def Spread (n : Nat) (l : List α) : Prop :=
  ∀ window, window <:+: l → window.length ≤ n + 1 → window.Nodup

omit [DecidableEq α] in
theorem Spread.nil : Spread n ([] : List α) := by
  intro window inside _
  rw [List.infix_nil.mp inside]
  exact List.nodup_nil

omit [DecidableEq α] in
/-- What is not among the last elements may follow them. -/
theorem Spread.concat (spread : Spread n l) (new : a ∉ l.rtake n) : Spread n (l ++ [a]) := by
  intro window inside short
  rcases List.infix_concat_iff.mp inside with ends | before
  · rcases List.suffix_concat_iff.mp ends with rfl | ⟨tail, rfl, last⟩
    · exact List.nodup_nil
    · rw [List.length_append, List.length_singleton] at short
      have recent : tail <:+ l.rtake n := by
        refine List.suffix_of_suffix_length_le last (List.drop_suffix _ l) ?_
        rw [List.rtake, List.length_drop]
        have bound := last.length_le
        omega
      have distinct : tail.Nodup := spread tail last.isInfix (by omega)
      refine distinct.append (List.nodup_singleton a) ?_
      exact List.disjoint_singleton.mpr fun again => new (recent.subset again)
  · exact spread window before short

omit [DecidableEq α] in
/-- To know the last elements it is enough to have known them before. -/
theorem rtake_rtake_concat : (l.rtake n ++ [a]).rtake n = (l ++ [a]).rtake n := by
  cases n with
  | zero => simp
  | succ n =>
    rw [List.rtake_concat_succ, List.rtake_concat_succ]
    congr 1
    simp only [List.rtake, List.drop_drop, List.length_drop]
    congr 1
    omega

end Distance

end Lists

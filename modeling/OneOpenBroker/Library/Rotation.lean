import Mathlib.Algebra.BigOperators.Group.Finset.Basic
import Mathlib.Algebra.Order.BigOperators.Group.Finset
import Mathlib.Data.Nat.ModEq

/-! Taking turns. Symbols of a list come up one after the other, and at every
moment each has come up as often as any other, up to one time. That is so
exactly if no symbol comes up twice among the first `n`, the second `n` and so
on, where `n` is the number of symbols. The turns may be those of a counter
that also moves on when nothing comes up. -/
namespace Rotation

variable {α : Type*} [DecidableEq α] {ids l part : List α} {a : α} {n b : Nat}

/-- At every moment the symbols have come up equally often, up to one time. -/
def Balanced (ids l : List α) : Prop :=
  ∀ part, part <+: l → ∀ a ∈ ids, ∀ b ∈ ids, part.count a ≤ part.count b + 1

/-- Among the first `n` of a list, the next `n` and so on, all differ. -/
def DistinctRounds (n : Nat) (l : List α) : Prop :=
  ∀ i j, (before : i < j) → (inside : j < l.length) → i / n = j / n →
    l.get ⟨i, before.trans inside⟩ ≠ l.get ⟨j, inside⟩

omit [DecidableEq α] in
/-- From every start, a full round of turns comes to each symbol. -/
theorem exists_turn (member : a ∈ ids) (start : Nat) :
    ∃ k < ids.length, ids[(start + k) % ids.length]? = some a := by
  obtain ⟨i, inside, rfl⟩ := List.mem_iff_getElem.mp member
  have here : start = ids.length * (start / ids.length) + start % ids.length :=
    (Nat.div_add_mod start ids.length).symm
  have within : start % ids.length < ids.length := Nat.mod_lt _ (Nat.zero_lt_of_lt inside)
  have arrives : ∀ k, (∃ rounds, start + k = ids.length * rounds + i) →
      ids[(start + k) % ids.length]? = some ids[i] := by
    rintro k ⟨rounds, same⟩
    rw [same, Nat.mul_add_mod, Nat.mod_eq_of_lt inside, List.getElem?_eq_getElem inside]
  rcases Nat.le_total (start % ids.length) i with ahead | passed
  · exact ⟨i - start % ids.length, by omega, arrives _ ⟨start / ids.length, by omega⟩⟩
  · by_cases same : start % ids.length = i
    · exact ⟨0, by omega, arrives _ ⟨start / ids.length, by omega⟩⟩
    · refine ⟨ids.length + i - start % ids.length, by omega, arrives _ ⟨start / ids.length + 1, ?_⟩⟩
      rw [Nat.mul_add_one]
      omega

/-! ## Counting -/

theorem sum_count (only : ∀ a ∈ l, a ∈ ids) : ∑ a ∈ ids.toFinset, l.count a = l.length := by
  have total := Multiset.sum_count_eq_card (s := ids.toFinset) (m := (l : Multiset α))
    fun a member => List.mem_toFinset.mpr (only a (Multiset.mem_coe.mp member))
  simpa using total

theorem many_count (distinct : ids.Nodup) (only : ∀ a ∈ l, a ∈ ids)
    (least : ∀ x ∈ ids, b ≤ l.count x) (member : a ∈ ids) (more : b < l.count a) :
    ids.length * b < l.length := by
  have larger : ∑ x ∈ ids.toFinset, b < ∑ x ∈ ids.toFinset, l.count x :=
    Finset.sum_lt_sum (fun x inside => least x (List.mem_toFinset.mp inside))
      ⟨a, List.mem_toFinset.mpr member, more⟩
  rwa [sum_count only, Finset.sum_const_nat fun _ _ => rfl, List.toFinset_card_of_nodup distinct] at larger

theorem few_count (distinct : ids.Nodup) (only : ∀ a ∈ l, a ∈ ids)
    (most : ∀ x ∈ ids, l.count x ≤ b) (member : a ∈ ids) (less : l.count a < b) :
    l.length < ids.length * b := by
  have smaller : ∑ x ∈ ids.toFinset, l.count x < ∑ x ∈ ids.toFinset, b :=
    Finset.sum_lt_sum (fun x inside => most x (List.mem_toFinset.mp inside))
      ⟨a, List.mem_toFinset.mpr member, less⟩
  rwa [sum_count only, Finset.sum_const_nat fun _ _ => rfl, List.toFinset_card_of_nodup distinct]
    at smaller

/-- After full rounds every symbol has come up once in each. -/
theorem Balanced.full (balanced : Balanced ids l) (distinct : ids.Nodup)
    (only : ∀ a ∈ l, a ∈ ids) (member : a ∈ ids) (inside : ids.length * b ≤ l.length) :
    (l.take (ids.length * b)).count a = b := by
  have fits : ∀ x ∈ l.take (ids.length * b), x ∈ ids := fun x here => only x (List.mem_of_mem_take here)
  have length : (l.take (ids.length * b)).length = ids.length * b := List.length_take_of_le inside
  have near := balanced _ (List.take_prefix (ids.length * b) l)
  rcases Nat.lt_trichotomy ((l.take (ids.length * b)).count a) b with less | same | more
  · have most : ∀ x ∈ ids, (l.take (ids.length * b)).count x ≤ b := by
      intro x other
      have := near x other a member
      omega
    have short := few_count distinct fits most member less
    omega
  · exact same
  · have least : ∀ x ∈ ids, b ≤ (l.take (ids.length * b)).count x := by
      intro x other
      have := near a member x other
      omega
    have long := many_count distinct fits least member more
    omega

theorem Balanced.distinctRounds (balanced : Balanced ids l) (distinct : ids.Nodup)
    (only : ∀ a ∈ l, a ∈ ids) : DistinctRounds ids.length l := by
  intro i j before inside same again
  simp only [List.get_eq_getElem] at again
  have here : l[j] ∈ ids := only _ (List.getElem_mem inside)
  have positive : 0 < ids.length := List.length_pos_of_mem here
  have start : ids.length * (j / ids.length) ≤ i := by
    rw [← same]
    exact Nat.mul_div_le i ids.length
  -- The symbol is there once before the round, and twice in it.
  have full := balanced.full distinct only here (b := j / ids.length) (by omega)
  have grown : (l.take (ids.length * (j / ids.length))).count l[j] ≤ (l.take i).count l[j] :=
    (List.take_sublist_take_left start).count_le _
  have first : (l.take (i + 1)).count l[j] = (l.take i).count l[j] + 1 := by
    rw [← again, List.take_succ_eq_append_getElem (by omega), List.count_append,
      List.count_singleton_self]
  have kept : (l.take (i + 1)).count l[j] ≤ (l.take j).count l[j] :=
    (List.take_sublist_take_left before).count_le _
  have second : (l.take (j + 1)).count l[j] = (l.take j).count l[j] + 1 := by
    rw [List.take_succ_eq_append_getElem inside, List.count_append, List.count_singleton_self]
  have near := balanced _ (List.take_prefix (j + 1) l)
  have least : ∀ x ∈ ids, j / ids.length + 1 ≤ (l.take (j + 1)).count x := by
    intro x other
    have := near l[j] here x other
    omega
  have long := many_count distinct (fun x there => only x (List.mem_of_mem_take there)) least here
    (by omega)
  have round := Nat.lt_mul_div_succ j positive
  rw [List.length_take_of_le (by omega)] at long
  omega

/-! ## Rounds -/

omit [DecidableEq α] in
/-- A part of one round has no symbol twice. -/
theorem DistinctRounds.nodup (rounds : DistinctRounds n l) {size : Nat} (short : size ≤ n) :
    ((l.drop (n * b)).take size).Nodup := by
  rw [List.nodup_iff_getElem?_ne_getElem?]
  intro i j before inside
  have within : n * b + j < l.length ∧ j < n := by
    rw [List.length_take, List.length_drop] at inside
    omega
  have round (k : Nat) (less : k < n) : (n * b + k) / n = b := by
    rw [Nat.mul_add_div (by omega), Nat.div_eq_of_lt less, Nat.add_zero]
  have differ := rounds (n * b + i) (n * b + j) (by omega) within.1
    (by rw [round i (by omega), round j within.2])
  rw [List.length_take, List.length_drop] at inside
  simp only [List.get_eq_getElem] at differ
  rw [List.getElem?_take_of_lt (by omega), List.getElem?_take_of_lt (by omega), List.getElem?_drop,
    List.getElem?_drop, List.getElem?_eq_getElem (by omega), List.getElem?_eq_getElem within.1]
  simpa using differ

/-- A full round has every symbol once. -/
theorem DistinctRounds.full (rounds : DistinctRounds ids.length l) (distinct : ids.Nodup)
    (only : ∀ a ∈ l, a ∈ ids) (member : a ∈ ids) (inside : ids.length * b ≤ l.length) :
    (l.take (ids.length * b)).count a = b := by
  induction b with
  | zero => simp
  | succ b ih =>
    have round : ids.length * (b + 1) = ids.length * b + ids.length := Nat.mul_succ _ _
    have nodup : ((l.drop (ids.length * b)).take ids.length).Nodup := rounds.nodup (Nat.le_refl _)
    have within : ∀ x ∈ (l.drop (ids.length * b)).take ids.length, x ∈ ids :=
      fun x there => only x (List.mem_of_mem_drop (List.mem_of_mem_take there))
    have all : ((l.drop (ids.length * b)).take ids.length).Perm ids := by
      refine (nodup.subperm within).perm_of_length_le ?_
      rw [List.length_take, List.length_drop]
      omega
    rw [round, List.take_add, List.count_append, ih (by omega), all.count_eq,
      List.count_eq_one_of_mem distinct member]

theorem DistinctRounds.balanced (rounds : DistinctRounds ids.length l) (distinct : ids.Nodup)
    (only : ∀ a ∈ l, a ∈ ids) : Balanced ids l := by
  -- Whatever the number of full rounds, the rest has no symbol twice.
  have near (t : Nat) (inside : t ≤ l.length) (x : α) (member : x ∈ ids) :
      t / ids.length ≤ (l.take t).count x ∧ (l.take t).count x ≤ t / ids.length + 1 := by
    have positive : 0 < ids.length := List.length_pos_of_mem member
    have split : t = ids.length * (t / ids.length) + t % ids.length := (Nat.div_add_mod t ids.length).symm
    have short := (Nat.mod_lt t positive).le
    have nodup : ((l.drop (ids.length * (t / ids.length))).take (t % ids.length)).Nodup :=
      rounds.nodup short
    have once := List.nodup_iff_count_le_one.mp nodup x
    have count : (l.take t).count x = t / ids.length +
        ((l.drop (ids.length * (t / ids.length))).take (t % ids.length)).count x := by
      conv_lhs => rw [split, List.take_add, List.count_append]
      rw [rounds.full distinct only member (by omega)]
    omega
  intro part early x member y other
  obtain ⟨size, rfl⟩ : ∃ size, part = l.take size := ⟨part.length, List.prefix_iff_eq_take.mp early⟩
  rcases Nat.le_total size l.length with inside | outside
  · have := near size inside x member
    have := near size inside y other
    omega
  · rw [List.take_of_length_le outside]
    have mine := near l.length (Nat.le_refl _) x member
    have theirs := near l.length (Nat.le_refl _) y other
    rw [List.take_length] at mine theirs
    omega

theorem balanced_iff (distinct : ids.Nodup) (only : ∀ a ∈ l, a ∈ ids) :
    Balanced ids l ↔ DistinctRounds ids.length l :=
  ⟨fun balanced => balanced.distinctRounds distinct only, fun rounds => rounds.balanced distinct only⟩

/-! ## A counter that also moves on when nothing comes up -/

/-- The turns of a counter that are used, in rounds of the given sizes. After
every round one turn is passed over. -/
def turns (start : Nat) : List Nat → List Nat
  | [] => []
  | size :: sizes => List.range' start size ++ turns (start + size + 1) sizes

theorem turns_append {start : Nat} {first second : List Nat} : turns start (first ++ second) =
    turns start first ++ turns (start + first.sum + first.length) second := by
  induction first generalizing start with
  | nil => simp [turns]
  | cons size sizes ih =>
    rw [List.cons_append, turns, turns, ih, List.append_assoc, List.sum_cons, List.length_cons]
    congr 3
    omega

/-- Where the counter starts only shifts the turns. -/
theorem turns_shift {start shift : Nat} {sizes : List Nat} :
    turns (shift + start) sizes = (turns start sizes).map (shift + ·) := by
  induction sizes generalizing start with
  | nil => rfl
  | cons size sizes ih =>
    rw [turns, turns, List.map_append, List.map_add_range', ← ih, Nat.add_assoc, Nat.add_assoc,
      Nat.add_assoc]

omit [DecidableEq α] in
/-- Different turns of a round bring up different symbols. -/
theorem distinctRounds_map {β γ : Type*} {f : β → α} {g : β → γ} {l : List β} (same : ∀ x y, f x = f y ↔ g x = g y) :
    DistinctRounds n (l.map f) ↔ DistinctRounds n (l.map g) := by
  unfold DistinctRounds
  simp only [List.get_eq_getElem, List.getElem_map, List.length_map, ne_eq, same]

/-- What comes up in the turns of a counter is balanced exactly if in every round
of `n` symbols all turns differ modulo `n`. -/
theorem turns_balanced_iff {start : Nat} {sizes : List Nat} {d : α} (distinct : ids.Nodup)
    (nonempty : ids ≠ []) :
    Balanced ids ((turns start sizes).map fun turn => ids.getD (turn % ids.length) d) ↔
      DistinctRounds ids.length ((turns 0 sizes).map (· % ids.length)) := by
  have positive : 0 < ids.length := List.length_pos_iff.mpr nonempty
  have turn (t : Nat) :
      ids.getD (t % ids.length) d = ids.get ⟨t % ids.length, Nat.mod_lt t positive⟩ := by
    rw [List.getD_eq_getElem?_getD, List.getElem?_eq_getElem (Nat.mod_lt t positive), Option.getD_some,
      List.get_eq_getElem]
  have only : ∀ a ∈ (turns start sizes).map fun turn => ids.getD (turn % ids.length) d, a ∈ ids := by
    intro a member
    obtain ⟨t, _, rfl⟩ := List.mem_map.mp member
    rw [turn]
    exact List.get_mem _ _
  rw [balanced_iff distinct only, ← Nat.add_zero start, turns_shift, List.map_map]
  apply distinctRounds_map
  intro x y
  rw [Function.comp_apply, Function.comp_apply, turn, turn, List.get_eq_getElem,
    List.get_eq_getElem, distinct.getElem_inj_iff]
  exact ⟨Nat.ModEq.add_left_cancel' start, Nat.ModEq.add_left start⟩

end Rotation

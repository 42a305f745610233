import Mathlib.Data.List.Perm.Basic

/-! Binary heaps as Python's `heapq` keeps them: a list in which an item at
`pos` has its children at `2 * pos + 1` and `2 * pos + 2`. The comparison is any
function. Pushes and pops keep the items whatever it is; that the first item is
a least one takes a comparison that is an order. -/
namespace Heapq

variable {α : Type*} (lt : α → α → Bool)

def parent (pos : Nat) : Nat := (pos - 1) / 2

/-- `_siftdown(heap, 0, pos)` of an item: the ancestors that are greater move
down, and the item takes their place. -/
def siftdown (item : α) (heap : List α) (pos : Nat) : List α :=
  if 0 < pos then
    match heap[parent pos]? with
    | none => heap.set pos item
    | some above =>
      if lt item above then siftdown item (heap.set pos above) (parent pos) else heap.set pos item
  else heap.set pos item
termination_by pos
decreasing_by unfold parent; omega

def heappush (heap : List α) (item : α) : List α := siftdown lt item (heap ++ [item]) heap.length

/-- The child that is to move up: the left one, unless the right one is there
and the left one is not smaller. -/
def smallerChild (heap : List α) (left : Nat) : Nat :=
  match heap[left]?, heap[left + 1]? with
  | some a, some b => if lt a b then left else left + 1
  | _, _ => left

theorem smallerChild_eq (heap : List α) (left : Nat) :
    smallerChild lt heap left = left ∨ smallerChild lt heap left = left + 1 := by
  unfold smallerChild
  split
  · split
    · exact .inl rfl
    · exact .inr rfl
  · exact .inl rfl

/-- The loop of `_siftup`: the smaller children move up until a leaf is free. -/
def bubble (heap : List α) (pos : Nat) : List α × Nat :=
  match there : heap[smallerChild lt heap (2 * pos + 1)]? with
  | none => (heap, pos)
  | some below => bubble (heap.set pos below) (smallerChild lt heap (2 * pos + 1))
termination_by heap.length - pos
decreasing_by
  have := (List.getElem?_eq_some_iff.mp there).1
  have := smallerChild_eq lt heap (2 * pos + 1)
  rw [List.length_set]
  omega

/-- `_siftup(heap, 0)` of an item. -/
def siftup (item : α) (heap : List α) : List α :=
  let (heap, pos) := bubble lt heap 0
  siftdown lt item heap pos

/-- The first item, and the heap without it. -/
def heappop : List α → Option (α × List α)
  | [] => none
  | top :: rest =>
    match rest.getLast? with
    | none => some (top, [])
    | some last => some (top, siftup lt last (last :: rest.dropLast))

/-! ## The items -/

section
variable {lt} {item above : α} {heap rest : List α} {pos pos' : Nat} {top : α}

/-- An item that moves down leaves its place to the one that is to be placed. -/
theorem move_perm (here : pos < heap.length) (there : heap[pos']? = some above) (differ : pos ≠ pos') :
    ((heap.set pos above).set pos' item).Perm (heap.set pos item) := by
  have bound := (List.getElem?_eq_some_iff.mp there).1
  have found := (List.getElem?_eq_some_iff.mp there).2
  have swapped (h : pos < (heap.set pos item).length) (h' : pos' < (heap.set pos item).length) :
      (((heap.set pos item).set pos (heap.set pos item)[pos']).set pos' (heap.set pos item)[pos]).Perm
        (heap.set pos item) := List.set_set_perm h h'
  specialize swapped (by simpa using here) (by simpa using bound)
  simp only [List.getElem_set_self, List.getElem_set_ne differ, found, List.set_set] at swapped
  exact swapped

theorem siftdown_perm (inside : pos < heap.length) :
    (siftdown lt item heap pos).Perm (heap.set pos item) := by
  fun_induction siftdown with
  | case1 heap pos positive none => exact .refl _
  | case2 heap pos positive above there smaller ih =>
    have up : parent pos < pos := by unfold parent; omega
    exact (ih (by rw [List.length_set]; omega)).trans (move_perm inside there (by omega))
  | case3 heap pos positive above there kept => exact .refl _
  | case4 heap pos root => exact .refl _

theorem heappush_perm : (heappush lt heap item).Perm (item :: heap) := by
  have sifted : (siftdown lt item (heap ++ [item]) heap.length).Perm
      ((heap ++ [item]).set heap.length item) := siftdown_perm (by simp)
  rw [List.set_append_right _ _ (Nat.le_refl _)] at sifted
  exact sifted.trans (by simp)

theorem bubble_perm (lt : α → α → Bool) (item : α) (inside : pos < heap.length) :
    (bubble lt heap pos).2 < (bubble lt heap pos).1.length ∧
      ((bubble lt heap pos).1.set (bubble lt heap pos).2 item).Perm (heap.set pos item) := by
  fun_induction bubble with
  | case1 heap pos leaf => exact ⟨inside, .refl _⟩
  | case2 heap pos below there ih =>
    have bound := (List.getElem?_eq_some_iff.mp there).1
    have down : pos ≠ smallerChild lt heap (2 * pos + 1) := by
      have := smallerChild_eq lt heap (2 * pos + 1)
      omega
    obtain ⟨inside', moved⟩ := ih (by rw [List.length_set]; exact bound)
    exact ⟨inside', moved.trans (move_perm inside there down)⟩

theorem siftup_perm (some : heap ≠ []) : (siftup lt item heap).Perm (heap.set 0 item) := by
  obtain ⟨inside, bubbled⟩ := bubble_perm lt item (List.length_pos_iff.mpr some)
  exact (siftdown_perm inside).trans bubbled

theorem heappop_perm (popped : heappop lt heap = some (top, rest)) : heap.Perm (top :: rest) := by
  cases heap with
  | nil => cases popped
  | cons first others =>
    unfold heappop at popped
    dsimp only at popped
    cases ending : others.getLast? with
    | none =>
      rw [ending] at popped
      cases popped
      rw [List.getLast?_eq_none_iff.mp ending]
    | some last =>
      rw [ending] at popped
      cases popped
      have split := List.dropLast_append_getLast? last ending
      have sifted : (siftup lt last (last :: others.dropLast)).Perm (last :: others.dropLast) :=
        siftup_perm (by simp)
      refine .cons top (.trans ?_ sifted.symm)
      nth_rewrite 1 [← split]
      exact List.perm_append_singleton last others.dropLast

theorem heappop_head (popped : heappop lt heap = some (top, rest)) : heap.head? = some top := by
  cases heap with
  | nil => cases popped
  | cons first others =>
    unfold heappop at popped
    dsimp only at popped
    split at popped <;> cases popped <;> rfl

end

/-! ## Other items -/

section
variable {β : Type*} {lt} {lt' : β → β → Bool} {put : α → β}

theorem siftdown_map (same : ∀ a b, lt' (put a) (put b) = lt a b) (item : α) (heap : List α) (pos : Nat) :
    siftdown lt' (put item) (heap.map put) pos = (siftdown lt item heap pos).map put := by
  fun_induction siftdown lt item heap pos with
  | case1 heap pos positive none =>
    rw [siftdown, if_pos positive, List.getElem?_map, none, List.map_set]
    rfl
  | case2 heap pos positive above there smaller ih =>
    rw [siftdown, if_pos positive, List.getElem?_map, there, Option.map_some]
    dsimp only
    rw [same, if_pos smaller, ← List.map_set, ih]
  | case3 heap pos positive above there kept =>
    rw [siftdown, if_pos positive, List.getElem?_map, there, Option.map_some]
    dsimp only
    rw [same, if_neg kept, List.map_set]
  | case4 heap pos root => rw [siftdown, if_neg root, List.map_set]

/-- Pushing renamed items is pushing the items, renamed. -/
theorem heappush_map (same : ∀ a b, lt' (put a) (put b) = lt a b) (heap : List α) (item : α) :
    heappush lt' (heap.map put) (put item) = (heappush lt heap item).map put := by
  have appended : heap.map put ++ [put item] = (heap ++ [item]).map put := by simp
  rw [heappush, heappush, appended, List.length_map, siftdown_map same]

theorem smallerChild_map (same : ∀ a b, lt' (put a) (put b) = lt a b) (heap : List α) (left : Nat) :
    smallerChild lt' (heap.map put) left = smallerChild lt heap left := by
  unfold smallerChild
  rw [List.getElem?_map, List.getElem?_map]
  cases heap[left]? with
  | none => rfl
  | some a =>
    cases heap[left + 1]? with
    | none => rfl
    | some b =>
      dsimp only [Option.map_some]
      rw [same]

theorem bubble_map (same : ∀ a b, lt' (put a) (put b) = lt a b) (heap : List α) (pos : Nat) :
    bubble lt' (heap.map put) pos = ((bubble lt heap pos).1.map put, (bubble lt heap pos).2) := by
  fun_induction bubble lt heap pos with
  | case1 heap pos leaf =>
    rw [bubble]
    split
    · rfl
    · rename_i below there
      rw [smallerChild_map same, List.getElem?_map, leaf] at there
      cases there
  | case2 heap pos below there ih =>
    rw [bubble]
    split
    · rename_i none
      rw [smallerChild_map same, List.getElem?_map, there] at none
      cases none
    · rename_i below' there'
      rw [smallerChild_map same, List.getElem?_map, there] at there'
      cases there'
      rw [smallerChild_map same, ← List.map_set, ih]

theorem heappop_map (same : ∀ a b, lt' (put a) (put b) = lt a b) (heap : List α) :
    heappop lt' (heap.map put) = (heappop lt heap).map fun popped => (put popped.1, popped.2.map put) := by
  cases heap with
  | nil => rfl
  | cons top rest =>
    rw [List.map_cons, heappop, heappop, List.getLast?_map]
    cases rest.getLast? with
    | none => rfl
    | some last =>
      have replaced : put last :: (rest.map put).dropLast = (last :: rest.dropLast).map put := by simp
      dsimp only [Option.map_some]
      rw [siftup, siftup, replaced, bubble_map same]
      dsimp only
      rw [siftdown_map same]

end

/-! ## The order -/

/-- The comparison is that of an order in which items may be level. -/
structure Comparison : Prop where
  asymm : ∀ a b, lt a b = true → lt b a = false
  trans : ∀ a b c, lt b a = false → lt c b = false → lt c a = false

/-- The item at `j` is not smaller than the one at `i`. -/
def Below (heap : List α) (i j : Nat) : Prop :=
  ∀ a b, heap[i]? = some a → heap[j]? = some b → lt b a = false

/-- No item is smaller than its parent. -/
def Ordered (heap : List α) : Prop := ∀ pos, 0 < pos → Below lt heap (parent pos) pos

/-- No item is smaller than its parent, but for those next to the hole, and the
children of the hole are not smaller than its parent. -/
structure Holed (heap : List α) (hole : Nat) : Prop where
  off : ∀ pos, 0 < pos → pos ≠ hole → parent pos ≠ hole → Below lt heap (parent pos) pos
  across : 0 < hole → ∀ pos, 0 < pos → parent pos = hole → Below lt heap (parent hole) pos

section
variable {lt} {item above top : α} {heap rest : List α} {pos hole : Nat}

theorem Ordered.nil : Ordered lt ([] : List α) := by
  intro pos _ a b none
  simp at none

theorem Comparison.irrefl (order : Comparison lt) (a : α) : lt a a = false := by
  cases same : lt a a with
  | false => rfl
  | true => exact same.symm.trans (order.asymm a a same)

theorem parent_lt (positive : 0 < pos) : parent pos < pos := by
  unfold parent
  omega

theorem children (positive : 0 < pos) : pos = 2 * parent pos + 1 ∨ pos = 2 * parent pos + 2 := by
  unfold parent
  omega

theorem eq_of_set {a b : α} (found : (heap.set pos a)[pos]? = some b) : b = a := by
  rw [List.getElem?_set, if_pos rfl] at found
  split at found
  · exact (Option.some.inj found).symm
  · cases found

/-- A parent moves down into the hole. -/
theorem Holed.rise (order : Comparison lt) (holed : Holed lt heap hole) (positive : 0 < hole)
    (there : heap[parent hole]? = some above) : Holed lt (heap.set hole above) (parent hole) := by
  have up := parent_lt positive
  constructor
  · intro pos below differ apart a b upper lower
    have here : hole ≠ pos := fun same => apart (same ▸ rfl)
    rw [List.getElem?_set_ne here] at lower
    by_cases under : parent pos = hole
    · rw [under] at upper
      rw [eq_of_set upper]
      exact holed.across positive pos below under above b there lower
    · rw [List.getElem?_set_ne (Ne.symm under)] at upper
      exact holed.off pos below (Ne.symm here) under a b upper lower
  · intro higher pos below sibling a b upper lower
    have further := parent_lt higher
    have grand : Below lt heap (parent (parent hole)) (parent hole) :=
      holed.off _ higher (by omega) (by omega)
    rw [List.getElem?_set_ne (by omega)] at upper
    have first : lt above a = false := grand a above upper there
    by_cases here : pos = hole
    · rw [here] at lower
      rw [eq_of_set lower]
      exact first
    · rw [List.getElem?_set_ne (Ne.symm here)] at lower
      have beside : Below lt heap (parent pos) pos := holed.off pos below here (by omega)
      rw [sibling] at beside
      exact order.trans a above b first (beside above b there lower)

/-- The hole is filled with an item between its parent and its children. -/
theorem Holed.fill (holed : Holed lt heap hole)
    (above : 0 < hole → ∀ a, heap[parent hole]? = some a → lt item a = false)
    (below : ∀ pos, 0 < pos → parent pos = hole → ∀ b, heap[pos]? = some b → lt b item = false) :
    Ordered lt (heap.set hole item) := by
  intro pos positive a b upper lower
  have up := parent_lt positive
  by_cases here : pos = hole
  · subst here
    rw [List.getElem?_set_ne (by omega)] at upper
    rw [eq_of_set lower]
    exact above positive a upper
  · rw [List.getElem?_set_ne (Ne.symm here)] at lower
    by_cases under : parent pos = hole
    · rw [under] at upper
      rw [eq_of_set upper]
      exact below pos positive under b lower
    · rw [List.getElem?_set_ne (Ne.symm under)] at upper
      exact holed.off pos positive here under a b upper lower

/-- An item that is not greater than the children of the hole finds its place. -/
theorem siftdown_ordered (order : Comparison lt) (inside : hole < heap.length)
    (holed : Holed lt heap hole)
    (below : ∀ pos, 0 < pos → parent pos = hole → ∀ b, heap[pos]? = some b → lt b item = false) :
    Ordered lt (siftdown lt item heap hole) := by
  fun_induction siftdown with
  | case1 heap hole positive none =>
    have up := parent_lt positive
    have there := List.getElem?_eq_none_iff.mp none
    omega
  | case2 heap hole positive above there smaller ih =>
    have up := parent_lt positive
    refine ih (by rw [List.length_set]; omega) (holed.rise order positive there) ?_
    intro pos lower sibling b found
    have least : lt above item = false := order.asymm item above smaller
    by_cases here : pos = hole
    · rw [here] at found
      rw [eq_of_set found]
      exact least
    · rw [List.getElem?_set_ne (Ne.symm here)] at found
      have beside : Below lt heap (parent pos) pos := holed.off pos lower here (by omega)
      rw [sibling] at beside
      exact order.trans item above b least (beside above b there found)
  | case3 heap hole positive above there kept =>
    refine holed.fill (fun _ a found => ?_) below
    rw [there] at found
    cases found
    exact Bool.eq_false_iff.mpr kept
  | case4 heap hole root => exact holed.fill (fun positive => absurd positive root) below

theorem heappush_ordered (order : Comparison lt) (ordered : Ordered lt heap) (item : α) :
    Ordered lt (heappush lt heap item) := by
  have leaf (pos : Nat) (positive : 0 < pos) (child : parent pos = heap.length) :
      (heap ++ [item])[pos]? = none := by
    have := parent_lt positive
    rw [List.getElem?_eq_none_iff, List.length_append, List.length_singleton]
    omega
  have childless (b : α) (pos : Nat) (positive : 0 < pos) (child : parent pos = heap.length)
      (found : (heap ++ [item])[pos]? = some b) : False := by
    rw [leaf pos positive child] at found
    cases found
  refine siftdown_ordered order (by simp) ⟨?_, ?_⟩ ?_
  · intro pos positive differ _ a b upper lower
    have up := parent_lt positive
    have bound := (List.getElem?_eq_some_iff.mp lower).1
    rw [List.length_append, List.length_singleton] at bound
    rw [List.getElem?_append_left (by omega)] at upper lower
    exact ordered pos positive a b upper lower
  · intro _ pos positive child a b _ lower
    exact (childless b pos positive child lower).elim
  · intro pos positive child b found
    exact (childless b pos positive child found).elim

/-- The child that moves up is a child, and none of its siblings is smaller. -/
theorem smallerChild_least (order : Comparison lt)
    (there : heap[smallerChild lt heap (2 * hole + 1)]? = some above) :
    parent (smallerChild lt heap (2 * hole + 1)) = hole ∧
      ∀ pos, 0 < pos → parent pos = hole → ∀ b, heap[pos]? = some b → lt b above = false := by
  constructor
  · have := smallerChild_eq lt heap (2 * hole + 1)
    unfold parent
    omega
  · intro pos positive child b found
    have sides := children positive
    rw [child] at sides
    unfold smallerChild at there
    split at there
    · rename_i left right atLeft atRight
      split at there <;> rename_i compared <;> rcases sides with side | side <;> rw [side] at found
      · rw [found] at there
        cases there
        exact order.irrefl above
      · rw [found] at atRight
        rw [atLeft] at there
        cases there
        cases atRight
        exact order.asymm above b compared
      · rw [found] at atLeft
        rw [atRight] at there
        cases there
        cases atLeft
        exact Bool.eq_false_iff.mpr compared
      · rw [found] at there
        cases there
        exact order.irrefl above
    · rename_i lacks
      rcases sides with side | side <;> rw [side] at found
      · rw [found] at there
        cases there
        exact order.irrefl above
      · exact absurd found (lacks above b there)

/-- The smaller child moves up into the hole. -/
theorem Holed.sink (order : Comparison lt) (holed : Holed lt heap hole)
    (there : heap[smallerChild lt heap (2 * hole + 1)]? = some above) :
    Holed lt (heap.set hole above) (smallerChild lt heap (2 * hole + 1)) := by
  obtain ⟨child, least⟩ := smallerChild_least order there
  have down : hole < smallerChild lt heap (2 * hole + 1) := by
    have := smallerChild_eq lt heap (2 * hole + 1)
    omega
  generalize smallerChild lt heap (2 * hole + 1) = next at there child down
  constructor
  · intro pos positive differ apart a b upper lower
    by_cases here : pos = hole
    · subst here
      have up := parent_lt positive
      rw [List.getElem?_set_ne (by omega)] at upper
      rw [eq_of_set lower]
      exact holed.across positive next (by omega) child a above upper there
    · rw [List.getElem?_set_ne (Ne.symm here)] at lower
      by_cases under : parent pos = hole
      · rw [under] at upper
        rw [eq_of_set upper]
        exact least pos positive under b lower
      · rw [List.getElem?_set_ne (Ne.symm under)] at upper
        exact holed.off pos positive here under a b upper lower
  · intro _ pos positive under a b upper lower
    have up := parent_lt positive
    rw [child] at upper
    rw [eq_of_set upper]
    rw [List.getElem?_set_ne (by omega)] at lower
    have beside : Below lt heap (parent pos) pos := holed.off pos positive (by omega) (by omega)
    rw [under] at beside
    exact beside above b there lower

theorem bubble_holed (order : Comparison lt) (holed : Holed lt heap hole) :
    Holed lt (bubble lt heap hole).1 (bubble lt heap hole).2 ∧
      ∀ pos, 0 < pos → parent pos = (bubble lt heap hole).2 → (bubble lt heap hole).1[pos]? = none := by
  fun_induction bubble with
  | case1 heap hole leaf =>
    refine ⟨holed, fun pos positive child => ?_⟩
    dsimp only at child ⊢
    have sides := children positive
    have choice := smallerChild_eq lt heap (2 * hole + 1)
    have bound := List.getElem?_eq_none_iff.mp leaf
    have short : heap.length ≤ 2 * hole + 1 := by
      refine choice.elim (fun same => by omega) fun same => ?_
      by_contra longer
      unfold smallerChild at same
      split at same
      · rename_i atRight
        have := (List.getElem?_eq_some_iff.mp atRight).1
        omega
      · omega
    exact List.getElem?_eq_none_iff.mpr (by omega)
  | case2 heap hole below there ih => exact ih (holed.sink order there)

/-- What is popped from an ordered heap leaves an ordered heap. -/
theorem heappop_ordered (order : Comparison lt) (ordered : Ordered lt heap)
    (popped : heappop lt heap = some (top, rest)) : Ordered lt rest := by
  cases heap with
  | nil => cases popped
  | cons first others =>
    unfold heappop at popped
    dsimp only at popped
    cases ending : others.getLast? with
    | none =>
      rw [ending] at popped
      cases popped
      intro pos _ a b upper
      simp at upper
    | some last =>
      rw [ending] at popped
      cases popped
      have kept (pos : Nat) (positive : 0 < pos) (a : α)
          (found : (last :: others.dropLast)[pos]? = some a) : (top :: others)[pos]? = some a := by
        obtain ⟨n, rfl⟩ := Nat.exists_eq_succ_of_ne_zero (by omega : pos ≠ 0)
        simp only [Nat.succ_eq_add_one, List.getElem?_cons_succ] at found ⊢
        have bound := (List.getElem?_eq_some_iff.mp found).1
        rw [List.length_dropLast] at bound
        rw [List.getElem?_dropLast, if_pos bound] at found
        exact found
      have start : Holed lt (last :: others.dropLast) 0 := by
        refine ⟨fun pos positive _ apart a b upper lower => ?_, fun positive => absurd positive (by omega)⟩
        exact ordered pos positive a b (kept _ (by omega) a upper) (kept pos positive b lower)
      obtain ⟨holed, leaf⟩ := bubble_holed order start
      refine siftdown_ordered order (bubble_perm lt last (by simp)).1 holed ?_
      intro pos positive child b found
      rw [leaf pos positive child] at found
      cases found

/-- No item of an ordered heap is smaller than the first. -/
theorem Ordered.least (order : Comparison lt) (ordered : Ordered lt heap) (first : heap[0]? = some top)
    (member : above ∈ heap) : lt above top = false := by
  obtain ⟨pos, there⟩ := List.mem_iff_getElem?.mp member
  induction pos using Nat.strongRecOn generalizing above with
  | ind pos ih =>
    by_cases root : pos = 0
    · subst root
      rw [first] at there
      cases there
      exact order.irrefl _
    · have positive : 0 < pos := by omega
      have bound := (List.getElem?_eq_some_iff.mp there).1
      have up := parent_lt positive
      obtain ⟨a, upper⟩ : ∃ a, heap[parent pos]? = some a :=
        ⟨_, List.getElem?_eq_getElem (by omega)⟩
      have higher := ih (parent pos) up (List.mem_of_getElem? upper) upper
      exact order.trans top a above higher (ordered pos positive a above upper there)

/-- An item smaller than all others is the one that is popped. -/
theorem heappop_min (order : Comparison lt) {others : List α} (ordered : Ordered lt heap)
    (same : heap.Perm (item :: others)) (least : ∀ other ∈ others, lt item other = true) :
    ∃ rest, heappop lt heap = some (item, rest) ∧ rest.Perm others ∧ Ordered lt rest := by
  cases popped : heappop lt heap with
  | none =>
    cases heap with
    | nil => exact absurd same.symm (by simp)
    | cons first tail =>
      unfold heappop at popped
      dsimp only at popped
      split at popped <;> cases popped
  | some both =>
    obtain ⟨top, rest⟩ := both
    have first := heappop_head popped
    rw [List.head?_eq_getElem?] at first
    have found : top ∈ item :: others := same.subset (List.mem_of_getElem? first)
    have top_eq : top = item := by
      refine (List.mem_cons.mp found).resolve_right fun other => ?_
      have smaller := least top other
      rw [ordered.least order first (same.symm.subset List.mem_cons_self)] at smaller
      cases smaller
    subst top_eq
    exact ⟨rest, rfl, List.Perm.cons_inv ((heappop_perm popped).symm.trans same),
      heappop_ordered order ordered popped⟩

end

end Heapq

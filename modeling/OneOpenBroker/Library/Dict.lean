import Mathlib.Data.List.Nodup
import Mathlib.Data.List.Lookmap
import Mathlib.Data.List.Perm.Basic

/-! Insertion-ordered dictionaries. A key keeps its first position when its
value is replaced and moves to the end when it is removed and stored again,
which is the iteration order of the dictionaries of several languages. The
keys of a dictionary are distinct by construction, so a lookup and membership
of the pair say the same. -/
namespace Collections

/-- A dictionary: its entries in insertion order, no key twice. -/
structure Dict (κ ν : Type*) where
  entries : List (κ × ν)
  nodup : (entries.map Prod.fst).Nodup

namespace Dict

variable {κ ν : Type*} {d : Dict κ ν} {k k' : κ} {v w : ν}

def empty : Dict κ ν := ⟨[], List.nodup_nil⟩

instance : EmptyCollection (Dict κ ν) := ⟨empty⟩

def keys (d : Dict κ ν) : List κ := d.entries.map Prod.fst

def values (d : Dict κ ν) : List ν := d.entries.map Prod.snd

def size (d : Dict κ ν) : Nat := d.entries.length

instance : Membership κ (Dict κ ν) := ⟨fun d k => k ∈ d.keys⟩

@[simp] theorem mem_keys : k ∈ d.keys ↔ k ∈ d := Iff.rfl

theorem keys_nodup (d : Dict κ ν) : d.keys.Nodup := d.nodup

@[simp] theorem length_keys (d : Dict κ ν) : d.keys.length = d.size := List.length_map _

variable [DecidableEq κ]

instance (d : Dict κ ν) (k : κ) : Decidable (k ∈ d) := inferInstanceAs (Decidable (k ∈ d.keys))

def get? (d : Dict κ ν) (k : κ) : Option ν := d.entries.lookup k

private theorem keys_replaced (entries : List (κ × ν)) (k : κ) (v : ν) :
    (entries.map fun p => if p.1 = k then (k, v) else p).map Prod.fst = entries.map Prod.fst := by
  rw [List.map_map]
  apply List.map_congr_left
  intro p _
  by_cases same : p.1 = k <;> simp [same]

/-- Remove several keys. -/
def eraseAll (d : Dict κ ν) (ks : List κ) : Dict κ ν :=
  ⟨d.entries.filter (fun p => p.1 ∉ ks), d.nodup.sublist (List.filter_sublist.map Prod.fst)⟩

omit [DecidableEq κ] in
private theorem appended_nodup (d : Dict κ ν) (v : ν) (unknown : k ∉ d.keys) :
    ((d.entries ++ [(k, v)]).map Prod.fst).Nodup := by
  rw [List.map_append, List.map_singleton, ← List.concat_eq_append]
  exact d.nodup.concat unknown

/-- Store a value: in place when the key is known, at the end when it is new. -/
def set (d : Dict κ ν) (k : κ) (v : ν) : Dict κ ν :=
  if known : k ∈ d.keys then
    ⟨d.entries.map fun p => if p.1 = k then (k, v) else p, by rw [keys_replaced]; exact d.nodup⟩
  else ⟨d.entries ++ [(k, v)], appended_nodup d v known⟩

/-- Remove a key, keeping the order of the others. -/
def erase (d : Dict κ ν) (k : κ) : Dict κ ν :=
  ⟨d.entries.filter (fun p => p.1 ≠ k), d.nodup.sublist (List.filter_sublist.map Prod.fst)⟩

private theorem lookup_iff_mem {entries : List (κ × ν)} (distinct : (entries.map Prod.fst).Nodup) :
    entries.lookup k = some v ↔ (k, v) ∈ entries := by
  induction entries with
  | nil => simp
  | cons head rest ih =>
    obtain ⟨absent, tail⟩ := List.nodup_cons.mp distinct
    rcases eq_or_ne k head.1 with rfl | differ
    · have : ∀ u, (head.1, u) ∉ rest := fun u held => absent (List.mem_map.mpr ⟨_, held, rfl⟩)
      grind
    · grind

theorem get?_eq_some : d.get? k = some v ↔ (k, v) ∈ d.entries := lookup_iff_mem d.nodup

theorem mem_iff : k ∈ d ↔ ∃ v, d.get? k = some v := by
  simp only [get?_eq_some]
  exact List.mem_map.trans ⟨fun ⟨p, held, same⟩ => ⟨p.2, same ▸ held⟩, fun ⟨v, held⟩ => ⟨_, held, rfl⟩⟩

theorem mem_of_get? (found : d.get? k = some v) : k ∈ d := mem_iff.mpr ⟨v, found⟩

theorem mem_values : v ∈ d.values ↔ ∃ k, d.get? k = some v := by
  simp only [get?_eq_some]
  exact List.mem_map.trans ⟨fun ⟨p, held, same⟩ => ⟨p.1, same ▸ held⟩, fun ⟨k, held⟩ => ⟨_, held, rfl⟩⟩

theorem get?_eq_none : d.get? k = none ↔ k ∉ d := by
  rw [mem_iff, Option.eq_none_iff_forall_ne_some]
  exact not_exists.symm

theorem isSome_get? : (d.get? k).isSome ↔ k ∈ d := by rw [mem_iff, Option.isSome_iff_exists]

@[simp] theorem get?_empty : (∅ : Dict κ ν).get? k = none := rfl

@[simp] theorem not_mem_empty : k ∉ (∅ : Dict κ ν) := by
  rw [← get?_eq_none]; exact get?_empty

@[simp] theorem get?_set_self : (d.set k v).get? k = some v := by
  rw [get?_eq_some, set]
  split
  · rename_i known
    obtain ⟨p, held, same⟩ := List.mem_map.mp known
    exact List.mem_map.mpr ⟨p, held, by simp [same]⟩
  · simp

@[simp] theorem get?_set_ne (differ : k' ≠ k) : (d.set k v).get? k' = d.get? k' := by
  refine Option.ext fun w => ?_
  rw [get?_eq_some, get?_eq_some, set]
  split
  · constructor
    · intro held
      obtain ⟨p, held, image⟩ := List.mem_map.mp held
      by_cases same : p.1 = k
      · rw [if_pos same, Prod.mk.injEq] at image
        exact absurd image.1.symm differ
      · rw [if_neg same] at image
        exact image ▸ held
    · intro held
      exact List.mem_map.mpr ⟨_, held, if_neg differ⟩
  · simp [differ]

theorem get?_set : (d.set k v).get? k' = if k' = k then some v else d.get? k' := by
  by_cases same : k' = k
  · subst same; simp
  · simp [same]

@[simp] theorem mem_set : k' ∈ d.set k v ↔ k' = k ∨ k' ∈ d := by
  by_cases same : k' = k
  · subst same; simp [mem_of_get? get?_set_self]
  · simp [mem_iff, same]

@[simp] theorem get?_erase_self : (d.erase k).get? k = none := by
  refine Option.eq_none_iff_forall_ne_some.mpr fun w found => ?_
  simp [get?_eq_some, erase] at found

@[simp] theorem get?_erase_ne (differ : k' ≠ k) : (d.erase k).get? k' = d.get? k' := by
  refine Option.ext fun w => ?_
  simp [get?_eq_some, erase, differ]

theorem get?_erase : (d.erase k).get? k' = if k' = k then none else d.get? k' := by
  by_cases same : k' = k
  · subst same; simp
  · simp [same]

@[simp] theorem mem_erase : k' ∈ d.erase k ↔ k' ≠ k ∧ k' ∈ d := by
  by_cases same : k' = k
  · subst same; simp [← get?_eq_none]
  · simp [mem_iff, same]

theorem get?_eraseAll {ks : List κ} : (d.eraseAll ks).get? k = if k ∈ ks then none else d.get? k := by
  refine Option.ext fun w => ?_
  by_cases listed : k ∈ ks <;> simp [get?_eq_some, eraseAll, listed]

/-- A new key comes last. -/
theorem entries_set_new (unknown : k ∉ d) : (d.set k v).entries = d.entries ++ [(k, v)] := by
  unfold set
  rw [dif_neg (mt mem_keys.mp unknown)]

/-- The last entry is replaced in place. -/
theorem entries_set_last {earlier : List (κ × ν)} (last : d.entries = earlier ++ [(k, v)]) :
    (d.set k w).entries = earlier ++ [(k, w)] := by
  have distinct := d.nodup
  rw [last, List.map_append, List.nodup_append] at distinct
  have known : k ∈ d.keys := by
    rw [keys, last]
    simp
  have others : ∀ p ∈ earlier, (if p.1 = k then (k, w) else p) = p := by
    intro p member
    exact if_neg (distinct.2.2 p.1 (List.mem_map_of_mem member) k (by simp))
  unfold set
  rw [dif_pos known]
  dsimp only
  rw [last, List.map_append, List.map_congr_left others, List.map_id']
  simp

theorem keys_set : (d.set k v).keys = if k ∈ d then d.keys else d.keys ++ [k] := by
  by_cases known : k ∈ d.keys
  · rw [if_pos (mem_keys.mp known)]
    unfold set
    rw [dif_pos known]
    exact keys_replaced d.entries k v
  · rw [if_neg (mt mem_keys.mpr known)]
    unfold set
    rw [dif_neg known]
    exact List.map_append

theorem keys_prefix_set : d.keys <+: (d.set k v).keys := by
  rw [keys_set]
  split
  · exact List.prefix_rfl
  · exact List.prefix_append _ _

theorem size_set_of_mem (known : k ∈ d) : (d.set k v).size = d.size := by
  have listed : k ∈ d.keys := known
  simp [size, set, listed]

theorem size_set_of_not_mem (absent : k ∉ d) : (d.set k v).size = d.size + 1 := by
  have unlisted : k ∉ d.keys := absent
  simp [size, set, unlisted]

/-- Removing a key that is there leaves one entry less. -/
theorem size_erase_of_mem (known : k ∈ d) : (d.erase k).size + 1 = d.size := by
  have left : (d.erase k).keys = d.keys.erase k := by
    rw [d.keys_nodup.erase_eq_filter]
    unfold keys erase
    rw [List.filter_map]
    refine congrArg (List.map Prod.fst) (List.filter_congr fun p _ => ?_)
    simp only [Function.comp, bne, beq_eq_decide, decide_not]
  rw [← length_keys, ← length_keys, left, List.length_erase_of_mem known]
  exact Nat.sub_add_cancel (List.length_pos_of_mem known)

theorem size_erase_le : (d.erase k).size ≤ d.size := List.length_filter_le _ _

/-- Store all entries of another dictionary. -/
def update (d e : Dict κ ν) : Dict κ ν := e.entries.foldl (fun d entry => d.set entry.1 entry.2) d

theorem get?_update {e : Dict κ ν} : (d.update e).get? k = (e.get? k).or (d.get? k) := by
  have stored : ∀ (entries : List (κ × ν)) (d : Dict κ ν), (entries.map Prod.fst).Nodup →
      (entries.foldl (fun d entry => d.set entry.1 entry.2) d).get? k =
        (entries.lookup k).or (d.get? k) := by
    intro entries
    induction entries with
    | nil => simp
    | cons entry rest ih =>
      intro d distinct
      obtain ⟨absent, others⟩ := List.nodup_cons.mp distinct
      rw [List.foldl_cons, ih _ others, get?_set]
      by_cases same : k = entry.1
      · have once : rest.lookup k = none := by
          rw [List.lookup_eq_none_iff]
          intro other listed
          rw [same, bne_iff_ne]
          intro again
          exact absent (List.mem_map.mpr ⟨other, listed, again.symm⟩)
        rw [once, if_pos same, List.lookup_cons, same, beq_self_eq_true]
        rfl
      · have differ : (k == entry.1) = false := beq_eq_false_iff_ne.mpr same
        rw [if_neg same, List.lookup_cons, differ]
  exact stored _ _ e.nodup

/-- Every entry satisfies a property of its key and value. -/
def All (P : κ → ν → Prop) (d : Dict κ ν) : Prop := ∀ k v, d.get? k = some v → P k v

variable {P Q : κ → ν → Prop}

theorem all_empty : All P (∅ : Dict κ ν) := fun _ _ found => nomatch found

theorem All.set (all : All P d) (new : P k v) : All P (d.set k v) := by
  intro k' v' found
  rw [get?_set] at found
  split at found
  · rename_i same
    exact same ▸ Option.some.inj found ▸ new
  · exact all k' v' found

theorem All.update {e : Dict κ ν} (all : All P d) (more : All P e) : All P (d.update e) := by
  intro k v found
  rw [get?_update, Option.or_eq_some_iff] at found
  rcases found with there | ⟨_, before⟩
  · exact more k v there
  · exact all k v before

/-- Every entry but the one of a key satisfies a property. -/
def AllBut (k : κ) (P : κ → ν → Prop) (d : Dict κ ν) : Prop :=
  ∀ k' v, k' ≠ k → d.get? k' = some v → P k' v

theorem All.but (all : All P d) : AllBut k P d := fun k' v _ found => all k' v found

theorem AllBut.stored (others : AllBut k P d) : AllBut k P (d.set k v) := by
  intro k' v' differ found
  rw [get?_set_ne differ] at found
  exact others k' v' differ found

theorem AllBut.set (others : AllBut k P d) (new : P k v) : All P (d.set k v) := by
  intro k' v' found
  by_cases same : k' = k
  · subst same
    rw [get?_set_self] at found
    exact Option.some.inj found ▸ new
  · rw [get?_set_ne same] at found
    exact others k' v' same found

theorem All.erase (all : All P d) : All P (d.erase k) := by
  intro k' v' found
  rw [get?_erase] at found
  split at found
  · cases found
  · exact all k' v' found

theorem All.imp (all : All P d) (weaker : ∀ k v, P k v → Q k v) : All Q d :=
  fun k v found => weaker k v (all k v found)

end Dict
end Collections

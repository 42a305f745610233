import Mathlib.Logic.Embedding.Basic
import OneOpenBroker.Library.Dict

/-! Dictionaries under other names. Where keys are renamed one to one, and the
values translated, every operation on a dictionary is the same operation on
what it was translated to. -/
namespace Collections.Dict

variable {κ κ' ν ν' : Type*}

/-- The dictionary with its keys renamed and its values translated. -/
def relabel (rename : κ ↪ κ') (translate : ν → ν') (d : Dict κ ν) : Dict κ' ν' :=
  ⟨d.entries.map fun p => (rename p.1, translate p.2), by
    rw [List.map_map, show (Prod.fst ∘ fun p : κ × ν => (rename p.1, translate p.2)) = rename ∘ Prod.fst from rfl,
      ← List.map_map]
    exact d.nodup.map rename.injective⟩

variable {rename : κ ↪ κ'} {translate : ν → ν'} {d d' : Dict κ ν} {k : κ} {v w : ν}

theorem ext_entries (same : d.entries = d'.entries) : d = d' := by
  cases d
  cases d'
  congr

@[simp] theorem relabel_empty : relabel rename translate (∅ : Dict κ ν) = ∅ := rfl

@[simp] theorem keys_relabel : (d.relabel rename translate).keys = d.keys.map rename := by
  simp [keys, relabel]

@[simp] theorem values_relabel : (d.relabel rename translate).values = d.values.map translate := by
  simp [values, relabel]

@[simp] theorem size_relabel : (d.relabel rename translate).size = d.size := List.length_map _

@[simp] theorem mem_relabel : rename k ∈ d.relabel rename translate ↔ k ∈ d := by
  rw [← mem_keys, keys_relabel, List.mem_map_of_injective rename.injective, mem_keys]

section Stored

variable [DecidableEq κ]

/-- The value of a known key is replaced in place. -/
theorem entries_set_known (known : k ∈ d) :
    (d.set k v).entries = d.entries.map fun p => if p.1 = k then (k, v) else p := by
  unfold set
  rw [dif_pos (mem_keys.mpr known)]

/-- A value that is replaced was not stored. -/
@[simp] theorem set_set : (d.set k v).set k w = d.set k w := by
  apply ext_entries
  rw [entries_set_known (mem_set.mpr (.inl rfl))]
  by_cases known : k ∈ d
  · rw [entries_set_known known, entries_set_known known, List.map_map]
    refine List.map_congr_left fun p _ => ?_
    by_cases same : p.1 = k <;> simp [same]
  · rw [entries_set_new known, entries_set_new known, List.map_append]
    have others : ∀ p ∈ d.entries, (if p.1 = k then (k, w) else p) = p :=
      fun p member => if_neg fun same : p.1 = k => known (same ▸ List.mem_map_of_mem member)
    rw [List.map_congr_left others, List.map_id']
    simp

@[simp] theorem erase_set : (d.set k v).erase k = d.erase k := by
  apply ext_entries
  change (d.set k v).entries.filter (fun p => p.1 ≠ k) = d.entries.filter (fun p => p.1 ≠ k)
  by_cases known : k ∈ d
  · rw [entries_set_known known, List.filter_map,
      show ((fun p : κ × ν => decide (p.1 ≠ k)) ∘ fun p => if p.1 = k then (k, v) else p) =
        fun p => decide (p.1 ≠ k) by funext p; by_cases here : p.1 = k <;> simp [here]]
    have others : ∀ p ∈ d.entries.filter (fun p => decide (p.1 ≠ k)), (if p.1 = k then (k, v) else p) = p :=
      fun p member => if_neg (of_decide_eq_true (List.mem_filter.mp member).2)
    rw [List.map_congr_left others, List.map_id']
  · rw [entries_set_new known]
    simp

end Stored

variable [DecidableEq κ] [DecidableEq κ']

@[simp] theorem get?_relabel : (d.relabel rename translate).get? (rename k) = (d.get? k).map translate := by
  cases found : d.get? k with
  | none =>
    rw [Option.map_none, get?_eq_none, mem_relabel]
    exact get?_eq_none.mp found
  | some v => exact get?_eq_some.mpr (List.mem_map.mpr ⟨(k, v), get?_eq_some.mp found, rfl⟩)

@[simp] theorem relabel_set :
    (d.set k v).relabel rename translate = (d.relabel rename translate).set (rename k) (translate v) := by
  apply ext_entries
  change (d.set k v).entries.map _ = _
  by_cases known : k ∈ d
  · rw [entries_set_known known, entries_set_known (mem_relabel.mpr known)]
    simp only [relabel, List.map_map]
    refine List.map_congr_left fun p _ => ?_
    by_cases same : p.1 = k <;> simp [same]
  · rw [entries_set_new known, entries_set_new (mt mem_relabel.mp known)]
    simp [relabel]

@[simp] theorem relabel_erase :
    (d.erase k).relabel rename translate = (d.relabel rename translate).erase (rename k) := by
  apply ext_entries
  simp only [erase, relabel, List.filter_map]
  refine congrArg _ (List.filter_congr fun p _ => ?_)
  simp

@[simp] theorem relabel_eraseAll {ks : List κ} : (d.eraseAll ks).relabel rename translate =
    (d.relabel rename translate).eraseAll (ks.map rename) := by
  apply ext_entries
  simp only [eraseAll, relabel, List.filter_map]
  refine congrArg _ (List.filter_congr fun p _ => ?_)
  simp only [Function.comp_apply, List.mem_map_of_injective rename.injective]

end Collections.Dict

import Mathlib.Algebra.BigOperators.Group.List.Basic
import Mathlib.Algebra.Order.Ring.Int
import OneOpenBroker.Library.Runs

/-! Refinement of a transition relation by a deterministic system. A step of
the system is explained by a trace of the relation: some labels that lead from
the abstract state before it to the one after it, of which those that can be
seen are what the step shows. What is seen of a run is then seen of a trace. -/
namespace Systems

variable {σ α τ ℓ ω : Type*} {next : τ → ℓ → τ → Prop} {visible : ℓ → Option ω} {s s' s'' : τ}
  {label : ℓ} {labels more : List ℓ}

/-- The labels lead from one state to another. -/
inductive Trace (next : τ → ℓ → τ → Prop) : τ → List ℓ → τ → Prop where
  | refl (s : τ) : Trace next s [] s
  | cons {s s' s'' : τ} {label : ℓ} {labels : List ℓ} (first : next s label s')
      (rest : Trace next s' labels s'') : Trace next s (label :: labels) s''

theorem Trace.single (first : next s label s') : Trace next s [label] s' := .cons first (.refl s')

theorem Trace.append (first : Trace next s labels s') (second : Trace next s' more s'') :
    Trace next s (labels ++ more) s'' := by
  induction first with
  | refl => exact second
  | cons step _ ih => exact .cons step (ih second)

theorem Trace.cut (trace : Trace next s (labels ++ more) s'') :
    ∃ s', Trace next s labels s' ∧ Trace next s' more s'' := by
  induction labels generalizing s with
  | nil => exact ⟨s, .refl s, trace⟩
  | cons label labels ih =>
    cases trace with
    | cons first rest =>
      obtain ⟨s', before, after⟩ := ih rest
      exact ⟨s', .cons first before, after⟩

/-- A measure that no label raises by more than its weight is not raised by
more than the weight of the trace. -/
theorem Trace.measured (measure : τ → ℤ) (weight : ℓ → ℤ)
    (bound : ∀ s label s', next s label s' → measure s' ≤ measure s + weight label)
    (trace : Trace next s labels s') : measure s' ≤ measure s + (labels.map weight).sum := by
  induction trace with
  | refl => simp
  | cons first _ ih =>
    have here := bound _ _ _ first
    rw [List.map_cons, List.sum_cons]
    omega

/-! ## What is seen -/

/-- A trace of which these labels are seen. -/
def Explains (next : τ → ℓ → τ → Prop) (visible : ℓ → Option ω) (s : τ) (seen : List ω) (s' : τ) :
    Prop :=
  ∃ labels, Trace next s labels s' ∧ labels.filterMap visible = seen

variable {seen seen' : List ω}

theorem Explains.refl (s : τ) : Explains next visible s [] s := ⟨[], .refl s, rfl⟩

theorem Explains.step (first : next s label s') :
    Explains next visible s (visible label).toList s' := by
  refine ⟨[label], .single first, ?_⟩
  cases seen : visible label <;> simp [seen]

theorem Explains.trans (first : Explains next visible s seen s')
    (second : Explains next visible s' seen' s'') : Explains next visible s (seen ++ seen') s'' := by
  obtain ⟨labels, trace, rfl⟩ := first
  obtain ⟨more, trace', rfl⟩ := second
  exact ⟨labels ++ more, trace.append trace', List.filterMap_append⟩

/-- An event that is seen is the label of a step, between what was seen before
it and what is seen after it. -/
theorem Explains.cut {event : ω} (explains : Explains next visible s (seen ++ event :: seen') s'') :
    ∃ before label after, Explains next visible s seen before ∧ next before label after ∧
      visible label = some event ∧ Explains next visible after seen' s'' := by
  obtain ⟨labels, trace, parts⟩ := explains
  obtain ⟨early, late, rfl, rfl, later⟩ := List.filterMap_eq_append_iff.mp parts
  obtain ⟨unseen, label, rest, rfl, none, same, remaining⟩ := List.filterMap_eq_cons_iff.mp later
  obtain ⟨middle, first, trace⟩ := trace.cut
  obtain ⟨before, quiet, trace⟩ := trace.cut
  cases trace with
  | cons step trace =>
    refine ⟨before, label, _, ⟨early ++ unseen, first.append quiet, ?_⟩, step, same,
      rest, trace, remaining⟩
    rw [List.filterMap_append, List.filterMap_eq_nil_iff.mpr none, List.append_nil]

/-! ## Runs -/

/-- What the steps of a run show. -/
def observed (step : σ → α → σ) (shows : σ → α → List ω) : σ → List α → List ω
  | _, [] => []
  | s, action :: rest => shows s action ++ observed step shows (step s action) rest

/-- Where another system matches every allowed step with some steps of its own,
it matches an allowed run with all of these. -/
theorem run_matched {τ β : Type*} {step : σ → α → σ} {allowed : σ → α → Prop} {own : τ → β → τ}
    {does : σ → α → List β} {R : σ → τ → Prop}
    (holds : ∀ s t action, R s t → allowed s action → R (step s action) (run own t (does s action)))
    {s : σ} {t : τ} {actions : List α} (start : R s t) (ok : Allowed step allowed s actions) :
    R (run step s actions) (run own t (observed step does s actions)) := by
  induction actions generalizing s t with
  | nil => exact start
  | cons action rest ih =>
    rw [observed, run_append]
    exact ih (holds s t action start ok.1) ok.2

/-- The view of a party that takes part in some actions. If its own system of
these parts shows step by step what it sees, it shows what it sees of a run. -/
theorem observed_part {τ β υ : Type*} {step : σ → α → σ} {shows : σ → α → List ω} {part : α → Option β}
    {sees : ω → Option υ} {own : τ → β → τ} {hears : τ → β → List υ} {R : σ → τ → Prop}
    (apart : ∀ s t action, R s t → part action = none →
      R (step s action) t ∧ (shows s action).filterMap sees = [])
    (together : ∀ s t action mine, R s t → part action = some mine →
      R (step s action) (own t mine) ∧ (shows s action).filterMap sees = hears t mine)
    {s : σ} {t : τ} (start : R s t) (actions : List α) :
    R (run step s actions) (run own t (actions.filterMap part)) ∧
      (observed step shows s actions).filterMap sees = observed own hears t (actions.filterMap part) := by
  induction actions generalizing s t with
  | nil => exact ⟨start, rfl⟩
  | cons action rest ih =>
    cases taken : part action with
    | none =>
      obtain ⟨next, nothing⟩ := apart s t action start taken
      obtain ⟨later, seen⟩ := ih next
      rw [List.filterMap_cons_none taken]
      refine ⟨later, ?_⟩
      simp only [observed, List.filterMap_append, nothing, seen, List.nil_append]
    | some mine =>
      obtain ⟨next, here⟩ := together s t action mine start taken
      obtain ⟨later, seen⟩ := ih next
      rw [List.filterMap_cons_some taken]
      refine ⟨later, ?_⟩
      simp only [observed, List.filterMap_append, here, seen]

/-- Where an invariant holds, every allowed step keeps it and is explained. -/
structure Refines (step : σ → α → σ) (allowed : σ → α → Prop) (shows : σ → α → List ω)
    (I : σ → Prop) (abs : σ → τ) (next : τ → ℓ → τ → Prop) (visible : ℓ → Option ω) : Prop where
  keeps : ∀ s action, I s → allowed s action → I (step s action)
  explains : ∀ s action, I s → allowed s action →
    Explains next visible (abs s) (shows s action) (abs (step s action))

variable {step : σ → α → σ} {allowed : σ → α → Prop} {shows : σ → α → List ω} {I : σ → Prop}
  {abs : σ → τ}

/-- What an allowed run shows is seen of a trace. -/
theorem Refines.run (refines : Refines step allowed shows I abs next visible) {s : σ}
    {actions : List α} (start : I s) (ok : Allowed step allowed s actions) :
    Explains next visible (abs s) (observed step shows s actions) (abs (run step s actions)) := by
  induction actions generalizing s with
  | nil => exact .refl _
  | cons action rest ih =>
    exact (refines.explains s action start ok.1).trans
      (ih (refines.keeps s action start ok.1) ok.2)

end Systems

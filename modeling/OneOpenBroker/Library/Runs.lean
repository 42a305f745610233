import Mathlib.Data.List.Basic

/-! Runs of a deterministic system. An action is taken in every state, and a
condition says in which states it is allowed to be taken. -/
namespace Systems

variable {σ α : Type*} {step : σ → α → σ} {allowed : σ → α → Prop} {s : σ}

/-- The state after a sequence of actions. -/
def run (step : σ → α → σ) (s : σ) (actions : List α) : σ := actions.foldl step s

/-- Every action of the sequence is allowed in the state it is taken in. -/
def Allowed (step : σ → α → σ) (allowed : σ → α → Prop) : σ → List α → Prop
  | _, [] => True
  | s, action :: rest => allowed s action ∧ Allowed step allowed (step s action) rest

instance [∀ s a, Decidable (allowed s a)] : ∀ s actions, Decidable (Allowed step allowed s actions)
  | _, [] => inferInstanceAs (Decidable True)
  | s, action :: rest =>
    have := instDecidableAllowed (step s action) rest
    inferInstanceAs (Decidable (allowed s action ∧ _))

@[simp] theorem run_nil : run step s [] = s := rfl

@[simp] theorem run_cons {action : α} {rest : List α} :
    run step s (action :: rest) = run step (step s action) rest := rfl

theorem run_append {first second : List α} :
    run step s (first ++ second) = run step (run step s first) second := List.foldl_append

/-- What every allowed step preserves holds after every allowed run. -/
theorem run_preserves {I : σ → Prop} (holds : ∀ s action, I s → allowed s action → I (step s action))
    {actions : List α} (start : I s) (ok : Allowed step allowed s actions) :
    I (run step s actions) := by
  induction actions generalizing s with
  | nil => exact start
  | cons action rest ih => exact ih (holds s action start ok.1) ok.2

/-- What every step preserves holds after every run. -/
theorem run_invariant {I : σ → Prop} (holds : ∀ s action, I s → I (step s action))
    {actions : List α} (start : I s) : I (run step s actions) := by
  induction actions generalizing s with
  | nil => exact start
  | cons action rest ih => exact ih (holds s action start)

/-- Where a step keeps an invariant exactly if it is allowed, a run keeps it in
every state exactly if all its actions are allowed. The actions fit the states
they are taken in. -/
theorem always_iff_of_fits {I J : σ → Prop} {fits : σ → α → Prop}
    (side : ∀ s action, fits s action → J s → J (step s action))
    (exactly : ∀ s action, fits s action → J s → I s → (I (step s action) ↔ allowed s action))
    {actions : List α} (start : I s) (sound : J s) (within : Allowed step fits s actions) :
    (∀ before, before <+: actions → I (run step s before)) ↔ Allowed step allowed s actions := by
  induction actions generalizing s with
  | nil =>
    refine iff_of_true (fun before inside => ?_) trivial
    rw [List.prefix_nil.mp inside]
    exact start
  | cons action rest ih =>
    obtain ⟨here, there⟩ := within
    constructor
    · intro always
      have next : I (step s action) := always [action] (List.prefix_append [action] rest)
      refine ⟨(exactly s action here sound start).mp next, (ih next (side s action here sound) there).mp ?_⟩
      exact fun before inside => always (action :: before) ((List.prefix_cons_inj action).mpr inside)
    · rintro ⟨now, later⟩ before inside
      have next := (exactly s action here sound start).mpr now
      rcases List.prefix_cons_iff.mp inside with rfl | ⟨early, rfl, part⟩
      · exact start
      · exact (ih next (side s action here sound) there).mpr later early part

/-- Actions that meet a condition in every state are allowed throughout. -/
theorem allowed_of_forall {A : α → Prop} {actions : List α} (among : ∀ action ∈ actions, A action)
    (s : σ) : Allowed step (fun _ action => A action) s actions := by
  induction actions generalizing s with
  | nil => trivial
  | cons action rest ih =>
    obtain ⟨here, there⟩ := List.forall_mem_cons.mp among
    exact ⟨here, ih there _⟩

/-- Actions that are allowed in every state make a run that is allowed. -/
theorem allowed_of_free {actions : List α} (free : ∀ action ∈ actions, ∀ s, allowed s action) (s : σ) :
    Allowed step allowed s actions := by
  induction actions generalizing s with
  | nil => trivial
  | cons action rest ih =>
    obtain ⟨here, there⟩ := List.forall_mem_cons.mp free
    exact ⟨here s, ih there _⟩

/-- The same for actions whose fitness does not depend on the state. -/
theorem always_iff {I J : σ → Prop} {A : α → Prop}
    (side : ∀ s action, A action → J s → J (step s action))
    (exactly : ∀ s action, A action → J s → I s → (I (step s action) ↔ allowed s action))
    {actions : List α} (start : I s) (fits : J s) (among : ∀ action ∈ actions, A action) :
    (∀ before, before <+: actions → I (run step s before)) ↔ Allowed step allowed s actions :=
  always_iff_of_fits side exactly start fits (allowed_of_forall among s)

/-- A run that is allowed by one condition is allowed by each that follows from
it in the states of the run. -/
theorem Allowed.within {J : σ → Prop} {allowed' : σ → α → Prop} {actions : List α}
    (ok : Allowed step allowed s actions) (start : J s)
    (side : ∀ s action, J s → allowed s action → J (step s action))
    (wider : ∀ s action, J s → allowed s action → allowed' s action) :
    Allowed step allowed' s actions := by
  induction actions generalizing s with
  | nil => trivial
  | cons action rest ih =>
    obtain ⟨here, there⟩ := ok
    exact ⟨wider s action start here, ih there (side s action start here)⟩

theorem Allowed.append {first second : List α} : Allowed step allowed s (first ++ second) ↔
    Allowed step allowed s first ∧ Allowed step allowed (run step s first) second := by
  induction first generalizing s with
  | nil => simp [Allowed]
  | cons action rest ih => simp [Allowed, ih, and_assoc]

end Systems

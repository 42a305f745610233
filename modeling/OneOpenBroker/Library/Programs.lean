import Mathlib.Data.List.Basic

/-! Programs that change a state and may raise. What a program did before it
raised stays done, so it has two postconditions: one for the value and the
state when it returns, one for the state it leaves behind when it raises. -/
namespace Programs

/-- A program over a state that an exception does not roll back. -/
abbrev Program (σ ε : Type) : Type → Type := ExceptT ε (StateM σ)

variable {σ τ ε α β : Type}

namespace Program

/-- Run a program: what it returned or raised, and the state it left. -/
def exec (program : Program σ ε α) (s : σ) : Except ε α × σ := program.run.run s

@[simp] theorem exec_pure {a : α} {s : σ} : exec (pure a : Program σ ε α) s = (.ok a, s) := rfl

@[simp] theorem exec_throw {raised : ε} {s : σ} :
    exec (throw raised : Program σ ε α) s = (.error raised, s) := rfl

@[simp] theorem exec_get {s : σ} : exec (get : Program σ ε σ) s = (.ok s, s) := rfl

@[simp] theorem exec_modify {change : σ → σ} {s : σ} :
    exec (modify change : Program σ ε Unit) s = (.ok (), change s) := rfl

@[simp] theorem exec_modifyGet {change : σ → α × σ} {s : σ} :
    exec (modifyGet change : Program σ ε α) s = (.ok (change s).1, (change s).2) := rfl

@[simp] theorem exec_ofExcept {result : Except ε α} {s : σ} :
    exec (MonadExcept.ofExcept result : Program σ ε α) s = (result, s) := by
  cases result <;> rfl

theorem exec_bind {program : Program σ ε α} {next : α → Program σ ε β} {s : σ} :
    exec (program >>= next) s =
      ExceptT.bindCont next (exec program s).1 (exec program s).2 := rfl

theorem exec_bind_ok {program : Program σ ε α} {next : α → Program σ ε β} {s s' : σ} {a : α}
    (returned : exec program s = (.ok a, s')) : exec (program >>= next) s = exec (next a) s' := by
  rw [exec_bind, returned]
  rfl

theorem exec_bind_error {program : Program σ ε α} {next : α → Program σ ε β} {s s' : σ}
    {raised : ε} (failed : exec program s = (.error raised, s')) :
    exec (program >>= next) s = (.error raised, s') := by
  rw [exec_bind, failed]
  rfl

/-- Run a program on a part of the state. -/
def zoom (part : σ → τ) (put : σ → τ → σ) (program : Program τ ε α) : Program σ ε α :=
  ExceptT.mk (StateT.mk fun s => ((exec program (part s)).1, put s (exec program (part s)).2))

@[simp] theorem exec_zoom {part : σ → τ} {put : σ → τ → σ} {program : Program τ ε α} {s : σ} :
    exec (zoom part put program) s =
      ((exec program (part s)).1, put s (exec program (part s)).2) := rfl

/-- Run a program for what it returns or raises, as a value. -/
def attempt (program : Program σ ε α) : Program σ ε (Except ε α) :=
  ExceptT.mk (StateT.mk fun s => (.ok (exec program s).1, (exec program s).2))

@[simp] theorem exec_attempt {program : Program σ ε α} {s : σ} :
    exec (attempt program) s = (.ok (exec program s).1, (exec program s).2) := rfl

end Program

open Program

/-! ## Weakest preconditions -/

/-- From this state the program returns a value and a state that meet the first
postcondition, or it raises and leaves a state that meets the second. -/
def wp (program : Program σ ε α) (post : α → σ → Prop) (raised : ε → σ → Prop) (s : σ) : Prop :=
  match exec program s with
  | (.ok a, s') => post a s'
  | (.error x, s') => raised x s'

variable {post : α → σ → Prop} {last : β → σ → Prop} {raised : ε → σ → Prop}
  {program : Program σ ε α} {next : α → Program σ ε β} {s s' : σ}

theorem wp_of_ok {a : α} (ran : exec program s = (.ok a, s')) (holds : post a s') :
    wp program post raised s := by
  unfold wp
  rw [ran]
  exact holds

theorem wp_ok {a : α} (holds : wp program post raised s) (ran : exec program s = (.ok a, s')) :
    post a s' := by
  unfold wp at holds
  rw [ran] at holds
  exact holds

theorem wp_error {x : ε} (holds : wp program post raised s)
    (ran : exec program s = (.error x, s')) : raised x s' := by
  unfold wp at holds
  rw [ran] at holds
  exact holds

@[simp] theorem wp_pure {a : α} : wp (pure a : Program σ ε α) post raised s ↔ post a s := Iff.rfl

@[simp] theorem wp_throw {x : ε} :
    wp (throw x : Program σ ε α) post raised s ↔ raised x s := Iff.rfl

@[simp] theorem wp_get {post : σ → σ → Prop} :
    wp (get : Program σ ε σ) post raised s ↔ post s s := Iff.rfl

@[simp] theorem wp_set {post : PUnit → σ → Prop} :
    wp (set s' : Program σ ε PUnit) post raised s ↔ post () s' := Iff.rfl

@[simp] theorem wp_modify {change : σ → σ} {post : Unit → σ → Prop} :
    wp (modify change : Program σ ε Unit) post raised s ↔ post () (change s) := Iff.rfl

@[simp] theorem wp_modifyGet {change : σ → α × σ} :
    wp (modifyGet change : Program σ ε α) post raised s ↔ post (change s).1 (change s).2 := Iff.rfl

@[simp] theorem wp_bind :
    wp (program >>= next) last raised s ↔ wp program (fun a => wp (next a) last raised) raised s := by
  unfold wp
  rw [exec_bind]
  rcases exec program s with ⟨_ | _, s'⟩ <;> rfl

theorem wp_ofExcept {result : Except ε α} : wp (MonadExcept.ofExcept result) post raised s ↔
    (∃ a, result = .ok a ∧ post a s) ∨ ∃ x, result = .error x ∧ raised x s := by
  unfold wp
  rw [exec_ofExcept]
  cases result <;> simp

@[simp] theorem wp_ofExcept_ok {a : α} :
    wp (MonadExcept.ofExcept (.ok a) : Program σ ε α) post raised s ↔ post a s := Iff.rfl

@[simp] theorem wp_ofExcept_error {x : ε} :
    wp (MonadExcept.ofExcept (.error x) : Program σ ε α) post raised s ↔ raised x s := Iff.rfl

@[simp] theorem wp_zoom {part : σ → τ} {put : σ → τ → σ} {inner : Program τ ε α} :
    wp (zoom part put inner) post raised s ↔
      wp inner (fun a t => post a (put s t)) (fun x t => raised x (put s t)) (part s) := by
  unfold wp
  rw [exec_zoom]
  rcases exec inner (part s) with ⟨_ | _, t⟩ <;> rfl

@[simp] theorem wp_attempt {post : Except ε α → σ → Prop} :
    wp (attempt program) post raised s ↔
      wp program (fun a => post (.ok a)) (fun x => post (.error x)) s := by
  unfold wp
  rw [exec_attempt]
  rcases exec program s with ⟨_ | _, s'⟩ <;> rfl

theorem wp_ite {condition : Prop} [Decidable condition] {other : Program σ ε α} :
    wp (if condition then program else other) post raised s ↔
      if condition then wp program post raised s else wp other post raised s := by
  split <;> rfl

/-- A program that meets stronger postconditions. -/
theorem wp_mono {post' : α → σ → Prop} {raised' : ε → σ → Prop} (holds : wp program post raised s)
    (after : ∀ a s', post a s' → post' a s') (failed : ∀ x s', raised x s' → raised' x s') :
    wp program post' raised' s := by
  unfold wp at holds ⊢
  split at holds
  · exact after _ _ holds
  · exact failed _ _ holds

theorem wp_trivial : wp program (fun _ _ => True) (fun _ _ => True) s := by
  unfold wp
  split <;> trivial

/-- A loop keeps what its body keeps. -/
theorem wp_each {γ : Type} {body : γ → Program σ ε PUnit} {items : List γ} {I : σ → Prop}
    (step : ∀ item ∈ items, ∀ s, I s → wp (body item) (fun _ => I) raised s) (start : I s) :
    wp (forM items body) (fun _ => I) raised s := by
  induction items generalizing s with
  | nil => exact start
  | cons item rest ih =>
    rw [List.forM_cons, wp_bind]
    exact wp_mono (step item List.mem_cons_self s start)
      (fun _ _ holds => ih (fun other member => step other (List.mem_cons_of_mem _ member)) holds)
      fun _ _ failed => failed

/-- A program of which this holds without the second postcondition returns. -/
theorem returns (holds : wp program post (fun _ _ => False) s) :
    ∃ a s', exec program s = (.ok a, s') ∧ post a s' := by
  unfold wp at holds
  split at holds
  · exact ⟨_, _, ‹_›, holds⟩
  · exact holds.elim

end Programs

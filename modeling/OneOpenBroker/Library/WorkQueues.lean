import Mathlib.Logic.Function.Basic
import OneOpenBroker.Library.Simulation

/-! Work queues, whatever they are made of. A task is known by its id: it is
ready in a queue, out with a consumer, or waiting there. Each label is one way
for one task to move, and some of them are seen from outside. What is seen
obeys three laws: a consumer answers a delivery at most once, what is delivered
is what was published, and a settled task does not come back by itself. -/
namespace WorkQueues
open Systems

/-- Where a task is in its queue. -/
inductive Place (γ : Type*) where
  | ready
  | out (consumer : γ)
  | waiting
  deriving DecidableEq

structure Entry (κ γ β : Type*) where
  queue : κ
  body : β
  attempts : ℤ
  limit : ℤ
  place : Place γ

/-- The tasks that are held, by their ids. -/
abbrev Store (ι κ γ β : Type*) := ι → Option (Entry κ γ β)

/-- How a delivery fails: the consumer rejects the task or hands it back, or
nothing is heard of it. -/
inductive Failure where
  | rejected | returned | lost
  deriving DecidableEq

inductive Label (ι κ γ β : Type*) where
  | publish (id : ι) (entry : Entry κ γ β)
  | deliver (id : ι) (entry : Entry κ γ β) (consumer : γ)
  | settle (id : ι)
  | retry (id : ι) (how : Failure)
  | bury (id : ι) (how : Failure) (dest : κ)
  | drop (id : ι) (how : Failure)
  | release (id : ι)
  | revive (id : ι) (dest : κ)
  | refuse (id : ι)
  | purge (queue : κ)

/-- What is seen from outside. -/
inductive Event (ι κ γ β : Type*) where
  | published (id : ι) (queue : κ) (body : β)
  | delivered (id : ι) (queue : κ) (consumer : γ) (body : β) (attempts : ℤ)
  | settled (id : ι)
  | failed (id : ι) (requeue : Bool)
  | revived (id : ι) (dest : κ)

variable {ι κ γ β : Type*} {s s' : Store ι κ γ β} {id : ι} {label : Label ι κ γ β}
  {entry : Entry κ γ β}

/-- No consumer has the task. -/
def Entry.Idle (entry : Entry κ γ β) : Prop := ∀ consumer, entry.place ≠ .out consumer

/-- A failure other than a rejection uses up an attempt. -/
def Entry.charged (entry : Entry κ γ β) (how : Failure) : Entry κ γ β :=
  { entry with attempts := entry.attempts + if how = .rejected then 0 else 1 }

/-- The attempts are used up, unless the task is rejected at once. -/
def Entry.Spent (entry : Entry κ γ β) (how : Failure) : Prop :=
  how ≠ .rejected → entry.limit ≤ entry.attempts + 1

/-- One for a task that is out. -/
def outs (id : ι) (s : Store ι κ γ β) : ℤ :=
  match s id with
  | some { place := .out _, .. } => 1
  | _ => 0

theorem outs_nonneg (id : ι) (s : Store ι κ γ β) : 0 ≤ outs id s := by
  unfold outs
  split <;> decide

theorem outs_out {consumer : γ} (held : s id = some entry) (out : entry.place = .out consumer) :
    outs id s = 1 := by
  obtain ⟨queue, body, attempts, limit, place⟩ := entry
  subst out
  simp [outs, held]

theorem outs_idle (idle : ∀ entry, s id = some entry → entry.Idle) : outs id s = 0 := by
  unfold outs
  split
  · rename_i held
    exact absurd rfl (idle _ held _)
  · rfl

theorem outs_congr (same : s' id = s id) : outs id s' = outs id s := by
  unfold outs
  rw [same]

variable [DecidableEq ι]

theorem outs_other {id' : ι} {new : Option (Entry κ γ β)} (differ : id ≠ id') :
    outs id (Function.update s id' new) = outs id s := by
  simp [outs, differ]

/-- A task whose place is not taken has no delivery out. -/
theorem outs_placed (entry : Entry κ γ β) (idle : entry.Idle) :
    outs id (Function.update s id (some entry)) = 0 := by
  refine outs_idle fun other held => ?_
  rw [Function.update_self] at held
  exact Option.some.inj held ▸ idle

theorem outs_removed : outs id (Function.update s id none) = 0 :=
  outs_idle fun entry held => by simp at held

variable [DecidableEq κ] {seen past rest : List (Event ι κ γ β)}

/-! ## The moves -/

/-- The moves of one task, and the end of a queue. -/
inductive Next : Store ι κ γ β → Label ι κ γ β → Store ι κ γ β → Prop where
  | publish {s : Store ι κ γ β} {id : ι} {entry : Entry κ γ β} (fresh : s id = none)
      (idle : entry.Idle) : Next s (.publish id entry) (Function.update s id (some entry))
  | deliver {s : Store ι κ γ β} {id : ι} {entry : Entry κ γ β} (consumer : γ)
      (held : s id = some entry) (ready : entry.place = .ready) :
      Next s (.deliver id entry consumer)
        (Function.update s id (some { entry with place := .out consumer }))
  | settle {s : Store ι κ γ β} {id : ι} {entry : Entry κ γ β} {consumer : γ}
      (held : s id = some entry) (out : entry.place = .out consumer) :
      Next s (.settle id) (Function.update s id none)
  | retry {s : Store ι κ γ β} {id : ι} {entry : Entry κ γ β} {consumer : γ} (how : Failure)
      (held : s id = some entry) (out : entry.place = .out consumer) (again : how ≠ .rejected)
      (below : entry.attempts + 1 < entry.limit) :
      Next s (.retry id how)
        (Function.update s id (some { entry.charged how with place := .waiting }))
  | bury {s : Store ι κ γ β} {id : ι} {entry : Entry κ γ β} {consumer : γ} (how : Failure)
      (dest : κ) (held : s id = some entry) (out : entry.place = .out consumer)
      (spent : entry.Spent how) :
      Next s (.bury id how dest)
        (Function.update s id (some { entry.charged how with queue := dest, place := .ready }))
  | drop {s : Store ι κ γ β} {id : ι} {entry : Entry κ γ β} {consumer : γ} (how : Failure)
      (held : s id = some entry) (out : entry.place = .out consumer) (spent : entry.Spent how) :
      Next s (.drop id how) (Function.update s id none)
  | release {s : Store ι κ γ β} {id : ι} {entry : Entry κ γ β} (held : s id = some entry)
      (waiting : entry.place = .waiting) :
      Next s (.release id) (Function.update s id (some { entry with place := .ready }))
  | revive {s : Store ι κ γ β} {id : ι} {entry : Entry κ γ β} (dest : κ)
      (held : s id = some entry) (idle : entry.Idle) :
      Next s (.revive id dest) (Function.update s id
        (some { entry with queue := dest, attempts := 0, place := .ready }))
  | refuse {s : Store ι κ γ β} {id : ι} {entry : Entry κ γ β} (held : s id = some entry)
      (idle : entry.Idle) :
      Next s (.refuse id)
        (Function.update s id (some { entry with attempts := 0, place := .ready }))
  | purge (s : Store ι κ γ β) (queue : κ) :
      Next s (.purge queue) fun id => (s id).filter (·.queue ≠ queue)

/-- What is seen of a failure. -/
def Failure.event (how : Failure) (id : ι) : Option (Event ι κ γ β) :=
  match how with
  | .rejected => some (.failed id false)
  | .returned => some (.failed id true)
  | .lost => none

def Label.event : Label ι κ γ β → Option (Event ι κ γ β)
  | .publish id entry => some (.published id entry.queue entry.body)
  | .deliver id entry consumer =>
    some (.delivered id entry.queue consumer entry.body entry.attempts)
  | .settle id => some (.settled id)
  | .retry id how | .bury id how _ | .drop id how => how.event id
  | .revive id dest => some (.revived id dest)
  | .release _ | .refuse _ | .purge _ => none

/-! ## Answers -/

/-- What a label does to the deliveries of a task that are out. -/
def Label.weight (id : ι) : Label ι κ γ β → ℤ
  | .deliver id' _ _ => if id = id' then 1 else 0
  | .settle id' | .retry id' _ | .bury id' _ _ | .drop id' _ => if id = id' then -1 else 0
  | .publish .. | .release _ | .revive .. | .refuse _ | .purge _ => 0

theorem Next.outs_le (next : Next s label s') (id : ι) : outs id s' ≤ outs id s + label.weight id := by
  have free : ∀ {entry : Entry κ γ β}, entry.place = .ready ∨ entry.place = .waiting → entry.Idle := by
    rintro entry (ready | waiting) consumer out
    · rw [ready] at out
      cases out
    · rw [waiting] at out
      cases out
  cases next with
  | @publish id' entry fresh idle =>
    by_cases same : id = id'
    · subst same
      rw [outs_placed entry idle]
      simpa [Label.weight] using outs_nonneg id s
    · simp [outs_other same, Label.weight]
  | @deliver id' entry consumer held ready =>
    by_cases same : id = id'
    · subst same
      rw [outs_out (Function.update_self ..) rfl]
      simpa [Label.weight] using outs_nonneg id s
    · simp [outs_other same, Label.weight, same]
  | @settle id' entry consumer held out | @drop id' entry consumer how held out spent =>
    by_cases same : id = id'
    · subst same
      rw [outs_removed, outs_out held out]
      simp [Label.weight]
    · simp [outs_other same, Label.weight, same]
  | @retry id' entry consumer how held out again below =>
    by_cases same : id = id'
    · subst same
      rw [outs_placed _ (free (.inr rfl)), outs_out held out]
      simp [Label.weight]
    · simp [outs_other same, Label.weight, same]
  | @bury id' entry consumer how dest held out spent =>
    by_cases same : id = id'
    · subst same
      rw [outs_placed _ (free (.inl rfl)), outs_out held out]
      simp [Label.weight]
    · simp [outs_other same, Label.weight, same]
  | @release id' entry held idle | @revive id' entry dest held idle | @refuse id' entry held idle =>
    by_cases same : id = id'
    · subst same
      rw [outs_placed _ (free (.inl rfl))]
      simpa [Label.weight] using outs_nonneg id s
    · simp [outs_other same, Label.weight]
  | purge queue =>
    have before := outs_nonneg id s
    cases after : (s id).filter (·.queue ≠ queue) with
    | none =>
      rw [outs_idle (s := fun id => (s id).filter _) fun entry held => by rw [after] at held; cases held]
      simpa [Label.weight] using before
    | some entry =>
      have same := (Option.filter_eq_some_iff.mp after).1
      rw [outs_congr (s := s) (after.trans same.symm)]
      simp [Label.weight]

/-- The event is a delivery of the task. -/
def Event.delivers (id : ι) : Event ι κ γ β → Bool
  | .delivered id' _ _ _ _ => id = id'
  | _ => false

/-- The event is an answer to a delivery of the task. -/
def Event.answers (id : ι) : Event ι κ γ β → Bool
  | .settled id' | .failed id' _ => id = id'
  | _ => false

omit [DecidableEq κ] in
theorem weight_le_event (id : ι) (label : Label ι κ γ β) :
    label.weight id + label.event.toList.countP (Event.answers id) ≤
      label.event.toList.countP (Event.delivers id) := by
  cases label with
  | publish | release | revive | refuse | purge =>
    simp [Label.weight, Label.event, Event.answers, Event.delivers]
  | deliver id' | settle id' =>
    by_cases same : id = id' <;> simp [Label.weight, Label.event, Event.answers, Event.delivers, same]
  | retry id' how | bury id' how | drop id' how =>
    by_cases same : id = id' <;> cases how <;>
      simp [Label.weight, Label.event, Failure.event, Event.answers, Event.delivers, same]

omit [DecidableEq κ] in
theorem weight_le_counts (id : ι) (labels : List (Label ι κ γ β)) :
    (labels.map (Label.weight id)).sum + (labels.filterMap Label.event).countP (Event.answers id) ≤
      (labels.filterMap Label.event).countP (Event.delivers id) := by
  simp only [List.filterMap_eq_flatMap_toList]
  induction labels with
  | nil => simp
  | cons label labels ih =>
    have here := weight_le_event id label
    rw [List.flatMap_cons, List.countP_append, List.countP_append, List.map_cons, List.sum_cons]
    push_cast
    omega

/-- A consumer answers no task more often than it was delivered. -/
theorem answers_le_delivers (explains : Explains Next Label.event s seen s') (id : ι) :
    (seen.countP (Event.answers id) : ℤ) ≤ outs id s + seen.countP (Event.delivers id) := by
  obtain ⟨labels, trace, rfl⟩ := explains
  have measured := trace.measured (outs id) (Label.weight id)
    fun _ _ _ next => next.outs_le id
  have counted := weight_le_counts id labels
  have left := outs_nonneg id s'
  omega

/-! ## What is delivered -/

/-- The body that the event publishes under the id. -/
def Event.body? (id : ι) : Event ι κ γ β → Option β
  | .published id' _ body => if id = id' then some body else none
  | _ => none

/-- The body that was published last under the id. -/
def lastBody (id : ι) (seen : List (Event ι κ γ β)) : Option β :=
  (seen.filterMap (Event.body? id)).getLast?

/-- A move keeps the body of a task or publishes it. -/
theorem Next.body (next : Next s label s') (held : s' id = some entry) :
    (label.event.bind (Event.body? id)).or ((s id).map (·.body)) = some entry.body := by
  have moved {id' : ι} {old new : Entry κ γ β} (before : s id' = some old)
      (held : Function.update s id' (some new) id = some entry) (same : new.body = old.body) :
      (s id).map (·.body) = some entry.body := by
    by_cases here : id = id'
    · subst here
      rw [Function.update_self] at held
      rw [before, ← Option.some.inj held, Option.map_some, same]
    · rw [Function.update_of_ne here] at held
      rw [held, Option.map_some]
  have removed {id' : ι} (held : Function.update s id' none id = some entry) :
      (s id).map (·.body) = some entry.body := by
    by_cases here : id = id'
    · subst here
      rw [Function.update_self] at held
      cases held
    · rw [Function.update_of_ne here] at held
      rw [held, Option.map_some]
  have failure (how : Failure) (id' : ι) :
      (how.event id' : Option (Event ι κ γ β)).bind (Event.body? id) = none := by
    cases how <;> rfl
  cases next with
  | @publish id' new fresh idle =>
    by_cases here : id = id'
    · subst here
      rw [Function.update_self] at held
      simp [Label.event, Event.body?, Option.some.inj held]
    · rw [Function.update_of_ne here] at held
      simp [Label.event, Event.body?, here, held]
  | deliver consumer before ready => exact moved before held rfl
  | settle => exact removed held
  | retry how before out again below =>
    rw [Label.event, failure, Option.none_or]
    exact moved before held rfl
  | bury how dest before out spent =>
    rw [Label.event, failure, Option.none_or]
    exact moved before held rfl
  | drop how =>
    rw [Label.event, failure, Option.none_or]
    exact removed held
  | release before waiting => exact moved before held rfl
  | revive dest before idle => exact moved before held rfl
  | refuse before idle => exact moved before held rfl
  | purge queue =>
    rw [(Option.filter_eq_some_iff.mp held).1]
    rfl

omit [DecidableEq κ] in
theorem lastBody_append {more : List (Event ι κ γ β)} :
    lastBody id (seen ++ more) = (lastBody id more).or (lastBody id seen) := by
  rw [lastBody, List.filterMap_append, List.getLast?_append]
  rfl

/-- The body of a task is the one that was published last under its id. -/
theorem body_explained (explains : Explains Next Label.event s seen s') (held : s' id = some entry) :
    (lastBody id seen).or ((s id).map (·.body)) = some entry.body := by
  obtain ⟨labels, trace, rfl⟩ := explains
  induction trace with
  | refl => simp [lastBody, held]
  | @cons s₁ s₂ s₃ label labels first trace ih =>
    have later := ih held
    rw [List.filterMap_eq_flatMap_toList] at later ⊢
    rw [List.flatMap_cons, lastBody_append]
    have head : lastBody id label.event.toList = label.event.bind (Event.body? id) := by
      unfold lastBody
      cases event : label.event with
      | none => rfl
      | some shown => cases body : shown.body? id <;> simp [body]
    rw [head]
    cases last : lastBody id (labels.flatMap fun label => label.event.toList) with
    | some body =>
      rw [last] at later
      exact later
    | none =>
      rw [last, Option.none_or] at later
      obtain ⟨middle, there, same⟩ := Option.map_eq_some_iff.mp later
      rw [Option.none_or, first.body there, same]

/-- A delivery is of a task that is held, with its body. -/
theorem Next.of_delivered {queue : κ} {consumer : γ} {body : β} {attempts : ℤ}
    (next : Next s label s')
    (seen : label.event = some (.delivered id queue consumer body attempts)) :
    ∃ entry, s id = some entry ∧ entry.body = body := by
  cases next with
  | deliver consumer held ready =>
    simp only [Label.event, Option.some.injEq, Event.delivered.injEq] at seen
    obtain ⟨rfl, _, _, rfl, _⟩ := seen
    exact ⟨_, held, rfl⟩
  | retry how | bury how | drop how => cases how <;> simp [Label.event, Failure.event] at seen
  | publish | settle | release | revive | refuse | purge => simp [Label.event] at seen

theorem Next.of_settled (next : Next s label s') (seen : label.event = some (.settled id)) :
    s' id = none := by
  cases next with
  | settle held out =>
    simp only [Label.event, Option.some.injEq, Event.settled.injEq] at seen
    rw [seen, Function.update_self]
  | retry how | bury how | drop how => cases how <;> simp [Label.event, Failure.event] at seen
  | publish | deliver | release | revive | refuse | purge => simp [Label.event] at seen

/-- What is delivered is what was published last under the id. -/
theorem body_delivered {queue : κ} {consumer : γ} {body : β} {attempts : ℤ}
    (explains : Explains Next Label.event s
      (past ++ .delivered id queue consumer body attempts :: rest) s') :
    (lastBody id past).or ((s id).map (·.body)) = some body := by
  obtain ⟨before, label, after, earlier, step, seen, _⟩ := explains.cut
  obtain ⟨entry, held, rfl⟩ := step.of_delivered seen
  exact body_explained earlier held

/-! ## What is gone -/

/-- The event publishes a task under the id. -/
def Event.publishes (id : ι) : Event ι κ γ β → Bool
  | .published id' _ _ => id = id'
  | _ => false

/-- A task that is not held stays away until it is published. -/
theorem stays_absent (explains : Explains Next Label.event s seen s') (gone : s id = none)
    (silent : ∀ event ∈ seen, event.publishes id = false) : s' id = none := by
  obtain ⟨labels, trace, rfl⟩ := explains
  induction trace with
  | refl => exact gone
  | @cons s₁ s₂ s₃ label labels first trace ih =>
    rw [List.filterMap_eq_flatMap_toList, List.flatMap_cons, ← List.filterMap_eq_flatMap_toList] at silent
    obtain ⟨here, later⟩ := List.forall_mem_append.mp silent
    refine ih ?_ later
    by_contra there
    obtain ⟨entry, held⟩ := Option.ne_none_iff_exists'.mp there
    have kept := first.body held
    rw [gone, Option.map_none, Option.or_none] at kept
    obtain ⟨event, shown, body⟩ := Option.bind_eq_some_iff.mp kept
    have told := here event (by rw [shown]; exact List.mem_singleton_self event)
    cases event <;> simp [Event.body?, Event.publishes] at body told
    exact told body.1

/-- A task that was settled is delivered again only after it was published again. -/
theorem published_after_settled {queue : κ} {consumer : γ} {body : β} {attempts : ℤ}
    {between : List (Event ι κ γ β)}
    (explains : Explains Next Label.event s
      (past ++ .settled id :: (between ++ .delivered id queue consumer body attempts :: rest)) s') :
    ∃ event ∈ between, event.publishes id = true := by
  obtain ⟨_, label, after, _, settles, told, later⟩ := explains.cut
  obtain ⟨before, label', _, meanwhile, delivers, told', _⟩ := later.cut
  obtain ⟨entry, held, _⟩ := delivers.of_delivered told'
  by_contra silent
  push Not at silent
  have away := stays_absent meanwhile (settles.of_settled told) fun event inside => by
    simpa using silent event inside
  rw [away] at held
  cases held

/-- What is delivered was published under the id, and neither published again
nor settled since. -/
theorem published_before_delivered {queue : κ} {consumer : γ} {body : β} {attempts : ℤ}
    (empty : s id = none) (explains : Explains Next Label.event s
      (past ++ .delivered id queue consumer body attempts :: rest) s') :
    ∃ before origin between, past = before ++ .published id origin body :: between ∧
      ∀ event ∈ between, event.publishes id = false ∧ event ≠ .settled id := by
  have last := body_delivered explains
  rw [empty, Option.map_none, Option.or_none] at last
  obtain ⟨others, bodies⟩ := List.getLast?_eq_some_iff.mp last
  obtain ⟨early, late, rfl, _, shown⟩ := List.filterMap_eq_append_iff.mp bodies
  obtain ⟨unseen, event, between, rfl, _, here, nothing⟩ := List.filterMap_eq_cons_iff.mp shown
  have silent := List.filterMap_eq_nil_iff.mp nothing
  have quiet : ∀ event ∈ between, event.publishes id = false := by
    intro event inside
    have none := silent event inside
    cases event <;> simp [Event.body?, Event.publishes] at none ⊢
    exact none
  obtain ⟨origin, rfl⟩ : ∃ origin, event = .published id origin body := by
    cases event <;> simp [Event.body?] at here
    obtain ⟨rfl, rfl⟩ := here
    exact ⟨_, rfl⟩
  refine ⟨early ++ unseen, origin, between, by simp, fun event inside => ⟨quiet event inside, ?_⟩⟩
  rintro rfl
  obtain ⟨first, second, rfl⟩ := List.append_of_mem inside
  have shape : early ++ (unseen ++ .published id origin body :: (first ++ .settled id :: second)) ++
      .delivered id queue consumer body attempts :: rest =
      (early ++ unseen ++ .published id origin body :: first) ++ .settled id ::
        (second ++ .delivered id queue consumer body attempts :: rest) := by simp
  rw [shape] at explains
  obtain ⟨event, inside', published⟩ := published_after_settled explains
  rw [quiet event (by simp [inside'])] at published
  cases published

end WorkQueues

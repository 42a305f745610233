import OneOpenBroker.Library.Runs
import OneOpenBroker.Untyped.Commands

/-! Runs of the broker under requests of any metadata. Where every request
stores only values that take what is done with them later, the broker stays
sound and an iteration of the ticker runs to its end. -/
namespace OneOpenBroker.Untyped
open Collections Programs
open OneOpenBroker.Core (EngineConfig)
open QueueEngine (nothing)

variable {b b' : Broker} {strict : Prop} {config : EngineConfig} {host : Host}

/-! ## Runs -/

/-- The condition of `Storable`, of an event: a refused request stores nothing. -/
def Event.Storable (host : Host) (config : EngineConfig) (b : Broker) : Event → Prop
  | .request none sent => Untyped.Storable host config b sent
  | _ => True

/-- The condition of `Careful`, of an event. -/
def Event.Careful (host : Host) (b : Broker) : Event → Prop
  | .request none sent => Untyped.Careful host b sent
  | _ => True

/-- The engine-wide bound on the attempts comes in time for the delay between
them to be a float. -/
def FewAttempts (config : EngineConfig) : Prop :=
  config.retryBackoff = .exponential → config.maxAttempts ≤ 1025

theorem created_sound {clock : Nat → ℚ} {takes : Nat → Bool} (few : FewAttempts config) :
    (Broker.created config clock takes).Sound strict config where
  engine :=
    { configured := rfl
      queues := Dict.all_empty
      bounded := ⟨.int config.maxAttempts, rfl, fun exponential =>
        Moment.of_le.mpr (by exact_mod_cast few exponential)⟩
      visibility := List.Pairwise.nil
      delayed := List.Pairwise.nil
      watched := fun _ _ _ there => by cases there }
  consumers := Dict.all_empty

/-- The state after a program keeps what both of its postconditions say. -/
theorem exec_keeps {α : Type} {program : Task α} {post : α → Broker → Prop}
    {raised : Raised → Broker → Prop} {P : Broker → Prop} (holds : wp program post raised b)
    (after : ∀ a b', post a b' → P b') (failed : ∀ x b', raised x b' → P b') :
    P (program.exec b).2 := by
  cases ran : program.exec b with
  | mk result b' =>
    cases result with
    | ok a => exact after a b' (wp_ok holds ran)
    | error x => exact failed x b' (wp_error holds ran)

/-- One iteration of the ticker on a sound broker. -/
theorem ticker_wp (sound : b.Sound strict config) :
    wp ticker (fun _ b' => b'.Sound strict config) (fun _ _ => False) b := by
  unfold ticker
  rw [wp_bind, wp_onQueues]
  refine wp_mono (QueueEngine.tick_wp sound.engine) (fun _ e after => ?_) fun _ _ failed => failed
  rw [wp_bind, wp_get]
  exact pumpTexts_wp ⟨after.1, sound.consumers⟩

theorem drop_wp {connectionId : String} {order : List Key} (sound : b.Sound strict config) :
    wp (drop connectionId order) (fun _ b' => b'.Sound strict config)
      (fun _ b' => b'.Sound strict config) b := by
  unfold drop
  rw [wp_bind, wp_modify]
  exact disconnect_wp ⟨sound.engine, sound.consumers⟩

theorem Broker.Sound.step {event : Event} (sound : b.Sound strict config)
    (storable : event.Storable host config b) (careful : strict → event.Careful host b) :
    (Broker.step host b event).Sound strict config := by
  cases event with
  | connect connectionId => exact ⟨sound.engine, sound.consumers⟩
  | request refusal request =>
    refine exec_keeps (handle_wp sound (fun allowed => ?_) fun held allowed => ?_)
      (fun _ _ after => after.1) fun _ _ failed => failed.1
    · subst allowed
      exact storable
    · subst allowed
      exact careful held
  | drop connectionId order =>
    exact exec_keeps (drop_wp sound) (fun _ _ after => after) fun _ _ failed => failed
  | ticker => exact exec_keeps (ticker_wp sound) (fun _ _ after => after) fun _ _ failed => failed.elim

/-! ## The ticker -/

/-- No entry of the delayed heap was due when the delayed messages were
released, no delivery has passed its deadline once the timeouts are through,
and every pump of the iteration comes to its end. -/
structure Completes (b : Broker) : Prop where
  released : ∀ entry ∈ (QueueEngine.releaseDelayed (b.queues.clock b.queues.reads)
    { b.queues with reads := b.queues.reads + 1 }).2.delayed,
    Moment.of (b.queues.clock b.queues.reads) < entry.due
  ticked : ∃ n e, QueueEngine.tick.exec b.queues = (.ok n, e) ∧
    (∀ q m record, e.record? q m = some record →
      Moment.of (b.queues.clock b.queues.reads) < record.visibilityDeadline) ∧
    ∃ b', Program.exec (forM e.listQueues fun name => pumpQueue (.text name))
      { b with queues := e } = (.ok (), b') ∧ ticker.exec b = (.ok (), b')

theorem Broker.Sound.completes (sound : b.Sound strict config) : Completes b where
  released := sound.engine.read.releaseDelayed.2
  ticked := by
    obtain ⟨n, e, ran, ticked, current⟩ := returns (QueueEngine.tick_wp sound.engine)
    have kept : Broker.Sound strict config { b with queues := e } := ⟨ticked, sound.consumers⟩
    have pumps : wp (forM e.listQueues fun name => pumpQueue (.text name))
        (fun _ b' => b'.Sound strict config) (fun _ _ => False) { b with queues := e } :=
      pumpTexts_wp kept
    obtain ⟨⟨⟩, b', pumped, _⟩ := returns pumps
    refine ⟨n, e, ran, current, b', pumped, ?_⟩
    have first : (onQueues QueueEngine.tick).exec b = (.ok n, { b with queues := e }) := by
      unfold onQueues
      rw [Program.exec_zoom, ran]
    unfold ticker
    rw [Program.exec_bind_ok first, Program.exec_bind_ok Program.exec_get]
    exact pumped

/-- The broker after a run. -/
def reached (host : Host) (config : EngineConfig) (clock : Nat → ℚ) (takes : Nat → Bool)
    (events : List Event) : Broker :=
  Systems.run (Broker.step host) (Broker.created config clock takes) events

/-- **The ticker runs through.** After every run whose requests store only
what later operations take, one iteration releases, times out and pumps
everything it comes to, and raises nothing. -/
theorem ticker_completes (host : Host) (clock : Nat → ℚ) (takes : Nat → Bool) (events : List Event)
    (few : FewAttempts config)
    (storable : Systems.Allowed (Broker.step host) (fun b event => event.Storable host config b)
      (Broker.created config clock takes) events) :
    Completes (reached host config clock takes events) := by
  have sound : (reached host config clock takes events).Sound False config :=
    Systems.run_preserves (fun _ _ sound storable => sound.step storable False.elim)
      (created_sound few) storable
  exact sound.completes

/-! A host for requests in ASCII in which no text spells a number. -/

def ascii : Host where
  lower t := t.map fun c => if 65 ≤ c ∧ c ≤ 90 then c + 32 else c
  int _ := none
  str _ := text "[]"
  str_encodable _ _ := text_encodable _
  reads _ _ _ := .ok (.ok [])

/-- A request of connection `c1` that draws the id `u1`. -/
def requested (fields : List (String × Value)) : Request where
  connectionId := "c1"
  metadata := fields.foldl (fun metadata f => metadata.set (text f.1) f.2) ∅
  uuid _ := "u1"

/-- PUBLISH to a queue with a bound on the attempts. -/
def publishing (queue : String) (maxAttempts : Value) : Request := requested
  [("cmd", .text (text "PUBLISH")), ("queue", .text (text queue)), ("max_attempts", maxAttempts)]

/-- CONSUME a queue with a window. -/
def consuming (queue : String) (prefetch : Value) : Request := requested
  [("cmd", .text (text "CONSUME")), ("queue", .text (text queue)), ("prefetch", prefetch)]

instance {host : Host} {request : Request} {method : String} :
    Decidable (Calls host request method) :=
  match named : field request.metadata "cmd" with
  | .text cmd => decidable_of_iff (host.lower cmd = text method)
      ⟨fun same => ⟨cmd, named, same⟩, fun ⟨_, named', same⟩ => by
        rw [named] at named'
        rw [Value.text.inj named']
        exact same⟩
  | .null => isFalse fun ⟨_, named', _⟩ => by rw [named] at named'; cases named'
  | .bool _ => isFalse fun ⟨_, named', _⟩ => by rw [named] at named'; cases named'
  | .number _ => isFalse fun ⟨_, named', _⟩ => by rw [named] at named'; cases named'
  | .list _ => isFalse fun ⟨_, named', _⟩ => by rw [named] at named'; cases named'
  | .dict _ => isFalse fun ⟨_, named', _⟩ => by rw [named] at named'; cases named'

theorem publishing_storable (b : Broker) :
    Storable ascii {} b (publishing "jobs" (.number (.int 2))) where
  queue calls := absurd calls (by decide +kernel)
  publish _ := ⟨fun _ => text_plain "jobs", nofun, rfl,
    fun _ => ⟨.int 2, rfl, fun _ => Moment.of_le.mpr (by norm_num)⟩⟩
  get calls := absurd calls (by decide +kernel)
  consume calls := absurd calls (by decide +kernel)

theorem ticker_completes_published : Completes (reached ascii {} (fun n => n * 1000) (fun _ => true)
    [.connect "c1", .request none (publishing "jobs" (.number (.int 2)))]) :=
  ticker_completes ascii _ _ _ (fun _ => by decide) ⟨trivial, publishing_storable _, trivial⟩

/-- A text as the bound on the attempts: the timeout of the delivery compares
it with a number, and the queue `other` is not pumped. -/
theorem text_bound_blocks : ¬ Completes (reached ascii {} (fun n => n * 1000) (fun _ => true)
    [.connect "c1", .request none (publishing "jobs" (.text (text "two"))),
      .request none (consuming "jobs" .null),
      .request none (publishing "other" (.number (.int 2)))]) := by
  intro completes
  obtain ⟨_, _, _, _, _, _, ran⟩ := completes.ticked
  have raised : (ticker.exec (reached ascii {} (fun n => n * 1000) (fun _ => true)
      [.connect "c1", .request none (publishing "jobs" (.text (text "two"))),
        .request none (consuming "jobs" .null),
        .request none (publishing "other" (.number (.int 2)))])).1.isOk = false := by
    decide +kernel
  rw [ran] at raised
  cases raised

end OneOpenBroker.Untyped

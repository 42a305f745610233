import OneOpenBroker.Untyped.Handler
import OneOpenBroker.Untyped.Recoveries

/-! Routing, the registry and the pumps on a sound broker: they keep it sound,
and where they raise they have changed nothing, or the caller passed a name
that is no text. -/
namespace OneOpenBroker.Untyped
open Collections Programs
open OneOpenBroker.Core (EngineConfig EnqueueResult QoS)
open QueueEngine (nothing)

/-- A consumer whose id can be written into a frame. With `strict` the names
of its queues have a hash. -/
structure FineConsumer (strict : Prop) (consumer : Consumer) : Prop where
  id : consumer.consumerId.Hashable
  plain : consumer.consumerId.Plain
  queues : strict → ∀ name ∈ consumer.queues, name.Hashable

namespace Broker

structure Sound (strict : Prop) (config : EngineConfig) (b : Broker) : Prop where
  engine : b.queues.Sound strict config nothing
  consumers : b.consumers.All fun _ consumer => FineConsumer strict consumer

end Broker

variable {b b' : Broker} {strict : Prop} {config : EngineConfig} {value name : Value} {key : Key}
  {consumer : Consumer} {message : Message} {connectionId : String}

theorem wp_onQueues {α : Type} {program : Program QueueEngine Raised α} {post : α → Broker → Prop}
    {raised : Raised → Broker → Prop} : wp (onQueues program) post raised b ↔
      wp program (fun a e => post a { b with queues := e }) (fun x e => raised x { b with queues := e })
        b.queues := wp_zoom

/-! ## Routing -/

theorem hashed_wp : wp (hashed value) (fun key b' => b' = b ∧ value.hash = .ok key)
    (fun _ b' => b' = b ∧ ¬ value.Hashable) b := by
  unfold hashed
  cases computed : value.hash with
  | ok key => exact ⟨rfl, rfl⟩
  | error raised =>
    refine ⟨rfl, fun hashable => ?_⟩
    obtain ⟨key, same⟩ := hashable
    rw [same] at computed
    cases computed

theorem exchangeType_encodable {type : Core.ExchangeType} (known : exchangeType value = .ok type) :
    value.encodable = true := by
  unfold exchangeType at known
  cases value with
  | text t =>
    change Text.encodable t = true
    change (if Key.text t = .text (text "direct") then _ else _) = _ at known
    split at known
    · rename_i direct
      rw [Key.text.inj direct]
      exact text_encodable _
    · split at known
      · rename_i fanout
        rw [Key.text.inj fanout]
        exact text_encodable _
      · cases known
  | list items => cases known
  | dict entries => cases known
  | _ => rfl

/-- A new exchange has a name with a hash and a type that can be written. -/
theorem declareExchange_wp {type : Value} (sound : b.Sound strict config) :
    wp (declareExchange name type)
      (fun _ b' => b' = b ∨ b'.Sound strict config ∧ name.Hashable ∧ type.encodable = true)
      (fun _ b' => b' = b) b := by
  unfold declareExchange
  rw [wp_bind]
  refine wp_mono hashed_wp (fun key b' known => ?_) fun _ _ failed => failed.1
  obtain ⟨rfl, computed⟩ := known
  rw [wp_bind, wp_get, wp_ite]
  split
  · exact .inl rfl
  · rw [wp_bind]
    cases known : exchangeType type with
    | error raised => exact rfl
    | ok kind =>
      exact .inr ⟨⟨sound.engine, sound.consumers⟩, ⟨key, computed⟩, exchangeType_encodable known⟩

theorem deleteExchange_wp (sound : b.Sound strict config) :
    wp (deleteExchange name) (fun _ b' => b'.Sound strict config) (fun _ b' => b' = b) b := by
  unfold deleteExchange
  rw [wp_bind]
  refine wp_mono hashed_wp (fun key b' known => ?_) fun _ _ failed => failed.1
  obtain ⟨rfl, _⟩ := known
  rw [wp_ite]
  split
  · exact sound
  · rw [wp_bind, wp_get, wp_ite]
    split
    · exact ⟨sound.engine, sound.consumers⟩
    · exact sound

theorem bind_wp {exchange queue routingKey : Value} (sound : b.Sound strict config) :
    wp (bind exchange queue routingKey) (fun _ b' => b'.Sound strict config)
      (fun _ b' => b' = b ∧ (exchange.Hashable → queue.Hashable → ¬ routingKey.Hashable)) b := by
  unfold bind
  rw [wp_bind]
  refine wp_mono hashed_wp (fun key b' known => ?_)
    fun _ _ failed => ⟨failed.1, fun hashable => absurd hashable failed.2⟩
  obtain ⟨rfl, computed⟩ := known
  rw [wp_bind, wp_get, wp_ite]
  split
  · rw [wp_bind, wp_onQueues]
    refine wp_mono QueueEngine.getQueue_wp (fun found e got => ?_)
      fun _ _ failed => ⟨by rw [failed.1], fun _ hashable => absurd hashable failed.2⟩
    obtain ⟨rfl, _⟩ := got
    split
    · exact sound
    · rw [wp_bind]
      refine wp_mono hashed_wp (fun key b' known => ?_)
        fun _ _ failed => ⟨failed.1, fun _ _ => failed.2⟩
      obtain ⟨rfl, _⟩ := known
      exact ⟨sound.engine, sound.consumers⟩
  · exact sound

theorem unbind_wp {exchange queue routingKey : Value} (sound : b.Sound strict config) :
    wp (unbind exchange queue routingKey) (fun _ b' => b'.Sound strict config)
      (fun _ b' => b' = b) b := by
  unfold unbind
  rw [wp_bind]
  refine wp_mono hashed_wp (fun key b' known => ?_) fun _ _ failed => failed.1
  obtain ⟨rfl, _⟩ := known
  rw [wp_bind]
  refine wp_mono hashed_wp (fun key b' known => ?_) fun _ _ failed => failed.1
  obtain ⟨rfl, _⟩ := known
  rw [wp_bind]
  refine wp_mono hashed_wp (fun key b' known => ?_) fun _ _ failed => failed.1
  obtain ⟨rfl, _⟩ := known
  split
  · rw [wp_bind, wp_get, wp_ite]
    split
    · exact ⟨sound.engine, sound.consumers⟩
    · exact sound
  · exact sound

/-- Binding a queue under its own name on the default exchange does not raise. -/
theorem onQueueDeclared_wp {queue : Text} (sound : b.Sound strict config) :
    wp (onQueueDeclared queue) (fun _ b' => b'.Sound strict config) (fun _ _ => False) b := by
  unfold onQueueDeclared
  rw [wp_bind]
  exact wp_mono (bind_wp sound) (fun _ _ sound => sound)
    fun _ _ failed => failed.2 ⟨_, rfl⟩ ⟨_, rfl⟩ ⟨_, rfl⟩

/-- A queue that was there, or one that was declared under a text. -/
theorem ensureQueue_wp (sound : b.Sound strict config) (plain : value.Plain) :
    wp (ensureQueue value)
      (fun _ b' => b'.Sound strict config ∧ ∃ t, value = .text t ∧ (t ∈ b.queues.queues → b' = b))
      (fun _ b' => b' = b ∧ ∀ t, value ≠ .text t) b := by
  unfold ensureQueue
  rw [wp_bind, wp_onQueues]
  refine wp_mono QueueEngine.getQueue_wp (fun found e got => ?_) fun _ _ failed => ?_
  · obtain ⟨rfl, ⟨rfl, absent⟩ | ⟨t, queue, rfl, same, there⟩⟩ := got
    · rw [wp_bind, wp_onQueues]
      refine wp_mono QueueEngine.declareQueue_wp (fun t e declared => ?_)
        fun _ _ failed => ⟨by rw [failed.1], failed.2⟩
      obtain ⟨rfl, rfl⟩ := declared
      have engine : (b.queues.declareText t {}).Sound strict config nothing :=
        sound.engine.declareText (plain t rfl) .none
      refine wp_mono (onQueueDeclared_wp ⟨engine, sound.consumers⟩)
        (fun _ _ after => ⟨after, t, rfl, fun known => ?_⟩) fun _ _ failed => failed.elim
      rw [← Dict.isSome_get?, absent t rfl] at known
      cases known
    · exact ⟨sound, t, same, fun _ => rfl⟩
  · refine ⟨by rw [failed.1], ?_⟩
    rintro t rfl
    exact failed.2 ⟨_, rfl⟩

/-! ## Publishing -/

/-- The runtime, but for the number of times the clock was read. -/
def Runtime.unread (r : Runtime) : Runtime := { r with queues := { r.queues with reads := 0 } }

/-- The tables of the broker are the same. -/
def SameTables (b b' : Broker) : Prop := b'.toRuntime.unread = b.toRuntime.unread

theorem SameTables.refl : SameTables b b := rfl

/-- What a PUBLISH stores, if it is routed: the values of its messages. -/
structure FinePublish (config : EngineConfig) (args : PublishArgs) : Prop where
  queue : args.exchange.truthy = false → args.queue.Plain
  messageId : args.messageId.Plain
  headers : args.headers.encodable = true
  bounds : args.maxAttempts.truthy = true → args.maxAttempts.Bounds config

theorem Value.or_cases {a c : Value} {P : Value → Prop} (first : a.truthy = true → P a)
    (second : P c) : P (a.or c) := by
  unfold Value.or
  split
  · exact first ‹_›
  · exact second

theorem text_plain (t : String) : (Value.text (text t)).Plain := by
  intro t' same
  rw [← Value.text.inj same]
  exact text_encodable t

/-- A message with an id that can be hashed is fine, if its queue is. -/
theorem messageFor_fine {args : PublishArgs} {alone : Bool} {uuid : Text → String} {target : Text}
    (good : FinePublish config args)
    (bounded : (Value.number (.int config.maxAttempts)).Bounds config)
    (hashable : (messageFor config args alone uuid target).id.Hashable)
    (plain : Text.encodable target = true) :
    FineMessage config (messageFor config args alone uuid target) where
  id := hashable
  plain := by
    refine Value.or_cases (fun _ => ?_) (text_plain _)
    cases alone with
    | true => exact good.messageId
    | false => exact nofun
  queue := plain
  headers := good.headers
  bounds := Value.or_cases good.bounds bounded

theorem messageFor_hashable {args : PublishArgs} {alone : Bool} {uuid : Text → String}
    {target : Text} (hashable : args.messageId.truthy = true → alone = true → args.messageId.Hashable) :
    (messageFor config args alone uuid target).id.Hashable := by
  refine Value.or_cases (fun given => ?_) ⟨_, rfl⟩
  cases alone with
  | true => exact hashable given rfl
  | false => exact ⟨_, rfl⟩

/-- What `publish` answers can be written into the response. -/
def Writable (answer : Value × List Text × EnqueueResult) : Prop :=
  answer.2.2 = .ok → answer.1.encodable = true ∧ ∀ t ∈ answer.2.1, Text.encodable t = true

theorem fanOut_wp {message : Text → Message} {targets routed : List Text} {lastId : Value}
    (sound : b.Sound strict config)
    (good : ∀ target, Text.encodable target = true → FineMessage config (message target))
    (named : ∀ target, (message target).queue = target) (lastly : lastId.encodable = true)
    (reached : ∀ t ∈ routed, Text.encodable t = true) :
    wp (fanOut message targets routed lastId) (fun answer b' => b'.Sound strict config ∧ Writable answer)
      (fun _ b' => b'.Sound strict config ∧ ¬ strict) b := by
  induction targets generalizing b routed lastId with
  | nil => exact ⟨sound, fun _ => ⟨lastly, reached⟩⟩
  | cons target rest ih =>
    unfold fanOut
    rw [wp_bind, wp_onQueues]
    refine wp_mono (QueueEngine.enqueue_wp sound.engine fun plain => good target (named target ▸ plain))
      (fun result e after => ?_) fun _ e failed => ⟨⟨failed.2 ▸ sound.engine, sound.consumers⟩, failed.1⟩
    have kept : Broker.Sound strict config { b with queues := e } := ⟨after.1, sound.consumers⟩
    cases result with
    | queueFull => exact ⟨kept, nofun⟩
    | notFound => exact ih kept lastly reached
    | ok =>
      have plain : Text.encodable target = true := named target ▸ after.2 rfl
      have filed := good target plain
      refine ih kept (filed.plain.encodable filed.id) fun t member => ?_
      rcases List.mem_append.mp member with earlier | own
      · exact reached t earlier
      · rw [List.mem_singleton.mp own]
        exact plain

/-- A message that goes to one queue under an id without a hash is not filed. -/
theorem fanOut_unhashable {message : Text → Message} {target : Text} {lastId : Value}
    (unhashable : ¬ (message target).id.Hashable) :
    wp (fanOut message [target] [] lastId) (fun answer b' => b' = b ∧ Writable answer)
      (fun _ b' => ∃ reads, b' = { b with queues := { b.queues with reads } }) b := by
  unfold fanOut
  rw [wp_bind, wp_onQueues]
  refine wp_mono (QueueEngine.enqueue_unhashable unhashable) (fun result e after => ?_)
    fun _ e failed => ?_
  · obtain ⟨rfl, differ⟩ := after
    cases result with
    | queueFull => exact ⟨rfl, nofun⟩
    | notFound => exact ⟨rfl, nofun⟩
    | ok => exact absurd rfl differ
  · obtain ⟨reads, rfl⟩ := failed
    exact ⟨reads, rfl⟩

theorem route_wp {args : PublishArgs} {exchange routingKey : Value} {uuid : Text → String}
    (sound : b.Sound strict config) (good : FinePublish config args) :
    wp (route args exchange routingKey uuid)
      (fun answer b' => b'.Sound strict config ∧ Writable answer)
      (fun _ b' => b'.Sound strict config ∧ (strict → SameTables b b' ∧
        (exchange.Hashable → args.messageId.truthy = true ∧ ¬ args.messageId.Hashable))) b := by
  unfold route
  rw [wp_bind]
  refine wp_mono hashed_wp (fun key b' known => ?_) fun _ b' failed => ?_
  · obtain ⟨rfl, _⟩ := known
    rw [wp_bind, wp_get, wp_ite]
    split
    · dsimp only
      generalize routeTargets b' key routingKey = targets
      rw [wp_ite]
      split
      · exact ⟨sound, nofun⟩
      · rw [sound.engine.configured]
        by_cases hashable : args.messageId.truthy = true → decide (targets.length = 1) = true →
            args.messageId.Hashable
        · refine wp_mono (fanOut_wp sound (fun target plain => messageFor_fine good
            sound.engine.bounded (messageFor_hashable hashable) plain) (fun _ => rfl)
            (text_encodable "") fun t member => absurd member List.not_mem_nil)
            (fun _ _ after => after) fun _ _ failed => ⟨failed.1, fun held => absurd held failed.2⟩
        · push Not at hashable
          obtain ⟨given, alone, unhashable⟩ := hashable
          obtain ⟨target, rfl⟩ := List.length_eq_one_iff.mp (of_decide_eq_true alone)
          have own : (messageFor config args true uuid target).id = args.messageId := if_pos given
          rw [alone]
          refine wp_mono (fanOut_unhashable (own ▸ unhashable)) (fun _ _ after => ?_)
            fun _ _ failed => ?_
          · obtain ⟨rfl, writable⟩ := after
            exact ⟨sound, writable⟩
          · obtain ⟨reads, rfl⟩ := failed
            exact ⟨⟨sound.engine.frame rfl rfl rfl sound.engine.delayed, sound.consumers⟩,
              fun _ => ⟨rfl, fun _ => ⟨given, unhashable⟩⟩⟩
    · exact ⟨sound, nofun⟩
  · obtain ⟨rfl, unhashable⟩ := failed
    exact ⟨sound, fun _ => ⟨rfl, fun hashable => absurd hashable unhashable⟩⟩

/-- A PUBLISH under an id that has a hash, or one that declares no queue. -/
def Files (b : Broker) (args : PublishArgs) : Prop :=
  (args.messageId.truthy = true → args.messageId.Hashable) ∨
    (args.exchange.truthy = false → ∀ t, args.queue = .text t → t ∈ b.queues.queues)

theorem publish_wp {args : PublishArgs} {uuid : Text → String} (sound : b.Sound strict config)
    (good : FinePublish config args) (files : strict → Files b args) :
    wp (publish args uuid) (fun answer b' => b'.Sound strict config ∧ Writable answer)
      (fun _ b' => b'.Sound strict config ∧ (strict → SameTables b b')) b := by
  unfold publish
  rw [wp_ite]
  split
  · rename_i named
    rw [Bool.and_eq_true, Bool.not_eq_true'] at named
    rw [wp_bind]
    refine wp_mono (ensureQueue_wp sound (good.queue named.2)) (fun _ b' after => ?_)
      fun _ b' failed => ?_
    · obtain ⟨after, t, same, known⟩ := after
      refine wp_mono (route_wp after good) (fun _ _ after => after)
        fun _ b'' failed => ⟨failed.1, fun held => ?_⟩
      obtain ⟨tables, unhashable⟩ := failed.2 held
      rcases files held with hashable | there
      · obtain ⟨given, unhashable⟩ := unhashable ⟨_, rfl⟩
        exact absurd (hashable given) unhashable
      · rw [known (there named.2 t same)] at tables
        exact tables
    · rw [failed.1]
      exact ⟨sound, fun _ => rfl⟩
  · exact wp_mono (route_wp sound good) (fun _ _ after => after)
      fun _ _ failed => ⟨failed.1, fun held => (failed.2 held).1⟩

end OneOpenBroker.Untyped

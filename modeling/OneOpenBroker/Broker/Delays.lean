import OneOpenBroker.Broker.Calls
import OneOpenBroker.Broker.ServerRuns

/-! The handler where a retry may overflow. As long as the ticker runs only where
each message that is held may fail once more, every call that the handler makes
finds the delays it asks for: its state is one that the calls on the engine that
raises lead to, and none of them has raised. -/
namespace OneOpenBroker.Core.ConsumerManager
open Collections QueueEngine

/-- The calls so far have found their delays, and no message whose next retry
overflows can be delivered. -/
structure Steady (c : ConsumerManager) (e : QueueEngine) : Prop where
  reached : RaisingReachable CallHasDelays c e
  parked : Parked e.config e

variable {c : ConsumerManager} {e : QueueEngine}

theorem Steady.hasDelays (steady : Steady c e) (call : Call) : CallHasDelays c e call := by
  cases call with
  | engine persist op => exact steady.parked.hasDelays op
  | cancel consumerId => exact steady.parked.hasDelays (.recoverConsumer consumerId)
  | disconnectConnection connectionId order => exact steady.parked.clear _
  | note | register | qos | onAck | tryReserve => trivial

theorem parked_asked (config : EngineConfig) :
    Asked Unspent fun e => e.config = config ∧ Parked config e where
  own e op publishes ticks := by
    cases op with
    | enqueue message => exact absurd rfl (publishes message)
    | tick now => exact absurd rfl (ticks now)
    | declareQueue | deleteQueue | reserve | ack | nack | recoverConsumer | dlqRequeue => trivial
  step e persist op named ok inv := by
    obtain ⟨rfl, parked⟩ := inv
    exact ⟨step_config named op, step_parked named parked ok⟩
  note _ _ inv := inv
  seat _ name queue found inv _ _ := ⟨inv.1, Dict.All.set inv.2 (inv.2 name queue found)⟩

/-- A call that publishes only messages that may fail, and ticks only where each
message may, returns and leaves it so. -/
theorem Steady.call (steady : Steady c e) (request : Call)
    (ok : ∀ persist op, request = .engine persist op → Unspent e op) :
    Steady (c.after e request).1 (c.after e request).2 := by
  have intact : Intact c e := steady.reached.plain.intact
  have delays := steady.hasDelays request
  obtain ⟨config, parked⟩ := (parked_asked e.config).call intact ⟨rfl, steady.parked⟩ request ok
  refine ⟨?_, config.symm ▸ parked⟩
  rw [← raisingAfter_agrees intact.named delays]
  exact steady.reached.call request delays

end OneOpenBroker.Core.ConsumerManager

namespace OneOpenBroker.Broker
open Collections OneOpenBroker.Core QueueEngine ConsumerManager

namespace Handler

variable {g : Guards} {h h' : Handler}

/-- Every call of the handler has found its delays. -/
def SteadyIn (h : Handler) : Prop := ConsumerManager.Steady h.consumers h.queues

theorem SteadyIn.call (steady : SteadyIn h) (request : Call)
    (after : h.consumers.after h.queues request = (h'.consumers, h'.queues))
    (ok : ∀ persist op, request = .engine persist op → Unspent h.queues op) : SteadyIn h' := by
  have called := ConsumerManager.Steady.call steady request ok
  rw [after] at called
  exact called

/-- A call of the registry, or of the engine that neither publishes nor runs the clock. -/
theorem SteadyIn.plainCall (steady : SteadyIn h) (request : Call)
    (after : h.consumers.after h.queues request = (h'.consumers, h'.queues))
    (publishes : ∀ persist message, request ≠ .engine persist (.enqueue message))
    (ticks : ∀ persist now, request ≠ .engine persist (.tick now)) : SteadyIn h' := by
  refine steady.call request after ?_
  rintro persist op rfl
  refine (parked_asked h.queues.config).own h.queues op ?_ ?_
  · rintro message rfl
    exact publishes persist message rfl
  · rintro now rfl
    exact ticks persist now rfl

theorem SteadyIn.credit (steady : SteadyIn h) (consumerId : String) :
    SteadyIn (h.credited consumerId) := by
  unfold credited
  split
  · exact steady
  · exact steady.plainCall (.onAck consumerId) rfl (by simp) (by simp)

theorem SteadyIn.idle {queue : String} {e' : QueueEngine} (steady : SteadyIn h)
    (nothing : h.consumers.tryReserve h.queues queue = (none, h.consumers, e')) :
    SteadyIn (h.withQueues e') := by
  refine steady.plainCall (.tryReserve queue) ?_ (by simp) (by simp)
  change (h.consumers.tryReserve h.queues queue).2 = _
  rw [nothing]
  rfl

theorem SteadyIn.took {queue id m : String} {consumer : Consumer} {message : Message}
    {e' : QueueEngine} {sent : Nat} {outcome : Outcome} (steady : SteadyIn h)
    (takes : h.consumers.Takes h.queues queue id consumer m message e') :
    SteadyIn (h.took queue id consumer message e' sent outcome) := by
  refine steady.plainCall (.tryReserve queue) ?_ (by simp) (by simp)
  change (h.consumers.tryReserve h.queues queue).2 = _
  rw [takes.result]
  rfl

theorem SteadyIn.engine (steady : SteadyIn h) (op : EngineOp)
    (publishes : ∀ message, op ≠ .enqueue message) (ticks : ∀ now, op ≠ .tick now) :
    SteadyIn (h.withQueues (h.queues.step true op)) := by
  refine steady.plainCall (.engine true op) rfl ?_ ?_
  · rintro persist message same
    cases same
    exact publishes message rfl
  · rintro persist now same
    cases same
    exact ticks now rfl

theorem steady_upheld (tick : ∀ h, g.tick h = true → h.queues.Retriable) : Upheld g SteadyIn where
  frame h h' inv queues consumers _ _ := by
    unfold SteadyIn
    rw [queues, consumers]
    exact inv
  idle h queue e' inv nothing _ := inv.idle nothing
  record h op inv _ := inv.plainCall (.note op) rfl (by simp) (by simp)
  declare h name args inv := inv.engine (.declareQueue name args) (by simp) (by simp)
  delete h name inv _ := inv.engine (.deleteQueue name) (by simp) (by simp)
  enqueue h message _ inv pristine _ _ := by
    refine inv.call (.engine true (.enqueue message)) rfl ?_
    rintro persist op ⟨⟩
    exact fine_of_none pristine.1
  requeue h queue m inv := inv.engine (.dlqRequeue queue m) (by simp) (by simp)
  tick h inv ok := by
    refine inv.call (.engine true (.tick none)) rfl ?_
    rintro persist op ⟨⟩
    exact tick h ok
  ack h m inv _ := (inv.engine (.ack m) (by simp) (by simp)).credit _
  nack h m requeue inv _ := (inv.engine (.nack m requeue) (by simp) (by simp)).credit _
  refusedNack h m requeue inv _ := inv.engine (.nack m requeue) (by simp) (by simp)
  register h id connectionId queues prefetch tag inv _ _ :=
    inv.plainCall (.register id connectionId queues prefetch tag) rfl (by simp) (by simp)
  window h id count inv := inv.plainCall (.qos id count) rfl (by simp) (by simp)
  cancel h id inv := inv.plainCall (.cancel id) rfl (by simp) (by simp)
  issue _ _ inv := inv
  pull h queue id consumer m message e' inv takes := inv.took takes
  pump h queue inv _ := by
    apply pumpQueue_loop (L := SteadyIn) (I := SteadyIn) _ _ _ inv
    · exact fun h e' inv nothing _ => inv.idle nothing
    · exact fun h id consumer m message e' sent inv takes => inv.took takes
    · intro h id consumer m message e' sent inv takes
      have took : SteadyIn (h.took queue id consumer message e' sent .refused) := inv.took takes
      generalize h.took queue id consumer message e' sent .refused = h' at took
      have nacked : SteadyIn (h'.withQueues (h'.queues.nack message.id true).2) :=
        took.engine (.nack message.id true) (by simp) (by simp)
      exact nacked.plainCall (.onAck consumer.consumerId) rfl (by simp) (by simp)

/-- The broker that was just created holds no message. -/
theorem created_steady (config : EngineConfig) (clock : Nat → ℚ) (sends : Nat → Bool) :
    SteadyIn (created config clock sends) :=
  ⟨.start config clock, Dict.all_empty⟩

/-- **No overflow.** In a run in which the ticker finds only messages that may fail
once more, every call of the handler returns. -/
theorem Reachable.steady (tick : ∀ h, g.tick h = true → h.queues.Retriable) (reached : Reachable g h) :
    SteadyIn h :=
  (steady_upheld tick).reachable created_steady reached

theorem delayGuards_tick (h : Handler) (ok : delayGuards.tick h = true) : h.queues.Retriable :=
  of_decide_eq_true ok

theorem ticker_steady (steady : SteadyIn h) (retriable : h.queues.Retriable) : SteadyIn h.ticker := by
  have ticks : delayGuards.event h .ticker = true := by
    unfold Guards.event
    dsimp only
    rw [Guards.pumps_free fun _ _ => rfl, Bool.and_true]
    exact decide_eq_true retriable
  exact (steady_upheld delayGuards_tick).step steady ticks

end Handler

namespace Server

variable {allowed : Server → ServerEvent → Prop} {s : Server}

theorem steady_kept (tick : ∀ s, allowed s .ticker → s.handler.queues.Retriable) :
    Kept allowed fun s => s.handler.SteadyIn where
  frame s s' inv queues consumers _ _ _ _ := by
    unfold Handler.SteadyIn
    rw [queues, consumers]
    exact inv
  answer s connectionId frame rest room inv _ _ := by
    have handled : (s.handleFrame connectionId frame).2.SteadyIn := by
      cases frame with
      | inert => exact inv
      | command command =>
        exact (Handler.steady_upheld Handler.delayGuards_tick).command inv
          (Guards.command_free (fun _ _ => rfl) (fun _ _ => rfl) (fun _ _ => rfl) fun _ _ _ _ => rfl)
    unfold Server.answer
    generalize s.handleFrame connectionId frame = result at handled ⊢
    obtain ⟨success, h⟩ := result
    dsimp only
    split
    · exact handled
    · exact handled
  drop s connectionId order inv _ := by
    unfold Server.drop
    split
    · have dropped : (s.handler.step (.drop connectionId order)).SteadyIn :=
        (Handler.steady_upheld Handler.delayGuards_tick).step inv rfl
      exact dropped
    · exact inv
  ticker s inv ok := Handler.ticker_steady inv (tick s ok)
  take _ inv := inv
  write _ _ inv := inv
  resolve _ inv := inv

/-- The same of the runs of the server. -/
theorem Reachable.steady (tick : ∀ s, allowed s .ticker → s.handler.queues.Retriable)
    (reached : Reachable allowed s) : s.handler.SteadyIn :=
  (steady_kept tick).reachable (fun config clock sends _ => Handler.created_steady config clock sends)
    reached

end Server
end OneOpenBroker.Broker

import OneOpenBroker.Broker.Pumps
import OneOpenBroker.Core.Parked
import OneOpenBroker.Persistence.BrokerRuns

/-! Runs of the handler. A run interleaves commands of any connections, rounds
of the ticker, new connections and dropped ones, in any order and with any
outcomes of the sends. Conditions on a run are put on the calls it makes:
which messages are enqueued, which consumers are registered, and so on, each
checked in the state the call is made in. An invariant of all runs is proved
call by call. -/
namespace OneOpenBroker.Broker
open Collections OneOpenBroker.Core QueueEngine ConsumerManager

inductive Event where
  | command (connectionId : String) (command : Command)
  | ticker
  | connect (connectionId : String)
  | drop (connectionId : String) (order : List String)

/-- Conditions on the calls of a run: on a message that is going to be
accepted, on a consumer id that is going to be registered for a connection and
queues, on a queue that is going to be deleted, on the ticker, and on a queue that is going to be pumped. -/
structure Guards where
  enqueue : QueueEngine → Message → Bool := fun _ _ => true
  register : Handler → String → String → List String → Bool := fun _ _ _ _ => true
  delete : Handler → String → Bool := fun _ _ => true
  tick : Handler → Bool := fun _ => true
  pump : Handler → String → Bool := fun _ _ => true

/-- The ticker runs only where each message that the queues hold may fail once
more without an overflow of its delay. -/
def delayGuards : Guards where
  tick := fun h => h.queues.Retriable

/-- No queue but the target holds a message under the id. -/
def filedAlone (e : QueueEngine) (message : Message) : Bool :=
  e.queues.entries.all fun (name, queue) => message.id ∉ queue.messages || name = message.queue

theorem filedAlone_iff {e : QueueEngine} {message : Message} : filedAlone e message = true ↔
    ∀ q old, e.message? q message.id = some old → q = message.queue := by
  simp only [filedAlone, List.all_eq_true, Bool.or_eq_true, decide_eq_true_eq]
  constructor
  · intro alone q old held
    obtain ⟨queue, found, there⟩ := message?_some.mp held
    exact (alone (q, queue) (Dict.get?_eq_some.mp found)).resolve_left
      fun absent => absent (Dict.mem_of_get? there)
  · rintro alone ⟨q, queue⟩ listed
    by_cases there : message.id ∈ queue.messages
    · obtain ⟨old, held⟩ := Dict.mem_iff.mp there
      exact .inr (alone q old (message?_some.mpr ⟨queue, Dict.get?_eq_some.mpr listed, held⟩))
    · exact .inl there

namespace Guards

/-- The loop over the targets of a publish meets the condition at every
message that is accepted. -/
def enqueues (g : Guards) (message : String → Message) : List String → QueueEngine → Bool
  | [], _ => true
  | target :: rest, e =>
    match e.enqueue (message target) with
    | (.ok, e') => g.enqueue e (message target) && g.enqueues message rest e'
    | (.notFound, e) => g.enqueues message rest e
    | (.queueFull, _) => true

def publish (g : Guards) (r : RoutingEngine) (args : PublishArgs) (stamp : String → Stamp) : Bool :=
  let (r, exchange, routingKey) := r.ensureQueue args true
  let exchange := exchange.getD defaultExchange
  let targets := r.routeTargets exchange routingKey
  g.enqueues (RoutingEngine.messageFor r.queues args exchange routingKey (targets.length = 1) stamp)
    targets r.queues

def pumps (g : Guards) : List String → Handler → Bool
  | [], _ => true
  | queue :: rest, h => g.pump h queue && g.pumps rest (h.pumpQueue queue)

/-- The pumps after a settled delivery. -/
def settled (g : Guards) (h : Handler) (consumerId : String) : Bool :=
  if consumerId = "" then true
  else
    match (h.onAck consumerId).consumers.consumers.get? consumerId with
    | none => true
    | some consumer => g.pumps consumer.queues (h.onAck consumerId)

/-- The calls that a command makes meet the conditions. -/
def command (g : Guards) (h : Handler) (connectionId : String) : Command → Bool
  | .deleteQueue name => g.delete h name
  | .publish args stamp =>
    let ((_, routed, result), routing) := h.routing.publish args stamp
    g.publish h.routing args stamp && (result ≠ .ok || g.pumps routed { h with routing })
  | .get queue consumerId _ =>
    let consumerId := if consumerId = "" then Handler.getConsumerId connectionId queue else consumerId
    queue = "" || consumerId ∈ h.consumers.consumers || g.register h connectionId consumerId [queue]
  | .consume queues queue consumerId prefetch tag uuid =>
    let queues := Handler.consumeQueues queues queue
    let h := queues.foldl Handler.ensureQueue
      { h with consumed := queues.map (connectionId, ·) ++ h.consumed }
    let consumerId := if consumerId = "" then uuid.text else consumerId
    let prefetch := prefetch.getD (orNumber (h.prefetchOf connectionId) 1)
    queues = [] || g.register h connectionId consumerId queues &&
      g.pumps queues (h.register consumerId connectionId queues prefetch tag)
  | .ack messageId =>
    let (result, e) := h.queues.ack messageId
    result ≠ .ok || g.settled (h.withQueues e) ((h.queues.inflightConsumer messageId).getD "")
  | .nack messageId requeue =>
    let (result, e) := h.queues.nack messageId requeue
    result ≠ .ok || g.settled (h.withQueues e) ((h.queues.inflightConsumer messageId).getD "")
  | .dlqRequeue queue messageId =>
    let (moved, e) := h.queues.dlqRequeue queue messageId
    !moved || g.pump (h.withQueues e) queue
  | _ => true

def event (g : Guards) (h : Handler) : Event → Bool
  | .command connectionId command => g.command h connectionId command
  | .ticker =>
    let e := h.queues.tick.2
    g.tick h && g.pumps (Handler.listQueues e) (h.withQueues e)
  | .connect _ | .drop .. => true

end Guards

/-- The command registers a consumer. -/
def Handler.registers (h : Handler) (connectionId : String) : Command → Bool
  | .get queue consumerId _ =>
    let consumerId := if consumerId = "" then Handler.getConsumerId connectionId queue else consumerId
    queue ≠ "" && consumerId ∉ h.consumers.consumers
  | .consume queues queue .. => Handler.consumeQueues queues queue ≠ []
  | _ => false

namespace Guards

variable {g : Guards} {h : Handler} {connectionId : String}

theorem enqueues_free (enqueue : ∀ e message, g.enqueue e message = true)
    (message : String → Message) (targets : List String) (e : QueueEngine) :
    g.enqueues message targets e = true := by
  induction targets generalizing e with
  | nil => rfl
  | cons target rest ih =>
    unfold enqueues
    split
    · rw [enqueue, ih]
      rfl
    · exact ih _
    · rfl

theorem pumps_free (pump : ∀ h queue, g.pump h queue = true) (queues : List String) (h : Handler) :
    g.pumps queues h = true := by
  induction queues generalizing h with
  | nil => rfl
  | cons queue rest ih =>
    unfold pumps
    rw [pump, ih]
    rfl

theorem settled_free (pump : ∀ h queue, g.pump h queue = true) (h : Handler) (consumerId : String) :
    g.settled h consumerId = true := by
  unfold settled
  split
  · rfl
  · split
    · rfl
    · exact pumps_free pump _ _

/-- Conditions on registrations only. -/
theorem command_free (enqueue : ∀ e message, g.enqueue e message = true)
    (delete : ∀ h name, g.delete h name = true) (pump : ∀ h queue, g.pump h queue = true)
    {command : Command} (register : h.registers connectionId command = true →
      ∀ h' id queues, g.register h' connectionId id queues = true) :
    g.command h connectionId command = true := by
  cases command with
  | deleteQueue name => exact delete h name
  | publish args stamp =>
    unfold Guards.command publish
    dsimp only
    rw [enqueues_free enqueue, pumps_free pump, Bool.or_true, Bool.true_and]
  | get queue consumerId prefetch =>
    unfold Handler.registers at register
    unfold Guards.command
    dsimp only at register ⊢
    simp only [Bool.or_eq_true, decide_eq_true_eq]
    by_cases unnamed : queue = ""
    · exact .inl (.inl unnamed)
    · by_cases known : (if consumerId = "" then Handler.getConsumerId connectionId queue
          else consumerId) ∈ h.consumers.consumers
      · exact .inl (.inr known)
      · exact .inr (register (by simp [unnamed, known]) _ _ _)
  | consume queues queue consumerId prefetch tag uuid =>
    unfold Handler.registers at register
    unfold Guards.command
    dsimp only at register ⊢
    simp only [Bool.or_eq_true, Bool.and_eq_true, decide_eq_true_eq]
    by_cases unnamed : Handler.consumeQueues queues queue = []
    · exact .inl unnamed
    · exact .inr ⟨register (by simp [unnamed]) _ _ _, pumps_free pump _ _⟩
  | ack messageId =>
    unfold Guards.command
    dsimp only
    rw [settled_free pump, Bool.or_true]
  | nack messageId requeue =>
    unfold Guards.command
    dsimp only
    rw [settled_free pump, Bool.or_true]
  | dlqRequeue queue messageId =>
    unfold Guards.command
    dsimp only
    rw [pump, Bool.or_true]
  | declareExchange | deleteExchange | declareQueue | bind | unbind | cancel | qos | subscribe
  | unsubscribe | publishChannel => rfl

theorem ticker_free (tick : ∀ h, g.tick h = true) (pump : ∀ h queue, g.pump h queue = true) :
    g.event h .ticker = true := by
  unfold event
  dsimp only
  rw [tick, pumps_free pump]
  rfl

/-- Without conditions every event may happen. -/
theorem event_free (h : Handler) (event : Event) : ({} : Guards).event h event = true := by
  cases event with
  | command connectionId command =>
    exact command_free (fun _ _ => rfl) (fun _ _ => rfl) (fun _ _ => rfl) (fun _ _ _ _ => rfl)
  | ticker => exact ticker_free (fun _ => rfl) (fun _ _ => rfl)
  | connect | drop => rfl

end Guards

namespace Handler

def step (h : Handler) : Event → Handler
  | .command connectionId command => (h.handle connectionId command).2
  | .ticker => h.ticker
  | .connect connectionId => h.connect connectionId
  | .drop connectionId order => (h.drop connectionId order).2

/-- The handler of a broker that was just created. -/
def created (config : EngineConfig) (clock : Nat → ℚ) (sends : Nat → Bool) : Handler where
  routing := RoutingEngine.create { config, clock }
  sends := sends

/-- The states of runs whose calls meet the conditions. -/
inductive Reachable (g : Guards) : Handler → Prop where
  | start (config : EngineConfig) (clock : Nat → ℚ) (sends : Nat → Bool) :
    Reachable g (created config clock sends)
  | step {h : Handler} (reached : Reachable g h) (event : Event) (ok : g.event h event = true) :
    Reachable g (h.step event)

/-- A run that meets conditions is a run. -/
theorem Reachable.free {g : Guards} {h : Handler} (reached : Reachable g h) : Reachable {} h := by
  induction reached with
  | start config clock sends => exact .start config clock sends
  | step _ event _ free => exact free.step event (Guards.event_free _ event)

/-- The registry's side of a delivery that was settled. -/
def credited (h : Handler) (consumerId : String) : Handler :=
  if consumerId = "" then h else h.onAck consumerId

/-- The consumer that a settled message was out to. -/
def settledFor (h : Handler) (messageId : String) : String :=
  (h.queues.inflightConsumer messageId).getD ""

def cancelled (h : Handler) (consumerId : String) : Handler :=
  let (_, c, e) := h.consumers.cancel h.queues consumerId
  withQueues { h with consumers := c } e

/-- What every cancellation keeps holds after the consumers of a connection are
cancelled, in whatever order. -/
theorem cancelAll_keeps {I : Handler → Prop} (cancels : ∀ h consumerId, I h → I (h.cancelled consumerId))
    (ids : List String) {h : Handler} (inv : I h) : I (withQueues
      { h with consumers := (cancelAll ids h.consumers h.queues).2.1 }
      (cancelAll ids h.consumers h.queues).2.2) :=
  cancelAll_rule (I := fun c e => I (withQueues { h with consumers := c } e))
    (fun c e id inv => cancels (withQueues { h with consumers := c } e) id inv) ids inv

/-- The registry after a registration. -/
def enrolled (h : Handler) (consumerId connectionId : String) (queues : List String)
    (prefetch : Int) (tag : String) : Handler :=
  { h with consumers := (h.consumers.register h.queues consumerId connectionId queues prefetch tag).1 }

/-- What an invariant has to survive: the calls that the commands, the ticker
and the cleanup are made of. -/
structure Upheld (g : Guards) (I : Handler → Prop) : Prop where
  frame : ∀ h h', I h → h'.queues = h.queues → h'.consumers = h.consumers →
    h'.handovers = h.handovers → h'.consumed = h.consumed → I h'
  idle : ∀ h queue e', I h → h.consumers.tryReserve h.queues queue = (none, h.consumers, e') →
    Alike h.queues e' → I (h.withQueues e')
  record : ∀ h op, I h → RoutingRecord h.queues op → I (h.withQueues (h.queues.append true op))
  declare : ∀ h name args, I h → I (h.withQueues (h.queues.declareQueue name args))
  delete : ∀ h name, I h → g.delete h name = true → I (h.withQueues (h.queues.deleteQueue name).2)
  enqueue : ∀ h message queue, I h → Pristine message → h.queues.Accepts message true queue →
    g.enqueue h.queues message = true → I (h.withQueues (h.queues.enqueue message).2)
  requeue : ∀ h queue m, I h → I (h.withQueues (h.queues.dlqRequeue queue m).2)
  tick : ∀ h, I h → g.tick h = true → I (h.withQueues h.queues.tick.2)
  ack : ∀ h m, I h → (h.queues.ack m).1 = .ok →
    I ((h.withQueues (h.queues.ack m).2).credited (h.settledFor m))
  nack : ∀ h m requeue, I h → (h.queues.nack m requeue).1 = .ok →
    I ((h.withQueues (h.queues.nack m requeue).2).credited (h.settledFor m))
  refusedNack : ∀ h m requeue, I h → (h.queues.nack m requeue).1 ≠ .ok →
    I (h.withQueues (h.queues.nack m requeue).2)
  register : ∀ h id connectionId queues prefetch tag, I h → id ≠ "" →
    g.register h connectionId id queues = true →
    I (h.register id connectionId queues prefetch tag)
  window : ∀ h id count, I h →
    I { h with consumers := h.consumers.updateQos id (·.setPrefetch count) }
  cancel : ∀ h id, I h → I (h.cancelled id)
  issue : ∀ h pairs, I h → I { h with consumed := pairs ++ h.consumed }
  pull : ∀ h queue id consumer m message e', I h →
    h.consumers.Takes h.queues queue id consumer m message e' →
    I (h.took queue id consumer message e' h.sent .pulled)
  pump : ∀ h queue, I h → g.pump h queue = true → I (h.pumpQueue queue)

/-- What an invariant has to survive that turns and heaps do not matter to. -/
structure Kept (g : Guards) (I : Handler → Prop) : Prop where
  frame : ∀ h h', I h → h'.queues = h.queues → h'.consumers = h.consumers →
    h'.handovers = h.handovers → h'.consumed = h.consumed → I h'
  alike : ∀ h e', I h → Alike h.queues e' → I (h.withQueues e')
  record : ∀ h op, I h → RoutingRecord h.queues op → I (h.withQueues (h.queues.append true op))
  declare : ∀ h name args, I h → I (h.withQueues (h.queues.declareQueue name args))
  delete : ∀ h name, I h → g.delete h name = true → I (h.withQueues (h.queues.deleteQueue name).2)
  enqueue : ∀ h message queue, I h → Pristine message → h.queues.Accepts message true queue →
    g.enqueue h.queues message = true → I (h.withQueues (h.queues.enqueue message).2)
  requeue : ∀ h queue m, I h → I (h.withQueues (h.queues.dlqRequeue queue m).2)
  tick : ∀ h, I h → g.tick h = true → I (h.withQueues h.queues.tick.2)
  ack : ∀ h m, I h → (h.queues.ack m).1 = .ok →
    I ((h.withQueues (h.queues.ack m).2).credited (h.settledFor m))
  nack : ∀ h m requeue, I h → (h.queues.nack m requeue).1 = .ok →
    I ((h.withQueues (h.queues.nack m requeue).2).credited (h.settledFor m))
  refusedNack : ∀ h m requeue, I h → (h.queues.nack m requeue).1 ≠ .ok →
    I (h.withQueues (h.queues.nack m requeue).2)
  register : ∀ h id connectionId queues prefetch tag, I h → id ≠ "" →
    g.register h connectionId id queues = true →
    I (h.enrolled id connectionId queues prefetch tag)
  window : ∀ h id count, I h →
    I { h with consumers := h.consumers.updateQos id (·.setPrefetch count) }
  cancel : ∀ h id, I h → I (h.cancelled id)
  issue : ∀ h pairs, I h → I { h with consumed := pairs ++ h.consumed }
  pull : ∀ h queue id consumer m message e', I h →
    h.consumers.Takes h.queues queue id consumer m message e' →
    I (h.took queue id consumer message e' h.sent .pulled)
  pump : ∀ h queue, I h → g.pump h queue = true → I (h.pumpQueue queue)

variable {g : Guards} {I : Handler → Prop} {h : Handler} {connectionId id m queue : String}
  {queues : List String}

/-! ## From the calls to the commands -/

theorem refused_ack {e : QueueEngine} (refused : (e.ack m).1 ≠ .ok) : (e.ack m).2 = e := by
  rcases ack_cases e m true with ⟨name, queue, settles⟩ | ⟨_, same⟩
  · exact absurd settles.result refused
  · exact same

/-- Sending frames changes the count of the sends only. -/
theorem sendAll_frame (connections : List String) (h : Handler) :
    ∃ sent, (sendAll connections h).2 = { h with sent } := by
  induction connections generalizing h with
  | nil => exact ⟨h.sent, rfl⟩
  | cons connectionId rest ih =>
    have first : ∃ sent, (h.send connectionId).2 = { h with sent } := by
      unfold send
      split
      · exact ⟨h.sent + 1, rfl⟩
      · exact ⟨h.sent, rfl⟩
    obtain ⟨sent, shape⟩ := first
    obtain ⟨sent', shape'⟩ := ih (h.send connectionId).2
    refine ⟨sent', ?_⟩
    rw [shape] at shape'
    unfold sendAll
    dsimp only
    rw [shape, shape']

section Commands

variable (upheld : Upheld g I)
include upheld

/-- Only the queues of the routing engine matter. -/
theorem Upheld.rerouted {r : RoutingEngine} (inv : I (h.withQueues r.queues)) :
    I { h with routing := r } :=
  upheld.frame _ _ inv rfl rfl rfl rfl

theorem Upheld.records {r : RoutingEngine} (inv : I { h with routing := r }) :
    (∀ name type durable, I { h with routing := r.declareExchange name type durable }) ∧
    (∀ name, I { h with routing := (r.deleteExchange name).2 }) ∧
    (∀ exchange queue routingKey, I { h with routing := (r.bind exchange queue routingKey).2 }) ∧
    ∀ exchange queue routingKey, I { h with routing := (r.unbind exchange queue routingKey).2 } := by
  have start : I (h.withQueues r.queues) := upheld.frame _ _ inv rfl rfl rfl rfl
  obtain ⟨declare, delete, bind, unbind⟩ := Persistence.routing_preserves
    (I := fun e => I (h.withQueues e)) (fun e op record inv => upheld.record _ op inv record) start
  exact ⟨fun name type durable => upheld.rerouted (declare name type durable),
    fun name => upheld.rerouted (delete name),
    fun exchange queue routingKey => upheld.rerouted (bind exchange queue routingKey),
    fun exchange queue routingKey => upheld.rerouted (unbind exchange queue routingKey)⟩

/-- A queue that is declared and bound to the default exchange. -/
theorem Upheld.declared {r : RoutingEngine} {name : String} {args : QueueArgs}
    (inv : I { h with routing := r }) :
    I { h with
      routing := { r with queues := r.queues.declareQueue name args }.onQueueDeclared name } := by
  have declared := upheld.declare _ name args inv
  have rerouted := upheld.rerouted (h := h) (r := { r with queues := r.queues.declareQueue name args })
    (upheld.frame _ _ declared rfl rfl rfl rfl)
  exact (upheld.records rerouted).2.2.1 _ _ _

theorem Upheld.pumpAll (inv : I h) (ok : g.pumps queues h = true) : I (h.pumpAll queues) := by
  induction queues generalizing h with
  | nil => exact inv
  | cons queue rest ih =>
    rw [Guards.pumps, Bool.and_eq_true] at ok
    exact ih (upheld.pump h queue inv ok.1) ok.2

theorem Upheld.fanOut {message : String → Message} {targets routed : List String} {lastId : String}
    {e : QueueEngine} (pristine : ∀ target, Pristine (message target)) (inv : I (h.withQueues e))
    (ok : g.enqueues message targets e = true) :
    I (h.withQueues (RoutingEngine.fanOut message true targets routed lastId e).2) := by
  induction targets generalizing e routed lastId with
  | nil => exact inv
  | cons target rest ih =>
    rcases RoutingEngine.target_cases e (message target) true with absent | ⟨queue, found, full⟩ |
      ⟨queue, accepts⟩
    · rw [RoutingEngine.fanOut_missing absent]
      rw [Guards.enqueues, RoutingEngine.enqueue_notFound absent] at ok
      exact ih inv ok
    · rw [RoutingEngine.fanOut_full found full]
      exact inv
    · rw [RoutingEngine.fanOut_accepts accepts]
      rw [Guards.enqueues, accepts.2.2] at ok
      dsimp only at ok
      rw [Bool.and_eq_true] at ok
      have accepted := upheld.enqueue _ (message target) queue inv (pristine target) accepts ok.1
      refine ih accepted ?_
      rw [accepts.2.2]
      exact ok.2

theorem Upheld.publish {args : PublishArgs} {stamp : String → Stamp} (inv : I h)
    (ok : g.publish h.routing args stamp = true) :
    I { h with routing := (h.routing.publish args stamp).2 } := by
  have ensured : I { h with routing := (h.routing.ensureQueue args true).1 } := by
    unfold RoutingEngine.ensureQueue
    split
    · exact inv
    · dsimp only
      split
      · split
        · exact inv
        · exact upheld.declared inv
      · exact inv
  unfold Guards.publish at ok
  unfold RoutingEngine.publish
  rcases shape : h.routing.ensureQueue args true with ⟨r, exchange, routingKey⟩
  rw [shape] at ensured ok
  dsimp only at ensured ok ⊢
  split
  · split
    · exact ensured
    · apply upheld.rerouted
      exact upheld.fanOut (fun target => ⟨rfl, rfl⟩) (upheld.frame _ _ ensured rfl rfl rfl rfl) ok
  · exact ensured

theorem Upheld.settled {consumerId : String} (inv : I (h.credited consumerId))
    (ok : g.settled h consumerId = true) : I (h.settled consumerId) := by
  unfold Handler.settled
  unfold Guards.settled at ok
  unfold credited at inv
  split
  · rename_i missing
    rw [if_pos missing] at inv
    exact inv
  · rename_i named
    rw [if_neg named] at inv ok
    dsimp only at ok ⊢
    split
    · exact inv
    · rename_i consumer found
      rw [found] at ok
      exact upheld.pumpAll inv ok

theorem Upheld.ensure (inv : I h) : I (queues.foldl ensureQueue h) := by
  induction queues generalizing h with
  | nil => exact inv
  | cons name rest ih =>
    refine ih ?_
    unfold ensureQueue
    split
    · exact inv
    · exact upheld.declared inv

theorem Upheld.reader {consumerId : String} {prefetch : Int} (inv : I h) (named : consumerId ≠ "")
    (ok : consumerId ∉ h.consumers.consumers →
      g.register h connectionId consumerId [queue] = true) :
    I (h.getConsumer connectionId queue consumerId prefetch) := by
  unfold getConsumer
  split
  · split
    · exact inv
    · exact upheld.window h consumerId _ inv
  · rename_i unknown
    exact upheld.register h consumerId connectionId [queue] prefetch "" inv named (ok unknown)

omit upheld in
theorem getConsumerId_nonempty : getConsumerId connectionId queue ≠ "" := by
  intro empty
  have letters := congrArg String.toList empty
  simp [getConsumerId] at letters

theorem Upheld.get {consumerId : String} {prefetch : Option Int} (inv : I h)
    (ok : g.command h connectionId (.get queue consumerId prefetch) = true) :
    I (h.cmdGet connectionId queue consumerId prefetch).2 := by
  unfold cmdGet
  unfold Guards.command at ok
  dsimp only at ok ⊢
  split
  · exact inv
  · rename_i named
    generalize reader : (if consumerId = "" then getConsumerId connectionId queue else consumerId) = id
      at ok ⊢
    have nonempty : id ≠ "" := by
      rw [← reader]
      split
      · exact getConsumerId_nonempty
      · assumption
    have ready : I (h.getConsumer connectionId queue id (prefetch.getD (h.prefetchOf connectionId))) := by
      apply upheld.reader inv nonempty
      intro unknown
      simpa only [named, unknown, decide_false, Bool.false_or] using ok
    generalize h.getConsumer connectionId queue id (prefetch.getD (h.prefetchOf connectionId)) = h'
      at ready ⊢
    rcases tryReserve_cases h'.consumers h'.queues queue with ⟨e', nothing, alike⟩ |
      ⟨id', consumer, m, message, e', takes⟩
    · rw [tryReserve_none nothing]
      exact upheld.idle h' queue e' ready nothing alike
    · rw [tryReserve_some takes]
      exact upheld.pull h' queue id' consumer m message e' ready takes

theorem Upheld.consume {consumerId tag : String} {prefetch : Option Int} {uuid : Uuid} (inv : I h)
    (ok : g.command h connectionId (.consume queues queue consumerId prefetch tag uuid) = true) :
    I (h.cmdConsume connectionId queues queue consumerId prefetch tag uuid).2 := by
  unfold cmdConsume
  unfold Guards.command at ok
  dsimp only at ok ⊢
  generalize consumeQueues queues queue = names at ok ⊢
  split
  · exact inv
  · rename_i some
    have ready : I (names.foldl ensureQueue
        { h with consumed := names.map (connectionId, ·) ++ h.consumed }) :=
      upheld.ensure (upheld.issue h _ inv)
    generalize names.foldl ensureQueue _ = h' at ready ok ⊢
    simp only [some, decide_false, Bool.false_or, Bool.and_eq_true] at ok
    have nonempty : (if consumerId = "" then uuid.text else consumerId) ≠ "" := by
      split
      · exact uuid.nonempty
      · assumption
    exact upheld.pumpAll (upheld.register h' _ connectionId names _ tag ready nonempty ok.1) ok.2

theorem Upheld.windows {ids : List String} {count : Int} (inv : I h) :
    I { h with
      consumers := ids.foldl (fun c id => c.updateQos id (·.setPrefetch count)) h.consumers } := by
  induction ids generalizing h with
  | nil => exact inv
  | cons id rest ih => exact ih (upheld.window h id count inv)

theorem Upheld.cancelAll {ids : List String} (inv : I h) : I (withQueues
    { h with consumers := (cancelAll ids h.consumers h.queues).2.1 }
    (ConsumerManager.cancelAll ids h.consumers h.queues).2.2) := cancelAll_keeps upheld.cancel ids inv

theorem Upheld.publishes {args : PublishArgs} {stamp : String → Stamp} (inv : I h)
    (ok : g.command h connectionId (.publish args stamp) = true) :
    I (h.cmdPublish args stamp).2 := by
  unfold Guards.command at ok
  dsimp only at ok
  unfold cmdPublish
  rcases shape : h.routing.publish args stamp with ⟨⟨id, routed, result⟩, routing⟩
  rw [shape] at ok
  dsimp only at ok ⊢
  rw [Bool.and_eq_true] at ok
  have published := upheld.publish inv ok.1
  rw [shape] at published
  split
  · exact published
  · split
    · exact published
    · rename_i full missing
      rw [not_or] at missing
      have accepted : result = .ok := by
        cases result with
        | ok => rfl
        | queueFull => exact absurd rfl full
        | notFound => exact absurd rfl missing.1
      have pumps := ok.2
      simp only [accepted, ne_eq, not_true_eq_false, decide_false, Bool.false_or] at pumps
      exact upheld.pumpAll published pumps

theorem Upheld.acks (inv : I h) (ok : g.command h connectionId (.ack messageId) = true) :
    I (h.cmdAck messageId).2 := by
  unfold Guards.command at ok
  unfold cmdAck
  split
  · exact inv
  · dsimp only
    split
    · rename_i result
      rw [refused_ack (by rw [result]; simp)]
      exact inv
    · rename_i result
      rw [refused_ack (by rw [result]; simp)]
      exact inv
    · rename_i result
      have acked := upheld.ack h messageId inv result
      dsimp only at ok
      simp only [result, ne_eq, not_true_eq_false, decide_false, Bool.false_or] at ok
      exact upheld.settled acked ok

theorem Upheld.nacks {requeue : Bool} (inv : I h)
    (ok : g.command h connectionId (.nack messageId requeue) = true) :
    I (h.cmdNack messageId requeue).2 := by
  unfold Guards.command at ok
  unfold cmdNack
  split
  · exact inv
  · dsimp only
    split
    · rename_i result
      have nacked := upheld.nack h messageId requeue inv result
      dsimp only at ok
      simp only [result, ne_eq, not_true_eq_false, decide_false, Bool.false_or] at ok
      exact upheld.settled nacked ok
    · rename_i result
      exact upheld.refusedNack h messageId requeue inv result

theorem Upheld.qos {prefetch : Int} {consumerId : String} (inv : I h) :
    I (h.cmdQos connectionId prefetch consumerId).2 := by
  have issued : I { h with prefetch := h.prefetch.set connectionId prefetch } :=
    upheld.frame _ _ inv rfl rfl rfl rfl
  unfold cmdQos
  dsimp only
  split
  · have changed := upheld.window _ consumerId prefetch issued
    unfold ConsumerManager.qos
    dsimp only
    split <;> exact changed
  · exact upheld.windows issued

theorem Upheld.requeues (inv : I h)
    (ok : g.command h connectionId (.dlqRequeue queue messageId) = true) :
    I (h.cmdDlqRequeue queue messageId).2 := by
  have moved := upheld.requeue h queue messageId inv
  unfold Guards.command at ok
  unfold cmdDlqRequeue
  split
  · exact inv
  · dsimp only at ok
    split
    · rename_i shape
      rw [shape] at moved
      exact moved
    · rename_i shape
      rw [shape] at moved ok
      exact upheld.pump _ _ moved (by simpa using ok)

/-- A command keeps what its calls keep. -/
theorem Upheld.command {command : Command} (inv : I h) (ok : g.command h connectionId command = true) :
    I (h.handle connectionId command).2 := by
  cases command with
  | declareExchange name type =>
    change I (h.cmdDeclareExchange name type).2
    unfold cmdDeclareExchange
    dsimp only
    split
    · exact (upheld.records inv).1 _ _ _
    · split <;> exact inv
  | deleteExchange name =>
    have deleted := (upheld.records inv).2.1 name
    change I (h.cmdDeleteExchange name).2
    unfold cmdDeleteExchange
    split <;> rename_i shape <;> rw [shape] at deleted <;> exact deleted
  | declareQueue name maxLength visibilityTimeout maxAttempts =>
    change I (h.cmdDeclareQueue name maxLength visibilityTimeout maxAttempts).2
    unfold cmdDeclareQueue
    split
    · exact inv
    · exact upheld.declared inv
  | deleteQueue name =>
    have deleted := upheld.delete h name inv ok
    change I (h.cmdDeleteQueue name).2
    unfold cmdDeleteQueue
    split <;> rename_i shape <;> rw [shape] at deleted <;> exact deleted
  | bind exchange queue routingKey =>
    have bound := (upheld.records inv).2.2.1 exchange queue routingKey
    change I (h.cmdBind exchange queue routingKey).2
    unfold cmdBind
    split <;> rename_i shape <;> rw [shape] at bound <;> exact bound
  | unbind exchange queue routingKey =>
    have unbound := (upheld.records inv).2.2.2 exchange queue routingKey
    change I (h.cmdUnbind exchange queue routingKey).2
    unfold cmdUnbind
    split <;> rename_i shape <;> rw [shape] at unbound <;> exact unbound
  | publish args stamp => exact upheld.publishes inv ok
  | get queue consumerId prefetch => exact upheld.get inv ok
  | consume queues queue consumerId prefetch tag uuid => exact upheld.consume inv ok
  | cancel consumerId =>
    have done := upheld.cancel h consumerId inv
    unfold cancelled at done
    change I (h.cmdCancel consumerId).2
    unfold cmdCancel
    split
    · exact inv
    · dsimp only
      split <;> exact done
  | ack messageId => exact upheld.acks inv ok
  | nack messageId requeue => exact upheld.nacks inv ok
  | qos prefetch consumerId => exact upheld.qos inv
  | subscribe channel =>
    change I (h.cmdSubscribe connectionId channel).2
    unfold cmdSubscribe
    split
    · exact inv
    · exact upheld.frame _ _ inv rfl rfl rfl rfl
  | unsubscribe channel => exact upheld.frame _ _ inv rfl rfl rfl rfl
  | publishChannel channel =>
    change I (h.cmdPublishChannel channel).2
    unfold cmdPublishChannel
    split
    · exact inv
    · obtain ⟨sent, shape⟩ := sendAll_frame (h.pubsub.subscribers channel) h
      dsimp only
      rw [shape]
      exact upheld.frame _ _ inv rfl rfl rfl rfl
  | dlqRequeue queue messageId => exact upheld.requeues inv ok

/-- Every step of a run whose calls meet the conditions keeps the invariant. -/
theorem Upheld.step {event : Event} (inv : I h) (ok : g.event h event = true) : I (h.step event) := by
  cases event with
  | command connectionId command => exact upheld.command inv ok
  | ticker =>
    unfold Guards.event at ok
    rw [Bool.and_eq_true] at ok
    exact upheld.pumpAll (upheld.tick h inv ok.1) ok.2
  | connect connectionId => exact upheld.frame _ _ inv rfl rfl rfl rfl
  | drop connectionId order =>
    change I (h.drop connectionId order).2
    have cleared : I { h with
        senders := h.senders.erase connectionId
        pubsub := h.pubsub.disconnect connectionId } := upheld.frame _ _ inv rfl rfl rfl rfl
    exact upheld.cancelAll cleared

omit upheld in
theorem Reachable.run {events : List Event} (reached : Reachable g h)
    (ok : Systems.Allowed Handler.step (fun h event => g.event h event = true) h events) :
    Reachable g (Systems.run Handler.step h events) :=
  Systems.run_preserves (fun _ event reached ok => reached.step event ok) reached ok

theorem Upheld.reachable (start : ∀ config clock sends, I (created config clock sends))
    (reached : Reachable g h) : I h := by
  induction reached with
  | start config clock sends => exact start config clock sends
  | step _ event ok ih => exact upheld.step ih ok

end Commands

/-- A registration is an entry in the registry and the queues it joins; a turn
that serves nobody moves a rotation on. -/
theorem Kept.upheld (kept : Kept g I) : Upheld g I where
  frame := kept.frame
  idle h _ e' inv _ alike := kept.alike h e' inv alike
  record := kept.record
  declare := kept.declare
  delete := kept.delete
  enqueue := kept.enqueue
  requeue := kept.requeue
  tick := kept.tick
  ack := kept.ack
  nack := kept.nack
  refusedNack := kept.refusedNack
  register h id connectionId queues prefetch tag inv named ok := by
    have enrolled := kept.register h id connectionId queues prefetch tag inv named ok
    generalize base : h.enrolled id connectionId queues prefetch tag = h' at enrolled
    have joined : I (h'.withQueues (queues.foldl (join id) h.queues)) :=
      joins_preserve (I := fun e => I (h'.withQueues e)) (fun e name inv => kept.declare _ name {} inv)
        (fun e e' alike inv => kept.alike (h'.withQueues e) e' inv alike) (by subst base; exact enrolled)
    subst base
    exact joined
  window := kept.window
  cancel := kept.cancel
  issue := kept.issue
  pull := kept.pull
  pump := kept.pump

theorem Kept.reader {consumerId : String} {prefetch : Int} (kept : Kept g I) (inv : I h)
    (named : consumerId ≠ "") (ok : consumerId ∉ h.consumers.consumers →
      g.register h connectionId consumerId [queue] = true) :
    I (h.getConsumer connectionId queue consumerId prefetch) := kept.upheld.reader inv named ok

theorem Kept.command {command : Command} (kept : Kept g I) (inv : I h)
    (ok : g.command h connectionId command = true) : I (h.handle connectionId command).2 :=
  kept.upheld.command inv ok

theorem Kept.step {event : Event} (kept : Kept g I) (inv : I h) (ok : g.event h event = true) :
    I (h.step event) := kept.upheld.step inv ok

theorem Kept.reachable (kept : Kept g I)
    (start : ∀ config clock sends, I (created config clock sends)) (reached : Reachable g h) : I h :=
  kept.upheld.reachable start reached

end Handler
end OneOpenBroker.Broker

import OneOpenBroker.Core.EngineRuns

/-! Direct and fanout routing, `core/routing.py`. Exchanges and bindings are
kept beside the queue engine, and the engine's journal is the one they are
written to. The set of bindings is a list without an order that matters:
targets are sorted before a message is fanned out. -/
namespace OneOpenBroker.Core
open Collections Protocol

structure Exchange where
  name : String
  type : ExchangeType := .direct
  durable : Bool := true

structure Binding where
  exchange : String
  queue : String
  routingKey : String := ""
  deriving DecidableEq

structure RoutingEngine where
  queues : QueueEngine
  exchanges : Dict String Exchange := ∅
  bindings : List Binding := []

def defaultExchange : String := ""

/-- The arguments of `publish`. -/
structure PublishArgs where
  payload : List UInt8
  exchange : Option String := none
  routingKey : String := ""
  queue : Option String := none
  maxAttempts : Option Int := none
  priority : Int := 0
  headers : Option Json := none
  messageId : Option String := none

/-- What `uuid.uuid4()` and `time.time()` return while a message is created. -/
structure Stamp where
  uuid : String
  time : ℚ

/-- Python's `a or b` on strings. -/
def orText (value : Option String) (fallback : String) : String :=
  match value with
  | none => fallback
  | some text => if text = "" then fallback else text

/-- Python's `a or b` on integers. -/
def orNumber (value : Option Int) (fallback : Int) : Int :=
  match value with
  | none => fallback
  | some number => if number = 0 then fallback else number

namespace RoutingEngine

def append (r : RoutingEngine) (persist : Bool) (op : JournalOp) : RoutingEngine :=
  { r with queues := r.queues.append persist op }

def declareExchange (r : RoutingEngine) (name : String) (type : ExchangeType := .direct)
    (durable : Bool := true) (persist : Bool := true) : RoutingEngine :=
  if name ∈ r.exchanges then r
  else
    append { r with exchanges := r.exchanges.set name { name, type, durable } } persist
      (.exchangeDeclare name type durable)

/-- `RoutingEngine.__init__`. -/
def create (queues : QueueEngine) : RoutingEngine :=
  declareExchange { queues } defaultExchange .direct true false

def deleteExchange (r : RoutingEngine) (name : String) (persist : Bool := true) :
    Bool × RoutingEngine :=
  if name = defaultExchange then (false, r)
  else if name ∈ r.exchanges then
    (true, append { r with
      exchanges := r.exchanges.erase name
      bindings := r.bindings.filter (·.exchange ≠ name) } persist (.exchangeDelete name))
  else (false, r)

def bind (r : RoutingEngine) (exchange queue : String) (routingKey : String := "")
    (persist : Bool := true) : Bool × RoutingEngine :=
  if exchange ∈ r.exchanges ∧ queue ∈ r.queues.queues then
    (true, append { r with bindings := r.bindings.insert { exchange, queue, routingKey } } persist
      (.bind exchange queue routingKey))
  else (false, r)

def unbind (r : RoutingEngine) (exchange queue : String) (routingKey : String := "")
    (persist : Bool := true) : Bool × RoutingEngine :=
  if ({ exchange, queue, routingKey } : Binding) ∈ r.bindings then
    (true, append { r with bindings := r.bindings.erase { exchange, queue, routingKey } } persist
      (.unbind exchange queue routingKey))
  else (false, r)

def onQueueDeclared (r : RoutingEngine) (queue : String) (persist : Bool := true) : RoutingEngine :=
  (r.bind defaultExchange queue queue persist).2

/-- `sorted` of a set of queue names. -/
def sortedNames (names : List String) : List String := names.dedup.insertionSort (· ≤ ·)

def routeTargets (r : RoutingEngine) (exchange routingKey : String) : List String :=
  match r.exchanges.get? exchange with
  | none => []
  | some ex =>
    match ex.type with
    | .fanout => sortedNames ((r.bindings.filter (·.exchange = exchange)).map (·.queue))
    | .direct => sortedNames ((r.bindings.filter
        fun b => b.exchange = exchange ∧ b.routingKey = routingKey).map (·.queue))

theorem mem_routeTargets {r : RoutingEngine} {exchange routingKey target : String} :
    target ∈ r.routeTargets exchange routingKey ↔ ∃ ex, r.exchanges.get? exchange = some ex ∧
      ∃ b ∈ r.bindings, b.exchange = exchange ∧ (ex.type = .direct → b.routingKey = routingKey) ∧
        b.queue = target := by
  unfold routeTargets sortedNames
  cases r.exchanges.get? exchange with
  | none => simp
  | some ex => cases kind : ex.type <;> simp [kind, and_assoc]

theorem routeTargets_nodup (r : RoutingEngine) (exchange routingKey : String) :
    (r.routeTargets exchange routingKey).Nodup := by
  unfold routeTargets sortedNames
  split
  · exact List.nodup_nil
  · split <;> exact (List.perm_insertionSort _ _).nodup_iff.mpr (List.nodup_dedup _)

/-- Targets that are all the same are one at most. -/
theorem routeTargets_short {r : RoutingEngine} {exchange routingKey queue : String}
    (same : ∀ target ∈ r.routeTargets exchange routingKey, target = queue) :
    (r.routeTargets exchange routingKey).length ≤ 1 := by
  have within : r.routeTargets exchange routingKey ⊆ [queue] := fun target listed => by
    simp [same target listed]
  exact (List.subperm_of_subset (r.routeTargets_nodup exchange routingKey) within).length_le

/-- The message that is created for one target. The caller's id is used only
when there is one target. -/
def messageFor (e : QueueEngine) (args : PublishArgs) (exchange routingKey : String)
    (alone : Bool) (stamp : String → Stamp) (target : String) : Message where
  id := orText (if alone then args.messageId else none) (stamp target).uuid
  queue := target
  payload := args.payload
  createdAt := (stamp target).time
  maxAttempts := orNumber args.maxAttempts e.config.maxAttempts
  priority := args.priority
  headers := args.headers
  exchange := exchange
  routingKey := routingKey

/-- The loop over the targets, which returns at the first queue that is full. -/
def fanOut (message : String → Message) (persist : Bool) : List String → List String → String →
    QueueEngine → (String × List String × EnqueueResult) × QueueEngine
  | [], routed, lastId, e => ((lastId, routed, if routed = [] then .notFound else .ok), e)
  | target :: rest, routed, lastId, e =>
    match e.enqueue (message target) persist with
    | (.queueFull, e) => (((message target).id, routed, .queueFull), e)
    | (.ok, e) => fanOut message persist rest (routed ++ [target]) (message target).id e
    | (.notFound, e) => fanOut message persist rest routed lastId e

/-- A queue named without an exchange is declared and bound first. -/
def ensureQueue (r : RoutingEngine) (args : PublishArgs) (persist : Bool) :
    RoutingEngine × Option String × String :=
  match args.queue with
  | none => (r, args.exchange, args.routingKey)
  | some queue =>
    if queue ≠ "" ∧ orText args.exchange "" = "" then
      let routingKey := if args.routingKey = "" then queue else args.routingKey
      if queue ∈ r.queues.queues then (r, some defaultExchange, routingKey)
      else
        let r := { r with queues := r.queues.declareQueue queue {} persist }
        (r.onQueueDeclared queue persist, some defaultExchange, routingKey)
    else (r, args.exchange, args.routingKey)

def publish (r : RoutingEngine) (args : PublishArgs) (stamp : String → Stamp)
    (persist : Bool := true) : (String × List String × EnqueueResult) × RoutingEngine :=
  let (r, exchange, routingKey) := r.ensureQueue args persist
  let exchange := exchange.getD defaultExchange
  if exchange ∈ r.exchanges then
    let targets := r.routeTargets exchange routingKey
    if targets = [] then (("", [], .notFound), r)
    else
      let message := messageFor r.queues args exchange routingKey (targets.length = 1) stamp
      let (result, e) := fanOut message persist targets [] "" r.queues
      (result, { r with queues := e })
  else (("", [], .notFound), r)

end RoutingEngine
end OneOpenBroker.Core

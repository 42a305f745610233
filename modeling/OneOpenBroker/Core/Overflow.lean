import OneOpenBroker.Core.EngineRuns

/-! The engine where `retry_delay` has no result. Under exponential backoff the
delay of the 1025th attempt is a power of two that no float can hold, and the
`OverflowError` leaves the operation where it stands: the delivery has ended, the
attempt is counted, and the message is held in no place at all. The functions
here raise as the code does; wherever every delay is a number they are the
functions of the engine. -/
namespace OneOpenBroker.Core
open Collections Systems

/-- `retry_delay` raises: `2 ** (attempts - 1)` does not fit a float, whatever
the base is that it is multiplied with. -/
def NoDelay (attempts : Int) (mode : Backoff) : Prop := mode = .exponential ∧ 1024 < attempts

instance (attempts : Int) (mode : Backoff) : Decidable (NoDelay attempts mode) :=
  inferInstanceAs (Decidable (_ ∧ _))

/-- The exceptions that the operations of the engine let through. -/
inductive EngineError where
  | runtime (error : RuntimeError)
  | overflow
  deriving DecidableEq

/-! ## The operations -/

namespace Raising

/-- The attempt is counted before `retry_delay` is called, on the message that
the queue holds. -/
def retryOrDead (e : QueueEngine) (name : String) (queue : DurableQueue) (message : Message)
    (persist : Bool) : Except EngineError Unit × QueueEngine :=
  let message := { message with attempts := message.attempts + 1 }
  if message.maxAttempts ≤ message.attempts then (.ok (), e.moveToDlq name queue message persist)
  else if NoDelay message.attempts e.config.retryBackoff then
    (.error .overflow,
      e.putQueue name { queue with messages := queue.messages.set message.id message })
  else (.ok (), e.delayRetry name queue message persist)

def nack (e : QueueEngine) (messageId : String) (requeue : Bool := true) (persist : Bool := true) :
    Except EngineError NackResult × QueueEngine :=
  match e.byId.get? messageId with
  | none => (.ok (if messageId ∈ e.recentAcks then .notFound else .unknownDelivery), e)
  | some queueName =>
    match e.queues.get? queueName with
    | none => (.ok .notFound, e)
    | some queue =>
      if messageId ∈ queue.inflight then
        let queue := queue.endDelivery messageId
        match queue.messages.get? messageId with
        | none => (.ok .notFound, e.putQueue queueName queue)
        | some message =>
          let queue := queue.countNack
          let e := (e.putQueue queueName queue).append persist
            (.messageNack messageId queueName requeue)
          if requeue then
            let (result, e) := retryOrDead e queueName queue message persist
            (result.map fun _ => .ok, e)
          else (.ok .ok, e.moveToDlq queueName queue message persist)
      else (.ok .unknownDelivery, e)

def failDelivery (e : QueueEngine) (name messageId : String) (persist : Bool) :
    Except EngineError Bool × QueueEngine :=
  match e.queues.get? name with
  | none => (.ok false, e)
  | some queue =>
    let queue := queue.endDelivery messageId
    let e := e.putQueue name queue
    match queue.messages.get? messageId with
    | none => (.ok false, e)
    | some message =>
      let (result, e) := retryOrDead e name queue message persist
      (result.map fun _ => true, e)

def failAll (e : QueueEngine) (name : String) (persist : Bool) :
    List String → Except EngineError Nat × QueueEngine
  | [] => (.ok 0, e)
  | messageId :: rest =>
    match failDelivery e name messageId persist with
    | (.error raised, e) => (.error raised, e)
    | (.ok failed, e) =>
      let (result, e) := failAll e name persist rest
      (result.map (· + failed.toNat), e)

def recoverQueues (size : Nat) (consumerId : String) (persist : Bool) :
    List String → QueueEngine → Except EngineError Nat × QueueEngine
  | [], e =>
    (if e.queues.size = size then .ok 0 else .error (.runtime .dictionaryChangedSize), e)
  | name :: rest, e =>
    if e.queues.size = size then
      match e.queues.get? name with
      | none => recoverQueues size consumerId persist rest e
      | some queue =>
        match failAll e name persist (QueueEngine.heldBy queue consumerId) with
        | (.error raised, e) => (.error raised, e)
        | (.ok n, e) =>
          let (result, e) := recoverQueues size consumerId persist rest e
          (result.map (· + n), e)
    else (.error (.runtime .dictionaryChangedSize), e)

def recoverConsumer (e : QueueEngine) (consumerId : String) (persist : Bool := true) :
    Except EngineError Nat × QueueEngine :=
  recoverQueues e.queues.size consumerId persist e.queues.keys e

/-- The entry whose delivery raises is off the heap by then. -/
def timeoutEntries (now : ℚ) : List TimedEntry → QueueEngine → Except EngineError Nat × QueueEngine
  | [], e => (.ok 0, { e with visibilityHeap := [] })
  | entry :: rest, e =>
    if entry.due ≤ now then
      match (e.queues.get? entry.queue).bind (·.inflight.get? entry.messageId) with
      | none => timeoutEntries now rest e
      | some record =>
        if record.visibilityDeadline = entry.due then
          match failDelivery e entry.queue entry.messageId true with
          | (.error raised, e) => (.error raised, { e with visibilityHeap := rest })
          | (.ok failed, e) =>
            let (result, e) := timeoutEntries now rest e
            (result.map (· + failed.toNat), e)
        else timeoutEntries now rest e
    else (.ok 0, { e with visibilityHeap := entry :: rest })

def tick (e : QueueEngine) (now : Option ℚ := none) : Except EngineError Nat × QueueEngine :=
  let (ts, e) := match now with
    | none => e.now
    | some ts => (ts, e)
  let (released, e) := e.releaseDelayed ts
  let (expired, e) := timeoutEntries ts e.visibilityHeap e
  (expired.map (released + ·), e)

/-- The state after one operation, whether it returned or raised. The others
never retry a message. -/
def step (persist : Bool) (e : QueueEngine) : QueueEngine.EngineOp → QueueEngine
  | .nack messageId requeue => (nack e messageId requeue persist).2
  | .recoverConsumer consumerId => (recoverConsumer e consumerId persist).2
  | .tick now => (tick e now).2
  | op => e.step persist op

end Raising

/-! ## Where every delay is a number -/

namespace QueueEngine

/-- The next failure of the message asks for a retry, whose delay overflows. -/
def Overflows (config : EngineConfig) (message : Message) : Prop :=
  message.attempts + 1 < message.maxAttempts ∧ NoDelay (message.attempts + 1) config.retryBackoff

instance (config : EngineConfig) (message : Message) : Decidable (Overflows config message) :=
  inferInstanceAs (Decidable (_ ∧ _))

/-- Of the deliveries of a kind, the next retry of each message has a delay. -/
def Clear (kind : String → InflightRecord → Prop) (e : QueueEngine) : Prop :=
  ∀ q m record message, e.record? q m = some record → kind q record →
    e.message? q m = some message → ¬ Overflows e.config message

/-- The deliveries that an operation may end with a retry. -/
def MayFail (e : QueueEngine) : EngineOp → String → InflightRecord → Prop
  | .nack id requeue, q, record => requeue = true ∧ e.byId.get? id = some q ∧ record.messageId = id
  | .recoverConsumer consumerId, _, record => record.consumerId = consumerId
  | .tick now, _, record => record.visibilityDeadline ≤ e.tickTime now
  | _, _, _ => False

/-- In the operation `retry_delay` returns a number: every message that is to
be retried has at most 1024 attempts, or the backoff is fixed. -/
def HasDelays (e : QueueEngine) (op : EngineOp) : Prop := Clear (e.MayFail op) e

instance (e : QueueEngine) (op : EngineOp) (q : String) (record : InflightRecord) :
    Decidable (e.MayFail op q record) :=
  match op with
  | .nack id requeue =>
    inferInstanceAs (Decidable (requeue = true ∧ e.byId.get? id = some q ∧ record.messageId = id))
  | .recoverConsumer consumerId => inferInstanceAs (Decidable (record.consumerId = consumerId))
  | .tick now => inferInstanceAs (Decidable (record.visibilityDeadline ≤ e.tickTime now))
  | .declareQueue .. | .deleteQueue .. | .enqueue .. | .reserve .. | .ack .. | .dlqRequeue .. =>
    inferInstanceAs (Decidable False)

variable {e e' : QueueEngine} {kind : String → InflightRecord → Prop} {name q id c : String}
  {queue : DurableQueue} {message : Message} {persist requeue : Bool} {now : Option ℚ}

theorem clear_iff : Clear kind e ↔ ∀ entry ∈ e.queues.entries, ∀ delivery ∈ entry.2.inflight.entries,
    kind entry.1 delivery.2 →
      ((entry.2.messages.get? delivery.1).all fun message => !decide (Overflows e.config message)) =
        true := by
  constructor
  · rintro clear ⟨q, queue⟩ listed ⟨m, record⟩ flying here
    have found : e.queues.get? q = some queue := Dict.get?_eq_some.mpr listed
    have there : e.record? q m = some record :=
      record?_some.mpr ⟨queue, found, Dict.get?_eq_some.mpr flying⟩
    simp only [Option.all_eq_true, Bool.not_eq_true', decide_eq_false_iff_not]
    exact fun message held => clear q m record message there here (message?_some.mpr ⟨queue, found, held⟩)
  · intro listed q m record message there here held
    obtain ⟨queue, found, flying⟩ := record?_some.mp there
    have all := listed (q, queue) (Dict.get?_eq_some.mp found) (m, record)
      (Dict.get?_eq_some.mp flying) here
    simp only [Option.all_eq_true, Bool.not_eq_true', decide_eq_false_iff_not] at all
    exact all message (message?_of_get found ▸ held)

instance [∀ q record, Decidable (kind q record)] : Decidable (Clear kind e) :=
  decidable_of_iff' _ clear_iff

instance : DecidableRel HasDelays := fun e op => inferInstanceAs (Decidable (Clear (e.MayFail op) e))

/-- An operation that retries nothing needs no delay. -/
theorem HasDelays.of_none {op : EngineOp} (none : ∀ q record, ¬ e.MayFail op q record) :
    HasDelays e op :=
  fun q _ record _ _ failing => absurd failing (none q record)

/-! ### Single failures -/

theorem retryOrDead_agrees (fine : ¬ Overflows e.config message) :
    Raising.retryOrDead e name queue message persist =
      (.ok (), e.retryOrDead name queue message persist) := by
  unfold Raising.retryOrDead QueueEngine.retryOrDead
  dsimp only
  split
  · rfl
  · rename_i more
    rw [if_neg fun overflows => fine ⟨by omega, overflows⟩]

theorem retryOrDead_delays (more : message.attempts + 1 < message.maxAttempts)
    (number : ¬ NoDelay (message.attempts + 1) e.config.retryBackoff) :
    Raising.retryOrDead e name queue message persist =
      (.ok (), e.delayRetry name queue { message with attempts := message.attempts + 1 } persist) := by
  unfold Raising.retryOrDead
  dsimp only
  rw [if_neg (by omega), if_neg number]

/-- The raise leaves the attempt counted, and the message neither inflight nor delayed. -/
theorem retryOrDead_overflows (overflows : Overflows e.config message) :
    Raising.retryOrDead e name queue message persist = (.error .overflow, e.putQueue name
      { queue with
        messages := queue.messages.set message.id
          { message with attempts := message.attempts + 1 } }) := by
  have more := overflows.1
  unfold Raising.retryOrDead
  dsimp only
  rw [if_neg (by omega), if_pos overflows.2]

theorem failDelivery_agrees
    (fine : ∀ message, e.message? name id = some message → ¬ Overflows e.config message) :
    Raising.failDelivery e name id persist =
      (.ok (e.failDelivery name id persist).1, (e.failDelivery name id persist).2) := by
  unfold Raising.failDelivery QueueEngine.failDelivery
  cases found : e.queues.get? name with
  | none => rfl
  | some queue =>
    dsimp only
    cases held : (queue.endDelivery id).messages.get? id with
    | none => rfl
    | some message =>
      dsimp only
      have here : ¬ Overflows (e.putQueue name (queue.endDelivery id)).config message :=
        fine message (message?_some.mpr ⟨queue, found, held⟩)
      rw [retryOrDead_agrees here]
      rfl

/-- The failure that raises. -/
theorem failDelivery_overflows (found : e.queues.get? name = some queue)
    (held : queue.messages.get? id = some message) (overflows : Overflows e.config message) :
    Raising.failDelivery e name id persist = (.error .overflow,
      (e.putQueue name (queue.endDelivery id)).putQueue name
        { queue.endDelivery id with
          messages := queue.messages.set message.id
            { message with attempts := message.attempts + 1 } }) := by
  have view : (queue.endDelivery id).messages.get? id = some message := held
  have here : Overflows (e.putQueue name (queue.endDelivery id)).config message := overflows
  unfold Raising.failDelivery
  rw [found]
  dsimp only
  rw [view]
  dsimp only
  rw [retryOrDead_overflows here]
  rfl

/-- A failure of some delivery leaves the others as they were, and a message
that it buries is not retried any more. -/
theorem failDelivery_clear (named : e.Named) (clear : Clear kind e) :
    Clear kind (e.failDelivery name id persist).2 := by
  intro q m record message there here held
  rw [failDelivery_record?] at there
  split at there
  · cases there
  rename_i apart
  rw [failDelivery_frame.1]
  have before : e.message? q m = some message → ¬ Overflows e.config message :=
    fun held => clear q m record message there here held
  have exit : Exit e name id true persist [] (e.failDelivery name id persist).2 := failDelivery_exit named
  generalize (e.failDelivery name id persist).2 = e' at exit held
  cases exit with
  | gone _ messages => exact before (messages ▸ held)
  | retried _ _ _ _ _ messages =>
    rw [messages, if_neg apart] at held
    exact before held
  | moved message' _ _ _ _ spent messages =>
    rw [messages, if_neg apart] at held
    split at held
    · obtain rfl := Option.some.inj held
      have last : message'.maxAttempts ≤ message'.attempts + 1 := spent rfl
      rintro ⟨more, _⟩
      change message'.attempts + 1 + 1 < message'.maxAttempts at more
      omega
    · exact before held
  | dropped _ _ _ _ _ _ messages =>
    rw [messages, if_neg apart] at held
    exact before held

theorem nack_agrees (named : e.Named) (delays : HasDelays e (.nack id requeue)) :
    Raising.nack e id requeue persist =
      (.ok (e.nack id requeue persist).1, (e.nack id requeue persist).2) := by
  unfold Raising.nack QueueEngine.nack
  cases indexed : e.byId.get? id with
  | none => rfl
  | some name =>
    cases found : e.queues.get? name with
    | none => simp [found]
    | some queue =>
      simp only [found]
      by_cases inflight : id ∈ queue.inflight
      · rw [if_pos inflight, if_pos inflight]
        cases held : (queue.endDelivery id).messages.get? id with
        | none => rfl
        | some message =>
          cases requeue with
          | false => rfl
          | true =>
            obtain ⟨record, flying⟩ := Dict.mem_iff.mp inflight
            have fine : ¬ Overflows e.config message :=
              delays name id record message (record?_some.mpr ⟨queue, found, flying⟩)
                ⟨rfl, indexed, (named name queue found).records id record flying⟩
                (message?_some.mpr ⟨queue, found, held⟩)
            dsimp only
            rw [if_pos rfl, retryOrDead_agrees (append_config.symm ▸ fine)]
            rfl
      · rw [if_neg inflight, if_neg inflight]

/-! ### Sweeps -/

/-- Where `I` holds, a delivery of a kind fails and its retry has no delay. -/
def Hits (kind : String → InflightRecord → Prop) (I : QueueEngine → Prop) : Prop :=
  ∃ e q m record message, I e ∧ e.record? q m = some record ∧ kind q record ∧
    e.message? q m = some message ∧ Overflows e.config message

/-- Clear deliveries are never hit. -/
theorem not_hits_clear : ¬ Hits kind fun e => e.Named ∧ Clear kind e := by
  rintro ⟨e, q, m, record, message, ⟨_, clear⟩, there, here, held, overflows⟩
  exact clear q m record message there here held overflows

section Sweeps

variable {I : QueueEngine → Prop} (named : ∀ e, I e → e.Named)
  (fail : ∀ e name id record, I e → e.record? name id = some record → kind name record →
    (∀ message, e.message? name id = some message → ¬ Overflows e.config message) →
      I (e.failDelivery name id persist).2)
include fail

/-- Failures of deliveries of one queue, each of which is there: they agree with
those of the engine, or one of them raises. -/
theorem failAll_agrees {ids : List String} (distinct : ids.Nodup)
    (there : ∀ id ∈ ids, ∃ record, e.record? name id = some record ∧ kind name record) (start : I e) :
    (Raising.failAll e name persist ids =
        (.ok (e.failAll name persist ids).1, (e.failAll name persist ids).2) ∧
      I (e.failAll name persist ids).2) ∨
    (Raising.failAll e name persist ids).1 = .error .overflow ∧ Hits kind I := by
  induction ids generalizing e with
  | nil => exact .inl ⟨rfl, start⟩
  | cons id rest ih =>
    obtain ⟨absent, tail⟩ := List.nodup_cons.mp distinct
    obtain ⟨record, found, here⟩ := there id List.mem_cons_self
    have left : ∀ other ∈ rest, ∃ record,
        (e.failDelivery name id persist).2.record? name other = some record ∧ kind name record := by
      intro other member
      rw [failDelivery_record?, if_neg]
      · exact there other (List.mem_cons_of_mem _ member)
      · rintro ⟨_, rfl⟩
        exact absent member
    by_cases fine : ∀ message, e.message? name id = some message → ¬ Overflows e.config message
    · refine (ih tail left (fail e name id record start found here fine)).imp ?_ ?_
      · rintro ⟨same, after⟩
        refine ⟨?_, after⟩
        unfold Raising.failAll
        rw [failDelivery_agrees fine]
        dsimp only
        rw [same]
        rfl
      · rintro ⟨raised, hits⟩
        refine ⟨?_, hits⟩
        unfold Raising.failAll
        rw [failDelivery_agrees fine]
        dsimp only
        rw [raised]
        rfl
    · simp only [not_forall, not_not] at fine
      obtain ⟨message, held, overflows⟩ := fine
      obtain ⟨queue, known, inside⟩ := message?_some.mp held
      refine .inr ⟨?_, e, name, id, record, message, start, found, here, held, overflows⟩
      unfold Raising.failAll
      rw [failDelivery_overflows known inside overflows]

include named

theorem recoverQueues_agrees {size : Nat} {names : List String} (start : I e)
    (mine : kind = fun _ record => record.consumerId = c) :
    (Raising.recoverQueues size c persist names e =
        ((recoverQueues size c persist names e).1.mapError .runtime,
          (recoverQueues size c persist names e).2) ∧
      I (recoverQueues size c persist names e).2) ∨
    (Raising.recoverQueues size c persist names e).1 = .error .overflow ∧ Hits kind I := by
  induction names generalizing e with
  | nil =>
    refine .inl ⟨?_, start⟩
    unfold Raising.recoverQueues recoverQueues
    split <;> rfl
  | cons name rest ih =>
    unfold Raising.recoverQueues recoverQueues
    split
    · cases found : e.queues.get? name with
      | none => exact ih start
      | some queue =>
        obtain ⟨distinct, collected⟩ := heldBy_spec c (named e start name queue found)
        have there : ∀ id ∈ heldBy queue c, ∃ record, e.record? name id = some record ∧
            kind name record := by
          intro id member
          rw [record?_of_get found, mine]
          exact (collected id).mp member
        dsimp only
        rcases failAll_agrees fail distinct there start with ⟨same, after⟩ | ⟨raised, hits⟩
        · rw [same]
          dsimp only
          refine (ih after).imp ?_ ?_
          · rintro ⟨same, after⟩
            rw [same]
            refine ⟨?_, after⟩
            dsimp only
            cases (recoverQueues size c persist rest (e.failAll name persist (heldBy queue c)).2).1 <;> rfl
          · rintro ⟨raised, hits⟩
            rw [raised]
            exact ⟨rfl, hits⟩
        · refine .inr ⟨?_, hits⟩
          rcases shape : Raising.failAll e name persist (heldBy queue c) with ⟨result, e'⟩
          rw [shape] at raised
          dsimp only at raised
          subst raised
          rfl
    · exact .inl ⟨rfl, start⟩

end Sweeps

theorem recoverConsumer_agrees (named : e.Named) (delays : HasDelays e (.recoverConsumer c)) :
    Raising.recoverConsumer e c persist =
      ((e.recoverConsumer c persist).1.mapError .runtime, (e.recoverConsumer c persist).2) := by
  refine ((recoverQueues_agrees (I := fun e => e.Named ∧ Clear (fun _ record => record.consumerId = c) e)
    (fun _ inv => inv.1) ?_ ⟨named, delays⟩ rfl).resolve_right fun hits => not_hits_clear hits.2).1
  exact fun e name id _ inv _ _ _ => ⟨failDelivery_named inv.1, failDelivery_clear inv.1 inv.2⟩

theorem timeoutEntries_agrees {ts : ℚ} {entries : List TimedEntry} (named : e.Named)
    (clear : Clear (fun _ record => record.visibilityDeadline ≤ ts) e) :
    Raising.timeoutEntries ts entries e =
      (.ok (timeoutEntries ts entries e).1, (timeoutEntries ts entries e).2) := by
  induction entries generalizing e with
  | nil => rfl
  | cons entry rest ih =>
    unfold Raising.timeoutEntries timeoutEntries
    split
    · rename_i due
      cases there : (e.queues.get? entry.queue).bind (·.inflight.get? entry.messageId) with
      | none => exact ih named clear
      | some record =>
        dsimp only
        split
        · rename_i current
          have past : record.visibilityDeadline ≤ ts := current ▸ due
          rw [failDelivery_agrees (clear entry.queue entry.messageId record · there past)]
          dsimp only
          rw [ih (failDelivery_named named) (failDelivery_clear named clear)]
          rfl
        · exact ih named clear
    · rfl

theorem releaseOne_clear (clear : Clear kind e) : Clear kind (e.releaseOne name id).2 := by
  obtain ⟨messages, records, _, _, _, config⟩ := releaseOne_observe e name id
  intro q m record message there here held
  have stripped := messages q m
  rw [held] at stripped
  obtain ⟨old, before, image⟩ := Option.map_eq_some_iff.mp stripped.symm
  have fine := clear q m record old (records ▸ there) here before
  have attempts : (strip old).attempts = (strip message).attempts := congrArg Message.attempts image
  have most : (strip old).maxAttempts = (strip message).maxAttempts :=
    congrArg Message.maxAttempts image
  simp only [strip] at attempts most
  simpa only [Overflows, config, attempts, most] using fine

theorem releaseDelayed_clear (ts : ℚ) (named : e.Named) (clear : Clear kind e) :
    (e.releaseDelayed ts).2.Named ∧ Clear kind (e.releaseDelayed ts).2 :=
  releaseAll_preserves (I := fun e => e.Named ∧ Clear kind e)
    (fun _ _ _ before => ⟨releaseOne_named before.1, releaseOne_clear before.2⟩) ⟨named, clear⟩

theorem released_agrees (ts : ℚ) (named : e.Named)
    (clear : Clear (fun _ record => record.visibilityDeadline ≤ ts) e) :
    Raising.timeoutEntries ts (e.releaseDelayed ts).2.visibilityHeap (e.releaseDelayed ts).2 =
      (.ok ((e.releaseDelayed ts).2.timeoutInflight ts).1,
        ((e.releaseDelayed ts).2.timeoutInflight ts).2) := by
  obtain ⟨named', clear'⟩ := releaseDelayed_clear ts named clear
  exact timeoutEntries_agrees named' clear'

theorem tick_agrees (named : e.Named) (delays : HasDelays e (.tick now)) :
    Raising.tick e now = (.ok (e.tick now).1, (e.tick now).2) := by
  cases now with
  | none =>
    have same := released_agrees (e := e.now.2) e.now.1 named delays
    unfold Raising.tick
    dsimp only
    rw [same]
    rfl
  | some ts =>
    unfold Raising.tick
    dsimp only
    rw [released_agrees ts named delays]
    rfl

/-! ### Runs -/

/-- An operation in which every delay is a number raises no `OverflowError`, and
does what it does in the engine without one. -/
theorem step_agrees (named : e.Named) {op : EngineOp} (delays : HasDelays e op) :
    Raising.step persist e op = e.step persist op := by
  cases op with
  | nack id requeue =>
    change (Raising.nack e id requeue persist).2 = _
    rw [nack_agrees named delays]
    rfl
  | recoverConsumer c =>
    change (Raising.recoverConsumer e c persist).2 = _
    rw [recoverConsumer_agrees named delays]
    rfl
  | tick now =>
    change (Raising.tick e now).2 = _
    rw [tick_agrees named delays]
    rfl
  | declareQueue | deleteQueue | enqueue | reserve | ack | dlqRequeue => rfl

/-! ### What a raise leaves in order -/

/-- A message that is counted up stays under its name. -/
theorem QueueNamed.counted (named : QueueNamed name queue) (held : queue.messages.get? id = some message) :
    QueueNamed name { queue with
      messages := queue.messages.set message.id { message with attempts := message.attempts + 1 } } := by
  refine ⟨named.spec, named.plain, fun m msg there => ?_, named.records⟩
  rw [Dict.get?_set] at there
  split at there
  · rename_i same
    obtain rfl := Option.some.inj there
    exact ⟨same.symm, (named.messages id message held).2⟩
  · exact named.messages m msg there

theorem QueueNamed.ended (named : QueueNamed name queue) (id : String) :
    QueueNamed name (queue.endDelivery id) := by
  refine ⟨named.spec, named.plain, named.messages, fun m record there => ?_⟩
  change (queue.inflight.erase id).get? m = some record at there
  rw [Dict.get?_erase] at there
  split at there
  · cases there
  · exact named.records m record there

theorem failDelivery_raising_named (named : e.Named) :
    (Raising.failDelivery e name id persist).2.Named := by
  by_cases fine : ∀ message, e.message? name id = some message → ¬ Overflows e.config message
  · rw [failDelivery_agrees fine]
    exact failDelivery_named named
  · simp only [not_forall, not_not] at fine
    obtain ⟨message, held, overflows⟩ := fine
    obtain ⟨queue, found, inside⟩ := message?_some.mp held
    have ended := (named name queue found).ended id
    rw [failDelivery_overflows found inside overflows]
    exact Dict.All.set (Dict.All.set named ended) (ended.counted inside)

theorem failAll_raising_named (named : e.Named) (ids : List String) :
    (Raising.failAll e name persist ids).2.Named := by
  induction ids generalizing e with
  | nil => exact named
  | cons id rest ih =>
    have next : (Raising.failDelivery e name id persist).2.Named := failDelivery_raising_named named
    unfold Raising.failAll
    rcases shape : Raising.failDelivery e name id persist with ⟨_ | failed, e'⟩ <;> rw [shape] at next
    · exact next
    · exact ih next

theorem recoverQueues_raising_named {size : Nat} {names : List String} (named : e.Named) :
    (Raising.recoverQueues size c persist names e).2.Named := by
  induction names generalizing e with
  | nil => exact named
  | cons name rest ih =>
    unfold Raising.recoverQueues
    split
    · cases found : e.queues.get? name with
      | none => exact ih named
      | some queue =>
        have next : (Raising.failAll e name persist (heldBy queue c)).2.Named :=
          failAll_raising_named named (heldBy queue c)
        dsimp only
        rcases shape : Raising.failAll e name persist (heldBy queue c) with ⟨_ | n, e'⟩ <;>
          rw [shape] at next
        · exact next
        · exact ih next
    · exact named

theorem timeoutEntries_raising_named {ts : ℚ} {entries : List TimedEntry} (named : e.Named) :
    (Raising.timeoutEntries ts entries e).2.Named := by
  induction entries generalizing e with
  | nil => exact named
  | cons entry rest ih =>
    unfold Raising.timeoutEntries
    split
    · split
      · exact ih named
      · split
        · have next : (Raising.failDelivery e entry.queue entry.messageId true).2.Named :=
            failDelivery_raising_named named
          rcases shape : Raising.failDelivery e entry.queue entry.messageId true with ⟨_ | failed, e'⟩ <;>
            rw [shape] at next
          · exact next
          · exact ih next
        · exact ih named
    · exact named

/-- The nack that raises is counted and journaled. -/
theorem nack_overflows (indexed : e.byId.get? id = some name) (found : e.queues.get? name = some queue)
    (inflight : id ∈ queue.inflight) (held : queue.messages.get? id = some message)
    (overflows : Overflows e.config message) :
    Raising.nack e id true persist = (.error .overflow,
      ((e.putQueue name (queue.endDelivery id).countNack).append persist
        (.messageNack id name true)).putQueue name
          { (queue.endDelivery id).countNack with
            messages := queue.messages.set message.id
              { message with attempts := message.attempts + 1 } }) := by
  have view : (queue.endDelivery id).messages.get? id = some message := held
  have here : Overflows ((e.putQueue name (queue.endDelivery id).countNack).append persist
      (.messageNack id name true)).config message := append_config.symm ▸ overflows
  unfold Raising.nack
  rw [indexed]
  dsimp only
  rw [found]
  dsimp only
  rw [if_pos inflight, view]
  dsimp only
  rw [if_pos rfl, retryOrDead_overflows here]
  rfl

theorem nack_raising_named (named : e.Named) : (Raising.nack e id requeue persist).2.Named := by
  by_cases delays : HasDelays e (.nack id requeue)
  · rw [nack_agrees named delays]
    exact nack_named named
  · simp only [HasDelays, Clear, not_forall, not_not] at delays
    obtain ⟨q, m, record, message, there, ⟨rfl, indexed, key⟩, held, overflows⟩ := delays
    obtain ⟨queue, found, flying⟩ := record?_some.mp there
    obtain rfl : m = id := ((named q queue found).records m record flying).symm.trans key
    have inside : queue.messages.get? m = some message := message?_of_get found ▸ held
    have ended := (named q queue found).ended m
    have nacked : QueueNamed q (queue.endDelivery m).countNack :=
      ⟨ended.spec, ended.plain, ended.messages, ended.records⟩
    rw [nack_overflows indexed found (Dict.mem_of_get? flying) inside overflows]
    have counted := nacked.counted inside
    refine Dict.All.set ?_ counted
    rw [append_queues]
    exact Dict.All.set named nacked

theorem tick_raising_named (named : e.Named) : (Raising.tick e now).2.Named := by
  have sweep (ts : ℚ) (e : QueueEngine) (named : e.Named) :
      (Raising.timeoutEntries ts (e.releaseDelayed ts).2.visibilityHeap
        (e.releaseDelayed ts).2).2.Named :=
    timeoutEntries_raising_named
      (releaseAll_preserves (fun _ _ _ => releaseOne_named) (I := Named) named)
  cases now with
  | none => exact sweep e.now.1 e.now.2 named
  | some ts => exact sweep ts e named

/-- Names are kept by an operation that raises, too. -/
theorem step_raising_named (named : e.Named) (op : EngineOp) : (Raising.step persist e op).Named := by
  have plain : (e.step persist op).Named := step_named named op
  cases op with
  | nack id requeue => exact nack_raising_named named
  | recoverConsumer c => exact recoverQueues_raising_named named
  | tick now => exact tick_raising_named named
  | declareQueue | deleteQueue | enqueue | reserve | ack | dlqRequeue => exact plain

end QueueEngine

namespace Raising
open QueueEngine (EngineOp HasDelays)

/-- The states of runs of the raising engine in which every operation is
allowed where it happens. -/
inductive Reachable (allowed : QueueEngine → EngineOp → Prop) : QueueEngine → Prop where
  | start (config : EngineConfig) (clock : Nat → ℚ) : Reachable allowed { config, clock }
  | step {e : QueueEngine} (reached : Reachable allowed e) (persist : Bool) (op : EngineOp)
      (ok : allowed e op) : Reachable allowed (step persist e op)
  | restore {e saved : QueueEngine} (reached : Reachable allowed e)
      (kept : Reachable allowed saved) : Reachable allowed (e.restoreState saved.snapshotState)

variable {allowed : QueueEngine → EngineOp → Prop} {e : QueueEngine}

theorem Reachable.named (reached : Reachable allowed e) : e.Named := by
  induction reached with
  | start => exact Dict.all_empty
  | step _ _ op _ named => exact QueueEngine.step_raising_named named op
  | restore _ _ _ kept => exact QueueEngine.restore_named kept

/-- The operation meets a condition, and `retry_delay` returns a number in it. -/
def Numbered (allowed : QueueEngine → EngineOp → Prop) (e : QueueEngine) (op : EngineOp) : Prop :=
  allowed e op ∧ HasDelays e op

instance (allowed : QueueEngine → EngineOp → Prop) [DecidableRel allowed] :
    DecidableRel (Numbered allowed) := fun e op =>
  inferInstanceAs (Decidable (allowed e op ∧ HasDelays e op))

/-- A run in which every delay is a number is a run of the engine without overflow. -/
theorem Reachable.plain (reached : Reachable (Numbered allowed) e) :
    QueueEngine.Reachable allowed e := by
  induction reached with
  | start config clock => exact .start config clock
  | step _ persist op ok plain =>
    rw [QueueEngine.step_agrees plain.named ok.2]
    exact plain.step persist op ok.1
  | restore _ _ plain kept => exact plain.restore kept

/-- A run goes on with an operation of the engine in which every delay is a number. -/
theorem Reachable.next (reached : Reachable (Numbered allowed) e) (persist : Bool) (op : EngineOp)
    (ok : allowed e op) (delays : HasDelays e op) : Reachable (Numbered allowed) (e.step persist op) := by
  rw [← QueueEngine.step_agrees reached.plain.named delays]
  exact reached.step persist op ⟨ok, delays⟩

theorem reachable_run {persist : Bool} {ops : List EngineOp} (reached : Reachable allowed e)
    (ok : Allowed (step persist) allowed e ops) : Reachable allowed (run (step persist) e ops) :=
  run_preserves (fun _ op reached ok => reached.step persist op ok) reached ok

/-! ## A message that runs out of delays -/

variable {name : String} {queue : DurableQueue} {message : Message} {persist : Bool}

theorem delayRetry_due (e : QueueEngine) (name : String) (queue : DurableQueue) (message : Message)
    (persist : Bool) {due : ℚ}
    (same : e.now.1 + retryDelay message.attempts e.config.retryBackoff e.config.retryBaseDelay = due) :
    e.delayRetry name queue message persist =
      ((e.now.2.putQueue name (queue.delay { message with availableAt := some due })).pushDelayed name
        message.id due).append persist (.messageRetry message.id name due message.attempts) := by
  subst same
  rfl

/-- An engine in which a retry has to wait for the next tick only. -/
def hasty : QueueEngine where
  config := { visibilityTimeout := 0, retryBaseDelay := 0 }
  clock := fun _ => 0

/-- A message that may be tried five thousand times, after some failures. -/
def tried (k : Nat) : Message :=
  { id := "m1", queue := "jobs", payload := [1], createdAt := 0, attempts := k, maxAttempts := 5000 }

/-- The message is delivered, fails, and is ready again. -/
def retryRound : List EngineOp := [.reserve "jobs" "worker", .nack "m1" true, .tick (some 0)]

def jobsAt (k : Nat) : DurableQueue where
  spec := { name := "jobs", visibilityTimeout := 0 }
  ready := [⟨0, 3 * k + 1, "m1"⟩]
  messages := Dict.set ∅ "m1" (tried k)
  stats := { published := 1, delivered := k, nacked := k, retried := k }

def withJobs (reads seq : Nat) (jobs : DurableQueue) (heap delayed : List TimedEntry) : QueueEngine :=
  let dlq : QueueSpec :=
    { name := "jobs.DLQ", visibilityTimeout := 0, maxAttempts := 1, deadLetter := false }
  { hasty with
    reads, seq, delayed
    queues := (Dict.set ∅ "jobs" jobs).set "jobs.DLQ" { spec := dlq }
    byId := Dict.set ∅ "m1" "jobs"
    visibilityHeap := heap }

/-- The engine after some rounds. -/
def waitingAt (k : Nat) : QueueEngine := withJobs (2 * k + 1) (3 * k + 1) (jobsAt k) [] []

/-- The message is out for delivery in the next round. -/
def flyingAt (k : Nat) (deadline : ℚ) : QueueEngine :=
  withJobs (2 * k + 2) (3 * k + 2)
    { jobsAt k with
      ready := []
      inflight := Dict.set ∅ "m1" ⟨"m1", "jobs", "worker", 0, deadline⟩
      stats := { published := 1, delivered := k + 1, nacked := k, retried := k } }
    [⟨deadline, 3 * k + 2, "jobs", "m1"⟩] []

/-- The delivery has ended, and the retry is not yet scheduled. -/
def endedAt (k : Nat) : DurableQueue :=
  { jobsAt k with
    ready := []
    stats := { published := 1, delivered := k + 1, nacked := k + 1, retried := k } }

def nackedAt (k : Nat) : QueueEngine :=
  withJobs (2 * k + 2) (3 * k + 2) (endedAt k) [⟨0, 3 * k + 2, "jobs", "m1"⟩] []

def failedAt (k : Nat) : Message := { tried k with attempts := (tried k).attempts + 1 }

/-- The retry is due at once. -/
def delayedAt (k : Nat) : QueueEngine :=
  withJobs (2 * k + 3) (3 * k + 3)
    { endedAt k with
      messages := Dict.set ∅ "m1" { tried (k + 1) with availableAt := some 0 }
      delayedIds := insert "m1" ∅
      stats := { published := 1, delivered := k + 1, nacked := k + 1, retried := k + 1 } }
    [⟨0, 3 * k + 2, "jobs", "m1"⟩] [⟨0, 3 * k + 3, "jobs", "m1"⟩]

/-- The message is held, and is neither ready nor inflight nor delayed. -/
def strandedAt (k : Nat) : QueueEngine :=
  withJobs (2 * k + 2) (3 * k + 2)
    { endedAt k with messages := Dict.set ∅ "m1" (failedAt k) } [⟨0, 3 * k + 2, "jobs", "m1"⟩] []

variable {k : Nat}

theorem reserve_waitingAt : step false (waitingAt k) (.reserve "jobs" "worker") = flyingAt k 0 := by
  have shape : step false (waitingAt k) (.reserve "jobs" "worker") = flyingAt k (0 + 0) := rfl
  rw [shape, add_zero]

theorem nack_flyingAt : step false (flyingAt k 0) (.nack "m1" true) =
    (retryOrDead (nackedAt k) "jobs" (endedAt k) (tried k) false).2 := rfl

theorem tried_more (few : k ≤ 1024) : (tried k).attempts + 1 < (tried k).maxAttempts := by
  change (k : ℤ) + 1 < 5000
  omega

theorem failedAt_due : (nackedAt k).now.1 + retryDelay (failedAt k).attempts
    (nackedAt k).config.retryBackoff (nackedAt k).config.retryBaseDelay = 0 := by
  have zero (attempts : ℤ) : (0 : ℚ) + retryDelay attempts .exponential 0 = 0 := by simp [retryDelay]
  exact zero (failedAt k).attempts

theorem delayRetry_nackedAt :
    (nackedAt k).delayRetry "jobs" (endedAt k) (failedAt k) false = delayedAt k := by
  rw [delayRetry_due (nackedAt k) "jobs" (endedAt k) (failedAt k) false failedAt_due]
  rfl

theorem run_retryRound (few : k < 1024) : run (step false) (waitingAt k) retryRound = waitingAt (k + 1) := by
  have number : ¬ NoDelay ((tried k).attempts + 1) (nackedAt k).config.retryBackoff := by
    rintro ⟨_, many⟩
    change 1024 < (k : ℤ) + 1 at many
    omega
  have nacked : step false (flyingAt k 0) (.nack "m1" true) = delayedAt k := by
    rw [nack_flyingAt, QueueEngine.retryOrDead_delays (tried_more few.le) number]
    exact delayRetry_nackedAt
  have ticked : step false (delayedAt k) (.tick (some 0)) = waitingAt (k + 1) := rfl
  rw [retryRound, run_cons, reserve_waitingAt, run_cons, nacked, run_cons, ticked, run_nil]

theorem run_retryRounds (few : k ≤ 1024) :
    run (step false) (waitingAt 0) (List.replicate k retryRound).flatten = waitingAt k := by
  induction k with
  | zero => rfl
  | succ k ih =>
    rw [List.replicate_succ', List.flatten_append, run_append, ih (by omega)]
    simpa using run_retryRound few

/-- A message is tried 1024 times, and fails once more. -/
def strandedRun : List EngineOp :=
  [.declareQueue "jobs" {}, .enqueue (tried 0)] ++ (List.replicate 1024 retryRound).flatten ++
    [.reserve "jobs" "worker", .nack "m1" true]

/-- The last failure of the run raises and leaves the message nowhere. -/
theorem run_strandedRun : run (step false) hasty strandedRun = strandedAt 1024 := by
  have first : run (step false) hasty [.declareQueue "jobs" {}, .enqueue (tried 0)] = waitingAt 0 := rfl
  have overflows : QueueEngine.Overflows (nackedAt 1024).config (tried 1024) :=
    ⟨tried_more le_rfl, rfl, by decide⟩
  rw [strandedRun, run_append, run_append, first, run_retryRounds le_rfl, run_cons, reserve_waitingAt,
    run_cons, nack_flyingAt, QueueEngine.retryOrDead_overflows overflows]
  rfl

end Raising
end OneOpenBroker.Core

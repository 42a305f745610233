import OneOpenBroker.Broker.HandlerRuns

/-! Attempts and hand-overs. A message uses up an attempt whenever a delivery
of it fails, and the broker counts a frame that a sender did not take as a
failed delivery. The journal shows since when the attempts are counted, so
the number of attempts can be compared with the hand-overs of the same
period: together, the accepted and the refused ones are exactly the attempts
used, and a message that is dead-lettered for exhaustion was handed to clients
as often as its budget says only if none was refused. -/
namespace OneOpenBroker.Broker
open Collections OneOpenBroker.Core QueueEngine ConsumerManager

/-! ## The period of a message -/

/-- The record files the message in the queue with attempts 0. -/
def files (q m : String) : JournalOp → Bool
  | .messagePublish message => message.queue = q && message.id = m
  | .messageRequeue id _ dest => dest = q && id = m
  | _ => false

/-- The number of records up to the last one that filed the message. -/
def filedAt (ops : List JournalOp) (q m : String) : Nat :=
  ops.length - ops.reverse.findIdx (files q m)

/-- The attempts that a publish record grants. -/
def granted (m : String) : JournalOp → Option Int
  | .messagePublish message => if message.id = m then some message.maxAttempts else none
  | _ => none

/-- The attempts of a message: those of the last record that published it. -/
def budget (ops : List JournalOp) (m : String) : Int := (ops.reverse.findSome? (granted m)).getD 0

/-- The hand-over is one of the message and falls in its period. -/
def counts (ops : List JournalOp) (q m : String) (x : Handover) : Bool :=
  x.queue = q && x.messageId = m && filedAt ops q m ≤ x.journaled && x.journaled ≤ ops.length

/-- How often the message was handed to a client: in a frame that was
accepted, or as the body of a GET response. -/
def handed (handovers : List Handover) (ops : List JournalOp) (q m : String) : Nat :=
  handovers.countP fun x => counts ops q m x && decide (x.outcome ≠ .refused)

/-- How often a frame with the message was refused. -/
def refusals (handovers : List Handover) (ops : List JournalOp) (q m : String) : Nat :=
  handovers.countP fun x => counts ops q m x && decide (x.outcome = .refused)

def tries (handovers : List Handover) (ops : List JournalOp) (q m : String) : Nat :=
  handovers.countP (counts ops q m)

variable {hs : List Handover} {ops more before : List JournalOp} {op : JournalOp} {q m id name : String}
  {x : Handover} {e e' : QueueEngine} {message msg : Message}

theorem tries_split : tries hs ops q m = handed hs ops q m + refusals hs ops q m := by
  unfold tries handed refusals
  induction hs with
  | nil => rfl
  | cons x rest ih =>
    simp only [List.countP_cons, ih]
    cases counts ops q m x <;> by_cases refused : x.outcome = .refused <;> simp [refused] <;> omega

theorem filedAt_le : filedAt ops q m ≤ ops.length := Nat.sub_le _ _

theorem filedAt_append : filedAt (ops ++ [op]) q m =
    if files q m op then ops.length + 1 else filedAt ops q m := by
  unfold filedAt
  rw [List.reverse_append, List.reverse_singleton, List.singleton_append, List.findIdx_cons,
    List.length_append, List.length_singleton]
  cases files q m op with
  | true => simp
  | false =>
    simp only [cond_false, Bool.false_eq_true, if_false]
    omega

theorem budget_append : budget (ops ++ [op]) m = ((granted m op).getD (budget ops m)) := by
  unfold budget
  rw [List.reverse_append, List.reverse_singleton, List.singleton_append, List.findSome?_cons]
  cases granted m op <;> rfl

/-- The record neither files nor publishes a message. -/
def still : JournalOp → Bool
  | .messagePublish _ | .messageRequeue .. => false
  | _ => true

theorem still_files (quiet : still op = true) : files q m op = false := by
  cases op <;> first | rfl | cases quiet

theorem still_granted (quiet : still op = true) : granted m op = none := by
  cases op <;> first | rfl | cases quiet

/-- No hand-over is stamped with more records than there are. -/
def Stamped (hs : List Handover) (ops : List JournalOp) : Prop := ∀ x ∈ hs, x.journaled ≤ ops.length

theorem Stamped.append (stamped : Stamped hs ops) : Stamped hs (ops ++ more) := by
  intro x there
  have bound := stamped x there
  rw [List.length_append]
  omega

theorem tries_snoc (stamped : Stamped hs ops) : tries hs (ops ++ [op]) q m =
    if files q m op then 0 else tries hs ops q m := by
  unfold tries
  split
  · rename_i filing
    rw [List.countP_eq_zero]
    intro x there
    have bound := stamped x there
    simp only [counts, filedAt_append, filing, if_true, Bool.and_eq_true, decide_eq_true_eq]
    omega
  · rename_i other
    apply List.countP_congr
    intro x there
    have bound := stamped x there
    have bound' : x.journaled ≤ ops.length + 1 := by omega
    simp only [counts, filedAt_append, other, List.length_append, List.length_singleton, bound, bound',
      Bool.false_eq_true, if_false]

/-- Records that file nothing leave the period and the budget alone. -/
theorem still_append (stamped : Stamped hs ops) (quiet : ∀ op ∈ more, still op = true) :
    tries hs (ops ++ more) q m = tries hs ops q m ∧ budget (ops ++ more) m = budget ops m := by
  induction more generalizing ops with
  | nil => simp
  | cons op rest ih =>
    rw [List.append_cons]
    obtain ⟨head, tail⟩ := List.forall_mem_cons.mp quiet
    have stamped' : Stamped hs (ops ++ [op]) := stamped.append
    obtain ⟨same, same'⟩ := ih stamped' tail
    rw [same, same', tries_snoc stamped, budget_append, still_files head, still_granted head]
    exact ⟨rfl, rfl⟩

theorem tries_cons : tries (x :: hs) ops q m = tries hs ops q m + if counts ops q m x then 1 else 0 :=
  List.countP_cons

/-! ## The account of the dead -/

/-- Every message that was dead-lettered out of a plain queue, and not because
it was rejected, had used up exactly its budget, or one attempt. -/
def Settled (hs : List Handover) (ops : List JournalOp) : Prop :=
  ∀ before after m q attempts payload,
    ops = before ++ .messageDead m q attempts payload :: after → isDlq q = false →
    before.getLast? ≠ some (.messageNack m q false) →
    (tries hs before q m : Int) = max 1 (budget before m)

theorem Settled.snoc (settled : Settled hs ops) (last : ∀ m q attempts payload,
      op = .messageDead m q attempts payload → isDlq q = false →
      ops.getLast? ≠ some (.messageNack m q false) →
      (tries hs ops q m : Int) = max 1 (budget ops m)) : Settled hs (ops ++ [op]) := by
  intro before after m q attempts payload split plain exhausted
  rcases List.eq_nil_or_concat after with rfl | ⟨rest, final, rfl⟩
  · obtain ⟨rfl, same⟩ := List.append_inj' split rfl
    exact last m q attempts payload (List.singleton_inj.mp same) plain exhausted
  · rw [List.concat_eq_append, ← List.cons_append, ← List.append_assoc] at split
    obtain ⟨rfl, _⟩ := List.append_inj' split rfl
    exact settled before rest m q attempts payload rfl plain exhausted

/-- The record says nothing of a message that is filed or dies. -/
def dull (op : JournalOp) : Bool :=
  still op && match op with
    | .messageDead .. => false
    | _ => true

theorem dull_still (quiet : dull op = true) : still op = true := by
  cases op <;> first | rfl | cases quiet

theorem Settled.dull (settled : Settled hs ops) (quiet : ∀ op ∈ more, dull op = true) :
    Settled hs (ops ++ more) := by
  induction more generalizing ops with
  | nil => rwa [List.append_nil]
  | cons op rest ih =>
    rw [List.append_cons]
    obtain ⟨head, tail⟩ := List.forall_mem_cons.mp quiet
    apply ih _ tail
    apply settled.snoc
    rintro m q attempts payload rfl
    cases head

/-- A hand-over that is made now counts for no death before. -/
theorem Settled.hand (settled : Settled hs ops) (now : ops.length ≤ x.journaled) :
    Settled (x :: hs) ops := by
  intro before after m q attempts payload split plain exhausted
  have early : counts before q m x = false := by
    have longer : before.length < ops.length := by simp [split]
    simp only [counts, Bool.and_eq_false_iff, decide_eq_false_iff_not]
    omega
  rw [tries_cons, early]
  exact settled before after m q attempts payload split plain exhausted

/-! ## The account of the living -/

/-- Whether a delivery of the message is outstanding, as a number. -/
def outstanding (e : QueueEngine) (q m : String) : Int := if (e.record? q m).isSome then 1 else 0

/-- Attempts used and deliveries outstanding are the hand-overs of the period. -/
structure Spent (hs : List Handover) (e : QueueEngine) : Prop where
  filed : e.Filed
  stamped : Stamped hs e.journal.ops
  flying : ∀ q m, isDlq q = false → (e.record? q m).isSome → (e.message? q m).isSome
  spent : ∀ q m msg, isDlq q = false → e.message? q m = some msg →
    msg.attempts + outstanding e q m = tries hs e.journal.ops q m
  below : ∀ q m msg, isDlq q = false → e.message? q m = some msg →
    msg.attempts = 0 ∨ 0 < msg.attempts ∧ msg.attempts < msg.maxAttempts
  budgets : ∀ q m msg, e.message? q m = some msg → msg.maxAttempts = budget e.journal.ops m
  settled : Settled hs e.journal.ops

/-- A message of a plain queue in two successive states: its budget is the
same, and attempts and deliveries add up to the same number. -/
def Carried (e e' : QueueEngine) (q m : String) (msg : Message) : Prop :=
  ∃ old, e.message? q m = some old ∧ msg.maxAttempts = old.maxAttempts ∧
    msg.attempts + outstanding e' q m = old.attempts + outstanding e q m ∧
    (msg.attempts = old.attempts ∨ 0 < msg.attempts ∧ msg.attempts < msg.maxAttempts)

theorem Carried.same {q m : String} (held : e.message? q m = some msg)
    (records : (e'.record? q m).isSome = (e.record? q m).isSome) : Carried e e' q m msg :=
  ⟨msg, held, rfl, by rw [outstanding, records, outstanding], .inl rfl⟩

/-- What files nothing keeps the account, if it carries over the messages of
plain queues and ends their deliveries where it ends them. -/
theorem Spent.carry (spent : Spent hs e) (filed : e'.Filed)
    (grown : e'.journal.ops = e.journal.ops ++ more) (quiet : ∀ op ∈ more, still op = true)
    (settled : Settled hs (e.journal.ops ++ more))
    (messages : ∀ q m msg, e'.message? q m = some msg →
      (∃ q' old, e.message? q' m = some old ∧ msg.maxAttempts = old.maxAttempts) ∧
      (isDlq q = false → Carried e e' q m msg))
    (records : ∀ q m, isDlq q = false → (e'.record? q m).isSome →
      (e.record? q m).isSome ∧ ((e.message? q m).isSome → (e'.message? q m).isSome)) :
    Spent hs e' := by
  have same := fun q m => still_append (q := q) (m := m) spent.stamped quiet
  refine ⟨filed, grown ▸ spent.stamped.append, fun q m plain flying => ?_,
    fun q m msg plain held => ?_, fun q m msg plain held => ?_, fun q m msg held => ?_,
    grown ▸ settled⟩
  · obtain ⟨before, keeps⟩ := records q m plain flying
    exact keeps (spent.flying q m plain before)
  · obtain ⟨old, before, _, sum, _⟩ := (messages q m msg held).2 plain
    rw [grown, (same q m).1, sum]
    exact spent.spent q m old plain before
  · obtain ⟨old, before, limit, _, attempts | more⟩ := (messages q m msg held).2 plain
    · rw [attempts, limit]
      exact spent.below q m old plain before
    · exact .inr more
  · obtain ⟨q', old, before, limit⟩ := (messages q m msg held).1
    rw [limit, grown, (same q m).2]
    exact spent.budgets q' m old before

/-- A call without deaths that leaves messages and deliveries alone, or ends
both. -/
theorem Spent.less (spent : Spent hs e) (filed : e'.Filed)
    (grown : e'.journal.ops = e.journal.ops ++ more) (quiet : ∀ op ∈ more, dull op = true)
    (kept : ∀ q m, e'.message? q m = none ∧ e'.record? q m = none ∨
      (e'.message? q m).map strip = (e.message? q m).map strip ∧ e'.record? q m = e.record? q m) :
    Spent hs e' := by
  have stays : ∀ op ∈ more, still op = true := fun op there => dull_still (quiet op there)
  apply spent.carry filed grown stays (spent.settled.dull quiet)
  · intro q m msg held
    rcases kept q m with ⟨gone, _⟩ | ⟨stripped, record⟩
    · rw [gone] at held
      cases held
    · rw [held] at stripped
      obtain ⟨old, before, image⟩ := Option.map_eq_some_iff.mp stripped.symm
      have limit : msg.maxAttempts = old.maxAttempts := (congrArg Message.maxAttempts image).symm
      have attempts : msg.attempts = old.attempts := (congrArg Message.attempts image).symm
      refine ⟨⟨q, old, before, limit⟩, fun _ => ⟨old, before, limit, ?_, .inl attempts⟩⟩
      rw [attempts, outstanding, record, outstanding]
  · intro q m _ flying
    rcases kept q m with ⟨_, ended⟩ | ⟨stripped, record⟩
    · rw [ended] at flying
      cases flying
    · rw [record] at flying
      refine ⟨flying, fun there => ?_⟩
      have both := congrArg Option.isSome stripped
      rw [Option.isSome_map, Option.isSome_map] at both
      rw [both]
      exact there

/-- The record of the death of a message whose delivery was outstanding: if it
tells of exhaustion, the handovers before it use up the budget. -/
theorem Spent.death {requeue : Bool} {written : List JournalOp} {message : Message}
    (spent : Spent hs e) (held : e.message? name id = some message)
    (exhausted : requeue = true → message.maxAttempts ≤ message.attempts + 1)
    (flying : (e.record? name id).isSome)
    (record : written = [] ∧ requeue = true ∨ written = [.messageNack id name requeue])
    (calm : ∀ op ∈ written, dull op = true ∧ still op = true) :
    Settled hs (e.journal.ops ++ (written ++ journaled true (.messageDead id name
      (failed message requeue).attempts message.payload))) := by
  have begun : outstanding e name id = 1 := by simp [outstanding, flying]
  rw [← List.append_assoc]
  apply (spent.settled.dull fun op there => (calm op there).1).snoc
  intro m q attempts payload same plain unrejected
  obtain ⟨rfl, rfl, _⟩ := JournalOp.messageDead.inj same
  have failing : requeue = true := by
    rcases record with ⟨_, on⟩ | rfl
    · exact on
    · cases requeue with
      | true => rfl
      | false => simp at unrejected
  have used := spent.spent _ _ message plain held
  have room := spent.below _ _ message plain held
  have limit := spent.budgets _ _ message held
  have finished := exhausted failing
  obtain ⟨same, same'⟩ := still_append (q := name) (m := id) spent.stamped
    fun op there => (calm op there).2
  rw [begun] at used
  rw [same, same', ← limit, ← used]
  omega

/-- A delivery that fails takes one of the exits, and gives up its record. -/
theorem Spent.exit {requeue : Bool} {written : List JournalOp} (spent : Spent hs e) (filed : e'.Filed)
    (flying : (e.record? name id).isSome)
    (record : written = [] ∧ requeue = true ∨ written = [.messageNack id name requeue])
    (exit : Exit e name id requeue true written e')
    (records : ∀ q m, e'.record? q m = if q = name ∧ m = id then none else e.record? q m) :
    Spent hs e' := by
  have calm : ∀ op ∈ written, dull op = true ∧ still op = true := by
    rcases record with ⟨rfl, _⟩ | rfl
    · simp
    · intro op there
      rw [List.mem_singleton.mp there]
      exact ⟨rfl, rfl⟩
  have ended : outstanding e' name id = 0 := by simp [outstanding, records]
  have begun : outstanding e name id = 1 := by simp [outstanding, flying]
  have other : ∀ {q m msg}, ¬ (q = name ∧ m = id) → e.message? q m = some msg →
      (∃ q' old, e.message? q' m = some old ∧ msg.maxAttempts = old.maxAttempts) ∧
      (isDlq q = false → Carried e e' q m msg) := by
    intro q m msg differ held
    exact ⟨⟨q, msg, held, rfl⟩, fun _ => .same held (by rw [records, if_neg differ])⟩
  have fewer : ∀ q m, (e'.record? q m).isSome → ¬ (q = name ∧ m = id) ∧ (e.record? q m).isSome := by
    intro q m flying'
    rw [records] at flying'
    split at flying'
    · cases flying'
    · exact ⟨by assumption, flying'⟩
  have death : ∀ message, e.message? name id = some message →
      (requeue = true → message.maxAttempts ≤ message.attempts + 1) →
      Settled hs (e.journal.ops ++ (written ++ journaled true (.messageDead id name
        (failed message requeue).attempts message.payload))) := fun message held exhausted =>
    spent.death held exhausted flying record calm
  have quiet : ∀ op, still op = true → ∀ op' ∈ written ++ journaled true op, still op' = true := by
    intro op mild op' there
    rcases List.mem_append.mp there with early | late
    · exact (calm op' early).2
    · rw [List.mem_singleton.mp late]
      exact mild
  cases exit with
  | gone absent messages specs index journal =>
    have grown : e'.journal.ops = e.journal.ops ++ [] := by rw [journal, List.append_nil]
    apply spent.less filed grown (by simp)
    intro q m
    rw [messages, records]
    split
    · rename_i here
      exact .inl ⟨by rw [here.1, here.2, absent], rfl⟩
    · exact .inr ⟨rfl, rfl⟩
  | retried message due held again below messages specs index journal =>
    apply spent.carry filed journal (quiet _ rfl)
    · apply spent.settled.dull
      intro op there
      rcases List.mem_append.mp there with early | late
      · exact (calm op early).1
      · rw [List.mem_singleton.mp late]
        rfl
    · intro q m msg there
      rw [messages] at there
      split at there
      · rename_i here
        obtain ⟨rfl, rfl⟩ := here
        obtain rfl := Option.some.inj there
        refine ⟨⟨q, message, held, rfl⟩, fun plain => ⟨message, held, rfl, ?_, .inr ?_⟩⟩
        · rw [ended, begun]
          simp [failed, again]
        · have room := spent.below _ _ message plain held
          simp only [failed, again, if_true]
          omega
      · rename_i differ
        exact other differ there
    · intro q m _ flying'
      obtain ⟨differ, before⟩ := fewer q m flying'
      rw [messages, if_neg differ]
      exact ⟨before, fun there => there⟩
  | moved message spec held known on exhausted messages specs index journal =>
    apply spent.carry filed journal (quiet _ rfl) (death message held exhausted)
    · intro q m msg there
      rw [messages] at there
      split at there
      · rename_i here
        obtain ⟨rfl, rfl⟩ := here
        obtain rfl := Option.some.inj there
        exact ⟨⟨name, message, held, rfl⟩, fun plain => absurd rfl (ne_dlqName plain)⟩
      · split at there
        · cases there
        · rename_i differ
          exact other differ there
    · intro q m _ flying'
      obtain ⟨differ, before⟩ := fewer q m flying'
      refine ⟨before, fun there => ?_⟩
      rw [messages, if_neg differ]
      split
      · rfl
      · exact there
  | dropped message spec held known off exhausted messages specs index journal =>
    apply spent.carry filed journal (quiet _ rfl) (death message held exhausted)
    · intro q m msg there
      rw [messages] at there
      split at there
      · cases there
      · rename_i differ
        exact other differ there
    · intro q m _ flying'
      obtain ⟨differ, before⟩ := fewer q m flying'
      rw [messages, if_neg differ]
      exact ⟨before, fun there => there⟩

/-! ## Filing and handing over -/

/-- A record that files a message starts its period anew: nothing of it counts
yet, and no delivery of it is outstanding. -/
theorem Spent.file (name id : String) (spent : Spent hs e) (filed : e'.Filed)
    (grown : e'.journal.ops = e.journal.ops ++ [op])
    (files_iff : ∀ q m, files q m op = true ↔ q = name ∧ m = id)
    (alive : ∀ m q attempts payload, op ≠ .messageDead m q attempts payload)
    (new : e'.message? name id = some msg) (unused : msg.attempts = 0)
    (idle : isDlq name = false → e.record? name id = none) (records : e'.record? = e.record?)
    (messages : ∀ q m other, e'.message? q m = some other → ¬ (q = name ∧ m = id) →
      e.message? q m = some other)
    (keeps : ∀ q m, (e.record? q m).isSome → isDlq q = false → (e.message? q m).isSome →
      (e'.message? q m).isSome)
    (budgets : ∀ q m other, e'.message? q m = some other →
      other.maxAttempts = budget (e.journal.ops ++ [op]) m) : Spent hs e' := by
  refine ⟨filed, grown ▸ spent.stamped.append, fun q m plain flying => ?_,
    fun q m other plain held => ?_, fun q m other plain held => ?_, fun q m other held => ?_, ?_⟩
  · rw [records] at flying
    exact keeps q m flying plain (spent.flying q m plain flying)
  · rw [grown, tries_snoc spent.stamped, outstanding, records]
    by_cases here : q = name ∧ m = id
    · obtain ⟨rfl, rfl⟩ := here
      rw [new] at held
      obtain rfl := Option.some.inj held
      rw [if_pos ((files_iff q m).mpr ⟨rfl, rfl⟩), idle plain, unused]
      rfl
    · rw [if_neg (fun filing => here ((files_iff q m).mp filing))]
      exact spent.spent q m other plain (messages q m other held here)
  · by_cases here : q = name ∧ m = id
    · obtain ⟨rfl, rfl⟩ := here
      rw [new] at held
      obtain rfl := Option.some.inj held
      exact .inl unused
    · exact spent.below q m other plain (messages q m other held here)
  · rw [grown]
    exact budgets q m other held
  · rw [grown]
    apply spent.settled.snoc
    intro m q attempts payload dead
    exact absurd dead (alive m q attempts payload)

theorem files_publish : files q m (.messagePublish message) = true ↔
    q = message.queue ∧ m = message.id := by
  simp only [files, Bool.and_eq_true, decide_eq_true_eq]
  exact and_congr eq_comm eq_comm

theorem files_requeue {source : String} : files q m (.messageRequeue id source name) = true ↔
    q = name ∧ m = id := by
  simp only [files, Bool.and_eq_true, decide_eq_true_eq]
  exact and_congr eq_comm eq_comm

theorem Spent.publish {queue : DurableQueue} (spent : Spent hs e)
    (accepts : e.Accepts message true queue) (pristine : Pristine message)
    (alone : ∀ q old, e.message? q message.id = some old → q = message.queue)
    (idle : e.record? message.queue message.id = none) : Spent hs (e.enqueue message).2 := by
  have awake : dueMessage message e.now.1 = message := by simp [dueMessage, pristine.2]
  have messages : ∀ q m, (e.enqueue message).2.message? q m =
      if q = message.queue ∧ m = message.id then some message else e.message? q m := by
    intro q m
    rw [accepts.message?, awake]
  have grown : (e.enqueue message).2.journal.ops = e.journal.ops ++ [.messagePublish message] := by
    rw [accepts.ops, awake]
    rfl
  apply Spent.file message.queue message.id spent (accepts.filed spent.filed alone) grown
    (fun q m => files_publish) (fun _ _ _ _ => by simp)
    (by rw [messages, if_pos ⟨rfl, rfl⟩]) pristine.1 (fun _ => idle) accepts.record?
  · intro q m other held differ
    rw [messages, if_neg differ] at held
    exact held
  · intro q m _ _ there
    rw [messages]
    split
    · rfl
    · exact there
  · intro q m other held
    rw [budget_append]
    rw [messages] at held
    split at held
    · rename_i here
      obtain rfl := Option.some.inj held
      simp [granted, here.2]
    · rename_i differ
      have another : message.id ≠ m := by
        rintro rfl
        exact differ ⟨alone q other held, rfl⟩
      simp only [granted, if_neg another]
      exact spent.budgets q m other held

theorem Spent.requeue {queueName : String} (spent : Spent hs e) :
    Spent hs (e.dlqRequeue queueName id).2 := by
  have filed : (e.dlqRequeue queueName id).2.Filed :=
    step_filed spent.filed (.dlqRequeue queueName id) trivial
  have outcome := dlqRequeue_requeue spent.filed.named queueName id true
  generalize (e.dlqRequeue queueName id).1 = result at outcome
  generalize (e.dlqRequeue queueName id).2 = e' at outcome filed ⊢
  have source : isDlq (requeueSource queueName) = true := isDlq_dlqName _
  cases outcome with
  | missing => exact spent
  | moved message _ held messages records specs index journal =>
    -- The message is held in the DLQ, so no delivery of it is outstanding in the origin.
    have idle : isDlq (originQueue queueName) = false → e.record? (originQueue queueName) id = none := by
      intro plain
      by_contra flying
      have there := spent.flying _ id plain (Option.isSome_iff_ne_none.mpr flying)
      have apart : originQueue queueName ≠ requeueSource queueName := by
        intro same
        rw [same, source] at plain
        cases plain
      rw [spent.filed.indexed.lone held apart] at there
      cases there
    apply Spent.file (originQueue queueName) id spent filed journal
      (fun q m => files_requeue) (fun _ _ _ _ => by simp)
      (by rw [messages, if_pos ⟨rfl, rfl⟩]) rfl idle records
    · intro q m other there differ
      rw [messages, if_neg differ] at there
      split at there
      · cases there
      · exact there
    · intro q m _ plain there
      rw [messages]
      split
      · rfl
      · rw [if_neg]
        · exact there
        · rintro ⟨rfl, _⟩
          rw [source] at plain
          cases plain
    · intro q m other there
      rw [budget_append]
      rw [messages] at there
      split at there
      · rename_i here
        obtain rfl := Option.some.inj there
        rw [here.2]
        exact spent.budgets _ _ message held
      · split at there
        · cases there
        · exact spent.budgets q m other there
  | refused message _ held messages records specs index journal =>
    have grown : e'.journal.ops = e.journal.ops ++ [] := by rw [journal, List.append_nil]
    apply spent.carry filed grown (by simp) (by rw [List.append_nil]; exact spent.settled)
    · intro q m msg there
      rw [messages] at there
      split at there
      · rename_i here
        obtain ⟨rfl, rfl⟩ := here
        obtain rfl := Option.some.inj there
        exact ⟨⟨_, message, held, rfl⟩, fun plain => by rw [source] at plain; cases plain⟩
      · exact ⟨⟨q, msg, there, rfl⟩, fun _ => .same there (by rw [records])⟩
    · intro q m _ flying
      rw [records] at flying
      refine ⟨flying, fun there => ?_⟩
      rw [messages]
      split
      · rfl
      · exact there

/-- A message that is handed over counts once more, and is outstanding. -/
theorem Spent.take {h : Handler} {consumer : Consumer} {sent : Nat} {outcome : Outcome}
    (spent : Spent h.handovers h.queues)
    (takes : h.consumers.Takes h.queues name id consumer m message e') :
    Spent (h.took name id consumer message e' sent outcome).handovers
      (h.took name id consumer message e' sent outcome).queues := by
  obtain ⟨record, _, _, records⟩ := takes.records
  have same : message.id = m := (spent.filed.named.filed takes.held).1
  have ops : e'.journal.ops = h.queues.journal.ops := by rw [takes.journal]
  have stamp : e'.journal.records.length = h.queues.journal.ops.length := by
    rw [takes.journal, Journal.ops, List.length_map]
  have shape : ∃ x : Handover, (h.took name id consumer message e' sent outcome).handovers =
      x :: h.handovers ∧ x.queue = name ∧ x.messageId = m ∧
      x.journaled = h.queues.journal.ops.length := ⟨_, rfl, rfl, same, stamp⟩
  obtain ⟨x, grown, queue, key, journaled⟩ := shape
  rw [grown]
  change Spent (x :: h.handovers) e'
  have counted : ∀ q m', counts h.queues.journal.ops q m' x = true ↔ q = name ∧ m' = m := by
    intro q m'
    have early : filedAt h.queues.journal.ops q m' ≤ h.queues.journal.ops.length := filedAt_le
    simp only [counts, queue, key, journaled, early, le_refl, decide_true, Bool.and_true,
      Bool.and_eq_true, decide_eq_true_eq]
    exact and_congr eq_comm eq_comm
  refine ⟨takes.filed spent.filed, fun y there => ?_, fun q m' plain flying => ?_,
    fun q m' msg plain held => ?_, fun q m' msg plain held => ?_, fun q m' msg held => ?_, ?_⟩
  · rw [ops]
    rcases List.mem_cons.mp there with rfl | early
    · exact le_of_eq journaled
    · exact spent.stamped y early
  · rw [takes.messages]
    rw [records] at flying
    split at flying
    · rename_i here
      rw [here.1, here.2, takes.held]
      rfl
    · exact spent.flying q m' plain flying
  · rw [takes.messages] at held
    have used := spent.spent q m' msg plain held
    rw [ops, tries_cons]
    by_cases here : q = name ∧ m' = m
    · have before : outstanding h.queues q m' = 0 := by
        rw [outstanding, here.1, here.2, takes.idle]
        rfl
      have after : outstanding e' q m' = 1 := by
        rw [outstanding, records, if_pos here]
        rfl
      rw [if_pos ((counted q m').mpr here), after]
      rw [before] at used
      omega
    · have still : outstanding e' q m' = outstanding h.queues q m' := by
        rw [outstanding, records, if_neg here, outstanding]
      rw [if_neg fun there => here ((counted q m').mp there), still]
      exact used
  · exact spent.below q m' msg plain (takes.messages ▸ held)
  · rw [ops]
    exact spent.budgets q m' msg (takes.messages ▸ held)
  · rw [ops]
    exact spent.settled.hand (le_of_eq journaled.symm)

/-! ## The calls -/

theorem Spent.alike (spent : Spent hs e) (alike : Alike e e') : Spent hs e' := by
  have grown : e'.journal.ops = e.journal.ops ++ [] := by rw [alike.journal, List.append_nil]
  apply spent.less (alike.filed spent.filed) grown (by simp)
  intro q m
  right
  rw [alike.messages, alike.records]
  exact ⟨rfl, rfl⟩

theorem declareLeaf_dull (e : QueueEngine) (name : String) (args : QueueArgs) :
    ∃ more, (e.declareLeaf name args true).journal.ops = e.journal.ops ++ more ∧
      ∀ op ∈ more, dull op = true := by
  refine ⟨_, declareLeaf_ops e name args, fun op there => ?_⟩
  split at there
  · cases there
  · rw [List.mem_singleton.mp there]
    rfl

theorem declareQueue_dull (e : QueueEngine) (name : String) (args : QueueArgs) :
    ∃ more, (e.declareQueue name args true).journal.ops = e.journal.ops ++ more ∧
      ∀ op ∈ more, dull op = true := by
  rw [declareQueue_eq]
  split
  · exact ⟨[], (List.append_nil _).symm, by simp⟩
  · dsimp only
    rw [append_ops, journaled_true]
    split
    · obtain ⟨more, grown, quiet⟩ := declareLeaf_dull (e.putQueue name
        { spec := e.makeSpec name args }) (dlqName name) (leafArgs (e.makeSpec name args))
      refine ⟨more ++ [_], by rw [grown, List.append_assoc]; rfl, fun op there => ?_⟩
      rcases List.mem_append.mp there with early | late
      · exact quiet op early
      · rw [List.mem_singleton.mp late]
        rfl
    · refine ⟨[_], rfl, fun op there => ?_⟩
      rw [List.mem_singleton.mp there]
      rfl

theorem deleteQueue_dull (e : QueueEngine) (name : String) :
    ∃ more, (e.deleteQueue name true).2.journal.ops = e.journal.ops ++ more ∧
      ∀ op ∈ more, dull op = true := by
  unfold deleteQueue
  cases e.queues.get? name with
  | none => exact ⟨[], (List.append_nil _).symm, by simp⟩
  | some queue =>
    dsimp only
    have removed : (e.removeQueue name queue true).journal.ops =
        e.journal.ops ++ [.queueDelete name] := append_ops
    split
    · rw [deleteLeaf_ops, removed, List.append_assoc]
      refine ⟨_, rfl, fun op there => ?_⟩
      rcases List.mem_append.mp there with early | late
      · rw [List.mem_singleton.mp early]
        rfl
      · split at late
        · rw [List.mem_singleton.mp late]
          rfl
        · cases late
    · refine ⟨_, removed, fun op there => ?_⟩
      rw [List.mem_singleton.mp there]
      rfl

theorem Spent.fail {record : InflightRecord} (spent : Spent hs e)
    (there : e.record? name id = some record) : Spent hs (e.failDelivery name id true).2 := by
  apply spent.exit (failDelivery_filed spent.filed) (by rw [there]; rfl) (.inl ⟨rfl, rfl⟩)
    (failDelivery_exit spent.filed.named)
  intro q m
  exact failDelivery_record?

theorem Spent.nack {requeue : Bool} (spent : Spent hs e) : Spent hs (e.nack m requeue).2 := by
  have filed : (e.nack m requeue).2.Filed := step_filed spent.filed (.nack m requeue) trivial
  rcases nack_cases e m requeue true with ⟨name, queue, message, nacks⟩ | ⟨refused, _⟩
  · obtain ⟨record, inflight⟩ := Dict.mem_iff.mp nacks.inflight
    have flying : e.record? name m = some record := record?_some.mpr ⟨queue, nacks.found, inflight⟩
    apply spent.exit filed (by rw [flying]; rfl) (.inr rfl) (nacks.exit spent.filed.named)
    intro q m'
    exact nacks.record?
  · rcases nack_settles spent.filed m requeue with
      ⟨_, _, _, _, ok, _⟩ | ⟨_, same, _⟩
    · exact absurd ok refused
    · rw [same]
      exact spent

theorem Spent.ack (spent : Spent hs e) : Spent hs (e.ack m).2 := by
  rcases ack_cases e m true with ⟨name, queue, settles⟩ | ⟨_, same⟩
  · have filed : (e.ack m).2.Filed := step_filed spent.filed (.ack m) trivial
    have quiet : ∀ op ∈ journaled true (.messageAck m name), dull op = true := by
      intro op there
      rw [List.mem_singleton.mp there]
      rfl
    apply spent.less filed settles.ops quiet
    intro q m'
    rw [settles.message?, settles.record?]
    split
    · exact .inl ⟨rfl, rfl⟩
    · exact .inr ⟨rfl, rfl⟩
  · rw [same]
    exact spent

/-- A message is published only where no other queue holds its id, and no
delivery under that id is outstanding. -/
def spentGuards : Guards where
  enqueue := fun e message => filedAlone e message && (e.record? message.queue message.id).isNone

theorem spent_kept : Handler.Kept spentGuards fun h => Spent h.handovers h.queues where
  frame h h' inv queues _ handovers _ := by rw [queues, handovers]; exact inv
  alike h e' inv alike := inv.alike alike
  record h op inv record := by
    have filed : (h.queues.append true op).Filed := inv.filed.append
    have quiet : ∀ op' ∈ [op], dull op' = true := by
      intro op' there
      rw [List.mem_singleton.mp there]
      cases op <;> first | rfl | exact record.elim
    apply inv.less filed append_ops quiet
    intro q m
    rw [message?_append, record?_append]
    exact .inr ⟨rfl, rfl⟩
  declare h name args inv := by
    obtain ⟨more, grown, quiet⟩ := declareQueue_dull h.queues name args
    have filed : (h.queues.declareQueue name args).Filed :=
      step_filed inv.filed (.declareQueue name args) trivial
    apply inv.less filed grown quiet
    intro q m
    rw [declareQueue_observe.1, declareQueue_observe.2]
    exact .inr ⟨rfl, rfl⟩
  delete h name inv _ := by
    classical
    obtain ⟨more, grown, quiet⟩ := deleteQueue_dull h.queues name
    have filed : (h.queues.deleteQueue name).2.Filed :=
      step_filed inv.filed (.deleteQueue name) trivial
    apply inv.less filed grown quiet
    intro q m
    rw [deleteQueue_message?, deleteQueue_record?]
    split
    · exact .inl ⟨rfl, rfl⟩
    · exact .inr ⟨rfl, rfl⟩
  enqueue h message queue inv pristine accepts ok := by
    have conditions : filedAlone h.queues message = true ∧
        (h.queues.record? message.queue message.id).isNone = true := by
      simpa [spentGuards] using ok
    exact inv.publish accepts pristine (filedAlone_iff.mp conditions.1)
      (Option.isNone_iff_eq_none.mp conditions.2)
  requeue h queue m inv := inv.requeue
  tick h inv _ := by
    have swept : Spent h.handovers h.queues.tick.2 := by
      apply tick_preserves (I := fun e => Spent h.handovers e) _ _ _ inv
      · intro e name id inv
        obtain ⟨same, records, _, _, journal, _⟩ := releaseOne_observe e name id
        have grown : (e.releaseOne name id).2.journal.ops = e.journal.ops ++ [] := by
          rw [journal, List.append_nil]
        apply inv.less (releaseOne_filed inv.filed) grown (by simp)
        intro q m
        exact .inr ⟨same q m, by rw [records]⟩
      · exact fun e name id record inv there _ => inv.fail there
      · intro e reads delayed heap inv
        exact ⟨⟨inv.filed.named, inv.filed.indexed.filed, inv.filed.indexed.held⟩, inv.stamped,
          inv.flying, inv.spent, inv.below, inv.budgets, inv.settled⟩
    exact swept
  ack h m inv _ := by
    unfold Handler.credited
    split <;> exact inv.ack
  nack h m requeue inv _ := by
    unfold Handler.credited
    split <;> exact inv.nack
  refusedNack h m requeue inv _ := inv.nack
  register h id connectionId queues prefetch tag inv _ _ := inv
  window h id count inv := inv
  cancel h id inv := by
    unfold Handler.cancelled
    rcases cancel_cases h.consumers h.queues id with ⟨_, shape⟩ | ⟨consumer, e', _, alike, shape⟩
    · rw [shape]
      exact inv
    · rw [shape]
      have recovered : Spent h.handovers (e'.recoverConsumer id).2 := by
        apply recoverConsumer_preserves (I := fun e => Spent h.handovers e)
          (fun _ inv => inv.filed.named) _ (inv.alike alike)
        exact fun e name m record inv there _ => inv.fail there
      exact recovered
  issue h pairs inv := inv
  pull h queue id consumer m message e' inv takes := inv.take takes
  pump h queue inv _ := by
    apply Handler.pumpQueue_rule (L := fun h => Spent h.handovers h.queues)
      (I := fun h => Spent h.handovers h.queues) _ _ _ inv
    · exact fun h e' inv alike => inv.alike alike
    · exact fun h id consumer m message e' sent inv takes => inv.take takes
    · intro h id consumer m message e' sent inv takes
      exact Spent.nack (inv.take takes)

/-- A worker whose sender takes frames as told, and a message that is
published with one attempt. -/
def oneAttempt (accepts : Bool) : List Event := [
  .connect "c1",
  .command "c1" (.consume ["jobs"] "" "worker" none "" .u1),
  .command "c2" (.publish { payload := [1], queue := some "jobs", maxAttempts := some 1 }
    fun _ => ⟨"m1", 0⟩)] ++ if accepts then [.command "c1" (.nack "m1" true)] else []

def attempted (accepts : Bool) : Handler :=
  Systems.run Handler.step (Handler.created {} (fun _ => 0) fun _ => accepts) (oneAttempt accepts)

/-- The journal up to the death of the message. -/
def attemptedBefore (accepts : Bool) : List JournalOp := (attempted accepts).queues.journal.ops.take 5

theorem attempted_logged (accepts : Bool) : (attempted accepts).queues.journal.ops =
    attemptedBefore accepts ++ .messageDead "m1" "jobs" 1 [1] :: [] := by
  cases accepts <;> rfl

theorem attempted_unrejected (accepts : Bool) :
    (attemptedBefore accepts).getLast? ≠ some (.messageNack "m1" "jobs" false) := by
  have last : (attemptedBefore accepts).getLast? = some (.messageNack "m1" "jobs" true) := by
    cases accepts <;> rfl
  rw [last]
  simp

theorem attempted_reached (accepts : Bool) : Handler.Reachable spentGuards (attempted accepts) := by
  apply Handler.Reachable.run (.start _ _ _)
  cases accepts <;> decide +kernel

end OneOpenBroker.Broker

import OneOpenBroker.Core.Disconnects
import OneOpenBroker.Core.RetryDelays

/-! What becomes of the messages that a recovered consumer held. The recovery
goes through the queues in the order of the table and fails the consumer's
deliveries one after the other. It is complete unless dead-lettering declares
a queue on the way, or one of its dead letters meets a second delivery of the
same id, also held by the consumer, in the DLQ. -/
namespace OneOpenBroker.Core.QueueEngine
open Collections Systems

/-- The consumer has a delivery of the id in the queue. -/
def Holds (e : QueueEngine) (c q m : String) : Prop :=
  ∃ record, e.record? q m = some record ∧ record.consumerId = c

/-- A failure of the message now ends in the DLQ of its queue. -/
def Dies (e : QueueEngine) (q m : String) : Prop :=
  ∃ message spec, e.message? q m = some message ∧ message.maxAttempts ≤ message.attempts + 1 ∧
    e.spec? q = some spec ∧ spec.deadLetter = true

/-- What becomes of a message whose delivery failed in a recovery. -/
inductive Recovered (e e' : QueueEngine) (q m : String) (message : Message) : Prop where
  | delayed (due : ℚ) (below : message.attempts + 1 < message.maxAttempts)
      (stored : e'.message? q m = some { failed message true with availableAt := some due })
      (asleep : e'.Asleep q m)
  | deadLettered (dies : e.Dies q m) (left : e'.message? q m = none)
      (stored : e'.message? (dlqName q) m = some (buried q (failed message true)))
  | dropped (spec : QueueSpec) (known : e.spec? q = some spec) (off : spec.deadLetter = false)
      (spent : message.maxAttempts ≤ message.attempts + 1) (left : e'.message? q m = none)

/-- The recovery of a consumer, given by its result and the state after it,
finishes, ends the deliveries of the consumer and no others, and leaves every
message that it held delayed, dead-lettered or dropped. -/
structure CompletelyRecovered {ε : Type} (e : QueueEngine) (c : String)
    (recovery : Except ε Nat × QueueEngine) : Prop where
  finishes : ∃ n, recovery.1 = .ok n
  ended : ∀ q m, ¬ recovery.2.Holds c q m
  others : SameFor (· ≠ c) e recovery.2
  messages : ∀ q m message, e.Holds c q m → e.message? q m = some message →
    Recovered e recovery.2 q m message

/-- No failure of a delivery of the consumer declares a queue, and where the
message of one goes to the DLQ, a second delivery of its id that the consumer
has there has no message and comes first. -/
structure Unhindered (e : QueueEngine) (c : String) : Prop where
  declared : ∀ q m, e.Holds c q m → ¬ e.Declares q m
  apart : ∀ q m, e.Holds c q m → e.Dies q m → e.Holds c (dlqName q) m →
    e.message? (dlqName q) m = none ∧ e.queues.keys.idxOf (dlqName q) < e.queues.keys.idxOf q

variable {e e' base : QueueEngine} {q m c name id : String} {queue queue' : DurableQueue}
  {message : Message} {persist : Bool} {before after names : List String} {I : QueueEngine → Prop}

/-! ## One failure -/

theorem Asleep.stored (asleep : e.Asleep q m) (found : e.queues.get? name = some queue)
    (stored : e'.queues = e.queues.set name queue') (grown : queue.delayedIds ⊆ queue'.delayedIds) :
    e'.Asleep q m := by
  obtain ⟨there, known, slept⟩ := asleep
  by_cases here : q = name
  · subst here
    obtain rfl := Option.some.inj (found.symm.trans known)
    exact ⟨queue', by rw [stored]; exact Dict.get?_set_self, grown slept⟩
  · exact ⟨there, by rw [stored, Dict.get?_set_ne here]; exact known, slept⟩

theorem Asleep.declareLeaf {args : QueueArgs} (asleep : e.Asleep q m) :
    (e.declareLeaf name args false).Asleep q m := by
  obtain ⟨queue, found, slept⟩ := asleep
  refine ⟨queue, ?_, slept⟩
  rw [declareLeaf_queues]
  split
  · exact found
  · rename_i absent
    rw [Dict.get?_set_ne]
    · exact found
    · rintro rfl
      exact absent (Dict.mem_of_get? found)

/-- A failure wakes no message. -/
theorem Asleep.fail (asleep : e.Asleep q m) : (e.failDelivery name id persist).2.Asleep q m := by
  rcases failDelivery_cases e name id persist with ⟨_, shape⟩ | ⟨queue, found, _, shape⟩ |
    ⟨queue, message, found, _, shape⟩
  · rw [shape]
    exact asleep
  · rw [shape]
    exact asleep.stored found rfl (fun _ slept => slept)
  · have idle : (e.putQueue name (queue.endDelivery id)).Asleep q m :=
      asleep.stored found rfl (fun _ slept => slept)
    have known : (e.putQueue name (queue.endDelivery id)).queues.get? name =
        some (queue.endDelivery id) := Dict.get?_set_self
    rw [shape]
    generalize e.putQueue name (queue.endDelivery id) = e at idle known ⊢
    generalize queue.endDelivery id = queue at known ⊢
    rcases conclude_cases e name queue message true persist with ⟨_, shape⟩ | ⟨_, _, shape⟩
    · have left : (e.discarded name queue (failed message true) persist).Asleep q m :=
        idle.stored known discarded_queues (fun _ slept => slept)
      rw [shape, moveToDlq_eq]
      split
      · obtain ⟨dest, there⟩ := declareLeaf_known
          (e.discarded name queue (failed message true) persist) (dlqName name) {} false
        exact left.declareLeaf.stored there (bury_queues there) (fun _ slept => slept)
      · exact left
    · rw [shape]
      exact idle.stored known delayRetry_queues (Finset.subset_insert _ _)

/-- A failure changes no message but its own, and the one that its dead letter
takes the place of. -/
theorem failDelivery_message? (named : e.Named) (other : ¬ (q = name ∧ m = id))
    (clear : e.Dies name m → ¬ (q = dlqName name ∧ m = id)) :
    (e.failDelivery name id true).2.message? q m = e.message? q m := by
  have exit : Exit e name id true true [] (e.failDelivery name id true).2 := failDelivery_exit named
  generalize (e.failDelivery name id true).2 = e' at exit ⊢
  cases exit with
  | gone _ messages => rw [messages]
  | retried _ _ _ _ _ messages => rw [messages, if_neg other]
  | dropped _ _ _ _ _ _ messages => rw [messages, if_neg other]
  | moved message spec held known on spent messages =>
    rw [messages, if_neg, if_neg other]
    rintro ⟨here, rfl⟩
    exact clear ⟨message, spec, held, spent rfl, known, on⟩ ⟨here, rfl⟩

/-- The failed message is delayed, dead-lettered or dropped. -/
theorem failDelivery_recovered (named : e.Named) (held : e.message? name id = some message) :
    Recovered e (e.failDelivery name id true).2 name id message := by
  have exit : Exit e name id true true [] (e.failDelivery name id true).2 := failDelivery_exit named
  have asleep : message.attempts + 1 < message.maxAttempts →
      (e.failDelivery name id true).2.Asleep name id := by
    intro below
    obtain ⟨queue, found, there⟩ := message?_some.mp held
    exact (failDelivery_onDelay named found there below).asleep
  generalize (e.failDelivery name id true).2 = e' at exit asleep ⊢
  cases exit with
  | gone absent =>
    rw [absent] at held
    cases held
  | retried message' due held' _ below messages =>
    obtain rfl := Option.some.inj (held.symm.trans held')
    exact .delayed due below (by rw [messages, if_pos ⟨rfl, rfl⟩]) (asleep below)
  | moved message' spec held' known on spent messages =>
    obtain rfl := Option.some.inj (held.symm.trans held')
    have differ : name ≠ dlqName name := (dlqName_ne (named.plain known on)).symm
    refine .deadLettered ⟨message, spec, held, spent rfl, known, on⟩ ?_ ?_
    · rw [messages, if_neg fun both => differ both.1, if_pos ⟨rfl, rfl⟩]
    · rw [messages, if_pos ⟨rfl, rfl⟩]
  | dropped message' spec held' known off spent messages =>
    obtain rfl := Option.some.inj (held.symm.trans held')
    exact .dropped spec known off (spent rfl) (by rw [messages, if_pos ⟨rfl, rfl⟩])

/-! ## The order of the failures -/

/-- The recovery has been through the queues before and has not come to those
after. -/
structure Turn (base : QueueEngine) (c : String) (before after : List String) (e : QueueEngine) :
    Prop where
  ends : Ends (fun _ other => other = c) base e
  specs : e.spec? = base.spec?
  ended : ∀ q ∈ before, ∀ m, ¬ e.Holds c q m
  left : ∀ q ∈ after, ∀ m, e.record? q m = base.record? q m

theorem failDelivery_holds : (e.failDelivery name id persist).2.Holds c q m ↔
    ¬ (q = name ∧ m = id) ∧ e.Holds c q m := by
  unfold Holds
  rw [failDelivery_record?]
  by_cases same : q = name ∧ m = id
  · simp [same]
  · rw [if_neg same]
    exact (and_iff_right same).symm

theorem Turn.fail (turn : Turn base c before after e) (fresh : name ∉ after)
    (holds : e.Holds c name id) : Turn base c before after (e.failDelivery name id true).2 := by
  obtain ⟨record, there, mine⟩ := holds
  refine ⟨turn.ends.fail there mine, ?_, fun q earlier m holds => ?_, fun q later m => ?_⟩
  · rcases failDelivery_declares name id turn.ends.named with ⟨declares, _⟩ | ⟨_, specs, _⟩
    · exact absurd declares (turn.ends.safe name id record there mine)
    · exact specs.trans turn.specs
  · exact turn.ended q earlier m (failDelivery_holds.mp holds).2
  · rw [failDelivery_record?, if_neg]
    · exact turn.left q later m
    · rintro ⟨rfl, _⟩
      exact fresh later

/-- What every failure preserves when its turn comes, a recovery without
surprises preserves. -/
theorem recoverQueues_sweeps
    (fail : ∀ before name after e id, base.queues.keys = before ++ name :: after →
      Turn base c before after e → I e → e.Holds c name id → I (e.failDelivery name id true).2)
    (split : base.queues.keys = before ++ names) (turn : Turn base c before names e) (start : I e) :
    I (recoverQueues base.queues.size c true names e).2 := by
  induction names generalizing before e with
  | nil =>
    unfold recoverQueues
    exact start
  | cons name rest ih =>
    have distinct : (before ++ name :: rest).Nodup := split ▸ base.queues.keys_nodup
    have fresh : name ∉ rest := (List.nodup_cons.mp (List.nodup_append.mp distinct).2.1).1
    have split' : base.queues.keys = (before ++ [name]) ++ rest := by simpa using split
    have here : Turn base c before rest e :=
      ⟨turn.ends, turn.specs, turn.ended, fun q later => turn.left q (List.mem_cons_of_mem _ later)⟩
    rw [recoverQueues, if_pos turn.ends.size]
    cases found : e.queues.get? name with
    | none =>
      refine ih split' ⟨here.ends, here.specs, fun q earlier m => ?_, here.left⟩ start
      rcases List.mem_append.mp earlier with old | new
      · exact here.ended q old m
      · rintro ⟨record, there, _⟩
        obtain rfl := List.mem_singleton.mp new
        simp [record?, found] at there
    | some queue =>
      dsimp only
      obtain ⟨unique, collected⟩ := heldBy_record? c here.ends.named found
      have failed : Turn base c before rest (e.failAll name true (heldBy queue c)).2 ∧
          I (e.failAll name true (heldBy queue c)).2 := by
        refine failAll_preserves (I := fun e => Turn base c before rest e ∧ I e) c ?_ unique
          (fun m => (collected m).mp) ⟨here, start⟩
        intro e id record inv there mine
        exact ⟨inv.1.fail fresh ⟨record, there, mine⟩,
          fail before name rest e id split inv.1 inv.2 ⟨record, there, mine⟩⟩
      refine ih split' ⟨failed.1.ends, failed.1.specs, fun q earlier m => ?_, failed.1.left⟩ failed.2
      rcases List.mem_append.mp earlier with old | new
      · exact failed.1.ended q old m
      · rintro ⟨record, there, mine⟩
        obtain rfl := List.mem_singleton.mp new
        rw [failAll_record?] at there
        split at there
        · cases there
        · rename_i outside
          exact outside ⟨rfl, (collected m).mpr ⟨record, there, mine⟩⟩

theorem recoverConsumer_sweeps (named : e.Named) (declared : ∀ q m, e.Holds c q m → ¬ e.Declares q m)
    (fail : ∀ before name after e' id, e.queues.keys = before ++ name :: after →
      Turn e c before after e' → I e' → e'.Holds c name id → I (e'.failDelivery name id true).2)
    (start : I e) : I (e.recoverConsumer c).2 := by
  refine recoverQueues_sweeps fail (List.nil_append _).symm ⟨⟨named, rfl, ?_⟩, rfl, ?_,
    fun _ _ _ => rfl⟩ start
  · exact fun q m record there mine => declared q m ⟨record, there, mine⟩
  · exact fun q earlier => absurd earlier List.not_mem_nil

/-- A queue is on the same side of another in the table as its position. -/
theorem Turn.side (split : base.queues.keys = before ++ name :: after) (there : q ∈ base.queues)
    (differ : q ≠ name) :
    q ∈ before ∧ base.queues.keys.idxOf q < base.queues.keys.idxOf name ∨
      q ∈ after ∧ base.queues.keys.idxOf name < base.queues.keys.idxOf q := by
  have distinct : (before ++ name :: after).Nodup := split ▸ base.queues.keys_nodup
  have absent : name ∉ before := fun earlier =>
    (List.nodup_append.mp distinct).2.2 name earlier name List.mem_cons_self rfl
  have here : base.queues.keys.idxOf name = before.length := by
    rw [split, List.idxOf_append_of_notMem absent, List.idxOf_cons_self, Nat.add_zero]
  have listed : q ∈ before ++ name :: after := split ▸ Dict.mem_keys.mpr there
  by_cases earlier : q ∈ before
  · refine .inl ⟨earlier, ?_⟩
    rw [here, split, List.idxOf_append_of_mem earlier]
    exact List.idxOf_lt_length_iff.mpr earlier
  · rcases List.mem_cons.mp ((List.mem_append.mp listed).resolve_left earlier) with same | later
    · exact absurd same differ
    · refine .inr ⟨later, ?_⟩
      rw [here, split, List.idxOf_append_of_notMem earlier, List.idxOf_cons_ne _ (Ne.symm differ)]
      omega

/-! ## What becomes of the messages -/

theorem Recovered.rebase (recovered : Recovered e e' q m message) (specs : e.spec? = base.spec?)
    (same : e.message? q m = base.message? q m) : Recovered base e' q m message := by
  cases recovered with
  | delayed due below stored asleep => exact .delayed due below stored asleep
  | deadLettered dies left stored =>
    refine .deadLettered ?_ left stored
    unfold Dies at dies ⊢
    rwa [← specs, ← same]
  | dropped spec known off spent left => exact .dropped spec (specs ▸ known) off spent left

theorem Recovered.kept (recovered : Recovered base e q m message)
    (same : e'.message? q m = e.message? q m)
    (dlq : base.Dies q m → e'.message? (dlqName q) m = e.message? (dlqName q) m)
    (asleep : e.Asleep q m → e'.Asleep q m) : Recovered base e' q m message := by
  cases recovered with
  | delayed due below stored slept => exact .delayed due below (same.trans stored) (asleep slept)
  | deadLettered dies left stored =>
    exact .deadLettered dies (same.trans left) ((dlq dies).trans stored)
  | dropped spec known off spent left => exact .dropped spec known off spent (same.trans left)

/-- A message that was bound to die is in the DLQ. -/
theorem Recovered.buried (recovered : Recovered base e q m message)
    (held : base.message? q m = some message) (dies : base.Dies q m) :
    e.message? (dlqName q) m = some (buried q (failed message true)) := by
  obtain ⟨message', spec, held', spent, known, on⟩ := dies
  obtain rfl := Option.some.inj (held.symm.trans held')
  cases recovered with
  | delayed _ below => omega
  | deadLettered _ _ stored => exact stored
  | dropped spec' known' off =>
    obtain rfl := Option.some.inj (known.symm.trans known')
    rw [off] at on
    cases on

/-- A message without attempts left is out of its queue. -/
theorem Recovered.left (recovered : Recovered base e q m message)
    (spent : message.maxAttempts ≤ message.attempts + 1) : e.message? q m = none := by
  cases recovered with
  | delayed _ below => omega
  | deadLettered _ left => exact left
  | dropped _ _ _ _ left => exact left

theorem Dies.plain (named : e.Named) (dies : e.Dies q m) : isDlq q = false := by
  obtain ⟨message, spec, _, _, known, on⟩ := dies
  exact named.plain known on

/-- In the course of a recovery, messages whose turn is still to come are as
they were, and the others are recovered. -/
structure Recovering (base : QueueEngine) (c : String) (e : QueueEngine) : Prop where
  fewer : ∀ q m, e.Holds c q m → base.Holds c q m
  waiting : ∀ q m, e.Holds c q m → isDlq q = false ∨ base.message? q m ≠ none →
    e.message? q m = base.message? q m
  done : ∀ q m message, base.Holds c q m → ¬ e.Holds c q m → base.message? q m = some message →
    Recovered base e q m message

theorem Recovering.dies (going : Recovering base c e) (turn : Turn base c before after e)
    (holds : e.Holds c q m) (dies : e.Dies q m) : base.Dies q m := by
  have same := going.waiting q m holds (.inl (dies.plain turn.ends.named))
  unfold Dies at dies ⊢
  rwa [← turn.specs, ← same]

theorem Recovering.fail (unhindered : Unhindered base c)
    (split : base.queues.keys = before ++ name :: after)
    (turn : Turn base c before after e) (going : Recovering base c e) (holds : e.Holds c name id) :
    Recovering base c (e.failDelivery name id true).2 := by
  have named := turn.ends.named
  -- No dead letter takes the place of a message that the consumer held.
  have clear : ∀ q m, base.Holds c q m → base.message? q m ≠ none → e.Dies name m →
      ¬ (q = dlqName name ∧ m = id) := by
    rintro q m second held dies ⟨rfl, rfl⟩
    exact held
      (unhindered.apart name m (going.fewer name m holds) (going.dies turn holds dies) second).1
  refine ⟨fun q m still => going.fewer q m (failDelivery_holds.mp still).2, ?_, ?_⟩
  · intro q m still kind
    obtain ⟨other, before⟩ := failDelivery_holds.mp still
    refine (failDelivery_message? named other ?_).trans (going.waiting q m before kind)
    rcases kind with plain | held
    · exact fun _ both => ne_dlqName plain both.1
    · exact clear q m (going.fewer q m before) held
  · intro q m message owned finished held
    have present : base.message? q m ≠ none := by
      rw [held]
      simp
    by_cases here : q = name ∧ m = id
    · obtain ⟨rfl, rfl⟩ := here
      have same := going.waiting q m holds (.inr present)
      exact (failDelivery_recovered named (same.trans held)).rebase turn.specs same
    · have ended : ¬ e.Holds c q m := fun still => finished (failDelivery_holds.mpr ⟨here, still⟩)
      refine (going.done q m message owned ended held).kept
        (failDelivery_message? named here (clear q m owned present)) (fun dies => ?_) Asleep.fail
      have plain : isDlq q = false := by
        obtain ⟨_, spec, _, _, known, on⟩ := dies
        exact named.plain (turn.specs ▸ known) on
      refine failDelivery_message? named ?_ ?_
      · -- The second delivery in the DLQ came first.
        rintro ⟨rfl, rfl⟩
        have first := (unhindered.apart q m owned dies (going.fewer _ _ holds)).2
        obtain ⟨record, there, mine⟩ := owned
        obtain ⟨queue, found, _⟩ := record?_some.mp there
        rcases Turn.side split (Dict.mem_of_get? found) (dlqName_ne plain).symm with
          ⟨_, later⟩ | ⟨after, _⟩
        · omega
        · exact ended ⟨record, (turn.left q after m).trans there, mine⟩
      · rintro dies' ⟨same, rfl⟩
        exact here ⟨dlqName_injective plain (dies'.plain named) same, rfl⟩

theorem Unhindered.complete (unhindered : Unhindered e c) (named : e.Named) :
    CompletelyRecovered e c (e.recoverConsumer c) := by
  have ends : Ends (fun _ other => other = c) e e :=
    ⟨named, rfl, fun q m record there mine => unhindered.declared q m ⟨record, there, mine⟩⟩
  obtain ⟨n, result, _, records⟩ := recoverConsumer_ends ends fun _ => rfl
  have start : Recovering e c e := ⟨fun _ _ holds => holds, fun _ _ _ _ => rfl,
    fun q m message owned finished => absurd owned finished⟩
  have going : Recovering e c (e.recoverConsumer c).2 := recoverConsumer_sweeps named unhindered.declared
    (fun _ _ _ _ _ split turn going holds => going.fail unhindered split turn holds) start
  have ended : ∀ q m, ¬ (e.recoverConsumer c).2.Holds c q m := by
    rintro q m ⟨record, there, mine⟩
    exact ((records q m record).mp there).2 mine
  refine ⟨⟨n, result⟩, ended, fun q m record foreign => ?_,
    fun q m message owned => going.done q m message owned (ended q m)⟩
  rw [records]
  exact and_iff_left foreign

/-! ## What hinders a recovery -/

theorem CompletelyRecovered.declared (complete : CompletelyRecovered e c (e.recoverConsumer c)) (named : e.Named)
    (holds : e.Holds c q m) : ¬ e.Declares q m := by
  intro declares
  obtain ⟨record, there, rfl⟩ := holds
  obtain ⟨queue, found, _⟩ := record?_some.mp there
  obtain ⟨before, after, split, absent⟩ := List.eq_append_cons_of_mem
    (Dict.mem_keys.mpr (Dict.mem_of_get? found))
  have stuck := (recoverQueues_stuck e.queues.size before after named there declares absent le_rfl).1
  rw [← split] at stuck
  obtain ⟨n, result⟩ := complete.finishes
  unfold recoverConsumer at result
  rw [stuck] at result
  cases result

theorem CompletelyRecovered.buried (complete : CompletelyRecovered e c (e.recoverConsumer c)) (holds : e.Holds c q m)
    (dies : e.Dies q m) : ∃ message, e.message? q m = some message ∧
      (e.recoverConsumer c).2.message? (dlqName q) m = some (buried q (failed message true)) := by
  have ⟨message, _, held, _⟩ := dies
  exact ⟨message, held, (complete.messages q m message holds held).buried held dies⟩

/-- A message of a DLQ that the consumer holds there cannot be recovered if a
dead letter takes its place. -/
theorem CompletelyRecovered.vacant (complete : CompletelyRecovered e c (e.recoverConsumer c)) (named : e.Named)
    (holds : e.Holds c q m) (dies : e.Dies q m) (second : e.Holds c (dlqName q) m) :
    e.message? (dlqName q) m = none := by
  rw [Option.eq_none_iff_forall_ne_some]
  intro message' held'
  obtain ⟨message, _, stored⟩ := complete.buried holds dies
  cases complete.messages (dlqName q) m message' second held' with
  | delayed due _ stored' =>
    rw [stored] at stored'
    have moment := congrArg Message.availableAt (Option.some.inj stored')
    cases moment
  | deadLettered dies' =>
    exact absurd rfl (ne_dlqName (dies'.plain named))
  | dropped _ _ _ _ left =>
    rw [stored] at left
    cases left

/-- A dead letter that meets a second delivery of its id, still to come. -/
inductive Doomed (e : QueueEngine) (c q m : String) : Prop where
  | waiting (holds : e.Holds c q m) (second : e.Holds c (dlqName q) m) (dies : e.Dies q m)
  | moved (ended : ¬ e.Holds c q m) (second : e.Holds c (dlqName q) m) (message : Message)
      (held : e.message? (dlqName q) m = some message)
      (spent : message.maxAttempts ≤ message.attempts + 1)
  | lost (ended : ¬ e.Holds c q m) (ended' : ¬ e.Holds c (dlqName q) m)
      (left : e.message? (dlqName q) m = none)

theorem Doomed.fail (plain : isDlq q = false) (known : q ∈ base.queues)
    (later : ¬ base.queues.keys.idxOf (dlqName q) < base.queues.keys.idxOf q)
    (split : base.queues.keys = before ++ name :: after) (turn : Turn base c before after e)
    (doomed : e.Doomed c q m) (holds : e.Holds c name id) :
    (e.failDelivery name id true).2.Doomed c q m := by
  have named := turn.ends.named
  have differ := dlqName_ne plain
  -- While the record in the queue itself is gone, no other dead letter gets there.
  have alone : ¬ e.Holds c q m → e.Dies name m → ¬ (dlqName q = dlqName name ∧ m = id) := by
    rintro ended dies ⟨same, rfl⟩
    obtain rfl := dlqName_injective plain (dies.plain named) same
    exact ended holds
  cases doomed with
  | waiting first second dies =>
    by_cases here : q = name ∧ m = id
    · obtain ⟨rfl, rfl⟩ := here
      have ⟨message, _, held, spent, _⟩ := dies
      exact .moved (fun still => (failDelivery_holds.mp still).1 ⟨rfl, rfl⟩)
        (failDelivery_holds.mpr ⟨fun both => differ both.1, second⟩)
        (buried q (failed message true)) ((failDelivery_recovered named held).buried held dies)
        (show message.maxAttempts ≤ message.attempts + 1 + 1 by omega)
    · have other : ¬ (dlqName q = name ∧ m = id) := by
        rintro ⟨rfl, rfl⟩
        rcases Turn.side split known differ.symm with ⟨earlier, _⟩ | ⟨_, first'⟩
        · exact turn.ended q earlier m first
        · exact later first'
      refine .waiting (failDelivery_holds.mpr ⟨here, first⟩)
        (failDelivery_holds.mpr ⟨other, second⟩) ?_
      have specs : (e.failDelivery name id true).2.spec? = e.spec? := by
        obtain ⟨record, there, mine⟩ := holds
        rcases failDelivery_declares name id named with ⟨declares, _⟩ | ⟨_, specs, _⟩
        · exact absurd declares (turn.ends.safe name id record there mine)
        · exact specs
      unfold Dies at dies ⊢
      rw [specs, failDelivery_message? named here]
      · exact dies
      · exact fun _ both => ne_dlqName plain both.1
  | moved ended second message held spent =>
    have still : ¬ (e.failDelivery name id true).2.Holds c q m := fun holds =>
      ended (failDelivery_holds.mp holds).2
    by_cases here : dlqName q = name ∧ m = id
    · obtain ⟨rfl, rfl⟩ := here
      exact .lost still (fun holds => (failDelivery_holds.mp holds).1 ⟨rfl, rfl⟩)
        ((failDelivery_recovered named held).left spent)
    · refine .moved still (failDelivery_holds.mpr ⟨here, second⟩) message ?_ spent
      exact (failDelivery_message? named here (alone ended)).trans held
  | lost ended ended' left =>
    refine .lost (fun holds => ended (failDelivery_holds.mp holds).2)
      (fun holds => ended' (failDelivery_holds.mp holds).2) ?_
    have here : ¬ (dlqName q = name ∧ m = id) := by
      rintro ⟨rfl, rfl⟩
      exact ended' holds
    exact (failDelivery_message? named here (alone ended)).trans left

theorem CompletelyRecovered.first (complete : CompletelyRecovered e c (e.recoverConsumer c)) (named : e.Named)
    (holds : e.Holds c q m) (dies : e.Dies q m) (second : e.Holds c (dlqName q) m) :
    e.queues.keys.idxOf (dlqName q) < e.queues.keys.idxOf q := by
  by_contra later
  have known : q ∈ e.queues := by
    obtain ⟨record, there, _⟩ := holds
    obtain ⟨queue, found, _⟩ := record?_some.mp there
    exact Dict.mem_of_get? found
  have doomed : (e.recoverConsumer c).2.Doomed c q m :=
    recoverConsumer_sweeps (I := fun e' => e'.Doomed c q m) named
      (fun _ _ holds => complete.declared named holds) (fun _ _ _ _ _ split turn doomed holds =>
        doomed.fail (dies.plain named) known later split turn holds)
      (.waiting holds second dies)
  obtain ⟨message, _, stored⟩ := complete.buried holds dies
  cases doomed with
  | waiting still => exact complete.ended q m still
  | moved _ still => exact complete.ended _ m still
  | lost _ _ left =>
    rw [left] at stored
    cases stored

/-- Without overflows a recovery is complete exactly if it is unhindered. -/
theorem complete_iff_unhindered (named : e.Named) (c : String) :
    CompletelyRecovered e c (e.recoverConsumer c) ↔ Unhindered e c := by
  refine ⟨fun complete => ⟨fun q m holds => complete.declared named holds,
    fun q m holds dies second => ?_⟩, fun unhindered => unhindered.complete named⟩
  exact ⟨complete.vacant named holds dies second, complete.first named holds dies second⟩

/-! ## Overflows -/

/-- The message of a delivery is bound to overflow while the delivery has its
turn ahead. After that the queue has at most a message of the id that will not
be tried again. -/
structure Bound (c q m : String) (message : Message) (e : QueueEngine) : Prop where
  named : e.Named
  fate : (e.Holds c q m ∧ e.message? q m = some message ∧ Overflows e.config message) ∨
    ∀ other, e.message? q m = some other → other.maxAttempts ≤ other.attempts

/-- A failure that does not raise is of another delivery. -/
theorem Bound.fail (bound : Bound c q m message e)
    (fine : ∀ message, e.message? name id = some message → ¬ Overflows e.config message) :
    Bound c q m message (e.failDelivery name id persist).2 := by
  refine ⟨failDelivery_named bound.named, ?_⟩
  have exit : Exit e name id true persist [] (e.failDelivery name id persist).2 :=
    failDelivery_exit bound.named
  have records : (e.failDelivery name id persist).2.record? q m =
      if q = name ∧ m = id then none else e.record? q m := failDelivery_record?
  have config : (e.failDelivery name id persist).2.config = e.config := failDelivery_frame.1
  generalize (e.failDelivery name id persist).2 = e' at exit records config
  by_cases here : q = name ∧ m = id
  · obtain ⟨rfl, rfl⟩ := here
    have spent : ∀ other, e.message? q m = some other → other.maxAttempts ≤ other.attempts :=
      bound.fate.resolve_left fun pending => fine message pending.2.1 pending.2.2
    refine .inr fun other there => ?_
    cases exit with
    | gone _ messages => exact spent other (messages ▸ there)
    | retried before _ held _ below =>
      have last := spent before held
      omega
    | moved before _ held _ _ ended messages =>
      have last : before.maxAttempts ≤ before.attempts + 1 := ended rfl
      rw [messages] at there
      split at there
      · obtain rfl := Option.some.inj there
        exact last
      · rw [if_pos ⟨rfl, rfl⟩] at there
        cases there
    | dropped _ _ _ _ _ _ messages =>
      rw [messages, if_pos ⟨rfl, rfl⟩] at there
      cases there
  · rw [if_neg here] at records
    have holds : e.Holds c q m → e'.Holds c q m := by
      rintro ⟨record, there, mine⟩
      exact ⟨record, records.trans there, mine⟩
    have kept : e'.message? q m = e.message? q m →
        (e'.Holds c q m ∧ e'.message? q m = some message ∧ Overflows e'.config message) ∨
          ∀ other, e'.message? q m = some other → other.maxAttempts ≤ other.attempts := by
      intro same
      rw [same, config]
      exact bound.fate.imp_left fun pending => ⟨holds pending.1, pending.2⟩
    cases exit with
    | gone _ messages => exact kept (congrFun (congrFun messages q) m)
    | retried _ _ _ _ _ messages => exact kept ((messages q m).trans (if_neg here))
    | moved before _ held _ _ ended messages =>
      by_cases there : q = dlqName name ∧ m = id
      · refine .inr fun other buried => ?_
        rw [messages, if_pos there] at buried
        obtain rfl := Option.some.inj buried
        exact ended rfl
      · exact kept ((messages q m).trans ((if_neg there).trans (if_neg here)))
    | dropped _ _ _ _ _ _ messages => exact kept ((messages q m).trans (if_neg here))

/-- A recovery that returns does what it does in the engine without overflow. -/
theorem recoverConsumer_returned {n : Nat} (returned : (Raising.recoverConsumer e c).1 = .ok n)
    (named : ∀ e, I e → e.Named)
    (fail : ∀ e name id record, I e → e.record? name id = some record → record.consumerId = c →
      (∀ message, e.message? name id = some message → ¬ Overflows e.config message) →
        I (e.failDelivery name id true).2) (start : I e) :
    Raising.recoverConsumer e c = ((e.recoverConsumer c).1.mapError .runtime, (e.recoverConsumer c).2) ∧
      I (e.recoverConsumer c).2 := by
  refine (recoverQueues_agrees named fail start rfl).resolve_right ?_
  rintro ⟨raised, _⟩
  cases returned.symm.trans raised

/-- **Recovery of a consumer.** In every reachable state a recovery is complete
exactly if it is unhindered and the next retry of each of its messages has a delay. -/
theorem recoverConsumer_complete_iff (reached : Raising.Reachable Anything e) (c : String) :
    CompletelyRecovered e c (Raising.recoverConsumer e c) ↔
      Unhindered e c ∧ HasDelays e (.recoverConsumer c) := by
  have named := reached.named
  constructor
  · intro complete
    obtain ⟨n, returned⟩ := complete.finishes
    obtain ⟨same, _⟩ := recoverConsumer_returned (I := Named) returned (fun _ inv => inv)
      (fun _ _ _ _ inv _ _ _ => failDelivery_named inv) named
    have result : (e.recoverConsumer c).1 = .ok n := by
      rw [same] at returned
      cases shape : (e.recoverConsumer c).1 <;> rw [shape] at returned <;> cases returned
      rfl
    have whole : CompletelyRecovered e c (e.recoverConsumer c) := by
      have after : (Raising.recoverConsumer e c).2 = (e.recoverConsumer c).2 := by rw [same]
      exact ⟨⟨n, result⟩, after ▸ complete.ended, after ▸ complete.others, after ▸ complete.messages⟩
    refine ⟨(complete_iff_unhindered named c).mp whole, fun q m record message there mine held => ?_⟩
    intro overflows
    have holds : e.Holds c q m := ⟨record, there, mine⟩
    obtain ⟨_, bound⟩ := recoverConsumer_returned (I := Bound c q m message) returned
      (fun _ inv => inv.named) (fun _ _ _ _ inv _ _ fine => inv.fail fine)
      ⟨named, .inl ⟨holds, held, overflows⟩⟩
    have more := overflows.1
    rcases bound.fate with pending | spent
    · exact whole.ended q m pending.1
    · cases whole.messages q m message holds held with
      | delayed _ below stored =>
        have last : message.maxAttempts ≤ message.attempts + 1 := spent _ stored
        omega
      | deadLettered dies =>
        obtain ⟨other, _, there, last, _⟩ := dies
        obtain rfl := Option.some.inj (held.symm.trans there)
        omega
      | dropped _ _ _ last => omega
  · rintro ⟨unhindered, delays⟩
    have complete := (complete_iff_unhindered named c).mpr unhindered
    rw [recoverConsumer_agrees named delays]
    obtain ⟨n, returned⟩ := complete.finishes
    exact ⟨⟨n, by rw [returned]; rfl⟩, complete.ended, complete.others, complete.messages⟩

/-- A message is at its last attempt with a worker. -/
def lastTry : QueueEngine := run (Raising.step true) { config := {}, clock := fun _ => 0 } [
  .declareQueue "orders" {},
  .enqueue { id := "m1", queue := "orders", payload := [1], createdAt := 0, maxAttempts := 1 },
  .reserve "orders" "worker"]

theorem lastTry_reached : Raising.Reachable Anything lastTry :=
  Raising.reachable_run (.start {} fun _ => 0) (by decide +kernel)

/-- The message is dead-lettered. -/
theorem recoverConsumer_complete_lastTry :
    CompletelyRecovered lastTry "worker" (Raising.recoverConsumer lastTry "worker") := by
  have listed : ∀ entry ∈ lastTry.queues.entries, ∀ id ∈ entry.2.inflight.keys,
      entry.1 = "orders" := by
    decide +kernel
  have only : ∀ q m, lastTry.Holds "worker" q m → q = "orders" := by
    rintro q m ⟨record, there, _⟩
    obtain ⟨queue, found, inflight⟩ := record?_some.mp there
    exact listed (q, queue) (Dict.get?_eq_some.mp found) m
      (Dict.mem_keys.mpr (Dict.mem_of_get? inflight))
  have declared : (lastTry.spec? (dlqName "orders")).isSome = true := by decide +kernel
  refine (recoverConsumer_complete_iff lastTry_reached "worker").mpr ⟨⟨?_, ?_⟩, by decide +kernel⟩
  · rintro q m holds ⟨_, _, _, _, _, _, missing⟩
    rw [only q m holds] at missing
    rw [missing] at declared
    cases declared
  · intro q m holds _ second
    have there := only _ m second
    rw [only q m holds] at there
    exact absurd there (by decide +kernel)

/-- With the DLQ deleted, the recovery declares it on the way and raises. -/
theorem deleted_dlq_stops_recovery :
    Raising.Reachable Anything (lastTry.deleteQueue "orders.DLQ").2 ∧
    ¬ CompletelyRecovered (lastTry.deleteQueue "orders.DLQ").2 "worker"
      (Raising.recoverConsumer (lastTry.deleteQueue "orders.DLQ").2 "worker") := by
  have raised : ((Raising.recoverConsumer (lastTry.deleteQueue "orders.DLQ").2
      "worker").1.toOption).isNone := by
    decide +kernel
  refine ⟨lastTry_reached.step true (.deleteQueue "orders.DLQ") trivial, fun complete => ?_⟩
  obtain ⟨n, finished⟩ := complete.finishes
  rw [finished] at raised
  cases raised

end OneOpenBroker.Core.QueueEngine

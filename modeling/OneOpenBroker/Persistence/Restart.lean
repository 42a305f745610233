import OneOpenBroker.Persistence.Fidelity

/-! A restart from a complete journal. Recovery applies failures and
acknowledgements without effect, so what it rebuilds is what was published and
requeued: nothing is lost while that fits the queues, and a message comes back
as it was when it had neither failed nor been acknowledged. -/
namespace OneOpenBroker.Persistence
open Collections Systems OneOpenBroker.Core QueueEngine RoutingEngine

variable {config : EngineConfig} {clock clock' : Nat → ℚ} {ops : List BrokerOp}

theorem booted_matched :
    Matched config (booted config clock').queues (booted config clock).queues := by
  rw [booted_queues, booted_queues]
  refine ⟨rfl, ⟨fun m ⟨q, message, there⟩ => (nomatch there), fun m there => nomatch there⟩,
    fun q m there => (nomatch there), ?_⟩
  refine ⟨⟨⟨cleared_filed { config, clock := clock' } 0, Dict.all_empty⟩, fun _ _ => rfl, Dict.all_empty,
      fun _ _ _ there => nomatch there⟩, fun _ _ _ there => (nomatch there), rfl, fun _ => rfl,
    fun _ _ there => (nomatch there), fun _ there => (nomatch there), fun _ _ there => (nomatch there),
    fun _ _ _ there => (nomatch there), fun _ _ _ => rfl⟩

theorem run_matched (orderly : Orderly config.maxLength
      (run step (booted config clock) ops).queues.journal.ops) :
    Matched config (booted config clock').queues (run step (booted config clock) ops).queues := by
  have cut : ∀ first more, Orderly config.maxLength (first ++ more) →
      Orderly config.maxLength first :=
    fun _ _ orderly => ⟨orderly.1.cut, (Roomy.append.mp orderly.2).1⟩
  have effect : ∀ e e' : QueueEngine, e.Filed → e'.Filed → e'.config = e.config → Effect e e' →
      Orderly config.maxLength e'.journal.ops → Matched config (booted config clock').queues e →
      Matched config (booted config clock').queues e' :=
    fun _ _ filed _ same eff orderly matched => matched.effect filed same eff orderly
  have start : While (Orderly config.maxLength) (Matched config (booted config clock').queues)
      (booted config clock).queues := booted_while booted_matched
  have last : While (Orderly config.maxLength) (Matched config (booted config clock').queues)
      (run step (booted config clock) ops).queues :=
    run_work
      (fun _ _ clean inv => step_while cut
        (fun _ _ matched orderly => matched.account.fresh orderly.1) effect clean inv)
      (fun _ _ record inv => append_while cut effect record inv) start
  exact (last.2 orderly).2

/-- Without a snapshot recovery applies the whole journal. -/
theorem recovered_queues : (recovered (booted config clock') none
      (run step (booted config clock) ops).queues.journal.records).queues =
    rebuild (booted config clock').queues (run step (booted config clock) ops).queues.journal.ops := by
  have numbered : Numbered (run step (booted config clock) ops).queues.journal := by
    refine run_journal (fun _ op numbered => numbered.append op) booted_rebuilt.1.named ?_
    rw [booted_queues]
    exact fun _ there => nomatch there
  have all : (run step (booted config clock) ops).queues.journal.records.filter (0 < ·.seq) =
      (run step (booted config clock) ops).queues.journal.records :=
    List.filter_eq_self.mpr fun record there => by simpa using (numbered record there).1
  rw [recovered, replay_queues, all]
  rfl

/-- Nothing that is held is lost by a restart, as long as every message that
was published or requeued found room among all the messages that the journal
files in its queue, acknowledged and failed ones included. -/
theorem recovery_loses_nothing
    (unique : Unique (run step (booted config clock) ops).queues.journal.ops)
    (roomy : Roomy config.maxLength (run step (booted config clock) ops).queues.journal.ops)
    {id : String} {payload : List UInt8}
    (held : (run step (booted config clock) ops).queues.HeldWith id payload) :
    (recovered (booted config clock') none
      (run step (booted config clock) ops).queues.journal.records).queues.HeldWith id payload := by
  have matched : Matched config (booted config clock').queues _ := run_matched ⟨unique, roomy⟩
  obtain ⟨q, message, there, same⟩ := held
  obtain ⟨origin, kept, found, body, _⟩ := matched.covers.held q id message there
  rw [recovered_queues]
  exact ⟨origin, kept, found, (congrArg Message.payload body).trans same⟩

/-- A message that neither failed nor was acknowledged since it was published
or last requeued is after a restart where it was and as it was. -/
theorem recovery_keeps
    (unique : Unique (run step (booted config clock) ops).queues.journal.ops)
    (roomy : Roomy config.maxLength (run step (booted config clock) ops).queues.journal.ops)
    {m : String} (settled : m ∉
      (ledgerOf config.maxLength (run step (booted config clock) ops).queues.journal.ops).troubled)
    (q : String) : (run step (booted config clock) ops).queues.message? q m =
      (recovered (booted config clock') none
        (run step (booted config clock) ops).queues.journal.records).queues.message? q m := by
  have matched : Matched config (booted config clock').queues _ := run_matched ⟨unique, roomy⟩
  rw [recovered_queues]
  exact matched.covers.settled m settled q

/-- A restart brings back exactly the queues' messages, with their attempts and
delays, when no message that is filed in a queue failed since it was published
or last requeued. -/
theorem recovery_faithful
    (unique : Unique (run step (booted config clock) ops).queues.journal.ops)
    (roomy : Roomy config.maxLength (run step (booted config clock) ops).queues.journal.ops)
    (untroubled : ∀ entry ∈ (ledgerOf config.maxLength
        (run step (booted config clock) ops).queues.journal.ops).filed, entry.2 ∉
      (ledgerOf config.maxLength (run step (booted config clock) ops).queues.journal.ops).troubled)
    (q m : String) : (run step (booted config clock) ops).queues.message? q m =
      (recovered (booted config clock') none
        (run step (booted config clock) ops).queues.journal.records).queues.message? q m := by
  by_cases settled : m ∈ (ledgerOf config.maxLength
      (run step (booted config clock) ops).queues.journal.ops).troubled
  · have matched : Matched config (booted config clock').queues _ := run_matched ⟨unique, roomy⟩
    rw [recovered_queues]
    have unfiled : ∀ origin kept, (rebuild (booted config clock').queues
        (run step (booted config clock) ops).queues.journal.ops).message? origin m ≠ some kept :=
      fun origin kept found => untroubled _ (matched.covers.filed origin m kept found) settled
    rw [Option.eq_none_iff_forall_ne_some.mpr (unfiled q)]
    refine Option.eq_none_iff_forall_ne_some.mpr fun message there => ?_
    obtain ⟨origin, kept, found, _⟩ := matched.covers.held q m message there
    exact unfiled origin kept found
  · exact recovery_keeps unique roomy settled q

/-! ## Runs -/

/-- A queue with a limit of one: the first message is settled before the
second is published. -/
def tightQueue : List BrokerOp :=
  .declareQueue "jobs" { maxLength := some 1 } :: (settleOne "m1" ++ [publishOne "jobs" "m2"])

/-- Recovery meets a full queue and passes over the message that is held. -/
theorem settled_message_crowds_out :
    Unique (run step idleBroker tightQueue).queues.journal.ops ∧
    (run step idleBroker tightQueue).queues.HeldWith "m2" [1] ∧
    ¬ (recovered idleBroker none
      (run step idleBroker tightQueue).queues.journal.records).queues.Held "m2" := by
  refine ⟨by decide +kernel, ?_, by decide +kernel⟩
  have there : ((run step idleBroker tightQueue).queues.message? "jobs" "m2").map (·.payload) = some [1] := by
    decide +kernel
  obtain ⟨message, found, same⟩ := Option.map_eq_some_iff.mp there
  exact ⟨"jobs", message, found, same⟩

/-- The same with a limit of two. -/
def wideQueue : List BrokerOp :=
  .declareQueue "jobs" { maxLength := some 2 } :: (settleOne "m1" ++ [publishOne "jobs" "m2"])

theorem recovery_loses_nothing_wide : (recovered idleBroker none
    (run step idleBroker wideQueue).queues.journal.records).queues.HeldWith "m2" [1] := by
  have there : ((run step idleBroker wideQueue).queues.message? "jobs" "m2").map (·.payload) = some [1] := by
    decide +kernel
  obtain ⟨message, found, same⟩ := Option.map_eq_some_iff.mp there
  exact recovery_loses_nothing (by decide +kernel) (by decide +kernel) ⟨"jobs", message, found, same⟩

/-- One message is rejected. -/
def rejected : List BrokerOp :=
  [publishOne "jobs" "m1", .reserve "jobs" "worker", .nack "m1" false]

/-- The rejected message is dead-lettered, and deliverable again after a restart. -/
theorem dead_letter_undone :
    Unique (run step idleBroker rejected).queues.journal.ops ∧
    ((run step idleBroker rejected).queues.message? "jobs.DLQ" "m1").isSome = true ∧
    ((run step idleBroker rejected).queues.message? "jobs" "m1").isSome = false ∧
    ((recovered idleBroker none (run step idleBroker rejected).queues.journal.records).queues.reserve
      "jobs" "worker").1.isSome = true := by
  decide +kernel

/-- The rejected message is requeued before the restart. -/
theorem recovery_faithful_requeued :
    (run step idleBroker (rejected ++ [.dlqRequeue "jobs" "m1"])).queues.message? "jobs" "m1" =
      (recovered idleBroker none (run step idleBroker
        (rejected ++ [.dlqRequeue "jobs" "m1"])).queues.journal.records).queues.message? "jobs" "m1" :=
  recovery_faithful (by decide +kernel) (by decide +kernel) (by decide +kernel) "jobs" "m1"

end OneOpenBroker.Persistence

import OneOpenBroker.Core.Acks

/-! What an accepted publish does to the messages that are held already. Ids
are chosen by clients and the engine does not ask whether one is in use, so a
publish replaces the message that its queue holds under the id, and takes the
index away from a message of that id in another queue. -/
namespace OneOpenBroker.Core.QueueEngine
open Collections Systems

/-- The delivery of an id in a queue can be acked by the id. -/
def CanAck (e : QueueEngine) (q m : String) : Prop :=
  (e.ack m).1 = .ok ∧ (e.ack m).2.record? q m = none

/-- The delivery of an id in a queue can be nacked by the id, with either flag. -/
def CanNack (e : QueueEngine) (q m : String) : Prop :=
  ∀ requeue, (e.nack m requeue).1 = .ok ∧ (e.nack m requeue).2.record? q m = none

/-- Every message is still in its queue with its payload and attempts, and
one that is out for delivery can be answered as before. -/
def Undamaged (e e' : QueueEngine) : Prop := ∀ q m old, e.message? q m = some old →
  (∃ new, e'.message? q m = some new ∧ new.payload = old.payload ∧ new.attempts = old.attempts) ∧
  ((e.record? q m).isSome → (e.CanAck q m → e'.CanAck q m) ∧ (e.CanNack q m → e'.CanNack q m))

/-- A message of the published id is either the very thing that is published,
in the queue it is published to, or in another queue and not out for delivery
there under the index. -/
def Harmless (e : QueueEngine) (message : Message) : Prop :=
  ∀ q old, e.message? q message.id = some old →
    if q = message.queue then old.payload = message.payload ∧ old.attempts = message.attempts
    else ¬ ((e.record? q message.id).isSome ∧ e.byId.get? message.id = some q)

variable {e : QueueEngine} {message old : Message} {q m : String} {persist : Bool}

theorem canAck_iff (flying : (e.record? q m).isSome) :
    e.CanAck q m ↔ m ∉ e.recentAcks ∧ e.byId.get? m = some q := by
  obtain ⟨record, found⟩ := Option.isSome_iff_exists.mp flying
  constructor
  · rintro ⟨ok, ended⟩
    rcases ack_cases e m true with ⟨name, queue, settles⟩ | ⟨refused, _⟩
    · refine ⟨settles.fresh, ?_⟩
      by_contra elsewhere
      rw [settles.record?, if_neg, found] at ended
      · cases ended
      · rintro ⟨rfl, _⟩
        exact elsewhere settles.indexed
    · exact absurd ok refused
  · rintro ⟨fresh, indexed⟩
    obtain ⟨queue, settles⟩ : ∃ queue, e.Settles m true q queue := ack_settles fresh indexed found
    exact ⟨settles.result, settles.record?.trans (if_pos ⟨rfl, rfl⟩)⟩

theorem canNack_iff (held : e.message? q m = some old) (flying : (e.record? q m).isSome) :
    e.CanNack q m ↔ e.byId.get? m = some q := by
  obtain ⟨record, found⟩ := Option.isSome_iff_exists.mp flying
  obtain ⟨queue, stored, inflight⟩ := record?_some.mp found
  constructor
  · intro answers
    obtain ⟨ok, ended⟩ := answers true
    rcases nack_cases e m true true with ⟨name, queue, message, nacks⟩ | ⟨refused, _⟩
    · by_contra elsewhere
      rw [nacks.record?, if_neg, found] at ended
      · cases ended
      · rintro ⟨rfl, _⟩
        exact elsewhere nacks.indexed
    · exact absurd ok refused
  · intro indexed requeue
    rcases nack_cases e m requeue true with ⟨name, other, message, nacks⟩ | ⟨refused, _⟩
    · have same : name = q := Option.some.inj (nacks.indexed.symm.trans indexed)
      exact ⟨nacks.result, nacks.record?.trans (if_pos ⟨same.symm, rfl⟩)⟩
    · exfalso
      apply refused
      rw [message?_of_get stored] at held
      have kept : (queue.endDelivery m).messages.get? m = some old := held
      simp [nack, indexed, stored, Dict.mem_of_get? inflight, kept]

theorem Accepts.recentAcks {queue : DurableQueue} (accepts : e.Accepts message persist queue) :
    (e.enqueue message persist).2.recentAcks = e.recentAcks := by
  rw [accepts.2.2, append_recentAcks, accept_frame.2.2.2.2]
  rfl

/-- An accepted publish damages no message exactly when it is harmless. -/
theorem enqueue_undamaged_iff (accepted : (e.enqueue message persist).1 = .ok) :
    Undamaged e (e.enqueue message persist).2 ↔ e.Harmless message := by
  rcases enqueue_cases e message persist with ⟨queue, accepts⟩ | ⟨refused, _⟩
  swap
  · exact absurd accepted refused
  have record : ∀ q m, (e.enqueue message persist).2.record? q m = e.record? q m := by
    intro q m
    rw [accepts.record?]
  have index : ∀ m, (e.enqueue message persist).2.byId.get? m =
      if m = message.id then some message.queue else e.byId.get? m := by
    intro m
    rw [accepts.byId, Dict.get?_set]
  constructor
  · intro undamaged q old held
    obtain ⟨⟨new, kept, payload, attempts⟩, answers⟩ := undamaged q message.id old held
    rw [accepts.message?] at kept
    by_cases here : q = message.queue
    · rw [if_pos here]
      rw [if_pos ⟨here, rfl⟩] at kept
      cases kept
      rw [dueMessage_payload] at payload
      rw [dueMessage_attempts] at attempts
      exact ⟨payload.symm, attempts.symm⟩
    · rw [if_neg here]
      rw [if_neg (fun both => here both.1)] at kept
      rintro ⟨flying, indexed⟩
      have before : e.CanNack q message.id := (canNack_iff held flying).mpr indexed
      have held' : (e.enqueue message persist).2.message? q message.id = some old := by
        rw [accepts.message?, if_neg (fun both => here both.1)]
        exact held
      have flying' : ((e.enqueue message persist).2.record? q message.id).isSome := by
        rw [record]
        exact flying
      have after := (canNack_iff held' flying').mp ((answers flying).2 before)
      rw [index, if_pos rfl] at after
      exact here (Option.some.inj after).symm
  · intro harmless q m old held
    by_cases target : q = message.queue ∧ m = message.id
    · obtain ⟨rfl, rfl⟩ := target
      have same := harmless _ old held
      rw [if_pos rfl] at same
      have kept : (e.enqueue message persist).2.message? message.queue message.id =
          some (dueMessage message e.now.1) := by
        rw [accepts.message?, if_pos ⟨rfl, rfl⟩]
      refine ⟨⟨_, kept, ?_, ?_⟩, fun flying => ?_⟩
      · rw [dueMessage_payload, same.1]
      · rw [dueMessage_attempts, same.2]
      · have flying' : ((e.enqueue message persist).2.record? message.queue message.id).isSome := by
          rw [record]
          exact flying
        rw [canAck_iff flying, canAck_iff flying', canNack_iff held flying, canNack_iff kept flying',
          index, if_pos rfl, accepts.recentAcks]
        exact ⟨fun before => ⟨before.1, rfl⟩, fun _ => rfl⟩
    · have kept : (e.enqueue message persist).2.message? q m = some old := by
        rw [accepts.message?, if_neg target]
        exact held
      refine ⟨⟨old, kept, rfl, rfl⟩, fun flying => ?_⟩
      have flying' : ((e.enqueue message persist).2.record? q m).isSome := by
        rw [record]
        exact flying
      rw [canAck_iff flying, canAck_iff flying', canNack_iff held flying, canNack_iff kept flying',
        index, accepts.recentAcks]
      by_cases same : m = message.id
      · -- The other queue loses the index, so its delivery must not need it.
        subst same
        have other := harmless q old held
        rw [if_neg (fun here => target ⟨here, rfl⟩)] at other
        exact ⟨fun before => absurd ⟨flying, before.2⟩ other,
          fun before => absurd ⟨flying, before⟩ other⟩
      · rw [if_neg same]
        exact ⟨id, id⟩

/-- A second message is published under the id of the first. -/
def sameId : Message := { id := "m1", queue := "orders", payload := [2], createdAt := 1 }

/-- The message that is out for delivery is replaced by the new one. -/
theorem republished_id_replaces : Reachable Anything (run (step true) created deliveredRun) ∧
    ((run (step true) created deliveredRun).enqueue sameId true).1 = .ok ∧
    ¬ Undamaged (run (step true) created deliveredRun)
      ((run (step true) created deliveredRun).enqueue sameId true).2 := by
  have before : ((run (step true) created deliveredRun).message? "orders" "m1").map (·.payload) =
      some [1] := by
    decide +kernel
  have after : (((run (step true) created deliveredRun).enqueue sameId true).2.message?
      "orders" "m1").map (·.payload) = some [2] := by
    decide +kernel
  refine ⟨reachable_run (.start {} fun _ => 0) ⟨trivial, trivial, trivial, trivial⟩,
    by decide +kernel, ?_⟩
  intro undamaged
  obtain ⟨old, held, payload⟩ := Option.map_eq_some_iff.mp before
  obtain ⟨⟨new, kept, same, _⟩, _⟩ := undamaged "orders" "m1" old held
  rw [kept, Option.map_some, same, payload] at after
  cases after

/-- A publish under a new id leaves the message that is out for delivery alone. -/
theorem enqueue_undamaged_fresh :
    Undamaged (run (step true) created deliveredRun)
        ((run (step true) created deliveredRun).enqueue { sameId with id := "m2" } true).2 ↔
      Harmless (run (step true) created deliveredRun) { sameId with id := "m2" } :=
  enqueue_undamaged_iff (by decide +kernel)

end OneOpenBroker.Core.QueueEngine

import OneOpenBroker.Broker.Ownership
import OneOpenBroker.Broker.ServerRuns
import OneOpenBroker.Core.Effects

/-! When a response is placed, relative to the journal. The read loop places
the response of a command before it awaits the records of the command, and
nothing comes between the handling and the placing, so at that time not even
the writer task has seen these records. -/
namespace OneOpenBroker.Broker
open Collections OneOpenBroker.Core QueueEngine ConsumerManager

namespace Handler

variable {h : Handler} {n : Nat} {queue id m consumerId : String} {consumer : Consumer}
  {message : Message} {e' : QueueEngine} {sent : Nat} {outcome : Outcome}

/-- The journal has reached a sequence number. -/
structure Grown (n : Nat) (h : Handler) : Prop where
  ordered : Ordered h
  reached : n ≤ h.queues.journal.seq

theorem grown_kept (n : Nat) : Kept {} (Grown n) := by
  have same : Grown n = fun h : Handler => Ordered h ∧ n ≤ h.queues.journal.seq :=
    funext fun h => propext ⟨fun grown => ⟨grown.ordered, grown.reached⟩, fun both => ⟨both.1, both.2⟩⟩
  have step : ∀ (e : QueueEngine) (op : EngineOp), e.Named → n ≤ e.journal.seq →
      n ≤ (e.step true op).journal.seq := by
    have later : ∀ (journal : Journal) op, n ≤ journal.seq → n ≤ (journal.append op).seq :=
      fun _ _ reached => Nat.le_succ_of_le reached
    exact fun e op named reached =>
      step_journal (P := fun journal => n ≤ journal.seq) later named reached op
  rw [same]
  apply engine_kept (P := fun e => n ≤ e.journal.seq)
  · exact fun e e' reached alike => (congrArg Journal.seq alike.journal).symm ▸ reached
  · exact fun e op reached _ => Nat.le_succ_of_le reached
  · exact fun _ _ _ _ _ _ _ _ reached takes => (congrArg Journal.seq takes.journal).symm ▸ reached
  · exact fun e op named reached _ => step e op named reached
  · exact fun e message named reached _ => step e (.enqueue message) named reached

end Handler

def WriterTask.batch : WriterTask → List Nat
  | .idle => []
  | .writing batch | .wrote batch => batch

namespace AOFWriter

variable {w : AOFWriter} {n n' : Nat}

/-- No record is newer than a sequence number. -/
structure UpTo (w : AOFWriter) (n : Nat) : Prop where
  queue : ∀ seq ∈ w.queue, seq ≤ n
  batch : ∀ seq ∈ w.task.batch, seq ≤ n
  written : ∀ seq ∈ w.written, seq ≤ n
  synced : ∀ seq ∈ w.synced, seq ≤ n

theorem UpTo.append {seqs : List Nat} (upTo : UpTo w n) (later : n ≤ n')
    (new : ∀ seq ∈ seqs, seq ≤ n') : UpTo (w.append seqs) n' where
  queue seq member := by
    rcases List.mem_append.mp member with old | appended
    · exact Nat.le_trans (upTo.queue seq old) later
    · exact new seq appended
  batch seq member := Nat.le_trans (upTo.batch seq member) later
  written seq member := Nat.le_trans (upTo.written seq member) later
  synced seq member := Nat.le_trans (upTo.synced seq member) later

theorem UpTo.take (upTo : UpTo w n) : UpTo w.take n := by
  unfold AOFWriter.take
  split
  · split
    · exact upTo
    · exact ⟨fun _ member => (nomatch member), upTo.queue, upTo.written, upTo.synced⟩
  · exact upTo

theorem UpTo.write (upTo : UpTo w n) (due : Bool) : UpTo (w.write due) n := by
  unfold AOFWriter.write
  split
  · rename_i batch task
    have taken : ∀ seq ∈ batch, seq ≤ n := by
      have inBatch := upTo.batch
      rw [task] at inBatch
      exact inBatch
    have all : ∀ seq ∈ w.written ++ batch, seq ≤ n := by
      intro seq member
      rcases List.mem_append.mp member with old | new
      · exact upTo.written seq old
      · exact taken seq new
    refine ⟨upTo.queue, taken, all, fun seq member => ?_⟩
    dsimp only at member
    split at member
    · exact all seq member
    · exact upTo.synced seq member
  · exact upTo

theorem UpTo.resolve (upTo : UpTo w n) : UpTo w.resolve n := by
  unfold AOFWriter.resolve
  split
  · exact ⟨upTo.queue, fun _ member => (nomatch member), upTo.written, upTo.synced⟩
  · exact upTo

end AOFWriter

namespace Server

variable {s : Server} {h : Handler} {connectionId : String} {rest : List Frame}

/-- No record is on its way to the disk before it was appended, and no response
was placed with records of its command on the disk. -/
structure Ahead (s : Server) : Prop where
  ordered : Handler.Ordered s.handler
  upTo : s.aof.UpTo s.seq
  early : ∀ placement ∈ s.placed, placement.records ≠ [] → placement.durable = false

theorem mem_appended {seq : Nat} (member : seq ∈ s.appended h) :
    s.seq < seq ∧ seq ≤ h.queues.journal.seq := by
  obtain ⟨above, below⟩ := List.mem_range'_1.mp member
  omega

/-- What the handler does next only adds to the journal. -/
theorem Ahead.handled (ahead : Ahead s) (grown : Handler.Grown s.seq h) : Ahead (s.withHandler h) :=
  ⟨grown.ordered, ahead.upTo.append grown.reached fun _ member => (mem_appended member).2,
    ahead.early⟩

theorem Ahead.grown (ahead : Ahead s) : Handler.Grown s.seq s.handler := ⟨ahead.ordered, Nat.le_refl _⟩

/-- A response is placed when the records of its command are still to be taken
off the queue of the writer. -/
theorem Ahead.answer {frame : Frame} {room : Bool} (ahead : Ahead s) :
    Ahead (s.answer connectionId frame room).2 := by
  have grown : Handler.Grown s.seq (s.handleFrame connectionId frame).2 := by
    cases frame with
    | command command =>
      exact (Handler.grown_kept s.seq).command ahead.grown
        (Guards.command_free (fun _ _ => rfl) (fun _ _ => rfl) (fun _ _ => rfl) fun _ _ _ _ => rfl)
    | inert => exact ahead.grown
  unfold Server.answer
  generalize s.handleFrame connectionId frame = handled at grown ⊢
  obtain ⟨success, h⟩ := handled
  dsimp only
  have after : Ahead (s.withHandler h) := ahead.handled grown
  split
  · refine ⟨after.ordered, after.upTo, fun placement member some => ?_⟩
    rcases List.mem_cons.mp member with rfl | earlier
    · obtain ⟨first, rest, shape⟩ := List.exists_cons_of_ne_nil some
      have new : first ∈ s.appended h := by
        change s.appended h = first :: rest at shape
        rw [shape]
        exact List.mem_cons_self
      have unsynced : first ∉ (s.withHandler h).aof.synced := by
        intro there
        have old := ahead.upTo.synced first there
        have fresh := (mem_appended new).1
        omega
      apply Bool.eq_false_iff.mpr
      intro durable
      exact unsynced (of_decide_eq_true (List.all_eq_true.mp durable first new))
    · exact after.early placement earlier some
  · exact after

theorem ahead_kept : Kept (fun _ _ => True) Ahead where
  frame s s' inv queues consumers _ aof placed _ := by
    refine ⟨⟨queues ▸ inv.ordered.named, consumers ▸ inv.ordered.enrolled⟩, ?_, placed ▸ inv.early⟩
    unfold Server.seq
    rw [aof, queues]
    exact inv.upTo
  answer _ _ _ _ _ inv _ _ := inv.answer
  drop s connectionId order inv _ := by
    unfold Server.drop
    split
    · have dropped : Handler.Grown s.seq (s.handler.step (.drop connectionId order)) :=
        (Handler.grown_kept s.seq).step inv.grown rfl
      have handled := inv.handled dropped
      exact ⟨handled.ordered, handled.upTo, handled.early⟩
    · exact ⟨inv.ordered, inv.upTo, inv.early⟩
  ticker s inv _ := by
    have ticked : Handler.Grown s.seq (s.handler.step .ticker) :=
      (Handler.grown_kept s.seq).step inv.grown (Guards.ticker_free (fun _ => rfl) fun _ _ => rfl)
    exact inv.handled ticked
  take s inv := ⟨inv.ordered, inv.upTo.take, inv.early⟩
  write s due inv := ⟨inv.ordered, inv.upTo.write due, inv.early⟩
  resolve s inv := ⟨inv.ordered, inv.upTo.resolve, inv.early⟩

theorem Reachable.ahead (reached : Reachable (fun _ _ => True) s) : Ahead s := by
  apply ahead_kept.reachable _ reached
  intro config clock sends fsync
  refine ⟨⟨Dict.all_empty, fun _ _ found => (nomatch found), fun _ _ found => (nomatch found)⟩,
    ⟨?_, ?_, ?_, ?_⟩, ?_⟩ <;> exact fun _ member => nomatch member

/-- No successful response to a command that appended records was placed with
these records on the disk. -/
theorem response_before_fsync (reached : Reachable (fun _ _ => True) s) :
    ∀ placement ∈ s.placed, placement.success = true → placement.records ≠ [] →
      placement.durable = false :=
  fun placement member _ some => reached.ahead.early placement member some

/-- One connection publishes, with `fsync` set to `always`. -/
def publishing : Server :=
  Systems.run Server.step (started {} (fun _ => 0) (fun _ => true) .always) [
    .accept "c1",
    .receive "c1" [.command (.publish { payload := [1], queue := some "jobs" } fun _ => ⟨"m1", 0⟩)],
    .serve true]

theorem publishing_reachable : Reachable (fun _ _ => True) publishing := by
  apply Reachable.run (.start _ _ _ _)
  simp [Systems.Allowed]

theorem response_before_fsync_publishing : ∃ placement ∈ publishing.placed,
    placement.success = true ∧ placement.records ≠ [] ∧ placement.durable = false := by
  have placed : publishing.placed ≠ [] := by decide +kernel
  obtain ⟨placement, rest, shape⟩ := List.exists_cons_of_ne_nil placed
  have some : publishing.placed.all (fun placement => placement.success && placement.records ≠ []) =
      true := by decide +kernel
  rw [shape, List.all_cons, Bool.and_eq_true, Bool.and_eq_true, decide_eq_true_eq] at some
  have member : placement ∈ publishing.placed := shape ▸ List.mem_cons_self
  exact ⟨placement, member, some.1.1, some.1.2,
    response_before_fsync publishing_reachable placement member some.1.1 some.1.2⟩

/-- The response to the PUBLISH is placed with its records in the queue of the
writer, which has not run yet. -/
theorem published_unsynced : Reachable (fun _ _ => True) publishing ∧
    publishing.aof.fsync = .always ∧ publishing.aof.queue = [1, 2, 3, 4] ∧
    publishing.aof.synced = [] ∧
    publishing.placed.map (fun placement => (placement.success, placement.records, placement.durable)) =
      [(true, [1, 2, 3, 4], false)] :=
  ⟨publishing_reachable, by decide +kernel, by decide +kernel, by decide +kernel, by decide +kernel⟩

end Server
end OneOpenBroker.Broker

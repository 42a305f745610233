import OneOpenBroker.Core.EngineRuns
import OneOpenBroker.Library.Relabel
import OneOpenBroker.Untyped.QueueEngine

/-! The typed engine seen as an untyped one. Names become texts, which are keys
of every table, numbers become numbers of JSON, and what the untyped engine does
not have is forgotten: the journal, the counters, and the fields that only they
read. How headers are spelled is left open. -/
namespace OneOpenBroker.Untyped
open Collections

theorem text_injective : Function.Injective text := by
  intro first second same
  refine String.toList_inj.mp (List.map_injective_iff.mpr (fun c d same => ?_) same)
  exact Char.ext (UInt32.toNat_inj.mp same)

theorem text_append (first second : String) : text (first ++ second) = text first ++ text second := by
  simp [text]

/-- The name of a queue. -/
def spell : String ↪ Text := ⟨text, text_injective⟩

/-- The id of a message or of a consumer. -/
def label : String ↪ Key := ⟨fun id => .text (text id), fun _ _ same => text_injective (Key.text.inj same)⟩

@[simp] theorem hash_text (id : String) : (Value.text (text id)).hash = .ok (label id) := rfl

/-! ## Names of dead-letter queues -/

@[simp] theorem isDlq_spell (queue : String) : isDlq (spell queue) = Core.isDlq queue := by
  have letters : Function.Injective (List.map Char.toNat) :=
    List.map_injective_iff.mpr fun c d same => Char.ext (UInt32.toNat_inj.mp same)
  rw [Bool.eq_iff_iff, isDlq, Core.isDlq, List.isSuffixOf_iff_suffix, List.isSuffixOf_iff_suffix,
    List.suffix_iff_eq_drop, List.suffix_iff_eq_drop]
  change List.map Char.toNat Core.dlqSuffix.toList =
    (queue.toList.map Char.toNat).drop ((queue.toList.map Char.toNat).length - _) ↔ _
  rw [← List.map_drop, letters.eq_iff, List.length_map]
  rfl

theorem spell_dlqName (queue : String) : spell (Core.dlqName queue) = dlqName (spell queue) := by
  unfold Core.dlqName dlqName
  rw [isDlq_spell]
  split
  · rfl
  · exact text_append _ _

theorem spell_originQueue (queue : String) : spell (Core.originQueue queue) = originQueue (spell queue) := by
  unfold Core.originQueue originQueue
  rw [isDlq_spell]
  split
  · change List.map Char.toNat (String.ofList _).toList = (queue.toList.map Char.toNat).take _
    rw [String.toList_ofList, List.map_take]
    change _ = (queue.toList.map Char.toNat).take ((queue.toList.map Char.toNat).length - _)
    rw [List.length_map]
    rfl
  · rfl

namespace Typed

/-! ## Records -/

section Records

variable (headers : Protocol.Json → Value)

def message (m : Core.Message) : Message where
  id := .text (text m.id)
  queue := spell m.queue
  payload := m.payload
  attempts := m.attempts.toNat
  maxAttempts := .number (.int m.maxAttempts)
  priority := m.priority
  headers := m.headers.elim .null headers
  availableAt := m.availableAt

def record (r : Core.InflightRecord) : InflightRecord :=
  ⟨label r.messageId, label r.consumerId, Moment.of r.visibilityDeadline⟩

def readyEntry (entry : Core.ReadyEntry) : ReadyEntry :=
  ⟨entry.negPriority, entry.seq, label entry.messageId⟩

def timedEntry (entry : Core.TimedEntry) : TimedEntry :=
  ⟨Moment.of entry.due, entry.seq, spell entry.queue, label entry.messageId⟩

def bound (limit : Option ℤ) : Value := limit.elim .null fun n => .number (.int n)

def spec (s : Core.QueueSpec) : QueueSpec where
  name := spell s.name
  maxLength := bound s.maxLength
  visibilityTimeout := .number (.float s.visibilityTimeout)
  maxAttempts := .number (.int s.maxAttempts)
  deadLetter := s.deadLetter

def queue (q : Core.DurableQueue) : DurableQueue where
  spec := spec q.spec
  ready := q.ready.map readyEntry
  delayedIds := q.delayedIds.map label
  inflight := q.inflight.relabel label record
  dlqIds := q.dlqIds.map label
  messages := q.messages.relabel label (message headers)
  consumerIds := q.consumerIds.map label
  rrIndex := q.rrIndex

def engine (e : Core.QueueEngine) : QueueEngine where
  config := e.config
  clock := e.clock
  reads := e.reads
  queues := e.queues.relabel spell (queue headers)
  byId := e.byId.relabel label spell
  recentAcks := e.recentAcks.map label
  seq := e.seq
  visibilityHeap := e.visibilityHeap.map timedEntry
  delayed := e.delayed.map timedEntry

def args (a : Core.QueueArgs) : QueueArgs where
  maxLength := bound a.maxLength
  visibilityTimeout := a.visibilityTimeout.elim .null fun q => .number (.float q)
  maxAttempts := bound a.maxAttempts

end Records

/-! ## Heaps -/

@[simp] theorem moment_le {a b : ℚ} : Moment.of a ≤ Moment.of b ↔ a ≤ b := by
  unfold Moment.of
  rw [WithBot.coe_le_coe, WithTop.coe_le_coe]

@[simp] theorem moment_lt {a b : ℚ} : Moment.of a < Moment.of b ↔ a < b := by
  unfold Moment.of
  rw [WithBot.coe_lt_coe, WithTop.coe_lt_coe]

@[simp] theorem moment_inj {a b : ℚ} : Moment.of a = Moment.of b ↔ a = b := by
  unfold Moment.of
  rw [WithBot.coe_inj, WithTop.coe_inj]

theorem readyEntry_le {a b : Core.ReadyEntry} : (readyEntry a).le (readyEntry b) ↔ a.le b := Iff.rfl

theorem timedEntry_le {a b : Core.TimedEntry} : (timedEntry a).le (timedEntry b) ↔ a.le b := by
  simp [TimedEntry.le, Core.TimedEntry.le, timedEntry]

theorem map_pushReady {entry : Core.ReadyEntry} {heap : List Core.ReadyEntry} :
    (Core.heappush Core.ReadyEntry.le entry heap).map readyEntry =
      Core.heappush ReadyEntry.le (readyEntry entry) (heap.map readyEntry) :=
  List.map_orderedInsert _ _ _ _ _ (fun _ _ => readyEntry_le.symm) fun _ _ => readyEntry_le.symm

theorem map_heapify {entries : List Core.ReadyEntry} :
    (Core.heapify Core.ReadyEntry.le entries).map readyEntry =
      Core.heapify ReadyEntry.le (entries.map readyEntry) :=
  List.map_insertionSort _ _ _ _ fun _ _ _ _ => readyEntry_le.symm

theorem map_pushTimed {entry : Core.TimedEntry} {heap : List Core.TimedEntry} :
    (Core.heappush Core.TimedEntry.le entry heap).map timedEntry =
      Core.heappush TimedEntry.le (timedEntry entry) (heap.map timedEntry) :=
  List.map_orderedInsert _ _ _ _ _ (fun _ _ => timedEntry_le.symm) fun _ _ => timedEntry_le.symm

end Typed
end OneOpenBroker.Untyped

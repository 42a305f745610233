import Mathlib.Data.List.Infix

/-! Dead-letter queue naming. A queue's DLQ is the queue whose name carries
the suffix; a name that already ends in the suffix is its own DLQ name. -/
namespace OneOpenBroker.Core

def dlqSuffix : String := ".DLQ"

/-- `str.endswith` for the suffix. -/
def isDlq (queue : String) : Bool := dlqSuffix.toList.isSuffixOf queue.toList

def dlqName (queue : String) : String := if isDlq queue then queue else queue ++ dlqSuffix

/-- The slice `dlq[: -len(DLQ_SUFFIX)]` of a DLQ name; other names are kept. -/
def originQueue (dlq : String) : String :=
  if isDlq dlq then String.ofList (dlq.toList.take (dlq.toList.length - dlqSuffix.toList.length))
  else dlq

variable {queue first second : String}

theorem isDlq_iff : isDlq queue = true ↔ ∃ stem : String, queue = stem ++ dlqSuffix := by
  rw [isDlq, List.isSuffixOf_iff_suffix]
  constructor
  · rintro ⟨stem, whole⟩
    refine ⟨String.ofList stem, String.toList_inj.mp ?_⟩
    rw [String.toList_append, String.toList_ofList, whole]
  · rintro ⟨stem, rfl⟩
    exact ⟨stem.toList, (String.toList_append).symm⟩

@[simp] theorem isDlq_dlqName (queue : String) : isDlq (dlqName queue) = true := by
  rw [dlqName]
  split
  · assumption
  · exact isDlq_iff.mpr ⟨queue, rfl⟩

/-- Naming a DLQ twice names the same queue: deleting or declaring a DLQ
never reaches a third queue. -/
@[simp] theorem dlqName_dlqName (queue : String) : dlqName (dlqName queue) = dlqName queue := by
  rw [dlqName, if_pos (isDlq_dlqName queue)]

theorem dlqName_of_plain (plain : isDlq queue = false) : dlqName queue = queue ++ dlqSuffix := by
  simp [dlqName, plain]

/-- A queue without the suffix is no queue's DLQ. -/
theorem ne_dlqName (plain : isDlq first = false) : first ≠ dlqName second := by
  rintro rfl
  rw [isDlq_dlqName] at plain
  cases plain

theorem dlqName_ne (plain : isDlq queue = false) : dlqName queue ≠ queue := (ne_dlqName plain).symm

/-- Two plain queues never share a DLQ. -/
theorem dlqName_injective (plain : isDlq first = false) (plain' : isDlq second = false)
    (same : dlqName first = dlqName second) : first = second := by
  rw [dlqName_of_plain plain, dlqName_of_plain plain'] at same
  have letters := congrArg String.toList same
  rw [String.toList_append, String.toList_append] at letters
  exact String.toList_inj.mp (List.append_cancel_right letters)

theorem originQueue_of_plain (plain : isDlq queue = false) : originQueue queue = queue := by
  simp [originQueue, plain]

end OneOpenBroker.Core

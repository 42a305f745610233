import OneOpenBroker.Core.Heaps
import OneOpenBroker.Library.Heapq

/-! Visibility timeouts that are no numbers. `json.loads` reads the word NaN, so
a queue can be declared with a visibility timeout that is NaN. Here the deadlines
are floats, compared as Python compares them, and the visibility heap is laid out
as `heapq` lays it out; all else is the engine's. With numbers only, the two
engines do the same. -/
namespace OneOpenBroker.Core
open Collections Systems Heapq

/-- A float that is finite or NaN. -/
inductive Seconds where
  | nan
  | num (q : ℚ)
  deriving DecidableEq

namespace Seconds

/-- `==`, by which NaN is nothing. -/
def eq : Seconds → Seconds → Bool
  | num a, num b => a = b
  | _, _ => false

def lt : Seconds → Seconds → Bool
  | num a, num b => a < b
  | _, _ => false

def le : Seconds → Seconds → Bool
  | num a, num b => a ≤ b
  | _, _ => false

end Seconds

/-- An entry `(deadline, seq, queue, message_id)` of the visibility heap. -/
structure Alarm where
  due : Seconds
  seq : Nat
  queue : String
  messageId : String

/-- Tuples are compared where they first differ. No two sequence numbers are the
same. -/
def Alarm.lt (a b : Alarm) : Bool := if a.due.eq b.due then a.seq < b.seq else a.due.lt b.due

/-- An engine of which some queues have NaN for their visibility timeout. The
deadlines of their deliveries, and the heap of the engine, are not looked at. -/
structure FloatEngine where
  core : QueueEngine
  nans : List String := []
  heap : List Alarm := []

/-- The operations of the engine, and a declaration with NaN. -/
inductive FloatOp where
  | declareNan (name : String) (args : QueueArgs)
  | engine (op : QueueEngine.EngineOp)

namespace FloatEngine

/-- A deadline of a delivery from a queue. -/
def deadline (f : FloatEngine) (queueName : String) (due : ℚ) : Seconds :=
  if queueName ∈ f.nans then .nan else .num due

def alarm (f : FloatEngine) (entry : TimedEntry) : Alarm where
  due := f.deadline entry.queue entry.due
  seq := entry.seq
  queue := entry.queue
  messageId := entry.messageId

/-- After an operation of the engine, what it pushed on its heap is pushed on
this one. -/
def absorb (f : FloatEngine) (core : QueueEngine) : FloatEngine where
  core := core.withHeap []
  nans := f.nans.filter (· ∈ core.queues)
  heap := core.visibilityHeap.foldl (fun heap entry => Heapq.heappush Alarm.lt heap (f.alarm entry)) f.heap

/-- `declare_queue` with NaN, which the DLQ gets too. -/
def declareNan (f : FloatEngine) (name : String) (args : QueueArgs) (persist : Bool) : FloatEngine :=
  let core := f.core.declareQueue name { args with visibilityTimeout := some 0 } persist
  { f with core, nans := f.nans ++ core.queues.keys.filter (· ∉ f.core.queues) }

/-- `_timeout_inflight`, for at most so many rounds. -/
def timeoutLoop (now : ℚ) : Nat → FloatEngine → FloatEngine
  | 0, f => f
  | fuel + 1, f =>
    match heappop Alarm.lt f.heap with
    | none => f
    | some (entry, heap) =>
      if entry.due.le (.num now) then
        let f := { f with heap }
        match f.core.record? entry.queue entry.messageId with
        | none => timeoutLoop now fuel f
        | some record =>
          if (f.deadline entry.queue record.visibilityDeadline).eq entry.due then
            timeoutLoop now fuel
              { f with core := (f.core.failDelivery entry.queue entry.messageId true).2 }
          else timeoutLoop now fuel f
      else f

def tick (f : FloatEngine) (now : Option ℚ) : FloatEngine :=
  let (ts, core) := match now with
    | none => f.core.now
    | some ts => (ts, f.core)
  timeoutLoop ts f.heap.length { f with core := (core.releaseDelayed ts).2 }

def step (persist : Bool) (f : FloatEngine) : FloatOp → FloatEngine
  | .declareNan name args => f.declareNan name args persist
  | .engine (.tick now) => f.tick now
  | .engine op => f.absorb (f.core.step persist op)

end FloatEngine

/-! ## Numbers -/

/-- The comparison of heap entries with numbers for deadlines. -/
def TimedEntry.before (a b : TimedEntry) : Bool := if a.due = b.due then a.seq < b.seq else a.due < b.due

def Alarm.of (entry : TimedEntry) : Alarm := ⟨.num entry.due, entry.seq, entry.queue, entry.messageId⟩

theorem Alarm.lt_of (a b : TimedEntry) : Alarm.lt (.of a) (.of b) = a.before b := by
  by_cases same : a.due = b.due <;> simp [Alarm.lt, Alarm.of, TimedEntry.before, Seconds.eq, Seconds.lt, same]

theorem TimedEntry.before_false {a b : TimedEntry} : b.before a = false ↔ a.le b := by
  unfold TimedEntry.before TimedEntry.le
  rcases lt_trichotomy a.due b.due with early | same | late
  · simp [early, early.ne', early.le]
  · simp [same]
  · simp [late, late.ne, late.ne', late.not_gt]

theorem TimedEntry.comparison : Comparison TimedEntry.before where
  asymm a b before := by
    rcases total_of TimedEntry.le a b with le | le
    · exact before_false.mpr le
    · rw [before_false.mpr le] at before
      cases before
  trans a b c first second :=
    before_false.mpr (trans_of TimedEntry.le (before_false.mp first) (before_false.mp second))

theorem TimedEntry.before_true {a b : TimedEntry} (le : a.le b) (differ : a.seq ≠ b.seq) :
    a.before b = true := by
  cases before : a.before b with
  | true => rfl
  | false =>
    rcases le with early | ⟨same, older⟩
    · rw [TimedEntry.before, if_neg early.ne, decide_eq_true early] at before
      cases before
    · rw [TimedEntry.before, if_pos same, decide_eq_true (lt_of_le_of_ne older differ)] at before
      cases before

namespace FloatEngine

/-- An engine of floats that does what an engine does: its heap is another
arrangement of the same entries. -/
structure Shows (f : FloatEngine) (e : QueueEngine) : Prop where
  core : f.core = e.withHeap []
  numbers : f.nans = []
  heap : ∃ raw : List TimedEntry, f.heap = raw.map .of ∧ Ordered TimedEntry.before raw ∧
    raw.Perm e.visibilityHeap

variable {f : FloatEngine} {e : QueueEngine} {persist : Bool} {ts : ℚ}

theorem alarm_of (numbers : f.nans = []) (entry : TimedEntry) : f.alarm entry = .of entry := by
  simp [alarm, deadline, numbers, Alarm.of]

theorem Shows.absorb (shows : Shows f e) {op : QueueEngine.EngineOp} (other : ∀ now, op ≠ .tick now) :
    Shows (f.absorb (f.core.step persist op)) (e.step persist op) := by
  obtain ⟨raw, heap, ordered, same⟩ := shows.heap
  have self : e.withHeap e.visibilityHeap = e := rfl
  rcases QueueEngine.step_withHeap e other with blind | ⟨entry, pushes⟩
  · have shape := blind e.visibilityHeap
    rw [self] at shape
    refine ⟨?_, by simp [FloatEngine.absorb, shows.numbers], raw, ?_, ordered, ?_⟩
    · rw [FloatEngine.absorb, shows.core, blind]
      rfl
    · rw [FloatEngine.absorb, shows.core, blind]
      exact heap
    · rw [shape]
      exact same
  · have shape := pushes e.visibilityHeap
    rw [self] at shape
    refine ⟨?_, by simp [FloatEngine.absorb, shows.numbers], Heapq.heappush TimedEntry.before raw entry, ?_,
      heappush_ordered TimedEntry.comparison ordered entry, ?_⟩
    · rw [FloatEngine.absorb, shows.core, pushes]
      rfl
    · rw [FloatEngine.absorb, shows.core, pushes]
      change Heapq.heappush Alarm.lt f.heap (f.alarm entry) = _
      rw [heap, alarm_of shows.numbers, heappush_map Alarm.lt_of]
    · rw [shape]
      exact heappush_perm.trans ((same.cons entry).trans (List.perm_orderedInsert _ _ _).symm)

/-- The loop takes the entries in their order, whatever their arrangement. -/
theorem timeoutLoop_shows {entries raw : List TimedEntry} {fuel : Nat}
    (sorted : entries.Pairwise fun a b => a.before b = true) (core : f.core = e.withHeap [])
    (numbers : f.nans = []) (heap : f.heap = raw.map .of) (ordered : Ordered TimedEntry.before raw)
    (same : raw.Perm entries) (enough : entries.length ≤ fuel) :
    Shows (timeoutLoop ts fuel f) (QueueEngine.timeoutEntries ts entries e).2 := by
  induction entries generalizing f e raw fuel with
  | nil =>
    have empty : f.heap = [] := by rw [heap, same.eq_nil, List.map_nil]
    have stays : timeoutLoop ts fuel f = f := by
      cases fuel with
      | zero => rfl
      | succ fuel =>
        unfold timeoutLoop
        rw [empty]
        rfl
    rw [stays]
    exact ⟨core, numbers, [], empty, .nil, .refl _⟩
  | cons entry rest ih =>
    obtain ⟨least, sorted⟩ := List.pairwise_cons.mp sorted
    obtain ⟨raw', popped, same', ordered'⟩ := heappop_min TimedEntry.comparison ordered same least
    obtain ⟨fuel, rfl⟩ : ∃ more, fuel = more + 1 := ⟨fuel - 1, by simp at enough; omega⟩
    have enough' : rest.length ≤ fuel := by simpa using enough
    have taken : heappop Alarm.lt f.heap = some (.of entry, raw'.map .of) := by
      rw [heap, heappop_map Alarm.lt_of, popped]
      rfl
    have records : f.core.record? entry.queue entry.messageId =
        (e.queues.get? entry.queue).bind (·.inflight.get? entry.messageId) := by
      rw [core]
      rfl
    unfold timeoutLoop QueueEngine.timeoutEntries
    rw [taken]
    dsimp only [Alarm.of]
    rw [records]
    by_cases due : entry.due ≤ ts
    · rw [if_pos (show Seconds.le (.num entry.due) (.num ts) = true from decide_eq_true due), if_pos due]
      cases (e.queues.get? entry.queue).bind (·.inflight.get? entry.messageId) with
      | none => exact ih sorted core numbers rfl ordered' same' enough'
      | some record =>
        have deadline : deadline { f with heap := raw'.map .of } entry.queue record.visibilityDeadline =
            .num record.visibilityDeadline := by simp [FloatEngine.deadline, numbers]
        dsimp only
        rw [deadline]
        by_cases kept : record.visibilityDeadline = entry.due
        · rw [if_pos kept, if_pos (by simp [Seconds.eq, kept])]
          refine ih sorted ?_ numbers rfl ordered' same' enough'
          rw [core, QueueEngine.failDelivery_withHeap]
        · rw [if_neg kept, if_neg (by simpa [Seconds.eq] using kept)]
          exact ih sorted core numbers rfl ordered' same' enough'
    · rw [if_neg (show ¬ Seconds.le (.num entry.due) (.num ts) = true by simpa [Seconds.le] using due), if_neg due]
      exact ⟨core, numbers, raw, heap, ordered, same⟩

theorem Shows.tick (shows : Shows f e) (ordered : e.Ordered) (numbered : e.Numbered) (now : Option ℚ) :
    Shows (f.tick now) (e.tick now).2 := by
  have sorted : e.visibilityHeap.Pairwise fun a b => a.before b = true :=
    List.Pairwise.imp₂ (fun _ _ le differ => TimedEntry.before_true le differ) ordered numbered.differ
  obtain ⟨raw, heap, arranged, same⟩ := shows.heap
  have enough : e.visibilityHeap.length ≤ f.heap.length := by
    rw [heap, List.length_map, same.length_eq]
  have swept (ts : ℚ) (base : QueueEngine) (same' : base.visibilityHeap = e.visibilityHeap) :
      Shows (timeoutLoop ts f.heap.length { f with core := ((base.withHeap []).releaseDelayed ts).2 })
        ((base.releaseDelayed ts).2.timeoutInflight ts).2 := by
    have kept : (base.releaseDelayed ts).2.visibilityHeap = e.visibilityHeap :=
      QueueEngine.releaseDelayed_heap.trans same'
    rw [QueueEngine.timeoutInflight, kept]
    refine timeoutLoop_shows sorted ?_ shows.numbers heap arranged same enough
    rw [QueueEngine.releaseDelayed_withHeap]
  cases now with
  | none =>
    have read := swept e.now.1 e.now.2 rfl
    unfold FloatEngine.tick
    rw [shows.core]
    exact read
  | some ts =>
    have read := swept ts e rfl
    unfold FloatEngine.tick
    rw [shows.core]
    exact read

/-- **Floats that are numbers.** Without NaN the heap of deadlines, laid out as
`heapq` does, serves every run of operations as the ordered list does. -/
theorem numbers_agree (config : EngineConfig) (clock : Nat → ℚ) (persist : Bool)
    (ops : List QueueEngine.EngineOp) :
    Shows (run (step persist) { core := { config, clock } } (ops.map .engine))
      (run (QueueEngine.step persist) { config, clock } ops) := by
  have runs (ops : List QueueEngine.EngineOp) (f : FloatEngine) (e : QueueEngine) (shows : Shows f e)
      (reached : QueueEngine.Reachable QueueEngine.Anything e) (numbered : e.Numbered) :
      Shows (run (step persist) f (ops.map .engine)) (run (QueueEngine.step persist) e ops) := by
    induction ops generalizing f e with
    | nil => exact shows
    | cons op rest ih =>
      refine ih _ _ ?_ (reached.step persist op trivial) (QueueEngine.step_numbered numbered op)
      by_cases ticks : ∃ now, op = .tick now
      · obtain ⟨now, rfl⟩ := ticks
        exact shows.tick reached.ordered numbered now
      · have other (now : Option ℚ) : op ≠ .tick now := fun same => ticks ⟨now, same⟩
        have absorbs : step persist f (.engine op) = f.absorb (f.core.step persist op) := by
          cases op <;> first | rfl | exact absurd rfl (other _)
        rw [absorbs]
        exact shows.absorb other
  exact runs ops _ _ ⟨rfl, rfl, [], rfl, .nil, .refl _⟩ (.start config clock)
    ⟨List.Pairwise.nil, fun _ none => by cases none⟩

/-! ## NaN -/

/-- Two queues of which one has NaN for its visibility timeout, and a delivery
from each. -/
def nanRun : List FloatOp := [
  .declareNan "a" {},
  .engine (.declareQueue "b" { visibilityTimeout := some 5 }),
  .engine (.enqueue { id := "m1", queue := "a", payload := [1], createdAt := 0 }),
  .engine (.enqueue { id := "m2", queue := "b", payload := [2], createdAt := 0 }),
  .engine (.reserve "a" "worker"),
  .engine (.reserve "b" "worker")]

/-- The entry without a number is the first of the heap, and keeps the overdue
delivery of the other queue from timing out. -/
theorem nan_blocks_timeouts :
    let f := (run (step true) { core := QueueEngine.created } nanRun).tick (some 1000)
    f.heap.map (·.due) = [.nan, .num 5] ∧ "b" ∉ f.nans ∧
      (f.core.record? "b" "m2").map (·.visibilityDeadline) = some 5 ∧ (5 : ℚ) ≤ 1000 := by
  refine ⟨by decide +kernel, by decide +kernel, by decide +kernel, by decide +kernel⟩

end FloatEngine
end OneOpenBroker.Core

import OneOpenBroker.Core.QueueEngine

/-! What one call of the engine can do. The engine is observed through four
tables: the spec of a queue, the message a queue holds under an id, the
inflight record it has for an id, and the index from ids to queues. Every
operation gets one lemma for each table it touches, and every property of
the queues one by one gets a preservation rule for each composite operation,
so that later proofs never unfold the engine. -/
namespace OneOpenBroker.Core.QueueEngine
open Collections

def spec? (e : QueueEngine) (name : String) : Option QueueSpec := (e.queues.get? name).map (·.spec)

/-- The message that a queue holds under an id. -/
def message? (e : QueueEngine) (name id : String) : Option Message :=
  (e.queues.get? name).bind (·.messages.get? id)

/-- The delivery that a queue has outstanding for an id. -/
def record? (e : QueueEngine) (name id : String) : Option InflightRecord :=
  (e.queues.get? name).bind (·.inflight.get? id)

/-- Some queue holds a message under the id. -/
def Held (e : QueueEngine) (id : String) : Prop := ∃ name message, e.message? name id = some message

/-- The message is held with this payload. -/
def HeldWith (e : QueueEngine) (id : String) (payload : List UInt8) : Prop :=
  ∃ name message, e.message? name id = some message ∧ message.payload = payload

variable {e : QueueEngine} {name q id m : String} {queue : DurableQueue} {message msg : Message}
  {persist : Bool} {op : JournalOp} {P : String → DurableQueue → Prop}

theorem message?_some : e.message? name id = some message ↔
    ∃ queue, e.queues.get? name = some queue ∧ queue.messages.get? id = some message :=
  Option.bind_eq_some_iff

theorem record?_some {record : InflightRecord} : e.record? name id = some record ↔
    ∃ queue, e.queues.get? name = some queue ∧ queue.inflight.get? id = some record :=
  Option.bind_eq_some_iff

theorem spec?_some {spec : QueueSpec} :
    e.spec? name = some spec ↔ ∃ queue, e.queues.get? name = some queue ∧ queue.spec = spec :=
  Option.map_eq_some_iff

/-! ## Frame rules of the elementary updates -/

@[simp] theorem append_queues : (e.append persist op).queues = e.queues := by
  cases persist <;> rfl

@[simp] theorem append_byId : (e.append persist op).byId = e.byId := by
  cases persist <;> rfl

@[simp] theorem append_config : (e.append persist op).config = e.config := by
  cases persist <;> rfl

@[simp] theorem append_recentAcks : (e.append persist op).recentAcks = e.recentAcks := by
  cases persist <;> rfl

@[simp] theorem append_visibilityHeap : (e.append persist op).visibilityHeap = e.visibilityHeap := by
  cases persist <;> rfl

@[simp] theorem append_delayed : (e.append persist op).delayed = e.delayed := by
  cases persist <;> rfl

@[simp] theorem append_seq : (e.append persist op).seq = e.seq := by
  cases persist <;> rfl

@[simp] theorem append_false : e.append false op = e := rfl

/-- What one call of `append` adds to the journal. -/
def journaled (persist : Bool) (op : JournalOp) : List JournalOp := if persist then [op] else []

@[simp] theorem journaled_true : journaled true op = [op] := rfl

@[simp] theorem journaled_false : journaled false op = [] := rfl

@[simp] theorem append_ops :
    (e.append persist op).journal.ops = e.journal.ops ++ journaled persist op := by
  cases persist with
  | true => exact Journal.ops_append _ _
  | false => exact (List.append_nil _).symm

theorem queues_ext {e' : QueueEngine} (same : e'.queues = e.queues) :
    e'.spec? = e.spec? ∧ e'.message? = e.message? ∧ e'.record? = e.record? := by
  unfold spec? message? record?
  rw [same]
  exact ⟨rfl, rfl, rfl⟩

@[simp] theorem message?_append : (e.append persist op).message? = e.message? :=
  (queues_ext append_queues).2.1

@[simp] theorem record?_append : (e.append persist op).record? = e.record? :=
  (queues_ext append_queues).2.2

@[simp] theorem spec?_append : (e.append persist op).spec? = e.spec? :=
  (queues_ext append_queues).1

/-- Storing one queue changes what is read under its name only. -/
theorem message?_of_set {e' : QueueEngine} (stored : e'.queues = e.queues.set name queue) :
    e'.message? q m = if q = name then queue.messages.get? m else e.message? q m := by
  unfold message?
  rw [stored, Dict.get?_set]
  split <;> rfl

theorem record?_of_set {e' : QueueEngine} (stored : e'.queues = e.queues.set name queue) :
    e'.record? q m = if q = name then queue.inflight.get? m else e.record? q m := by
  unfold record?
  rw [stored, Dict.get?_set]
  split <;> rfl

theorem spec?_of_set {e' : QueueEngine} (stored : e'.queues = e.queues.set name queue) :
    e'.spec? q = if q = name then some queue.spec else e.spec? q := by
  unfold spec?
  rw [stored, Dict.get?_set]
  split <;> rfl

theorem message?_of_get (found : e.queues.get? name = some queue) :
    e.message? name m = queue.messages.get? m := by
  simp [message?, found]

theorem record?_of_get (found : e.queues.get? name = some queue) :
    e.record? name m = queue.inflight.get? m := by
  simp [record?, found]

theorem spec?_of_get (found : e.queues.get? name = some queue) :
    e.spec? name = some queue.spec := by
  simp [spec?, found]

/-! ## Declaring and deleting -/

variable {args : QueueArgs} {e' : QueueEngine}

/-- A queue that is stored empty under a new name holds nothing. -/
theorem observe_fresh {spec : QueueSpec} (absent : name ∉ e.queues)
    (stored : e'.queues = e.queues.set name { spec }) :
    e'.message? = e.message? ∧ e'.record? = e.record? := by
  have nothing := Dict.get?_eq_none.mpr absent
  constructor <;> funext q m
  · rw [message?_of_set stored]
    split
    · rename_i same; subst same; simp [message?, nothing]
    · rfl
  · rw [record?_of_set stored]
    split
    · rename_i same; subst same; simp [record?, nothing]
    · rfl

theorem declareLeaf_queues : (e.declareLeaf name args persist).queues =
    if name ∈ e.queues then e.queues
    else e.queues.set name { spec := e.makeSpec name { args with deadLetter := false } } := by
  unfold declareLeaf
  split <;> simp [putQueue]

theorem declareLeaf_observe : (e.declareLeaf name args persist).message? = e.message? ∧
    (e.declareLeaf name args persist).record? = e.record? := by
  by_cases known : name ∈ e.queues
  · simp [declareLeaf, known]
  · exact observe_fresh known (by rw [declareLeaf_queues, if_neg known])

theorem declareLeaf_spec? : (e.declareLeaf name args persist).spec? q =
    if q = name ∧ name ∉ e.queues then some (e.makeSpec name { args with deadLetter := false })
    else e.spec? q := by
  by_cases known : name ∈ e.queues
  · simp [declareLeaf, known]
  · rw [spec?_of_set (e := e) (by rw [declareLeaf_queues, if_neg known])]
    simp [known]

/-- Everything but the queues and the journal survives a declaration. -/
theorem declareLeaf_frame (e : QueueEngine) (name : String) (args : QueueArgs) (persist : Bool) :
    (e.declareLeaf name args persist).byId = e.byId ∧
    (e.declareLeaf name args persist).visibilityHeap = e.visibilityHeap ∧
    (e.declareLeaf name args persist).delayed = e.delayed ∧
    (e.declareLeaf name args persist).config = e.config ∧
    (e.declareLeaf name args persist).recentAcks = e.recentAcks := by
  unfold declareLeaf
  split <;> simp [putQueue]

theorem declareLeaf_seq : (e.declareLeaf name args persist).seq = e.seq := by
  unfold declareLeaf
  split
  · rfl
  · rw [append_seq]
    rfl

theorem all_declareLeaf (all : Dict.All P e.queues)
    (fresh : P name { spec := e.makeSpec name { args with deadLetter := false } }) :
    Dict.All P (e.declareLeaf name args persist).queues := by
  rw [declareLeaf_queues]
  split
  · exact all
  · exact all.set fresh

/-- The leaf that a declaration adds after its own queue. -/
def leafArgs (spec : QueueSpec) : QueueArgs :=
  { visibilityTimeout := some spec.visibilityTimeout, maxAttempts := some 1 }

theorem declareQueue_eq : e.declareQueue name args persist =
    if name ∈ e.queues then e
    else
      let spec := e.makeSpec name args
      append (if spec.deadLetter then
          (e.putQueue name { spec }).declareLeaf (dlqName name) (leafArgs spec) persist
        else e.putQueue name { spec }) persist (declareRecord spec args.durable) := rfl

theorem declareQueue_observe : (e.declareQueue name args persist).message? = e.message? ∧
    (e.declareQueue name args persist).record? = e.record? := by
  rw [declareQueue_eq]
  split
  · exact ⟨rfl, rfl⟩
  · rename_i unknown
    have stored := observe_fresh unknown
      (show (e.putQueue name { spec := e.makeSpec name args }).queues = _ from rfl)
    simp only [message?_append, record?_append]
    split
    · exact ⟨declareLeaf_observe.1.trans stored.1, declareLeaf_observe.2.trans stored.2⟩
    · exact stored

theorem declareQueue_frame (e : QueueEngine) (name : String) (args : QueueArgs) (persist : Bool) :
    (e.declareQueue name args persist).byId = e.byId ∧
    (e.declareQueue name args persist).visibilityHeap = e.visibilityHeap ∧
    (e.declareQueue name args persist).delayed = e.delayed ∧
    (e.declareQueue name args persist).config = e.config ∧
    (e.declareQueue name args persist).recentAcks = e.recentAcks := by
  rw [declareQueue_eq]
  split
  · simp
  · simp only [append_byId, append_visibilityHeap, append_delayed, append_config, append_recentAcks]
    split
    · exact declareLeaf_frame _ _ _ _
    · simp [putQueue]

theorem all_declareQueue (all : Dict.All P e.queues)
    (fresh : ∀ spec : QueueSpec, (spec.deadLetter = true → isDlq spec.name = false) →
      P spec.name { spec }) :
    Dict.All P (e.declareQueue name args persist).queues := by
  have plain : (e.makeSpec name args).deadLetter = true → isDlq name = false := by
    simp [makeSpec]
  rw [declareQueue_eq]
  split
  · exact all
  · have stored : Dict.All P (e.putQueue name { spec := e.makeSpec name args }).queues :=
      all.set (fresh _ plain)
    rw [append_queues]
    split
    · exact all_declareLeaf stored (fresh (makeSpec _ _ _) fun on => absurd on (by simp [makeSpec]))
    · exact stored

/-- The queues that `delete_queue` takes out: the named one and, with
dead-lettering on, its DLQ. -/
def Deletes (e : QueueEngine) (name q : String) : Prop :=
  q = name ∨ q = dlqName name ∧ ∃ spec, e.spec? name = some spec ∧ spec.deadLetter = true

theorem removeQueue_queues :
    (e.removeQueue name queue persist).queues = e.queues.erase name := by
  simp [removeQueue]

theorem deleteLeaf_queues :
    ((e.deleteLeaf name persist).queues.get? q) = if q = name then none else e.queues.get? q := by
  unfold deleteLeaf
  cases found : e.queues.get? name with
  | none =>
    by_cases same : q = name
    · subst same; simp [found]
    · simp [same]
  | some queue => rw [removeQueue_queues, Dict.get?_erase]

open Classical in
theorem deleteQueue_queues : (e.deleteQueue name persist).2.queues.get? q =
    if e.Deletes name q then none else e.queues.get? q := by
  unfold deleteQueue Deletes
  cases found : e.queues.get? name with
  | none =>
    by_cases same : q = name
    · subst same; simp [found]
    · simp [same, spec?, found]
  | some queue =>
    have known : e.spec? name = some queue.spec := spec?_of_get found
    by_cases marked : queue.spec.deadLetter = true
    · by_cases first : q = name <;> by_cases second : q = dlqName name <;>
        simp [deleteLeaf_queues, removeQueue_queues, marked, known, first, second]
    · by_cases first : q = name <;>
        simp [removeQueue_queues, marked, known, first]

open Classical in
theorem deleteQueue_message? : (e.deleteQueue name persist).2.message? q m =
    if e.Deletes name q then none else e.message? q m := by
  unfold message?
  rw [deleteQueue_queues]
  split <;> rfl

open Classical in
theorem deleteQueue_record? : (e.deleteQueue name persist).2.record? q m =
    if e.Deletes name q then none else e.record? q m := by
  unfold record?
  rw [deleteQueue_queues]
  split <;> rfl

open Classical in
theorem deleteQueue_spec? : (e.deleteQueue name persist).2.spec? q =
    if e.Deletes name q then none else e.spec? q := by
  unfold spec?
  rw [deleteQueue_queues]
  split <;> rfl

theorem deleteLeaf_frame (e : QueueEngine) (name : String) (persist : Bool) :
    (e.deleteLeaf name persist).visibilityHeap = e.visibilityHeap ∧
    (e.deleteLeaf name persist).delayed = e.delayed ∧
    (e.deleteLeaf name persist).config = e.config := by
  unfold deleteLeaf
  split <;> simp [removeQueue]

theorem deleteQueue_frame (e : QueueEngine) (name : String) (persist : Bool) :
    (e.deleteQueue name persist).2.visibilityHeap = e.visibilityHeap ∧
    (e.deleteQueue name persist).2.delayed = e.delayed ∧
    (e.deleteQueue name persist).2.config = e.config := by
  unfold deleteQueue
  split
  · simp
  · dsimp only
    split
    · obtain ⟨heap, delayed, config⟩ :=
        deleteLeaf_frame (e.removeQueue name ‹_› persist) (dlqName name) persist
      rw [heap, delayed, config]
      simp [removeQueue]
    · simp [removeQueue]

theorem all_deleteQueue (all : Dict.All P e.queues) :
    Dict.All P (e.deleteQueue name persist).2.queues := by
  classical
  intro q queue found
  rw [deleteQueue_queues] at found
  split at found
  · cases found
  · exact all q queue found

end OneOpenBroker.Core.QueueEngine

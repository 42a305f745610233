import OneOpenBroker.Persistence.Ledger

/-! What recovery rebuilds. The copy that is replayed from the journal is
compared with the live engine record by record: every live message has a copy
with the same contents, in its own queue or in the queue it was dead-lettered
from, and a message that was neither acknowledged nor failed since it was
filed is in the copy exactly as it is live. -/
namespace OneOpenBroker.Persistence
open Collections Systems OneOpenBroker.Core QueueEngine RoutingEngine

/-- The part of a message that no failure and no requeue changes. -/
def content (message : Message) : Message :=
  { message with queue := "", attempts := 0, availableAt := none }

/-- The copy has the message in its queue, or in the queue whose DLQ that is. -/
def Kept (live copy : QueueEngine) (q m : String) (message : Message) : Prop :=
  ∃ origin kept, copy.message? origin m = some kept ∧ content kept = content message ∧
    (origin = q ∨ q = dlqName origin ∧ ∃ spec, live.spec? origin = some spec ∧ spec.deadLetter = true)

/-- The copy that a journal rebuilds, against the live engine that wrote it. -/
structure Covers (live copy : QueueEngine) (ledger : Ledger) : Prop where
  calm : Calm copy
  filed : Traced ledger.filed copy
  config : copy.config = live.config
  limit : ∀ q, (copy.spec? q).elim live.config.maxLength (·.maxLength) = ledger.limit q
  known : ∀ q spec, copy.spec? q = some spec →
    ∃ spec', live.spec? q = some spec' ∧ spec'.deadLetter = spec.deadLetter
  extra : ∀ q, (live.spec? q).isSome → copy.spec? q = none → isDlq q = true
  plain : ∀ q spec, live.spec? q = some spec → spec.deadLetter = true → isDlq q = false
  held : ∀ q m message, live.message? q m = some message → Kept live copy q m message
  settled : ∀ m, m ∉ ledger.troubled → ∀ q, live.message? q m = copy.message? q m

variable {live live' copy copy' : QueueEngine} {ledger : Ledger} {q m id name : String}
  {message : Message} {spec : QueueSpec}

theorem content_inj {first second : Message} (pristine : Pristine first) (pristine' : Pristine second)
    (same : first.queue = second.queue) (body : content first = content second) : first = second := by
  obtain ⟨a, b, c, d, attempts, f, g, h, due, j, k⟩ := first
  obtain ⟨a', b', c', d', attempts', f', g', h', due', j', k'⟩ := second
  obtain ⟨rfl, rfl⟩ := pristine
  obtain ⟨attempted, awake⟩ := pristine'
  simp only [content, Message.mk.injEq] at body same attempted awake ⊢
  obtain ⟨rfl, _, rfl, rfl, _, rfl, rfl, rfl, _, rfl, rfl⟩ := body
  exact ⟨rfl, same, rfl, rfl, attempted.symm, rfl, rfl, rfl, awake.symm, rfl, rfl⟩

theorem Kept.mono (kept : Kept live copy q m message) {message' : Message}
    (body : content message' = content message)
    (there : ∀ origin held, copy.message? origin m = some held → copy'.message? origin m = some held)
    (specs : ∀ origin spec, live.spec? origin = some spec → live'.spec? origin = some spec) :
    Kept live' copy' q m message' := by
  obtain ⟨origin, held, found, same, place⟩ := kept
  refine ⟨origin, held, there _ _ found, same.trans body.symm, place.imp_right ?_⟩
  rintro ⟨where', spec, known, on⟩
  exact ⟨where', spec, specs _ _ known, on⟩

/-! ## Effects that leave the copy as it is -/

/-- Messages of the live engine that leave, or change what no copy has. -/
theorem Covers.shrink (covers : Covers live copy ledger) {troubled : List String}
    (config : live'.config = live.config) (specs : live'.spec? = live.spec?)
    (messages : ∀ q m message, live'.message? q m = some message →
      ∃ old, live.message? q m = some old ∧ content message = content old)
    (settled : ∀ m, m ∉ troubled → m ∉ ledger.troubled ∧ ∀ q, live'.message? q m = live.message? q m) :
    Covers live' copy { ledger with troubled } where
  calm := covers.calm
  filed := covers.filed
  config := covers.config.trans config.symm
  limit := by
    rw [config]
    exact covers.limit
  known := by
    rw [specs]
    exact covers.known
  extra := by
    rw [specs]
    exact covers.extra
  plain := by
    rw [specs]
    exact covers.plain
  held := fun q m message there => by
    obtain ⟨old, before, body⟩ := messages q m message there
    exact (covers.held q m old before).mono body (fun _ _ found => found)
      (fun _ _ known => by rw [specs]; exact known)
  settled := fun m clean q => by
    obtain ⟨before, same⟩ := settled m clean
    exact (same q).trans (covers.settled m before q)

theorem Covers.quiet (covers : Covers live copy ledger) (config : live'.config = live.config)
    (messages : ∀ q m, live'.message? q m = live.message? q m ∨
      live'.message? q m = (live.message? q m).map strip)
    (specs : live'.spec? = live.spec?) : Covers live' copy ledger := by
  refine covers.shrink config specs (fun q m message there => ?_) (fun m clean => ⟨clean, fun q => ?_⟩)
  · rcases messages q m with same | stripped
    · exact ⟨message, same ▸ there, rfl⟩
    · obtain ⟨old, before, rfl⟩ := Option.map_eq_some_iff.mp (stripped.symm.trans there)
      exact ⟨old, before, rfl⟩
  · rcases messages q m with same | stripped
    · exact same
    · rw [stripped, covers.settled m clean]
      cases there : copy.message? q m with
      | none => rfl
      | some kept =>
        have awake : kept.availableAt = none := (covers.calm.pristine q m kept there).2
        simp [strip, ← awake]

/-! ## Declaring and deleting -/

/-- The copy declares a queue that only the live engine has: a DLQ that a dead
message declared. -/
theorem Covers.adopt (covers : Covers live copy ledger) (known : (live.spec? name).isSome) :
    Covers live (copy.declareQueue name {} false) ledger := by
  by_cases there : name ∈ copy.queues
  · rw [declareQueue_eq, if_pos there]
    exact covers
  · have absent : copy.spec? name = none := spec?_none.mpr there
    have marked : isDlq name = true := covers.extra name known absent
    have off : (copy.makeSpec name {}).deadLetter = false := by simp [makeSpec, marked]
    have specs : ∀ q, (copy.declareQueue name {} false).spec? q =
        if q = name then some (copy.makeSpec name {}) else copy.spec? q := by
      intro q
      rw [declareQueue_spec? there]
      simp [off]
    have messages : (copy.declareQueue name {} false).message? = copy.message? := declareQueue_observe.1
    refine ⟨covers.calm.declare name {}, covers.filed.of_eq messages,
      (declareQueue_frame copy name {} false).2.2.2.1.trans covers.config, fun q => ?_,
      fun q spec found => ?_, fun q live missing => ?_, covers.plain,
      fun q m message found => ?_, ?_⟩
    · rw [specs]
      split
      · rename_i here
        have before := covers.limit q
        rw [here, absent] at before
        rw [here, ← before, ← covers.config]
        rfl
      · exact covers.limit q
    · rw [specs] at found
      split at found
      · rename_i here
        subst here
        obtain ⟨spec', live'⟩ := Option.isSome_iff_exists.mp known
        refine ⟨spec', live', ?_⟩
        rw [← Option.some.inj found, off]
        by_contra on
        rw [covers.plain q spec' live' (by simpa using on)] at marked
        cases marked
      · exact covers.known q spec found
    · rw [specs] at missing
      split at missing
      · cases missing
      · exact covers.extra q live missing
    · exact (covers.held q m message found).mono rfl (fun _ _ held => by rw [messages]; exact held)
        (fun _ _ known => known)
    · rw [messages]
      exact covers.settled

/-- A queue that the live engine does not have, the copy does not have. -/
theorem Covers.absent {q : String} (covers : Covers live copy ledger) (unknown : live.spec? q = none) :
    copy.spec? q = none := by
  cases there : copy.spec? q with
  | none => rfl
  | some other =>
    obtain ⟨_, known, _⟩ := covers.known _ _ there
    rw [unknown] at known
    cases known

/-- The copy deletes what the live engine deletes. -/
theorem Covers.deletes_iff (covers : Covers live copy ledger) (known : live.spec? spec.name = some spec)
    (q : String) : copy.Deletes spec.name q ↔ live.Deletes spec.name q := by
  unfold Deletes
  refine or_congr_right (and_congr_right fun _ => ?_)
  simp only [known, Option.some.injEq, exists_eq_left']
  constructor
  · rintro ⟨other, there, on⟩
    obtain ⟨found, live', flags⟩ := covers.known _ _ there
    rw [known] at live'
    rw [Option.some.inj live', flags, on]
  · intro on
    cases there : copy.spec? spec.name with
    | none =>
      have marked := covers.extra spec.name (by rw [known]; rfl) there
      rw [covers.plain _ _ known on] at marked
      cases marked
    | some other =>
      obtain ⟨found, live', flags⟩ := covers.known _ _ there
      rw [known] at live'
      exact ⟨other, rfl, by rw [← flags, ← Option.some.inj live', on]⟩

/-- The copy declares a queue from its record. With dead-lettering the live
engine has the DLQ, and the copy declares it as well where it is missing. -/
theorem Covers.declare (covers : Covers live copy ledger) {durable : Bool}
    (unknown : live.spec? spec.name = none)
    (leaf : spec.deadLetter = true →
      isDlq spec.name = false ∧ (live.spec? (dlqName spec.name)).isSome)
    (config : live'.config = live.config) (messages : live'.message? = live.message?)
    (specs : ∀ q, live'.spec? q = if q = spec.name then some spec else live.spec? q) :
    Covers live' (applyToQueues copy (declareRecord spec durable))
      (ledger.post live.config.maxLength (declareRecord spec durable)) := by
  have absent : copy.spec? spec.name = none := covers.absent unknown
  let args : QueueArgs :=
    { durable, maxLength := spec.maxLength, visibilityTimeout := some spec.visibilityTimeout
      maxAttempts := some spec.maxAttempts, deadLetter := spec.deadLetter }
  change Covers live' (copy.declareQueue spec.name args false)
    (ledger.setLimit spec.name (spec.maxLength.orElse fun _ => live.config.maxLength))
  have flag : (copy.makeSpec spec.name args).deadLetter = spec.deadLetter := by
    cases on : spec.deadLetter with
    | false => simp [makeSpec, args, on]
    | true => simp [makeSpec, args, on, (leaf on).1]
  have copied : ∀ q, (copy.declareQueue spec.name args false).spec? q =
      if q = spec.name then some (copy.makeSpec spec.name args)
      else if spec.deadLetter = true ∧ q = dlqName spec.name ∧ copy.spec? q = none then
        some (copy.leafSpec (copy.makeSpec spec.name args))
      else copy.spec? q := by
    intro q
    rw [declareQueue_spec? (spec?_none.mp absent)]
    simp only [flag]
  have kept : (copy.declareQueue spec.name args false).message? = copy.message? := declareQueue_observe.1
  have plain : ∀ q spec', live'.spec? q = some spec' → spec'.deadLetter = true → isDlq q = false := by
    intro q spec' there on
    rw [specs] at there
    split at there
    · rename_i here
      rw [here]
      exact (leaf (Option.some.inj there ▸ on)).1
    · exact covers.plain q spec' there on
  refine ⟨covers.calm.declare _ _, covers.filed.of_eq kept,
    ((declareQueue_frame _ _ _ _).2.2.2.1.trans covers.config).trans config.symm, fun q => ?_,
    fun q found there => ?_, fun q there missing => ?_, plain, fun q m message there => ?_,
    fun m clean q => ?_⟩
  · rw [copied, config, Ledger.setLimit]
    dsimp only
    by_cases here : q = spec.name
    · rw [if_pos here, if_pos here, ← covers.config]
      rfl
    · rw [if_neg here, if_neg here]
      by_cases added : spec.deadLetter = true ∧ q = dlqName spec.name ∧ copy.spec? q = none
      · have before := covers.limit q
        rw [added.2.2] at before
        rw [if_pos added, ← before, ← covers.config]
        rfl
      · rw [if_neg added]
        exact covers.limit q
  · rw [copied] at there
    by_cases here : q = spec.name
    · rw [if_pos here] at there
      refine ⟨spec, by rw [specs, if_pos here], ?_⟩
      rw [← Option.some.inj there, flag]
    · rw [if_neg here] at there
      by_cases added : spec.deadLetter = true ∧ q = dlqName spec.name ∧ copy.spec? q = none
      · rw [if_pos added] at there
        obtain ⟨other, known⟩ := Option.isSome_iff_exists.mp (leaf added.1).2
        have same : live'.spec? q = some other := by rw [specs, if_neg here, added.2.1, known]
        refine ⟨other, same, ?_⟩
        have off : found.deadLetter = false := by rw [← Option.some.inj there]; rfl
        rw [off]
        by_contra on
        have unmarked := plain q other same (by simpa using on)
        exact ne_dlqName unmarked added.2.1
      · rw [if_neg added] at there
        obtain ⟨other, known, same⟩ := covers.known q found there
        exact ⟨other, by rw [specs, if_neg here, known], same⟩
  · rw [copied] at missing
    by_cases here : q = spec.name
    · rw [if_pos here] at missing
      cases missing
    · rw [if_neg here] at missing
      rw [specs, if_neg here] at there
      split at missing
      · cases missing
      · exact covers.extra q there missing
  · rw [messages] at there
    refine (covers.held q m message there).mono rfl (fun _ _ held => by rw [kept]; exact held) ?_
    intro origin known there
    rw [specs]
    split
    · rename_i here
      rw [here, unknown] at there
      cases there
    · exact there
  · rw [messages, kept]
    exact covers.settled m clean q

theorem deleteQueue_missing (absent : copy.spec? name = none) : (copy.deleteQueue name false).2 = copy := by
  have missing : copy.queues.get? name = none := Dict.get?_eq_none.mpr (spec?_none.mp absent)
  simp [deleteQueue, missing]

/-- A deletion takes what it deletes off the ledger. -/
theorem post_delete (ledger : Ledger) (maxLength : Option Int) (known : live.spec? spec.name = some spec) :
    ((live.deleteRecords spec).foldl (Ledger.post maxLength) ledger).troubled = ledger.troubled ∧
    (∀ q m, (q, m) ∈ ledger.filed → ¬ live.Deletes spec.name q →
      (q, m) ∈ ((live.deleteRecords spec).foldl (Ledger.post maxLength) ledger).filed) ∧
    ∀ q, ((live.deleteRecords spec).foldl (Ledger.post maxLength) ledger).limit q =
      if q = spec.name ∨ q = dlqName spec.name ∧ spec.deadLetter = true ∧
        (live.spec? (dlqName spec.name)).isSome then maxLength else ledger.limit q := by
  have kept : ∀ q m, (q, m) ∈ ledger.filed → ¬ live.Deletes spec.name q →
      (q, m) ∈ ledger.filed.filter (·.1 ≠ spec.name) := fun q m there stays =>
    List.mem_filter.mpr ⟨there, by simpa using fun here => stays (.inl here)⟩
  unfold deleteRecords
  by_cases both : spec.deadLetter = true ∧ (live.spec? (dlqName spec.name)).isSome
  · rw [if_pos both]
    refine ⟨rfl, fun q m there stays => ?_, fun q => ?_⟩
    · refine List.mem_filter.mpr ⟨kept q m there stays, ?_⟩
      have differ : q ≠ dlqName spec.name := fun here => stays (.inr ⟨here, spec, known, both.1⟩)
      simpa using differ
    · by_cases first : q = spec.name <;> by_cases second : q = dlqName spec.name <;>
        simp [Ledger.post, Ledger.setLimit, first, second, both]
  · rw [if_neg both]
    exact ⟨rfl, kept, fun q => by simp [Ledger.post, Ledger.setLimit, both]⟩

/-- The copy deletes what the live engine deletes, the DLQ along with its
queue, so the second record of a deletion finds nothing. -/
theorem Covers.delete (covers : Covers live copy ledger) (known : live.spec? spec.name = some spec)
    (config : live'.config = live.config)
    (messages : ∀ q m, live.Deletes spec.name q ∧ live'.message? q m = none ∨
      ¬ live.Deletes spec.name q ∧ live'.message? q m = live.message? q m)
    (specs : ∀ q, live.Deletes spec.name q ∧ live'.spec? q = none ∨
      ¬ live.Deletes spec.name q ∧ live'.spec? q = live.spec? q) :
    Covers live' (rebuild copy (live.deleteRecords spec))
      ((live.deleteRecords spec).foldl (Ledger.post live.config.maxLength) ledger) := by
  classical
  have same := covers.deletes_iff known
  have copied : ∀ q, (copy.deleteQueue spec.name false).2.spec? q =
      if live.Deletes spec.name q then none else copy.spec? q := by
    intro q
    rw [deleteQueue_spec?]
    simp only [same]
  have kept : ∀ q m, (copy.deleteQueue spec.name false).2.message? q m =
      if live.Deletes spec.name q then none else copy.message? q m := by
    intro q m
    rw [deleteQueue_message?]
    simp only [same]
  have leaf : spec.deadLetter = true → live.Deletes spec.name (dlqName spec.name) := fun on =>
    .inr ⟨rfl, spec, known, on⟩
  have rebuilt : rebuild copy (live.deleteRecords spec) = (copy.deleteQueue spec.name false).2 := by
    unfold deleteRecords rebuild
    split
    · rename_i both
      have gone : (copy.deleteQueue spec.name false).2.spec? (dlqName spec.name) = none := by
        rw [copied, if_pos (leaf both.1)]
      exact deleteQueue_missing gone
    · rfl
  obtain ⟨troubled, filed, limit⟩ := post_delete ledger live.config.maxLength known
  rw [rebuilt]
  refine ⟨covers.calm.delete _, fun q m message there => ?_,
    ((deleteQueue_frame _ _ _).2.2.trans covers.config).trans config.symm, fun q => ?_,
    fun q found there => ?_, fun q there missing => ?_, fun q found there => ?_,
    fun q m message there => ?_, fun m clean q => ?_⟩
  · rw [kept] at there
    split at there
    · cases there
    · rename_i stays
      exact filed q m (covers.filed q m message there) stays
  · rw [copied, config, limit]
    by_cases gone : live.Deletes spec.name q
    · rw [if_pos gone]
      split
      · rfl
      · -- The live engine has no DLQ, and so the copy has none either.
        rename_i unlisted
        rw [not_or] at unlisted
        obtain ⟨here, _, there, on⟩ := gone.resolve_left unlisted.1
        rw [known] at there
        have missing : live.spec? q = none := by
          by_contra present
          refine unlisted.2 ⟨here, Option.some.inj there ▸ on, ?_⟩
          rw [← here]
          exact Option.isSome_iff_ne_none.mpr present
        have before := covers.limit q
        rw [covers.absent missing] at before
        exact before
    · have unlisted : ¬ (q = spec.name ∨ q = dlqName spec.name ∧ spec.deadLetter = true ∧
          (live.spec? (dlqName spec.name)).isSome) := by
        rintro (here | ⟨here, on, _⟩)
        · exact gone (.inl here)
        · exact gone (here ▸ leaf on)
      rw [if_neg gone, if_neg unlisted]
      exact covers.limit q
  · rw [copied] at there
    split at there
    · cases there
    · rename_i stays
      obtain ⟨other, before, flags⟩ := covers.known q found there
      exact ⟨other, ((specs q).resolve_left fun gone => stays gone.1).2.trans before, flags⟩
  · rw [copied] at missing
    rcases specs q with ⟨_, none⟩ | ⟨stays, before⟩
    · rw [none] at there
      cases there
    · rw [if_neg stays] at missing
      exact covers.extra q (before ▸ there) missing
  · rcases specs q with ⟨_, none⟩ | ⟨_, before⟩
    · rw [none] at there
      cases there
    · exact covers.plain q found (before ▸ there)
  · rcases messages q m with ⟨_, none⟩ | ⟨stays, before⟩
    · rw [none] at there
      cases there
    · obtain ⟨origin, body, found, same, place⟩ := covers.held q m message (before ▸ there)
      -- The queue the message was dead-lettered from is deleted with its DLQ only.
      have remains : ¬ live.Deletes spec.name origin := by
        rcases place with rfl | ⟨here, flagged, there, on⟩
        · exact stays
        · rintro (first | ⟨second, _⟩)
          · refine stays (.inr ⟨by rw [here, first], flagged, by rw [← first]; exact there, on⟩)
          · have unmarked := covers.plain origin flagged there on
            exact ne_dlqName unmarked second
      refine ⟨origin, body, by rw [kept, if_neg remains]; exact found, same, place.imp_right ?_⟩
      rintro ⟨here, flagged, there, on⟩
      exact ⟨here, flagged, ((specs origin).resolve_left fun gone => remains gone.1).2.trans there, on⟩
  · rw [troubled] at clean
    rw [kept]
    rcases messages q m with ⟨gone, none⟩ | ⟨stays, before⟩
    · rw [if_pos gone, none]
    · rw [if_neg stays, before]
      exact covers.settled m clean q

/-! ## Publishing, failing and requeueing -/

theorem Covers.publish (covers : Covers live copy ledger) (pristine : Pristine message)
    (known : (live.spec? message.queue).isSome) (fresh : ¬ live.Held message.id)
    (new : ∀ q, (q, message.id) ∉ ledger.filed) (room : ledger.Room message.queue)
    (config : live'.config = live.config)
    (messages : ∀ q m, live'.message? q m =
      if q = message.queue ∧ m = message.id then some message else live.message? q m)
    (specs : live'.spec? = live.spec?) :
    Covers live' (applyToQueues copy (.messagePublish message))
      (ledger.post live.config.maxLength (.messagePublish message)) := by
  have adopted := covers.adopt known
  have unheld : ¬ (copy.declareQueue message.queue {} false).Held message.id := by
    rintro ⟨q, msg, there⟩
    exact new q (adopted.filed q message.id msg there)
  have unknown : message.id ∉ (copy.declareQueue message.queue {} false).byId := by
    intro there
    obtain ⟨q, indexed⟩ := Dict.mem_iff.mp there
    obtain ⟨msg, held⟩ := adopted.calm.sound.indexed.held q _ indexed
    exact unheld ⟨q, msg, held⟩
  have declared : message.queue ∈ (copy.declareQueue message.queue {} false).queues := by
    by_cases there : message.queue ∈ copy.queues
    · rw [declareQueue_eq, if_pos there]
      exact there
    · by_contra missing
      have absent := spec?_none.mpr missing
      rw [declareQueue_spec? there, if_pos rfl] at absent
      cases absent
  obtain ⟨queue, found⟩ := Dict.mem_iff.mp declared
  have limit : queue.spec.maxLength = ledger.limit message.queue := by
    have same := adopted.limit message.queue
    rw [spec?_of_get found] at same
    exact same
  have accepts : (copy.declareQueue message.queue {} false).Accepts message false queue :=
    enqueue_ok found (adopted.calm.has_room adopted.filed found limit room)
  have awake : dueMessage message (copy.declareQueue message.queue {} false).now.1 = message := by
    simp [dueMessage, pristine.2]
  have copied : ∀ q m, ((copy.declareQueue message.queue {} false).enqueue message false).2.message? q m =
      if q = message.queue ∧ m = message.id then some message
      else (copy.declareQueue message.queue {} false).message? q m := by
    intro q m
    rw [accepts.message?, awake]
  have kept := accepts.spec?
  have calm := adopted.calm.publish pristine unheld
  have shape : applyToQueues copy (.messagePublish message) =
      ((copy.declareQueue message.queue {} false).enqueue message false).2 := by
    simp [applyToQueues, unknown]
  rw [shape]
  refine ⟨calm, fun q m msg there => ?_, (accepts.config.trans adopted.config).trans config.symm, ?_, ?_,
    ?_, ?_, fun q m msg there => ?_, fun m clean q => ?_⟩
  · rw [copied] at there
    split at there
    · rename_i here
      rw [here.1, here.2]
      exact List.mem_cons_self
    · exact List.mem_cons_of_mem _ (adopted.filed q m msg there)
  · rw [kept, config]
    exact adopted.limit
  · rw [kept, specs]
    exact adopted.known
  · rw [kept, specs]
    exact adopted.extra
  · rw [specs]
    exact adopted.plain
  · rw [messages] at there
    split at there
    · rename_i here
      refine ⟨message.queue, message, ?_, congrArg content (Option.some.inj there), .inl here.1.symm⟩
      rw [copied, if_pos ⟨rfl, here.2⟩]
    · have other : m ≠ message.id := by
        rintro rfl
        exact fresh ⟨q, msg, there⟩
      refine (adopted.held q m msg there).mono rfl (fun origin body held => ?_)
        (fun _ _ known => by rw [specs]; exact known)
      rw [copied, if_neg fun same => other same.2]
      exact held
  · rw [messages, copied, adopted.settled m clean]

/-- A record of an ack or a failure of one message. -/
def Troubles (id : String) : JournalOp → Prop
  | .messageAck m _ | .messageNack m _ _ | .messageRetry m _ _ _ | .messageDead m _ _ _ => m = id
  | _ => False

/-- Records of acks and failures change nothing in the copy. -/
theorem rebuild_troubled (ledger : Ledger) (idle : Idle copy) (maxLength : Option Int) {ops : List JournalOp}
    (troubles : ∀ op ∈ ops, Troubles id op) : rebuild copy ops = copy ∧
      ∃ troubled, ops.foldl (Ledger.post maxLength) ledger = { ledger with troubled } ∧
        ∀ m ∉ troubled, m ∉ ledger.troubled ∧ (ops ≠ [] → m ≠ id) := by
  induction ops generalizing ledger with
  | nil => exact ⟨rfl, ledger.troubled, rfl, fun m clean => ⟨clean, fun some => absurd rfl some⟩⟩
  | cons op rest ih =>
    have first := troubles op List.mem_cons_self
    have entered : applyToQueues copy op = copy ∧
        ledger.post maxLength op = { ledger with troubled := id :: ledger.troubled } := by
      cases op with
      | messageAck | messageNack | messageRetry | messageDead =>
        obtain rfl := first
        refine ⟨?_, rfl⟩
        first
          | exact idle.ack
          | exact idle.nack
          | rfl
      | _ => exact first.elim
    obtain ⟨same, troubled, shape, clean⟩ := ih { ledger with troubled := id :: ledger.troubled }
      fun op there => troubles op (List.mem_cons_of_mem _ there)
    refine ⟨?_, troubled, ?_, fun m absent => ?_⟩
    · exact (congrArg (rebuild · rest) entered.1).trans same
    · rw [List.foldl_cons, entered.2]
      exact shape
    · have outside := (clean m absent).1
      exact ⟨fun there => outside (List.mem_cons_of_mem _ there),
        fun _ here => outside (here ▸ List.mem_cons_self)⟩

/-- An ack, a retry and a drop: the message is troubled, and no other changes. -/
theorem Covers.trouble (covers : Covers live copy ledger) (id : String) {ops : List JournalOp}
    (troubles : ∀ op ∈ ops, Troubles id op) (written : ops ≠ []) (config : live'.config = live.config)
    (specs : live'.spec? = live.spec?)
    (messages : ∀ q m message, live'.message? q m = some message →
      ∃ old, live.message? q m = some old ∧ content message = content old)
    (others : ∀ q m, m ≠ id → live'.message? q m = live.message? q m) :
    Covers live' (rebuild copy ops) (ops.foldl (Ledger.post live.config.maxLength) ledger) := by
  obtain ⟨same, troubled, shape, clean⟩ :=
    rebuild_troubled ledger covers.calm.idle live.config.maxLength troubles
  rw [same, shape]
  refine covers.shrink config specs messages fun m absent => ?_
  obtain ⟨before, other⟩ := clean m absent
  exact ⟨before, fun q => others q m (other written)⟩

/-- A dead message is live in the DLQ, and its copy stays in the origin queue. -/
theorem Covers.bury (covers : Covers live copy ledger) {ops : List JournalOp}
    (troubles : ∀ op ∈ ops, Troubles id op) (written : ops ≠ []) (config : live'.config = live.config)
    (dead : Message) (held : live.message? name id = some message) (body : content dead = content message)
    (known : live.spec? name = some spec) (on : spec.deadLetter = true)
    (messages : ∀ q m, live'.message? q m = if q = dlqName name ∧ m = id then some dead
      else if q = name ∧ m = id then none else live.message? q m)
    (specs : ∀ q, live'.spec? q = if q = dlqName name ∧ live.spec? q = none then
      some (live.makeSpec q { deadLetter := false }) else live.spec? q) :
    Covers live' (rebuild copy ops) (ops.foldl (Ledger.post live.config.maxLength) ledger) := by
  obtain ⟨same, troubled, shape, clean⟩ :=
    rebuild_troubled ledger covers.calm.idle live.config.maxLength troubles
  rw [same, shape]
  have grown : ∀ q spec, live.spec? q = some spec → live'.spec? q = some spec := by
    intro q spec there
    rw [specs, if_neg (fun both => by rw [there] at both; cases both.2)]
    exact there
  refine ⟨covers.calm, covers.filed, covers.config.trans config.symm, by rw [config]; exact covers.limit,
    fun q found there => ?_, fun q there missing => ?_, fun q found there flagged => ?_,
    fun q m message' there => ?_, fun m absent q => ?_⟩
  · obtain ⟨other, before, flags⟩ := covers.known q found there
    exact ⟨other, grown q other before, flags⟩
  · rw [specs] at there
    split at there
    · rename_i new
      rw [new.1]
      exact isDlq_dlqName name
    · exact covers.extra q there missing
  · rw [specs] at there
    split at there
    · rw [← Option.some.inj there] at flagged
      simp [makeSpec] at flagged
    · exact covers.plain q found there flagged
  · rw [messages] at there
    split at there
    · rename_i here
      obtain ⟨rfl, rfl⟩ := here
      cases there
      obtain ⟨origin, kept, found, same, place⟩ := covers.held name m message held
      -- A queue that dead-letters is no DLQ, so the copy is in the queue itself.
      have here : origin = name := by
        rcases place with here | ⟨here, _⟩
        · exact here
        · have unmarked := covers.plain name spec known on
          exact absurd here (ne_dlqName unmarked)
      subst here
      exact ⟨origin, kept, found, same.trans body.symm, .inr ⟨rfl, spec, grown _ _ known, on⟩⟩
    · split at there
      · cases there
      · exact (covers.held q m message' there).mono rfl (fun _ _ found => found) grown
  · obtain ⟨before, other⟩ := clean m absent
    rw [messages, if_neg (fun both => other written both.2), if_neg (fun both => other written both.2)]
    exact covers.settled m before q

/-- A requeue that the live engine made and that has room finds the copy in
the origin queue already or takes it there. -/
theorem Covers.copy_requeue (covers : Covers live copy ledger) {dest : String} (plain : isDlq dest = false)
    (held : live.message? (dlqName dest) id = some message) (known : (live.spec? dest).isSome)
    (room : (dlqName dest, id) ∈ ledger.filed → ledger.Room dest) :
    ∃ kept, content kept = content message ∧
      (∀ q m, (copy.dlqRequeue dest id false).2.message? q m = if q = dest ∧ m = id then some kept
        else if q = dlqName dest ∧ m = id then none else copy.message? q m) ∧
      (copy.dlqRequeue dest id false).2.spec? = copy.spec? ∧
      (copy.dlqRequeue dest id false).2.config = copy.config := by
  have origin : originQueue dest = dest := originQueue_of_plain plain
  have source : requeueSource dest = dlqName dest := by rw [requeueSource, origin]
  have apart : dlqName dest ≠ dest := dlqName_ne plain
  obtain ⟨place, kept, found, body, where'⟩ := covers.held _ id message held
  have requeue := dlqRequeue_requeue covers.calm.sound.named dest id false
  refine Exists.imp (fun _ => And.imp_right (And.imp_right fun specs => ⟨specs, dlqRequeue_config⟩)) ?_
  rcases where' with rfl | ⟨same, flagged, there, on⟩
  · -- The copy is in the DLQ: it was published there.
    have there : dest ∈ copy.queues := by
      by_contra absent
      have marked := covers.extra dest known (spec?_none.mpr absent)
      rw [plain] at marked
      cases marked
    obtain ⟨dlq, stored, inside⟩ := message?_some.mp found
    obtain ⟨queue, opened⟩ := Dict.mem_iff.mp there
    have draws : copy.Withdraws dest id dlq kept :=
      ⟨by rw [source]; exact stored, ⟨queue, by rw [origin]; exact opened⟩, inside⟩
    have empty : queue.isFull = false := by
      refine covers.calm.has_room covers.filed opened ?_ (room (covers.filed _ _ _ found))
      have limit := covers.limit dest
      rw [spec?_of_get opened] at limit
      exact limit
    have moved : (copy.dlqRequeue dest id false).1 = true := by
      rcases draws.result false with ⟨target, accepts, shape⟩ | ⟨⟨target, present, full⟩, _⟩
      · rw [shape]
      · have same : (copy.withdrawn dest id dlq).queues.get? (originQueue dest) = some queue := by
          rw [origin, ← opened]
          refine Dict.get?_set_ne ?_
          rw [source]
          exact apart.symm
        rw [same] at present
        rw [← Option.some.inj present, empty] at full
        cases full
    rw [moved] at requeue
    generalize (copy.dlqRequeue dest id false).2 = copy' at requeue ⊢
    cases requeue with
    | moved message' _ drawn messages records specs =>
      rw [source, found] at drawn
      refine ⟨requeued dest kept, body, ?_, specs⟩
      rw [origin, source, ← Option.some.inj drawn] at messages
      exact messages
  · -- The copy never left the origin queue.
    obtain rfl : place = dest := dlqName_injective (covers.plain place flagged there on) plain same.symm
    have nothing : copy.message? (dlqName place) id = none :=
      covers.calm.sound.indexed.lone found apart
    generalize (copy.dlqRequeue place id false).1 = result at requeue
    generalize (copy.dlqRequeue place id false).2 = copy' at requeue ⊢
    cases requeue with
    | missing =>
      refine ⟨kept, body, fun q m => ?_, rfl⟩
      by_cases here : q = place ∧ m = id
      · rw [if_pos here, here.1, here.2, found]
      · by_cases there : q = dlqName place ∧ m = id
        · rw [if_neg here, if_pos there, there.1, there.2, nothing]
        · rw [if_neg here, if_neg there]
    | moved _ _ drawn => rw [source, nothing] at drawn; cases drawn
    | refused _ _ drawn => rw [source, nothing] at drawn; cases drawn

theorem Covers.requeue (covers : Covers live copy ledger) (indexed : live.Indexed) {dest : String}
    (plain : isDlq dest = false) (held : live.message? (dlqName dest) id = some message)
    (known : (live.spec? dest).isSome) (room : (dlqName dest, id) ∈ ledger.filed → ledger.Room dest)
    (config : live'.config = live.config)
    (offered : Message) (pristine : Pristine offered) (filed : offered.queue = dest)
    (body : content offered = content message)
    (messages : ∀ q m, live'.message? q m = if q = dest ∧ m = id then some offered
      else if q = dlqName dest ∧ m = id then none else live.message? q m)
    (specs : live'.spec? = live.spec?) (source : String) :
    Covers live' (applyToQueues copy (.messageRequeue id source dest))
      (ledger.post live.config.maxLength (.messageRequeue id source dest)) := by
  obtain ⟨kept, same, copied, copySpecs, copyConfig⟩ := covers.copy_requeue plain held known room
  have calm : Calm (copy.dlqRequeue dest id false).2 := covers.calm.requeue
  change Covers live' (copy.dlqRequeue dest id false).2
    { ledger with filed := Ledger.move ledger.filed id dest, troubled := ledger.troubled.filter (· ≠ id) }
  generalize (copy.dlqRequeue dest id false).2 = copy' at copied copySpecs copyConfig calm ⊢
  have equal : kept = offered := by
    have there : copy'.message? dest id = some kept := by rw [copied, if_pos ⟨rfl, rfl⟩]
    exact content_inj (calm.pristine _ _ _ there) pristine
      ((calm.sound.named.filed there).2.trans filed.symm) (same.trans body.symm)
  subst equal
  have source' : requeueSource dest = dlqName dest := by rw [requeueSource, originQueue_of_plain plain]
  obtain ⟨place, before, found, _, where'⟩ := covers.held _ id message held
  have first : place = dest ∨ place = dlqName dest := by
    rcases where' with here | ⟨here, flagged, known, on⟩
    · exact .inr here
    · exact .inl (dlqName_injective (covers.plain place flagged known on) plain here.symm)
  refine ⟨calm, fun q m msg there => ?_, (copyConfig.trans covers.config).trans config.symm, ?_, ?_, ?_, ?_,
    fun q m msg there => ?_, fun m clean q => ?_⟩
  · have listed : (place, id) ∈ ledger.filed := covers.filed _ _ _ found
    unfold Ledger.move
    rw [source', originQueue_of_plain plain]
    rw [copied] at there
    split at there
    · rename_i here
      rw [here.1, here.2]
      split
      · exact List.mem_cons_self
      · rename_i unlisted
        rcases first with rfl | rfl
        · exact listed
        · exact absurd listed unlisted
    · split at there
      · cases there
      · rename_i other
        have old := covers.filed q m msg there
        split
        · refine List.mem_cons_of_mem _ (List.mem_filter.mpr ⟨old, ?_⟩)
          simpa [Prod.mk.injEq] using not_and_or.mp other
        · exact old
  · rw [copySpecs, config]
    exact covers.limit
  · rw [copySpecs, specs]
    exact covers.known
  · rw [copySpecs, specs]
    exact covers.extra
  · rw [specs]
    exact covers.plain
  · rw [messages] at there
    split at there
    · rename_i here
      rw [here.1, here.2]
      exact ⟨dest, kept, by rw [copied, if_pos ⟨rfl, rfl⟩], congrArg content (Option.some.inj there),
        .inl rfl⟩
    · split at there
      · cases there
      · rename_i other
        have differ : m ≠ id := by
          rintro rfl
          by_cases here : q = dlqName dest
          · exact other ⟨here, rfl⟩
          · rw [indexed.lone held here] at there
            cases there
        refine (covers.held q m msg there).mono rfl (fun origin body found => ?_)
          (fun _ _ known => by rw [specs]; exact known)
        rw [copied, if_neg (fun both => differ both.2), if_neg (fun both => differ both.2)]
        exact found
  · rw [messages, copied]
    split
    · rfl
    · rename_i unmoved
      split
      · rfl
      · rename_i other
        by_cases here : m = id
        · subst here
          have apart : q ≠ dlqName dest := fun same => other ⟨same, rfl⟩
          rw [indexed.lone held apart]
          refine (covers.calm.sound.indexed.lone found ?_).symm
          rintro rfl
          exact first.elim (fun same => unmoved ⟨same, rfl⟩) apart
        · refine covers.settled m (fun there => clean (List.mem_filter.mpr ⟨there, ?_⟩)) q
          simpa using here

/-! ## Every effect -/

theorem mem_posted {maxLength : Option Int} {ops : List JournalOp}
    (there : (q, m) ∈ (ops.foldl (Ledger.post maxLength) ledger).filed) :
    (∃ q, (q, m) ∈ ledger.filed) ∨ m ∈ publishedIds ops := by
  induction ops generalizing ledger with
  | nil => exact .inl ⟨q, there⟩
  | cons op rest ih =>
    rw [← List.singleton_append, publishedIds_append, List.mem_append]
    rcases ih there with ⟨q, now⟩ | published
    · cases op with
      | messagePublish message =>
        rcases List.mem_cons.mp now with new | old
        · obtain rfl : m = message.id := congrArg Prod.snd new
          exact .inr (.inl List.mem_cons_self)
        · exact .inl ⟨q, old⟩
      | messageRequeue id source dest =>
        simp only [Ledger.post, Ledger.move] at now
        split at now
        · rename_i listed
          rcases List.mem_cons.mp now with new | old
          · obtain rfl : m = id := congrArg Prod.snd new
            exact .inl ⟨_, listed⟩
          · exact .inl ⟨q, (List.mem_filter.mp old).1⟩
        · exact .inl ⟨q, now⟩
      | queueDelete name => exact .inl ⟨q, (List.mem_filter.mp now).1⟩
      | queueDeclare | exchangeDeclare | exchangeDelete | bind | unbind | messageAck | messageNack
      | messageRetry | messageDead => exact .inl ⟨q, now⟩
    · exact .inr (.inr published)

theorem Covers.declared (covers : Covers live copy ledger) {durable : Bool}
    (unknown : live.spec? spec.name = none) (plain : spec.deadLetter = true → isDlq spec.name = false)
    (config : live'.config = live.config) (messages : live'.message? = live.message?)
    (specs : ∀ q, live'.spec? q = if q = spec.name then some spec
      else if spec.deadLetter = true ∧ q = dlqName spec.name ∧ live.spec? q = none then
        some (live.leafSpec spec)
      else live.spec? q) :
    Covers live' (rebuild copy (live.declareRecords spec durable))
      ((live.declareRecords spec durable).foldl (Ledger.post live.config.maxLength) ledger) := by
  unfold declareRecords
  by_cases leaf : spec.deadLetter = true ∧ live.spec? (dlqName spec.name) = none
  · have apart : dlqName spec.name ≠ spec.name := dlqName_ne (plain leaf.1)
    have stored : ∀ q, (live.putQueue (dlqName spec.name) { spec := live.leafSpec spec }).spec? q =
        if q = dlqName spec.name then some (live.leafSpec spec) else live.spec? q :=
      fun q => spec?_of_set (show (live.putQueue (dlqName spec.name)
        { spec := live.leafSpec spec }).queues = _ from rfl)
    -- First the DLQ alone, then the queue with its DLQ in place.
    have first : Covers (live.putQueue (dlqName spec.name) { spec := live.leafSpec spec })
        (applyToQueues copy (declareRecord (live.leafSpec spec) true))
        (ledger.post live.config.maxLength (declareRecord (live.leafSpec spec) true)) :=
      covers.declare leaf.2 (fun on => absurd on (by simp [leafSpec, makeSpec])) rfl
        (observe_fresh (spec?_none.mp leaf.2) rfl).1 stored
    rw [if_pos leaf]
    refine first.declare (by rw [stored, if_neg apart.symm]; exact unknown)
      (fun on => ⟨plain on, by rw [stored, if_pos rfl]; rfl⟩) config
      (messages.trans (observe_fresh (spec?_none.mp leaf.2) rfl).1.symm) fun q => ?_
    rw [specs, stored]
    by_cases here : q = spec.name
    · rw [if_pos here, if_pos here]
    · rw [if_neg here, if_neg here]
      by_cases there : q = dlqName spec.name
      · rw [if_pos ⟨leaf.1, there, there ▸ leaf.2⟩, if_pos there]
      · rw [if_neg (fun both => there both.2.1), if_neg there]
  · rw [if_neg leaf]
    refine covers.declare unknown (fun on => ⟨plain on, ?_⟩) config messages fun q => ?_
    · rw [Option.isSome_iff_ne_none]
      exact fun none => leaf ⟨on, none⟩
    · rw [specs]
      refine if_congr Iff.rfl rfl (if_neg ?_)
      rintro ⟨on, rfl, none⟩
      exact leaf ⟨on, none⟩

/-- The rebuilt copy of a live engine, with its account. -/
structure Matched (config : EngineConfig) (blank e : QueueEngine) : Prop where
  same : e.config = config
  account : Accounted e
  listed : ∀ q m, (q, m) ∈ (ledgerOf config.maxLength e.journal.ops).filed →
    m ∈ publishedIds e.journal.ops
  covers : Covers e (rebuild blank e.journal.ops) (ledgerOf config.maxLength e.journal.ops)

/-- A journal without reused ids whose records all fit. -/
def Orderly (maxLength : Option Int) (ops : List JournalOp) : Prop := Unique ops ∧ Roomy maxLength ops

variable {e e' blank : QueueEngine} {config : EngineConfig}

/-- The effect and what it wrote keep the copy covering. -/
def Advances (e e' copy : QueueEngine) (ledger : Ledger) : Prop :=
  ∃ more, e'.journal.ops = e.journal.ops ++ more ∧ Covers e' (rebuild copy more)
    (more.foldl (Ledger.post e.config.maxLength) ledger)

theorem exit_advances {requeue : Bool} {written : List JournalOp} (covers : Covers e copy ledger)
    (config : e'.config = e.config) (record : written = [] ∨ written = [.messageNack id name requeue])
    (exit : Exit e name id requeue true written e') : Advances e e' copy ledger := by
  have troubles : ∀ op, Troubles id op → ∀ op' ∈ written ++ [op], Troubles id op' := by
    intro op troubled op' there
    rcases List.mem_append.mp there with early | last
    · rcases record with rfl | rfl
      · cases early
      · obtain rfl := List.mem_singleton.mp early
        rfl
    · rw [List.mem_singleton.mp last]
      exact troubled
  have nonempty : ∀ op : JournalOp, written ++ [op] ≠ [] := by simp
  cases exit with
  | gone _ messages specs _ journal =>
    exact ⟨[], by rw [journal, List.append_nil],
      covers.quiet config (fun q m => .inl (by rw [messages])) specs⟩
  | retried message due held _ _ messages specs _ journal =>
    refine ⟨_, journal, covers.trouble id (troubles _ rfl) (nonempty _) config specs
      (fun q m msg there => ?_) fun q m other => ?_⟩
    · rw [messages] at there
      split at there
      · rename_i here
        rw [here.1, here.2, ← Option.some.inj there]
        exact ⟨message, held, rfl⟩
      · exact ⟨msg, there, rfl⟩
    · rw [messages, if_neg fun both => other both.2]
  | moved message spec held known on _ messages specs _ journal =>
    exact ⟨_, journal, covers.bury (troubles _ rfl) (nonempty _) config
      (buried name (failed message requeue)) held rfl known on messages specs⟩
  | dropped message spec held _ _ _ messages specs _ journal =>
    refine ⟨_, journal, covers.trouble id (troubles _ rfl) (nonempty _) config specs
      (fun q m msg there => ?_) fun q m other => ?_⟩
    · rw [messages] at there
      split at there
      · cases there
      · exact ⟨msg, there, rfl⟩
    · rw [messages, if_neg fun both => other both.2]

/-- A message that is taken out of a DLQ keeps its content, wherever it goes. -/
theorem requeued_content {queueName : String} :
    content (requeued queueName message) = content message ∧
      content (returned queueName message) = content message := by
  simp [content, returned, requeued]

theorem requeue_advances {queueName : String} {result : Bool} (filed : e.Filed)
    (covers : Covers e copy ledger) (config : e'.config = e.config)
    (fits : ∀ op, e'.journal.ops = e.journal.ops ++ [op] → ledger.Fits op)
    (requeue : Requeue e queueName id true result e') : Advances e e' copy ledger := by
  cases requeue with
  | missing => exact ⟨[], (List.append_nil _).symm, covers⟩
  | moved message _ held messages _ specs _ journal =>
    obtain ⟨plain, room⟩ := fits _ journal
    have source : requeueSource (originQueue queueName) = dlqName (originQueue queueName) := by
      rw [requeueSource, originQueue_of_plain plain]
    rw [source, originQueue_of_plain plain] at room
    have known : (e.spec? (originQueue queueName)).isSome := by
      have there : e'.message? (originQueue queueName) id = some (requeued queueName message) := by
        rw [messages, if_pos ⟨rfl, rfl⟩]
      obtain ⟨queue, found, _⟩ := message?_some.mp there
      rw [← specs, spec?_of_get found]
      rfl
    exact ⟨_, journal, covers.requeue filed.indexed plain held known room config
      (requeued queueName message) ⟨rfl, rfl⟩ rfl requeued_content.1 messages specs
      (requeueSource queueName)⟩
  | refused message _ held messages _ specs _ journal =>
    refine ⟨[], by rw [journal, List.append_nil], covers.shrink config specs
      (fun q m msg there => ?_) fun m clean => ⟨clean, fun q => ?_⟩⟩
    · rw [messages] at there
      split at there
      · rename_i here
        rw [here.1, here.2, ← Option.some.inj there]
        exact ⟨message, held, requeued_content.2⟩
      · exact ⟨msg, there, rfl⟩
    · rw [messages]
      split
      · rename_i here
        obtain ⟨rfl, rfl⟩ := here
        have copied := covers.settled m clean (requeueSource queueName)
        rw [held] at copied
        have place : (returned queueName message).queue = requeueSource queueName := rfl
        have pristine : Pristine (returned queueName message) := ⟨rfl, rfl⟩
        have before : Pristine message := covers.calm.pristine _ _ _ copied.symm
        have unchanged : message = returned queueName message :=
          content_inj before pristine ((filed.named.filed held).2.trans place.symm)
            requeued_content.2.symm
        rw [held, ← unchanged]
      · rfl

theorem effect_advances (filed : e.Filed) (config : e'.config = e.config) (account : Accounted e)
    (unique : Unique e'.journal.ops) (covers : Covers e copy ledger)
    (listed : ∀ q m, (q, m) ∈ ledger.filed → m ∈ publishedIds e.journal.ops)
    (fits : ∀ op, e'.journal.ops = e.journal.ops ++ [op] → ledger.Fits op)
    (effect : Effect e e') : Advances e e' copy ledger := by
  cases effect with
  | quiet messages specs journal =>
    exact ⟨[], by rw [journal, List.append_nil], covers.quiet config messages specs⟩
  | routed op record messages specs journal =>
    refine ⟨[op], journal, ?_⟩
    have same : ∀ copy, Covers e copy ledger → Covers e' copy ledger := fun copy covers =>
      covers.quiet config (fun q m => .inl (by rw [messages])) specs
    cases op with
    | bind exchange queue routingKey =>
      refine same _ (covers.adopt ?_)
      rw [Option.isSome_iff_ne_none]
      exact fun none => spec?_none.mp none record
    | exchangeDeclare | exchangeDelete | unbind => exact same _ covers
    | _ => exact record.elim
  | declared spec durable unknown plain messages specs journal =>
    exact ⟨_, journal, covers.declared unknown plain config messages specs⟩
  | deleted spec known messages specs journal =>
    exact ⟨_, journal, covers.delete known config messages specs⟩
  | published message pristine known messages specs journal =>
    have fresh := account.fresh (journal ▸ unique)
    refine ⟨_, journal, covers.publish pristine known fresh (fun q there => ?_) (fits _ journal) config
      messages specs⟩
    unfold Unique at unique
    rw [journal, publishedIds_append] at unique
    exact (List.nodup_append.mp unique).2.2 _ (listed q _ there) _ (List.mem_singleton.mpr rfl) rfl
  | acked name id message held messages specs journal =>
    refine ⟨_, journal, covers.trouble id (fun op there => ?_) (by simp) config specs
      (fun q m msg there => ?_) fun q m other => ?_⟩
    · rw [List.mem_singleton.mp there]
      rfl
    · rw [messages] at there
      split at there
      · cases there
      · exact ⟨msg, there, rfl⟩
    · rw [messages, if_neg fun both => other both.2]
  | failed name id requeue written record exit => exact exit_advances covers config record exit
  | requeued queueName id result requeue => exact requeue_advances filed covers config fits requeue

theorem Matched.effect (matched : Matched config blank e) (filed : e.Filed)
    (config' : e'.config = e.config) (effect : Effect e e')
    (orderly : Orderly config.maxLength e'.journal.ops) : Matched config blank e' := by
  obtain ⟨more', posts⟩ := effect_posts filed.indexed effect
  obtain ⟨more, grown, covers⟩ := effect_advances filed config' matched.account orderly.1 matched.covers
    matched.listed (fun op grown => Roomy.last (grown ▸ orderly.2)) effect
  rw [matched.same] at covers
  refine ⟨config'.trans matched.same, matched.account.post posts orderly.1, fun q m there => ?_, ?_⟩
  · rw [grown, ledgerOf_append] at there
    rw [grown, publishedIds_append, List.mem_append]
    exact (mem_posted there).imp_left fun ⟨q, before⟩ => matched.listed q m before
  · rw [grown, ledgerOf_append, rebuild_append]
    exact covers

end OneOpenBroker.Persistence

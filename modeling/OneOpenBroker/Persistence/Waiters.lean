import OneOpenBroker.Persistence.AofScan
import OneOpenBroker.Persistence.Writer

/-! The table `_waiters` of the writer and the calls of `wait_durable`. Each
record that is appended under `fsync: always` leaves an entry, and only a call
with its number takes it out again. The read loops call with the number of the
last record, whoever appended it. -/
namespace OneOpenBroker.Persistence
open Collections Systems Records

/-- The numbers in `_waiters`, whose futures the writer has, and the tasks that
are suspended in `wait_durable` with the numbers they wait for. The calls with a
number in use are kept to compare the table with. -/
structure Waiters (μ : Type*) where
  writer : Writer μ
  waiters : List Nat := []
  suspended : Dict Nat Nat := ∅
  awaited : List Nat := []

/-- An append or a step of the writer, a call of `wait_durable` by a task, or a
suspended task that goes on when its future is set. -/
inductive WaiterStep (μ : Type*) where
  | writer (event : WriterEvent μ)
  | waitDurable (task seq : Nat)
  | wake (task : Nat)

namespace Waiters

variable {μ : Type*} (crc32 : List UInt8 → UInt32) (json : JsonCodec μ)

/-- A writer with `fsync: always` that was just started. -/
def started (file : AofFile) (seq : Nat) : Waiters μ := { writer := .started .always file seq }

/-- The future of an append is entered under its number. -/
def writes (s : Waiters μ) (event : WriterEvent μ) : Waiters μ :=
  let writer := s.writer.step crc32 json event
  { s with
    writer
    waiters := s.waiters ++ writer.futures.keys.filter (· ∉ s.writer.futures) }

/-- `self._waiters.pop(seq, None)`. -/
def pop (s : Waiters μ) (seq : Nat) : Waiters μ := { s with waiters := s.waiters.filter (· ≠ seq) }

/-- `wait_durable`, up to its `await`. A future that is set does not suspend. -/
def waitDurable (s : Waiters μ) (task seq : Nat) : Waiters μ :=
  if s.writer.fsync ≠ .always then s
  else
    let s := if seq ≤ s.writer.seq then { s with awaited := s.awaited ++ [seq] } else s
    if seq ∈ s.waiters then
      if s.writer.futures.get? seq = some .resolved then s.pop seq
      else { s with suspended := s.suspended.set task seq }
    else s

/-- The rest of `wait_durable`. -/
def wake (s : Waiters μ) (task : Nat) : Waiters μ :=
  match s.suspended.get? task with
  | none => s
  | some seq =>
    if s.writer.futures.get? seq = some .resolved then
      { s with suspended := s.suspended.erase task }.pop seq
    else s

/-- No task of the broker is cancelled while it waits, and a task that waits
calls nothing. -/
def step (s : Waiters μ) : WaiterStep μ → Waiters μ
  | .writer (.cancel _) => s
  | .writer event => s.writes crc32 json event
  | .waitDurable task seq => if task ∈ s.suspended then s else s.waitDurable task seq
  | .wake task => s.wake task

/-- The task is between two batches, or at its end. -/
def AtRest : Task → Prop
  | .idle | .stopped | .failed _ => True
  | .collecting _ | .writing _ | .written _ => False

/-- Nothing is queued or being written, and no task is suspended. -/
structure Quiet (s : Waiters μ) : Prop where
  queue : s.writer.queue = []
  task : AtRest s.writer.task
  suspended : s.suspended.keys = []

/-- Every record that was appended has been waited for, after its append. -/
def Awaited (s : Waiters μ) : Prop := ∀ rec ∈ s.writer.appended, rec.seq ∈ s.awaited

/-! ## What an event makes of the futures -/

variable {crc32 json} {w w' : Writer μ} {s : Waiters μ} {n : Nat}

/-- Either no record and no future comes in, or one of each under the next number. -/
inductive Enters (w w' : Writer μ) : Prop where
  | same (appended : w'.appended = w.appended) (futures : ∀ n, n ∈ w'.futures ↔ n ∈ w.futures)
    (seq : w.seq ≤ w'.seq) (fsync : w'.fsync = w.fsync)
  | made (rec : AOFRecord μ) (number : rec.seq = w.seq + 1) (seq : w'.seq = w.seq + 1)
    (appended : w'.appended = w.appended ++ [rec])
    (futures : ∀ n, n ∈ w'.futures ↔ n = rec.seq ∨ n ∈ w.futures) (fsync : w'.fsync = w.fsync)

theorem mem_resolve {futures : Dict Nat Future} {batch : List Item} :
    n ∈ Writer.resolve futures batch ↔ n ∈ futures := by
  induction batch generalizing futures with
  | nil => rfl
  | cons item rest ih =>
    refine ih.trans ?_
    dsimp only
    split
    · rename_i pending
      have known : item.seq ∈ futures := Dict.mem_of_get? pending.2
      simp only [Dict.mem_set]
      constructor
      · rintro (rfl | known')
        · exact known
        · exact known'
      · exact .inr
    · rfl

theorem append_enters {op : Op} {metadata : μ} {payload : List UInt8} {time : UInt64}
    (always : w.fsync = .always) : Enters w (w.append crc32 json op metadata payload time) := by
  unfold Writer.append
  split
  · exact .same rfl (fun _ => Iff.rfl) le_rfl rfl
  · dsimp only
    split
    · exact .same rfl (fun _ => Iff.rfl) (Nat.le_succ _) rfl
    · refine .made _ rfl rfl rfl (fun n => ?_) rfl
      simp [always]

theorem step_enters (crc32 : List UInt8 → UInt32) (json : JsonCodec μ) (always : w.fsync = .always)
    (event : WriterEvent μ) :
    Enters w (w.step crc32 json event) := by
  have takes := Writer.step_takes crc32 json w event
  generalize w.step crc32 json event = w' at takes ⊢
  cases takes with
  | append op metadata payload time => exact append_enters always
  | cancel seq pending =>
    have known : seq ∈ w.futures := Dict.mem_of_get? pending
    refine .same rfl (fun n => ?_) le_rfl rfl
    simp only [Dict.mem_set]
    exact ⟨fun either => either.elim (fun same => same ▸ known) id, .inr⟩
  | resume task => exact .same rfl (fun _ => mem_resolve) le_rfl rfl
  | dequeue task =>
    unfold Writer.dequeue
    split
    · exact .same rfl (fun _ => Iff.rfl) le_rfl rfl
    · split <;> exact .same rfl (fun _ => Iff.rfl) le_rfl rfl
  | collect task =>
    unfold Writer.collect
    split
    · exact .same rfl (fun _ => Iff.rfl) le_rfl rfl
    · split <;> exact .same rfl (fun _ => Iff.rfl) le_rfl rfl
  | write | writeError | fsyncError | flushAndStop | putSentinel | finish | nothing =>
    exact .same rfl (fun _ => Iff.rfl) le_rfl rfl

/-! ## The table -/

/-- The table has the numbers of records, and those that are not in it any more
were waited for. Whoever waited for a number that is still there is suspended. -/
structure Tracks (s : Waiters μ) : Prop where
  always : s.writer.fsync = .always
  entries : ∀ n ∈ s.waiters, n ∈ s.writer.futures
  released : ∀ n ∈ s.writer.futures, n ∈ s.waiters ∨ n ∈ s.awaited
  waits : ∀ n ∈ s.awaited, n ∈ s.waiters → ∃ task, s.suspended.get? task = some n
  asked : ∀ task n, s.suspended.get? task = some n → n ∈ s.awaited
  records : ∀ n, n ∈ s.writer.futures ↔ ∃ rec ∈ s.writer.appended, rec.seq = n
  inUse : ∀ n, n ∈ s.writer.futures ∨ n ∈ s.awaited → n ≤ s.writer.seq

theorem started_tracks (file : AofFile) (seq : Nat) : Tracks (started file seq : Waiters μ) where
  always := rfl
  entries := fun _ member => nomatch member
  released := fun _ member => absurd member Dict.not_mem_empty
  waits := fun _ member => nomatch member
  asked := fun _ _ found => nomatch found
  records := fun n => iff_of_false Dict.not_mem_empty fun ⟨_, member, _⟩ => nomatch member
  inUse := by
    rintro n (member | member)
    · exact absurd member Dict.not_mem_empty
    · cases member

theorem writes_tracks (tracks : Tracks s) (event : WriterEvent μ) :
    Tracks (s.writes crc32 json event) := by
  cases step_enters crc32 json tracks.always event with
  | same appended futures seq fsync =>
    have nothing : (s.writes crc32 json event).waiters = s.waiters := by
      have known : ∀ n ∈ (s.writer.step crc32 json event).futures, n ∈ s.writer.futures :=
        fun n member => (futures n).mp member
      simpa [writes] using known
    refine ⟨fsync.trans tracks.always, fun n member => ?_, fun n member => ?_, fun n asked member => ?_,
      tracks.asked, fun n => ?_, fun n known => ?_⟩
    · exact (futures n).mpr (tracks.entries n (nothing ▸ member))
    · rw [nothing]
      exact tracks.released n ((futures n).mp member)
    · exact tracks.waits n asked (nothing ▸ member)
    · change n ∈ (s.writer.step crc32 json event).futures ↔
        ∃ rec ∈ (s.writer.step crc32 json event).appended, rec.seq = n
      rw [futures, appended]
      exact tracks.records n
    · exact (tracks.inUse n (known.imp (futures n).mp id)).trans seq
  | made rec number seq appended futures fsync =>
    have fresh : rec.seq ∉ s.writer.futures := by
      intro known
      have bound := tracks.inUse _ (.inl known)
      omega
    have entered : ∀ n, n ∈ (s.writes crc32 json event).waiters ↔ n ∈ s.waiters ∨ n = rec.seq := by
      intro n
      simp only [writes, List.mem_append, List.mem_filter, Dict.mem_keys, futures, decide_eq_true_eq]
      constructor
      · rintro (member | ⟨rfl | known, unknown⟩)
        · exact .inl member
        · exact .inr rfl
        · exact absurd known unknown
      · rintro (member | rfl)
        · exact .inl member
        · exact .inr ⟨.inl rfl, fresh⟩
    refine ⟨fsync.trans tracks.always, fun n member => ?_, fun n member => ?_, fun n asked member => ?_,
      tracks.asked, fun n => ?_, fun n known => ?_⟩
    · exact (futures n).mpr (((entered n).mp member).symm.imp id (tracks.entries n))
    · rw [entered]
      rcases (futures n).mp member with same | known
      · exact .inl (.inr same)
      · exact (tracks.released n known).imp .inl id
    · rcases (entered n).mp member with before | rfl
      · exact tracks.waits n asked before
      · have bound := tracks.inUse _ (.inr asked)
        omega
    · change n ∈ (s.writer.step crc32 json event).futures ↔
        ∃ rec ∈ (s.writer.step crc32 json event).appended, rec.seq = n
      rw [futures, appended, tracks.records]
      simp [or_comm, eq_comm]
    · change n ≤ (s.writer.step crc32 json event).seq
      rw [seq]
      rcases known with known | asked
      · rcases (futures n).mp known with rfl | before
        · exact number.le
        · exact (tracks.inUse n (.inl before)).trans (Nat.le_succ _)
      · exact (tracks.inUse n (.inr asked)).trans (Nat.le_succ _)

/-- A call for a number takes its entry out or is suspended, if there is one. -/
theorem Tracks.call {seq : Nat} (tracks : Tracks s) (inUse : seq ≤ s.writer.seq) {waiters : List Nat}
    {suspended : Dict Nat Nat} (kept : ∀ n ∈ waiters, n ∈ s.waiters)
    (gone : ∀ n ∈ s.waiters, n ≠ seq → n ∈ waiters)
    (waits : ∀ n ∈ waiters, n = seq ∨ (∃ task, s.suspended.get? task = some n) →
      ∃ task, suspended.get? task = some n)
    (asked : ∀ task n, suspended.get? task = some n → n = seq ∨ s.suspended.get? task = some n) :
    Tracks { s with waiters, suspended, awaited := s.awaited ++ [seq] } where
  always := tracks.always
  entries := fun n member => tracks.entries n (kept n member)
  released := by
    intro n known
    by_cases same : n = seq
    · exact .inr (by simp [same])
    · refine (tracks.released n known).imp (fun member => gone n member same) fun asked => ?_
      exact List.mem_append_left _ asked
  waits := by
    intro n calls member
    refine waits n member ?_
    rcases List.mem_append.mp calls with before | last
    · exact .inr (tracks.waits n before (kept n member))
    · exact .inl (List.mem_singleton.mp last)
  asked := by
    intro task n found
    rcases asked task n found with rfl | before
    · simp
    · exact List.mem_append_left _ (tracks.asked task n before)
  records := tracks.records
  inUse := by
    rintro n (known | calls)
    · exact tracks.inUse n (.inl known)
    · rcases List.mem_append.mp calls with before | last
      · exact tracks.inUse n (.inr before)
      · exact List.mem_singleton.mp last ▸ inUse

theorem waitDurable_tracks {task seq : Nat} (tracks : Tracks s) (free : task ∉ s.suspended) :
    Tracks (s.waitDurable task seq) := by
  unfold waitDurable
  rw [if_neg (by simp [tracks.always])]
  by_cases entered : seq ∈ s.waiters
  · have inUse := tracks.inUse seq (.inl (tracks.entries seq entered))
    simp only [if_pos inUse, if_pos entered]
    split
    · refine tracks.call inUse (fun n member => (List.mem_filter.mp member).1)
        (fun n member differ => List.mem_filter.mpr ⟨member, by simpa using differ⟩)
        (fun n member waits => ?_) (fun _ _ found => .inr found)
      exact waits.resolve_left (by simpa using (List.mem_filter.mp member).2)
    · refine tracks.call inUse (fun n member => member) (fun n member _ => member)
        (fun n _ waits => ?_) (fun task' n found => ?_)
      · rcases waits with rfl | ⟨task', found⟩
        · exact ⟨task, Dict.get?_set_self⟩
        · have other : task' ≠ task := fun same => free (same ▸ Dict.mem_of_get? found)
          exact ⟨task', (Dict.get?_set_ne other).trans found⟩
      · rw [Dict.get?_set] at found
        split at found
        · exact .inl (Option.some.inj found).symm
        · exact .inr found
  · by_cases inUse : seq ≤ s.writer.seq
    · simp only [if_pos inUse, if_neg entered]
      refine tracks.call inUse (fun _ member => member) (fun _ member _ => member)
        (fun n member waits => ?_) (fun _ _ found => .inr found)
      exact waits.resolve_left fun same => entered (same ▸ member)
    · simp only [if_neg inUse, if_neg entered]
      exact tracks

theorem wake_tracks {task : Nat} (tracks : Tracks s) : Tracks (s.wake task) := by
  unfold wake
  split
  · exact tracks
  · rename_i seq found
    split
    · have asked := tracks.asked task seq found
      refine { tracks with
        entries := fun n member => tracks.entries n (List.mem_filter.mp member).1
        released := fun n known => ?_
        waits := fun n calls member => ?_
        asked := fun task' n found' => ?_ }
      · by_cases same : n = seq
        · exact .inr (same ▸ asked)
        · refine (tracks.released n known).imp (fun member => ?_) id
          exact List.mem_filter.mpr ⟨member, by simpa using same⟩
      · obtain ⟨member, differ⟩ := List.mem_filter.mp member
        obtain ⟨task', waiting⟩ := tracks.waits n calls member
        -- The task that goes on waited for another number.
        have other : task' ≠ task := by
          rintro rfl
          rw [found] at waiting
          cases waiting
          simp at differ
        exact ⟨task', (Dict.get?_erase_ne other).trans waiting⟩
      · change (s.suspended.erase task).get? task' = some n at found'
        rw [Dict.get?_erase] at found'
        split at found'
        · cases found'
        · exact tracks.asked task' n found'
    · exact tracks

theorem step_tracks (tracks : Tracks s) (action : WaiterStep μ) : Tracks (s.step crc32 json action) := by
  cases action with
  | writer event =>
    cases event with
    | cancel => exact tracks
    | _ => exact writes_tracks tracks _
  | waitDurable task seq =>
    unfold step
    dsimp only
    split
    · exact tracks
    · rename_i free
      exact waitDurable_tracks tracks free
  | wake task => exact wake_tracks tracks

/-! ## Runs -/

/-- When nobody is suspended, the table has the records that nobody waited for. -/
theorem Tracks.left_over (tracks : Tracks s) (quiet : Quiet s) :
    n ∈ s.waiters ↔ (∃ rec ∈ s.writer.appended, rec.seq = n) ∧ n ∉ s.awaited := by
  constructor
  · intro member
    refine ⟨(tracks.records n).mp (tracks.entries n member), fun asked => ?_⟩
    obtain ⟨task, found⟩ := tracks.waits n asked member
    have suspended : task ∈ s.suspended.keys := Dict.mem_of_get? found
    simp [quiet.suspended] at suspended
  · rintro ⟨listed, unasked⟩
    exact (tracks.released n ((tracks.records n).mpr listed)).resolve_right unasked

/-- When all is quiet the table of waiters is empty. -/
def Released (s : Waiters μ) : Prop := Quiet s → s.waiters = []

/-- **Durability futures.** In every run under `fsync: always` the table is empty
whenever all is quiet, exactly if by then each record that was appended has been
waited for under its own number. -/
theorem waiters_released_iff (crc32 : List UInt8 → UInt32) (json : JsonCodec μ) (file : AofFile)
    (seq : Nat) (steps : List (WaiterStep μ)) :
    (∀ early, early <+: steps → Released (run (step crc32 json) (started file seq) early)) ↔
      ∀ early, early <+: steps → Quiet (run (step crc32 json) (started file seq) early) →
        Awaited (run (step crc32 json) (started file seq) early) := by
  refine forall₂_congr fun early _ => forall_congr' fun quiet => ?_
  have tracks : Tracks (run (step crc32 json) (started file seq) early) :=
    run_invariant (I := Tracks) (fun _ action tracks => step_tracks tracks action)
      (started_tracks file seq)
  rw [List.eq_nil_iff_forall_not_mem]
  constructor
  · intro empty rec listed
    by_contra unasked
    exact empty rec.seq ((tracks.left_over quiet).mpr ⟨⟨rec, listed, rfl⟩, unasked⟩)
  · intro awaited n member
    obtain ⟨⟨rec, listed, rfl⟩, unasked⟩ := (tracks.left_over quiet).mp member
    exact unasked (awaited rec listed)

/-- A command of two records, whose connection waits for the second. -/
def twoRecords : List (WaiterStep Unit) :=
  [.writer (.append .messagePublish () [1] 0), .writer (.append .messagePublish () [2] 0),
    .waitDurable 1 2, .writer .dequeue, .writer .collect, .writer .collect, .writer (.write 0),
    .writer .resume, .wake 1]

theorem first_record_stays : ¬ ∀ early, early <+: twoRecords →
    Released (run (step (fun _ => 0) noMetadata) (started ⟨[], [], 0⟩ 0) early) := by
  intro released
  have empty := released _ List.prefix_rfl ⟨rfl, trivial, rfl⟩
  exact absurd empty (by decide)

end Waiters
end OneOpenBroker.Persistence

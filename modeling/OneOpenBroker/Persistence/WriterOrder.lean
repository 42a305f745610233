import OneOpenBroker.Library.Lists
import OneOpenBroker.Persistence.AofScan
import OneOpenBroker.Persistence.Writer

/-! The order and the completeness of the file. Records go from the queue into
the hands of the writer task and from there into the file, always in front, so
the file has a prefix of what was appended. The entry that ends the task is
alone in the queue when the task finds it there. -/
namespace OneOpenBroker.Persistence.Writer
open Collections Systems Records

variable {μ : Type*} {crc32 : List UInt8 → UInt32} {json : JsonCodec μ} {w : Writer μ}
  {base : List UInt8} {done entries batch : List Item} {item : Item} {now : ℚ}

/-! ## Entries of the queue -/

theorem sentinel_stops : sentinel.stops = true := rfl

theorem made_of_mem {records : List (AOFRecord μ)} {items : List Item}
    (made : List.Forall₂ (Makes crc32 json) records items) (member : item ∈ items) :
    ∃ rec ∈ records, Makes crc32 json rec item :=
  Lists.exists_of_forall₂ made.flip member

/-- No record is taken for the entry that ends the task. -/
theorem Accounts.goes_on (accounts : Accounts crc32 json base w done entries)
    (member : item ∈ done ++ inHand w.task ++ entries) : item.stops = false := by
  obtain ⟨rec, listed, makes⟩ := made_of_mem accounts.made member
  have positive : 0 < item.seq := makes.2 ▸ (accounts.bound rec listed).1
  simp [Item.stops, Nat.ne_of_gt positive]

/-- Behind the records stands nothing but the entry that ends the task, once the
flush has been called. -/
theorem tail_shape {rest : List Item} (shape : item :: rest = [] ++ w.tail) :
    (w.flush = .waiting ∨ w.flush = .returned) ∧ item = sentinel ∧ rest = [] := by
  rw [List.nil_append, tail] at shape
  split at shape
  · rename_i called
    obtain ⟨rfl, rfl⟩ := List.cons.inj shape
    exact ⟨called.1, rfl, rfl⟩
  · cases shape

theorem blob_append {first second : List Item} : blob (first ++ second) = blob first ++ blob second := by
  simp [blob]

/-- Only futures of the batch are resolved. -/
theorem resolve_resolved {futures : Dict Nat Future} {s : Nat}
    (resolved : (resolve futures batch).get? s = some .resolved) :
    futures.get? s = some .resolved ∨ s ∈ batch.map (·.seq) := by
  induction batch generalizing futures with
  | nil => exact .inl resolved
  | cons item rest ih =>
    rcases ih resolved with before | later
    · dsimp only at before
      split at before
      · rw [Dict.get?_set] at before
        split at before
        · rename_i same
          exact .inr (List.mem_cons.mpr (.inl same))
        · exact .inl before
      · exact .inl before
    · exact .inr (List.mem_cons_of_mem _ later)

/-! ## One step -/

theorem started_accounts (fsync : Fsync) (file : AofFile) (seq : Nat) :
    Accounts crc32 json file.content (started fsync file seq : Writer μ) [] [] where
  made := .nil
  queued := rfl
  content := (List.append_nil _).symm
  resolved := fun _ found => nomatch found
  filed := fun _ same => nomatch same
  rising := List.Pairwise.nil
  bound := fun _ member => nomatch member
  closed := by simp [started]
  ended := fun same => nomatch same
  returned := fun same => nomatch same

/-- The task ends only after the last entry was put in the queue. -/
theorem Accounts.going (accounts : Accounts crc32 json base w done entries) {flush : Flush}
    (now : w.flush = flush) (early : flush ≠ .waiting ∧ flush ≠ .returned) : w.task ≠ .stopped := by
  intro stopped
  rcases (accounts.ended stopped).2 with same | same
  · exact early.1 (now.symm.trans same)
  · exact early.2 (now.symm.trans same)

/-- While records are taken the queue ends with the records. -/
theorem Accounts.unsealed (accounts : Accounts crc32 json base w done entries)
    (taking : w.closed = false) : w.flush = .uncalled ∧ w.task ≠ .stopped ∧ w.tail = [] := by
  have uncalled : w.flush = .uncalled := by
    by_contra called
    rw [accounts.closed.mpr called] at taking
    cases taking
  exact ⟨uncalled, accounts.going uncalled (by simp), by simp [tail, uncalled]⟩

theorem append_accounts {op : Op} {metadata : μ} {payload : List UInt8} {time : UInt64}
    (accounts : Accounts crc32 json base w done entries) : ∃ entries',
    Accounts crc32 json base (w.append crc32 json op metadata payload time) done entries' := by
  unfold append
  split
  · exact ⟨entries, accounts⟩
  · rename_i taking
    obtain ⟨uncalled, going, bare⟩ := accounts.unsealed (by simpa using taking)
    dsimp only
    split
    · exact ⟨entries, { accounts with
        bound := fun rec member => ⟨(accounts.bound rec member).1,
          Nat.le_succ_of_le (accounts.bound rec member).2⟩ }⟩
    · rename_i raw encoded
      let item : Item := ⟨w.seq + 1, raw, decide (w.fsync = .always)⟩
      refine ⟨entries ++ [item], ?_, ?_, accounts.content, fun s found => ?_, accounts.filed, ?_,
        ?_, accounts.closed, fun stopped => absurd stopped going, accounts.returned⟩
      · have more := List.rel_append accounts.made (.cons ⟨encoded, rfl⟩ .nil : List.Forall₂
          (Makes crc32 json) [_] [item])
        simpa using more
      · have same : w.queue = entries := by rw [accounts.queued, bare, List.append_nil]
        change w.queue ++ [item] = entries ++ [item] ++ w.tail
        rw [same, bare, List.append_nil]
      · have before : w.futures.get? s = some .resolved := by
          dsimp only at found
          split at found
          · rw [Dict.get?_set] at found
            split at found
            · cases found
            · exact found
          · exact found
        exact accounts.resolved s before
      · rw [List.map_append, List.pairwise_append]
        refine ⟨accounts.rising, List.pairwise_singleton _ _, fun s member s' last => ?_⟩
        obtain ⟨rec, listed, rfl⟩ := List.mem_map.mp member
        rw [List.mem_singleton.mp last]
        exact Nat.lt_succ_of_le (accounts.bound rec listed).2
      · intro rec member
        rcases List.mem_append.mp member with before | last
        · exact ⟨(accounts.bound rec before).1, Nat.le_succ_of_le (accounts.bound rec before).2⟩
        · rw [List.mem_singleton.mp last]
          exact ⟨Nat.succ_pos _, le_rfl⟩

theorem dequeue_accounts (accounts : Accounts crc32 json base w done entries) (task : w.task = .idle) :
    ∃ entries', Accounts crc32 json base w.dequeue done entries' := by
  have going : w.task ≠ .stopped := by simp [task]
  have nothing : inHand w.task = [] := by rw [task]; rfl
  unfold dequeue
  split
  · exact ⟨entries, accounts⟩
  · rename_i item rest shape
    have queued := accounts.queued
    rw [shape] at queued
    cases entries with
    | nil =>
      -- The queue has no records, so its first entry is the one that ends the task.
      obtain ⟨called, rfl, rfl⟩ := tail_shape queued
      rw [if_pos sentinel_stops]
      refine ⟨[], { accounts with
        made := by
          have made := accounts.made
          rw [nothing] at made
          simpa [inHand] using made
        queued := by simp [tail]
        filed := fun _ same => nomatch same
        ended := fun _ => ⟨rfl, called⟩
        returned := fun _ => rfl }⟩
    | cons first entries =>
      obtain ⟨rfl, rfl⟩ : item = first ∧ rest = entries ++ w.tail := by simpa using queued
      have goes : item.stops = false := accounts.goes_on (by simp)
      rw [if_neg (by simp [goes])]
      refine ⟨entries, { accounts with
        made := ?_
        queued := ?_
        filed := fun _ same => nomatch same
        ended := fun same => nomatch same
        returned := fun called => absurd (accounts.returned called) going }⟩
      · have made := accounts.made
        rw [nothing] at made
        simpa [inHand] using made
      · simp [tail, going]

theorem collect_accounts (accounts : Accounts crc32 json base w done entries)
    (task : w.task = .collecting batch) :
    ∃ entries', Accounts crc32 json base (w.collect batch) done entries' := by
  have going : w.task ≠ .stopped := by simp [task]
  have held : inHand w.task = batch := by rw [task]; rfl
  have handed : Accounts crc32 json base { w with task := .writing batch } done entries :=
    { accounts with
      made := by simpa [inHand, task] using accounts.made
      queued := by simpa [tail, task] using accounts.queued
      filed := fun _ same => nomatch same
      ended := fun same => nomatch same
      returned := fun called => absurd (accounts.returned called) going }
  unfold collect
  split
  · exact ⟨entries, handed⟩
  · rename_i item rest shape
    have queued := accounts.queued
    rw [shape] at queued
    cases entries with
    | nil =>
      -- Nothing was appended behind the entry that ends the task: it goes back to its place.
      obtain ⟨called, rfl, rfl⟩ := tail_shape queued
      rw [if_pos sentinel_stops]
      exact ⟨[], { handed with queued := by simp [tail, called] }⟩
    | cons first entries =>
      obtain ⟨rfl, rfl⟩ : item = first ∧ rest = entries ++ w.tail := by simpa using queued
      have goes : item.stops = false := accounts.goes_on (by simp)
      rw [if_neg (by simp [goes])]
      refine ⟨entries, { accounts with
        made := ?_
        queued := by simp [tail, going]
        filed := fun _ same => nomatch same
        ended := fun same => nomatch same
        returned := fun called => absurd (accounts.returned called) going }⟩
      have made := accounts.made
      rw [held] at made
      simpa [inHand] using made

/-- A batch that was written is in the file, whether or not an error follows. -/
theorem filed_accounts {file : AofFile} {task : Task}
    (accounts : Accounts crc32 json base w done entries) (writing : w.task = .writing batch)
    (content : file.content = w.file.content ++ blob batch) (nothing : inHand task = [])
    (after : task = .written batch ∨ task = .failed []) :
    Accounts crc32 json base { w with file, task } (done ++ batch) entries := by
  have going : w.task ≠ .stopped := by simp [writing]
  have goes : task ≠ .stopped := by rcases after with rfl | rfl <;> simp
  refine { accounts with
    made := ?_
    queued := ?_
    content := by rw [content, accounts.content, blob_append, List.append_assoc]
    resolved := fun s found => ?_
    filed := fun other same item member => ?_
    ended := fun stopped => absurd stopped goes
    returned := fun called => absurd (accounts.returned called) going }
  · have made := accounts.made
    have held : inHand w.task = batch := by rw [writing]; rfl
    rw [held] at made
    simpa [nothing] using made
  · have queued := accounts.queued
    simpa [tail, goes, going] using queued
  · rw [List.map_append]
    exact List.mem_append_left _ (accounts.resolved s found)
  · rcases after with rfl | rfl
    · cases same
      exact List.mem_append_right _ member
    · cases same

theorem resume_accounts (accounts : Accounts crc32 json base w done entries)
    (task : w.task = .written batch) : Accounts crc32 json base (w.resume batch) done entries where
  made := by simpa [resume, inHand, task] using accounts.made
  queued := by simpa [resume, tail, task] using accounts.queued
  content := accounts.content
  resolved := by
    intro s found
    rcases resolve_resolved found with before | member
    · exact accounts.resolved s before
    · obtain ⟨item, listed, rfl⟩ := List.mem_map.mp member
      exact List.mem_map_of_mem (accounts.filed batch task item listed)
  filed := fun _ same => nomatch same
  rising := accounts.rising
  bound := accounts.bound
  closed := accounts.closed
  ended := fun same => nomatch same
  returned := fun called => nomatch task.symm.trans (accounts.returned called)

/-- Every step keeps account of what was appended. -/
theorem step_accounts (accounts : Accounts crc32 json base w done entries) (event : WriterEvent μ) :
    ∃ done' entries', Accounts crc32 json base (w.step crc32 json event) done' entries' := by
  have takes := step_takes crc32 json w event
  generalize w.step crc32 json event = w' at takes ⊢
  cases takes with
  | append op metadata payload time => exact ⟨done, append_accounts accounts⟩
  | dequeue task => exact ⟨done, dequeue_accounts accounts task⟩
  | collect task => exact ⟨done, collect_accounts accounts task⟩
  | write now task =>
    exact ⟨_, entries, filed_accounts accounts task AofFile.writeBytes_content rfl (.inl rfl)⟩
  | resume task => exact ⟨done, entries, resume_accounts accounts task⟩
  | writeError task =>
    exact ⟨done, entries, { accounts with
      made := by simpa [inHand, task] using accounts.made
      queued := by simpa [tail, task] using accounts.queued
      filed := fun _ same => absurd same (by simp)
      ended := fun same => absurd same (by simp)
      returned := fun called => absurd (task.symm.trans (accounts.returned called)) (by simp) }⟩
  | fsyncError now task => exact ⟨_, entries, filed_accounts accounts task rfl rfl (.inr rfl)⟩
  | cancel seq pending =>
    refine ⟨done, entries, { accounts with resolved := fun s found => accounts.resolved s ?_ }⟩
    rw [Dict.get?_set] at found
    split at found
    · cases found
    · exact found
  | flushAndStop uncalled =>
    have going := accounts.going uncalled (by simp)
    exact ⟨done, entries, { accounts with
      queued := by simpa [tail, uncalled] using accounts.queued
      closed := by simp
      ended := fun stopped => absurd stopped going
      returned := fun same => absurd same (by simp) }⟩
  | putSentinel closing =>
    have going := accounts.going closing (by simp)
    have bare : w.queue = entries := by simpa [tail, closing] using accounts.queued
    exact ⟨done, entries, { accounts with
      queued := by simp [tail, going, bare]
      closed := by simpa [closing] using accounts.closed
      ended := fun stopped => absurd stopped going
      returned := fun same => absurd same (by simp) }⟩
  | finish waiting stopped =>
    exact ⟨done, entries, { accounts with
      queued := by simpa [tail, stopped] using accounts.queued
      closed := by simpa [waiting] using accounts.closed
      ended := fun _ => ⟨(accounts.ended stopped).1, .inr rfl⟩
      returned := fun _ => stopped }⟩
  | nothing off => exact ⟨done, entries, accounts⟩

/-! ## Runs -/

/-- The file has the first records that were appended, a future is resolved only
when its record is among them, and after `flush_and_stop` they are all. -/
def Complete (crc32 : List UInt8 → UInt32) (json : JsonCodec μ) (base : List UInt8) (w : Writer μ) :
    Prop :=
  ∃ n pieces, Encoded crc32 json (w.appended.take n) pieces ∧
    w.file.content = base ++ pieces.flatten ∧
    (∀ s, w.futures.get? s = some .resolved → ∃ rec ∈ w.appended.take n, rec.seq = s) ∧
    (w.flush = .returned → w.appended.length ≤ n) ∧ (w.appended.map (·.seq)).Pairwise (· < ·)

theorem Accounts.complete (accounts : Accounts crc32 json base w done entries) :
    Complete crc32 json base w := by
  have made := accounts.made
  rw [List.append_assoc] at made
  have first := List.forall₂_take_append _ _ _ made
  refine ⟨done.length, done.map Item.raw, ?_, accounts.content, fun s found => ?_, fun returned => ?_,
    accounts.rising⟩
  · refine List.forall₂_map_right_iff.mpr (first.imp fun _ _ both => ?_)
    exact both.1
  · obtain ⟨item, listed, rfl⟩ := List.mem_map.mp (accounts.resolved s found)
    obtain ⟨rec, member, makes⟩ := made_of_mem first listed
    exact ⟨rec, member, makes.2.symm⟩
  · have stopped := accounts.returned returned
    have all := made.length_eq
    rw [stopped, (accounts.ended stopped).1] at all
    simpa [inHand] using all.le

/-- **Order and completeness of the file.** In every run of appends, of steps of
the writer task and of one call of `flush_and_stop`, in whatever order and with
whatever errors of the file, the file has a prefix of what was appended. -/
theorem writer_complete (crc32 : List UInt8 → UInt32) (json : JsonCodec μ) (fsync : Fsync)
    (file : AofFile) (seq : Nat) (events : List (WriterEvent μ)) :
    Complete crc32 json file.content (run (step crc32 json) (started fsync file seq) events) := by
  have kept : ∃ done entries, Accounts crc32 json file.content
      (run (step crc32 json) (started fsync file seq) events) done entries :=
    run_invariant (I := fun w => ∃ done entries, Accounts crc32 json file.content w done entries)
      (fun w event ⟨done, entries, accounts⟩ => step_accounts accounts event)
      ⟨[], [], started_accounts fsync file seq⟩
  obtain ⟨done, entries, accounts⟩ := kept
  exact accounts.complete

end OneOpenBroker.Persistence.Writer

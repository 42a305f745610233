import OneOpenBroker.Persistence.AofScan
import OneOpenBroker.Persistence.Lifecycle
import OneOpenBroker.Persistence.Resurrection

/-! Sequence numbers over the life of a broker. The numbers in the AOF
ascend, those that wait to be written come after them, and the writer is
behind neither them nor the snapshot. A start goes on after both. -/
namespace OneOpenBroker.Persistence.Lifecycle
open Systems Streams Records

variable {ρ σ μ : Type*} {crc32 : List UInt8 → UInt32} {json : JsonCodec μ} {rt : Runtime ρ σ μ}
  {disk : Disk σ} {w : AOFWriter} {p : Process ρ} {s : State ρ σ μ}
  {records waiting : List (AOFRecord μ)} {pieces : List (List UInt8)} {made : AOFRecord μ → Prop}

/-- Every record has a higher number than those before it. -/
def Ascending (records : List (AOFRecord μ)) : Prop := (records.map (·.seq)).Pairwise (· < ·)

/-- The number up to which the snapshot covers the journal. -/
def snapSeq (disk : Disk σ) : Nat := (disk.snapshot.map (·.1)).getD 0

/-- The runtime that the records are applied to. -/
def restored (rt : Runtime ρ σ μ) (r : ρ) (disk : Disk σ) : ρ :=
  (disk.snapshot.map fun file => rt.restoreSnapshot r file.2).getD r

/-- The records that a recovery applies. -/
def uncovered (snapSeq : Nat) (records : List (AOFRecord μ)) : List (AOFRecord μ) :=
  records.filter (snapSeq < ·.seq)

/-- The number that a recovery goes on with. -/
def lastSeq (snapSeq : Nat) (records : List (AOFRecord μ)) : Nat :=
  ((uncovered snapSeq records).getLast?.map (·.seq)).getD snapSeq

/-! ## Recovery -/

theorem applyRecords_eq (snapSeq : Nat) (records : List (AOFRecord μ)) (r : ρ) :
    applyRecords rt snapSeq records r = ((uncovered snapSeq records).length,
      lastSeq snapSeq records, (uncovered snapSeq records).foldl rt.applyRecord r) := by
  have loop (records : List (AOFRecord μ)) : ∀ (n last : Nat) (r : ρ),
      records.foldl (fun done rec => if rec.seq ≤ snapSeq then (done.1, done.2.1, done.2.2)
        else (done.1 + 1, rec.seq, rt.applyRecord done.2.2 rec)) (n, last, r) =
      (n + (uncovered snapSeq records).length,
        ((uncovered snapSeq records).getLast?.map (·.seq)).getD last,
        (uncovered snapSeq records).foldl rt.applyRecord r) := by
    induction records with
    | nil => exact fun _ _ _ => rfl
    | cons rec records ih =>
      intro n last r
      unfold uncovered at ih ⊢
      by_cases covered : rec.seq ≤ snapSeq
      · rw [List.foldl_cons, List.filter_cons_of_neg (by simpa using covered)]
        simpa only [if_pos covered] using ih n last r
      · rw [List.foldl_cons, List.filter_cons_of_pos (by simpa using covered)]
        simp only [if_neg covered, ih, List.length_cons, List.foldl_cons, List.getLast?_cons,
          Option.map_some, Option.getD_some]
        refine Prod.ext (by omega) (Prod.ext ?_ rfl)
        cases (records.filter (snapSeq < ·.seq)).getLast? <;> rfl
  have whole := loop records 0 snapSeq r
  rwa [Nat.zero_add] at whole

theorem recoverInto_eq (r : ρ) (disk : Disk σ) : recoverInto crc32 json rt r disk =
    (lastSeq (snapSeq disk) (readAof crc32 json disk.aof).1,
      rt.tick ((uncovered (snapSeq disk) (readAof crc32 json disk.aof).1).foldl rt.applyRecord
        (restored rt r disk)),
      { disk with aof := disk.aof.map (·.take (readAof crc32 json disk.aof).2) }) := by
  obtain ⟨aof, snapshot⟩ := disk
  cases snapshot <;> simp only [recoverInto, applyRecords_eq] <;> rfl

theorem Ascending.le_last (ascending : Ascending records) {last rec : AOFRecord μ}
    (ends : records.getLast? = some last) (member : rec ∈ records) : rec.seq ≤ last.seq := by
  obtain ⟨first, rfl⟩ := List.getLast?_eq_some_iff.mp ends
  unfold Ascending at ascending
  rw [List.map_append, List.pairwise_append] at ascending
  rcases List.mem_append.mp member with inside | same
  · exact Nat.le_of_lt (ascending.2.2 _ (List.mem_map_of_mem inside) _ (by simp))
  · rw [List.mem_singleton.mp same]

/-- A recovery goes on after the snapshot and after every record that is left. -/
theorem lastSeq_bounds (ascending : Ascending records) (snapSeq : Nat) :
    snapSeq ≤ lastSeq snapSeq records ∧ ∀ rec ∈ records, rec.seq ≤ lastSeq snapSeq records := by
  have later : Ascending (uncovered snapSeq records) :=
    List.Pairwise.sublist (List.filter_sublist.map _) ascending
  have member (rec : AOFRecord μ) : rec ∈ uncovered snapSeq records ↔
      rec ∈ records ∧ snapSeq < rec.seq := by simp [uncovered]
  unfold lastSeq
  cases ends : (uncovered snapSeq records).getLast? with
  | none =>
    have nothing := List.getLast?_eq_none_iff.mp ends
    refine ⟨le_rfl, fun rec inside => not_lt.mp fun above => ?_⟩
    have there := (member rec).mpr ⟨inside, above⟩
    rw [nothing] at there
    cases there
  | some last =>
    have above := ((member last).mp (List.mem_of_getLast? ends)).2
    refine ⟨Nat.le_of_lt above, fun rec inside => ?_⟩
    by_cases after : snapSeq < rec.seq
    · exact later.le_last ends ((member rec).mpr ⟨inside, after⟩)
    · exact le_trans (not_lt.mp after) (Nat.le_of_lt above)

/-! ## What the files hold -/

/-- The AOF is the beginning of the encodings of records with ascending
numbers, all of them made by appends. -/
def Sound (crc32 : List UInt8 → UInt32) (json : JsonCodec μ) (made : AOFRecord μ → Prop)
    (disk : Disk σ) : Prop :=
  ∃ records pieces, Encoded crc32 json records pieces ∧ Ascending records ∧
    (∀ rec ∈ records, made rec) ∧ ∃ k, disk.aof.getD [] = pieces.flatten.take k

/-- The writer goes on where the AOF and the snapshot end. -/
structure Follows (crc32 : List UInt8 → UInt32) (json : JsonCodec μ) (made : AOFRecord μ → Prop)
    (disk : Disk σ) (w : AOFWriter) (records waiting : List (AOFRecord μ))
    (pieces : List (List UInt8)) : Prop where
  written : Encoded crc32 json records pieces
  file : disk.aof = some pieces.flatten
  queued : Encoded crc32 json waiting (w.queue.map (·.2))
  ascending : Ascending (records ++ waiting)
  appended : ∀ rec ∈ records ++ waiting, made rec
  bound : ∀ rec ∈ records ++ waiting, rec.seq ≤ w.seq
  covered : snapSeq disk ≤ w.seq

/-- What holds of the files, the writer and the appends since the snapshot. -/
structure Ordered (crc32 : List UInt8 → UInt32) (json : JsonCodec μ) (made : AOFRecord μ → Prop)
    (s : State ρ σ μ) : Prop where
  files : Sound crc32 json made s.disk
  follows : ∀ p ∈ s.process, ∃ records waiting pieces,
    Follows crc32 json made s.disk p.writer records waiting pieces
  since : ∀ rec ∈ s.since, snapSeq s.disk < rec.seq

theorem Follows.sound (follows : Follows crc32 json made disk w records waiting pieces) :
    Sound crc32 json made disk := by
  refine ⟨records, pieces, follows.written, ?_,
    fun rec member => follows.appended rec (List.mem_append_left _ member), pieces.flatten.length, ?_⟩
  · exact List.Pairwise.sublist ((List.sublist_append_left _ _).map _) follows.ascending
  · rw [follows.file, List.take_length]
    rfl

theorem seqs_of_forall₂ {found : List (AOFRecord μ)}
    (same : List.Forall₂ (fun rec found => found.seq = rec.seq) records found) :
    found.map (·.seq) = records.map (·.seq) := by
  induction same with
  | nil => rfl
  | cons first _ ih => rw [List.map_cons, List.map_cons, first, ih]

/-- What is read of a file with ascending records: the numbers of some of
them, and their bytes are what is kept. -/
theorem encoded_read (encoded : Encoded crc32 json records pieces) (k : Nat) :
    ∃ n, Encoded crc32 json (records.take n) (pieces.take n) ∧
      (readAof crc32 json (some (pieces.flatten.take k))).1.map (·.seq) =
        (records.take n).map (·.seq) ∧
      (pieces.flatten.take k).take (readAof crc32 json (some (pieces.flatten.take k))).2 =
        (pieces.take n).flatten := by
  have carried : List.Forall₂ (fun rec piece => (decoder crc32 json).Carries
      (fun found => found.seq = rec.seq) piece) records pieces :=
    encoded.imp fun _ _ made => encodeRecord_carries made
  obtain ⟨n, _, items, rest, ends⟩ := Decoder.scan_carried carried k
  have whole : pieces.flatten = (pieces.take n).flatten ++ (pieces.drop n).flatten := by
    rw [← List.flatten_append, List.take_append_drop]
  have part : (pieces.take n).flatten.length ≤ pieces.flatten.length := by
    rw [whole, List.length_append]
    omega
  refine ⟨n, List.forall₂_take n encoded, ?_, ?_⟩
  · rw [readAof_scan]
    exact seqs_of_forall₂ items
  · have keep : (readAof crc32 json (some (pieces.flatten.take k))).2 =
        (pieces.take n).flatten.length := by
      rw [readAof_scan, rest]
      simp only [List.length_drop, List.length_take]
      omega
    rw [keep, List.take_take, Nat.min_eq_left ends, whole, List.take_left]

/-- A file that is not there is read as an empty one. -/
theorem readAof_getD (aof : Option (List UInt8)) :
    readAof crc32 json aof = readAof crc32 json (some (aof.getD [])) := by
  cases aof <;> rfl

theorem Sound.read (sound : Sound crc32 json made disk) : ∃ records pieces,
    Encoded crc32 json records pieces ∧ Ascending records ∧ (∀ rec ∈ records, made rec) ∧
      (readAof crc32 json disk.aof).1.map (·.seq) = records.map (·.seq) ∧
      (disk.aof.getD []).take (readAof crc32 json disk.aof).2 = pieces.flatten := by
  obtain ⟨records, pieces, encoded, ascending, appended, k, file⟩ := sound
  obtain ⟨n, left, seqs, kept⟩ := encoded_read encoded k
  rw [← file, ← readAof_getD] at seqs kept
  exact ⟨records.take n, pieces.take n, left,
    List.Pairwise.sublist ((List.take_sublist n records).map _) ascending,
    fun rec member => appended rec (List.mem_of_mem_take member), seqs, kept⟩

theorem Sound.ascending (sound : Sound crc32 json made disk) :
    Ascending (readAof crc32 json disk.aof).1 := by
  obtain ⟨records, _, _, ascending, _, seqs, _⟩ := sound.read
  unfold Ascending at ascending ⊢
  rwa [seqs]

theorem start_eq (s : State ρ σ μ) : s.start crc32 json rt =
    { disk := { aof := some ((s.disk.aof.getD []).take (readAof crc32 json s.disk.aof).2)
                snapshot := s.disk.snapshot }
      process := some
        { runtime := rt.tick ((uncovered (snapSeq s.disk) (readAof crc32 json s.disk.aof).1).foldl
            rt.applyRecord (restored rt rt.fresh s.disk))
          writer := ({} : AOFWriter).attachExistingSeq
            (lastSeq (snapSeq s.disk) (readAof crc32 json s.disk.aof).1) }
      since := s.since } := by
  unfold State.start
  rw [recoverInto_eq]
  cases s.disk.aof <;> simp

/-- After a recovery the writer goes on after all that is left. -/
theorem start_follows (rt : Runtime ρ σ μ) (sound : Sound crc32 json made s.disk) : ∃ records pieces,
    Follows crc32 json made (s.start crc32 json rt).disk (({} : AOFWriter).attachExistingSeq
      (lastSeq (snapSeq s.disk) (readAof crc32 json s.disk.aof).1)) records [] pieces := by
  obtain ⟨records, pieces, encoded, ascending, appended, seqs, kept⟩ := sound.read
  obtain ⟨covered, bound⟩ := lastSeq_bounds sound.ascending (snapSeq s.disk)
  rw [start_eq]
  refine ⟨records, pieces, encoded, congrArg some kept, .nil, by rwa [List.append_nil],
    by rwa [List.append_nil], fun rec member => ?_, covered⟩
  rw [List.append_nil] at member
  have there : rec.seq ∈ (readAof crc32 json s.disk.aof).1.map (·.seq) := by
    rw [seqs]
    exact List.mem_map_of_mem member
  obtain ⟨found, inside, same⟩ := List.mem_map.mp there
  rw [← same]
  exact bound found inside

/-! ## Steps -/

theorem Follows.append (follows : Follows crc32 json made disk w records waiting pieces) (op : Op)
    (metadata : μ) (payload : List UInt8) (time : UInt64)
    (makes : ∀ seq, made ⟨seq, op, metadata, payload, time⟩) : ∃ waiting,
      Follows crc32 json made disk (w.append crc32 json op metadata payload time) records waiting pieces := by
  unfold AOFWriter.append
  split
  · exact ⟨waiting, follows⟩
  dsimp only
  have later : ∀ rec ∈ records ++ waiting, rec.seq < w.seq + 1 := fun rec member =>
    Nat.lt_succ_of_le (follows.bound rec member)
  split
  · exact ⟨waiting, follows.written, follows.file, follows.queued, follows.ascending, follows.appended,
      fun rec member => Nat.le_of_lt (later rec member), Nat.le_succ_of_le follows.covered⟩
  · rename_i raw encoded
    refine ⟨waiting ++ [w.record op metadata payload time], follows.written, follows.file, ?_, ?_,
      fun rec member => ?_, fun rec member => ?_, Nat.le_succ_of_le follows.covered⟩
    · rw [List.map_append]
      exact List.rel_append follows.queued (.cons encoded .nil)
    · unfold Ascending
      rw [← List.append_assoc, List.map_append, List.pairwise_append]
      refine ⟨follows.ascending, List.pairwise_singleton _ _, ?_⟩
      simp only [List.mem_map, forall_exists_index, and_imp, List.mem_singleton]
      rintro _ rec member rfl _ _ rfl rfl
      exact later rec member
    · rw [← List.append_assoc, List.mem_append, List.mem_singleton] at member
      rcases member with member | rfl
      · exact follows.appended rec member
      · exact makes _
    · rw [← List.append_assoc, List.mem_append, List.mem_singleton] at member
      rcases member with member | rfl
      · exact Nat.le_of_lt (later rec member)
      · exact le_rfl

theorem Follows.write (follows : Follows crc32 json made s.disk p.writer records waiting pieces) :
    Follows crc32 json made (s.write p).disk p.writer.written (records ++ waiting) []
      (pieces ++ p.writer.queue.map (·.2)) where
  written := List.rel_append follows.written follows.queued
  file := by simp [State.write, follows.file, AOFWriter.blob]
  queued := .nil
  ascending := by rw [List.append_nil]; exact follows.ascending
  appended := by rw [List.append_nil]; exact follows.appended
  bound := by rw [List.append_nil]; exact follows.bound
  covered := follows.covered

theorem Follows.snapshot (rt : Runtime ρ σ μ)
    (follows : Follows crc32 json made s.disk p.writer records waiting pieces) :
    Follows crc32 json made (s.writeSnapshot rt p).disk p.writer records waiting pieces :=
  { follows with covered := le_rfl }

theorem Sound.cut (sound : Sound crc32 json made disk) (k : Nat) :
    Sound crc32 json made { disk with aof := disk.aof.map (·.take k) } := by
  obtain ⟨records, pieces, encoded, ascending, appended, k', file⟩ := sound
  refine ⟨records, pieces, encoded, ascending, appended, min k k', ?_⟩
  have short : (disk.aof.map (·.take k)).getD [] = (disk.aof.getD []).take k := by
    cases disk.aof <;> simp
  rw [short, file, List.take_take]

/-- A broker whose writer follows its files. -/
theorem Follows.ordered (follows : Follows crc32 json made disk w records waiting pieces)
    (files : s.disk = disk) (process : s.process = none ∨ ∃ r, s.process = some ⟨r, w⟩)
    (since : ∀ rec ∈ s.since, snapSeq disk < rec.seq) : Ordered crc32 json made s := by
  subst files
  refine ⟨follows.sound, fun p member => ⟨records, waiting, pieces, ?_⟩, since⟩
  rcases process with stopped | ⟨r, running⟩
  · rw [stopped] at member
    cases member
  · rw [running] at member
    obtain rfl := Option.some.inj member
    exact follows

/-- An event that appends makes a record of the kind, whatever number it gets. -/
def Event.Makes (made : AOFRecord μ → Prop) : Event ρ μ → Prop
  | .append op metadata payload time => ∀ seq, made ⟨seq, op, metadata, payload, time⟩
  | _ => True

/-- What one event preserves. -/
theorem step_ordered (ordered : Ordered crc32 json made s) (event : Event ρ μ)
    (makes : event.Makes made) : Ordered crc32 json made (s.step crc32 json rt event) := by
  have crashed (k : Nat) : Ordered crc32 json made (s.crash k) :=
    ⟨ordered.files.cut k, by simp [State.crash], ordered.since⟩
  cases running : s.process with
  | none =>
    cases event with
    | crash k => simpa only [State.step] using crashed k
    | start =>
      simp only [State.step, running]
      obtain ⟨records, pieces, follows⟩ := start_follows rt ordered.files
      rw [start_eq] at follows ⊢
      exact follows.ordered rfl (.inr ⟨_, rfl⟩) ordered.since
    | _ => simpa only [State.step, running] using ordered
  | some p =>
    obtain ⟨records, waiting, pieces, follows⟩ := ordered.follows p running
    cases event with
    | crash k => simpa only [State.step] using crashed k
    | start => simpa only [State.step, running] using ordered
    | command runtime =>
      simp only [State.step, running]
      exact follows.ordered rfl (.inr ⟨runtime, rfl⟩) ordered.since
    | append op metadata payload time =>
      simp only [State.step, running]
      obtain ⟨waiting, appended⟩ := follows.append op metadata payload time makes
      refine appended.ordered rfl (.inr ⟨p.runtime, rfl⟩) fun rec member => ?_
      unfold State.append at member
      rcases List.mem_append.mp member with before | made
      · exact ordered.since rec before
      · split at made
        · cases made
        · rw [List.mem_singleton.mp made]
          exact Nat.lt_succ_of_le follows.covered
    | write =>
      simp only [State.step, running]
      exact follows.write.ordered rfl (.inr ⟨p.runtime, rfl⟩) ordered.since
    | snapshot =>
      simp only [State.step, running]
      exact (follows.snapshot rt).ordered rfl (.inr ⟨p.runtime, running⟩) (fun rec none => by cases none)
    | close =>
      simp only [State.step, running]
      have closed : Follows crc32 json made s.disk { p.writer with closed := true } records waiting
        pieces := { follows with }
      exact closed.ordered rfl (.inr ⟨p.runtime, rfl⟩) ordered.since
    | shutdown snapshotOnShutdown =>
      simp only [State.step, running, State.shutdown]
      cases snapshotOnShutdown with
      | false => exact follows.write.ordered rfl (.inl rfl) ordered.since
      | true =>
        have later : Follows crc32 json made ((s.write p).writeSnapshot rt p).disk p.writer.written
            (records ++ waiting) [] (pieces ++ p.writer.queue.map (·.2)) :=
          { follows.write with covered := le_rfl }
        exact later.ordered rfl (.inl rfl) (fun rec none => by cases none)

/-! ## Histories -/

/-- The files and the broker after a history that began with no files. -/
def after (crc32 : List UInt8 → UInt32) (json : JsonCodec μ) (rt : Runtime ρ σ μ)
    (events : List (Event ρ μ)) : State ρ σ μ :=
  run (State.step crc32 json rt) {} events

theorem after_ordered {events : List (Event ρ μ)} (makes : ∀ event ∈ events, event.Makes made) :
    Ordered crc32 json made (after crc32 json rt events) := by
  have start : Ordered crc32 json made ({} : State ρ σ μ) :=
    { files := ⟨[], [], .nil, List.Pairwise.nil, by simp, 0, rfl⟩
      follows := by
        intro p none
        cases none
      since := by
        intro rec none
        cases none }
  have only : Allowed (State.step crc32 json rt) (fun _ event => event.Makes made) {} events :=
    allowed_of_forall makes _
  exact run_preserves (I := Ordered crc32 json made)
    (fun _ event ordered makes => step_ordered ordered event makes) start only

/-- Where a file ends among the encodings of records: the first `n` of them are
wholly in it, and those are what is read. -/
theorem encoded_contained {aof : Option (List UInt8)} {k : Nat}
    (encoded : Encoded crc32 json records pieces)
    (loads : ∀ rec ∈ records, json.loads (json.dumps rec.metadata) = .ok rec.metadata)
    (filled : ∀ rec ∈ records, json.dumps rec.metadata ≠ [])
    (file : aof.getD [] = pieces.flatten.take k) : ∃ n,
      (∀ m ≤ pieces.length, (pieces.take m).flatten.length ≤ (aof.getD []).length ↔ m ≤ n) ∧
      readAof crc32 json aof = (records.take n, (pieces.take n).flatten.length) := by
  obtain ⟨n, _, read, within⟩ := readAof_take (encoded.encodes loads filled) k
  refine ⟨n, fun m bound => ?_, by rw [readAof_getD, file, read]⟩
  have part : (pieces.take m).flatten.length ≤ pieces.flatten.length := by
    conv_rhs => rw [← List.take_append_drop m pieces, List.flatten_append, List.length_append]
    omega
  rw [← within m bound, file, List.length_take, Nat.le_min, and_iff_left part]

/-- **Sequence numbers.** After every history of appends, writes, snapshots,
crashes, shutdowns and starts the AOF is the beginning of the encodings of
records that were appended, with ascending numbers, and the whole of them while
a broker runs. A start applies exactly those of them that are wholly in the
file and have a number above that of the snapshot, in order, and every record
that was appended since the snapshot has such a number. -/
theorem sequence_kept (crc32 : List UInt8 → UInt32) (json : JsonCodec μ) (rt : Runtime ρ σ μ)
    (events : List (Event ρ μ))
    (loads : ∀ op metadata payload time, Event.append op metadata payload time ∈ events →
      json.loads (json.dumps metadata) = .ok metadata)
    (filled : ∀ op metadata payload time, Event.append op metadata payload time ∈ events →
      json.dumps metadata ≠ []) :
    (∃ records pieces n, Encoded crc32 json records pieces ∧ Ascending records ∧
      (∀ rec ∈ records, Event.append rec.op rec.metadata rec.payload rec.timestamp ∈ events) ∧
      (after crc32 json rt events).disk.aof.getD [] <+: pieces.flatten ∧
      ((after crc32 json rt events).process ≠ none →
        (after crc32 json rt events).disk.aof = some pieces.flatten) ∧
      (∀ m ≤ pieces.length, (pieces.take m).flatten.length ≤
        ((after crc32 json rt events).disk.aof.getD []).length ↔ m ≤ n) ∧
      readAof crc32 json (after crc32 json rt events).disk.aof =
        (records.take n, (pieces.take n).flatten.length) ∧
      ((after crc32 json rt events).process = none → ∃ writer,
        ((after crc32 json rt events).step crc32 json rt .start).process = some
          ⟨rt.tick (((records.take n).filter
              (snapSeq (after crc32 json rt events).disk < ·.seq)).foldl rt.applyRecord
                (restored rt rt.fresh (after crc32 json rt events).disk)), writer⟩)) ∧
    ∀ rec ∈ (after crc32 json rt events).since,
      snapSeq (after crc32 json rt events).disk < rec.seq := by
  have ordered : Ordered crc32 json
      (fun rec => Event.append rec.op rec.metadata rec.payload rec.timestamp ∈ events)
      (after crc32 json rt events) := by
    apply after_ordered
    intro event member
    cases event with
    | append op metadata payload time => exact fun _ => member
    | _ => trivial
  generalize after crc32 json rt events = s at ordered ⊢
  refine ⟨?_, ordered.since⟩
  obtain ⟨records, pieces, encoded, ascending, appended, whole, k, file⟩ : ∃ records pieces,
      Encoded crc32 json records pieces ∧ Ascending records ∧
      (∀ rec ∈ records, Event.append rec.op rec.metadata rec.payload rec.timestamp ∈ events) ∧
      (s.process ≠ none → s.disk.aof = some pieces.flatten) ∧
      ∃ k, s.disk.aof.getD [] = pieces.flatten.take k := by
    cases running : s.process with
    | none =>
      obtain ⟨records, pieces, encoded, ascending, appended, file⟩ := ordered.files
      exact ⟨records, pieces, encoded, ascending, appended, fun going => absurd rfl going, file⟩
    | some p =>
      obtain ⟨records, waiting, pieces, follows⟩ := ordered.follows p running
      refine ⟨records, pieces, follows.written, ?_, fun rec member =>
        follows.appended rec (List.mem_append_left _ member), fun _ => follows.file,
        pieces.flatten.length, ?_⟩
      · exact List.Pairwise.sublist ((List.sublist_append_left _ _).map _) follows.ascending
      · rw [follows.file, List.take_length]
        rfl
  obtain ⟨n, within, read⟩ := encoded_contained encoded
    (fun rec member => loads rec.op rec.metadata rec.payload rec.timestamp (appended rec member))
    (fun rec member => filled rec.op rec.metadata rec.payload rec.timestamp (appended rec member)) file
  refine ⟨records, pieces, n, encoded, ascending, appended, ?_, whole, within, read, fun stopped => ?_⟩
  · rw [file]
    exact List.take_prefix k _
  · simp only [State.step, stopped]
    rw [start_eq, read]
    exact ⟨_, rfl⟩

/-- A runtime that notes the numbers of the records applied to it. -/
def numbers : Runtime (List Nat) (List Nat) Unit where
  fresh := []
  restoreSnapshot _ saved := saved
  applyRecord r rec := r ++ [rec.seq]
  tick r := r
  snapshot r := r

/-- One record before a snapshot and one after it. -/
def savedBetween : List (Event (List Nat) Unit) :=
  [.start, .append .messageAck () [] 0, .snapshot, .append .messagePublish () [1, 2] 0, .shutdown false]

theorem sequence_kept_saved : ∃ (records : List (AOFRecord Unit)) (n : Nat) (writer : AOFWriter),
    Ascending records ∧
    ((after Words.crc32 noMetadata numbers savedBetween).step Words.crc32 noMetadata numbers
      .start).process =
        some ⟨((records.take n).filter (1 < ·.seq)).foldl numbers.applyRecord [], writer⟩ := by
  obtain ⟨⟨records, _, n, _, ascending, _, _, _, _, _, starts⟩, _⟩ :=
    sequence_kept Words.crc32 noMetadata numbers savedBetween
      (by intro op metadata payload time _; rfl)
      (by intro op metadata payload time _; exact List.cons_ne_nil _ _)
  have stopped : (after Words.crc32 noMetadata numbers savedBetween).process = none := rfl
  have file : (after Words.crc32 noMetadata numbers savedBetween).disk.snapshot = some (1, []) := by
    decide +kernel
  obtain ⟨writer, started⟩ := starts stopped
  rw [snapSeq, restored, file] at started
  exact ⟨records, n, writer, ascending, started⟩

/-! ## The runtime of the broker -/

open OneOpenBroker.Core QueueEngine

/-- The runtime around the routing engine. An operation stands for the
metadata and the payload of its record. -/
def brokerRuntime (r : RoutingEngine) : Runtime RoutingEngine RuntimeSnapshot JournalOp where
  fresh := r
  restoreSnapshot := Persistence.restoreSnapshot
  applyRecord r rec := Persistence.applyRecord r rec.metadata
  tick r := { r with queues := r.queues.tick.2 }
  snapshot := Persistence.snapshot

/-- A record with its number and its operation. -/
def journalRecord (rec : AOFRecord JournalOp) : AofRecord := ⟨rec.seq, rec.metadata⟩

theorem uncovered_journal (snapSeq : Nat) (records : List (AOFRecord JournalOp)) :
    (records.map journalRecord).filter (snapSeq < ·.seq) =
      (uncovered snapSeq records).map journalRecord := by
  rw [List.filter_map]
  rfl

/-- `recover_into` on the files is the recovery of the engine from their
records. -/
theorem recoverInto_broker {json : JsonCodec JournalOp} (r : RoutingEngine)
    (disk : Disk RuntimeSnapshot) :
    ((recoverInto crc32 json (brokerRuntime r) r disk).1,
      (recoverInto crc32 json (brokerRuntime r) r disk).2.1) =
      Persistence.recoverInto r disk.snapshot
        ((readAof crc32 json disk.aof).1.map journalRecord) := by
  rw [recoverInto_eq]
  generalize (readAof crc32 json disk.aof).1 = records
  have applied (r r' : RoutingEngine) (snapSeq : Nat) :
      replay r' snapSeq (records.map journalRecord) =
        (uncovered snapSeq records).foldl (brokerRuntime r).applyRecord r' := by
    unfold replay
    rw [uncovered_journal, List.foldl_map]
    rfl
  have last (snapSeq : Nat) : (((records.map journalRecord).filter (snapSeq < ·.seq)).getLast?.map
      (·.seq)).getD snapSeq = lastSeq snapSeq records := by
    rw [uncovered_journal, List.getLast?_map, Option.map_map]
    rfl
  obtain ⟨aof, snapshot⟩ := disk
  unfold Persistence.recoverInto recovered
  cases snapshot with
  | none =>
    simp only [applied r, Option.map_none, Option.getD_none, last]
    rfl
  | some file =>
    simp only [applied r, Option.map_some, Option.getD_some, last]
    rfl

/-! ## Recovery journals nothing -/

variable {e : QueueEngine} {ops : List JournalOp}

theorem declareQueue_silent (name : String) (args : QueueArgs) :
    (e.declareQueue name args false).journal = e.journal := by
  rw [declareQueue_eq]
  split
  · rfl
  · rw [append_false]
    split
    · rw [declareLeaf_journal]
      rfl
    · rfl

theorem deleteQueue_silent (name : String) :
    (e.deleteQueue name false).2.journal = e.journal := by
  unfold deleteQueue
  split
  · rfl
  · dsimp only
    split
    · unfold deleteLeaf
      split <;> rfl
    · rfl

theorem enqueue_silent (message : Message) :
    (e.enqueue message false).2.journal = e.journal := by
  rcases enqueue_cases e message false with ⟨queue, accepts⟩ | ⟨_, same⟩
  · rw [accepts.2.2, append_false, accept_frame.2.2.2.1]
    rfl
  · rw [same]

theorem applyToQueues_silent (rebuilt : Rebuilt e) (op : JournalOp) :
    (applyToQueues e op).journal.ops = e.journal.ops := by
  refine applyToQueues_preserves (I := fun e' => e'.journal.ops = e.journal.ops) rebuilt.idle
    (fun name args => ?_) (fun name => ?_) (fun message _ => ?_) (fun id dest => ?_) rfl op
  · rw [declareQueue_silent]
  · rw [deleteQueue_silent]
  · rw [enqueue_silent, declareQueue_silent]
  · have requeue := dlqRequeue_requeue rebuilt.named dest id false
    generalize (e.dlqRequeue dest id false).1 = result at requeue
    generalize (e.dlqRequeue dest id false).2 = e' at requeue ⊢
    cases requeue with
    | missing => rfl
    | moved _ _ _ _ _ _ _ journal => rw [journal, journaled_false, List.append_nil]
    | refused _ _ _ _ _ _ _ journal => exact journal

theorem rebuild_silent (rebuilt : Rebuilt e) (ops : List JournalOp) :
    Rebuilt (rebuild e ops) ∧ (rebuild e ops).journal.ops = e.journal.ops := by
  induction ops generalizing e with
  | nil => exact ⟨rebuilt, rfl⟩
  | cons op ops ih =>
    obtain ⟨later, same⟩ := ih (applyToQueues_rebuilt rebuilt op)
    exact ⟨later, same.trans (applyToQueues_silent rebuilt op)⟩

/-- With no delivery outstanding a tick finds none to fail. -/
theorem tick_silent (idle : Idle e) : e.tick.2.journal.ops = e.journal.ops := by
  refine (tick_preserves (I := fun e' => Idle e' ∧ e'.journal.ops = e.journal.ops)
    (fun e' name id inv => ?_) (fun e' name id record inv found _ => ?_) (fun _ _ _ _ inv => inv)
    ⟨idle, rfl⟩).2
  · obtain ⟨_, records, _, _, journal, _⟩ := releaseOne_observe e' name id
    exact ⟨inv.1.of_eq records, by rw [journal]; exact inv.2⟩
  · rw [inv.1 name id] at found
    cases found

/-- `recover_into` appends nothing to the journal. -/
theorem recoverInto_silent {r : RoutingEngine} {file : Option SnapshotFile}
    (records : List AofRecord) (rebuilt : Rebuilt r.queues)
    (saved : ∀ taken ∈ file, ∃ e : QueueEngine, e.Filed ∧ taken.2.queues = e.snapshotState) :
    (Persistence.recoverInto r file records).2.queues.journal.ops = r.queues.journal.ops := by
  have silent : Rebuilt (recovered r file records).queues ∧
      (recovered r file records).queues.journal.ops = r.queues.journal.ops := by
    cases file with
    | none =>
      rw [recovered, replay_queues]
      exact rebuild_silent rebuilt _
    | some taken =>
      obtain ⟨seq, state⟩ := taken
      obtain ⟨e, filed, same⟩ := saved _ rfl
      have restored : Rebuilt (r.queues.restoreState state.queues) := by
        rw [same]
        exact (restore_traced filed).1
      have journal : (r.queues.restoreState state.queues).journal.ops = r.queues.journal.ops := by
        refine restoreState_preserves (I := fun e _ _ => e.journal.ops = r.queues.journal.ops)
          (fun _ _ _ _ inv => inv) (fun e _ _ name queue message _ _ inv => ?_) rfl
        rw [restoreMessage_frame.2.2.1]
        exact inv
      rw [recovered, replay_queues, restoreSnapshot_queues]
      obtain ⟨later, same⟩ := rebuild_silent restored ((records.filter (seq < ·.seq)).map (·.op))
      exact ⟨later, same.trans journal⟩
  exact (tick_silent silent.1.idle).trans silent.2

end OneOpenBroker.Persistence.Lifecycle

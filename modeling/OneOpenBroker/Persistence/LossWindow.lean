import OneOpenBroker.Library.Lists
import OneOpenBroker.Persistence.Writer

/-! The window of loss under `everysec`. The writer syncs the file only within a
write, when the last fsync is a second old, and nothing syncs it between writes.
What was written since the last fsync stays unsynced until another write comes,
however long that takes. -/
namespace OneOpenBroker.Persistence.AofFile

/-- A write: the time that the clock shows after it, and the blob of a batch. -/
structure Write where
  time : ℚ
  blob : List UInt8

/-- The file after the writes under `everysec`. -/
def writtenTo (file : AofFile) (writes : List Write) : AofFile :=
  writes.foldl (fun file write => file.writeBytes .everysec write.time write.blob) file

/-- The file of a writer that was just opened. -/
def opened (content : List UInt8) : AofFile := { content }

/-- Whatever was written a second before was fsynced. -/
def SyncedBy (file : AofFile) (now : ℚ) : Prop := ∀ time ∈ file.unsynced, now - 1 < time

/-- The last write that is a second old, or a write after it, came a second or
more after the last fsync before it. -/
def SyncFollows (file : AofFile) (writes : List Write) (now : ℚ) : Prop :=
  ∀ before write after, writes = before ++ write :: after → write.time ≤ now - 1 →
    (∀ later ∈ after, now - 1 < later.time) →
    ∃ sync ∈ write :: after, 1 ≤ sync.time - (file.writtenTo before).lastFsync

variable {file : AofFile} {write : Write} {writes before after : List Write} {now time : ℚ}

theorem writtenTo_append : file.writtenTo (before ++ after) = (file.writtenTo before).writtenTo after :=
  List.foldl_append

theorem writeBytes_due (due : 1 ≤ write.time - file.lastFsync) :
    (file.writeBytes .everysec write.time write.blob).unsynced = [] := by
  unfold writeBytes
  exact congrArg AofFile.unsynced (if_pos due)

theorem writeBytes_early (early : ¬ 1 ≤ write.time - file.lastFsync) :
    file.writeBytes .everysec write.time write.blob = file.add write.time write.blob :=
  if_neg early

/-- What is unsynced was written, at the start or since. -/
theorem writtenTo_unsynced (waits : time ∈ (file.writtenTo writes).unsynced) :
    time ∈ file.unsynced ∨ ∃ write ∈ writes, write.time = time := by
  induction writes generalizing file with
  | nil => exact .inl waits
  | cons write rest ih =>
    change time ∈ ((file.writeBytes .everysec write.time write.blob).writtenTo rest).unsynced at waits
    rcases ih waits with here | ⟨later, member, same⟩
    · by_cases due : 1 ≤ write.time - file.lastFsync
      · rw [writeBytes_due due] at here
        cases here
      · rw [writeBytes_early due] at here
        rcases List.mem_append.mp here with earlier | new
        · exact .inl earlier
        · exact .inr ⟨write, List.mem_cons_self, (List.mem_singleton.mp new).symm⟩
    · exact .inr ⟨later, List.mem_cons_of_mem _ member, same⟩

/-- After a write that syncs, only later writes are unsynced. -/
theorem sync_clears (due : ∃ sync ∈ write :: after, 1 ≤ sync.time - file.lastFsync)
    (waits : time ∈ (file.writtenTo (write :: after)).unsynced) : ∃ later ∈ after, later.time = time := by
  induction after generalizing file write with
  | nil =>
    obtain ⟨sync, member, late⟩ := due
    obtain rfl := List.mem_singleton.mp member
    change time ∈ (file.writeBytes .everysec sync.time sync.blob).unsynced at waits
    rw [writeBytes_due late] at waits
    cases waits
  | cons next rest ih =>
    by_cases now : 1 ≤ write.time - file.lastFsync
    · change time ∈ ((file.writeBytes .everysec write.time write.blob).writtenTo
        (next :: rest)).unsynced at waits
      have later := writtenTo_unsynced waits
      rw [writeBytes_due now] at later
      exact later.resolve_left List.not_mem_nil
    · obtain ⟨sync, member, late⟩ := due
      rcases List.mem_cons.mp member with rfl | among
      · exact absurd late now
      · change time ∈ ((file.writeBytes .everysec write.time write.blob).writtenTo
          (next :: rest)).unsynced at waits
        rw [writeBytes_early now] at waits
        have still : ∃ sync ∈ next :: rest,
            1 ≤ sync.time - (file.add write.time write.blob).lastFsync := ⟨sync, among, late⟩
        obtain ⟨later, listed, same⟩ := ih still waits
        exact ⟨later, List.mem_cons_of_mem _ listed, same⟩

/-- Without a write that syncs, everything written stays unsynced. -/
theorem no_sync_keeps (early : ∀ write ∈ writes, ¬ 1 ≤ write.time - file.lastFsync)
    (waits : time ∈ file.unsynced ∨ ∃ write ∈ writes, write.time = time) :
    time ∈ (file.writtenTo writes).unsynced := by
  induction writes generalizing file with
  | nil => exact waits.resolve_right fun ⟨_, member, _⟩ => nomatch member
  | cons write rest ih =>
    obtain ⟨first, others⟩ := List.forall_mem_cons.mp early
    change time ∈ ((file.writeBytes .everysec write.time write.blob).writtenTo rest).unsynced
    rw [writeBytes_early first]
    refine ih others ?_
    rcases waits with before | ⟨other, member, same⟩
    · exact .inl (List.mem_append_left _ before)
    · rcases List.mem_cons.mp member with rfl | later
      · exact .inl (List.mem_append_right _ (List.mem_singleton.mpr same.symm))
      · exact .inr ⟨other, later, same⟩

/-- **The window of loss.** Of the writes up to a moment, all that are a second
old were fsynced exactly if the last of them, or a write after it, came a second
or more after the last fsync before it. -/
theorem everysec_window_iff (content : List UInt8) (writes : List Write) (now : ℚ) :
    ((opened content).writtenTo writes).SyncedBy now ↔ (opened content).SyncFollows writes now := by
  constructor
  · rintro synced before write after rfl old _
    by_contra none
    have early : ∀ later ∈ write :: after,
        ¬ 1 ≤ later.time - ((opened content).writtenTo before).lastFsync :=
      fun later member late => none ⟨later, member, late⟩
    have waits := no_sync_keeps early (.inr ⟨write, List.mem_cons_self, rfl⟩)
    rw [← writtenTo_append] at waits
    exact absurd (synced write.time waits) (not_lt.mpr old)
  · intro follows time waits
    by_contra old
    obtain ⟨write, member, rfl⟩ := (writtenTo_unsynced waits).resolve_left List.not_mem_nil
    obtain ⟨before, last, after, rfl, past, since⟩ :=
      Lists.exists_last (P := fun write : Write => write.time ≤ now - 1) ⟨write, member, not_lt.mp old⟩
    have recent : ∀ later ∈ after, now - 1 < later.time := fun later there => not_le.mp (since later there)
    rw [writtenTo_append] at waits
    obtain ⟨later, there, same⟩ := sync_clears (follows before last after rfl past recent) waits
    exact old (same ▸ recent later there)

/-- A second write comes half a second after the first, and nothing after it. -/
theorem burst_stays_unsynced :
    ¬ ∀ (content : List UInt8) (writes : List Write) (now : ℚ),
      (writes.map (·.time)).Pairwise (· ≤ ·) → (∀ write ∈ writes, write.time ≤ now) →
      ((opened content).writtenTo writes).SyncedBy now := by
  intro bounded
  have synced := bounded [] [⟨1, [1]⟩, ⟨3 / 2, [2]⟩] 100 (by decide +kernel)
    (by decide +kernel)
  have waits : (3 / 2 : ℚ) ∈ ((opened []).writtenTo [⟨1, [1]⟩, ⟨3 / 2, [2]⟩]).unsynced := by
    decide +kernel
  exact absurd (synced _ waits) (by decide +kernel)

end OneOpenBroker.Persistence.AofFile

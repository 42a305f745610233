import OneOpenBroker.Protocol.Packets

/-! What a frame reader keeps and how long it works. The loop of `feed` stops
at a part of a frame whose header has passed every check, so the header of the
part bounds it, whatever lengths a peer declares. -/
namespace OneOpenBroker.Protocol
open Streams

variable {crc32 : List UInt8 → UInt32} {limit n : Nat} {frame : Frame} {buf bytes : List UInt8}
  {r : FrameReader} {data : List UInt8} {err : ProtocolError}

/-- A part of a header, or of a frame with a header that was accepted. -/
def Partial (limit : Nat) (buf : List UInt8) : Prop :=
  buf.length < headerSize ∨ ∃ header, decodeHeader (buf.take headerSize) = .ok header ∧
    header.total ≤ limit ∧ buf.length < header.total

theorem Partial.bound (part : Partial limit buf) : buf.length < max headerSize limit := by
  rcases part with short | ⟨header, _, within, part⟩ <;> omega

theorem front_more (outcome : front crc32 limit bytes = .more) : Partial limit bytes := by
  unfold front at outcome
  split at outcome
  · exact .inl ‹_›
  cases decoded : decodeHeader (bytes.take headerSize) with
  | error exc => simp [decoded] at outcome
  | ok header =>
    rw [decoded] at outcome
    dsimp only at outcome
    split at outcome
    · cases outcome
    rename_i within
    split at outcome
    · exact .inr ⟨header, decoded, not_lt.mp within, ‹_›⟩
    · split at outcome <;> cases outcome

/-- A frame takes its header off the buffer, if nothing else. -/
theorem front_size {size : Nat} (outcome : front crc32 limit bytes = .item frame size) :
    headerSize ≤ size ∧ size ≤ bytes.length := by
  obtain ⟨header, _, _, rfl, _, there, _⟩ := front_item outcome
  exact ⟨by unfold Header.total; omega, there⟩

namespace FrameReader

/-- How often the loop calls `_try_one` in a number of rounds. -/
def calls (crc32 : List UInt8 → UInt32) : Nat → FrameReader → Nat
  | 0, _ => 0
  | n + 1, r =>
    match r.tryOne crc32 with
    | (.ok (some _), r) => calls crc32 n r + 1
    | _ => 1

/-- The rounds of the loop of one `feed`, of which a closed reader has none. -/
def iterations (crc32 : List UInt8 → UInt32) (r : FrameReader) (data : List UInt8) (n : Nat) : Nat :=
  match r.closedError with
  | some _ => 0
  | none => calls crc32 n { r with buf := r.buf ++ data }

/-- The reader after a sequence of chunks, errors included. -/
def fed (crc32 : List UInt8 → UInt32) (r : FrameReader) (chunks : List (List UInt8)) : FrameReader :=
  chunks.foldl (fun r chunk => (r.feed crc32 chunk).2) r

/-! ## One chunk -/

/-- The calls are those of the loop, which does not go on after them. -/
theorem rounds_calls (n : Nat) (r : FrameReader) (frames : List Frame) :
    r.rounds crc32 (r.calls crc32 n) frames = r.rounds crc32 n frames := by
  induction n generalizing r frames with
  | zero => simp [calls]
  | succ n ih => cases outcome : front crc32 r.maxFrameSize r.buf with
    | more => simp [calls, rounds, tryOne_more outcome]
    | bad err =>
      obtain ⟨buf, failed⟩ := tryOne_bad outcome
      simp [calls, rounds, failed]
    | item frame size => simpa [calls, rounds, tryOne_item outcome] using ih _ _

/-- A loop that has rounds enough calls `_try_one` once for every frame, and
once more. -/
theorem rounds_length {n : Nat} {frames all : List Frame} {r r' : FrameReader}
    (enough : r.buf.length < n) (read : r.rounds crc32 n frames = (.ok all, r')) :
    all.length + 1 = frames.length + r.calls crc32 n := by
  induction n generalizing r frames with
  | zero => omega
  | succ n ih => cases outcome : front crc32 r.maxFrameSize r.buf with
    | more =>
      obtain ⟨rfl, rfl⟩ : frames = all ∧ r = r' := by simpa [rounds, tryOne_more outcome] using read
      simp [calls, tryOne_more outcome]
    | bad err =>
      obtain ⟨buf, failed⟩ := tryOne_bad outcome
      simp [rounds, failed] at read
    | item frame size =>
      have sized := front_size outcome
      have shorter : (r.buf.drop size).length < n := by
        simp only [List.length_drop, headerSize] at sized ⊢
        omega
      simp only [rounds, tryOne_item outcome] at read
      have later := ih shorter read
      simp only [calls, tryOne_item outcome, List.length_append, List.length_singleton] at later ⊢
      omega

theorem calls_bound (n : Nat) (r : FrameReader) :
    headerSize * calls crc32 n r ≤ r.buf.length + headerSize := by
  induction n generalizing r with
  | zero => simp [calls]
  | succ n ih =>
    unfold calls
    cases outcome : front crc32 r.maxFrameSize r.buf with
    | more => simp [tryOne_more outcome]
    | bad err =>
      obtain ⟨buf, failed⟩ := tryOne_bad outcome
      simp [failed]
    | item frame size =>
      have later := ih { r with buf := r.buf.drop size }
      have sized := front_size outcome
      simp only [tryOne_item outcome, List.length_drop, Nat.mul_succ] at later ⊢
      omega

theorem iterations_bound (n : Nat) :
    iterations crc32 r data n ≤ (r.buf ++ data).length / headerSize + 1 := by
  unfold iterations
  split
  · exact Nat.zero_le _
  · have bound := @calls_bound crc32 n { r with buf := r.buf ++ data }
    simp only [headerSize] at bound ⊢
    omega

theorem feed_closed (closed : r.closedError = some err) (data : List UInt8) :
    r.feed crc32 data = (.error err, r) := by
  simp [feed, closed]

/-- A closed reader raises its error, and an open one closes with an error or
keeps a part of a frame. -/
theorem feed_cases (crc32 : List UInt8 → UInt32) (r : FrameReader) (data : List UInt8) :
    (∃ err, r.closedError = some err ∧ r.feed crc32 data = (.error err, r)) ∨
    (∃ err buf, r.feed crc32 data = (.error err, { r with buf, closedError := some err })) ∨
    ∃ frames buf, Partial r.maxFrameSize buf ∧ r.feed crc32 data = (.ok frames, { r with buf }) := by
  cases opened : r.closedError with
  | some err => exact .inl ⟨err, rfl, feed_closed opened data⟩
  | none =>
    obtain ⟨fine, failed⟩ := @feed_scan crc32 r data _ opened rfl
    cases error : ((decoder crc32 r.maxFrameSize).scan (r.buf ++ data)).error with
    | some err =>
      obtain ⟨buf, shape⟩ := failed err error
      exact .inr (.inl ⟨err, buf, shape⟩)
    | none =>
      exact .inr (.inr ⟨_, _, front_more (Decoder.scan_ends _ error), (fine error).trans (by rw [opened])⟩)

theorem feed_partial {frames : List Frame} {r' : FrameReader}
    (fed : r.feed crc32 data = (.ok frames, r')) : Partial r.maxFrameSize r'.buf := by
  rcases feed_cases crc32 r data with ⟨_, _, shape⟩ | ⟨_, _, shape⟩ | ⟨_, _, part, shape⟩ <;>
    cases shape.symm.trans fed
  exact part

theorem feed_maxFrameSize : (r.feed crc32 data).2.maxFrameSize = r.maxFrameSize := by
  rcases feed_cases crc32 r data with ⟨_, _, shape⟩ | ⟨_, _, shape⟩ | ⟨_, _, _, shape⟩ <;> rw [shape]

/-- An error closes the reader. -/
theorem feed_error {r' : FrameReader} (fed : r.feed crc32 data = (.error err, r')) :
    r'.closedError = some err := by
  rcases feed_cases crc32 r data with ⟨_, closed, shape⟩ | ⟨_, _, shape⟩ | ⟨_, _, _, shape⟩ <;>
    cases shape.symm.trans fed
  · exact closed
  · rfl

/-! ## Many chunks -/

theorem fed_maxFrameSize (chunks : List (List UInt8)) (r : FrameReader) :
    (r.fed crc32 chunks).maxFrameSize = r.maxFrameSize := by
  induction chunks generalizing r with
  | nil => rfl
  | cons chunk chunks ih => exact (ih _).trans feed_maxFrameSize

theorem fed_closed (closed : r.closedError = some err) (chunks : List (List UInt8)) :
    r.fed crc32 chunks = r := by
  induction chunks with
  | nil => rfl
  | cons chunk chunks ih =>
    unfold fed
    rw [List.foldl_cons, feed_closed closed]
    exact ih

/-- **The memory and the work of a reader are bounded.** After any chunks, a
`feed` that returns leaves a part of a frame that fits the limit, whatever it is
fed the loop has at most a round for each header's worth of bytes and one more,
and what it raises is raised ever after by a reader that does not change. -/
theorem reader_bounded (crc32 : List UInt8 → UInt32) (limit : Nat) (chunks : List (List UInt8))
    (data : List UInt8) :
    let r := fed crc32 { maxFrameSize := limit } chunks
    (∀ frames r', r.feed crc32 data = (.ok frames, r') →
      Partial limit r'.buf ∧ r'.buf.length < max headerSize limit) ∧
    (∀ n, r.iterations crc32 data n ≤ (r.buf ++ data).length / headerSize + 1) ∧
    ∀ err r', r.feed crc32 data = (.error err, r') → ∀ later more,
      (r'.fed crc32 later).feed crc32 more = (.error err, r') := by
  refine ⟨fun frames r' fed => ?_, iterations_bound, fun err r' fed later more => ?_⟩
  · have part := feed_partial fed
    rw [fed_maxFrameSize] at part
    exact ⟨part, part.bound⟩
  · have closed := feed_error fed
    rw [fed_closed closed]
    exact feed_closed closed more

end FrameReader
end OneOpenBroker.Protocol

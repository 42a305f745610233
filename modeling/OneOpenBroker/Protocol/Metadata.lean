import OneOpenBroker.Protocol.JsonLeaves

/-! Metadata that was accepted is sent on, in responses and events. The reader
takes escapes of surrogates that are not half of a pair, which the writer cannot
encode, so what it accepts can be written if no such surrogate is in it. All the
rest that is read can be written and is read back. -/
namespace OneOpenBroker.Protocol
open Collections OneOpenBroker.Untyped JsonValue

variable {φ : Type*} {format : FloatFormat φ} {t : Text} {v w : JsonValue φ} {raw : List UInt8}
  {entries : List (Text × JsonValue φ)}

/-! ## What is accepted -/

theorem jsonLoads_reads (read : jsonLoads format t = .ok v) : ∃ rest, Reads format (skip t) v rest := by
  unfold jsonLoads at read
  split at read
  · cases read
  · split at read
    · cases read
    · rename_i value rest scanned
      split at read
      · cases read
        exact ⟨rest, (scan_reads _).1 scanned⟩
      · cases read

/-- What is accepted is an object that meets the conditions of the reader. -/
theorem accepted_loaded {Q : Text → Prop} {p : Text → Bool} (yields : Yields Q p)
    (accepted : loadsJson format raw = .ok v) (holds : ∀ t, decodeUtf8 raw = some t → Q t) :
    v.all (loaded p) = true ∧ ∃ entries, v = .dict entries := by
  unfold loadsJson at accepted
  split at accepted
  · cases accepted
    exact ⟨rfl, [], rfl⟩
  · split at accepted
    · cases accepted
    · rename_i t decoded
      split at accepted
      · cases accepted
      · cases accepted
      · rename_i entries read
        cases accepted
        obtain ⟨rest, reads⟩ := jsonLoads_reads read
        exact ⟨reads.loaded yields (yields.suffix skip_suffix (holds t decoded)), entries, rfl⟩
      · cases accepted

theorem accepted_points (accepted : loadsJson format raw = .ok v) :
    v.all (loaded fun t => t.all fun c => decide (c < 0x110000)) = true ∧ ∃ entries, v = .dict entries :=
  accepted_loaded .points accepted fun _ decoded c member => (decodeUtf8_scalars decoded c member).1

/-- Scalar values are the code points that the encoder takes. -/
theorem scalarText_eq :
    (fun t : Text => (t.all fun c => decide (c < 0x110000)) && t.encodable) = scalarText := by
  funext t
  rw [Bool.eq_iff_iff, Bool.and_eq_true, scalarText_iff]
  simp only [IsScalar, isSurrogate, Text.encodable, List.all_eq_true, decide_eq_true_eq, Bool.not_eq_true',
    forall_and]

theorem scalarText_encodable : (fun t : Text => scalarText t && t.encodable) = scalarText := by
  funext t
  rw [← scalarText_eq, Bool.and_assoc, Bool.and_self]

/-- Only escapes bring surrogates in. -/
theorem encodable_of_accepted (accepted : loadsJson format raw = .ok v)
    (plain : ∀ t, decodeUtf8 raw = some t → ¬ EscapesSurrogate t) : v.encodable = true := by
  have fits := (accepted_loaded .scalars accepted fun t decoded =>
    ⟨decodeUtf8_scalars decoded, plain t decoded⟩).1
  exact all_weaker (p := loaded scalarText) (by simp [Leaves.both, loaded, scalarText_encodable]) fits

/-- An accepted value without NaN, infinities and surrogates can be written. -/
theorem regular_of_accepted (accepted : loadsJson format raw = .ok v) (finite : v.finite format = true)
    (plain : v.encodable = true) : v.all (regular format) = true := by
  have conditions : ((loaded fun t => t.all fun c => decide (c < 0x110000)).both { float := format.finite }).both { text := Text.encodable } =
      regular format := by simp [Leaves.both, loaded, regular, scalarText_eq]
  rw [← conditions, all_both, all_both, (accepted_points accepted).1, Bool.true_and, Bool.and_eq_true]
  exact ⟨finite, plain⟩

/-! ## What is written -/

theorem ascii_encodable : ∀ c < 0x80, (!(0xD800 ≤ c && c ≤ 0xDFFF)) = true := by
  intro c small
  simp only [Bool.not_eq_true', Bool.and_eq_false_iff, decide_eq_false_iff_not]
  omega

/-- What is written has a surrogate if the value has one. -/
theorem written_encodable (finite : v.finite format = true) :
    Text.encodable (v.written format) = v.encodable := all_written ascii_encodable v finite

theorem regular_finite (fits : v.all (regular format) = true) : v.finite format = true :=
  all_weaker (by simp [Leaves.both, regular]) fits

theorem written_scalars (fits : v.all (regular format) = true) : ∀ c ∈ v.written format, IsScalar c := by
  have written := all_written (fun c small => decide_eq_true (ascii_scalar c small)) v (regular_finite fits)
  have texts : v.all (texts fun c => decide (IsScalar c)) = true := by
    refine all_weaker (p := regular format) ?_ fits
    have same : (fun t : Text => t.all fun c => decide (IsScalar c)) = scalarText := rfl
    simp [Leaves.both, regular, texts, same]
  exact scalarText_iff.mp (written.trans texts)

/-- A value without NaN, infinities and integers with too many digits is written
if it has no surrogate. -/
theorem dumpsMeta_eq (short : v.all { int := isShort } = true) (finite : v.finite format = true) :
    v.dumpsMeta format =
      if v.encodable then .ok (bytes (v.written format)) else .error .unicodeEncodeError := by
  simp only [dumpsMeta, dumps, short, if_true, encodeUtf8, written_encodable finite]
  cases v.encodable <;> rfl

theorem dumpsMeta_regular (fits : v.all (regular format) = true) :
    v.dumpsMeta format = .ok (bytes (v.written format)) := by
  have short : v.all { int := isShort } = true := all_weaker (by simp [Leaves.both, regular]) fits
  have plain : v.encodable = true :=
    all_weaker (p := regular format) (by simp [Leaves.both, regular, scalarText_encodable]) fits
  rw [dumpsMeta_eq short (regular_finite fits), if_pos plain]

/-- An object that is the whole of a text is loaded. -/
theorem loadsJson_of_reads (decoded : decodeUtf8 raw = some (0x7B :: t))
    (reads : Reads format (0x7B :: t) (.dict entries) []) :
    loadsJson format raw = .ok (.dict entries) := by
  have scanned := reads.scans _ (Nat.lt_succ_self _)
  have some_byte : raw ≠ [] := by
    rintro rfl
    cases decoded
  have read : jsonLoads format (0x7B :: t) = .ok (.dict entries) := by
    unfold jsonLoads
    rw [if_neg (by simp), reads.opens.1, scanned]
    rfl
  simp [loadsJson, some_byte, decoded, read]

/-- An object is read back from its bytes. -/
theorem loadsJson_written (fits : (JsonValue.dict entries).all (regular format) = true) :
    loadsJson format (bytes ((JsonValue.dict entries).written format)) = .ok (.dict entries) := by
  have reads := Reads.written (.dict entries) [] fits .nil
  have shape : (JsonValue.dict entries).written format = 0x7B :: (writtenEntries format entries ++ [0x7D]) := by
    simp [written]
  have decoded := decodeUtf8_bytes (written_scalars fits)
  rw [List.append_nil, shape] at reads
  rw [shape] at decoded ⊢
  exact loadsJson_of_reads decoded reads

/-! ## Sending on -/

/-- The value is written, and it is read back. -/
def Resent (format : FloatFormat φ) (v : JsonValue φ) : Prop :=
  ∃ out, v.dumpsMeta format = .ok out ∧ loadsJson format out = .ok v

theorem resent_regular (fits : (JsonValue.dict entries).all (regular format) = true) :
    Resent format (.dict entries) := ⟨_, dumpsMeta_regular fits, loadsJson_written fits⟩

/-- Accepted metadata, and every object that is built from its parts, can be
sent on if no text or key in the metadata has a surrogate, and only then. -/
theorem accepted_resent_iff (accepted : loadsJson format raw = .ok v) (finite : v.finite format = true) :
    (Resent format v ∧ ∀ entries, Built format v (.dict entries) → Resent format (.dict entries)) ↔
      v.encodable = true := by
  obtain ⟨fits, entries, rfl⟩ := accepted_points accepted
  constructor
  · rintro ⟨⟨out, dumped, _⟩, _⟩
    have short : (JsonValue.dict entries).all { int := isShort } = true :=
      all_weaker (by simp [Leaves.both, loaded]) fits
    rw [dumpsMeta_eq short finite] at dumped
    by_contra lone
    rw [if_neg lone] at dumped
    cases dumped
  · intro plain
    have fits := regular_of_accepted accepted finite plain
    exact ⟨resent_regular fits, fun _ built => resent_regular (built.regular fits)⟩

/-- Floats that are kept as their literals. -/
def literalFloats : FloatFormat Text where
  read t := t
  nan := text "NaN"
  infinity := text "Infinity"
  minusInfinity := text "-Infinity"
  floatstr t := t
  finite t :=
    match scanNumber t with
    | some (parts, []) => decide (parts.literal = t ∧ parts.tail ≠ [])
    | _ => false
  written t literal := by
    split at literal
    · rename_i parts read
      exact ⟨⟨parts, read, of_decide_eq_true literal⟩, rfl⟩
    · cases literal

/-- `{"a":1.5}` is sent on. -/
theorem accepted_resent_float : Resent literalFloats (.dict [([0x61], .float [0x31, 0x2E, 0x35])]) := by
  have value : Reads literalFloats [0x31, 0x2E, 0x35, 0x7D] (.float [0x31, 0x2E, 0x35]) [0x7D] :=
    Reads.literal (x := ([0x31, 0x2E, 0x35] : Text)) (by decide) (.cons (by omega))
  have named : scanString [0x61, 0x22, 0x3A, 0x31, 0x2E, 0x35, 0x7D] =
      some ([0x61], [0x3A, 0x31, 0x2E, 0x35, 0x7D]) := by decide
  have entries : ReadsEntries literalFloats ∅ [0x22, 0x61, 0x22, 0x3A, 0x31, 0x2E, 0x35, 0x7D]
      (.dict [([0x61], .float [0x31, 0x2E, 0x35])]) [] := .last named rfl value rfl
  have accepted : loadsJson literalFloats [0x7B, 0x22, 0x61, 0x22, 0x3A, 0x31, 0x2E, 0x35, 0x7D] =
      .ok (.dict [([0x61], .float [0x31, 0x2E, 0x35])]) :=
    loadsJson_of_reads (t := [0x22, 0x61, 0x22, 0x3A, 0x31, 0x2E, 0x35, 0x7D]) (by decide) (.dict entries)
  exact ((accepted_resent_iff accepted (by decide)).mpr (by decide)).1

/-- `{"a":"\ud800"}` is accepted, and it cannot be written. -/
theorem surrogate_not_resent : ∃ v : JsonValue Text,
    loadsJson literalFloats [0x7B, 0x22, 0x61, 0x22, 0x3A, 0x22, 0x5C, 0x75, 0x64, 0x38, 0x30, 0x30, 0x22, 0x7D]
      = .ok v ∧ v.finite literalFloats = true ∧ v.dumpsMeta literalFloats = .error .unicodeEncodeError ∧
      ¬ Resent literalFloats v := by
  have named : scanString [0x61, 0x22, 0x3A, 0x22, 0x5C, 0x75, 0x64, 0x38, 0x30, 0x30, 0x22, 0x7D] =
      some ([0x61], [0x3A, 0x22, 0x5C, 0x75, 0x64, 0x38, 0x30, 0x30, 0x22, 0x7D]) := by decide
  have lone : scanString [0x5C, 0x75, 0x64, 0x38, 0x30, 0x30, 0x22, 0x7D] = some ([0xD800], [0x7D]) := by
    decide
  have entries : ReadsEntries literalFloats ∅
      [0x22, 0x61, 0x22, 0x3A, 0x22, 0x5C, 0x75, 0x64, 0x38, 0x30, 0x30, 0x22, 0x7D]
      (.dict [([0x61], .text [0xD800])]) [] := .last named rfl (.text lone) rfl
  have decoded : decodeUtf8
      [0x7B, 0x22, 0x61, 0x22, 0x3A, 0x22, 0x5C, 0x75, 0x64, 0x38, 0x30, 0x30, 0x22, 0x7D] =
        some [0x7B, 0x22, 0x61, 0x22, 0x3A, 0x22, 0x5C, 0x75, 0x64, 0x38, 0x30, 0x30, 0x22, 0x7D] := by decide
  have refused : (JsonValue.dict [([0x61], .text [0xD800])]).dumpsMeta literalFloats =
      .error .unicodeEncodeError := dumpsMeta_eq (by decide) (by decide)
  refine ⟨_, loadsJson_of_reads decoded (.dict entries), by decide, refused, ?_⟩
  rintro ⟨out, dumped, _⟩
  rw [refused] at dumped
  cases dumped

end OneOpenBroker.Protocol

import OneOpenBroker.Persistence.Records

/-! Crash tolerance of the append-only file. Reading it is the scan of a
stream of records, so that what is read of a part of the file is what ends in
that part, and the file goes on after a cut where the last whole record
ended. -/
namespace OneOpenBroker.Persistence.Records
open Words Streams

variable {μ : Type*} {crc32 : List UInt8 → UInt32} {json : JsonCodec μ} {rec : AOFRecord μ}
  {bytes rest header : List UInt8} {metaLen crc : Nat}

/-! ## Headers -/

@[simp] theorem nameByOp_opByName (op : Op) : nameByOp (opByName op) = some op := by
  cases op <;> rfl

theorem opByName_lt (op : Op) : opByName op < 256 ^ 2 := by
  cases op <;> decide

theorem packHeader_length (packed : packHeader rec metaLen crc = some header) :
    header.length = headerSize := by
  obtain ⟨fields, packedFields, rfl⟩ := Option.map_eq_some_iff.mp packed
  have length := (unpack_pack packedFields []).2
  simp [magic, length, headerStruct, headerSize]

theorem unpackHeader_packHeader (packed : packHeader rec metaLen crc = some header) :
    header.take 4 = magic ∧ unpackHeader header =
      { version, opId := opByName rec.op, seq := rec.seq, ts := rec.timestamp.toNat, metaLen,
        payloadLen := rec.payload.length, crc } := by
  obtain ⟨fields, packedFields, rfl⟩ := Option.map_eq_some_iff.mp packed
  have spelled := (unpack_pack packedFields []).1
  rw [List.append_nil] at spelled
  refine ⟨List.take_left' rfl, ?_⟩
  unfold unpackHeader
  rw [List.drop_left' (by rfl), spelled]
  rfl

/-- The checksum is in the last bytes of the header. -/
theorem packHeader_iff : packHeader rec metaLen crc = some header ↔
    crc < 2 ^ 32 ∧ ∃ first, pack [1, 2, 8, 8, 4, 4] [version, opByName rec.op, rec.seq,
      rec.timestamp.toNat, metaLen, rec.payload.length] = some first ∧
        header = magic ++ first ++ bigEndian 4 crc := by
  have last : ∀ bytes, pack headerStruct [version, opByName rec.op, rec.seq,
      rec.timestamp.toNat, metaLen, rec.payload.length, crc] = some bytes ↔ crc < 256 ^ 4 ∧
        ∃ first, pack [1, 2, 8, 8, 4, 4] [version, opByName rec.op, rec.seq,
          rec.timestamp.toNat, metaLen, rec.payload.length] = some first ∧
            bytes = first ++ bigEndian 4 crc := fun bytes =>
    @pack_last_iff 4 crc bytes [1, 2, 8, 8, 4, 4] [version, opByName rec.op, rec.seq,
      rec.timestamp.toNat, metaLen, rec.payload.length] rfl
  unfold packHeader
  rw [Option.map_eq_some_iff]
  constructor
  · rintro ⟨bytes, packed, rfl⟩
    obtain ⟨small, first, packedFirst, rfl⟩ := (last _).mp packed
    exact ⟨small, first, packedFirst, (List.append_assoc _ _ _).symm⟩
  · rintro ⟨small, first, packedFirst, rfl⟩
    exact ⟨first ++ bigEndian 4 crc, (last _).mpr ⟨small, first, packedFirst, rfl⟩,
      (List.append_assoc _ _ _).symm⟩

theorem packHeader_take (packed : packHeader rec metaLen crc = some header) {other : Nat}
    (small : other < 2 ^ 32) : ∃ header', packHeader rec metaLen other = some header' ∧
      header'.take (headerSize - 4) = header.take (headerSize - 4) := by
  obtain ⟨_, first, packedFirst, rfl⟩ := packHeader_iff.mp packed
  have length : (magic ++ first).length = headerSize - 4 := by
    rw [List.length_append, (unpack_pack packedFirst []).2]
    rfl
  exact ⟨_, packHeader_iff.mpr ⟨small, first, packedFirst, rfl⟩, by
    rw [List.take_left' length, List.take_left' length]⟩

/-- The bytes of a record: its checksum is that of the first part of its own
header. -/
theorem encodeRecord_iff : encodeRecord crc32 json rec = some bytes ↔ ∃ header,
    packHeader rec (json.dumps rec.metadata).length (crc32 (header.take (headerSize - 4) ++
      json.dumps rec.metadata ++ rec.payload)).toNat = some header ∧
        bytes = header ++ json.dumps rec.metadata ++ rec.payload :=
  @sealed_iff _ _ (packHeader rec (json.dumps rec.metadata).length)
    (fun first => (crc32 (first ++ json.dumps rec.metadata ++ rec.payload)).toNat) (headerSize - 4)
    (· ++ json.dumps rec.metadata ++ rec.payload) bytes fun packed => packHeader_take packed (by decide)

/-! ## The decoder -/

theorem decodeRecord_some {size : Nat}
    (found : decodeRecord crc32 json bytes = .ok (some (rec, size))) :
    headerSize ≤ bytes.length ∧ (bytes.take 4 = magic ∧
      (unpackHeader (bytes.take headerSize)).version = version) ∧
      (unpackHeader (bytes.take headerSize)).total = size ∧ size ≤ bytes.length ∧
      decodeWhole crc32 json (unpackHeader (bytes.take headerSize)) (bytes.take size) = .ok rec := by
  unfold decodeRecord at found
  split at found
  · cases found
  rename_i long
  dsimp only at found
  split at found
  · cases found
  rename_i known
  split at found
  · cases found
  rename_i there
  cases whole : decodeWhole crc32 json (unpackHeader (bytes.take headerSize))
    (bytes.take (unpackHeader (bytes.take headerSize)).total) with
  | error raised => rw [whole] at found; cases found
  | ok value =>
    rw [whole] at found
    obtain ⟨rfl, rfl⟩ := Prod.mk.inj (Option.some.inj (Except.ok.inj found))
    exact ⟨not_lt.mp long, by simpa [not_or] using known, rfl, not_lt.mp there, whole⟩

/-- More bytes change nothing but that there are too few. -/
theorem decodeRecord_append (known : decodeRecord crc32 json bytes ≠ .ok none)
    (rest : List UInt8) :
    decodeRecord crc32 json (bytes ++ rest) = decodeRecord crc32 json bytes := by
  unfold decodeRecord at known ⊢
  by_cases short : bytes.length < headerSize
  · rw [if_pos short] at known
    exact absurd rfl known
  have long : ¬ (bytes ++ rest).length < headerSize := by rw [List.length_append]; omega
  have least : 4 ≤ bytes.length := le_trans (by decide) (not_lt.mp short)
  rw [if_neg short] at known ⊢
  rw [if_neg long, List.take_append_of_le_length (not_lt.mp short),
    List.take_append_of_le_length least]
  dsimp only at known ⊢
  split
  · rfl
  rename_i good
  rw [if_neg good] at known
  by_cases part : bytes.length < (unpackHeader (bytes.take headerSize)).total
  · rw [if_pos part] at known
    exact absurd rfl known
  have whole : ¬ (bytes ++ rest).length < (unpackHeader (bytes.take headerSize)).total := by
    rw [List.length_append]; omega
  rw [if_neg part, if_neg whole, List.take_append_of_le_length (not_lt.mp part)]

theorem decodeRecord_take {size : Nat}
    (found : decodeRecord crc32 json bytes = .ok (some (rec, size))) :
    decodeRecord crc32 json (bytes.take size) = .ok (some (rec, size)) := by
  obtain ⟨long, ⟨first, known⟩, total, there, whole⟩ := decodeRecord_some found
  have length : (bytes.take size).length = size := by rw [List.length_take]; omega
  have least : headerSize ≤ size := by unfold Header.total at total; omega
  have header : (bytes.take size).take headerSize = bytes.take headerSize := by
    rw [List.take_take, Nat.min_eq_left least]
  have start : (bytes.take size).take 4 = bytes.take 4 := by
    rw [List.take_take, Nat.min_eq_left (le_trans (by decide) least)]
  unfold decodeRecord
  rw [if_neg (by omega), header, start]
  dsimp only
  rw [if_neg (by simp [first, known]), total, if_neg (by omega), List.take_of_length_le length.le,
    whole]
  rfl

/-- What `decode_record` finds at the front of a file. -/
def front (crc32 : List UInt8 → UInt32) (json : JsonCodec μ) (bytes : List UInt8) :
    Outcome (AOFRecord μ) String :=
  match decodeRecord crc32 json bytes with
  | .error raised => .bad raised
  | .ok none => .more
  | .ok (some (rec, consumed)) => .item rec consumed

theorem front_item {size : Nat} : front crc32 json bytes = .item rec size ↔
    decodeRecord crc32 json bytes = .ok (some (rec, size)) := by
  unfold front
  split <;> simp_all

theorem front_bad {raised : String} : front crc32 json bytes = .bad raised ↔
    decodeRecord crc32 json bytes = .error raised := by
  unfold front
  split <;> simp_all

/-- The decoder of the file. -/
def decoder (crc32 : List UInt8 → UInt32) (json : JsonCodec μ) :
    Decoder UInt8 (AOFRecord μ) String where
  decode := front crc32 json
  sized outcome := by
    obtain ⟨_, _, total, there, _⟩ := decodeRecord_some (front_item.mp outcome)
    exact ⟨by unfold Header.total headerSize at total; omega, there⟩
  found outcome rest := by
    have known := decodeRecord_take (front_item.mp outcome)
    exact front_item.mpr (by rw [decodeRecord_append (by rw [known]; exact nofun) rest, known])
  final outcome rest := by
    have known := front_bad.mp outcome
    exact front_bad.mpr (by rw [decodeRecord_append (by rw [known]; exact nofun) rest, known])
  empty := rfl

/-! ## Encodings -/

/-- The fields of a record are in the range of their widths. -/
structure AOFRecord.Fits (json : JsonCodec μ) (rec : AOFRecord μ) : Prop where
  seq : rec.seq < 2 ^ 64
  metadata : (json.dumps rec.metadata).length < 2 ^ 32
  payload : rec.payload.length < 2 ^ 32

theorem encodeRecord_fits (crc32 : List UInt8 → UInt32) (fits : rec.Fits json) :
    ∃ piece, encodeRecord crc32 json rec = some piece := by
  have op : opByName rec.op < 256 ^ 2 := opByName_lt rec.op
  have seq : rec.seq < 256 ^ 8 := fits.seq
  have timestamp : rec.timestamp.toNat < 256 ^ 8 := rec.timestamp.toNat_lt
  have metadata : (json.dumps rec.metadata).length < 256 ^ 4 := fits.metadata
  have payload : rec.payload.length < 256 ^ 4 := fits.payload
  have packed : ∃ first, pack [1, 2, 8, 8, 4, 4] [version, opByName rec.op, rec.seq,
      rec.timestamp.toNat, (json.dumps rec.metadata).length, rec.payload.length] = some first :=
    pack_eq_some_iff.mpr (.cons (by decide) (.cons op (.cons seq (.cons timestamp
      (.cons metadata (.cons payload .nil))))))
  obtain ⟨first, packed⟩ := packed
  have length : (magic ++ first).length = headerSize - 4 := by
    rw [List.length_append, (unpack_pack packed []).2]
    rfl
  refine ⟨_, encodeRecord_iff.mpr ⟨magic ++ first ++ bigEndian 4 (crc32 (magic ++ first ++
    json.dumps rec.metadata ++ rec.payload)).toNat, ?_, rfl⟩⟩
  rw [List.take_left' length]
  exact packHeader_iff.mpr ⟨UInt32.toNat_lt _, first, packed, rfl⟩

/-- Of the bytes that `encode_record` made of a record the record is decoded,
with its metadata as JSON reads them. -/
theorem decodeRecord_encoded {piece : List UInt8}
    (encoded : encodeRecord crc32 json rec = some piece) (rest : List UInt8) :
    decodeRecord crc32 json (piece ++ rest) =
      (loadMetadata json (json.dumps rec.metadata)).map
        fun metadata => some ({ rec with metadata }, piece.length) := by
  obtain ⟨header, packed, rfl⟩ := encodeRecord_iff.mp encoded
  have length := packHeader_length packed
  obtain ⟨first, fields⟩ := unpackHeader_packHeader packed
  generalize json.dumps rec.metadata = metaB at packed fields ⊢
  have whole : (header ++ metaB ++ rec.payload).length =
      headerSize + metaB.length + rec.payload.length := by
    rw [List.length_append, List.length_append, length]
  have front : (header ++ metaB ++ rec.payload ++ rest).take headerSize = header := by
    rw [List.append_assoc, List.append_assoc, List.take_left' length]
  have start : (header ++ metaB ++ rec.payload ++ rest).take 4 = magic := by
    rw [List.append_assoc, List.append_assoc,
      List.take_append_of_le_length (by rw [length]; decide), first]
  have raw : (header ++ metaB ++ rec.payload ++ rest).take
      (headerSize + metaB.length + rec.payload.length) = header ++ metaB ++ rec.payload :=
    List.take_left' whole
  have metadata : ((header ++ metaB ++ rec.payload).take
      (headerSize + metaB.length)).drop headerSize = metaB := by
    rw [List.take_left' (by rw [List.length_append, length]), List.drop_left' length]
  have payload : (header ++ metaB ++ rec.payload).drop (headerSize + metaB.length) = rec.payload :=
    List.drop_left' (by rw [List.length_append, length])
  have prior : (header ++ metaB ++ rec.payload).take (headerSize - 4) =
      header.take (headerSize - 4) := by
    rw [List.append_assoc, List.take_append_of_le_length (by rw [length]; decide)]
  unfold decodeRecord
  rw [if_neg (by rw [List.length_append, whole]; omega), front, start, fields]
  simp only [Header.total, ne_eq, not_true_eq_false, or_self, if_false, raw]
  rw [if_neg (by rw [List.length_append, whole]; omega)]
  simp only [decodeWhole, metadata, payload, prior, nameByOp_opByName, ne_eq, not_true_eq_false,
    if_false, UInt64.ofNat_toNat]
  rw [whole]
  cases loadMetadata json metaB <;> rfl

/-- The record is found, where its metadata is read back. -/
theorem encodeRecord_encodes {piece : List UInt8}
    (encoded : encodeRecord crc32 json rec = some piece)
    (loads : json.loads (json.dumps rec.metadata) = .ok rec.metadata)
    (filled : json.dumps rec.metadata ≠ []) : (decoder crc32 json).Encodes rec piece := by
  intro rest
  refine front_item.mpr ?_
  rw [decodeRecord_encoded encoded, loadMetadata, if_neg filled, loads]
  rfl

/-- Whatever JSON makes of the metadata, no other record is found. -/
theorem encodeRecord_carries {piece : List UInt8}
    (encoded : encodeRecord crc32 json rec = some piece) :
    (decoder crc32 json).Carries (·.seq = rec.seq) piece := by
  intro rest
  have decoded := decodeRecord_encoded encoded rest
  cases loaded : loadMetadata json (json.dumps rec.metadata) with
  | error raised =>
    rw [loaded] at decoded
    exact .inr ⟨raised, front_bad.mpr decoded⟩
  | ok metadata =>
    rw [loaded] at decoded
    exact .inl ⟨{ rec with metadata }, rfl, front_item.mpr decoded⟩

/-! ## Reading a file -/

/-- The rounds of the loop are those of the scan. -/
theorem readRounds_scan {data : List UInt8} {n offset : Nat} {records : List (AOFRecord μ)}
    (within : offset ≤ data.length) : readRounds crc32 json data n offset records =
      (records ++ ((decoder crc32 json).rounds n (data.drop offset)).items,
        data.length - ((decoder crc32 json).rounds n (data.drop offset)).rest.length) := by
  induction n generalizing offset records with
  | zero =>
    simp only [readRounds, Decoder.rounds, List.append_nil, List.length_drop]
    rw [Nat.sub_sub_self within]
  | succ n ih =>
    have stay : data.length - (data.drop offset).length = offset := by
      rw [List.length_drop, Nat.sub_sub_self within]
    unfold readRounds Decoder.rounds
    have front (outcome : Outcome (AOFRecord μ) String)
        (decoded : Records.front crc32 json (data.drop offset) = outcome) :
        (decoder crc32 json).decode (data.drop offset) = outcome := decoded
    by_cases more : offset < data.length
    · rw [if_pos more]
      cases decoded : decodeRecord crc32 json (data.drop offset) with
      | error raised =>
        rw [front (.bad raised) (front_bad.mpr decoded)]
        exact Prod.ext (List.append_nil records).symm stay.symm
      | ok found =>
        cases found with
        | none =>
          rw [front .more (by rw [Records.front, decoded])]
          exact Prod.ext (List.append_nil records).symm stay.symm
        | some pair =>
          obtain ⟨rec, consumed⟩ := pair
          have inside := (decodeRecord_some decoded).2.2.2.1
          rw [List.length_drop] at inside
          rw [front (.item rec consumed) (front_item.mpr decoded)]
          dsimp only
          rw [ih (by omega), List.drop_drop, Scan.after_items, Scan.after_rest, List.append_assoc]
    · have nothing : data.drop offset = [] := List.drop_eq_nil_of_le (not_lt.mp more)
      rw [if_neg more, front .more (by rw [nothing]; rfl)]
      exact Prod.ext (List.append_nil records).symm stay.symm

theorem readAof_scan (data : List UInt8) : readAof crc32 json (some data) =
    (((decoder crc32 json).scan data).items,
      data.length - ((decoder crc32 json).scan data).rest.length) := by
  have rounds : readRounds crc32 json data (data.length + 1) 0 [] = _ :=
    readRounds_scan (Nat.zero_le data.length)
  rw [List.drop_zero] at rounds
  exact rounds

/-- The loop ends within a number of rounds. -/
theorem readRounds_enough {data : List UInt8} {n : Nat} (enough : data.length < n) :
    readRounds crc32 json data n 0 [] = readAof crc32 json (some data) := by
  rw [readAof_scan, readRounds_scan (Nat.zero_le _), List.drop_zero,
    Decoder.rounds_enough enough (Nat.lt_succ_self data.length)]
  rfl

variable {records : List (AOFRecord μ)} {pieces : List (List UInt8)} {data : List UInt8}

/-- What is kept of a file holds the same records. -/
theorem readAof_keep (data : List UInt8) :
    (readAof crc32 json (some data)).2 ≤ data.length ∧
      readAof crc32 json (some (data.take (readAof crc32 json (some data)).2)) =
        readAof crc32 json (some data) := by
  have shorter := ((decoder crc32 json).scan_rest data).1
  have kept := (decoder crc32 json).scan_kept data
  simp only [readAof_scan, kept, List.length_nil, List.length_take, Nat.sub_zero]
  refine ⟨Nat.sub_le _ _, ?_⟩
  rw [Nat.min_eq_left (Nat.sub_le _ _)]

/-- Records appended to what is kept of a file are read after those of the
file. -/
theorem readAof_append (encodes : List.Forall₂ (decoder crc32 json).Encodes records pieces)
    (data : List UInt8) :
    readAof crc32 json (some (data.take (readAof crc32 json (some data)).2 ++ pieces.flatten)) =
      ((readAof crc32 json (some data)).1 ++ records,
        (readAof crc32 json (some data)).2 + pieces.flatten.length) := by
  have kept := (decoder crc32 json).scan_kept data
  have shorter := ((decoder crc32 json).scan_rest data).1
  have added := (decoder crc32 json).scan_pieces encodes []
  rw [List.append_nil, Decoder.scan_nil] at added
  have scanned := (decoder crc32 json).scan_append
    (data.take (data.length - ((decoder crc32 json).scan data).rest.length)) pieces.flatten
    (by rw [kept])
  rw [kept, List.nil_append, added] at scanned
  simp only [readAof_scan, scanned, Scan.after_items, Scan.after_rest, List.append_nil,
    List.length_nil, List.length_append, List.length_take, Nat.sub_zero]
  rw [Nat.min_eq_left (Nat.sub_le _ _)]

/-- What is read of the first `k` bytes of a sequence of records are those
that end by then. -/
theorem readAof_take (encodes : List.Forall₂ (decoder crc32 json).Encodes records pieces) (k : Nat) :
    ∃ n ≤ pieces.length, readAof crc32 json (some (pieces.flatten.take k)) =
        (records.take n, (pieces.take n).flatten.length) ∧
      ∀ m ≤ pieces.length, (pieces.take m).flatten.length ≤ k ↔ m ≤ n := by
  obtain ⟨n, bound, scanned, within⟩ := (decoder crc32 json).scan_take encodes k
  refine ⟨n, bound, ?_, within⟩
  have ends : (pieces.take n).flatten.length ≤ k := (within n bound).mpr le_rfl
  have part : (pieces.take n).flatten.length ≤ pieces.flatten.length := by
    conv_rhs => rw [← List.take_append_drop n pieces, List.flatten_append, List.length_append]
    omega
  rw [readAof_scan, scanned]
  refine Prod.ext rfl ?_
  simp only [List.length_drop, List.length_take]
  omega

/-- The pieces are the bytes of the records. -/
def Encoded (crc32 : List UInt8 → UInt32) (json : JsonCodec μ) (records : List (AOFRecord μ))
    (pieces : List (List UInt8)) : Prop :=
  List.Forall₂ (fun rec piece => encodeRecord crc32 json rec = some piece) records pieces

theorem Encoded.encodes (encoded : Encoded crc32 json records pieces)
    (loads : ∀ rec ∈ records, json.loads (json.dumps rec.metadata) = .ok rec.metadata)
    (filled : ∀ rec ∈ records, json.dumps rec.metadata ≠ []) :
    List.Forall₂ (decoder crc32 json).Encodes records pieces := by
  induction encoded with
  | nil => exact .nil
  | cons first _ ih =>
    simp only [List.forall_mem_cons] at loads filled
    exact .cons (encodeRecord_encodes first loads.1 filled.1) (ih loads.2 filled.2)

theorem encoded_fits (crc32 : List UInt8 → UInt32) (fits : ∀ rec ∈ records, rec.Fits json) :
    ∃ pieces, Encoded crc32 json records pieces := by
  induction records with
  | nil => exact ⟨[], .nil⟩
  | cons rec records ih =>
    rw [List.forall_mem_cons] at fits
    obtain ⟨piece, encoded⟩ := encodeRecord_fits crc32 fits.1
    obtain ⟨pieces, all⟩ := ih fits.2
    exact ⟨piece :: pieces, .cons encoded all⟩

/-- **Crash tolerance of the AOF.** Of the encodings of records, cut anywhere,
exactly the records are read that end before the cut. Of any bytes the part
that is kept is read as they are, and goes on with the records that are
appended to it. -/
theorem aof_crash_tolerance (crc32 : List UInt8 → UInt32) (json : JsonCodec μ)
    (records later : List (AOFRecord μ)) (fits : ∀ rec ∈ records ++ later, rec.Fits json)
    (loads : ∀ rec ∈ records ++ later, json.loads (json.dumps rec.metadata) = .ok rec.metadata)
    (filled : ∀ rec ∈ records ++ later, json.dumps rec.metadata ≠ []) :
    ∃ pieces added, Encoded crc32 json records pieces ∧ Encoded crc32 json later added ∧
      (∀ k, ∃ n ≤ pieces.length,
        readAof crc32 json (some (pieces.flatten.take k)) =
          (records.take n, (pieces.take n).flatten.length) ∧
        ∀ m ≤ pieces.length, (pieces.take m).flatten.length ≤ k ↔ m ≤ n) ∧
      ∀ data records keep, readAof crc32 json (some data) = (records, keep) →
        (∀ n > data.length, readRounds crc32 json data n 0 [] = (records, keep)) ∧
        keep ≤ data.length ∧
        readAof crc32 json (some (data.take keep)) = (records, keep) ∧
        readAof crc32 json (some (data.take keep ++ added.flatten)) =
          (records ++ later, keep + added.flatten.length) := by
  simp only [List.mem_append, or_imp, forall_and] at fits loads filled
  obtain ⟨pieces, encoded⟩ := encoded_fits crc32 fits.1
  obtain ⟨added, encodedLater⟩ := encoded_fits crc32 fits.2
  refine ⟨pieces, added, encoded, encodedLater,
    readAof_take (encoded.encodes loads.1 filled.1), fun data records keep read => ?_⟩
  have kept : (readAof crc32 json (some data)).2 ≤ data.length ∧ _ := readAof_keep data
  have continued := readAof_append (encodedLater.encodes loads.2 filled.2) data
  have rounds (n : Nat) (enough : data.length < n) :
      readRounds crc32 json data n 0 [] = readAof crc32 json (some data) := readRounds_enough enough
  rw [read] at kept continued rounds
  exact ⟨rounds, kept.1, kept.2, continued⟩

/-- JSON on the metadata `{}`. -/
def noMetadata : JsonCodec Unit where
  dumps _ := [0x7B, 0x7D]
  loads bytes := if bytes = [0x7B, 0x7D] then .ok () else .error "Expecting value"
  empty := ()

/-- The record of an ACK at the time 1.0. -/
def acked : AOFRecord Unit :=
  { seq := 1, op := .messageAck, metadata := (), payload := [], timestamp := 0x3FF0000000000000 }

/-- The record of a PUBLISH after it. -/
def published : AOFRecord Unit :=
  { seq := 2, op := .messagePublish, metadata := (), payload := [1, 2], timestamp := 0x3FF0000000000000 }

theorem aof_crash_tolerance_acked : ∃ pieces added, Encoded Words.crc32 noMetadata [acked] pieces ∧
    Encoded Words.crc32 noMetadata [published] added ∧
    readAof Words.crc32 noMetadata (some (([] : List UInt8).take 0 ++ added.flatten)) =
      ([published], 0 + added.flatten.length) := by
  obtain ⟨pieces, added, first, second, _, cut⟩ :=
    aof_crash_tolerance Words.crc32 noMetadata [acked] [published]
      (by simp only [List.cons_append, List.nil_append, List.forall_mem_cons]
          exact ⟨⟨by decide, by decide, by decide⟩, ⟨by decide, by decide, by decide⟩, by simp⟩)
      (by intro rec _; rfl) (by intro rec _; exact List.cons_ne_nil _ _)
  exact ⟨pieces, added, first, second, (cut [] [] 0 rfl).2.2.2⟩

end OneOpenBroker.Persistence.Records

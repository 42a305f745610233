import Mathlib.Data.List.Induction
import Mathlib.Algebra.BigOperators.Group.List.Basic
import Mathlib.Tactic.Ring

/-! Unsigned numbers in big-endian bytes, and records of them with a width for
each, as `struct.pack` writes them without padding. -/
namespace Words

/-- The bytes of a number, the highest first. -/
def bigEndian : Nat → Nat → List UInt8
  | 0, _ => []
  | width + 1, n => bigEndian width (n / 256) ++ [UInt8.ofNat n]

/-- The number that the bytes spell. -/
def number (bytes : List UInt8) : Nat := bytes.foldl (fun n byte => n * 256 + byte.toNat) 0

variable {width n : Nat} {bytes rest : List UInt8} {widths ns : List Nat}

@[simp] theorem length_bigEndian : (bigEndian width n).length = width := by
  induction width generalizing n with
  | zero => rfl
  | succ width ih => simp [bigEndian, ih]

@[simp] theorem number_nil : number [] = 0 := rfl

@[simp] theorem number_concat (byte : UInt8) :
    number (bytes ++ [byte]) = number bytes * 256 + byte.toNat := by
  simp [number, List.foldl_append]

theorem number_bigEndian (fits : n < 256 ^ width) : number (bigEndian width n) = n := by
  induction width generalizing n with
  | zero =>
    have zero : n = 0 := by simpa using fits
    exact zero.symm
  | succ width ih =>
    have less : n / 256 < 256 ^ width := Nat.div_lt_of_lt_mul (by rwa [pow_succ'] at fits)
    rw [bigEndian, number_concat, ih less]
    simp only [UInt8.toNat_ofNat']
    omega

theorem number_lt (bytes : List UInt8) : number bytes < 256 ^ bytes.length := by
  induction bytes using List.reverseRecOn with
  | nil => simp
  | append_singleton bytes byte ih =>
    have small := byte.toNat_lt
    rw [number_concat, List.length_append, List.length_singleton, pow_succ]
    omega

theorem bigEndian_number (bytes : List UInt8) : bigEndian bytes.length (number bytes) = bytes := by
  induction bytes using List.reverseRecOn with
  | nil => rfl
  | append_singleton bytes byte ih =>
    have small := byte.toNat_lt
    have high : (number bytes * 256 + byte.toNat) / 256 = number bytes := by omega
    have low : UInt8.ofNat (number bytes * 256 + byte.toNat) = byte := by
      apply UInt8.toNat_inj.mp
      simp only [UInt8.toNat_ofNat']
      omega
    rw [number_concat, List.length_append, List.length_singleton, bigEndian, high, low, ih]

/-! ## Records -/

/-- The bytes of a record. A number that its width does not hold is an error. -/
def pack : List Nat → List Nat → Option (List UInt8)
  | [], [] => some []
  | width :: widths, n :: ns =>
    if n < 256 ^ width then (pack widths ns).map (bigEndian width n ++ ·) else none
  | _, _ => none

/-- The numbers that the bytes of a record spell. -/
def unpack : List Nat → List UInt8 → List Nat
  | [], _ => []
  | width :: widths, bytes => number (bytes.take width) :: unpack widths (bytes.drop width)

@[simp] theorem length_unpack : (unpack widths bytes).length = widths.length := by
  induction widths generalizing bytes with
  | nil => rfl
  | cons width widths ih => simp [unpack, ih]

theorem unpack_pack (packed : pack widths ns = some bytes) (rest : List UInt8) :
    unpack widths (bytes ++ rest) = ns ∧ bytes.length = widths.sum := by
  induction widths generalizing ns bytes with
  | nil =>
    cases ns with
    | nil =>
      obtain rfl := Option.some.inj packed
      exact ⟨rfl, rfl⟩
    | cons n ns => cases packed
  | cons width widths ih =>
    cases ns with
    | nil => cases packed
    | cons n ns =>
      unfold pack at packed
      split at packed
      · rename_i fits
        obtain ⟨tail, packedTail, rfl⟩ := Option.map_eq_some_iff.mp packed
        obtain ⟨same, length⟩ := ih packedTail
        have first : ((bigEndian width n ++ tail) ++ rest).take width = bigEndian width n := by
          rw [List.append_assoc, List.take_left' length_bigEndian]
        have later : ((bigEndian width n ++ tail) ++ rest).drop width = tail ++ rest := by
          rw [List.append_assoc, List.drop_left' length_bigEndian]
        rw [unpack, first, later, number_bigEndian fits, same]
        simp [length]
      · cases packed

/-- A record is packed where every number fits its width. -/
theorem pack_eq_some_iff : (∃ bytes, pack widths ns = some bytes) ↔
    List.Forall₂ (fun width n => n < 256 ^ width) widths ns := by
  induction widths generalizing ns with
  | nil => cases ns <;> simp [pack]
  | cons width widths ih =>
    cases ns with
    | nil => simp [pack]
    | cons n ns =>
      rw [List.forall₂_cons, ← ih, pack]
      split
      · rename_i fits
        simp [fits]
      · rename_i large
        simp [large]

theorem pack_unpack (full : bytes.length = widths.sum) :
    pack widths (unpack widths bytes) = some bytes := by
  induction widths generalizing bytes with
  | nil => rw [List.length_eq_zero_iff.mp full]; rfl
  | cons width widths ih =>
    rw [List.sum_cons] at full
    have first : (bytes.take width).length = width := by rw [List.length_take]; omega
    have fits : number (bytes.take width) < 256 ^ width := by
      have less := number_lt (bytes.take width)
      rwa [first] at less
    have spelled : bigEndian width (number (bytes.take width)) = bytes.take width := by
      have same := bigEndian_number (bytes.take width)
      rwa [first] at same
    rw [unpack, pack, if_pos fits, ih (by rw [List.length_drop]; omega), Option.map_some, spelled,
      List.take_append_drop]

/-- The last field of a record. -/
theorem pack_concat (same : widths.length = ns.length) :
    pack (widths ++ [width]) (ns ++ [n]) =
      if n < 256 ^ width then (pack widths ns).map (· ++ bigEndian width n) else none := by
  induction widths generalizing ns with
  | nil =>
    obtain rfl := List.length_eq_zero_iff.mp same.symm
    simp [pack]
  | cons w widths ih =>
    cases ns with
    | nil => cases same
    | cons m ns =>
      rw [List.cons_append, List.cons_append, pack, pack, ih (Nat.succ.inj same)]
      split
      · split
        · cases pack widths ns with
          | none => rfl
          | some tail => simp
        · rfl
      · split <;> rfl

theorem pack_last_iff (same : widths.length = ns.length) :
    pack (widths ++ [width]) (ns ++ [n]) = some bytes ↔
      n < 256 ^ width ∧ ∃ first, pack widths ns = some first ∧ bytes = first ++ bigEndian width n := by
  rw [pack_concat same]
  split
  · rename_i fits
    simp [fits, eq_comm]
  · rename_i large
    simp [large]

/-! ## Checksums -/

/-- One byte of the CRC-32 of zlib, bit by bit. -/
def crcByte (crc : UInt32) (byte : UInt8) : UInt32 :=
  (List.range 8).foldl (fun crc _ =>
    if crc &&& 1 = 1 then (crc >>> 1) ^^^ 0xEDB88320 else crc >>> 1) (crc ^^^ byte.toUInt32)

def crc32 (bytes : List UInt8) : UInt32 := bytes.foldl crcByte 0xFFFFFFFF ^^^ 0xFFFFFFFF

/-- The checksum of the digits from 1 to 9. -/
example : crc32 [0x31, 0x32, 0x33, 0x34, 0x35, 0x36, 0x37, 0x38, 0x39] = 0xCBF43926 := by
  decide +kernel

/-- A record with a checksum of its own first part is packed twice, first with
nothing for the checksum, which leaves the first part as it is. -/
theorem sealed_iff {α β : Type*} {packs : Nat → Option (List α)} {sum : List α → Nat} {part : Nat}
    {join : List α → β} {result : β}
    (steady : ∀ {check header}, packs check = some header →
      ∃ blank, packs 0 = some blank ∧ blank.take part = header.take part) :
    ((packs 0).bind fun blank => (packs (sum (blank.take part))).bind fun header => some (join header)) =
        some result ↔
      ∃ header, packs (sum (header.take part)) = some header ∧ result = join header := by
  constructor
  · intro packed
    obtain ⟨blank, first, packed⟩ := Option.bind_eq_some_iff.mp packed
    obtain ⟨header, second, whole⟩ := Option.bind_eq_some_iff.mp packed
    obtain ⟨other, same, shared⟩ := steady second
    obtain rfl := Option.some.inj (first.symm.trans same)
    exact ⟨header, shared ▸ second, (Option.some.inj whole).symm⟩
  · rintro ⟨header, second, rfl⟩
    obtain ⟨blank, first, shared⟩ := steady second
    rw [first, Option.bind_some, shared, second]
    rfl

end Words

import OneOpenBroker.Protocol.Codec

/-! `bytes.decode("utf-8")`, beside the encoder of the codec. The decoder takes
no code point in more bytes than it needs, no surrogate, and nothing past
U+10FFFF, so it reads what the encoder wrote, and only scalar values. -/
namespace OneOpenBroker.Protocol
open OneOpenBroker.Untyped

def isSurrogate (c : Nat) : Bool := 0xD800 ≤ c && c ≤ 0xDFFF

/-- A code point that UTF-8 has bytes for. -/
def IsScalar (c : Nat) : Prop := c < 0x110000 ∧ isSurrogate c = false

instance : DecidablePred IsScalar := fun c => inferInstanceAs (Decidable (c < 0x110000 ∧ _))

/-- The bits of a continuation byte. -/
def continued (b : Nat) : Option Nat := if 0x80 ≤ b ∧ b ≤ 0xBF then some (b - 0x80) else none

/-- The decoder on the values of the bytes. -/
def decodeUnits : List Nat → Option Text
  | [] => some []
  | a :: rest =>
    if a < 0x80 then do return a :: (← decodeUnits rest)
    else if a < 0xC0 then none
    else if a < 0xE0 then
      match rest with
      | b :: rest => do
        let code := (a - 0xC0) * 64 + (← continued b)
        if 0x80 ≤ code then return code :: (← decodeUnits rest) else none
      | _ => none
    else if a < 0xF0 then
      match rest with
      | b :: c :: rest => do
        let code := ((a - 0xE0) * 64 + (← continued b)) * 64 + (← continued c)
        if 0x800 ≤ code ∧ isSurrogate code = false then return code :: (← decodeUnits rest) else none
      | _ => none
    else if a < 0xF8 then
      match rest with
      | b :: c :: d :: rest => do
        let code := (((a - 0xF0) * 64 + (← continued b)) * 64 + (← continued c)) * 64 + (← continued d)
        if 0x10000 ≤ code ∧ code < 0x110000 then return code :: (← decodeUnits rest) else none
      | _ => none
    else none

/-- `.decode("utf-8")`, which raises a `UnicodeDecodeError`. -/
def decodeUtf8 (raw : List UInt8) : Option Text := decodeUnits (raw.map UInt8.toNat)

/-- `.encode("utf-8")`, which raises a `UnicodeEncodeError`. -/
def encodeUtf8 (t : Text) : Option (List UInt8) := if t.encodable then some (bytes t) else none

variable {t : Text} {c : Nat} {units : List Nat} {raw : List UInt8}

theorem continued_of {n : Nat} (small : n < 64) : continued (0x80 + n) = some n := by
  unfold continued
  rw [if_pos (by omega)]
  simp

theorem toNat_byte {n : Nat} (small : n < 256) : (UInt8.ofNat n).toNat = n := by
  simp [UInt8.toNat_ofNat', Nat.mod_eq_of_lt small]

/-- The bytes of a code point are read back. -/
theorem decodeUnits_utf8 (scalar : IsScalar c) :
    decodeUnits ((utf8 c).map UInt8.toNat ++ units) = (decodeUnits units).map (c :: ·) := by
  obtain ⟨bound, regular⟩ := scalar
  have bits (n : Nat) : continued (UInt8.ofNat (0x80 + n % 64)).toNat = some (n % 64) := by
    rw [toNat_byte (by omega)]
    exact continued_of (by omega)
  unfold utf8
  dsimp only
  split
  · rename_i one
    simp only [List.map_cons, List.map_nil, List.cons_append, List.nil_append]
    rw [toNat_byte (by omega), decodeUnits.eq_def]
    dsimp only
    rw [if_pos one]
    cases decodeUnits units <;> rfl
  split
  · rename_i two
    simp only [List.map_cons, List.map_nil, List.cons_append, List.nil_append]
    rw [decodeUnits, toNat_byte (by omega : 0xC0 + c / 64 < 256), if_neg (by omega), if_neg (by omega),
      if_pos (by omega)]
    have code : (0xC0 + c / 64 - 0xC0) * 64 + c % 64 = c := by omega
    simp only [bits, Option.bind_eq_bind, Option.bind_some, code]
    rw [if_pos (by omega)]
    cases decodeUnits units <;> rfl
  split
  · rename_i three
    simp only [List.map_cons, List.map_nil, List.cons_append, List.nil_append]
    rw [decodeUnits, toNat_byte (by omega : 0xE0 + c / 4096 < 256), if_neg (by omega), if_neg (by omega),
      if_neg (by omega), if_pos (by omega)]
    have code : ((0xE0 + c / 4096 - 0xE0) * 64 + c / 64 % 64) * 64 + c % 64 = c := by omega
    simp only [bits, Option.bind_eq_bind, Option.bind_some, code]
    rw [if_pos ⟨by omega, regular⟩]
    cases decodeUnits units <;> rfl
  · simp only [List.map_cons, List.map_nil, List.cons_append, List.nil_append]
    rw [decodeUnits, toNat_byte (by omega : 0xF0 + c / 262144 < 256), if_neg (by omega), if_neg (by omega),
      if_neg (by omega), if_neg (by omega), if_pos (by omega)]
    have code : (((0xF0 + c / 262144 - 0xF0) * 64 + c / 4096 % 64) * 64 + c / 64 % 64) * 64 + c % 64 = c := by
      omega
    simp only [bits, Option.bind_eq_bind, Option.bind_some, code]
    rw [if_pos ⟨by omega, bound⟩]
    cases decodeUnits units <;> rfl

theorem decodeUtf8_bytes (scalars : ∀ c ∈ t, IsScalar c) : decodeUtf8 (bytes t) = some t := by
  induction t with
  | nil => rfl
  | cons c rest ih =>
    obtain ⟨here, later⟩ := List.forall_mem_cons.mp scalars
    have read : decodeUnits ((bytes rest).map UInt8.toNat) = some rest := ih later
    change decodeUnits (((utf8 c ++ bytes rest)).map UInt8.toNat) = some (c :: rest)
    rw [List.map_append, decodeUnits_utf8 here, read]
    rfl

theorem continued_lt {b n : Nat} (read : continued b = some n) : n < 64 := by
  unfold continued at read
  split at read
  · rename_i within
    obtain rfl := Option.some.inj read
    omega
  · cases read

/-- A scalar value before scalar values. -/
theorem scalars_cons {tail : Option Text} (scalar : IsScalar c)
    (later : ∀ {t}, tail = some t → ∀ c ∈ t, IsScalar c) (read : tail.bind (some <| c :: ·) = some t) :
    ∀ c ∈ t, IsScalar c := by
  obtain ⟨rest, found, whole⟩ := Option.bind_eq_some_iff.mp read
  obtain rfl := Option.some.inj whole
  exact List.forall_mem_cons.mpr ⟨scalar, later found⟩

/-- What is decoded has scalar values only. -/
theorem decodeUnits_scalars (read : decodeUnits units = some t) : ∀ c ∈ t, IsScalar c := by
  fun_induction decodeUnits units generalizing t with
  | case1 =>
    cases read
    simp
  | case2 a rest small ih => exact scalars_cons ⟨by omega, by simp [isSurrogate]; omega⟩ ih read
  | case4 a _ _ small b rest ih =>
    obtain ⟨x, first, read⟩ := Option.bind_eq_some_iff.mp read
    have bound := continued_lt first
    dsimp only at read
    split at read
    · exact scalars_cons ⟨by omega, by simp [isSurrogate]; omega⟩ ih read
    · cases read
  | case6 a _ _ _ small b c rest ih =>
    obtain ⟨x, first, read⟩ := Option.bind_eq_some_iff.mp read
    obtain ⟨y, second, read⟩ := Option.bind_eq_some_iff.mp read
    have bounds := And.intro (continued_lt first) (continued_lt second)
    dsimp only at read
    split at read
    · rename_i regular
      exact scalars_cons ⟨by omega, regular.2⟩ ih read
    · cases read
  | case8 a _ _ _ _ small b c d rest ih =>
    obtain ⟨x, _, read⟩ := Option.bind_eq_some_iff.mp read
    obtain ⟨y, _, read⟩ := Option.bind_eq_some_iff.mp read
    obtain ⟨z, _, read⟩ := Option.bind_eq_some_iff.mp read
    dsimp only at read
    split at read
    · rename_i within
      exact scalars_cons ⟨within.2, by simp [isSurrogate]; omega⟩ ih read
    · cases read
  | case3 | case5 | case7 | case9 | case10 => cases read

theorem decodeUtf8_scalars (read : decodeUtf8 raw = some t) : ∀ c ∈ t, IsScalar c :=
  decodeUnits_scalars read

end OneOpenBroker.Protocol

import Mathlib.Tactic.IntervalCases
import Mathlib.Tactic.Ring
import OneOpenBroker.Protocol.JsonText

/-! What the scanner does with any text. Each part of it takes a piece off the
front of the text, so a fuel that is larger than the text is long is never used
up, and what is read is made of the characters of the text. -/
namespace OneOpenBroker.Protocol
open Collections OneOpenBroker.Untyped

variable {φ : Type*} {format : FloatFormat φ} {t rest : Text} {fuel : Nat}

/-- A part of the text was read. -/
structure Shorter (rest t : Text) : Prop where
  suffix : rest <:+ t
  length : rest.length < t.length

theorem Shorter.of_cons {c : Nat} (within : rest <:+ t) : Shorter rest (c :: t) where
  suffix := within.trans (List.suffix_cons c t)
  length := Nat.lt_succ_of_le within.length_le

theorem Shorter.cons {c : Nat} (shorter : Shorter rest t) : Shorter rest (c :: t) :=
  .of_cons shorter.suffix

theorem Shorter.before {middle : Text} (first : middle <:+ t) (later : Shorter rest middle) :
    Shorter rest t :=
  ⟨later.suffix.trans first, later.length.trans_le first.length_le⟩

theorem Shorter.then {middle : Text} (first : Shorter middle t) (later : rest <:+ middle) :
    Shorter rest t :=
  ⟨later.trans first.suffix, later.length_le.trans_lt first.length⟩

theorem skip_suffix : skip t <:+ t := List.dropWhile_suffix _

/-- The blanks before a separator are gone with it. -/
theorem skip_cons {c : Nat} (next : skip t = c :: rest) : Shorter rest t := by
  have within : c :: rest <:+ t := next ▸ skip_suffix
  exact .before within (.of_cons List.suffix_rfl)

/-! ## Strings and numbers -/

theorem push_some {unit : Nat} {scanned : Option (Text × Text)} {units : Text}
    (read : scanned.map (push unit) = some (units, rest)) :
    ∃ later, scanned = some (later, rest) ∧ units = unit :: later := by
  obtain ⟨⟨later, rest'⟩, found, same⟩ := Option.map_eq_some_iff.mp read
  obtain ⟨rfl, rfl⟩ := Prod.mk.inj same
  exact ⟨later, found, rfl⟩

theorem scanUnits_shorter {units : Text} (read : scanUnits t = some (units, rest)) : Shorter rest t := by
  fun_induction scanUnits t generalizing units with
  | case2 =>
    cases read
    exact .of_cons List.suffix_rfl
  | case4 a b c d tail _ ih =>
    obtain ⟨unit, _, read⟩ := Option.bind_eq_some_iff.mp read
    obtain ⟨later, found, _⟩ := push_some read
    exact ((((((ih found).cons).cons).cons).cons).cons).cons
  | case6 e tail _ _ ih =>
    obtain ⟨unit, _, read⟩ := Option.bind_eq_some_iff.mp read
    obtain ⟨later, found, _⟩ := push_some read
    exact (ih found).cons.cons
  | case8 c tail _ _ _ ih =>
    obtain ⟨later, found, _⟩ := push_some read
    exact (ih found).cons
  | case1 | case3 | case5 | case7 => cases read

theorem scanString_shorter {read : Text} (scanned : scanString t = some (read, rest)) : Shorter rest t := by
  obtain ⟨⟨units, rest'⟩, found, same⟩ := Option.map_eq_some_iff.mp scanned
  obtain ⟨_, rfl⟩ := Prod.mk.inj same
  exact scanUnits_shorter found

/-- A code point of Python. -/
def IsPoint (c : Nat) : Prop := c < 0x110000

theorem hexValue_lt {c n : Nat} (read : hexValue c = some n) : n < 16 := by
  unfold hexValue at read
  split at read
  · cases read
    omega
  split at read
  · cases read
    omega
  split at read
  · cases read
    omega
  · cases read

theorem hex4_point {a b c d n : Nat} (read : hex4 a b c d = some n) : IsPoint n := by
  obtain ⟨p, first, read⟩ := Option.bind_eq_some_iff.mp read
  obtain ⟨q, second, read⟩ := Option.bind_eq_some_iff.mp read
  obtain ⟨r, third, read⟩ := Option.bind_eq_some_iff.mp read
  obtain ⟨s, fourth, read⟩ := Option.bind_eq_some_iff.mp read
  have bounds := And.intro (And.intro (hexValue_lt first) (hexValue_lt second))
    (And.intro (hexValue_lt third) (hexValue_lt fourth))
  cases read
  unfold IsPoint
  omega

theorem backslash_ascii {e n : Nat} (found : backslash.lookup e = some n) : n < 0x80 := by
  have listed : ∀ entry ∈ backslash, entry.2 < 0x80 := by simp [backslash]
  obtain ⟨before, after, shape, _⟩ := List.lookup_eq_some_iff.mp found
  exact listed (e, n) (by simp [shape])

/-- A condition that ASCII meets is met by what is read, if the characters of the
text and its escapes meet it. -/
theorem scanUnits_all {P : Nat → Prop} {units : Text} (ascii : ∀ c < 0x80, P c) (chars : ∀ c ∈ t, P c)
    (escaped : ∀ a b c d unit, [0x5C, 0x75, a, b, c, d] <:+: t → hex4 a b c d = some unit → P unit)
    (read : scanUnits t = some (units, rest)) : ∀ c ∈ units, P c := by
  fun_induction scanUnits t generalizing units with
  | case2 =>
    cases read
    simp
  | case4 a b c d tail _ ih =>
    obtain ⟨unit, made, read⟩ := Option.bind_eq_some_iff.mp read
    obtain ⟨later, found, rfl⟩ := push_some read
    have here := escaped a b c d unit ⟨[], tail, rfl⟩ made
    have within : tail <:+ 0x5C :: 0x75 :: a :: b :: c :: d :: tail := ⟨[0x5C, 0x75, a, b, c, d], rfl⟩
    exact List.forall_mem_cons.mpr ⟨here, ih (fun c member => chars c (within.subset member))
      (fun _ _ _ _ _ inside => escaped _ _ _ _ _ (inside.trans within.isInfix)) found⟩
  | case6 e tail _ _ ih =>
    obtain ⟨unit, made, read⟩ := Option.bind_eq_some_iff.mp read
    obtain ⟨later, found, rfl⟩ := push_some read
    have within : tail <:+ 0x5C :: e :: tail := ⟨[0x5C, e], rfl⟩
    exact List.forall_mem_cons.mpr ⟨ascii _ (backslash_ascii made),
      ih (fun c member => chars c (within.subset member))
        (fun _ _ _ _ _ inside => escaped _ _ _ _ _ (inside.trans within.isInfix)) found⟩
  | case8 c tail _ _ _ ih =>
    obtain ⟨later, found, rfl⟩ := push_some read
    obtain ⟨here, others⟩ := List.forall_mem_cons.mp chars
    have within : tail <:+ c :: tail := List.suffix_cons c tail
    exact List.forall_mem_cons.mpr ⟨here, ih others
      (fun _ _ _ _ _ inside => escaped _ _ _ _ _ (inside.trans within.isInfix)) found⟩
  | case1 | case3 | case5 | case7 => cases read

theorem joinPairs_points {units : Text} (points : ∀ c ∈ units, IsPoint c) :
    ∀ c ∈ joinPairs units, IsPoint c := by
  fun_induction joinPairs units with
  | case1 high low rest pair ih =>
    refine List.forall_mem_cons.mpr ⟨?_, ih fun c member => points c (by simp [member])⟩
    unfold IsPoint
    omega
  | case2 high low rest _ ih =>
    obtain ⟨here, others⟩ := List.forall_mem_cons.mp points
    exact List.forall_mem_cons.mpr ⟨here, ih others⟩
  | case3 => exact points

theorem scanString_points {read : Text} (points : ∀ c ∈ t, IsPoint c)
    (scanned : scanString t = some (read, rest)) : ∀ c ∈ read, IsPoint c := by
  obtain ⟨⟨units, rest'⟩, found, same⟩ := Option.map_eq_some_iff.mp scanned
  obtain ⟨rfl, rfl⟩ := Prod.mk.inj same
  have ascii : ∀ c < 0x80, IsPoint c := fun c small => Nat.lt_trans small (by omega)
  exact joinPairs_points (scanUnits_all ascii points (fun _ _ _ _ _ _ => hex4_point) found)

/-- A piece of a number is at the front of the text, and it is ASCII. -/
structure Splits (piece rest t : Text) : Prop where
  whole : piece ++ rest = t
  ascii : ∀ c ∈ piece, c < 0x80

theorem Splits.nil : Splits [] t t := ⟨rfl, by simp⟩

theorem Splits.append {first second middle : Text} (one : Splits first middle t)
    (two : Splits second rest middle) : Splits (first ++ second) rest t where
  whole := by rw [List.append_assoc, two.whole, one.whole]
  ascii := by
    intro c member
    exact (List.mem_append.mp member).elim (one.ascii c) (two.ascii c)

theorem Splits.cons {c : Nat} {piece : Text} (later : Splits piece rest t) (ascii : c < 0x80) :
    Splits (c :: piece) rest (c :: t) :=
  ⟨congrArg (c :: ·) later.whole, List.forall_mem_cons.mpr ⟨ascii, later.ascii⟩⟩

theorem isDigit_lt {c : Nat} (digit : isDigit c = true) : c < 0x80 := by
  simp only [isDigit, Bool.and_eq_true, decide_eq_true_eq] at digit
  omega

theorem taken_digit {c : Nat} (member : c ∈ t.takeWhile isDigit) : isDigit c = true :=
  List.all_eq_true.mp List.all_takeWhile c member

theorem digits_splits (t : Text) : Splits (t.takeWhile isDigit) (t.dropWhile isDigit) t where
  whole := List.takeWhile_append_dropWhile
  ascii := fun _ member => isDigit_lt (taken_digit member)

theorem scanMinus_splits (t : Text) : Splits (scanMinus t).1 (scanMinus t).2 t := by
  unfold scanMinus
  split
  · exact Splits.nil.cons (by omega)
  · exact .nil

theorem scanSign_splits (t : Text) : Splits (scanSign t).1 (scanSign t).2 t := by
  unfold scanSign
  split
  · exact Splits.nil.cons (by omega)
  · exact Splits.nil.cons (by omega)
  · exact .nil

theorem scanFrac_splits (t : Text) : Splits (scanFrac t).1 (scanFrac t).2 t := by
  unfold scanFrac
  split
  · split
    · exact .nil
    · exact (digits_splits _).cons (by omega)
  · exact .nil

theorem scanExp_splits (t : Text) : Splits (scanExp t).1 (scanExp t).2 t := by
  unfold scanExp
  split
  · exact .nil
  · rename_i c tail
    dsimp only
    split
    · rename_i marked
      refine ((scanSign_splits tail).append (digits_splits _)).cons ?_
      omega
    · exact .nil

theorem scanInt_splits {digits : Text} (read : scanInt t = some (digits, rest)) :
    Splits digits rest t ∧ digits ≠ [] ∧ ∀ c ∈ digits, isDigit c = true := by
  unfold scanInt at read
  split at read
  · cases read
  · rename_i c tail
    split at read
    · rename_i zero
      cases read
      subst zero
      exact ⟨Splits.nil.cons (by omega), by simp, by simp [isDigit]⟩
    · split at read
      · rename_i digit
        cases read
        refine ⟨(digits_splits tail).cons (isDigit_lt digit), by simp, ?_⟩
        exact List.forall_mem_cons.mpr ⟨digit, fun _ member => taken_digit member⟩
      · cases read

theorem scanNumber_splits {parts : NumberParts} (read : scanNumber t = some (parts, rest)) :
    Splits parts.literal rest t ∧ parts.digits ≠ [] ∧ ∀ c ∈ parts.digits, isDigit c = true := by
  obtain ⟨⟨digits, afterInt⟩, found, read⟩ := Option.bind_eq_some_iff.mp read
  obtain ⟨int, some_digit, all⟩ := scanInt_splits found
  cases read
  have frac := scanFrac_splits afterInt
  exact ⟨((scanMinus_splits t).append int).append (frac.append (scanExp_splits _)), some_digit, all⟩

theorem scanNumber_shorter {parts : NumberParts} (read : scanNumber t = some (parts, rest)) :
    Shorter rest t := by
  obtain ⟨splits, some_digit, _⟩ := scanNumber_splits read
  have some_char : 0 < parts.literal.length := by
    have digits := List.length_pos_iff.mpr some_digit
    simp only [NumberParts.literal, List.length_append]
    omega
  refine ⟨⟨parts.literal, splits.whole⟩, ?_⟩
  rw [← splits.whole, List.length_append]
  omega

theorem ofDigitChars_lt {digits : Text} (all : ∀ c ∈ digits, isDigit c = true) (init : Nat) :
    Nat.ofDigitChars 10 (digits.map Char.ofNat) init < (init + 1) * 10 ^ digits.length := by
  induction digits generalizing init with
  | nil => simp
  | cons c later ih =>
    obtain ⟨digit, others⟩ := List.forall_mem_cons.mp all
    have small : (Char.ofNat c).toNat - '0'.toNat ≤ 9 := by
      simp only [isDigit, Bool.and_eq_true, decide_eq_true_eq] at digit
      obtain ⟨lower, upper⟩ := digit
      interval_cases c <;> decide
    rw [List.map_cons, Nat.ofDigitChars_cons, List.length_cons, Nat.pow_succ]
    calc _ < (10 * init + ((Char.ofNat c).toNat - '0'.toNat) + 1) * 10 ^ later.length := ih others _
      _ ≤ (10 * (init + 1)) * 10 ^ later.length := Nat.mul_le_mul_right _ (by omega)
      _ = (init + 1) * (10 ^ later.length * 10) := by ring

/-- As many digits as are allowed make an integer that can be written. -/
theorem int_short {parts : NumberParts} (all : ∀ c ∈ parts.digits, isDigit c = true)
    (few : parts.digits.length ≤ maxStrDigits) : JsonValue.isShort parts.int = true := by
  have bound := ofDigitChars_lt all 0
  have more : 10 ^ parts.digits.length ≤ 10 ^ maxStrDigits := Nat.pow_le_pow_right (by omega) few
  have size : parts.int.natAbs = Nat.ofDigitChars 10 (parts.digits.map Char.ofNat) 0 := by
    unfold NumberParts.int
    dsimp only
    split <;> simp
  unfold JsonValue.isShort
  rw [decide_eq_true_eq, Nat.length_toDigits_le_iff (by omega) (by unfold maxStrDigits; omega), size]
  rw [Nat.zero_add, Nat.one_mul] at bound
  exact bound.trans_le more

end OneOpenBroker.Protocol

import Mathlib.Data.List.TakeWhile
import OneOpenBroker.Protocol.JsonGrammar

/-! What is written is read back. A value that is written without surrogates and
without words for floats is derived from its text by the rules of the grammar,
before whatever can follow a value. -/
namespace OneOpenBroker.Protocol
open Collections OneOpenBroker.Untyped

variable {φ : Type*} {format : FloatFormat φ} {t rest u : Text} {fuel : Nat} {v : JsonValue φ}

/-! ## Strings -/

theorem scanUnits_quote : scanUnits (0x22 :: t) = some ([], t) := by
  rw [scanUnits.eq_def]
  simp

theorem scanUnits_plain {c : Nat} (plain : c ≠ 0x22 ∧ c ≠ 0x5C ∧ ¬ c < 0x20) :
    scanUnits (c :: t) = (scanUnits t).map (push c) := by
  rw [scanUnits.eq_def]
  simp [plain]

theorem scanUnits_backslash {e unit : Nat} (own : e ≠ 0x75) (found : backslash.lookup e = some unit) :
    scanUnits (0x5C :: e :: t) = (scanUnits t).map (push unit) := by
  rw [scanUnits.eq_def]
  simp [own, found]

theorem scanUnits_hex {a b c d unit : Nat} (read : hex4 a b c d = some unit) :
    scanUnits (0x5C :: 0x75 :: a :: b :: c :: d :: t) = (scanUnits t).map (push unit) := by
  rw [scanUnits.eq_def]
  simp [read]

theorem hexValue_digit {n : Nat} (small : n < 16) : hexValue (hexDigit n) = some n := by
  unfold hexDigit hexValue
  split
  · rw [if_pos (by omega)]
    simp
  · rw [if_neg (by omega), if_pos (by omega)]
    simp

theorem scanUnits_escapes : ∀ entry ∈ escapes,
    scanUnits (entry.2 ++ t) = (scanUnits t).map (push entry.1) := by
  have table : escapes = [(0x22, [0x5C, 0x22]), (0x5C, [0x5C, 0x5C]), (0x0A, [0x5C, 0x6E]),
      (0x0D, [0x5C, 0x72]), (0x09, [0x5C, 0x74]), (0x0C, [0x5C, 0x66]), (0x08, [0x5C, 0x62])] := by rfl
  rw [table]
  simp only [List.forall_mem_cons, List.cons_append, List.nil_append]
  refine ⟨?_, ?_, ?_, ?_, ?_, ?_, ?_, by simp⟩ <;> exact scanUnits_backslash (by decide) (by decide)

/-- The text of a character is read as this character. -/
theorem scanUnits_escape (c : Nat) : scanUnits (escape c ++ t) = (scanUnits t).map (push c) := by
  unfold escape
  cases found : escapes.lookup c with
  | some own =>
    obtain ⟨before, after, shape, _⟩ := List.lookup_eq_some_iff.mp found
    exact scanUnits_escapes (c, own) (by simp [shape])
  | none =>
    rw [Option.getD_none]
    split
    · rename_i control
      have zero : hexValue 0x30 = some 0 := by decide
      have high := hexValue_digit (n := c / 16) (by omega)
      have low := hexValue_digit (n := c % 16) (by omega)
      have whole : c / 16 * 16 + c % 16 = c := by omega
      have read : hex4 0x30 0x30 (hexDigit (c / 16)) (hexDigit (c % 16)) = some c := by
        simp [hex4, zero, high, low, whole]
      exact scanUnits_hex read
    · rename_i printed
      have known : ∀ entry ∈ escapes, c ≠ entry.1 := by
        intro entry listed same
        have missing := List.lookup_eq_none_iff.mp found entry listed
        simp [same] at missing
      have quote : (0x22, text "\\\"") ∈ escapes := by simp [escapes]
      have backslash : (0x5C, text "\\\\") ∈ escapes := by simp [escapes]
      exact scanUnits_plain ⟨known _ quote, known _ backslash, printed⟩

theorem joinPairs_scalars (scalars : ∀ c ∈ t, IsScalar c) : joinPairs t = t := by
  fun_induction joinPairs t with
  | case1 high low rest pair ih =>
    have regular := (scalars high (by simp)).2
    simp only [isSurrogate, Bool.and_eq_false_iff, decide_eq_false_iff_not] at regular
    omega
  | case2 high low rest _ ih =>
    exact congrArg (high :: ·) (ih (List.forall_mem_cons.mp scalars).2)
  | case3 => rfl

theorem scanUnits_quoted : scanUnits (t.flatMap escape ++ 0x22 :: rest) = some (t, rest) := by
  induction t with
  | nil => exact scanUnits_quote
  | cons c later ih =>
    rw [List.flatMap_cons, List.append_assoc, scanUnits_escape, ih]
    rfl

/-- A text without surrogates is read from its quotes. -/
theorem scanString_quoted (scalars : ∀ c ∈ t, IsScalar c) :
    scanString (t.flatMap escape ++ 0x22 :: rest) = some (t, rest) := by
  simp [scanString, scanUnits_quoted, joinPairs_scalars scalars]

/-! ## Numbers -/

/-- What can follow a value: nothing, a comma, or a closing bracket or brace. -/
def Stops (rest : Text) : Prop := ∀ c ∈ rest.head?, c = 0x2C ∨ c = 0x5D ∨ c = 0x7D

theorem Stops.nil : Stops [] := nofun

theorem Stops.cons {c : Nat} (stop : c = 0x2C ∨ c = 0x5D ∨ c = 0x7D) : Stops (c :: rest) := by
  rintro d same
  cases same
  exact stop

theorem Stops.span (stops : Stops rest) (u : Text) :
    (u ++ rest).takeWhile isDigit = u.takeWhile isDigit ∧
      (u ++ rest).dropWhile isDigit = u.dropWhile isDigit ++ rest := by
  induction u with
  | nil =>
    cases rest with
    | nil => exact ⟨rfl, rfl⟩
    | cons c later =>
      have none_digit : isDigit c = false := by
        have stop := stops c rfl
        simp only [isDigit, Bool.and_eq_false_iff, decide_eq_false_iff_not]
        omega
      simp [none_digit]
  | cons c later ih =>
    cases digit : isDigit c with
    | true => simpa [digit] using ih
    | false => simp [digit]

theorem scanMinus_append (some_char : (scanMinus t).2 ≠ []) :
    scanMinus (t ++ rest) = ((scanMinus t).1, (scanMinus t).2 ++ rest) := by
  unfold scanMinus at some_char ⊢
  split at some_char
  · rfl
  · rename_i no_minus
    cases t with
    | nil => exact absurd rfl some_char
    | cons c later =>
      split
      · rename_i minus
        cases minus
        exact absurd rfl (no_minus _)
      · simp

theorem scanInt_append {digits after : Text} (stops : Stops rest) (read : scanInt t = some (digits, after)) :
    scanInt (t ++ rest) = some (digits, after ++ rest) := by
  cases t with
  | nil => cases read
  | cons c later =>
    obtain ⟨taken, dropped⟩ := stops.span later
    simp only [scanInt, List.cons_append, taken, dropped] at read ⊢
    by_cases zero : c = 0x30
    · rw [if_pos zero] at read ⊢
      cases read
      rfl
    · rw [if_neg zero] at read ⊢
      split at read
      · rename_i digit
        cases read
        rw [if_pos digit]
      · cases read

theorem Stops.head {c : Nat} (stops : Stops (c :: rest)) : c = 0x2C ∨ c = 0x5D ∨ c = 0x7D := stops c rfl

theorem scanFrac_other {c : Nat} (no_point : c ≠ 0x2E) : scanFrac (c :: t) = ([], c :: t) := by
  unfold scanFrac
  split
  · rename_i point
    cases point
    exact absurd rfl no_point
  · rfl

theorem scanFrac_append (stops : Stops rest) (t : Text) :
    scanFrac (t ++ rest) = ((scanFrac t).1, (scanFrac t).2 ++ rest) := by
  cases t with
  | nil =>
    cases rest with
    | nil => rfl
    | cons c later =>
      have stop := stops.head
      exact scanFrac_other (by omega)
  | cons c later =>
    by_cases point : c = 0x2E
    · subst point
      obtain ⟨taken, dropped⟩ := stops.span later
      simp only [scanFrac, List.cons_append, taken, dropped]
      split <;> rfl
    · rw [List.cons_append, scanFrac_other point, scanFrac_other point]
      rfl

theorem scanSign_append (stops : Stops rest) (t : Text) :
    scanSign (t ++ rest) = ((scanSign t).1, (scanSign t).2 ++ rest) := by
  have unsigned : ∀ {c : Nat} {t : Text}, c ≠ 0x2B ∧ c ≠ 0x2D → scanSign (c :: t) = ([], c :: t) := by
    intro c t differ
    unfold scanSign
    split
    · rename_i plus
      cases plus
      exact absurd rfl differ.1
    · rename_i minus
      cases minus
      exact absurd rfl differ.2
    · rfl
  cases t with
  | nil =>
    cases rest with
    | nil => rfl
    | cons c later =>
      have stop := stops.head
      exact unsigned (by omega)
  | cons c later =>
    by_cases plus : c = 0x2B
    · subst plus
      rfl
    by_cases minus : c = 0x2D
    · subst minus
      rfl
    · rw [List.cons_append, unsigned ⟨plus, minus⟩, unsigned ⟨plus, minus⟩]
      rfl

theorem scanExp_append (stops : Stops rest) (t : Text) :
    scanExp (t ++ rest) = ((scanExp t).1, (scanExp t).2 ++ rest) := by
  cases t with
  | nil =>
    cases rest with
    | nil => rfl
    | cons c later =>
      have stop := stops.head
      simp only [scanExp, List.nil_append]
      rw [if_neg (by omega)]
  | cons c later =>
    obtain ⟨taken, dropped⟩ := stops.span (scanSign later).2
    simp only [scanExp, List.cons_append, scanSign_append stops, taken, dropped]
    split <;> rfl

theorem scanNumber_eq : scanNumber t = (scanInt (scanMinus t).2).map fun read =>
    ({ minus := (scanMinus t).1
       digits := read.1
       tail := (scanFrac read.2).1 ++ (scanExp (scanFrac read.2).2).1 },
      (scanExp (scanFrac read.2).2).2) := by
  unfold scanNumber
  rcases scanMinus t with ⟨minus, digits⟩
  dsimp only
  cases scanInt digits <;> rfl

/-- A number ends before what can follow a value. -/
theorem scanNumber_append {parts : NumberParts} {after : Text} (stops : Stops rest)
    (read : scanNumber t = some (parts, after)) : scanNumber (t ++ rest) = some (parts, after ++ rest) := by
  rw [scanNumber_eq] at read
  obtain ⟨⟨digits, afterInt⟩, found, same⟩ := Option.map_eq_some_iff.mp read
  have some_char : (scanMinus t).2 ≠ [] := by
    intro nothing
    rw [nothing] at found
    cases found
  obtain ⟨rfl, rfl⟩ := Prod.mk.inj same
  rw [scanNumber_eq, scanMinus_append some_char, scanInt_append stops found, Option.map_some]
  dsimp only
  rw [scanFrac_append stops, scanExp_append stops]

/-- A number begins with a digit, or with a minus and a digit. -/
theorem scanNumber_opens {parts : NumberParts} (read : scanNumber t = some (parts, rest)) :
    (∃ c later, t = c :: later ∧ isDigit c = true) ∨
      ∃ c later, t = 0x2D :: c :: later ∧ isDigit c = true := by
  have digit_first : ∀ {t : Text} {read : Text × Text}, scanInt t = some read →
      ∃ c later, t = c :: later ∧ isDigit c = true := by
    intro t read found
    obtain ⟨splits, some_digit, all⟩ := scanInt_splits (found.trans rfl : scanInt t = some (read.1, read.2))
    obtain ⟨c, digits, shape⟩ := List.exists_cons_of_ne_nil some_digit
    refine ⟨c, digits ++ read.2, ?_, all c (by simp [shape])⟩
    rw [← splits.whole, shape]
    rfl
  rw [scanNumber_eq] at read
  obtain ⟨scanned, found, _⟩ := Option.map_eq_some_iff.mp read
  unfold scanMinus at found
  split at found
  · obtain ⟨c, later, rfl, digit⟩ := digit_first found
    exact .inr ⟨c, later, rfl, digit⟩
  · exact .inl (digit_first found)

/-- No number begins with a word. -/
theorem no_word {parts : NumberParts} (read : scanNumber t = some (parts, rest)) :
    (jsonWords format).find? (fun entry => entry.1.isPrefixOf t) = none := by
  rcases scanNumber_opens read with ⟨c, later, rfl, digit⟩ | ⟨c, later, rfl, digit⟩ <;>
    simp only [isDigit, Bool.and_eq_true, decide_eq_true_eq] at digit <;>
    simp [jsonWords, Untyped.text] <;> omega

/-- A number is read as a value. -/
theorem Reads.number {parts : NumberParts} (read : scanNumber t = some (parts, rest))
    (value : (if parts.tail ≠ [] then .ok (.float (format.read parts.literal), rest)
      else if maxStrDigits < parts.digits.length then .error .valueError
      else .ok (.int parts.int, rest)) = (.ok (v, rest) : Scanned (JsonValue φ))) :
    Reads format t v rest := by
  have scanned : scanAtom format t = .ok (v, rest) := by
    unfold scanAtom
    rw [no_word read, read]
    exact value
  rcases scanNumber_opens read with ⟨c, later, rfl, digit⟩ | ⟨c, later, rfl, _⟩
  · simp only [isDigit, Bool.and_eq_true, decide_eq_true_eq] at digit
    exact .atom (by omega) scanned
  · exact .atom (by omega) scanned

theorem Reads.literal {x : φ} (finite : format.finite x = true) (stops : Stops rest) :
    Reads format (format.floatstr x ++ rest) (.float x) rest := by
  obtain ⟨⟨parts, read, whole, tailed⟩, same⟩ := format.written x finite
  have found : scanNumber (format.floatstr x ++ rest) = some (parts, rest) := scanNumber_append stops read
  refine .number found ?_
  rw [if_pos tailed, whole, same]

theorem toDigits_opens {n : Nat} (positive : 0 < n) :
    ∃ c later, Nat.toDigits 10 n = c :: later ∧ c ≠ '0' := by
  induction n using Nat.strongRecOn with
  | ind n ih =>
    by_cases single : n < 10
    · refine ⟨n.digitChar, [], Nat.toDigits_of_lt_base single, ?_⟩
      interval_cases n <;> decide
    · obtain ⟨c, later, shape, differ⟩ := ih (n / 10) (by omega) (by omega)
      refine ⟨c, later ++ [(n % 10).digitChar], ?_, differ⟩
      rw [Nat.toDigits_of_base_le (by omega) (by omega), shape]
      rfl

/-- The digits of a natural number. -/
def digitsOf (n : Nat) : Text := (Nat.toDigits 10 n).map Char.toNat

theorem digitsOf_digit {n : Nat} : ∀ c ∈ digitsOf n, isDigit c = true := by
  intro c member
  obtain ⟨char, listed, rfl⟩ := List.mem_map.mp member
  have digit := Nat.isDigit_of_mem_toDigits (by omega) (by omega) listed
  simp only [Char.isDigit, Bool.and_eq_true, decide_eq_true_eq] at digit
  simp only [isDigit, Bool.and_eq_true, decide_eq_true_eq]
  exact digit

theorem scanInt_digitsOf (n : Nat) : scanInt (digitsOf n) = some (digitsOf n, []) := by
  by_cases positive : 0 < n
  · obtain ⟨c, later, shape, differ⟩ := toDigits_opens positive
    have all := digitsOf_digit (n := n)
    unfold digitsOf at all ⊢
    rw [shape, List.map_cons] at all ⊢
    obtain ⟨digit, others⟩ := List.forall_mem_cons.mp all
    have nonzero : c.toNat ≠ 0x30 := fun same => differ (Char.toNat_inj.mp same)
    have taken : (later.map Char.toNat).takeWhile isDigit = later.map Char.toNat := List.takeWhile_eq_self_iff.mpr others
    have dropped : (later.map Char.toNat).dropWhile isDigit = [] := List.dropWhile_eq_nil_iff.mpr others
    simp [scanInt, nonzero, digit, taken, dropped]
  · obtain rfl : n = 0 := by omega
    rfl

theorem scanNumber_decimal (n : ℤ) : scanNumber (decimal n) =
    some ({ minus := if n < 0 then [0x2D] else [], digits := digitsOf n.natAbs, tail := [] }, []) := by
  have minus : scanMinus (decimal n) = (if n < 0 then [0x2D] else [], digitsOf n.natAbs) := by
    unfold decimal
    split
    · rfl
    · obtain ⟨splits, some_digit, all⟩ := scanInt_splits (scanInt_digitsOf n.natAbs)
      obtain ⟨c, later, shape⟩ := List.exists_cons_of_ne_nil some_digit
      have digit := all c (by simp [shape])
      change scanMinus (digitsOf n.natAbs) = _
      rw [shape]
      unfold scanMinus
      split
      · rename_i dash
        cases dash
        simp [isDigit] at digit
      · rfl
  rw [scanNumber_eq, minus]
  dsimp only
  rw [scanInt_digitsOf]
  rfl

theorem Reads.integer {n : ℤ} (short : JsonValue.isShort n = true) (stops : Stops rest) :
    Reads format (decimal n ++ rest) (.int n) rest := by
  refine .number (scanNumber_append stops (scanNumber_decimal n)) ?_
  have few : ¬ maxStrDigits < (digitsOf n.natAbs).length := by
    rw [digitsOf, List.length_map]
    exact not_lt.mpr (of_decide_eq_true short)
  have chars : (digitsOf n.natAbs).map Char.ofNat = Nat.toDigits 10 n.natAbs := by
    simp [digitsOf, List.map_map, Function.comp_def]
  have value : NumberParts.int ⟨if n < 0 then [0x2D] else [], digitsOf n.natAbs, []⟩ = n := by
    unfold NumberParts.int
    dsimp only
    rw [chars, Nat.ofDigitChars_ten_toDigits]
    by_cases negative : n < 0
    · rw [if_pos negative, if_neg (by simp)]
      omega
    · rw [if_neg negative, if_pos rfl]
      omega
  rw [if_neg (by simp), if_neg few, value]

/-! ## Values -/

def scalarText (t : Text) : Bool := t.all fun c => decide (IsScalar c)

/-- What can be written and read back: no text with a surrogate, no float with a
word, no integer with too many digits, and no key twice. -/
def regular (format : FloatFormat φ) : JsonValue.Leaves φ where
  int := JsonValue.isShort
  float := format.finite
  text := scalarText
  keys names := decide names.Nodup

theorem scalarText_iff : scalarText t = true ↔ ∀ c ∈ t, IsScalar c := by
  simp [scalarText]

theorem Reads.word {word : Text} (listed : (jsonWords format).find? (·.1.isPrefixOf (word ++ rest)) =
    some (word, v)) (plain : ∃ c later, word = c :: later ∧ c ≠ 0x22 ∧ c ≠ 0x7B ∧ c ≠ 0x5B) :
    Reads format (word ++ rest) v rest := by
  have scanned : scanAtom format (word ++ rest) = .ok (v, rest) := by
    unfold scanAtom
    rw [listed]
    simp
  obtain ⟨c, later, rfl, plain⟩ := plain
  exact .atom plain scanned

theorem Reads.quoted {key : Text} (scalars : scalarText key = true) :
    Reads format (quote key ++ rest) (.text key) rest := by
  have shape : quote key ++ rest = 0x22 :: (key.flatMap escape ++ 0x22 :: rest) := by simp [quote]
  rw [shape]
  exact .text (scanString_quoted (scalarText_iff.mp scalars))

theorem skip_mark {c : Nat} (mark : isSpace c = false) : skip (c :: t) = c :: t := by
  simp [skip, mark]

open JsonValue in
mutual

/-- A value is read from its text, before what can follow it. -/
theorem Reads.written : ∀ (v : JsonValue φ) (rest : Text), v.all (regular format) = true → Stops rest →
    Reads format (v.written format ++ rest) v rest
  | .null, rest, _, _ => by
    simp only [JsonValue.written]
    exact .word (by simp [jsonWords, Untyped.text]) ⟨_, _, rfl, by decide⟩
  | .bool true, rest, _, _ => by
    simp only [JsonValue.written]
    exact .word (by simp [jsonWords, Untyped.text]) ⟨_, _, rfl, by decide⟩
  | .bool false, rest, _, _ => by
    simp only [JsonValue.written]
    exact .word (by simp [jsonWords, Untyped.text]) ⟨_, _, rfl, by decide⟩
  | .int n, rest, fits, stops => .integer fits stops
  | .float x, rest, fits, stops => .literal fits stops
  | .text t, rest, fits, _ => .quoted fits
  | .list [], rest, _, _ => .noItems rfl
  | .list (item :: more), rest, fits, _ => by
    have inside := ReadsItems.written (item :: more) rest (List.cons_ne_nil _ _) fits
    have shape : (JsonValue.list (item :: more)).written format ++ rest =
        0x5B :: (writtenItems format (item :: more) ++ 0x5D :: rest) := by simp [JsonValue.written]
    rw [shape]
    refine .list ?_
    rw [inside.opens.1]
    exact inside
  | .dict [], rest, _, _ => .noEntries rfl
  | .dict (entry :: more), rest, fits, _ => by
    simp only [JsonValue.all, Bool.and_eq_true] at fits
    have inside := ReadsEntries.written (entry :: more) ∅ rest (List.cons_ne_nil _ _) fits.2
      (of_decide_eq_true fits.1) fun _ _ => Dict.not_mem_empty
    have shape : (JsonValue.dict (entry :: more)).written format ++ rest =
        0x7B :: (writtenEntries format (entry :: more) ++ 0x7D :: rest) := by simp [JsonValue.written]
    rw [shape]
    refine .dict ?_
    rw [inside.opens.1]
    exact inside

theorem ReadsItems.written : ∀ (items : List (JsonValue φ)) (rest : Text), items ≠ [] →
    allItems (regular format) items = true →
      ReadsItems format (writtenItems format items ++ 0x5D :: rest) items rest
  | [item], rest, _, fits => by
    simp only [allItems, Bool.and_true] at fits
    exact .last (Reads.written item (0x5D :: rest) fits (.cons (by omega))) (skip_mark rfl)
  | item :: next :: more, rest, _, fits => by
    have own : item.all (regular format) = true := (Bool.and_eq_true_iff.mp fits).1
    have others : allItems (regular format) (next :: more) = true := (Bool.and_eq_true_iff.mp fits).2
    have later := ReadsItems.written (next :: more) rest (List.cons_ne_nil _ _) others
    have shape : writtenItems format (item :: next :: more) ++ 0x5D :: rest =
        item.written format ++ 0x2C :: (writtenItems format (next :: more) ++ 0x5D :: rest) := by
      simp [writtenItems]
    rw [shape]
    refine .more (Reads.written item _ own (.cons (by omega))) (skip_mark rfl) ?_
    rw [later.opens.1]
    exact later

theorem ReadsEntries.written : ∀ (entries : List (Text × JsonValue φ)) (found : Dict Text (JsonValue φ))
    (rest : Text), entries ≠ [] → allEntries (regular format) entries = true →
      (entries.map Prod.fst).Nodup → (∀ key ∈ entries.map Prod.fst, key ∉ found) →
      ReadsEntries format found (writtenEntries format entries ++ 0x7D :: rest)
        (.dict (found.entries ++ entries)) rest
  | [(key, v)], found, rest, _, fits, _, absent => by
    simp only [allEntries, Bool.and_true, Bool.and_eq_true] at fits
    have value := Reads.written v (0x7D :: rest) fits.2 (.cons (by omega))
    have shape : writtenEntries format [(key, v)] ++ 0x7D :: rest =
        0x22 :: (key.flatMap escape ++ 0x22 :: 0x3A :: (v.written format ++ 0x7D :: rest)) := by
      simp [writtenEntries, quote]
    rw [shape, ← Dict.entries_set_new (absent key (by simp))]
    refine .last (scanString_quoted (scalarText_iff.mp fits.1)) (skip_mark rfl) ?_ (skip_mark rfl)
    rw [value.opens.1]
    exact value
  | (key, v) :: next :: more, found, rest, _, fits, distinct, absent => by
    have own : (scalarText key && v.all (regular format)) = true := (Bool.and_eq_true_iff.mp fits).1
    have others : allEntries (regular format) (next :: more) = true := (Bool.and_eq_true_iff.mp fits).2
    obtain ⟨scalars, fits⟩ := Bool.and_eq_true_iff.mp own
    obtain ⟨unknown, distinct⟩ := List.nodup_cons.mp distinct
    -- the keys that follow are not the one that was just found
    have absent' : ∀ k ∈ (next :: more).map Prod.fst, k ∉ found.set key v := by
      intro k member known
      rcases Dict.mem_set.mp known with rfl | before
      · exact unknown member
      · exact absent k (List.mem_cons_of_mem _ member) before
    have later := ReadsEntries.written (next :: more) (found.set key v) rest (List.cons_ne_nil _ _) others
      distinct absent'
    rw [Dict.entries_set_new (absent key (by simp)), List.append_assoc] at later
    have shape : writtenEntries format ((key, v) :: next :: more) ++ 0x7D :: rest =
        0x22 :: (key.flatMap escape ++ 0x22 :: 0x3A :: (v.written format ++
          0x2C :: (writtenEntries format (next :: more) ++ 0x7D :: rest))) := by
      simp [writtenEntries, quote]
    have value := Reads.written v (0x2C :: (writtenEntries format (next :: more) ++ 0x7D :: rest)) fits
      (.cons (by omega))
    have opened := value.opens.1
    rw [shape]
    refine .more (scanString_quoted (scalarText_iff.mp scalars)) (skip_mark rfl) (opened.symm ▸ value)
      (skip_mark rfl) ?_
    rw [later.opens.1]
    exact later

end

end OneOpenBroker.Protocol

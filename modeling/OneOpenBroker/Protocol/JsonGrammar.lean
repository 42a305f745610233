import OneOpenBroker.Protocol.JsonScan

/-! The texts that the scanner takes, as a grammar. A value is read off the front
of a text if the rules derive it, and then a fuel of twice the length and one is
enough for the scanner to read it. -/
namespace OneOpenBroker.Protocol
open Collections OneOpenBroker.Untyped

variable {φ : Type*} (format : FloatFormat φ)

mutual

/-- A value at the front of a text, with what follows it. -/
inductive Reads : Text → JsonValue φ → Text → Prop where
  | text {t s rest : Text} (scanned : scanString t = some (s, rest)) : Reads (0x22 :: t) (.text s) rest
  | noEntries {t rest : Text} (closed : skip t = 0x7D :: rest) : Reads (0x7B :: t) (.dict []) rest
  | dict {t rest : Text} {v : JsonValue φ} (entries : ReadsEntries ∅ (skip t) v rest) :
    Reads (0x7B :: t) v rest
  | noItems {t rest : Text} (closed : skip t = 0x5D :: rest) : Reads (0x5B :: t) (.list []) rest
  | list {t rest : Text} {items : List (JsonValue φ)} (inside : ReadsItems (skip t) items rest) :
    Reads (0x5B :: t) (.list items) rest
  | atom {c : Nat} {t rest : Text} {v : JsonValue φ} (plain : c ≠ 0x22 ∧ c ≠ 0x7B ∧ c ≠ 0x5B)
    (scanned : scanAtom format (c :: t) = .ok (v, rest)) : Reads (c :: t) v rest

/-- Items up to the bracket. -/
inductive ReadsItems : Text → List (JsonValue φ) → Text → Prop where
  | last {t middle rest : Text} {item : JsonValue φ} (first : Reads t item middle)
    (closed : skip middle = 0x5D :: rest) : ReadsItems t [item] rest
  | more {t middle next rest : Text} {item : JsonValue φ} {items : List (JsonValue φ)}
    (first : Reads t item middle) (comma : skip middle = 0x2C :: next)
    (later : ReadsItems (skip next) items rest) : ReadsItems t (item :: items) rest

/-- Entries up to the brace, after those that were found. -/
inductive ReadsEntries : Dict Text (JsonValue φ) → Text → JsonValue φ → Text → Prop where
  | last {found : Dict Text (JsonValue φ)} {t afterKey afterColon middle rest key : Text}
    {v : JsonValue φ} (named : scanString t = some (key, afterKey))
    (colon : skip afterKey = 0x3A :: afterColon) (first : Reads (skip afterColon) v middle)
    (closed : skip middle = 0x7D :: rest) :
    ReadsEntries found (0x22 :: t) (.dict (found.set key v).entries) rest
  | more {found : Dict Text (JsonValue φ)} {t afterKey afterColon middle next rest key : Text}
    {v whole : JsonValue φ} (named : scanString t = some (key, afterKey))
    (colon : skip afterKey = 0x3A :: afterColon) (first : Reads (skip afterColon) v middle)
    (comma : skip middle = 0x2C :: next) (later : ReadsEntries (found.set key v) (skip next) whole rest) :
    ReadsEntries found (0x22 :: t) whole rest

end

variable {format} {t rest : Text} {fuel : Nat} {v : JsonValue φ} {items : List (JsonValue φ)}
  {found : Dict Text (JsonValue φ)}

/-! ## The scanner follows the grammar -/

theorem scanAtom_shorter (scanned : scanAtom format t = .ok (v, rest)) : Shorter rest t := by
  unfold scanAtom at scanned
  split at scanned
  · rename_i word v' found
    cases scanned
    have listed := List.mem_of_find?_eq_some found
    have prefixed : word <+: t := by simpa using List.find?_some found
    have long : 0 < word.length := by
      have words : ∀ entry ∈ jsonWords format, 0 < entry.1.length := by
        simp [jsonWords, text]
      exact words _ listed
    refine ⟨List.drop_suffix _ _, ?_⟩
    have bound := prefixed.length_le
    rw [List.length_drop]
    omega
  · split at scanned
    · cases scanned
    · rename_i parts after number
      have shorter := scanNumber_shorter number
      split at scanned
      · cases scanned
        exact shorter
      · split at scanned
        · cases scanned
        · cases scanned
          exact shorter

mutual

theorem Reads.shorter : ∀ {t : Text} {v : JsonValue φ} {rest : Text}, Reads format t v rest → Shorter rest t
  | _, _, _, .text scanned => (scanString_shorter scanned).cons
  | _, _, _, .noEntries closed => (skip_cons closed).cons
  | _, _, _, .noItems closed => (skip_cons closed).cons
  | _, _, _, .dict entries => .of_cons (entries.shorter.suffix.trans skip_suffix)
  | _, _, _, .list inside => .of_cons (inside.shorter.suffix.trans skip_suffix)
  | _, _, _, .atom _ scanned => scanAtom_shorter scanned

theorem ReadsItems.shorter : ∀ {t : Text} {items : List (JsonValue φ)} {rest : Text},
    ReadsItems format t items rest → Shorter rest t
  | _, _, _, .last first closed => first.shorter.then (skip_cons closed).suffix
  | _, _, _, .more first comma later =>
    first.shorter.then ((later.shorter.suffix.trans skip_suffix).trans (skip_cons comma).suffix)

theorem ReadsEntries.shorter : ∀ {found : Dict Text (JsonValue φ)} {t : Text} {v : JsonValue φ}
    {rest : Text}, ReadsEntries format found t v rest → Shorter rest t
  | _, _, _, _, .last named colon first closed =>
    .of_cons ((skip_cons closed).suffix.trans (first.shorter.suffix.trans
      (skip_suffix.trans ((skip_cons colon).suffix.trans (scanString_shorter named).suffix))))
  | _, _, _, _, .more named colon first comma later =>
    .of_cons (later.shorter.suffix.trans (skip_suffix.trans ((skip_cons comma).suffix.trans
      (first.shorter.suffix.trans (skip_suffix.trans ((skip_cons colon).suffix.trans
        (scanString_shorter named).suffix))))))

end

theorem value_reads
    (inside : ∀ {t : Text} {items : List (JsonValue φ)} {rest : Text},
      scanItems format fuel t = .ok (items, rest) → ReadsItems format t items rest)
    (entries : ∀ {found : Dict Text (JsonValue φ)} {t : Text} {v : JsonValue φ} {rest : Text},
      scanEntries format fuel found t = .ok (v, rest) → ReadsEntries format found t v rest)
    (read : scanValue format (fuel + 1) t = .ok (v, rest)) : Reads format t v rest := by
  cases t with
  | nil => cases read
  | cons c t =>
    unfold scanValue at read
    split at read
    · rename_i quoted
      subst quoted
      split at read
      · cases read
      · rename_i scanned
        cases read
        exact .text scanned
    · rename_i unquoted
      split at read
      · rename_i brace
        subst brace
        split at read
        · rename_i closed
          cases read
          exact .noEntries closed
        · exact .dict (entries read)
      · rename_i no_brace
        split at read
        · rename_i bracket
          subst bracket
          split at read
          · rename_i closed
            cases read
            exact .noItems closed
          · cases found : scanItems format fuel (skip t) with
            | error fault =>
              rw [found] at read
              cases read
            | ok scanned =>
              rw [found] at read
              cases read
              exact .list (inside found)
        · rename_i no_bracket
          exact .atom ⟨unquoted, no_brace, no_bracket⟩ read

theorem items_reads
    (value : ∀ {t : Text} {v : JsonValue φ} {rest : Text},
      scanValue format fuel t = .ok (v, rest) → Reads format t v rest)
    (inside : ∀ {t : Text} {items : List (JsonValue φ)} {rest : Text},
      scanItems format fuel t = .ok (items, rest) → ReadsItems format t items rest)
    (read : scanItems format (fuel + 1) t = .ok (items, rest)) : ReadsItems format t items rest := by
  unfold scanItems at read
  cases first : scanValue format fuel t with
  | error fault =>
    rw [first] at read
    cases read
  | ok scanned =>
    rw [first] at read
    dsimp only at read
    split at read
    · rename_i closed
      cases read
      exact .last (value first) closed
    · rename_i next comma
      cases later : scanItems format fuel (skip next) with
      | error fault =>
        rw [later] at read
        cases read
      | ok others =>
        rw [later] at read
        cases read
        exact .more (value first) comma (inside later)
    · cases read

theorem entries_reads
    (value : ∀ {t : Text} {v : JsonValue φ} {rest : Text},
      scanValue format fuel t = .ok (v, rest) → Reads format t v rest)
    (entries : ∀ {found : Dict Text (JsonValue φ)} {t : Text} {v : JsonValue φ} {rest : Text},
      scanEntries format fuel found t = .ok (v, rest) → ReadsEntries format found t v rest)
    (read : scanEntries format (fuel + 1) found t = .ok (v, rest)) : ReadsEntries format found t v rest := by
  unfold scanEntries at read
  split at read
  · split at read
    · cases read
    · rename_i key afterKey named
      split at read
      · rename_i afterColon colon
        cases first : scanValue format fuel (skip afterColon) with
        | error fault =>
          rw [first] at read
          cases read
        | ok scanned =>
          rw [first] at read
          dsimp only at read
          split at read
          · rename_i closed
            cases read
            exact .last named colon (value first) closed
          · rename_i next comma
            exact .more named colon (value first) comma (entries read)
          · cases read
      · cases read
  · cases read

/-- What the scanner reads, the rules derive. -/
theorem scan_reads (fuel : Nat) :
    (∀ {t : Text} {v : JsonValue φ} {rest : Text}, scanValue format fuel t = .ok (v, rest) →
      Reads format t v rest) ∧
    (∀ {t : Text} {items : List (JsonValue φ)} {rest : Text}, scanItems format fuel t = .ok (items, rest) →
      ReadsItems format t items rest) ∧
    ∀ {found : Dict Text (JsonValue φ)} {t : Text} {v : JsonValue φ} {rest : Text},
      scanEntries format fuel found t = .ok (v, rest) → ReadsEntries format found t v rest := by
  induction fuel with
  | zero => exact ⟨nofun, nofun, nofun⟩
  | succ fuel ih =>
    obtain ⟨value, inside, entries⟩ := ih
    exact ⟨value_reads inside entries, items_reads value inside, entries_reads value entries⟩

/-- A word or a number begins with no blank and no closing bracket. -/
theorem scanAtom_opens {c : Nat} (scanned : scanAtom format (c :: t) = .ok (v, rest)) :
    c ≠ 0x5D ∧ isSpace c = false := by
  have refused : ∀ c, c = 0x5D ∨ c = 0x20 ∨ c = 0x09 ∨ c = 0x0A ∨ c = 0x0D →
      scanAtom format (c :: t) ≠ .ok (v, rest) := by
    intro c odd
    have none_word : (jsonWords format).find? (fun entry => entry.1.isPrefixOf (c :: t)) = none := by
      rcases odd with rfl | rfl | rfl | rfl | rfl <;> simp [jsonWords, Untyped.text]
    have no_number : scanNumber (c :: t) = none := by
      rcases odd with rfl | rfl | rfl | rfl | rfl <;> simp [scanNumber, scanMinus, scanInt, isDigit]
    simp [scanAtom, none_word, no_number]
  constructor
  · rintro rfl
    exact refused 0x5D (.inl rfl) scanned
  · rw [Bool.eq_false_iff]
    intro blank
    simp only [isSpace, Bool.or_eq_true, decide_eq_true_eq] at blank
    refine refused c ?_ scanned
    omega

/-- No value begins with a blank or a closing bracket. -/
theorem Reads.opens (reads : Reads format t v rest) : skip t = t ∧ ∀ after, t ≠ 0x5D :: after := by
  cases reads with
  | atom plain scanned =>
    obtain ⟨no_bracket, no_blank⟩ := scanAtom_opens scanned
    exact ⟨by simp [skip, no_blank], fun after same => no_bracket (List.cons.inj same).1⟩
  | _ => simp [skip, isSpace]

theorem ReadsItems.opens (reads : ReadsItems format t items rest) :
    skip t = t ∧ ∀ after, t ≠ 0x5D :: after := by
  cases reads with
  | last first => exact first.opens
  | more first => exact first.opens

theorem ReadsEntries.opens (reads : ReadsEntries format found t v rest) :
    skip t = t ∧ ∀ after, t ≠ 0x7D :: after := by
  cases reads <;> simp [skip, isSpace]

mutual

/-- A fuel of twice the length and one is enough. -/
theorem Reads.scans : ∀ {t : Text} {v : JsonValue φ} {rest : Text}, Reads format t v rest →
    ∀ fuel, 2 * t.length < fuel → scanValue format fuel t = .ok (v, rest)
  | _, _, _, .text scanned, fuel + 1, _ => by simp [scanValue, scanned]
  | _, _, _, .noEntries closed, fuel + 1, _ => by simp [scanValue, closed]
  | _, _, _, .noItems closed, fuel + 1, _ => by simp [scanValue, closed]
  | _, _, _, .dict (t := t) entries, fuel + 1, enough => by
    have bound : (skip t).length ≤ t.length := skip_suffix.length_le
    rw [List.length_cons] at enough
    have inside := entries.scans fuel (by omega)
    simp only [scanValue]
    rw [if_neg (by omega), if_pos True.intro]
    split
    · rename_i closed
      exact absurd closed (entries.opens.2 _)
    · exact inside
  | _, _, _, .list (t := t) items, fuel + 1, enough => by
    have bound : (skip t).length ≤ t.length := skip_suffix.length_le
    rw [List.length_cons] at enough
    have inside := items.scans fuel (by omega)
    simp only [scanValue]
    rw [if_neg (by omega), if_neg (by omega), if_pos True.intro]
    split
    · rename_i closed
      exact absurd closed (items.opens.2 _)
    · rw [inside]
      rfl
  | _, _, _, .atom plain scanned, fuel + 1, _ => by simp [scanValue, plain, scanned]

theorem ReadsItems.scans : ∀ {t : Text} {items : List (JsonValue φ)} {rest : Text},
    ReadsItems format t items rest → ∀ fuel, 2 * t.length + 1 < fuel →
      scanItems format fuel t = .ok (items, rest)
  | _, _, _, .last first closed, fuel + 1, enough => by
    simp [scanItems, first.scans fuel (by omega), closed]
  | _, _, _, .more first comma later, fuel + 1, enough => by
    have shorter := ((first.shorter.then (skip_cons comma).suffix).then skip_suffix).length
    have others := later.scans fuel (by omega)
    simp [scanItems, first.scans fuel (by omega), comma, others, Except.map]

theorem ReadsEntries.scans : ∀ {found : Dict Text (JsonValue φ)} {t : Text} {v : JsonValue φ}
    {rest : Text}, ReadsEntries format found t v rest → ∀ fuel, 2 * t.length < fuel →
      scanEntries format fuel found t = .ok (v, rest)
  | _, _, _, _, .last named colon first closed, fuel + 1, enough => by
    have shorter := (((scanString_shorter named).then (skip_cons colon).suffix).then skip_suffix).length
    rw [List.length_cons] at enough
    have value := first.scans fuel (by omega)
    simp [scanEntries, named, colon, value, closed]
  | _, _, _, _, .more named colon first comma later, fuel + 1, enough => by
    have toValue := ((scanString_shorter named).then (skip_cons colon).suffix).then skip_suffix
    have shorter := toValue.length
    have shorter' := ((first.shorter.then (skip_cons comma).suffix).then skip_suffix).length
    rw [List.length_cons] at enough
    have value := first.scans fuel (by omega)
    have others := later.scans fuel (by omega)
    simp [scanEntries, named, colon, value, comma, others]

end

/-- The scanner reads what the rules derive, and nothing else. -/
theorem scanValue_iff (enough : 2 * t.length < fuel) :
    scanValue format fuel t = .ok (v, rest) ↔ Reads format t v rest :=
  ⟨(scan_reads fuel).1, fun reads => reads.scans fuel enough⟩

end OneOpenBroker.Protocol

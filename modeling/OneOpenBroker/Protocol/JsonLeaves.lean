import OneOpenBroker.Protocol.JsonWritten

/-! What a value is made of. A condition on leaves goes down to the parts of a
value and up to what is built from them, every value that the scanner reads meets
the conditions of the reader, and the characters that are written are those of the
texts, with ASCII around them. -/
namespace OneOpenBroker.Protocol
open Collections OneOpenBroker.Untyped

variable {φ : Type*} {format : FloatFormat φ} {t rest : Text} {v w : JsonValue φ}
  {items : List (JsonValue φ)} {entries : List (Text × JsonValue φ)}

namespace JsonValue

variable {p q : Leaves φ}

theorem allItems_iff : allItems p items = true ↔ ∀ item ∈ items, item.all p = true := by
  induction items with
  | nil => simp [allItems]
  | cons item rest ih => simp [allItems, ih]

theorem allEntries_iff : allEntries p entries = true ↔
    ∀ entry ∈ entries, p.text entry.1 = true ∧ entry.2.all p = true := by
  induction entries with
  | nil => simp [allEntries]
  | cons entry rest ih => simp [allEntries, ih]

/-- The conditions of both. -/
def Leaves.both (p q : Leaves φ) : Leaves φ where
  int n := p.int n && q.int n
  float x := p.float x && q.float x
  text t := p.text t && q.text t
  keys names := p.keys names && q.keys names

theorem Leaves.both_text : (p.both q).text t = (p.text t && q.text t) := rfl

theorem Leaves.both_keys (names : List Text) : (p.both q).keys names = (p.keys names && q.keys names) := rfl

mutual

theorem all_both : ∀ v : JsonValue φ, v.all (p.both q) = (v.all p && v.all q)
  | .null | .bool _ | .int _ | .float _ | .text _ => rfl
  | .list items => allItems_both items
  | .dict entries => by
    simp only [all, allEntries_both entries, Leaves.both_keys]
    ac_rfl

theorem allItems_both : ∀ items : List (JsonValue φ),
    allItems (p.both q) items = (allItems p items && allItems q items)
  | [] => rfl
  | item :: rest => by
    simp only [allItems, all_both item, allItems_both rest]
    ac_rfl

theorem allEntries_both : ∀ entries : List (Text × JsonValue φ),
    allEntries (p.both q) entries = (allEntries p entries && allEntries q entries)
  | [] => rfl
  | (key, v) :: rest => by
    simp only [allEntries, all_both v, allEntries_both rest, Leaves.both_text]
    ac_rfl

end

/-- A condition that adds nothing to another follows from it. -/
theorem all_weaker (absorbed : p.both q = p) (all : v.all p = true) : v.all q = true := by
  rw [← absorbed, all_both, Bool.and_eq_true] at all
  exact all.2

/-! ## Parts and what is built from them -/

/-- A value is inside another one, or it is this one. -/
inductive Part : JsonValue φ → JsonValue φ → Prop where
  | whole (v : JsonValue φ) : Part v v
  | item {w item : JsonValue φ} {items : List (JsonValue φ)} (listed : item ∈ items)
    (inside : Part w item) : Part w (.list items)
  | entry {w : JsonValue φ} {entry : Text × JsonValue φ} {entries : List (Text × JsonValue φ)}
    (listed : entry ∈ entries) (inside : Part w entry.2) : Part w (.dict entries)

theorem Part.all (part : Part w v) (all : v.all p = true) : w.all p = true := by
  induction part with
  | whole => exact all
  | item listed _ ih => exact ih (allItems_iff.mp all _ listed)
  | entry listed _ ih =>
    simp only [JsonValue.all, Bool.and_eq_true] at all
    exact ih (allEntries_iff.mp all.2 _ listed).2

/-- A text of the value, or a key in it. -/
def Spells (v : JsonValue φ) (t : Text) : Prop :=
  Part (.text t) v ∨ ∃ entries, Part (.dict entries) v ∧ t ∈ entries.map Prod.fst

theorem Spells.all (spells : Spells v t) (all : v.all p = true) : p.text t = true := by
  rcases spells with part | ⟨entries, part, listed⟩
  · exact part.all all
  · have inside := part.all all
    simp only [JsonValue.all, Bool.and_eq_true] at inside
    obtain ⟨entry, member, rfl⟩ := List.mem_map.mp listed
    exact (allEntries_iff.mp inside.2 entry member).1

/-- A value that is built from parts of another one, its texts and keys, and what
a program writes itself: words, integers and floats that have literals, and texts
without surrogates. -/
inductive Built (format : FloatFormat φ) (v : JsonValue φ) : JsonValue φ → Prop where
  | part {w : JsonValue φ} (inside : Part w v) : Built format v w
  | null : Built format v .null
  | bool (b : Bool) : Built format v (.bool b)
  | int {n : ℤ} (short : isShort n = true) : Built format v (.int n)
  | float {x : φ} (finite : format.finite x = true) : Built format v (.float x)
  | text {t : Text} (known : scalarText t = true ∨ Spells v t) : Built format v (.text t)
  | list {items : List (JsonValue φ)} (all : ∀ item ∈ items, Built format v item) :
    Built format v (.list items)
  | dict {entries : List (Text × JsonValue φ)} (distinct : (entries.map Prod.fst).Nodup)
    (keys : ∀ entry ∈ entries, scalarText entry.1 = true ∨ Spells v entry.1)
    (all : ∀ entry ∈ entries, Built format v entry.2) : Built format v (.dict entries)

theorem Built.regular (built : Built format v w) (fits : v.all (regular format) = true) :
    w.all (Protocol.regular format) = true := by
  have plain : ∀ t, scalarText t = true ∨ Spells v t → scalarText t = true := by
    rintro t (scalars | spells)
    · exact scalars
    · exact spells.all fits
  induction built with
  | part inside => exact inside.all fits
  | null | bool => rfl
  | int short => exact short
  | float finite => exact finite
  | text known => exact plain _ known
  | list _ ih => exact allItems_iff.mpr ih
  | dict distinct keys _ ih =>
    simp only [JsonValue.all, Bool.and_eq_true]
    refine ⟨decide_eq_true distinct, allEntries_iff.mpr ?_⟩
    exact fun entry listed => ⟨plain _ (keys entry listed), ih entry listed⟩

/-! ## What is read -/

/-- What the reader makes sure of, where the strings that it reads meet a condition. -/
def loaded (p : Text → Bool) : Leaves φ where
  int := isShort
  text := p
  keys names := decide names.Nodup

end JsonValue

open JsonValue

/-- The strings that are read from such texts meet a condition. -/
structure Yields (Q : Text → Prop) (p : Text → Bool) : Prop where
  suffix : ∀ {rest t}, rest <:+ t → Q t → Q rest
  string : ∀ {t s rest}, Q t → scanString t = some (s, rest) → p s = true

/-- Code points make code points. -/
theorem Yields.points : Yields (fun t => ∀ c ∈ t, IsPoint c) (fun t => t.all fun c => decide (c < 0x110000)) where
  suffix suffix points c member := points c (suffix.subset member)
  string points scanned := by
    have read := scanString_points points scanned
    simpa [IsPoint] using read

theorem ascii_scalar : ∀ c < 0x80, IsScalar c := by
  intro c small
  refine ⟨by omega, ?_⟩
  simp only [isSurrogate, Bool.and_eq_false_iff, decide_eq_false_iff_not]
  omega

/-- A surrogate is escaped in the text. -/
def EscapesSurrogate (t : Text) : Prop :=
  ∃ a b c d unit, [0x5C, 0x75, a, b, c, d] <:+: t ∧ hex4 a b c d = some unit ∧ isSurrogate unit = true

/-- Scalar values make scalar values where no surrogate is escaped. -/
theorem Yields.scalars : Yields (fun t => (∀ c ∈ t, IsScalar c) ∧ ¬ EscapesSurrogate t) scalarText where
  suffix := by
    rintro rest t suffix ⟨scalars, plain⟩
    refine ⟨fun c member => scalars c (suffix.subset member), ?_⟩
    rintro ⟨a, b, c, d, unit, inside, rest⟩
    exact plain ⟨a, b, c, d, unit, inside.trans suffix.isInfix, rest⟩
  string := by
    rintro t s rest ⟨scalars, plain⟩ scanned
    obtain ⟨⟨units, rest'⟩, found, same⟩ := Option.map_eq_some_iff.mp scanned
    obtain ⟨rfl, rfl⟩ := Prod.mk.inj same
    have made : ∀ c ∈ units, IsScalar c := by
      refine scanUnits_all ascii_scalar scalars ?_ found
      intro a b c d unit inside read
      refine ⟨hex4_point read, ?_⟩
      by_contra surrogate
      exact plain ⟨a, b, c, d, unit, inside, read, Bool.not_eq_false _ ▸ surrogate⟩
    rw [joinPairs_scalars made]
    exact scalarText_iff.mpr made

variable {Q : Text → Prop} {p : Text → Bool}

theorem scanAtom_loaded (scanned : scanAtom format t = .ok (v, rest)) : v.all (loaded p) = true := by
  unfold scanAtom at scanned
  split at scanned
  · rename_i word v' found
    cases scanned
    have words : ∀ entry ∈ jsonWords format, entry.2.all (loaded p) = true := by
      simp [jsonWords, JsonValue.all, loaded]
    exact words _ (List.mem_of_find?_eq_some found)
  · split at scanned
    · cases scanned
    · rename_i parts after number
      split at scanned
      · cases scanned
        rfl
      · split at scanned
        · cases scanned
        · rename_i few
          cases scanned
          exact int_short (scanNumber_splits number).2.2 (not_lt.mp few)

/-- The entries that were found before. -/
def FoundLoaded (p : Text → Bool) (found : Dict Text (JsonValue φ)) : Prop :=
  found.All fun key v => p key = true ∧ v.all (loaded p) = true

theorem FoundLoaded.dict {found : Dict Text (JsonValue φ)} (known : FoundLoaded p found) :
    (JsonValue.dict found.entries).all (loaded p) = true := by
  simp only [JsonValue.all, Bool.and_eq_true]
  refine ⟨decide_eq_true found.nodup, allEntries_iff.mpr ?_⟩
  exact fun entry listed => known entry.1 entry.2 (Dict.get?_eq_some.mpr listed)

mutual

/-- A value that is read meets the conditions. -/
theorem Reads.loaded (yields : Yields Q p) : ∀ {t : Text} {v : JsonValue φ} {rest : Text},
    Reads format t v rest → Q t → v.all (JsonValue.loaded p) = true
  | _, _, _, .text scanned, holds => yields.string (yields.suffix (List.suffix_cons _ _) holds) scanned
  | _, _, _, .noEntries _, _ => rfl
  | _, _, _, .noItems _, _ => rfl
  | _, _, _, .dict entries, holds =>
    entries.loaded yields Dict.all_empty (yields.suffix (skip_suffix.trans (List.suffix_cons _ _)) holds)
  | _, _, _, .list inside, holds =>
    inside.loaded yields (yields.suffix (skip_suffix.trans (List.suffix_cons _ _)) holds)
  | _, _, _, .atom _ scanned, _ => scanAtom_loaded scanned

theorem ReadsItems.loaded (yields : Yields Q p) : ∀ {t : Text} {items : List (JsonValue φ)} {rest : Text},
    ReadsItems format t items rest → Q t → allItems (JsonValue.loaded p) items = true
  | _, _, _, .last first _, holds => by
    simp only [allItems, first.loaded yields holds, Bool.and_true]
  | _, _, _, .more first comma later, holds => by
    have within := skip_suffix.trans ((skip_cons comma).suffix.trans first.shorter.suffix)
    simp only [allItems, first.loaded yields holds, later.loaded yields (yields.suffix within holds),
      Bool.and_true]

theorem ReadsEntries.loaded (yields : Yields Q p) : ∀ {found : Dict Text (JsonValue φ)} {t : Text}
    {v : JsonValue φ} {rest : Text}, ReadsEntries format found t v rest → FoundLoaded p found → Q t →
      v.all (JsonValue.loaded p) = true
  | _, _, _, _, .last named colon first _, known, holds => by
    have inside := yields.suffix (List.suffix_cons _ _) holds
    have within := skip_suffix.trans ((skip_cons colon).suffix.trans (scanString_shorter named).suffix)
    have value := first.loaded yields (yields.suffix within inside)
    exact FoundLoaded.dict (known.set ⟨yields.string inside named, value⟩)
  | _, _, _, _, .more named colon first comma later, known, holds => by
    have inside := yields.suffix (List.suffix_cons _ _) holds
    have within := skip_suffix.trans ((skip_cons colon).suffix.trans (scanString_shorter named).suffix)
    have after := skip_suffix.trans ((skip_cons comma).suffix.trans first.shorter.suffix)
    have value := first.loaded yields (yields.suffix within inside)
    exact later.loaded yields (known.set ⟨yields.string inside named, value⟩)
      (yields.suffix after (yields.suffix within inside))

end

/-! ## The characters that are written -/

section Written

variable {p : Nat → Bool}

theorem all_ascii (ascii : ∀ c < 0x80, p c = true) (small : ∀ c ∈ t, c < 0x80) : t.all p = true :=
  List.all_eq_true.mpr fun c member => ascii c (small c member)

theorem escapes_ascii : ∀ entry ∈ escapes, entry.1 < 0x80 ∧ ∀ c ∈ entry.2, c < 0x80 := by decide

theorem all_escape (ascii : ∀ c < 0x80, p c = true) (c : Nat) : (escape c).all p = p c := by
  unfold escape
  cases found : escapes.lookup c with
  | some own =>
    obtain ⟨before, after, shape, _⟩ := List.lookup_eq_some_iff.mp found
    obtain ⟨key, written⟩ := escapes_ascii (c, own) (by simp [shape])
    rw [Option.getD_some, all_ascii ascii written, ascii c key]
  | none =>
    rw [Option.getD_none]
    split
    · rename_i control
      rw [ascii c (by omega)]
      refine all_ascii ascii ?_
      have digit : ∀ n < 16, hexDigit n < 0x80 := by decide
      have high := digit (c / 16) (by omega)
      have low := digit (c % 16) (by omega)
      simp [Untyped.text, high, low]
    · simp

theorem all_quote (ascii : ∀ c < 0x80, p c = true) (t : Text) : (quote t).all p = t.all p := by
  have quoted := ascii 0x22 (by omega)
  have escaped : (t.flatMap escape).all p = t.all p := by
    induction t with
    | nil => rfl
    | cons c rest ih => simp only [List.flatMap_cons, List.all_append, all_escape ascii, ih, List.all_cons]
  simp [quote, quoted, escaped]

theorem all_number (ascii : ∀ c < 0x80, p c = true) {parts : NumberParts}
    (read : scanNumber t = some (parts, [])) : t.all p = true := by
  have splits := (scanNumber_splits read).1
  rw [← splits.whole, List.append_nil]
  exact all_ascii ascii splits.ascii

theorem all_literal (ascii : ∀ c < 0x80, p c = true) {x : φ} (finite : format.finite x = true) :
    (format.floatstr x).all p = true := by
  obtain ⟨⟨parts, read, _⟩, _⟩ := format.written x finite
  exact all_number ascii read

/-- A condition that holds of ASCII holds of what is written if it holds of the texts. -/
def texts (p : Nat → Bool) : Leaves φ := { text := fun t => t.all p }

mutual

theorem all_written (ascii : ∀ c < 0x80, p c = true) : ∀ v : JsonValue φ, v.finite format = true →
    (v.written format).all p = v.all (texts p)
  | .null, _ => all_ascii ascii (by simp [written, Untyped.text])
  | .bool true, _ => all_ascii ascii (by simp [written, Untyped.text])
  | .bool false, _ => all_ascii ascii (by simp [written, Untyped.text])
  | .int n, _ => all_number ascii (scanNumber_decimal n)
  | .float _, finite => all_literal ascii finite
  | .text t, _ => all_quote ascii t
  | .list items, finite => by
    have inside := all_writtenItems ascii items finite
    simp [written, inside, JsonValue.all, ascii]
  | .dict entries, finite => by
    have inside := all_writtenEntries ascii entries finite
    simp [written, inside, JsonValue.all, texts, ascii]

theorem all_writtenItems (ascii : ∀ c < 0x80, p c = true) : ∀ items : List (JsonValue φ),
    allItems { float := format.finite } items = true →
      (writtenItems format items).all p = allItems (texts p) items
  | [], _ => rfl
  | [item], finite => by
    simp only [allItems, Bool.and_true] at finite
    simp [writtenItems, allItems, all_written ascii item finite]
  | item :: next :: rest, finite => by
    obtain ⟨own, others⟩ := Bool.and_eq_true_iff.mp finite
    have later := all_writtenItems ascii (next :: rest) others
    rw [allItems, ← later]
    simp [writtenItems, all_written ascii item own, ascii]

theorem all_writtenEntries (ascii : ∀ c < 0x80, p c = true) : ∀ entries : List (Text × JsonValue φ),
    allEntries { float := format.finite } entries = true →
      (writtenEntries format entries).all p = allEntries (texts p) entries
  | [], _ => rfl
  | [(key, v)], finite => by
    simp only [allEntries, Bool.and_true, Bool.true_and] at finite
    simp [writtenEntries, allEntries, all_written ascii v finite, all_quote ascii, ascii, texts]
  | (key, v) :: next :: rest, finite => by
    obtain ⟨own, others⟩ := Bool.and_eq_true_iff.mp finite
    have later := all_writtenEntries ascii (next :: rest) others
    rw [allEntries, ← later]
    simp [writtenEntries, all_written ascii v own, all_quote ascii, ascii, texts, Bool.and_assoc]

end

end Written
end OneOpenBroker.Protocol

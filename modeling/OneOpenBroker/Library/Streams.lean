import Mathlib.Data.List.Forall2

/-! Items cut from the front of a stream of bytes. A decoder says of a stream
that its first item is not complete, that it is an item of some length, or
that it is none, and does not take back the latter two when more bytes come.
The scan of a stream then does not depend on where the stream is cut. -/
namespace Streams

/-- What a decoder makes of the front of a stream. -/
inductive Outcome (ι ε : Type*) where
  | more
  | item (value : ι) (size : Nat)
  | bad (raised : ε)

/-- A decoder. An item is found in its own bytes, whatever follows them, and
what is no item does not become one. -/
structure Decoder (β ι ε : Type*) where
  decode : List β → Outcome ι ε
  sized : ∀ {bytes value size}, decode bytes = .item value size → 0 < size ∧ size ≤ bytes.length
  found : ∀ {bytes value size}, decode bytes = .item value size →
    ∀ rest, decode (bytes.take size ++ rest) = .item value size
  final : ∀ {bytes raised}, decode bytes = .bad raised → ∀ rest, decode (bytes ++ rest) = .bad raised
  empty : decode [] = .more

/-- The items of a stream, the bytes that are left, and the error that ended
the scan. -/
@[ext] structure Scan (β ι ε : Type*) where
  items : List ι
  rest : List β
  error : Option ε

variable {β ι ε : Type*} {d : Decoder β ι ε} {bytes rest : List β} {value : ι} {size : Nat}
  {raised : ε}

/-- The scan with an item before it. -/
def Scan.after (scan : Scan β ι ε) (items : List ι) : Scan β ι ε :=
  { scan with items := items ++ scan.items }

@[simp] theorem Scan.after_nil (scan : Scan β ι ε) : scan.after [] = scan := rfl

@[simp] theorem Scan.after_after (scan : Scan β ι ε) (first second : List ι) :
    (scan.after second).after first = scan.after (first ++ second) :=
  Scan.ext (List.append_assoc first second scan.items).symm rfl rfl

@[simp] theorem Scan.after_items (scan : Scan β ι ε) (items : List ι) :
    (scan.after items).items = items ++ scan.items := rfl

@[simp] theorem Scan.after_rest (scan : Scan β ι ε) (items : List ι) :
    (scan.after items).rest = scan.rest := rfl

@[simp] theorem Scan.after_error (scan : Scan β ι ε) (items : List ι) :
    (scan.after items).error = scan.error := rfl

namespace Decoder

/-- A number of rounds of the scan. -/
def rounds (d : Decoder β ι ε) : Nat → List β → Scan β ι ε
  | 0, bytes => ⟨[], bytes, none⟩
  | n + 1, bytes =>
    match d.decode bytes with
    | .more => ⟨[], bytes, none⟩
    | .bad raised => ⟨[], bytes, some raised⟩
    | .item value size => (rounds d n (bytes.drop size)).after [value]

/-- Every item takes a byte, so a stream has no more rounds than bytes. -/
def scan (d : Decoder β ι ε) (bytes : List β) : Scan β ι ε := d.rounds (bytes.length + 1) bytes

theorem rounds_enough {n m : Nat} (first : bytes.length < n) (second : bytes.length < m) :
    d.rounds n bytes = d.rounds m bytes := by
  induction n generalizing bytes m with
  | zero => exact absurd first (Nat.not_lt_zero _)
  | succ n ih =>
    cases m with
    | zero => exact absurd second (Nat.not_lt_zero _)
    | succ m =>
      unfold rounds
      split
      · rfl
      · rfl
      · rename_i value size found
        have sized := d.sized found
        rw [ih (m := m) (by rw [List.length_drop]; omega) (by rw [List.length_drop]; omega)]

theorem scan_more (more : d.decode bytes = .more) : d.scan bytes = ⟨[], bytes, none⟩ := by
  unfold scan rounds
  rw [more]

theorem scan_bad (bad : d.decode bytes = .bad raised) : d.scan bytes = ⟨[], bytes, some raised⟩ := by
  unfold scan rounds
  rw [bad]

theorem scan_item (found : d.decode bytes = .item value size) :
    d.scan bytes = (d.scan (bytes.drop size)).after [value] := by
  have sized := d.sized found
  unfold scan
  conv_lhs => unfold rounds
  rw [found]
  exact congrArg (Scan.after · [value])
    (rounds_enough (by rw [List.length_drop]; omega) (by rw [List.length_drop]; omega))

/-- The scan of a stream by the outcome at its front: a scan goes on after an
item with the shorter stream behind it. -/
theorem scan_induction {motive : List β → Prop}
    (more : ∀ bytes, d.decode bytes = .more → motive bytes)
    (bad : ∀ bytes raised, d.decode bytes = .bad raised → motive bytes)
    (item : ∀ bytes value size, d.decode bytes = .item value size → motive (bytes.drop size) →
      motive bytes) (bytes : List β) : motive bytes := by
  generalize bound : bytes.length = n
  induction n using Nat.strongRecOn generalizing bytes with
  | ind n ih =>
    cases outcome : d.decode bytes with
    | more => exact more bytes outcome
    | bad raised => exact bad bytes raised outcome
    | item value size =>
      have sized := d.sized outcome
      exact item bytes value size outcome (ih _ (by rw [List.length_drop]; omega) _ rfl)

/-! ## Cutting a stream -/

theorem decode_append (found : d.decode bytes = .item value size) (rest : List β) :
    d.decode (bytes ++ rest) = .item value size := by
  have same := d.found found (bytes.drop size ++ rest)
  rwa [← List.append_assoc, List.take_append_drop] at same

/-- The scan goes on where the scan of the first part ended. -/
theorem scan_append (first second : List β) (fine : (d.scan first).error = none) :
    d.scan (first ++ second) =
      (d.scan ((d.scan first).rest ++ second)).after (d.scan first).items := by
  induction first using d.scan_induction with
  | more bytes outcome => rw [scan_more outcome, Scan.after_nil]
  | bad bytes raised outcome =>
    rw [scan_bad outcome] at fine
    cases fine
  | item bytes value size outcome ih =>
    have sized := d.sized outcome
    rw [scan_item outcome] at fine ⊢
    rw [scan_item (decode_append outcome second), List.drop_append_of_le_length sized.2, ih fine]
    exact Scan.after_after _ _ _

/-- An error in the first part is the end of the scan. -/
theorem scan_append_bad (first second : List β) (failed : (d.scan first).error = some raised) :
    (d.scan (first ++ second)).items = (d.scan first).items ∧
      (d.scan (first ++ second)).error = some raised := by
  induction first using d.scan_induction with
  | more bytes outcome =>
    rw [scan_more outcome] at failed
    cases failed
  | bad bytes other outcome =>
    rw [scan_bad outcome] at failed ⊢
    rw [scan_bad (d.final outcome second)]
    exact ⟨rfl, failed⟩
  | item bytes value size outcome ih =>
    have sized := d.sized outcome
    rw [scan_item outcome] at failed ⊢
    rw [scan_item (decode_append outcome second), List.drop_append_of_le_length sized.2]
    obtain ⟨items, error⟩ := ih failed
    exact ⟨congrArg ([value] ++ ·) items, error⟩

/-- What is left is the end of the stream. -/
theorem scan_rest (bytes : List β) :
    (d.scan bytes).rest.length ≤ bytes.length ∧
      bytes.drop (bytes.length - (d.scan bytes).rest.length) = (d.scan bytes).rest := by
  induction bytes using d.scan_induction with
  | more bytes outcome => rw [scan_more outcome]; simp
  | bad bytes raised outcome => rw [scan_bad outcome]; simp
  | item bytes value size outcome ih =>
    have sized := d.sized outcome
    rw [scan_item outcome]
    obtain ⟨shorter, same⟩ := ih
    rw [List.length_drop, List.drop_drop] at *
    refine ⟨by simp only [Scan.after_rest]; omega, ?_⟩
    have cut : size + (bytes.length - size - (d.scan (bytes.drop size)).rest.length) =
        bytes.length - (d.scan (bytes.drop size)).rest.length := by omega
    rwa [cut] at same

/-- A scan without an error ends where an item is not complete. -/
theorem scan_ends (bytes : List β) (fine : (d.scan bytes).error = none) :
    d.decode (d.scan bytes).rest = .more := by
  induction bytes using d.scan_induction with
  | more bytes outcome => simp [scan_more outcome, outcome]
  | bad bytes raised outcome => simp [scan_bad outcome] at fine
  | item bytes value size outcome ih =>
    rw [scan_item outcome] at fine ⊢
    exact ih fine

theorem scan_nil : d.scan [] = ⟨[], [], none⟩ := scan_more d.empty

/-- The bytes before what is left hold the same items, and nothing else. -/
theorem scan_kept (bytes : List β) :
    d.scan (bytes.take (bytes.length - (d.scan bytes).rest.length)) =
      ⟨(d.scan bytes).items, [], none⟩ := by
  induction bytes using d.scan_induction with
  | more bytes outcome => rw [scan_more outcome, Nat.sub_self, List.take_zero, scan_nil]
  | bad bytes raised outcome => rw [scan_bad outcome, Nat.sub_self, List.take_zero, scan_nil]
  | item bytes value size outcome ih =>
    have sized := d.sized outcome
    rw [scan_item outcome, Scan.after_rest, Scan.after_items]
    have shorter := (d.scan_rest (bytes.drop size)).1
    rw [List.length_drop] at ih shorter
    have cut : bytes.length - (d.scan (bytes.drop size)).rest.length =
        size + (bytes.length - size - (d.scan (bytes.drop size)).rest.length) := by omega
    rw [cut, List.take_add, scan_item (d.found outcome _),
      List.drop_append_of_le_length (by rw [List.length_take]; omega),
      List.drop_eq_nil_of_le (by rw [List.length_take]; omega), List.nil_append, ih]
    rfl

/-! ## Encodings -/

/-- The bytes are those of an item. -/
def Encodes (d : Decoder β ι ε) (value : ι) (piece : List β) : Prop :=
  ∀ rest, d.decode (piece ++ rest) = .item value piece.length

variable {piece : List β} {values : List ι} {pieces : List (List β)}

/-- The bytes an item was found in are its own. -/
theorem encodes_of_item (outcome : d.decode bytes = .item value size) :
    d.Encodes value (bytes.take size) := by
  intro rest
  rw [d.found outcome rest, List.length_take, Nat.min_eq_left (d.sized outcome).2]

/-- A part of an item is no item yet, and no error. -/
theorem Encodes.part (encodes : d.Encodes value piece) {k : Nat} (part : k < piece.length) :
    d.decode (piece.take k) = .more := by
  have whole := encodes []
  rw [List.append_nil] at whole
  cases outcome : d.decode (piece.take k) with
  | more => rfl
  | bad raised =>
    have still := d.final outcome (piece.drop k)
    rw [List.take_append_drop, whole] at still
    cases still
  | item other size =>
    have sized := d.sized outcome
    have still := decode_append outcome (piece.drop k)
    rw [List.take_append_drop, whole] at still
    obtain ⟨_, rfl⟩ := Outcome.item.inj still
    rw [List.length_take] at sized
    omega

theorem scan_pieces (all : List.Forall₂ d.Encodes values pieces) (rest : List β) :
    d.scan (pieces.flatten ++ rest) = (d.scan rest).after values := by
  induction all with
  | nil => rfl
  | @cons value piece values pieces encodes _ ih =>
    rw [List.flatten_cons, List.append_assoc, scan_item (encodes _), List.drop_left, ih]
    exact Scan.after_after _ _ _

/-- The scan finds items that encode the bytes before what is left. -/
theorem scan_sound (bytes : List β) : ∃ pieces, List.Forall₂ d.Encodes (d.scan bytes).items pieces ∧
    bytes = pieces.flatten ++ (d.scan bytes).rest := by
  induction bytes using d.scan_induction with
  | more bytes outcome => rw [scan_more outcome]; exact ⟨[], .nil, rfl⟩
  | bad bytes raised outcome => rw [scan_bad outcome]; exact ⟨[], .nil, rfl⟩
  | item bytes value size outcome ih =>
    rw [scan_item outcome]
    obtain ⟨pieces, encode, same⟩ := ih
    refine ⟨bytes.take size :: pieces, .cons (encodes_of_item outcome) encode, ?_⟩
    rw [List.flatten_cons, List.append_assoc, Scan.after_rest, ← same, List.take_append_drop]

/-- The first `k` bytes of a sequence of items hold those that end by then. -/
theorem scan_take (all : List.Forall₂ d.Encodes values pieces) (k : Nat) :
    ∃ n ≤ pieces.length, d.scan (pieces.flatten.take k) =
        ⟨values.take n, (pieces.flatten.take k).drop (pieces.take n).flatten.length, none⟩ ∧
      ∀ m ≤ pieces.length, (pieces.take m).flatten.length ≤ k ↔ m ≤ n := by
  induction all generalizing k with
  | nil => exact ⟨0, Nat.le_refl _, by simp [scan_nil], by simp⟩
  | @cons value piece values pieces encodes _ ih =>
    rw [List.flatten_cons]
    by_cases part : k < piece.length
    · rw [List.take_append_of_le_length (Nat.le_of_lt part), scan_more (encodes.part part)]
      refine ⟨0, Nat.zero_le _, by simp, fun m _ => ?_⟩
      cases m with
      | zero => simp
      | succ m =>
        rw [List.take_succ_cons, List.flatten_cons, List.length_append]
        omega
    · have first (m : Nat) : ((piece :: pieces).take (m + 1)).flatten.length =
          piece.length + (pieces.take m).flatten.length := by simp
      have split : (piece ++ pieces.flatten).take k = piece ++ pieces.flatten.take (k - piece.length) := by
        rw [List.take_append, List.take_of_length_le (Nat.le_of_not_lt part)]
      obtain ⟨n, bound, scanned, within⟩ := ih (k - piece.length)
      rw [split, scan_item (encodes _), List.drop_left, scanned]
      refine ⟨n + 1, Nat.succ_le_succ bound, ?_, fun m fewer => ?_⟩
      · rw [first, ← List.drop_drop, List.drop_left]
        rfl
      · cases m with
        | zero => simp
        | succ m =>
          have later := within m (Nat.le_of_succ_le_succ fewer)
          rw [first]
          omega

/-- The bytes are those of an item with a property, or of none. -/
def Carries (d : Decoder β ι ε) (P : ι → Prop) (piece : List β) : Prop :=
  ∀ rest, (∃ value, P value ∧ d.decode (piece ++ rest) = .item value piece.length) ∨
    ∃ raised, d.decode (piece ++ rest) = .bad raised

/-- A part of such bytes is no item. -/
theorem Carries.part {P : ι → Prop} (carries : d.Carries P piece) {k : Nat} (part : k < piece.length)
    (value : ι) (size : Nat) : d.decode (piece.take k) ≠ .item value size := by
  intro outcome
  have sized := d.sized outcome
  have still := decode_append outcome (piece.drop k)
  have whole := carries []
  rw [List.append_nil] at whole
  rw [List.take_append_drop] at still
  rw [List.length_take] at sized
  rcases whole with ⟨_, _, found⟩ | ⟨_, bad⟩
  · obtain ⟨_, rfl⟩ := Outcome.item.inj (found.symm.trans still)
    omega
  · rw [bad] at still
    cases still

/-- Of the first `k` bytes of such pieces the scan finds the items of some
that end by then, in their order. -/
theorem scan_carried {κ : Type*} {P : κ → ι → Prop} {keys : List κ}
    (all : List.Forall₂ (fun key piece => d.Carries (P key) piece) keys pieces) (k : Nat) :
    ∃ n ≤ pieces.length, List.Forall₂ P (keys.take n) (d.scan (pieces.flatten.take k)).items ∧
      (d.scan (pieces.flatten.take k)).rest =
        (pieces.flatten.take k).drop (pieces.take n).flatten.length ∧
      (pieces.take n).flatten.length ≤ k := by
  induction all generalizing k with
  | nil => exact ⟨0, Nat.le_refl _, by simp [scan_nil], by simp [scan_nil], by simp⟩
  | @cons key piece keys pieces carries _ ih =>
    have stops (scanned : (d.scan ((piece ++ pieces.flatten).take k)).items = [])
        (rest : (d.scan ((piece ++ pieces.flatten).take k)).rest = (piece ++ pieces.flatten).take k) :
        ∃ n ≤ (piece :: pieces).length, List.Forall₂ P ((key :: keys).take n)
            (d.scan ((piece ++ pieces.flatten).take k)).items ∧
          (d.scan ((piece ++ pieces.flatten).take k)).rest =
            ((piece ++ pieces.flatten).take k).drop ((piece :: pieces).take n).flatten.length ∧
          ((piece :: pieces).take n).flatten.length ≤ k :=
      ⟨0, Nat.zero_le _, by rw [scanned]; exact .nil, by simp [rest], by simp⟩
    rw [List.flatten_cons]
    cases outcome : d.decode ((piece ++ pieces.flatten).take k) with
    | more => exact stops (by rw [scan_more outcome]) (by rw [scan_more outcome])
    | bad raised => exact stops (by rw [scan_bad outcome]) (by rw [scan_bad outcome])
    | item value size =>
      have whole : ¬ k < piece.length := by
        intro part
        rw [List.take_append_of_le_length (Nat.le_of_lt part)] at outcome
        exact carries.part part value size outcome
      have first (m : Nat) : ((piece :: pieces).take (m + 1)).flatten.length =
          piece.length + (pieces.take m).flatten.length := by simp
      have split : (piece ++ pieces.flatten).take k = piece ++ pieces.flatten.take (k - piece.length) := by
        rw [List.take_append, List.take_of_length_le (Nat.le_of_not_lt whole)]
      rw [split] at outcome ⊢
      rcases carries (pieces.flatten.take (k - piece.length)) with ⟨found, holds, decoded⟩ | ⟨_, bad⟩
      · obtain ⟨n, bound, items, rest, ends⟩ := ih (k - piece.length)
        rw [scan_item decoded, List.drop_left]
        refine ⟨n + 1, Nat.succ_le_succ bound, .cons holds items, ?_, ?_⟩
        · rw [first, ← List.drop_drop, List.drop_left]
          exact rest
        · rw [first]
          omega
      · rw [bad] at outcome
        cases outcome

/-! ## Chunks -/

/-- The bytes of the chunks before the first with which the scan fails. -/
def before (d : Decoder β ι ε) (seen : List β) : List (List β) → List β
  | [] => seen
  | chunk :: chunks =>
    if (d.scan (seen ++ chunk)).error.isNone then d.before (seen ++ chunk) chunks else seen

/-- With no error they are all the bytes. -/
theorem before_all {seen : List β} {chunks : List (List β)}
    (fine : (d.scan (seen ++ chunks.flatten)).error = none) :
    d.before seen chunks = seen ++ chunks.flatten := by
  induction chunks generalizing seen with
  | nil => rw [List.flatten_nil, List.append_nil]; rfl
  | cons chunk chunks ih =>
    rw [List.flatten_cons, ← List.append_assoc] at fine ⊢
    have still : (d.scan (seen ++ chunk)).error = none := by
      by_contra failed
      obtain ⟨raised, failed⟩ := Option.ne_none_iff_exists'.mp failed
      rw [(d.scan_append_bad _ chunks.flatten failed).2] at fine
      cases fine
    unfold before
    rw [if_pos (Option.isNone_iff_eq_none.mpr still), ih fine]

/-- They are a part of the stream. -/
theorem before_append (seen : List β) (chunks : List (List β)) :
    d.before seen chunks <+: seen ++ chunks.flatten := by
  induction chunks generalizing seen with
  | nil => exact List.prefix_append _ _
  | cons chunk chunks ih =>
    unfold before
    split
    · have part := ih (seen ++ chunk)
      rwa [List.append_assoc, ← List.flatten_cons] at part
    · exact List.prefix_append _ _

/-- The items of a part of a stream come first in the stream. -/
theorem scan_items_grow {part : List β} (inside : part <+: bytes) :
    (d.scan part).items <+: (d.scan bytes).items := by
  obtain ⟨rest, rfl⟩ := inside
  cases failed : (d.scan part).error with
  | none => rw [d.scan_append part rest failed]; exact List.prefix_append _ _
  | some raised =>
    exact ⟨[], by rw [List.append_nil, (d.scan_append_bad part rest failed).1]⟩

end Decoder
end Streams

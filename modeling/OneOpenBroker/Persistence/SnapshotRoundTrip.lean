import Mathlib.Algebra.Order.BigOperators.Group.List
import OneOpenBroker.Persistence.Recovery
import OneOpenBroker.Persistence.Snapshot

/-! A snapshot file reads back as what was written. The messages of a runtime's
state are numbered through its queues, the blob holds the payloads in that
order, and no shorter file passes for the whole one. -/
namespace OneOpenBroker.Persistence.Snapshot
open Collections Words OneOpenBroker.Core
open OneOpenBroker.Untyped (Text Number text)

namespace Data

/-- The value under a key. -/
def under (value : Data) (key : String) : Data :=
  match value with
  | dict entries => (entries.lookup (Untyped.text key)).getD null
  | _ => null

def items : Data → List Data
  | list items => items
  | _ => []

def content : Data → List UInt8
  | bytes b => b
  | _ => []

/-- The dictionary with the value under the key. -/
def put (value : Data) (key : String) (inner : Data) : Data :=
  match value with
  | dict entries => dict (setEntry entries (Untyped.text key) inner)
  | other => other

/-- A dictionary with such a value under the key. -/
def Holds (key : String) (P : Data → Prop) (value : Data) : Prop :=
  ∃ entries inner, value = dict entries ∧ entries.lookup (Untyped.text key) = some inner ∧ P inner

def ListOf (P : Data → Prop) (value : Data) : Prop :=
  ∃ items, value = list items ∧ ∀ item ∈ items, P item

end Data

/-! ## The state of a runtime -/

def IsMessage : Data → Prop := Data.Holds "payload" fun payload => ∃ b, payload = .bytes b

def IsQueue : Data → Prop := Data.Holds "messages" (Data.ListOf IsMessage)

/-- The shape of `BrokerRuntime.snapshot`. -/
def IsRuntime : Data → Prop := Data.Holds "queues" (Data.Holds "queues" (Data.ListOf IsQueue))

def payloadOf (message : Data) : List UInt8 := (message.under "payload").content

def queuePayloads (queue : Data) : List (List UInt8) := (queue.under "messages").items.map payloadOf

def queuesOf (state : Data) : List Data := ((state.under "queues").under "queues").items

/-- The payloads of all messages, in their order through the queues. -/
def statePayloads (state : Data) : List (List UInt8) := (queuesOf state).flatMap queuePayloads

/-- The bytes that the payloads take with their lengths. -/
def blobLength (state : Data) : Nat :=
  ((statePayloads state).map fun payload => payload.length + 4).sum

/-- What becomes of the messages of a queue, the first of which has the number `n`. -/
def numberMessages (mark : Nat → Data → Data) : Nat → List Data → List Data
  | _, [] => []
  | n, message :: rest => mark n message :: numberMessages mark (n + 1) rest

def numberQueue (mark : Nat → Data → Data) (n : Nat) (queue : Data) : Data :=
  queue.put "messages" (.list (numberMessages mark n (queue.under "messages").items))

def numberQueues (mark : Nat → Data → Data) : Nat → List Data → List Data
  | _, [] => []
  | n, queue :: rest =>
    numberQueue mark n queue :: numberQueues mark (n + (queuePayloads queue).length) rest

def numbered (mark : Nat → Data → Data) (state : Data) : Data :=
  state.put "queues" <|
    (state.under "queues").put "queues" (.list (numberQueues mark 0 (queuesOf state)))

/-- A message with its number beside its payload. -/
def indexMessage (n : Nat) (message : Data) : Data :=
  message.put "payload_index" (.number (.int n))

/-- A message with its number in place of its payload. -/
def emptyMessage (n : Nat) (message : Data) : Data := indexMessage n (message.put "payload" .null)

/-- The state in which every message has its payload and its number. -/
def indexed : Data → Data := numbered indexMessage

/-- The state that goes into the file as JSON. -/
def emptied : Data → Data := numbered emptyMessage

/-! ## Taking the payloads out -/

variable {codec : Codec} {created : UInt64} {aofSeq : ℤ} {state message queue : Data}
  {messages queues taken : List Data} {payloads before after : List (List UInt8)}
  {file metaB header : List UInt8} {mark : Nat → Data → Data} {n : Nat}

theorem extractMessage_eq (shape : IsMessage message) : extractMessage taken message =
    .ok (taken ++ [.bytes (payloadOf message)], emptyMessage taken.length message) := by
  obtain ⟨fields, _, rfl, found, payload, rfl⟩ := shape
  simp only [extractMessage, takenPayload, found, payloadOf, Data.under, Option.getD_some,
    Data.content]
  rfl

theorem each_extractMessage (taken : List Data) (shape : ∀ message ∈ messages, IsMessage message) :
    each extractMessage taken messages =
      .ok (taken ++ (messages.map payloadOf).map .bytes,
        numberMessages emptyMessage taken.length messages) := by
  induction messages generalizing taken with
  | nil => simp [numberMessages]
  | cons message rest ih =>
    obtain ⟨first, others⟩ := List.forall_mem_cons.mp shape
    have later := ih (taken ++ [.bytes (payloadOf message)]) others
    rw [List.length_append, List.length_singleton, List.append_assoc] at later
    exact each_cons (extractMessage_eq first) later

theorem extractQueue_eq (shape : IsQueue queue) : extractQueue taken queue =
    .ok (taken ++ (queuePayloads queue).map .bytes,
      numberQueue emptyMessage taken.length queue) := by
  obtain ⟨fields, _, rfl, found, messages, rfl, all⟩ := shape
  have looped := each_extractMessage taken all
  simp only [extractQueue, found, Data.loop, Data.iterate]
  simp only [bind, Except.bind, looped]
  simp [numberQueue, queuePayloads, Data.under, Data.put, Data.items, found, pure, Except.pure]

theorem each_extractQueue (taken : List Data) (shape : ∀ queue ∈ queues, IsQueue queue) :
    each extractQueue taken queues = .ok (taken ++ (queues.flatMap queuePayloads).map .bytes,
      numberQueues emptyMessage taken.length queues) := by
  induction queues generalizing taken with
  | nil => simp [numberQueues]
  | cons queue rest ih =>
    obtain ⟨first, others⟩ := List.forall_mem_cons.mp shape
    have later := ih (taken ++ (queuePayloads queue).map .bytes) others
    rw [List.length_append, List.length_map, List.append_assoc, ← List.map_append] at later
    exact each_cons (extractQueue_eq first) later

theorem extract_eq (shape : IsRuntime state) :
    extract state = .ok ((statePayloads state).map .bytes, emptied state) := by
  obtain ⟨entries, _, rfl, found, block, _, rfl, inner, queues, rfl, all⟩ := shape
  have looped := each_extractQueue [] all
  simp only [extract, found, inner]
  simp only [bind, Except.bind, looped]
  simp [emptied, numbered, statePayloads, queuesOf, Data.under, Data.put, Data.items, found, inner,
    pure, Except.pure]

/-! ## Putting the payloads back -/

/-- The number names the payload, which goes to the place that it was taken from. -/
theorem restoreMessage_eq (shape : IsMessage message)
    (there : payloads[n]? = some (payloadOf message)) :
    restoreMessage payloads (emptyMessage n message) = .ok (payloads, indexMessage n message) := by
  obtain ⟨fields, _, rfl, found, payload, rfl⟩ := shape
  obtain ⟨inside, _⟩ := List.getElem?_eq_some_iff.mp there
  have own : payloads.getD n [] = payload := by
    rw [List.getD_eq_getElem?_getD, there]
    simp [payloadOf, Data.under, found, Data.content]
  have named : Data.position (.number (.int n)) payloads.length = .ok (some n) := by
    simp [Data.position, inside]
  have place : setEntry (setEntry (setEntry fields (text "payload") .null) (text "payload_index")
      (.number (.int n))) (text "payload") (.bytes payload) =
      setEntry fields (text "payload_index") (.number (.int n)) := by
    have swapped : setEntry (setEntry fields (text "payload") .null) (text "payload_index")
        (.number (.int n)) = setEntry (setEntry fields (text "payload_index") (.number (.int n)))
        (text "payload") .null := setEntry_comm found (by decide)
    rw [swapped, setEntry_setEntry]
    exact setEntry_lookup (by rw [lookup_setEntry_ne (by decide), found])
  simp only [emptyMessage, indexMessage, Data.put, restoreMessage]
  simp only [bind, Except.bind, lookup_setEntry_self, Option.getD_some, named, own, place]
  rfl

theorem each_restoreMessage (before : List (List UInt8))
    (shape : ∀ message ∈ messages, IsMessage message)
    (same : payloads = before ++ (messages.map payloadOf ++ after)) :
    each restoreMessage payloads (numberMessages emptyMessage before.length messages) =
      .ok (payloads, numberMessages indexMessage before.length messages) := by
  induction messages generalizing before with
  | nil => rfl
  | cons message rest ih =>
    obtain ⟨first, others⟩ := List.forall_mem_cons.mp shape
    have there : payloads[before.length]? = some (payloadOf message) := by simp [same]
    have later := ih (before ++ [payloadOf message]) others (by simp [same])
    rw [List.length_append, List.length_singleton] at later
    exact each_cons (restoreMessage_eq first there) later

theorem restoreQueue_eq (shape : IsQueue queue)
    (same : payloads = before ++ (queuePayloads queue ++ after)) :
    restoreQueue payloads (numberQueue emptyMessage before.length queue) =
      .ok (payloads, numberQueue indexMessage before.length queue) := by
  obtain ⟨fields, _, rfl, found, messages, rfl, all⟩ := shape
  simp only [queuePayloads, Data.under, found, Option.getD_some, Data.items] at same
  have looped := each_restoreMessage before all same
  simp only [numberQueue, Data.put, Data.under, found, Option.getD_some, Data.items, restoreQueue,
    lookup_setEntry_self, Data.loop, Data.iterate]
  simp only [bind, Except.bind, looped]
  simp [pure, Except.pure]

theorem each_restoreQueue (before : List (List UInt8)) (shape : ∀ queue ∈ queues, IsQueue queue)
    (same : payloads = before ++ queues.flatMap queuePayloads) :
    each restoreQueue payloads (numberQueues emptyMessage before.length queues) =
      .ok (payloads, numberQueues indexMessage before.length queues) := by
  induction queues generalizing before with
  | nil => rfl
  | cons queue rest ih =>
    obtain ⟨first, others⟩ := List.forall_mem_cons.mp shape
    rw [List.flatMap_cons] at same
    have later := ih (before ++ queuePayloads queue) others
      (by rw [same, List.append_assoc])
    rw [List.length_append] at later
    exact each_cons (restoreQueue_eq first same) later

theorem restore_eq (shape : IsRuntime state) :
    restore (statePayloads state) (emptied state) = .ok (indexed state) := by
  obtain ⟨entries, _, rfl, found, block, _, rfl, inner, queues, rfl, all⟩ := shape
  have looped : each restoreQueue (queues.flatMap queuePayloads)
      (numberQueues emptyMessage 0 queues) = .ok (_, numberQueues indexMessage 0 queues) :=
    each_restoreQueue [] all rfl
  simp only [statePayloads, emptied, indexed, numbered, queuesOf, Data.under, Data.put, Data.items,
    found, inner, Option.getD_some, restore, lookup_setEntry_self]
  simp only [bind, Except.bind, looped]
  simp [pure, Except.pure]

/-! ## The blob -/

/-- The blob of the payloads, where every length fits its four bytes. -/
def blobOf (payloads : List (List UInt8)) : List UInt8 :=
  payloads.flatMap fun payload => bigEndian 4 payload.length ++ payload

theorem packItem_eq {payload : List UInt8} : packItem (.bytes payload) =
    if payload.length < 256 ^ 4 then .ok (bigEndian 4 payload.length ++ payload)
    else .error .structError := by
  have packed : pack [4] [payload.length] =
      if payload.length < 256 ^ 4 then some (bigEndian 4 payload.length) else none := by
    simp [pack]
  simp only [packItem, Data.extended, bind, Except.bind, packed]
  by_cases fits : payload.length < 256 ^ 4
  · simp only [if_pos fits]
  · simp only [if_neg fits]

/-- The items of the blob are packed where every length fits. -/
theorem packItems_eq : (payloads.map Data.bytes).mapM packItem =
    if ∀ payload ∈ payloads, payload.length < 256 ^ 4 then
      .ok (payloads.map fun payload => bigEndian 4 payload.length ++ payload)
    else .error .structError := by
  induction payloads with
  | nil => simp [pure, Except.pure]
  | cons payload rest ih =>
    rw [List.map_cons, List.mapM_cons, ih, packItem_eq]
    simp only [List.forall_mem_cons]
    by_cases first : payload.length < 256 ^ 4
    · by_cases others : ∀ payload ∈ rest, payload.length < 256 ^ 4
      · simp only [if_pos first, if_pos others, if_pos (And.intro first others)]
        rfl
      · simp only [if_pos first, if_neg others, if_neg (not_and_of_not_right _ others)]
        rfl
    · simp only [if_neg first, if_neg (not_and_of_not_left _ first)]
      rfl

theorem scanBlob_blobOf (small : ∀ payload ∈ payloads, payload.length < 256 ^ 4) :
    scanBlob (blobOf payloads) = payloads := by
  induction payloads with
  | nil => rw [blobOf, List.flatMap_nil, scanBlob, if_neg (by simp)]
  | cons payload rest ih =>
    obtain ⟨first, others⟩ := List.forall_mem_cons.mp small
    have shape : blobOf (payload :: rest) =
        bigEndian 4 payload.length ++ (payload ++ blobOf rest) := by
      simp [blobOf]
    have size : number ((blobOf (payload :: rest)).take 4) = payload.length := by
      rw [shape, List.take_left' length_bigEndian, number_bigEndian first]
    have behind : (blobOf (payload :: rest)).drop 4 = payload ++ blobOf rest := by
      rw [shape, List.drop_left' length_bigEndian]
    rw [scanBlob, if_pos (by rw [shape]; simp), size, behind]
    simp only [List.take_left, List.drop_left, ih others]

/-- A blob that fits has no payload that does not. -/
theorem length_blobOf : (blobOf payloads).length = (payloads.map fun p => p.length + 4).sum := by
  induction payloads with
  | nil => rfl
  | cons payload rest ih =>
    have shape : blobOf (payload :: rest) =
        bigEndian 4 payload.length ++ (payload ++ blobOf rest) := by
      simp [blobOf]
    rw [shape, List.length_append, List.length_append, length_bigEndian, ih, List.map_cons,
      List.sum_cons]
    omega

theorem small_of_blob (fits : (blobOf payloads).length < 256 ^ 4) :
    ∀ payload ∈ payloads, payload.length < 256 ^ 4 := by
  intro payload listed
  have within : payload.length + 4 ≤ (payloads.map fun p => p.length + 4).sum :=
    List.le_sum_of_mem (List.mem_map.mpr ⟨payload, listed, rfl⟩)
  rw [length_blobOf] at fits
  omega

/-! ## The file -/

theorem packHeader_ok_iff {m b : Nat} {crc : UInt32} :
    (∃ header, packHeader created aofSeq m b crc = .ok header) ↔
      0 ≤ aofSeq ∧ aofSeq < 2 ^ 64 ∧ m < 2 ^ 32 ∧ b < 2 ^ 32 := by
  have time := created.toNat_lt
  have sum := crc.toNat_lt
  have packs : (∃ fields, pack headerStruct
      [version, created.toNat, aofSeq.toNat, m, b, crc.toNat] = some fields) ↔ _ :=
    pack_eq_some_iff
  simp only [headerStruct, version, List.forall₂_cons, List.forall₂_nil_left_iff] at packs
  unfold packHeader
  by_cases negative : aofSeq < 0
  · simp [negative]
  · rw [if_neg negative]
    split
    · rename_i fields packed
      have fits := packs.mp ⟨fields, packed⟩
      simp only [Except.ok.injEq, exists_eq', true_iff]
      omega
    · rename_i unpacked
      refine iff_of_false (by simp) fun ⟨_, bound, first, second⟩ => ?_
      obtain ⟨fields, packed⟩ := packs.mpr ⟨by decide, time, by omega, first, second, sum, trivial⟩
      exact absurd (packed.symm.trans unpacked) (by simp)

/-- What a header that was packed says, whatever follows it. -/
theorem unpackHeader_packed {m b : Nat} {crc : UInt32}
    (packed : packHeader created aofSeq m b crc = .ok header) (rest : List UInt8) :
    header.length = headerSize ∧ (header ++ rest).take 4 = magic ∧ 0 ≤ aofSeq ∧
    unpackHeader ((header ++ rest).take headerSize) =
      { version, aofSeq := aofSeq.toNat, metaLen := m, blobLen := b, crc := crc.toNat } := by
  unfold packHeader at packed
  split at packed
  · cases packed
  · rename_i negative
    split at packed
    · rename_i fields fieldsPacked
      obtain rfl := Except.ok.inj packed
      obtain ⟨same, length⟩ := unpack_pack fieldsPacked []
      rw [List.append_nil] at same
      have whole : (magic ++ fields).length = headerSize := by
        rw [List.length_append, length]
        rfl
      refine ⟨whole, ?_, Int.not_lt.mp negative, ?_⟩
      · rw [List.append_assoc]
        rfl
      · rw [← whole, List.take_left]
        have behind : (magic ++ fields).drop 4 = fields := rfl
        unfold unpackHeader
        rw [behind, same]
        rfl
    · cases packed

/-- The file of a state: a header, the state as JSON and the blob. -/
theorem writeSnapshot_iff (shape : IsRuntime state) :
    writeSnapshot codec created aofSeq state = .ok file ↔
      ∃ metaB header, codec.dumps (metadata aofSeq (emptied state)) = .ok metaB ∧
        packHeader created aofSeq metaB.length (blobOf (statePayloads state)).length
          (codec.crc32 (metaB ++ blobOf (statePayloads state))) = .ok header ∧
        file = header ++ (metaB ++ blobOf (statePayloads state)) := by
  unfold writeSnapshot
  rw [extract_eq shape]
  simp only [bind, Except.bind, packItems_eq]
  cases dumped : codec.dumps (metadata aofSeq (emptied state)) with
  | error raised => simp
  | ok metaB =>
    by_cases small : ∀ payload ∈ statePayloads state, payload.length < 256 ^ 4
    · have blob : ((statePayloads state).map fun payload =>
          bigEndian 4 payload.length ++ payload).flatten = blobOf (statePayloads state) := rfl
      simp only [if_pos small, blob]
      cases packed : packHeader created aofSeq metaB.length (blobOf (statePayloads state)).length
        (codec.crc32 (metaB ++ blobOf (statePayloads state))) with
      | error raised => simp [packed]
      | ok header => simp [packed, pure, Except.pure, eq_comm]
    · simp only [if_neg small]
      refine iff_of_false (by simp) ?_
      rintro ⟨_, header, _, packed, _⟩
      exact small (small_of_blob (packHeader_ok_iff.mp ⟨header, packed⟩).2.2.2)

/-- The whole file, and what a file that was cut off behind its header. -/
theorem readSnapshot_packed {m b : Nat} {crc : UInt32} {body : List UInt8}
    (packed : packHeader created aofSeq m b crc = .ok header) :
    readSnapshot codec (some (header ++ body)) =
      if (body.take (m + b)).length ≠ m + b then .ok none
      else if (codec.crc32 (body.take (m + b))).toNat ≠ crc.toNat then .ok none
      else
        (readBody codec ⟨version, aofSeq.toNat, m, b, crc.toNat⟩ (body.take (m + b))).map some := by
  obtain ⟨length, start, _, fields⟩ := unpackHeader_packed packed body
  have large : ¬ (header ++ body).length < headerSize := by rw [List.length_append]; omega
  have behind : (header ++ body).drop headerSize = body := by rw [← length, List.drop_left]
  simp only [readSnapshot, if_neg large, fields, start, behind, ne_eq, not_true_eq_false, or_self,
    if_false]

theorem readBody_eq {n crc : Nat} (shape : IsRuntime state)
    (loaded : codec.loads metaB = .ok (metadata aofSeq (emptied state)))
    (small : ∀ payload ∈ statePayloads state, payload.length < 256 ^ 4) :
    readBody codec ⟨version, n, metaB.length, (blobOf (statePayloads state)).length, crc⟩
      (metaB ++ blobOf (statePayloads state)) = .ok (aofSeq, indexed state) := by
  have state' : (metadata aofSeq (emptied state)).item (text "state") = .ok (emptied state) := rfl
  have seq : (metadata aofSeq (emptied state)).get? (text "aof_seq") =
    .ok (some (.number (.int aofSeq))) := rfl
  simp only [readBody, List.take_left, List.drop_left, scanBlob_blobOf small]
  simp only [bind, Except.bind, loaded, state', restore_eq shape, seq, Option.getD_some, Data.toInt]
  rfl

/-- A file that ends before its header says is no snapshot. -/
theorem readSnapshot_cut {m b : Nat} {crc : UInt32} {body front : List UInt8}
    (packed : packHeader created aofSeq m b crc = .ok header) (whole : body.length = m + b)
    (cut : front <+: header ++ body) (strict : front ≠ header ++ body) :
    readSnapshot codec (some front) = .ok none := by
  have length := (unpackHeader_packed packed []).1
  by_cases small : front.length < headerSize
  · simp only [readSnapshot, if_pos small]
  · have first : header <+: front :=
      List.prefix_of_prefix_length_le (List.prefix_append header body) cut (by omega)
    obtain ⟨kept, rfl⟩ := first
    have inside : kept <+: body := (List.prefix_append_right_inj header).mp cut
    have shorter : kept.length ≠ m + b := fun same =>
      strict (congrArg (header ++ ·) (inside.eq_of_length (same.trans whole.symm)))
    have less := inside.length_le
    rw [readSnapshot_packed packed, if_pos (by rw [List.length_take]; omega)]

/-- A state is written exactly if its numbers fit, and the file reads back as
that state, with every message under its own payload, while no strict prefix of
the file is read at all. -/
theorem snapshot_file_round_trip (codec : Codec) (created : UInt64) (aofSeq : ℤ)
    (shape : IsRuntime state)
    (dumped : codec.dumps (metadata aofSeq (emptied state)) = .ok metaB)
    (loaded : codec.loads metaB = .ok (metadata aofSeq (emptied state))) :
    ((∃ file, writeSnapshot codec created aofSeq state = .ok file) ↔
      0 ≤ aofSeq ∧ aofSeq < 2 ^ 64 ∧ metaB.length < 2 ^ 32 ∧ blobLength state < 2 ^ 32) ∧
    ∀ file, writeSnapshot codec created aofSeq state = .ok file →
      readSnapshot codec (some file) = .ok (some (aofSeq, indexed state)) ∧
      ∀ front, front <+: file → front ≠ file → readSnapshot codec (some front) = .ok none := by
  constructor
  · have header : (∃ header, packHeader created aofSeq metaB.length
        (blobOf (statePayloads state)).length
        (codec.crc32 (metaB ++ blobOf (statePayloads state))) = .ok header) ↔ _ := packHeader_ok_iff
    rw [blobLength, ← length_blobOf, ← header]
    constructor
    · rintro ⟨file, written⟩
      obtain ⟨metaB', packed, dumped', there, _⟩ := (writeSnapshot_iff shape).mp written
      obtain rfl := Except.ok.inj (dumped.symm.trans dumped')
      exact ⟨packed, there⟩
    · rintro ⟨packed, there⟩
      exact ⟨_, (writeSnapshot_iff shape).mpr ⟨metaB, packed, dumped, there, rfl⟩⟩
  · intro file written
    obtain ⟨metaB', header, dumped', packed, rfl⟩ := (writeSnapshot_iff shape).mp written
    obtain rfl := Except.ok.inj (dumped.symm.trans dumped')
    have whole : (metaB ++ blobOf (statePayloads state)).length =
      metaB.length + (blobOf (statePayloads state)).length := List.length_append
    have small := small_of_blob (packHeader_ok_iff.mp ⟨header, packed⟩).2.2.2
    refine ⟨?_, fun front cut strict => readSnapshot_cut packed whole cut strict⟩
    rw [readSnapshot_packed packed, List.take_of_length_le (le_of_eq whole),
      if_neg (not_not.mpr whole), if_neg (not_not.mpr rfl), readBody_eq shape loaded small]
    rfl

/-- What Python takes from zlib and `json`, as far as one file needs it. -/
def codecOf (loaded : Data) (written : String) : Codec where
  crc32 := crc32
  dumps _ := .ok ((text written).map UInt8.ofNat)
  loads raw := if raw = (text written).map UInt8.ofNat then .ok loaded else .error .valueError
  int _ := .error .valueError

theorem codecOf_loads (loaded : Data) (written : String) :
    (codecOf loaded written).loads ((text written).map UInt8.ofNat) = .ok loaded := if_pos rfl

def withMessages (messages : List Data) : Data :=
  .dict [(text "queues", .dict [(text "queues",
    .list [.dict [(text "messages", .list messages)]])])]

/-- A queue with two messages, the second of which has no bytes. -/
def twoMessages : Data := withMessages [
  .dict [(text "id", .text (text "m1")), (text "payload", .bytes [1, 2])],
  .dict [(text "id", .text (text "m2")), (text "payload", .bytes [])]]

theorem twoMessages_isRuntime : IsRuntime twoMessages := by
  refine ⟨_, _, rfl, rfl, _, _, rfl, rfl, _, rfl, ?_⟩
  simp only [List.forall_mem_singleton]
  refine ⟨_, _, rfl, rfl, _, rfl, ?_⟩
  simp only [List.forall_mem_cons]
  exact ⟨⟨_, _, rfl, rfl, _, rfl⟩, ⟨_, _, rfl, rfl, _, rfl⟩, by simp⟩

def twoMessagesCodec : Codec := codecOf (metadata 9 (emptied twoMessages)) <|
  "\x7b\"aof_seq\":9,\"state\":\x7b\"queues\":\x7b\"queues\":[\x7b\"messages\":[" ++
    "\x7b\"id\":\"m1\",\"payload\":null,\"payload_index\":0\x7d," ++
    "\x7b\"id\":\"m2\",\"payload\":null,\"payload_index\":1\x7d]\x7d]\x7d\x7d\x7d"

theorem snapshot_file_round_trip_two : ∃ file,
    writeSnapshot twoMessagesCodec 0 9 twoMessages = .ok file ∧
    readSnapshot twoMessagesCodec (some file) = .ok (some (9, withMessages [
      .dict [(text "id", .text (text "m1")), (text "payload", .bytes [1, 2]),
        (text "payload_index", .number (.int 0))],
      .dict [(text "id", .text (text "m2")), (text "payload", .bytes []),
        (text "payload_index", .number (.int 1))]])) := by
  obtain ⟨written, reads⟩ := snapshot_file_round_trip twoMessagesCodec 0 9 twoMessages_isRuntime rfl
    (codecOf_loads _ _)
  obtain ⟨file, same⟩ := written.mpr ⟨by decide, by decide, by
      simp only [List.length_map, text, String.length_toList]; decide +kernel, by decide +kernel⟩
  exact ⟨file, same, (reads file same).1⟩

/-! ## The state of the broker -/

mutual

/-- A value of the headers. JSON does not tell `1.0` from `1` here. -/
def ofJson : Protocol.Json → Data
  | .null => .null
  | .bool b => .bool b
  | .num q => .number (if q.den = 1 then .int q.num else .float q)
  | .str s => .text (text s)
  | .arr items => .list (ofJsonItems items)
  | .obj fields => .dict (ofJsonFields fields)

def ofJsonItems : List Protocol.Json → List Data
  | [] => []
  | item :: rest => ofJson item :: ofJsonItems rest

def ofJsonFields : List (String × Protocol.Json) → List (Text × Data)
  | [] => []
  | (key, value) :: rest => (text key, ofJson value) :: ofJsonFields rest

end

def record (fields : List (String × Data)) : Data :=
  .dict (fields.map fun (key, value) => (text key, value))

def str (s : String) : Data := .text (text s)

def int (n : ℤ) : Data := .number (.int n)

def float (q : ℚ) : Data := .number (.float q)

def stateName : MessageState → String
  | .ready => "READY"
  | .inflight => "INFLIGHT"
  | .delayed => "DELAYED"
  | .dead => "DEAD"

def typeName : ExchangeType → String
  | .direct => "direct"
  | .fanout => "fanout"

def messageData (saved : SavedMessage) : Data :=
  let message := saved.message
  record [("id", str message.id), ("queue", str message.queue), ("payload", .bytes message.payload),
    ("created_at", float message.createdAt), ("attempts", int message.attempts),
    ("max_attempts", int message.maxAttempts), ("priority", int message.priority),
    ("headers", (message.headers.map ofJson).getD .null),
    ("available_at", (message.availableAt.map float).getD .null),
    ("exchange", str message.exchange), ("routing_key", str message.routingKey),
    ("state", str (stateName saved.state))]

def specData (spec : QueueSpec) : Data :=
  record [("name", str spec.name), ("durable", .bool spec.durable),
    ("max_length", (spec.maxLength.map int).getD .null),
    ("visibility_timeout", float spec.visibilityTimeout), ("max_attempts", int spec.maxAttempts),
    ("dead_letter", .bool spec.deadLetter)]

def statsData (stats : QueueStats) : Data :=
  record [("published", int stats.published), ("delivered", int stats.delivered),
    ("acked", int stats.acked), ("nacked", int stats.nacked), ("retried", int stats.retried),
    ("dead", int stats.dead)]

def queueData (saved : SavedQueue) : Data :=
  record [("spec", specData saved.spec), ("messages", .list (saved.messages.map messageData)),
    ("stats", statsData saved.stats)]

def exchangeData (ex : Exchange) : Data :=
  record [("name", str ex.name), ("type", str (typeName ex.type)), ("durable", .bool ex.durable)]

def bindingData (b : Binding) : Data :=
  record [("exchange", str b.exchange), ("queue", str b.queue), ("routing_key", str b.routingKey)]

/-- `BrokerRuntime.snapshot`. -/
def runtimeData (state : RuntimeSnapshot) : Data :=
  record [
    ("queues", record [("queues", .list (state.queues.queues.map queueData)),
      ("seq", int state.queues.seq)]),
    ("routing", record [("exchanges", .list (state.exchanges.map exchangeData)),
      ("bindings", .list (state.bindings.map bindingData))])]

/-- What a snapshot of the broker writes has the shape of one. -/
theorem runtimeData_isRuntime (state : RuntimeSnapshot) : IsRuntime (runtimeData state) := by
  refine ⟨_, _, rfl, rfl, _, _, rfl, rfl, _, rfl, ?_⟩
  refine List.forall_mem_map.mpr fun queue _ => ⟨_, _, rfl, rfl, _, rfl, ?_⟩
  exact List.forall_mem_map.mpr fun message _ => ⟨_, _, rfl, rfl, _, rfl⟩

/-- The blob of a snapshot holds the payloads of its messages, in its order. -/
theorem statePayloads_runtimeData (state : RuntimeSnapshot) :
    statePayloads (runtimeData state) =
      state.queues.contents.map fun saved => saved.2.message.payload := by
  have queues : queuesOf (runtimeData state) = state.queues.queues.map queueData := rfl
  have own : ∀ queue, queuePayloads (queueData queue) =
      queue.messages.map fun saved => saved.message.payload := fun queue => by
    have listed : ((queueData queue).under "messages").items = queue.messages.map messageData := rfl
    rw [queuePayloads, listed, List.map_map]
    rfl
  rw [statePayloads, queues, List.flatMap_map, EngineSnapshot.contents, List.map_flatMap]
  refine List.flatMap_congr fun queue _ => ?_
  rw [own, List.map_map]
  rfl

end OneOpenBroker.Persistence.Snapshot

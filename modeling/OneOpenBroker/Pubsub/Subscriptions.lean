import OneOpenBroker.Pubsub.Channels

/-! Who is subscribed. The two tables of the engine agree as far as cleaning
up needs it: a subscriber of a channel has the channel in its own set, so
walking that set takes a connection out of every channel. -/
namespace OneOpenBroker.Pubsub.PubSubEngine
open Collections

variable {p : PubSubEngine} {connectionId other channel name : String}

/-- Subscribers are listed once, and each has the channel in its set. -/
structure Linked (p : PubSubEngine) : Prop where
  distinct : ∀ channel, (p.subscribers channel).Nodup
  listed : ∀ channel connectionId, connectionId ∈ p.subscribers channel →
    channel ∈ p.channels connectionId

theorem linked_empty : Linked {} :=
  ⟨fun _ => List.nodup_nil, fun _ _ subscribed => nomatch subscribed⟩

/-! ## Subscribing -/

theorem mem_subscribe : other ∈ (p.subscribe connectionId channel).subscribers name ↔
    other ∈ p.subscribers name ∨ other = connectionId ∧ name = channel := by
  change other ∈ ((p.subs.set channel _).get? name).getD [] ↔ _
  rw [Dict.get?_set]
  by_cases same : name = channel
  · subst same
    by_cases known : connectionId ∈ p.subscribers name
    · simp only [if_true, Option.getD_some, known, and_true]
      exact ⟨.inl, fun either => either.elim id fun here => here ▸ known⟩
    · simp [known]
  · simp [same, subscribers]

theorem Linked.subscribe (linked : Linked p) : Linked (p.subscribe connectionId channel) := by
  constructor
  · intro name
    change (((p.subs.set channel _).get? name).getD []).Nodup
    rw [Dict.get?_set]
    split
    · rw [Option.getD_some]
      split
      · exact linked.distinct channel
      · rename_i new
        rw [← List.concat_eq_append]
        exact (linked.distinct channel).concat new
    · exact linked.distinct name
  · intro name other subscribed
    change name ∈ ((p.byConnection.set connectionId _).get? other).getD []
    rw [Dict.get?_set]
    rcases mem_subscribe.mp subscribed with before | ⟨rfl, rfl⟩
    · have known := linked.listed name other before
      split
      · rename_i same
        rw [Option.getD_some]
        exact List.mem_insert_of_mem (same ▸ known)
      · exact known
    · simp

/-! ## Unsubscribing -/

theorem mem_unsubscribe (distinct : ∀ channel, (p.subscribers channel).Nodup) :
    other ∈ (p.unsubscribe connectionId channel).2.subscribers name ↔
      other ∈ p.subscribers name ∧ ¬ (other = connectionId ∧ name = channel) := by
  unfold unsubscribe
  dsimp only
  split
  · change other ∈ ((if (p.subscribers channel).erase connectionId = [] then p.subs.erase channel
      else p.subs.set channel _).get? name).getD [] ↔ _
    by_cases same : name = channel
    · subst same
      have left : other ∈ (p.subscribers name).erase connectionId ↔
          other ≠ connectionId ∧ other ∈ p.subscribers name := (distinct name).mem_erase_iff
      split
      · rename_i empty
        rw [empty] at left
        rw [Dict.get?_erase_self]
        simp only [Option.getD_none, List.not_mem_nil, false_iff, and_true] at left ⊢
        tauto
      · rw [Dict.get?_set_self, Option.getD_some, left]
        tauto
    · split
      · rw [Dict.get?_erase_ne same]
        simp [same, subscribers]
      · rw [Dict.get?_set_ne same]
        simp [same, subscribers]
  · rename_i absent
    constructor
    · intro subscribed
      refine ⟨subscribed, ?_⟩
      rintro ⟨rfl, rfl⟩
      exact absent subscribed
    · exact fun both => both.1

theorem unsubscribe_distinct (distinct : ∀ channel, (p.subscribers channel).Nodup) (name : String) :
    ((p.unsubscribe connectionId channel).2.subscribers name).Nodup := by
  unfold unsubscribe
  dsimp only
  split
  · change (((if (p.subscribers channel).erase connectionId = [] then p.subs.erase channel
      else p.subs.set channel _).get? name).getD []).Nodup
    by_cases same : name = channel
    · subst same
      split
      · simp
      · rw [Dict.get?_set_self, Option.getD_some]
        exact (distinct name).erase _
    · split
      · rw [Dict.get?_erase_ne same]
        exact distinct name
      · rw [Dict.get?_set_ne same]
        exact distinct name
  · exact distinct name

theorem unsubscribe_channels (differ : other ≠ connectionId) :
    (p.unsubscribe connectionId channel).2.channels other = p.channels other := by
  unfold unsubscribe
  dsimp only
  split
  · change ((p.byConnection.set connectionId _).get? other).getD [] = _
    rw [Dict.get?_set_ne differ]
    rfl
  · rfl

theorem Linked.unsubscribe (linked : Linked p) : Linked (p.unsubscribe connectionId channel).2 := by
  refine ⟨unsubscribe_distinct linked.distinct, fun name other subscribed => ?_⟩
  obtain ⟨before, outside⟩ := (mem_unsubscribe linked.distinct).mp subscribed
  have known := linked.listed name other before
  by_cases same : other = connectionId
  · subst same
    have differ : name ≠ channel := fun here => outside ⟨rfl, here⟩
    unfold PubSubEngine.unsubscribe
    dsimp only
    split
    · change name ∈ ((p.byConnection.set other _).get? other).getD []
      rw [Dict.get?_set_self, Option.getD_some, List.mem_erase_of_ne differ]
      exact known
    · exact known
  · rw [unsubscribe_channels same]
    exact known

/-! ## Disconnecting -/

theorem mem_unsubscribes (connectionId : String) (names : List String)
    (distinct : ∀ channel, (p.subscribers channel).Nodup) :
    (∀ name, ((names.foldl (fun p channel => (p.unsubscribe connectionId channel).2) p).subscribers
      name).Nodup) ∧
    (∀ other name, other ∈ (names.foldl (fun p channel => (p.unsubscribe connectionId channel).2)
        p).subscribers name ↔
      other ∈ p.subscribers name ∧ ¬ (other = connectionId ∧ name ∈ names)) ∧
    ∀ other, other ≠ connectionId → (names.foldl (fun p channel =>
      (p.unsubscribe connectionId channel).2) p).channels other = p.channels other := by
  induction names generalizing p with
  | nil => exact ⟨distinct, fun other name => by simp, fun _ _ => rfl⟩
  | cons channel rest ih =>
    obtain ⟨distinct', members, channels⟩ :=
      ih (p := (p.unsubscribe connectionId channel).2) (unsubscribe_distinct distinct)
    refine ⟨distinct', fun other name => ?_, fun other differ => ?_⟩
    · rw [List.foldl_cons, members, mem_unsubscribe distinct, List.mem_cons]
      tauto
    · rw [List.foldl_cons, channels other differ, unsubscribe_channels differ]

theorem mem_disconnect (linked : Linked p) :
    other ∈ (p.disconnect connectionId).subscribers name ↔
      other ∈ p.subscribers name ∧ other ≠ connectionId := by
  obtain ⟨_, members, _⟩ := mem_unsubscribes connectionId (p.channels connectionId)
    (p := { p with byConnection := p.byConnection.erase connectionId }) linked.distinct
  unfold disconnect
  rw [members]
  constructor
  · rintro ⟨subscribed, outside⟩
    refine ⟨subscribed, ?_⟩
    rintro rfl
    exact outside ⟨rfl, linked.listed name other subscribed⟩
  · rintro ⟨subscribed, differ⟩
    exact ⟨subscribed, fun both => differ both.1⟩

theorem Linked.disconnect (linked : Linked p) : Linked (p.disconnect connectionId) := by
  obtain ⟨distinct, _, channels⟩ := mem_unsubscribes connectionId (p.channels connectionId)
    (p := { p with byConnection := p.byConnection.erase connectionId }) linked.distinct
  refine ⟨distinct, fun name other subscribed => ?_⟩
  obtain ⟨before, differ⟩ := (mem_disconnect linked).mp subscribed
  unfold PubSubEngine.disconnect
  rw [channels other differ]
  change name ∈ ((p.byConnection.erase connectionId).get? other).getD []
  rw [Dict.get?_erase_ne differ]
  exact linked.listed name other before

end OneOpenBroker.Pubsub.PubSubEngine

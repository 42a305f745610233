import OneOpenBroker.Persistence.Routes

/-! Recovery preserves routing: after any run, from the whole journal or from a
snapshot that was taken at any point of the run and the records after it. -/
namespace OneOpenBroker.Persistence
open Collections Systems OneOpenBroker.Core QueueEngine RoutingEngine

variable {r live copy : RoutingEngine} {e : QueueEngine} {name q exchange routingKey : String}
  {binding : Binding} {args : QueueArgs}

/-! ## What a routing engine always satisfies -/

/-- The queues do not matter. -/
theorem Routed.withQueues (routed : Routed r) (named : e.Named) : Routed { r with queues := e } :=
  ⟨named, routed.labels, routed.root, routed.single, routed.known⟩

theorem Routed.bind (routed : Routed r) (exchange q routingKey : String) :
    Routed (r.bind exchange q routingKey).2 := by
  refine ⟨?_, ?_, ?_, bind_single routed.single, fun binding member => ?_⟩
  · unfold RoutingEngine.bind
    split
    · exact routed.named
    · exact routed.named
  · rw [bind_exchanges]
    exact routed.labels
  · rw [bind_exchanges]
    exact routed.root
  · rw [bind_exchanges]
    rcases bind_bindings.mp member with old | ⟨known, same⟩
    · exact routed.known binding old
    · rw [same]
      exact known.1

theorem Routed.unbind (routed : Routed r) (exchange q routingKey : String) :
    Routed (r.unbind exchange q routingKey).2 := by
  unfold RoutingEngine.unbind
  split
  · exact ⟨routed.named, routed.labels, routed.root, routed.single.erase _,
      fun binding member => routed.known binding (List.mem_of_mem_erase member)⟩
  · exact routed

theorem Routed.declareExchange (routed : Routed r) (name : String) (type : ExchangeType)
    (durable : Bool) : Routed (r.declareExchange name type durable) := by
  unfold RoutingEngine.declareExchange
  split
  · exact routed
  · rename_i unknown
    refine ⟨routed.named, fun other exchange found => ?_, ?_, routed.single,
      fun binding member => Dict.mem_set.mpr (.inr (routed.known binding member))⟩
    · change (r.exchanges.set name _).get? other = some exchange at found
      rw [Dict.get?_set] at found
      split at found
      · rename_i same
        rw [← Option.some.inj found, same]
      · exact routed.labels other exchange found
    · change (r.exchanges.set name _).get? defaultExchange = _
      rw [Dict.get?_set_ne, routed.root]
      rintro rfl
      exact unknown (Dict.mem_of_get? routed.root)

theorem Routed.deleteExchange (routed : Routed r) (name : String) :
    Routed (r.deleteExchange name).2 := by
  unfold RoutingEngine.deleteExchange
  split
  · exact routed
  · rename_i other
    split
    · refine ⟨routed.named, fun label exchange found => ?_, ?_, routed.single.filter _,
        fun binding member => ?_⟩
      · change (r.exchanges.erase name).get? label = some exchange at found
        rw [Dict.get?_erase] at found
        split at found
        · cases found
        · exact routed.labels label exchange found
      · change (r.exchanges.erase name).get? defaultExchange = _
        rw [Dict.get?_erase_ne (Ne.symm other), routed.root]
      · obtain ⟨old, differ⟩ := List.mem_filter.mp member
        exact Dict.mem_erase.mpr ⟨by simpa using differ, routed.known binding old⟩
    · exact routed

theorem Routed.declared (routed : Routed r) (name : String) (args : QueueArgs) :
    Routed (declared r name args) :=
  (routed.withQueues (step_named routed.named (.declareQueue name args))).bind defaultExchange name name

theorem step_routed (routed : Routed r) (op : BrokerOp) : Routed (step r op) := by
  have named : (step r op).queues.Named := step_broker_named routed.named op
  cases op with
  | declareQueue name args => exact routed.declared name args
  | declareExchange name type durable => exact routed.declareExchange name type durable
  | deleteExchange name => exact routed.deleteExchange name
  | bind exchange queue routingKey => exact routed.bind exchange queue routingKey
  | unbind exchange queue routingKey => exact routed.unbind exchange queue routingKey
  | publish args stamp =>
    obtain ⟨e', shape, _⟩ := publish_stirs r args stamp
    change Routed (r.publish args stamp).2
    change (r.publish args stamp).2.queues.Named at named
    rw [shape] at named ⊢
    refine Routed.withQueues ?_ named
    rcases ensureQueue_cases r args with ⟨same, _⟩ | ⟨queue, _, _, _, same⟩
    · rw [same]
      exact routed
    · rw [same]
      exact routed.declared queue {}
  | _ => exact routed.withQueues named

theorem booted_routed {config : EngineConfig} {clock : Nat → ℚ} : Routed (booted config clock) := by
  refine ⟨booted_rebuilt.1.named, fun name exchange found => ?_, rfl, List.nodup_nil, ?_⟩
  · have stored : (booted config clock).exchanges = (∅ : Dict String Exchange).set defaultExchange
        { name := defaultExchange } := rfl
    rw [stored, Dict.get?_set] at found
    split at found
    · rename_i same
      rw [← Option.some.inj found, same]
    · cases found
  · exact fun _ member => absurd member List.not_mem_nil

/-! ## Snapshots -/

/-- A snapshot keeps the specs of the queues. -/
theorem restore_specs {saved : QueueEngine} (named : saved.Named) :
    (e.restoreState saved.snapshotState).spec? = saved.spec? := by
  have own (queue : SavedQueue) (member : queue ∈ saved.snapshotState.queues) :
      saved.spec? queue.spec.name = some queue.spec := by
    obtain ⟨kept, listed, rfl⟩ := List.mem_map.mp member
    obtain ⟨key, found⟩ := Dict.mem_values.mp listed
    have label : kept.spec.name = key := (named key kept found).spec
    change saved.spec? kept.spec.name = some kept.spec
    rw [label]
    exact spec?_of_get found
  have done : (∀ q spec, (e.restoreState saved.snapshotState).spec? q = some spec →
      saved.spec? q = some spec) ∧ ∀ queue ∈ saved.snapshotState.queues, queue ∈ ([] : List SavedQueue) ∨
        (e.restoreState saved.snapshotState).spec? queue.spec.name = some queue.spec := by
    refine restoreState_preserves (I := fun e queues _ =>
      (∀ q spec, e.spec? q = some spec → saved.spec? q = some spec) ∧
      ∀ queue ∈ saved.snapshotState.queues, queue ∈ queues ∨
        e.spec? queue.spec.name = some queue.spec) ?_ ?_ ?_
    · rintro e queues queue listed ⟨sound, complete⟩
      constructor
      · intro q spec found
        rw [spec?_of_set (e := e) rfl] at found
        split at found
        · rename_i same
          rw [same, ← Option.some.inj found]
          exact own queue listed
        · exact sound q spec found
      · intro other member
        rw [spec?_of_set (e := e) rfl]
        split
        · rename_i same
          have mine := own other member
          rw [same, own queue listed] at mine
          exact .inr mine
        · rename_i differ
          rcases complete other member with waiting | there
          · rcases List.mem_cons.mp waiting with same | later
            · exact absurd (congrArg (·.spec.name) same) differ
            · exact .inl later
          · exact .inr there
    · rintro e queues rest name queue message found _ ⟨sound, complete⟩
      have same : (e.restoreMessage name queue message).spec? = e.spec? := by
        funext q
        rw [spec?_of_set restoreMessage_queues]
        split
        · rename_i here
          rw [here, spec?_of_get found, refit_spec]
        · rfl
      rw [same]
      exact ⟨sound, complete⟩
    · exact ⟨fun q spec found => (by cases found), fun queue member => .inl member⟩
  funext q
  refine Option.ext fun spec => ⟨done.1 q spec, fun known => ?_⟩
  obtain ⟨queue, found, same⟩ := spec?_some.mp known
  have listed : saveQueue queue ∈ saved.snapshotState.queues :=
    List.mem_map.mpr ⟨queue, Dict.mem_values.mpr ⟨q, found⟩, rfl⟩
  have label : queue.spec.name = q := (named q queue found).spec
  have there := (done.2 _ listed).resolve_left List.not_mem_nil
  change (e.restoreState saved.snapshotState).spec? queue.spec.name = some queue.spec at there
  rwa [label, same] at there

/-- The exchanges of a snapshot are declared again. -/
theorem declareExchanges {list : List Exchange}
    (listed : ∀ exchange ∈ list, live.exchanges.get? exchange.name = some exchange)
    (sound : ∀ name exchange, r.exchanges.get? name = some exchange →
      live.exchanges.get? name = some exchange) :
    let r' := list.foldl (fun r ex => r.declareExchange ex.name ex.type ex.durable false) r
    (∀ name exchange, r'.exchanges.get? name = some exchange →
      live.exchanges.get? name = some exchange) ∧
    (∀ name ∈ r.exchanges, name ∈ r'.exchanges) ∧ (∀ exchange ∈ list, exchange.name ∈ r'.exchanges) ∧
    r'.bindings = r.bindings := by
  induction list generalizing r with
  | nil => exact ⟨sound, fun _ member => member, fun _ member => absurd member List.not_mem_nil, rfl⟩
  | cons ex rest ih =>
    obtain ⟨here, later⟩ := List.forall_mem_cons.mp listed
    generalize next : r.declareExchange ex.name ex.type ex.durable false = middle
    have step : (∀ name exchange, middle.exchanges.get? name = some exchange →
        live.exchanges.get? name = some exchange) ∧ (∀ name ∈ r.exchanges, name ∈ middle.exchanges) ∧
        ex.name ∈ middle.exchanges ∧ middle.bindings = r.bindings := by
      rw [← next, RoutingEngine.declareExchange]
      split
      · rename_i known
        exact ⟨sound, fun _ member => member, known, rfl⟩
      · refine ⟨fun name exchange found => ?_, fun name member => Dict.mem_set.mpr (.inr member),
          Dict.mem_set.mpr (.inl rfl), rfl⟩
        change (r.exchanges.set ex.name ex).get? name = some exchange at found
        rw [Dict.get?_set] at found
        split at found
        · rename_i same
          rw [same, ← Option.some.inj found]
          exact here
        · exact sound name exchange found
    obtain ⟨sound', kept, there, bindings⟩ := step
    obtain ⟨sound'', kept', there', bindings'⟩ := ih later sound'
    dsimp only
    rw [List.foldl_cons, next]
    refine ⟨sound'', fun name member => kept' name (kept name member), ?_, bindings'.trans bindings⟩
    exact List.forall_mem_cons.mpr ⟨kept' _ there, there'⟩

/-- The bindings of a snapshot are made again, but for those of queues that are gone. -/
theorem rebindings (list : List Binding) (r : RoutingEngine) :
    let r' := list.foldl (fun r b => (r.bind b.exchange b.queue b.routingKey false).2) r
    r'.queues = r.queues ∧ r'.exchanges = r.exchanges ∧ (r.bindings.Nodup → r'.bindings.Nodup) ∧
    ∀ binding, binding ∈ r'.bindings ↔ binding ∈ r.bindings ∨
      binding ∈ list ∧ binding.exchange ∈ r.exchanges ∧ binding.queue ∈ r.queues.queues := by
  induction list generalizing r with
  | nil => exact ⟨rfl, rfl, fun single => single, fun binding => by simp⟩
  | cons first rest ih =>
    obtain ⟨queues, exchanges, single, bindings⟩ :=
      ih (r.bind first.exchange first.queue first.routingKey false).2
    dsimp only
    rw [List.foldl_cons]
    refine ⟨queues.trans bind_queues, exchanges.trans bind_exchanges,
      fun distinct => single (bind_single distinct), fun binding => ?_⟩
    rw [bindings, bind_bindings, bind_exchanges, bind_queues, List.mem_cons, or_assoc]
    refine or_congr_right ?_
    constructor
    · rintro (⟨known, rfl⟩ | ⟨member, known⟩)
      · exact ⟨.inl rfl, known⟩
      · exact ⟨.inr member, known⟩
    · rintro ⟨rfl | member, known⟩
      · exact .inl ⟨known, rfl⟩
      · exact .inr ⟨member, known⟩

theorem restored_routing (routed : Routed live) (r : RoutingEngine) :
    (restoreSnapshot r (snapshot live)).exchanges.get? = live.exchanges.get? ∧
    (restoreSnapshot r (snapshot live)).bindings.Nodup ∧
    (restoreSnapshot r (snapshot live)).queues.spec? = live.queues.spec? ∧
    ∀ binding, binding ∈ (restoreSnapshot r (snapshot live)).bindings ↔
      binding ∈ live.bindings ∧ binding.queue ∈ live.queues.queues := by
  have queues : (restoreSnapshot r (snapshot live)).queues =
      r.queues.restoreState live.queues.snapshotState := restoreSnapshot_queues
  have specs : (restoreSnapshot r (snapshot live)).queues.spec? = live.queues.spec? := by
    rw [queues]
    exact restore_specs routed.named
  -- First the default exchange, then the others, then the bindings.
  generalize start : RoutingEngine.declareExchange { r with
    queues := r.queues.restoreState (snapshot live).queues, exchanges := ∅, bindings := [] }
    defaultExchange .direct true false = fresh
  have first : fresh.exchanges = (∅ : Dict String Exchange).set defaultExchange
      { name := defaultExchange } ∧ fresh.bindings = [] := by
    rw [← start]
    exact ⟨rfl, rfl⟩
  have sound : ∀ name exchange, fresh.exchanges.get? name = some exchange →
      live.exchanges.get? name = some exchange := by
    intro name exchange found
    rw [first.1, Dict.get?_set] at found
    split at found
    · rename_i same
      rw [same, routed.root, ← Option.some.inj found]
    · cases found
  have listed : ∀ exchange ∈ live.exchanges.values, live.exchanges.get? exchange.name = some exchange := by
    intro exchange member
    obtain ⟨name, found⟩ := Dict.mem_values.mp member
    rw [routed.labels name exchange found, found]
  obtain ⟨sound', _, complete, bindings⟩ := declareExchanges listed sound
  generalize middle : live.exchanges.values.foldl
    (fun r ex => r.declareExchange ex.name ex.type ex.durable false) fresh = declared
    at sound' complete bindings
  obtain ⟨queues', exchanges', single, bindings'⟩ := rebindings live.bindings declared
  have shape : restoreSnapshot r (snapshot live) = live.bindings.foldl
      (fun r b => (r.bind b.exchange b.queue b.routingKey false).2) declared := by
    rw [← middle, ← start]
    rfl
  rw [← shape] at queues' exchanges' single bindings'
  have all : declared.exchanges.get? = live.exchanges.get? := by
    funext name
    refine Option.ext fun exchange => ⟨sound' name exchange, fun found => ?_⟩
    have member := complete exchange (Dict.mem_values.mpr ⟨name, found⟩)
    rw [routed.labels name exchange found] at member
    obtain ⟨other, there⟩ := Dict.mem_iff.mp member
    rw [there, ← sound' name other there, found]
  refine ⟨by rw [exchanges', all], single (by rw [bindings, first.2]; exact List.nodup_nil), specs, ?_⟩
  intro binding
  rw [bindings', bindings, first.2, ← Dict.isSome_get?, all, ← queues', mem_of_spec specs, Dict.isSome_get?]
  constructor
  · rintro (none | ⟨member, _, there⟩)
    · cases none
    · exact ⟨member, there⟩
  · exact fun both => .inr ⟨both.1, routed.known binding both.1, both.2⟩

theorem restored_mirrors (routed : Routed live) (tied : Tied live) (r : RoutingEngine) :
    Mirrors live (restoreSnapshot r (snapshot live)) := by
  obtain ⟨exchanges, single, specs, bindings⟩ := restored_routing routed r
  refine ⟨⟨exchanges, fun binding => ?_⟩, marks_of_spec specs, tied, fun binding member => ?_, single, ?_⟩
  · rw [bindings, and_iff_left_of_imp (tied binding)]
  · exact (mem_of_spec specs).mpr ((bindings binding).mp member).2
  · rw [restoreSnapshot_queues]
    exact restore_rebuilt routed.named

/-- A snapshot keeps the bindings exactly if the queues they refer to exist. -/
theorem SameRouting.tied (routed : Routed live)
    (same : SameRouting live (restoreSnapshot r (snapshot live))) : Tied live := by
  obtain ⟨_, _, _, bindings⟩ := restored_routing routed r
  exact fun binding member => ((bindings binding).mp ((same.bindings binding).mpr member)).2

/-! ## Runs -/

/-- The same exchanges and bindings route every message to the same queues. -/
theorem SameRouting.targets (same : SameRouting live copy) (exchange routingKey : String) :
    copy.routeTargets exchange routingKey = live.routeTargets exchange routingKey := by
  have sorted {first second : List String} (members : ∀ name, name ∈ first ↔ name ∈ second) :
      sortedNames first = sortedNames second := by
    have perm : first.dedup.Perm second.dedup :=
      (List.perm_ext_iff_of_nodup first.nodup_dedup second.nodup_dedup).mpr (by simpa using members)
    have perm' : (sortedNames first).Perm (sortedNames second) :=
      ((List.perm_insertionSort _ _).trans perm).trans (List.perm_insertionSort _ _).symm
    exact perm'.eq_of_pairwise' (List.pairwise_insertionSort _ _) (List.pairwise_insertionSort _ _)
  unfold routeTargets
  rw [same.exchanges]
  split
  · rfl
  · split <;> refine sorted fun name => ?_ <;> simp only [List.mem_map, List.mem_filter, same.bindings]

variable {config config' : EngineConfig} {clock clock' : Nat → ℚ}

/-- Whatever file recovery starts from, it knows the routing of the live broker. -/
def Recovers (config config' : EngineConfig) (clock clock' : Nat → ℚ) (ops : List BrokerOp) : Prop :=
  ∀ early file, early <+: ops → TakenAt (booted config clock) early file →
    let live := run step (booted config clock) ops
    let copy := recovered (booted config' clock') file live.queues.journal.records
    SameRouting live copy ∧
      ∀ exchange routingKey, copy.routeTargets exchange routingKey = live.routeTargets exchange routingKey

theorem recovered_replayed (file : Option SnapshotFile) (records : List AofRecord) :
    recovered r file records =
      replayed ((file.map fun taken => restoreSnapshot r taken.2).getD r) (laterOps file records) := by
  unfold replayed laterOps
  rw [List.foldl_map]
  cases file <;> rfl

/-- What recovery replays is what was journaled since the snapshot. -/
theorem laterOps_split {early ops : List BrokerOp} {file : Option SnapshotFile} (inside : early <+: ops)
    (taken : TakenAt (booted config clock) early file) :
    (run step (booted config clock) ops).queues.journal.ops =
      (run step (booted config clock) early).queues.journal.ops ++
        laterOps file (run step (booted config clock) ops).queues.journal.records := by
  obtain ⟨rest, rfl⟩ := inside
  have named : (booted config clock).queues.Named := booted_rebuilt.1.named
  have empty : (booted config clock).queues.journal = {} := by rw [booted_queues]
  have numbered (ops : List BrokerOp) : Numbered (run step (booted config clock) ops).queues.journal := by
    refine run_journal (fun _ op numbered => numbered.append op) named ?_
    rw [empty]
    exact fun _ member => absurd member List.not_mem_nil
  have middle : (run step (booted config clock) early).queues.Named :=
    run_work (fun _ op _ named => step_named named op) (fun _ _ _ named => named) named
  have extended : Extends (run step (booted config clock) early).queues.journal
      (run step (booted config clock) (early ++ rest)).queues.journal := by
    rw [run_append]
    exact run_journal (fun _ op extended => extended.append op) middle
      ⟨le_refl _, [], (List.append_nil _).symm, fun _ member => absurd member List.not_mem_nil⟩
  rcases taken with ⟨rfl, rfl⟩ | rfl
  · have later := extended.later (numbered [])
    rw [run_nil, empty] at later ⊢
    exact later
  · exact extended.later (numbered early)

/-- Whatever file recovery starts from, it is in step with the live broker. -/
def InStep (config config' : EngineConfig) (clock clock' : Nat → ℚ) (ops : List BrokerOp) : Prop :=
  ∀ early file, early <+: ops → TakenAt (booted config clock) early file →
    Mirrors (run step (booted config clock) ops) (recovered (booted config' clock') file
      (run step (booted config clock) ops).queues.journal.records)

theorem InStep.recovers {ops : List BrokerOp} (inStep : InStep config config' clock clock' ops) :
    Recovers config config' clock clock' ops := by
  intro early file inside taken
  have same := (inStep early file inside taken).same
  exact ⟨same, same.targets⟩

theorem run_routed (ops : List BrokerOp) : Routed (run step (booted config clock) ops) :=
  run_invariant (I := Routed) (fun _ op routed => step_routed routed op) booted_routed

/-- A snapshot of the last state needs no records. -/
theorem recovered_last (ops : List BrokerOp) : recovered (booted config' clock')
      (some ((run step (booted config clock) ops).queues.journal.seq,
        snapshot (run step (booted config clock) ops)))
      (run step (booted config clock) ops).queues.journal.records =
    restoreSnapshot (booted config' clock') (snapshot (run step (booted config clock) ops)) := by
  have split : (run step (booted config clock) ops).queues.journal.ops = _ :=
    laterOps_split (List.prefix_refl ops) (.inr rfl)
  rw [recovered_replayed, List.self_eq_append_right.mp split]
  rfl

theorem last_mirrors {ops : List BrokerOp} (tied : Tied (run step (booted config clock) ops)) :
    Mirrors (run step (booted config clock) ops) (recovered (booted config' clock')
      (some ((run step (booted config clock) ops).queues.journal.seq,
        snapshot (run step (booted config clock) ops)))
      (run step (booted config clock) ops).queues.journal.records) := by
  rw [recovered_last]
  exact restored_mirrors (run_routed ops) tied _

theorem start_inStep : InStep config config' clock clock' [] := by
  intro early file inside taken
  obtain rfl := List.prefix_nil.mp inside
  have routed : Routed (booted config clock) := booted_routed
  have tied : Tied (booted config clock) := fun _ member => absurd member List.not_mem_nil
  rcases taken with ⟨rfl, _⟩ | rfl
  · rw [recovered_replayed, laterOps, run_nil, booted_queues]
    refine ⟨⟨rfl, fun _ => Iff.rfl⟩, ?_, tied, tied, List.nodup_nil, booted_rebuilt.1⟩
    rw [booted_queues]
    rfl
  · exact last_mirrors tied

/-- A sheltered operation keeps every recovery in step. -/
theorem InStep.snoc {ops : List BrokerOp} {op : BrokerOp}
    (inStep : InStep config config' clock clock' ops)
    (sheltered : Sheltered (run step (booted config clock) ops) op) :
    InStep config config' clock clock' (ops ++ [op]) := by
  -- Every file that was there before stays good for the records that are added.
  have kept : ∀ early file, early <+: ops → TakenAt (booted config clock) early file →
      Mirrors (run step (booted config clock) (ops ++ [op])) (recovered (booted config' clock') file
        (run step (booted config clock) (ops ++ [op])).queues.journal.records) := by
    intro early file inside taken
    obtain ⟨more, journal, mirrors⟩ :=
      (inStep early file inside taken).step (run_routed ops) sheltered
    have split := laterOps_split inside taken
    have split' := laterOps_split (inside.trans (List.prefix_append ops [op])) taken
    have last : run step (booted config clock) (ops ++ [op]) =
      step (run step (booted config clock) ops) op := run_append
    rw [last, journal, split, List.append_assoc, List.append_right_inj] at split'
    rw [recovered_replayed, ← replayed_append, split', ← last] at mirrors
    rw [recovered_replayed]
    exact mirrors
  intro early file inside taken
  rcases List.prefix_concat_iff.mp inside with rfl | inside
  · rcases taken with ⟨_, impossible⟩ | rfl
    · exact absurd impossible (by simp)
    · exact last_mirrors (kept [] none List.nil_prefix (.inl ⟨rfl, rfl⟩)).tied
  · exact kept early file inside taken

/-- An operation that is not sheltered makes some recovery differ. -/
theorem InStep.sheltered {ops : List BrokerOp} {op : BrokerOp}
    (inStep : InStep config config' clock clock' ops)
    (recovers : Recovers config config' clock clock' (ops ++ [op])) :
    Sheltered (run step (booted config clock) ops) op := by
  by_contra exposed
  have taken : TakenAt (booted config clock) [] none := .inl ⟨rfl, rfl⟩
  have mirrors := inStep [] none List.nil_prefix taken
  have last : run step (booted config clock) (ops ++ [op]) =
    step (run step (booted config clock) ops) op := run_append
  rcases unsheltered (run_routed ops) mirrors.tied exposed with overbinds | dangling
  · obtain ⟨same, _⟩ := recovers [] none List.nil_prefix taken
    have split := laterOps_split (List.nil_prefix (l := ops)) taken
    have split' := laterOps_split (List.nil_prefix (l := ops ++ [op])) taken
    obtain ⟨more, grown⟩ := run_grows (run_routed ops).named [op]
    rw [← run_append] at grown
    rw [grown, split, List.append_assoc, List.append_right_inj] at split'
    have root : defaultExchange ∈ (recovered (booted config' clock') none
        (run step (booted config clock) ops).queues.journal.records).exchanges :=
      mirrors.same.mem.mpr (Dict.mem_of_get? (run_routed ops).root)
    refine overbinds.differs root (last ▸ grown) ?_
    rw [recovered_replayed, ← split', last] at same
    rw [recovered_replayed, ← replayed_append]
    exact same
  · obtain ⟨same, _⟩ := recovers (ops ++ [op]) (some _) (List.prefix_refl _) (.inr rfl)
    rw [recovered_last] at same
    exact dangling (last ▸ same.tied (run_routed _))

/-- **Recovery preserves routing.** After every part of a run, recovery from the
whole journal and from every snapshot taken in it leads to the exchanges and
bindings of the live broker exactly if every operation is sheltered. -/
theorem recovery_preserves_routing_iff (config config' : EngineConfig) (clock clock' : Nat → ℚ)
    (ops : List BrokerOp) :
    (∀ before, before <+: ops → Recovers config config' clock clock' before) ↔
      Allowed step Sheltered (booted config clock) ops := by
  have both : ((∀ before, before <+: ops → Recovers config config' clock clock' before) ↔
      Allowed step Sheltered (booted config clock) ops) ∧
      (Allowed step Sheltered (booted config clock) ops → InStep config config' clock clock' ops) := by
    induction ops using List.reverseRecOn with
    | nil =>
      have start : InStep config config' clock clock' [] := start_inStep
      refine ⟨iff_of_true (fun before inside => ?_) trivial, fun _ => start⟩
      rw [List.prefix_nil.mp inside]
      exact start.recovers
    | append_singleton ops op ih =>
      obtain ⟨exact', inStep⟩ := ih
      rw [Allowed.append]
      refine ⟨⟨fun all => ?_, ?_⟩, ?_⟩
      · have early := exact'.mp fun before inside => all before (inside.trans (List.prefix_append ops [op]))
        exact ⟨early, (inStep early).sheltered (all _ (List.prefix_refl _)), trivial⟩
      · rintro ⟨early, sheltered, _⟩ before inside
        rcases List.prefix_concat_iff.mp inside with rfl | inside
        · exact ((inStep early).snoc sheltered).recovers
        · exact exact'.mpr early before inside
      · rintro ⟨early, sheltered, _⟩
        exact (inStep early).snoc sheltered
  exact both.1

/-- Recovery binds the DLQ of a queue that was declared. The live broker does not. -/
theorem recovered_dlq_bound :
    (recovered (booted {} fun _ => 0) none (run step (booted {} fun _ => 0)
      [.declareQueue "jobs" {}]).queues.journal.records).routeTargets "" "jobs.DLQ" = ["jobs.DLQ"] ∧
    (run step (booted {} fun _ => 0) [.declareQueue "jobs" {}]).routeTargets "" "jobs.DLQ" = [] ∧
    ¬ Recovers {} {} (fun _ => 0) (fun _ => 0) [.declareQueue "jobs" {}] := by
  have copy : (recovered (booted {} fun _ => 0) none (run step (booted {} fun _ => 0)
      [.declareQueue "jobs" {}]).queues.journal.records).routeTargets "" "jobs.DLQ" = ["jobs.DLQ"] := by
    decide +kernel
  have live : (run step (booted {} fun _ => 0) [.declareQueue "jobs" {}]).routeTargets ""
      "jobs.DLQ" = [] := by
    decide +kernel
  refine ⟨copy, live, fun recovers => ?_⟩
  have same := (recovers [] none List.nil_prefix (.inl ⟨rfl, rfl⟩)).2 "" "jobs.DLQ"
  rw [copy, live] at same
  cases same

end OneOpenBroker.Persistence

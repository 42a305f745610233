import OneOpenBroker.Security.Front

/-! What a monitor's requests change. Two runs of the broker are compared of
which one has further requests by monitors. -/
namespace OneOpenBroker.Security
open Programs Program Collections OneOpenBroker.Untyped

variable {handler : Handler}

/-- The request's command selects this method. -/
def Asked.asks (handler : Handler) (asked : Asked) (method : String) : Bool :=
  match field asked.metadata "cmd" with
  | .text cmd => handler.mapping.lower cmd = text method
  | _ => false

/-- A request of both runs for anything but the statistics, by another principal
than a monitor. -/
def Step.compared (handler : Handler) (step : Step) : Bool :=
  match step.move with
  | .request _ principal asked =>
    !step.extra && !asked.asks handler "stats" && !principal.any (·.role = .monitor)
  | _ => false

/-- The answers to the requests that are compared. A connection that has ended
gets none. -/
def answers (handler : Handler) : Front → List Step → List (Except Raised Reply)
  | _, [] => []
  | front, step :: rest =>
    let later := answers handler (front.step handler step) rest
    match step.move with
    | .request connectionId _ asked =>
      if step.compared handler && decide (connectionId ∈ front.contexts) then
        (front.handle handler connectionId asked).1 :: later
      else later
    | _ => later

/-- The run without the further requests. -/
def shared (steps : List Step) : List Step := steps.filter (!·.extra)

/-- The further requests are by monitors. -/
def ByMonitors (steps : List Step) : Prop :=
  ∀ step ∈ steps, step.extra = true → ∃ connectionId principal asked,
    step.move = .request connectionId (some principal) asked ∧ principal.role = .monitor

/-- A further request that lists the channels, by LIST_CHANNELS or by STATS,
finds counters for every channel that has subscribers. -/
def Counted (handler : Handler) (front : Front) (step : Step) : Prop :=
  match step.move with
  | .request _ _ asked =>
    step.extra = true → (asked.asks handler "list_channels" ∨ asked.asks handler "stats") →
      ∀ channel ∈ front.runtime.handler.pubsub.subs.keys, channel ∈ front.runtime.stats
  | _ => True

/-- A further request does not end its connection. -/
def Stays (handler : Handler) (front : Front) (step : Step) : Prop :=
  match step.move with
  | .request connectionId _ asked =>
    step.extra = true → connectionId ∈ front.contexts →
      front.ends handler step connectionId asked = false
  | _ => True

/-- A request that fails to authenticate is the fifth of its connection in both
states or in neither. -/
def SameFailures (handler : Handler) (front other : Front) (step : Step) : Prop :=
  match step.move with
  | .request connectionId _ asked =>
    handler.rejects (front.context connectionId).principal asked.metadata = true →
      (4 ≤ (front.context connectionId).authFailures ↔ 4 ≤ (other.context connectionId).authFailures)
  | _ => True

/-- The two runs side by side: the requests of both that fail to authenticate are
the fifth in both or in neither. -/
def SideBySide (handler : Handler) : Front → Front → List Step → Prop
  | _, _, [] => True
  | front, other, step :: rest =>
    if step.extra then SideBySide handler (front.step handler step) other rest
    else SameFailures handler front other step ∧
      SideBySide handler (front.step handler step) (other.step handler step) rest

/-! ## What a request depends on -/

section Blind

variable {σ : Type} {first second : Session σ}

/-- The same answer, and the same runtime after it. -/
def SameOutcome (a b : Except Raised Reply × Session σ) : Prop :=
  a.1 = b.1 ∧ a.2.runtime = b.2.runtime

theorem SameOutcome.guarded {program : Program (Session σ) Raised Reply}
    (same : SameOutcome (program.exec first) (program.exec second)) :
    SameOutcome ((Handler.guarded program).exec first) ((Handler.guarded program).exec second) := by
  rw [Handler.exec_guarded, Handler.exec_guarded]
  exact ⟨by rw [same.1], same.2⟩

theorem fail_blind (same : first.runtime = second.runtime) (code : ErrorCode) (message : Text) :
    SameOutcome ((fail code message).exec first) ((fail code message).exec second) := by
  rw [Handler.exec_fail, Handler.exec_fail]
  exact ⟨rfl, same⟩

theorem respond_blind (same : first.runtime = second.runtime) (extra : List (String × Value)) :
    SameOutcome ((respond extra).exec first) ((respond extra).exec second) := by
  rw [exec_respond, exec_respond]
  exact ⟨rfl, same⟩

/-- What is done to the context does not show. -/
theorem setContext_blind {program : Program (Session σ) Raised Reply}
    (change : ConnectionContext → ConnectionContext)
    (blind : ∀ first second : Session σ, first.runtime = second.runtime →
      SameOutcome (program.exec first) (program.exec second))
    (same : first.runtime = second.runtime) :
    SameOutcome ((Handler.setContext change >>= fun _ => program).exec first)
      ((Handler.setContext change >>= fun _ => program).exec second) :=
  blind { first with context := change first.context } { second with context := change second.context }
    same

theorem cmdAuth_blind (same : first.runtime = second.runtime) (metadata : Metadata) :
    SameOutcome ((handler.cmdAuth metadata).exec first) ((handler.cmdAuth metadata).exec second) := by
  have welcomed (principal : Principal) (first second : Session σ)
      (same : first.runtime = second.runtime) : SameOutcome ((Handler.welcome principal).exec first)
        ((Handler.welcome principal).exec second) := respond_blind same _
  unfold Handler.cmdAuth
  split
  · cases authenticate (field metadata "token")
      ((field metadata "username").or (field metadata "user")) (field metadata "password")
      handler.users with
    | error raised => exact ⟨rfl, same⟩
    | ok found =>
      rw [exec_bind_ok exec_ofExcept, exec_bind_ok exec_ofExcept]
      cases found with
      | none => exact setContext_blind _ (fun _ _ same => fail_blind same _ _) same
      | some principal => exact setContext_blind _ (welcomed _) same
  · exact setContext_blind _ (welcomed _) same

/-- An answer depends on the request, the principal and the runtime. -/
theorem handle_blind {request : Handler.Request σ} (same : first.runtime = second.runtime)
    (principal : first.context.principal = second.context.principal) :
    SameOutcome ((handler.handle request).exec first) ((handler.handle request).exec second) := by
  rw [Handler.exec_handle, Handler.exec_handle, principal]
  cases route handler.mapping handler.str handler.enabled second.context.principal
      (field request.metadata "cmd") with
  | missing => exact fail_blind same _ _
  | refused refusal =>
    obtain ⟨code, message⟩ := refusal
    dsimp only
    split
    · exact setContext_blind _ (fun _ _ same => fail_blind same _ _) same
    · exact fail_blind same _ _
  | raises raised => exact SameOutcome.guarded ⟨rfl, same⟩
  | unknown cmd => exact SameOutcome.guarded (fail_blind same _ _)
  | method name =>
    refine SameOutcome.guarded ?_
    unfold Handler.method
    split
    · exact respond_blind same _
    · split
      · exact cmdAuth_blind same _
      · rw [exec_zoom, exec_zoom, same]
        exact ⟨rfl, rfl⟩

end Blind

/-! ## Reading leaves the runtime as it is -/

variable {r : Runtime} {asked : Asked} {principal : Principal} {name : Text} {front : Front}
  {connectionId : String} {step : Step} {steps : List Step}

theorem touch_present {stats : Dict String ChannelStats} {names : List String}
    (present : ∀ name ∈ names, name ∈ stats) : names.foldl touch stats = stats := by
  induction names with
  | nil => rfl
  | cons name rest ih =>
    obtain ⟨first, others⟩ := List.forall_mem_cons.mp present
    rw [List.foldl_cons, touch, if_pos first]
    exact ih others

/-- Where every channel with subscribers has counters, listing makes none. -/
theorem listChannels_leaves
    (counted : ∀ channel ∈ r.handler.pubsub.subs.keys, channel ∈ r.stats) : r.listChannels.2 = r := by
  have present : ∀ name ∈ r.channelNames, name ∈ r.stats := by
    intro name member
    have listed : name ∈ r.handler.pubsub.subs.keys ++ r.stats.keys := by
      simpa [Runtime.channelNames, Core.RoutingEngine.sortedNames] using member
    rcases List.mem_append.mp listed with subscribed | known
    · exact counted name subscribed
    · exact known
  have same := touch_present present
  change { r with stats := r.channelNames.foldl touch r.stats } = r
  rw [same]

/-- The program ends in the state in which it started. -/
def Leaves {σ : Type} (program : Program σ Raised Reply) (s : σ) : Prop := (program.exec s).2 = s

theorem leaves_of_wp {σ : Type} {program : Program σ Raised Reply} {s : σ}
    (holds : wp program (fun _ after => after = s) (fun _ after => after = s) s) : Leaves program s := by
  unfold wp at holds
  unfold Leaves
  split at holds <;> rename_i ran <;> rw [ran] <;> exact holds

theorem respond_wp {σ : Type} {extra : List (String × Value)} {s : σ} :
    wp (respond extra) (fun _ after => after = s) (fun _ after => after = s) s := by
  unfold respond
  rw [wp_ite]
  split <;> rfl

theorem fail_wp {σ : Type} {code : ErrorCode} {message : Text} {s : σ} :
    wp (fail code message) (fun _ after => after = s) (fun _ after => after = s) s := by
  unfold fail
  rw [wp_ite]
  split <;> rfl

theorem cmdQueueInfo_leaves : Leaves asked.cmdQueueInfo r := by
  apply leaves_of_wp
  unfold Asked.cmdQueueInfo
  rw [wp_bind, wp_get, wp_bind, wp_ofExcept]
  cases queueNamed r.handler.queues ((field asked.metadata "name").or (.text [])) with
  | error raised => exact .inr ⟨raised, rfl, rfl⟩
  | ok name =>
    refine .inl ⟨name, rfl, ?_⟩
    cases name.bind (queueInfo r.handler.queues) with
    | none => exact fail_wp
    | some info => exact respond_wp

theorem cmdDlqInfo_leaves : Leaves asked.cmdDlqInfo r := by
  apply leaves_of_wp
  unfold Asked.cmdDlqInfo
  rw [wp_bind, wp_get, wp_bind, wp_ofExcept]
  cases dlqTarget (((field asked.metadata "queue").or (field asked.metadata "name")).or (.text [])) with
  | error raised => exact .inr ⟨raised, rfl, rfl⟩
  | ok target =>
    refine .inl ⟨target, rfl, ?_⟩
    rw [wp_bind, wp_ofExcept]
    cases queueNamed r.handler.queues target with
    | error raised => exact .inr ⟨raised, rfl, rfl⟩
    | ok name =>
      refine .inl ⟨name, rfl, ?_⟩
      cases name.bind (r.handler.queues.dlqInfo asked.reading.layout) with
      | none => exact fail_wp
      | some info => exact respond_wp

/-- The methods that read leave the runtime as it is, except that those that
list the channels may make counters. -/
theorem readers_leave {program : Program Runtime Raised Reply}
    (listed : asked.readers.lookup name = some program)
    (counted : name = text "list_channels" ∨ name = text "stats" →
      ∀ channel ∈ r.handler.pubsub.subs.keys, channel ∈ r.stats) : Leaves program r := by
  have member : (name, program) ∈ asked.readers := by
    obtain ⟨before, after, split, _⟩ := List.lookup_eq_some_iff.mp listed
    rw [split]
    exact List.mem_append_cons_self
  simp only [Asked.readers, List.mem_cons, List.not_mem_nil, or_false, Prod.mk.injEq] at member
  rcases member with ⟨rfl, rfl⟩ | ⟨rfl, rfl⟩ | ⟨rfl, rfl⟩ | ⟨rfl, rfl⟩ | ⟨rfl, rfl⟩ | ⟨rfl, rfl⟩ |
    ⟨rfl, rfl⟩
  · exact leaves_of_wp respond_wp
  · apply leaves_of_wp
    unfold Asked.cmdStats
    rw [wp_bind, wp_modifyGet]
    have same : (r.brokerStats asked.reading).2 = r := listChannels_leaves (counted (.inr rfl))
    rw [same]
    exact respond_wp
  · exact cmdQueueInfo_leaves
  · apply leaves_of_wp
    unfold Asked.cmdListQueues
    rw [wp_bind, wp_get]
    exact respond_wp
  · apply leaves_of_wp
    unfold Asked.cmdListConsumers
    rw [wp_bind, wp_get]
    exact respond_wp
  · apply leaves_of_wp
    unfold Asked.cmdListChannels
    rw [wp_bind, wp_modifyGet, listChannels_leaves (counted (.inl rfl))]
    exact respond_wp
  · exact cmdDlqInfo_leaves

/-- The names of the methods that read. -/
def readerNames : List Text := ["info", "stats", "queue_info", "list_queues", "list_consumers",
  "list_channels", "dlq_info"].map text

/-- A monitor's methods are PING, AUTH and those that read. -/
theorem monitor_methods : ∀ name ∈ methodNames,
    (∀ commands, roleCommands .monitor = some commands → name.map upperAscii ∈ commands) →
      name = text "ping" ∨ name = text "auth" ∨ name ∈ readerNames := by
  simp only [roleCommands, Option.some.injEq, forall_eq']
  decide

theorem readers_lookup (asked : Asked) (reads : name ∈ readerNames) :
    ∃ program, asked.readers.lookup name = some program := by
  have named : asked.readers.map (·.1) = readerNames := rfl
  rw [← named] at reads
  obtain ⟨entry, member, rfl⟩ := List.mem_map.mp reads
  cases found : asked.readers.lookup entry.1 with
  | some program => exact ⟨program, rfl⟩
  | none => simpa using List.lookup_eq_none_iff.mp found entry member

/-- A program of a connection that leaves the runtime as it is. -/
def Spares {σ : Type} (program : Program (Session σ) Raised Reply) : Prop :=
  ∀ session, (program.exec session).2.runtime = session.runtime

section Spares

variable {σ : Type} {program : Program (Session σ) Raised Reply}

theorem fail_spares (code : ErrorCode) (message : Text) : Spares (σ := σ) (fail code message) := by
  intro session
  rw [Handler.exec_fail]

theorem respond_spares (extra : List (String × Value)) : Spares (σ := σ) (respond extra) := by
  intro session
  rw [exec_respond]

theorem setContext_spares (change : ConnectionContext → ConnectionContext) (spares : Spares program) :
    Spares (Handler.setContext change >>= fun _ => program) :=
  fun session => spares { session with context := change session.context }

theorem guarded_spares {session : Session σ}
    (spares : (program.exec session).2.runtime = session.runtime) :
    ((Handler.guarded program).exec session).2.runtime = session.runtime := by
  rw [Handler.exec_guarded]
  exact spares

theorem cmdAuth_spares (metadata : Metadata) : Spares (σ := σ) (handler.cmdAuth metadata) := by
  unfold Handler.cmdAuth
  split
  · cases authenticate (field metadata "token")
      ((field metadata "username").or (field metadata "user")) (field metadata "password")
      handler.users with
    | error raised => exact fun _ => rfl
    | ok found =>
      intro session
      rw [exec_bind_ok exec_ofExcept]
      cases found with
      | none => exact setContext_spares _ (fail_spares _ _) session
      | some principal => exact setContext_spares _ (respond_spares _) session
  · exact setContext_spares _ (respond_spares _)

end Spares

/-- A monitor's request leaves the runtime as it is, unless it lists channels
that have no counters. -/
theorem monitor_spares {principal : Principal} {session : Session Runtime}
    (identity : session.context.principal = some principal) (monitor : principal.role = .monitor)
    (counted : asked.asks handler "list_channels" ∨ asked.asks handler "stats" →
      ∀ channel ∈ session.runtime.handler.pubsub.subs.keys, channel ∈ session.runtime.stats) :
    ((handler.handle asked.request).exec session).2.runtime = session.runtime := by
  rw [Handler.exec_handle, identity]
  cases chosen : route handler.mapping handler.str handler.enabled (some principal)
      (field asked.request.metadata "cmd") with
  | missing => exact fail_spares _ _ session
  | refused refusal =>
    obtain ⟨code, message⟩ := refusal
    dsimp only
    split
    · exact setContext_spares _ (fail_spares _ _) session
    · exact fail_spares _ _ session
  | raises raised => exact guarded_spares rfl
  | unknown cmd => exact guarded_spares (fail_spares _ _ session)
  | method name =>
    obtain ⟨command, given, lowered, known, _⟩ := route_method chosen
    have asks (method : String) (same : name = text method) : asked.asks handler method = true := by
      unfold Asked.asks
      rw [show field asked.metadata "cmd" = .text command from given]
      exact decide_eq_true (lowered.symm.trans same)
    have upper : ∀ commands, roleCommands .monitor = some commands →
        name.map upperAscii ∈ commands := by
      intro commands listed
      rw [← monitor] at listed
      have member := (route_bounded listed chosen).2
      rwa [CaseMapping.upper_of_ascii (methodNames_ascii _ known)] at member
    refine guarded_spares ?_
    unfold Handler.method
    split
    · exact respond_spares _ session
    · split
      · exact cmdAuth_spares _ session
      · rename_i no_ping no_auth
        have reads := ((monitor_methods name known upper).resolve_left no_ping).resolve_left no_auth
        obtain ⟨program, found⟩ := readers_lookup asked reads
        have called : asked.request.call name = program := by
          unfold Asked.request
          dsimp only
          rw [found]
          rfl
        rw [exec_zoom, called]
        exact readers_leave found fun listing => counted (listing.imp (asks _) (asks _))

/-! ## Two runs -/

variable {other : Front} {order : List String}

/-- Two brokers that differ in the principals of their connections and in the
failures that these count. -/
structure Paired (front other : Front) : Prop where
  runtime : front.runtime = other.runtime
  contexts (connectionId : String) : (front.contexts.get? connectionId).map (·.mustClose) =
    (other.contexts.get? connectionId).map (·.mustClose)

theorem Paired.refl (front : Front) : Paired front front := ⟨rfl, fun _ => rfl⟩

theorem Paired.mem (paired : Paired front other) : connectionId ∈ front.contexts ↔ connectionId ∈ other.contexts := by
  have same := congrArg Option.isSome (paired.contexts connectionId)
  rw [Option.isSome_map, Option.isSome_map] at same
  rw [← Dict.isSome_get?, ← Dict.isSome_get?, same]

theorem Paired.mustClose (paired : Paired front other) :
    (front.context connectionId).mustClose = (other.context connectionId).mustClose := by
  have same := paired.contexts connectionId
  unfold Front.context
  cases known : front.contexts.get? connectionId with
  | none => cases known' : other.contexts.get? connectionId <;> simp_all
  | some context => cases known' : other.contexts.get? connectionId <;> simp_all

theorem Paired.connect (paired : Paired front other) :
    Paired (front.connect connectionId) (other.connect connectionId) := by
  refine ⟨?_, fun id => ?_⟩
  · rw [Front.connect, Front.connect, paired.runtime]
  · by_cases same : id = connectionId
    · simp [Front.connect, same]
    · simpa [Front.connect, Dict.get?_set_ne same] using paired.contexts id

theorem Paired.drop (paired : Paired front other) :
    Paired (front.drop connectionId order) (other.drop connectionId order) := by
  refine ⟨?_, fun id => ?_⟩
  · rw [Front.drop, Front.drop, paired.runtime]
  · by_cases same : id = connectionId
    · simp [Front.drop, same]
    · simpa [Front.drop, Dict.get?_erase_ne same] using paired.contexts id

/-- Requests by the same principal are handled alike. -/
theorem Paired.handle (paired : Paired front other)
    (principal : (front.context connectionId).principal = (other.context connectionId).principal)
    (failures : handler.rejects (front.context connectionId).principal asked.metadata = true →
      (4 ≤ (front.context connectionId).authFailures ↔ 4 ≤ (other.context connectionId).authFailures)) :
    (front.handle handler connectionId asked).1 = (other.handle handler connectionId asked).1 ∧
      Paired (front.handle handler connectionId asked).2 (other.handle handler connectionId asked).2 := by
  have alike : SameOutcome ((handler.handle asked.request).exec (front.session connectionId))
      ((handler.handle asked.request).exec (other.session connectionId)) :=
    handle_blind paired.runtime principal
  refine ⟨alike.1, alike.2, fun id => ?_⟩
  by_cases same : id = connectionId
  · subst same
    have closes : ((front.handle handler id asked).2.context id).mustClose =
        ((other.handle handler id asked).2.context id).mustClose := by
      rw [Front.handle_context, Front.handle_context, paired.mustClose, ← principal]
      cases rejects : handler.rejects (front.context id).principal asked.metadata with
      | false => rfl
      | true => simp [failures rejects]
    simpa [Front.handle, Front.context] using closes
  · simpa [Front.handle, Dict.get?_set_ne same] using paired.contexts id

/-- A connection ends with the same requests. -/
theorem Paired.ends (paired : Paired front other)
    (principal : (front.context connectionId).principal = (other.context connectionId).principal)
    (failures : handler.rejects (front.context connectionId).principal asked.metadata = true →
      (4 ≤ (front.context connectionId).authFailures ↔ 4 ≤ (other.context connectionId).authFailures)) :
    front.ends handler step connectionId asked = other.ends handler step connectionId asked := by
  unfold Front.ends
  dsimp only
  rw [paired.mustClose, ← principal]
  cases rejects : handler.rejects (front.context connectionId).principal asked.metadata with
  | false => rfl
  | true => simp [failures rejects]

/-- A further request that does not end its connection leaves the broker paired. -/
theorem Paired.extra (paired : Paired front other) (extra : step.extra = true)
    (monitor : ∃ connectionId principal asked,
      step.move = .request connectionId (some principal) asked ∧ principal.role = .monitor)
    (issued : Issued front step) (counted : Counted handler front step) (stays : Stays handler front step) :
    Paired (front.step handler step) other := by
  obtain ⟨connectionId, principal, asked, moved, role⟩ := monitor
  simp only [Issued, moved] at issued
  simp only [Counted, moved] at counted
  simp only [Stays, moved] at stays
  simp only [Front.step, moved]
  split
  · rename_i opened
    have goes := stays extra opened
    rw [Front.serve_ends, if_neg (by simp [goes])]
    refine ⟨(monitor_spares (issued opened) role (counted extra)).trans paired.runtime, fun id => ?_⟩
    by_cases same : id = connectionId
    · subst same
      have before : (front.context id).mustClose = false := by
        simp only [Front.ends, Bool.or_eq_false_iff] at goes
        exact goes.1.1.2
      have after : ((front.handle handler id asked).2.context id).mustClose = false := by
        rw [Front.handle_context, before]
        simp only [Front.ends, Bool.or_eq_false_iff] at goes
        exact goes.2
      rw [← paired.contexts id]
      obtain ⟨context, known⟩ := Dict.mem_iff.mp opened
      simp only [Front.context, known, Option.getD_some] at before
      rw [known, Option.map_some, before]
      simpa [Front.handle, Front.context] using after
    · simpa [Front.handle, Dict.get?_set_ne same] using paired.contexts id
  · exact paired

/-- A move of both runs leaves them paired. -/
theorem Paired.both (paired : Paired front other) (issued : Issued front step) (issued' : Issued other step)
    (failures : SameFailures handler front other step) :
    Paired (front.step handler step) (other.step handler step) := by
  obtain ⟨extra, queued, order, move⟩ := step
  cases move with
  | connect connectionId => exact paired.connect
  | drop connectionId =>
    dsimp only [Front.step]
    rw [if_congr paired.mem rfl rfl]
    split
    · exact paired.drop
    · exact paired
  | background change => exact ⟨congrArg change paired.runtime, paired.contexts⟩
  | request connectionId principal asked =>
    dsimp only [Front.step]
    rw [if_congr paired.mem rfl rfl]
    split
    · rename_i opened
      have same := (issued (paired.mem.mpr opened)).trans (issued' opened).symm
      have handled := (paired.handle same failures).2
      rw [Front.serve_ends, Front.serve_ends, paired.ends same failures]
      split
      · exact handled.drop
      · exact handled
    · exact paired

/-- Paired runs that differ in requests by monitors have the same answers. -/
theorem answers_alike (paired : Paired front other) (monitors : ByMonitors steps)
    (issued : Systems.Allowed (Front.step handler) Issued front steps)
    (issued' : Systems.Allowed (Front.step handler) Issued other (shared steps))
    (counted : Systems.Allowed (Front.step handler) (Counted handler) front steps)
    (stays : Systems.Allowed (Front.step handler) (Stays handler) front steps)
    (together : SideBySide handler front other steps) :
    answers handler front steps = answers handler other (shared steps) := by
  induction steps generalizing front other with
  | nil => rfl
  | cons step rest ih =>
    obtain ⟨monitor, monitors⟩ := List.forall_mem_cons.mp monitors
    obtain ⟨here, issued⟩ := issued
    obtain ⟨listed, counted⟩ := counted
    obtain ⟨remains, stays⟩ := stays
    unfold SideBySide at together
    by_cases extra : step.extra = true
    · -- The longer run moves alone, and its answer is not compared.
      have skipped : shared (step :: rest) = shared rest := List.filter_cons_of_neg (by simp [extra])
      have ignored : step.compared handler = false := by
        unfold Step.compared
        split <;> simp [extra]
      rw [if_pos extra] at together
      rw [skipped] at issued' ⊢
      have kept := paired.extra extra (monitor extra) here listed remains
      rw [← ih kept monitors issued issued' counted stays together, answers]
      split
      · rw [ignored]
        rfl
      · rfl
    · have taken : shared (step :: rest) = step :: shared rest :=
        List.filter_cons_of_pos (by simp [extra])
      rw [if_neg extra] at together
      obtain ⟨failures, together⟩ := together
      rw [taken] at issued' ⊢
      obtain ⟨here', issued'⟩ := issued'
      have later := ih (paired.both here here' failures) monitors issued issued' counted stays together
      rw [answers, answers, later]
      split
      · rename_i connectionId principal asked moved
        by_cases opened : connectionId ∈ front.contexts
        · simp only [Issued, moved] at here here'
          simp only [SameFailures, moved] at failures
          have same := (here opened).trans (here' (paired.mem.mp opened)).symm
          rw [(paired.handle same failures).1, decide_eq_decide.mpr paired.mem]
        · have closed : connectionId ∉ other.contexts := fun there => opened (paired.mem.mpr there)
          simp [opened, closed]
      · rfl

instance (front : Front) : ∀ step, Decidable (Issued front step)
  | ⟨_, _, _, .request connectionId principal _⟩ =>
    inferInstanceAs (Decidable (connectionId ∈ front.contexts →
      (front.context connectionId).principal = principal))
  | ⟨_, _, _, .connect _⟩ => .isTrue trivial
  | ⟨_, _, _, .drop _⟩ => .isTrue trivial
  | ⟨_, _, _, .background _⟩ => .isTrue trivial

instance (front : Front) : ∀ step, Decidable (Counted handler front step)
  | ⟨extra, _, _, .request _ _ asked⟩ => inferInstanceAs (Decidable (extra = true →
      (asked.asks handler "list_channels" ∨ asked.asks handler "stats") →
        ∀ channel ∈ front.runtime.handler.pubsub.subs.keys, channel ∈ front.runtime.stats))
  | ⟨_, _, _, .connect _⟩ => .isTrue trivial
  | ⟨_, _, _, .drop _⟩ => .isTrue trivial
  | ⟨_, _, _, .background _⟩ => .isTrue trivial

instance (front : Front) : ∀ step, Decidable (Stays handler front step)
  | ⟨extra, queued, order, .request connectionId principal asked⟩ => inferInstanceAs (Decidable
      (extra = true → connectionId ∈ front.contexts → front.ends handler
        ⟨extra, queued, order, .request connectionId principal asked⟩ connectionId asked = false))
  | ⟨_, _, _, .connect _⟩ => .isTrue trivial
  | ⟨_, _, _, .drop _⟩ => .isTrue trivial
  | ⟨_, _, _, .background _⟩ => .isTrue trivial

instance (front other : Front) : ∀ step, Decidable (SameFailures handler front other step)
  | ⟨_, _, _, .request connectionId _ asked⟩ => inferInstanceAs (Decidable
      (handler.rejects (front.context connectionId).principal asked.metadata = true →
        (4 ≤ (front.context connectionId).authFailures ↔ 4 ≤ (other.context connectionId).authFailures)))
  | ⟨_, _, _, .connect _⟩ => .isTrue trivial
  | ⟨_, _, _, .drop _⟩ => .isTrue trivial
  | ⟨_, _, _, .background _⟩ => .isTrue trivial

instance decidableSideBySide : ∀ (steps : List Step) (front other : Front),
    Decidable (SideBySide handler front other steps)
  | [], _, _ => .isTrue trivial
  | step :: rest, front, other =>
    have := decidableSideBySide rest (front.step handler step) other
    have := decidableSideBySide rest (front.step handler step) (other.step handler step)
    inferInstanceAs (Decidable (if step.extra then SideBySide handler (front.step handler step) other rest
      else SameFailures handler front other step ∧
        SideBySide handler (front.step handler step) (other.step handler step) rest))

def reader : Principal := ⟨text "reader", .subscriber⟩

def ops : Principal := ⟨text "ops", .monitor⟩

def desk : Handler where
  enabled := true
  users := [⟨reader.name, text "r", [], reader.role, .inl (by decide)⟩,
    ⟨ops.name, text "o", [], ops.role, .inl (by decide)⟩]
  mapping := latin
  str _ := text "[]"

def opened : Front where
  runtime := { handler := .created {} (fun _ => 0) fun _ => true }

/-- A request with a command, and with a token for AUTH. -/
def ask (cmd : String) (commands : Text → Program Runtime Raised Reply) (token : String) : Asked where
  metadata := ((∅ : Metadata).set (text "cmd") (string cmd)).set (text "token") (string token)
  reading :=
    { version := text "1", host := text "127.0.0.1", port := 7011, uptime := 0, connections := 2
      totalConnections := 2, bytesReceived := 0, bytesSent := 0, aofSize := 0, snapshotSize := 0
      age := fun _ => 0, lastActivity := fun _ => 0, layout := id }
  commands

def login (connectionId token : String) : Step where
  move := .request connectionId none
    (ask "AUTH" (fun _ => Runtime.answer (.ok .none)) token)

def readerAsks (cmd : String) (command : Broker.Command) : Step where
  move := .request "r" (some reader) (ask cmd (fun _ => perform "r" command) "")

def opsAsks (cmd : String) : Step where
  extra := true
  move := .request "o" (some ops) (ask cmd (fun _ => Runtime.answer (.ok .none)) "")

def channelsListed : Except Raised Reply → Option Nat
  | .ok (.ok [("channels", .list channels)]) => some channels.length
  | _ => none

/-- The monitor looks at a channel that has had a message, and mistakes a token. -/
def counted : List Step := [
  { move := .connect "r" }, { move := .connect "o" }, login "r" "r", login "o" "o",
  readerAsks "SUBSCRIBE" (.subscribe "news"), readerAsks "PUBLISH_CHANNEL" (.publishChannel "news"),
  opsAsks "list_channels", opsAsks "STATS", opsAsks "PUBLISH", opsAsks "AUTH",
  readerAsks "UNSUBSCRIBE" (.unsubscribe "news"), { move := .drop "o" },
  readerAsks "LIST_CHANNELS" (.unsubscribe "")]

theorem counted_by_monitors : ByMonitors counted := by
  simp [ByMonitors, counted, login, readerAsks, opsAsks, ops]

/-- The monitor looks at a channel that nobody has published on. -/
def peeked : List Step := [
  { move := .connect "r" }, { move := .connect "o" }, login "r" "r", login "o" "o",
  readerAsks "SUBSCRIBE" (.subscribe "news"), opsAsks "LIST_CHANNELS",
  readerAsks "UNSUBSCRIBE" (.unsubscribe "news"), readerAsks "LIST_CHANNELS" (.unsubscribe "")]

/-- A subscriber becomes a monitor on its connection, which fails to authenticate
five times there before another subscriber publishes. -/
def dismissed : List Step := [
  { move := .connect "r" }, { move := .connect "p" }, login "r" "r", login "p" "r",
  readerAsks "SUBSCRIBE" (.subscribe "news"),
  { move := .request "r" (some reader) (ask "AUTH" (fun _ => Runtime.answer (.ok .none)) "o") }] ++
  List.replicate 5 { extra := true
                     move := .request "r" (some ops) (ask "AUTH" (fun _ => Runtime.answer (.ok .none)) "x") } ++
  [{ move := .request "p" (some reader)
      (ask "PUBLISH_CHANNEL" (fun _ => perform "p" (.publishChannel "news")) "") }]

def deliveredTo : Except Raised Reply → Option ℤ
  | .ok (.ok (("delivered", .number (.int n)) :: _)) => some n
  | _ => none

end OneOpenBroker.Security

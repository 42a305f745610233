import OneOpenBroker.Security.Monitor

/-! Where the right to an effect comes from. A connection's principal is vouched
for by an AUTH of that connection, with the credentials of a configured user,
and what a request does to the runtime it does in the name of that user, whose
role has its command. This holds of any number of connections and whatever else
happens to the runtime between their requests. -/
namespace OneOpenBroker.Security
open Programs Program Collections Systems OneOpenBroker.Untyped

/-- `Principal(name=user.name, role=user.role)`. -/
def AuthUser.principal (user : AuthUser) : Principal := ⟨user.name, user.role⟩

variable {σ : Type} {handler : Handler} {request : Handler.Request σ} {session : Session σ}
  {metadata : Metadata} {users : List AuthUser} {principal : Principal} {secret : AuthUser → Text}
  {given : Value}

/-! ## Credentials -/

/-- The principal that the loop makes is that of a user whose secret was given. -/
theorem findUser_principal (found : findUser secret given users = .ok (some principal)) :
    ∃ user ∈ users, secret user ≠ [] ∧ given = .text (secret user) ∧ user.principal = principal := by
  induction users with
  | nil => cases found
  | cons user rest ih =>
    have later (found : findUser secret given rest = .ok (some principal)) :
        ∃ other ∈ user :: rest, secret other ≠ [] ∧ given = .text (secret other) ∧ other.principal = principal := by
      obtain ⟨other, member, facts⟩ := ih found
      exact ⟨other, List.mem_cons_of_mem _ member, facts⟩
    unfold findUser at found
    split at found
    · exact later found
    · rename_i nonempty
      cases equal : digest given (secret user) with
      | error raised =>
        rw [equal] at found
        cases found
      | ok same =>
        rw [equal] at found
        cases same with
        | true =>
          refine ⟨user, List.mem_cons_self, nonempty, digest_true equal, ?_⟩
          exact Option.some.inj (Except.ok.inj found)
        | false => exact later found

theorem authenticate_principal
    (found : authenticate (field metadata "token")
      ((field metadata "username").or (field metadata "user")) (field metadata "password") users =
        .ok (some principal)) :
    ∃ user ∈ users, user.Matches metadata ∧ user.principal = principal := by
  unfold authenticate at found
  split at found
  · rename_i token
    obtain ⟨user, member, nonempty, same, made⟩ := findUser_principal found
    refine ⟨user, member, ?_, made⟩
    rw [AuthUser.Matches, if_pos token]
    exact ⟨nonempty, same⟩
  · rename_i token
    split at found
    · rename_i named
      obtain ⟨user, member, nonempty, same, made⟩ := findUser_principal found
      obtain ⟨listed, known⟩ := List.mem_filter.mp member
      have username := named_eq known
      refine ⟨user, listed, ?_, made⟩
      rw [AuthUser.Matches, if_neg token]
      refine ⟨?_, username, nonempty, same⟩
      rw [username] at named
      exact of_decide_eq_true (Bool.and_eq_true_iff.mp named).1
    · cases found

/-! ## One request -/

/-- The request authenticates its connection as a user. -/
def Handler.Authenticates (handler : Handler) (request : Handler.Request σ) (principal : Principal) : Prop :=
  handler.Asks request "auth" ∧ ∃ user ∈ handler.users, user.Matches request.metadata ∧ user.principal = principal

/-- The role allows the command of the request. -/
def Handler.Allows (handler : Handler) (request : Handler.Request σ) (role : Role) : Prop :=
  ∃ command, field request.metadata "cmd" = .text command ∧
    ∀ commands, roleCommands role = some commands → handler.mapping.upper command ∈ commands

namespace Handler

theorem cmdAuth_principal (enabled : handler.enabled = true)
    (new : ((handler.cmdAuth metadata).exec session).2.context.principal = some principal) :
    session.context.principal = some principal ∨
      ∃ user ∈ handler.users, user.Matches metadata ∧ user.principal = principal := by
  unfold cmdAuth at new
  rw [if_pos enabled] at new
  cases tried : authenticate (field metadata "token")
      ((field metadata "username").or (field metadata "user")) (field metadata "password")
      handler.users with
  | error raised =>
    rw [tried] at new
    exact .inl new
  | ok found =>
    rw [tried, exec_bind_ok exec_ofExcept] at new
    cases found with
    | none =>
      change ((fail .unauthorized (text "invalid credentials")).exec
        { session with context := session.context.fail }).2.context.principal = _ at new
      rw [exec_fail] at new
      exact .inl new
    | some made =>
      change ((welcome made).exec { session with
        context := { session.context with principal := some made, authFailures := 0 } }).2.context.principal = _
        at new
      rw [welcome, exec_respond] at new
      obtain ⟨user, member, matches', rfl⟩ := authenticate_principal tried
      exact .inr ⟨user, member, matches', Option.some.inj new⟩

/-- A request leaves the principal of its connection, or it authenticates it. -/
theorem handle_principal (enabled : handler.enabled = true)
    (new : ((handler.handle request).exec session).2.context.principal = some principal) :
    session.context.principal = some principal ∨ handler.Authenticates request principal := by
  rw [exec_handle] at new
  cases chosen : route handler.mapping handler.str handler.enabled session.context.principal
      (field request.metadata "cmd") with
  | missing =>
    rw [chosen] at new
    dsimp only at new
    rw [exec_fail] at new
    exact .inl new
  | refused refusal =>
    obtain ⟨code, message⟩ := refusal
    rw [chosen] at new
    dsimp only at new
    split at new
    · change ((fail code message).exec { session with context := session.context.fail }).2.context.principal = _
        at new
      rw [exec_fail] at new
      exact .inl new
    · change ((fail code message).exec session).2.context.principal = _ at new
      rw [exec_fail] at new
      exact .inl new
  | raises raised =>
    rw [chosen] at new
    dsimp only at new
    rw [exec_guarded] at new
    exact .inl new
  | unknown cmd =>
    rw [chosen] at new
    dsimp only at new
    rw [exec_guarded, exec_fail] at new
    exact .inl new
  | method name =>
    rw [chosen] at new
    dsimp only at new
    rw [exec_guarded] at new
    obtain ⟨command, asked, lowered, _⟩ := route_method chosen
    unfold method at new
    split at new
    · rw [cmdPing, exec_respond] at new
      exact .inl new
    · split at new
      · rename_i auth
        refine (cmdAuth_principal enabled new).imp_right fun known => ⟨⟨command, asked, ?_⟩, known⟩
        rw [← lowered, auth]
      · exact .inl new

/-- What changes the runtime is a command of the role of a principal. -/
theorem handle_effect (enabled : handler.enabled = true)
    (changed : ((handler.handle request).exec session).2.runtime ≠ session.runtime) :
    ∃ principal, session.context.principal = some principal ∧ handler.Allows request principal.role := by
  have stays {program : Program (Session σ) Raised Reply} {session' : Session σ}
      (spares : Spares program) (same : session'.runtime = session.runtime) :
      (program.exec session').2.runtime = session.runtime := (spares session').trans same
  rw [exec_handle] at changed
  cases chosen : route handler.mapping handler.str handler.enabled session.context.principal
      (field request.metadata "cmd") with
  | missing =>
    rw [chosen] at changed
    exact absurd (stays (fail_spares _ _) rfl) changed
  | refused refusal =>
    obtain ⟨code, message⟩ := refusal
    rw [chosen] at changed
    dsimp only at changed
    split at changed
    · exact absurd (setContext_spares _ (fail_spares _ _) session) changed
    · exact absurd (fail_spares _ _ session) changed
  | raises raised =>
    rw [chosen] at changed
    exact absurd (guarded_spares rfl) changed
  | unknown cmd =>
    rw [chosen] at changed
    exact absurd (guarded_spares (fail_spares _ _ session)) changed
  | method name =>
    rw [chosen] at changed
    obtain ⟨command, asked, rfl, _, allowed⟩ := route_method chosen
    cases known : session.context.principal with
    | some principal =>
      refine ⟨principal, rfl, command, asked, fun commands bounded => ?_⟩
      rw [known] at allowed
      exact authorize_bounded bounded allowed
    | none =>
      rw [known, enabled] at chosen
      obtain ⟨either, _⟩ := route_stranger chosen
      refine absurd (guarded_spares ?_) changed
      unfold method
      rcases either with ping | auth
      · rw [if_pos ping]
        exact respond_spares _ session
      · rw [auth, if_neg (by decide), if_pos rfl]
        exact cmdAuth_spares _ session

end Handler

/-! ## Runs -/

variable {front : Front} {history : List Step} {connectionId : String}

/-- An AUTH of the connection since it was opened, as this principal. -/
def Vouched (handler : Handler) (history : List Step) (connectionId : String) (principal : Principal) : Prop :=
  ∃ early step late, history = early ++ step :: late ∧
    (∃ issuer asked, step.move = .request connectionId issuer asked ∧
      handler.Authenticates asked.request principal) ∧
    ∀ later ∈ late, later.move ≠ .connect connectionId

theorem Vouched.more {step : Step} (vouched : Vouched handler history connectionId principal)
    (open' : step.move ≠ .connect connectionId) : Vouched handler (history ++ [step]) connectionId principal := by
  obtain ⟨early, auth, late, rfl, asks, since⟩ := vouched
  refine ⟨early, auth, late ++ [step], by simp, asks, fun later listed => ?_⟩
  rcases List.mem_append.mp listed with before | last
  · exact since later before
  · rw [List.mem_singleton.mp last]
    exact open'

/-- The principals of all connections are vouched for. -/
def AllVouched (handler : Handler) (history : List Step) (front : Front) : Prop :=
  ∀ connectionId principal, (front.context connectionId).principal = some principal →
    Vouched handler history connectionId principal

theorem AllVouched.stays (vouched : AllVouched handler history front) {step : Step} {after : Front}
    (open' : ∀ connectionId, step.move ≠ .connect connectionId)
    (known : ∀ connectionId principal, (after.context connectionId).principal = some principal →
      (front.context connectionId).principal = some principal) :
    AllVouched handler (history ++ [step]) after :=
  fun connectionId principal held =>
    (vouched connectionId principal (known connectionId principal held)).more (open' connectionId)

theorem AllVouched.drop (vouched : AllVouched handler history front) {order : List String} :
    AllVouched handler history (front.drop connectionId order) := by
  intro id principal known
  by_cases here : id = connectionId
  · simp [Front.context, Front.drop, here] at known
  · refine vouched id principal ?_
    simpa [Front.context, Front.drop, Dict.get?_erase_ne here] using known

theorem AllVouched.handle (vouched : AllVouched handler history front) (enabled : handler.enabled = true)
    {step : Step} {issuer : Option Principal} {asked : Asked}
    (moved : step.move = .request connectionId issuer asked) :
    AllVouched handler (history ++ [step]) (front.handle handler connectionId asked).2 := by
  have open' (id : String) : step.move ≠ .connect id := by simp [moved]
  intro id principal known
  by_cases here : id = connectionId
  · subst here
    have new : ((handler.handle asked.request).exec (front.session id)).2.context.principal =
        some principal := by
      simpa [Front.context, Front.handle] using known
    rcases Handler.handle_principal enabled new with before | auth
    · exact (vouched id principal before).more (open' id)
    · exact ⟨history, step, [], rfl, ⟨issuer, asked, moved, auth⟩, by simp⟩
  · have before : (front.context id).principal = some principal := by
      simpa [Front.context, Front.handle, Dict.get?_set, here] using known
    exact (vouched id principal before).more (open' id)

theorem AllVouched.step (vouched : AllVouched handler history front) (enabled : handler.enabled = true)
    (step : Step) : AllVouched handler (history ++ [step]) (front.step handler step) := by
  obtain ⟨extra, queued, order, move⟩ := step
  cases move with
  | background change => exact vouched.stays (by simp) fun _ _ known => known
  | drop connectionId =>
    dsimp only [Front.step]
    have left : AllVouched handler (history ++ [⟨extra, queued, order, .drop connectionId⟩]) front :=
      vouched.stays (by simp) fun _ _ known => known
    split
    · exact left.drop
    · exact left
  | connect opened =>
    intro connectionId principal known
    by_cases here : connectionId = opened
    · subst here
      change ((front.connect connectionId).context connectionId).principal = _ at known
      simp [Front.context, Front.connect] at known
    · have before : (front.context connectionId).principal = some principal := by
        change ((front.connect opened).context connectionId).principal = _ at known
        simpa [Front.context, Front.connect, Dict.get?_set, here] using known
      refine (vouched connectionId principal before).more fun same => here ?_
      exact (Move.connect.inj same).symm
  | request asker issuer asked =>
    dsimp only [Front.step]
    split
    · have handled : AllVouched handler (history ++ [⟨extra, queued, order, .request asker issuer asked⟩])
          (front.handle handler asker asked).2 := vouched.handle enabled rfl
      rw [Front.serve_ends]
      split
      · exact handled.drop
      · exact handled
    · exact vouched.stays (by simp) fun _ _ known => known

theorem AllVouched.run (enabled : handler.enabled = true) (steps : List Step)
    (vouched : AllVouched handler history front) :
    AllVouched handler (history ++ steps) (run (Front.step handler) front steps) := by
  induction steps generalizing history front with
  | nil => simpa using vouched
  | cons step rest ih =>
    have later := ih (vouched.step enabled step)
    rwa [List.append_assoc] at later

/-- **Confinement.** With authentication on, a request that changes the runtime
is a command of the role of a user whose credentials the connection presented
since it was opened, and the connection still acts as that user. -/
theorem effects_vouched (enabled : handler.enabled = true) (runtime : Runtime) {before : List Step}
    {asked : Asked} (reached : run (Front.step handler) { runtime } before = front)
    (changed : (front.handle handler connectionId asked).2.runtime ≠ front.runtime) :
    ∃ user ∈ handler.users, (front.context connectionId).principal = some user.principal ∧
      handler.Allows asked.request user.role ∧
      ∃ early auth late, before = early ++ auth :: late ∧
        (∃ issuer request, auth.move = .request connectionId issuer request ∧
          handler.Asks request.request "auth" ∧ user.Matches request.metadata) ∧
        ∀ later ∈ late, later.move ≠ .connect connectionId := by
  obtain ⟨principal, known, allows⟩ := Handler.handle_effect enabled changed
  have nobody : AllVouched handler [] { runtime } := fun _ _ known => by cases known
  have vouched : AllVouched handler before front := by
    have all := nobody.run enabled before
    rwa [reached] at all
  obtain ⟨early, auth, late, split, ⟨issuer, request, moved, asks, user, member, same, rfl⟩, since⟩ :=
    vouched connectionId principal known
  exact ⟨user, member, known, allows, early, auth, late, split, ⟨issuer, request, moved, asks, same⟩, since⟩

/-- The subscriber's connection is opened and authenticated. -/
def greeted : List Step := [{ move := .connect "r" }, login "r" "r"]

def subscribing : Asked := ask "Subscribe" (fun _ => perform "r" (.subscribe "news")) ""

theorem effects_vouched_subscribed : ∃ user ∈ desk.users, user.role = .subscriber ∧
    ∃ auth ∈ greeted, ∃ issuer request, auth.move = .request "r" issuer request ∧
      user.Matches request.metadata := by
  have changed : ((run (Front.step desk) { runtime := opened.runtime } greeted).handle desk "r" subscribing).2.runtime ≠
      (run (Front.step desk) { runtime := opened.runtime } greeted).runtime := by
    intro same
    have subscribers := congrArg (fun r => r.handler.pubsub.subscribers "news") same
    revert subscribers
    decide +kernel
  obtain ⟨user, member, known, _, early, auth, late, split, ⟨issuer, request, moved, _, same⟩, _⟩ :=
    effects_vouched rfl opened.runtime rfl changed
  refine ⟨user, member, ?_, auth, by rw [split]; simp, issuer, request, moved, same⟩
  have role : ((run (Front.step desk) { runtime := opened.runtime } greeted).context "r").principal.map (·.role) =
      some .subscriber := by decide +kernel
  rw [known] at role
  exact Option.some.inj role

end OneOpenBroker.Security

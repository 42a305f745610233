import OneOpenBroker.Security.Acl

/-! Token and password verification, `security/auth.py`, and `handle` with the
state of a connection. The methods other than PING and AUTH are a parameter: as
long as nobody is authenticated none of them is called, so the runtime stays
what it is, whatever they would do. -/
namespace OneOpenBroker.Security
open Programs Program OneOpenBroker.Untyped

/-! ## Credentials -/

/-- A configured user, who has a token or a password. -/
structure AuthUser where
  name : Text
  token : Text
  password : Text
  role : Role
  credential : token ≠ [] ∨ password ≠ []

/-- What a user's password is compared with. -/
def AuthUser.secret (user : AuthUser) : Text := if user.password = [] then user.token else user.password

/-- `_digest`. Two texts have the same UTF-8 bytes when they are the same. -/
def digest (left : Value) (right : Text) : Except Raised Bool :=
  match left with
  | .text left =>
    if Text.encodable left && Text.encodable right then .ok (left = right)
    else .error .unicodeEncodeError
  | _ => .error .attributeError

/-- The loops of `authenticate`: the first user whose secret was given. -/
def findUser (secret : AuthUser → Text) (given : Value) : List AuthUser → Except Raised (Option Principal)
  | [] => .ok none
  | user :: rest =>
    if secret user = [] then findUser secret given rest
    else do
      if ← digest given (secret user) then return some ⟨user.name, user.role⟩
      else findUser secret given rest

/-- `user.name == username`. -/
def AuthUser.named (user : AuthUser) : Value → Bool
  | .text username => user.name = username
  | _ => false

def authenticate (token username password : Value) (users : List AuthUser) :
    Except Raised (Option Principal) :=
  if token.truthy then findUser AuthUser.token token users
  else if username.truthy && password.truthy then
    findUser AuthUser.secret password (users.filter (·.named username))
  else .ok none

/-! ## The connection -/

/-- What `ConnectionContext` says about a client's identity. -/
structure ConnectionContext where
  principal : Option Principal := none
  authFailures : Nat := 0
  mustClose : Bool := false

/-- A failure is counted, and the fifth one closes the connection. -/
def ConnectionContext.fail (context : ConnectionContext) : ConnectionContext :=
  { context with
    authFailures := context.authFailures + 1
    mustClose := context.mustClose || decide (5 ≤ context.authFailures + 1) }

/-- A connection, and the runtime of the broker: its queues, routes, consumers,
channels and journal. -/
structure Session (σ : Type) where
  context : ConnectionContext := {}
  runtime : σ

variable {σ : Type}

/-- `_ok`. -/
def respond (extra : List (String × Value)) : Program σ Raised Reply :=
  if extra.all (·.2.encodable) then pure (.ok extra) else throw .unicodeEncodeError

/-- `_err`. -/
def fail (code : ErrorCode) (message : Text) : Program σ Raised Reply :=
  if Text.encodable message then pure (.err code message) else throw .unicodeEncodeError

/-- What the handler reads of the configuration, and what it takes from Python. -/
structure Handler where
  enabled : Bool
  users : List AuthUser
  mapping : CaseMapping
  str : Value → Text

namespace Handler

def cmdPing : Program (Session σ) Raised Reply := respond [("pong", .bool true)]

/-- The reply to an AUTH that succeeded. -/
def welcome (principal : Principal) : Program (Session σ) Raised Reply :=
  respond [("user", .text principal.name), ("role", .text (text principal.role.name))]

def setContext (change : ConnectionContext → ConnectionContext) : Program (Session σ) Raised Unit :=
  modify fun session => { session with context := change session.context }

def cmdAuth (handler : Handler) (metadata : Metadata) : Program (Session σ) Raised Reply := do
  if handler.enabled then
    match ← MonadExcept.ofExcept (authenticate (field metadata "token")
        ((field metadata "username").or (field metadata "user")) (field metadata "password")
        handler.users) with
    | none =>
      setContext ConnectionContext.fail
      fail .unauthorized (text "invalid credentials")
    | some principal =>
      setContext fun context => { context with principal := some principal, authFailures := 0 }
      welcome principal
  else
    let anonymous : Principal := ⟨text "anonymous", .admin⟩
    setContext fun context => { context with principal := some anonymous }
    welcome anonymous

/-- A request, with what the methods other than PING and AUTH do on it. -/
structure Request (σ : Type) where
  metadata : Metadata
  call : Text → Program σ Raised Reply

/-- The method of this name. -/
def method (handler : Handler) (request : Request σ) (name : Text) :
    Program (Session σ) Raised Reply :=
  if name = text "ping" then cmdPing
  else if name = text "auth" then handler.cmdAuth request.metadata
  else (request.call name).zoom Session.runtime fun session runtime => { session with runtime }

/-- The `try` of `handle`. -/
def guarded (program : Program (Session σ) Raised Reply) : Program (Session σ) Raised Reply := do
  match ← program.attempt with
  | .ok reply => return reply
  | .error _ => fail .internalError (text "internal error")

def handle (handler : Handler) (request : Request σ) : Program (Session σ) Raised Reply := do
  let cmd := field request.metadata "cmd"
  match route handler.mapping handler.str handler.enabled (← get).context.principal cmd with
  | .missing => fail .invalidCommand (text "missing cmd")
  | .refused (code, message) =>
    if code = .unauthorized then setContext ConnectionContext.fail
    fail code message
  | .raises raised => guarded (throw raised)
  | .unknown cmd => guarded (fail .invalidCommand (text "unknown command " ++ cmd))
  | .method name => guarded (handler.method request name)

/-- The requests of a connection, one after another: the replies, and the
session they leave. -/
def handleAll (handler : Handler) : List (Request σ) → Session σ →
    List (Except Raised Reply) × Session σ
  | [], session => ([], session)
  | request :: rest, session =>
    let (reply, session) := (handler.handle request).exec session
    let (replies, session) := handleAll handler rest session
    (reply :: replies, session)

end Handler

/-! ## What a stranger can do -/

/-- The credentials of an AUTH are the user's: the token, if one is given, else
the name and the secret. -/
def AuthUser.Matches (user : AuthUser) (metadata : Metadata) : Prop :=
  if (field metadata "token").truthy then
    user.token ≠ [] ∧ field metadata "token" = .text user.token
  else
    user.name ≠ [] ∧ (field metadata "username").or (field metadata "user") = .text user.name ∧
      user.secret ≠ [] ∧ field metadata "password" = .text user.secret

variable {handler : Handler} {request : Handler.Request σ} {requests : List (Handler.Request σ)}
  {session : Session σ} {metadata : Metadata} {users : List AuthUser} {principal : Principal}
  {secret : AuthUser → Text} {given : Value} {name : Text}

theorem digest_true {left : Value} {right : Text} (equal : digest left right = .ok true) :
    left = .text right := by
  unfold digest at equal
  split at equal
  · split at equal
    · rw [of_decide_eq_true (Except.ok.inj equal)]
    · cases equal
  · cases equal

/-- Only a user whose secret was given is found. -/
theorem findUser_some (found : findUser secret given users = .ok (some principal)) :
    ∃ user ∈ users, secret user ≠ [] ∧ given = .text (secret user) := by
  induction users with
  | nil => cases found
  | cons user rest ih =>
    unfold findUser at found
    split at found
    · obtain ⟨other, member, facts⟩ := ih found
      exact ⟨other, List.mem_cons_of_mem _ member, facts⟩
    · rename_i nonempty
      cases equal : digest given (secret user) with
      | error raised =>
        rw [equal] at found
        cases found
      | ok same =>
        rw [equal] at found
        cases same with
        | true => exact ⟨user, List.mem_cons_self, nonempty, digest_true equal⟩
        | false =>
          obtain ⟨other, member, facts⟩ := ih found
          exact ⟨other, List.mem_cons_of_mem _ member, facts⟩

theorem named_eq {user : AuthUser} {username : Value} (named : user.named username = true) :
    username = .text user.name := by
  unfold AuthUser.named at named
  split at named
  · rw [of_decide_eq_true named]
  · cases named

/-- A principal is made of credentials that match a user's. -/
theorem authenticate_matches
    (found : authenticate (field metadata "token")
      ((field metadata "username").or (field metadata "user")) (field metadata "password") users =
        .ok (some principal)) :
    ∃ user ∈ users, user.Matches metadata := by
  unfold authenticate at found
  split at found
  · rename_i token
    obtain ⟨user, member, facts⟩ := findUser_some found
    exact ⟨user, member, by rw [AuthUser.Matches, if_pos token]; exact facts⟩
  · rename_i token
    split at found
    · rename_i given
      obtain ⟨user, member, nonempty, same⟩ := findUser_some found
      obtain ⟨listed, named⟩ := List.mem_filter.mp member
      have username := named_eq named
      have known : user.name ≠ [] := by
        rw [username] at given
        exact of_decide_eq_true (Bool.and_eq_true_iff.mp given).1
      exact ⟨user, listed, by rw [AuthUser.Matches, if_neg token]; exact ⟨known, username, nonempty, same⟩⟩
    · cases found

namespace Handler

/-- The request's command selects this method. -/
def Asks (handler : Handler) (request : Request σ) (name : String) : Prop :=
  ∃ cmd, field request.metadata "cmd" = .text cmd ∧ handler.mapping.lower cmd = text name

/-- The request is no AUTH with the credentials of a user. -/
def Stranger (handler : Handler) (request : Request σ) : Prop :=
  handler.Asks request "auth" → ∀ user ∈ handler.users, ¬ user.Matches request.metadata

def unauthorized : Except Raised Reply → Bool
  | .ok (.err .unauthorized _) => true
  | _ => false

/-- A reply that says no more than that the broker is there, and leaves the
runtime and the principal as they are. -/
structure Harmless (handler : Handler) (request : Request σ) (session : Session σ)
    (reply : Except Raised Reply) (after : Session σ) : Prop where
  runtime : after.runtime = session.runtime
  ok : ∀ extra, reply = .ok (.ok extra) → handler.Asks request "ping"
  context : after.context = if unauthorized reply then session.context.fail else session.context

/-- Without a principal a method is called for PING and AUTH only. -/
theorem route_stranger {cmd : Value}
    (called : route handler.mapping handler.str true none cmd = .method name) :
    (name = text "ping" ∨ name = text "auth") ∧
      ∃ command, cmd = .text command ∧ handler.mapping.lower command = name := by
  obtain ⟨command, rfl, rfl, known, allowed⟩ := route_method called
  have listed : handler.mapping.upper command ∈ unauthenticatedCommands := by
    unfold authorize at allowed
    dsimp only at allowed
    split at allowed
    · rename_i listed
      exact List.contains_iff_mem.mp listed
    · cases allowed
  have ascii := unauthenticatedCommands_ascii _ listed
  have same := upper_method known ascii
  rw [← same, CaseMapping.upper_of_ascii (methodNames_ascii _ known)] at listed
  refine ⟨?_, command, rfl, rfl⟩
  generalize handler.mapping.lower command = name at known listed
  revert name
  decide

theorem route_refused {cmd : Value} {code : ErrorCode} {message : Text}
    (refused : route handler.mapping handler.str true none cmd = .refused (code, message)) :
    code = .unauthorized ∧ Text.encodable message = true := by
  unfold route at refused
  split at refused
  · unfold authorize at refused
    dsimp only at refused
    split at refused
    · rename_i denied
      split at denied
      · cases denied
      · cases denied
        cases refused
        exact ⟨rfl, text_encodable _⟩
    · split at refused
      · split at refused <;> cases refused
      · cases refused
  · cases refused

theorem exec_fail {code : ErrorCode} {message : Text} {s : σ} : (fail code message).exec s =
    (if Text.encodable message then .ok (.err code message) else .error .unicodeEncodeError, s) := by
  unfold fail
  split <;> rfl

theorem exec_fail_encodable {code : ErrorCode} {message : Text} {s : σ}
    (written : Text.encodable message = true) :
    (fail code message).exec s = (.ok (.err code message), s) := by
  rw [exec_fail, if_pos written]

/-- The reply that `handle` makes of an exception. -/
def internal : Reply := .err .internalError (text "internal error")

theorem exec_guarded {program : Program (Session σ) Raised Reply} :
    (guarded program).exec session =
      (.ok ((program.exec session).1.toOption.getD internal), (program.exec session).2) := by
  unfold guarded
  rw [exec_bind_ok exec_attempt]
  rcases program.exec session with ⟨_ | reply, after⟩
  · exact exec_fail_encodable (text_encodable _)
  · rfl

/-- An AUTH of a stranger either raises, or fails and is counted. -/
theorem cmdAuth_stranger (enabled : handler.enabled = true)
    (stranger : ∀ user ∈ handler.users, ¬ user.Matches metadata) :
    (∃ raised, (handler.cmdAuth metadata).exec session = (.error raised, session)) ∨
      (handler.cmdAuth metadata).exec session =
        (.ok (.err .unauthorized (text "invalid credentials")),
          { session with context := session.context.fail }) := by
  unfold cmdAuth
  rw [if_pos enabled]
  cases tried : authenticate (field metadata "token")
      ((field metadata "username").or (field metadata "user")) (field metadata "password")
      handler.users with
  | error raised => exact .inl ⟨raised, rfl⟩
  | ok principal =>
    cases principal with
    | none =>
      refine .inr ?_
      change (fail .unauthorized (text "invalid credentials")).exec
        { session with context := session.context.fail } = _
      exact exec_fail_encodable (text_encodable _)
    | some principal =>
      obtain ⟨user, member, same⟩ := authenticate_matches tried
      exact absurd same (stranger user member)

theorem exec_handle : (handler.handle request).exec session =
    (match route handler.mapping handler.str handler.enabled session.context.principal
        (field request.metadata "cmd") with
      | .missing => fail .invalidCommand (text "missing cmd")
      | .refused (code, message) => do
        if code = ErrorCode.unauthorized then setContext ConnectionContext.fail
        fail code message
      | .raises raised => guarded (throw raised)
      | .unknown cmd => guarded (fail .invalidCommand (text "unknown command " ++ cmd))
      | .method name => guarded (handler.method request name)).exec session := rfl

/-- A request of a stranger is harmless. -/
theorem handle_harmless (enabled : handler.enabled = true)
    (nobody : session.context.principal = none) (stranger : handler.Stranger request) :
    handler.Harmless request session ((handler.handle request).exec session).1
      ((handler.handle request).exec session).2 := by
  rw [exec_handle, nobody, enabled]
  cases chosen : route handler.mapping handler.str true none (field request.metadata "cmd") with
  | missing =>
    dsimp only
    rw [exec_fail_encodable (text_encodable _)]
    exact ⟨rfl, nofun, rfl⟩
  | refused refusal =>
    obtain ⟨code, message⟩ := refusal
    obtain ⟨rfl, written⟩ := route_refused chosen
    have answered : (do
        if ErrorCode.unauthorized = ErrorCode.unauthorized then setContext ConnectionContext.fail
        fail .unauthorized message : Program (Session σ) Raised Reply).exec session =
          (.ok (.err .unauthorized message), { session with context := session.context.fail }) :=
      exec_fail_encodable written
    dsimp only
    rw [answered]
    exact ⟨rfl, nofun, rfl⟩
  | raises raised =>
    dsimp only
    rw [exec_guarded]
    exact ⟨rfl, nofun, rfl⟩
  | unknown cmd =>
    dsimp only
    rw [exec_guarded, exec_fail]
    split <;> exact ⟨rfl, nofun, rfl⟩
  | method name =>
    obtain ⟨either, command, asked, lowered⟩ := route_stranger chosen
    dsimp only
    rw [exec_guarded]
    rcases either with rfl | rfl
    · exact ⟨rfl, fun _ _ => ⟨command, asked, lowered⟩, rfl⟩
    · have auth : handler.method request (text "auth") = handler.cmdAuth request.metadata := rfl
      rw [auth]
      rcases cmdAuth_stranger enabled (stranger ⟨command, asked, lowered⟩) with ⟨raised, ran⟩ | ran
      · rw [ran]
        exact ⟨rfl, nofun, rfl⟩
      · rw [ran]
        exact ⟨rfl, nofun, rfl⟩

/-! ## The commands on the queues -/

/-- What a request on the broker's queues does when its method is called. -/
def onBroker (host : Host) (request : Untyped.Request) : Request Broker where
  metadata := request.metadata
  call name :=
    match (methods host request).lookup name with
    | some method => method
    | none => do MonadExcept.ofExcept (host.reads name request.metadata (← get))

/-- The methods are those that work on the runtime and the others. -/
theorem mem_methodNames (host : Host) (request : Untyped.Request) (name : Text) :
    name ∈ methodNames ↔ name ∈ (methods host request).map (·.1) ∨ name ∈ readMethods := by
  have listed : (methods host request).map (·.1) = [
      "declare_exchange", "delete_exchange", "declare_queue", "delete_queue", "bind", "unbind",
      "publish", "get", "consume", "cancel", "ack", "nack", "qos", "dlq_requeue"].map text := rfl
  rw [listed, ← List.mem_append]
  have both : methodNames.Perm (["declare_exchange", "delete_exchange", "declare_queue",
      "delete_queue", "bind", "unbind", "publish", "get", "consume", "cancel", "ack", "nack", "qos",
      "dlq_requeue"].map text ++ readMethods) := by decide +kernel
  exact both.mem_iff

theorem dispatch_eq {host : Host} {request : Untyped.Request} {cmd : Text}
    (asked : field request.metadata "cmd" = .text cmd) :
    dispatch host request =
      if methodNames.contains (host.lower cmd) then (onBroker host request).call (host.lower cmd)
      else Untyped.fail .invalidCommand (text "unknown command " ++ cmd) := by
  unfold dispatch onBroker
  rw [asked]
  dsimp only
  cases found : (methods host request).lookup (host.lower cmd) with
  | some method =>
    have member : host.lower cmd ∈ methodNames := by
      refine (mem_methodNames host request _).mpr (.inl ?_)
      obtain ⟨before, after, split, _⟩ := List.lookup_eq_some_iff.mp found
      rw [split]
      exact List.mem_map_of_mem List.mem_append_cons_self
    rw [if_pos (List.contains_iff_mem.mpr member)]
  | none =>
    have absent : host.lower cmd ∉ (methods host request).map (·.1) := by
      intro member
      obtain ⟨entry, listed, same⟩ := List.mem_map.mp member
      simpa [same] using List.lookup_eq_none_iff.mp found entry listed
    have iff : host.lower cmd ∈ methodNames ↔ host.lower cmd ∈ readMethods :=
      (mem_methodNames host request _).trans (or_iff_right absent)
    simp only [List.contains_iff_mem, iff]

theorem exec_untyped_fail {code : ErrorCode} {message : Text} {b : Broker} :
    (Untyped.fail code message).exec b =
      (if Text.encodable message then .ok (.err code message) else .error .unicodeEncodeError, b) := by
  have listed : [("message", Value.text message)].all (·.2.encodable) = Text.encodable message :=
    Bool.and_true _
  unfold Untyped.fail encode
  rw [listed]
  split <;> rfl

/-- `handle` by itself, on a request that is not refused. -/
theorem exec_untyped_handle {host : Host} {request : Untyped.Request} {b : Broker}
    (truthy : (field request.metadata "cmd").truthy = true) :
    (Untyped.handle host none request).exec b =
      (.ok (((dispatch host request).exec b).1.toOption.getD internal),
        ((dispatch host request).exec b).2) := by
  unfold Untyped.handle
  rw [if_pos truthy]
  dsimp only
  rw [exec_bind_ok exec_attempt]
  rcases (dispatch host request).exec b with ⟨_ | reply, after⟩
  · dsimp only
    rw [exec_untyped_fail, if_pos (text_encodable _)]
    rfl
  · rfl

/-- On a request for neither PING nor AUTH, `handle` answers and changes the
runtime as it does by itself with the refusal of `authorize`. -/
theorem handle_onBroker {host : Host} {request : Untyped.Request} {session : Session Broker}
    (same : handler.mapping.lower = host.lower)
    (no_ping : ¬ handler.Asks (onBroker host request) "ping")
    (no_auth : ¬ handler.Asks (onBroker host request) "auth") :
    let refusal := authorize handler.mapping session.context.principal
      (commandText handler.str (field request.metadata "cmd")) handler.enabled
    let ran := (Untyped.handle host refusal request).exec session.runtime
    ((handler.handle (onBroker host request)).exec session).1 = ran.1 ∧
      ((handler.handle (onBroker host request)).exec session).2.runtime = ran.2 := by
  intro refusal
  dsimp only
  have metadata : (onBroker host request).metadata = request.metadata := rfl
  rw [exec_handle, metadata]
  unfold route
  by_cases truthy : (field request.metadata "cmd").truthy = true
  · rw [if_pos truthy]
    cases refused : refusal with
    | some denied =>
      obtain ⟨code, message⟩ := denied
      have answered : Untyped.handle host (some (code, message)) request =
          Untyped.fail code message := if_pos truthy
      rw [show authorize _ _ _ _ = some (code, message) from refused, answered, exec_untyped_fail]
      dsimp only
      split
      · have counted : (do
            setContext ConnectionContext.fail
            fail code message : Program (Session Broker) Raised Reply).exec session =
          (fail code message).exec { session with context := session.context.fail } := rfl
        rw [counted, exec_fail]
        exact ⟨rfl, rfl⟩
      · rw [exec_fail]
        exact ⟨rfl, rfl⟩
    | none =>
      rw [show authorize _ _ _ _ = none from refused, exec_untyped_handle truthy]
      cases asked : field request.metadata "cmd" with
      | text cmd =>
        rw [dispatch_eq asked, ← same]
        dsimp only
        by_cases known : methodNames.contains (handler.mapping.lower cmd) = true
        · have other : handler.method (onBroker host request) (handler.mapping.lower cmd) =
              ((onBroker host request).call (handler.mapping.lower cmd)).zoom Session.runtime
                fun session runtime => { session with runtime } := by
            unfold method
            rw [if_neg fun ping => no_ping ⟨cmd, asked, ping⟩,
              if_neg fun auth => no_auth ⟨cmd, asked, auth⟩]
          rw [if_pos known, if_pos known]
          dsimp only
          rw [exec_guarded, other, exec_zoom]
          exact ⟨rfl, rfl⟩
        · rw [if_neg known, if_neg known]
          dsimp only
          rw [exec_guarded, exec_fail, exec_untyped_fail]
          exact ⟨rfl, rfl⟩
      | _ =>
        have raised : dispatch host request = throw .attributeError := by rw [dispatch, asked]
        rw [raised]
        dsimp only
        rw [exec_guarded]
        exact ⟨rfl, rfl⟩
  · have answered : Untyped.handle host refusal request =
        Untyped.fail .invalidCommand (text "missing cmd") := if_neg truthy
    rw [if_neg truthy, answered, exec_fail, exec_untyped_fail]
    exact ⟨rfl, rfl⟩

/-! ## Runs -/

/-- A context that is closed with its fifth failure. -/
def Closing (context : ConnectionContext) : Prop :=
  5 ≤ context.authFailures → context.mustClose = true

theorem Closing.fail {context : ConnectionContext} : Closing context.fail := by
  intro enough
  exact Bool.or_eq_true_iff.mpr (.inr (decide_eq_true enough))

/-- A stranger's requests are harmless one after another. -/
theorem handleAll_harmless (enabled : handler.enabled = true)
    (nobody : session.context.principal = none) (closing : Closing session.context)
    (strangers : ∀ request ∈ requests, handler.Stranger request) :
    let ran := handler.handleAll requests session
    ran.2.runtime = session.runtime ∧ ran.2.context.principal = none ∧ Closing ran.2.context ∧
      ran.2.context.authFailures = session.context.authFailures + ran.1.countP unauthorized ∧
      List.Forall₂ (fun request reply => ∀ extra, reply = .ok (.ok extra) →
        handler.Asks request "ping") requests ran.1 := by
  induction requests generalizing session with
  | nil => exact ⟨rfl, nobody, closing, rfl, .nil⟩
  | cons request rest ih =>
    obtain ⟨first, others⟩ := List.forall_mem_cons.mp strangers
    have step := handle_harmless enabled nobody first
    generalize reached : (handler.handle request).exec session = result at step
    obtain ⟨reply, after⟩ := result
    obtain ⟨same, ok, context⟩ := step
    have unfolded : handler.handleAll (request :: rest) session =
        (reply :: (handler.handleAll rest after).1, (handler.handleAll rest after).2) := by
      rw [handleAll, reached]
    rw [unfolded]
    have still : after.context.principal = none ∧ Closing after.context ∧
        after.context.authFailures =
          session.context.authFailures + [reply].countP unauthorized := by
      dsimp only at context
      rw [context]
      cases refused : unauthorized reply with
      | true => exact ⟨nobody, .fail, by simp [refused, ConnectionContext.fail]⟩
      | false => exact ⟨nobody, closing, by simp [refused]⟩
    obtain ⟨runtime, principal, closes, failures, replies⟩ := ih still.1 still.2.1 others
    refine ⟨runtime.trans same, principal, closes, ?_, .cons ok replies⟩
    rw [failures, still.2.2, Nat.add_assoc, ← List.countP_append]
    rfl

/-- With authentication on, a client whose AUTHs match no user changes nothing,
stays without a principal, gets an ok for PINGs only, and is to be closed with
the fifth UNAUTHORIZED reply. -/
theorem unauthenticated_no_effect (enabled : handler.enabled = true)
    (strangers : ∀ request ∈ requests, handler.Stranger request) (runtime : σ) :
    let ran := handler.handleAll requests { runtime }
    ran.2.runtime = runtime ∧ ran.2.context.principal = none ∧
      List.Forall₂ (fun request reply => ∀ extra, reply = .ok (.ok extra) →
        handler.Asks request "ping") requests ran.1 ∧
      (5 ≤ ran.1.countP unauthorized → ran.2.context.mustClose = true) := by
  let start : Session σ := { runtime }
  have fresh : Closing start.context := fun enough => absurd enough (Nat.not_succ_le_zero 4)
  have nobody : start.context.principal = none := rfl
  obtain ⟨same, principal, closes, failures, replies⟩ :=
    handleAll_harmless enabled nobody fresh strangers
  refine ⟨same, principal, replies, fun enough => closes ?_⟩
  rw [failures]
  exact enough.trans (Nat.le_add_left _ _)

/-- A handler that knows one user. -/
def app : Handler where
  enabled := true
  users := [⟨text "app", text "s3cret", [], .producer, .inl (by decide)⟩]
  mapping := latin
  str _ := text "[]"

/-- A request on a runtime that counts the calls of its methods. -/
def knock (cmd : String) : Request Nat where
  metadata := ((∅ : Metadata).set (text "cmd") (.text (text cmd))).set (text "token")
    (.text (text "guess"))
  call _ := do
    modify (· + 1)
    return .ok []

theorem knock_stranger (cmd : String) : app.Stranger (knock cmd) := by
  intro _ user known same
  obtain rfl := List.mem_singleton.mp known
  have given : field (knock cmd).metadata "token" = .text (text "guess") := by
    simp [knock, field]
  rw [AuthUser.Matches, given, if_pos (by decide)] at same
  have guessed : text "guess" = text "s3cret" := Value.text.inj same.2
  exact absurd guessed (by decide)

def knocks : List (Request Nat) :=
  ["PUBLISH", "Auth", "publish", "ping", "auth", "QOS"].map knock

theorem unauthenticated_no_effect_knocks :
    (app.handleAll knocks { runtime := 0 }).2.runtime = 0 ∧
      (app.handleAll knocks { runtime := 0 }).2.context.mustClose = true := by
  have strangers : ∀ request ∈ knocks, app.Stranger request := by
    simp [knocks, knock_stranger]
  obtain ⟨same, _, _, closes⟩ := unauthenticated_no_effect rfl strangers 0
  exact ⟨same, closes (by decide +kernel)⟩

end Handler

end OneOpenBroker.Security

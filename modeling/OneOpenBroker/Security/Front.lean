import OneOpenBroker.Broker.HandlerRuns
import OneOpenBroker.Security.Introspection

/-! The broker with the contexts of its connections. It handles the requests of
all connections, each with the principal that issues it, and between them
whatever else happens to its runtime. As in `_read_loop`, a connection ends with
the request that cannot be answered or that sets `must_close`. -/
namespace OneOpenBroker.Security
open Programs Program Collections OneOpenBroker.Untyped

/-! ## Commands that change something -/

def errorCode : Broker.ErrorCode → ErrorCode
  | .invalidCommand => .invalidCommand
  | .notFound => .notFound
  | .queueFull => .queueFull
  | .notConsumer => .notConsumer
  | .unknownDelivery => .unknownDelivery
  | .alreadyAcked => .alreadyAcked
  | .internalError => .internalError

/-- The fields of a response. -/
def entries : Broker.Body → List (String × Value)
  | .none => []
  | .exchange name type => [("name", string name), ("type", string type)]
  | .queue name => [("name", string name)]
  | .published id routed => [("id", string id), ("routed", .list (routed.map string))]
  | .empty => [("empty", .bool true)]
  | .message message consumerId => [
    ("empty", .bool false), ("message_id", string message.id), ("queue", string message.queue),
    ("attempts", integer message.attempts), ("headers", message.headers.elim .null json),
    ("consumer_id", string consumerId)]
  | .consumer consumerId prefetch => [("consumer_id", string consumerId), ("prefetch", integer prefetch)]
  | .prefetch prefetch => [("prefetch", integer prefetch)]
  | .channel channel => [("channel", string channel)]
  | .delivered delivered slow => [
    ("delivered", integer delivered), ("slow", .list (slow.map string))]

def Runtime.answer : Broker.Reply → Program Runtime Raised Reply
  | .ok body => respond (entries body)
  | .err code message => fail (errorCode code) (text message)

/-- A command, with the counters of the channel that a PUBLISH_CHANNEL is for. -/
def Runtime.command (r : Runtime) (connectionId : String) (command : Broker.Command) :
    Broker.Reply × Runtime :=
  let (reply, handler) := r.handler.handle connectionId command
  match command, reply with
  | .publishChannel channel, .ok (.delivered delivered slow) =>
    let counters := (r.stats.get? channel).getD {}
    (reply,
      { handler
        stats := r.stats.set channel
          { published := counters.published + 1
            fanout := counters.fanout + delivered
            slowDrops := counters.slowDrops + slow.length }
        totalPublished := r.totalPublished + 1
        totalFanout := r.totalFanout + delivered })
  | _, _ => (reply, { r with handler })

def perform (connectionId : String) (command : Broker.Command) : Program Runtime Raised Reply := do
  Runtime.answer (← modifyGet fun r => r.command connectionId command)

/-! ## The broker -/

/-- The runtime, and the contexts of the connections that are open. -/
structure Front where
  runtime : Runtime
  contexts : Dict String ConnectionContext := ∅

/-- What happens: a request by a principal, a new connection, the end of one, or
something else that changes the runtime, such as a round of the ticker. -/
inductive Move where
  | request (connectionId : String) (principal : Option Principal) (asked : Asked)
  | connect (connectionId : String)
  | drop (connectionId : String)
  | background (change : Runtime → Runtime)

/-- A move of both runs, or one that only the longer run has; whether the answer
to a request finds a place in the outbound queue; and the order in which a
connection that ends has its consumers cancelled. -/
structure Step where
  extra : Bool := false
  queued : Bool := true
  order : List String := []
  move : Move

namespace Front

def context (front : Front) (connectionId : String) : ConnectionContext :=
  (front.contexts.get? connectionId).getD {}

def session (front : Front) (connectionId : String) : Session Runtime :=
  ⟨front.context connectionId, front.runtime⟩

/-- The answer to a request, and the broker after it. -/
def handle (handler : Handler) (front : Front) (connectionId : String) (asked : Asked) :
    Except Raised Reply × Front :=
  let (reply, session) := (handler.handle asked.request).exec (front.session connectionId)
  (reply, ⟨session.runtime, front.contexts.set connectionId session.context⟩)

/-- A new connection gets a sender and a context of its own. -/
def connect (front : Front) (connectionId : String) : Front where
  runtime := { front.runtime with handler := front.runtime.handler.connect connectionId }
  contexts := front.contexts.set connectionId {}

/-- The cleanup of `_drop`. -/
def drop (front : Front) (connectionId : String) (order : List String) : Front where
  runtime := { front.runtime with handler := (front.runtime.handler.drop connectionId order).2 }
  contexts := front.contexts.erase connectionId

/-- A command in `_read_loop`. The loop ends where the command raises, where the
answer is not queued, and where `must_close` is set. -/
def serve (handler : Handler) (front : Front) (step : Step) (connectionId : String) (asked : Asked) :
    Front :=
  let (reply, after) := front.handle handler connectionId asked
  if reply.isOk && step.queued && !(after.context connectionId).mustClose then after
  else after.drop connectionId step.order

def step (handler : Handler) (front : Front) (step : Step) : Front :=
  match step.move with
  | .request connectionId _ asked =>
    if connectionId ∈ front.contexts then front.serve handler step connectionId asked else front
  | .connect connectionId => front.connect connectionId
  | .drop connectionId =>
    if connectionId ∈ front.contexts then front.drop connectionId step.order else front
  | .background change => { front with runtime := change front.runtime }

end Front

/-- The principal of a request is that of its connection. -/
def Issued (front : Front) (step : Step) : Prop :=
  match step.move with
  | .request connectionId principal _ =>
    connectionId ∈ front.contexts → (front.context connectionId).principal = principal
  | _ => True

/-! ## The end of a connection -/

/-- The request fails to authenticate: it needs a principal and has none, or it
is an AUTH with the credentials of nobody. -/
def Handler.rejects (handler : Handler) (principal : Option Principal) (metadata : Metadata) : Bool :=
  match route handler.mapping handler.str handler.enabled principal (field metadata "cmd") with
  | .refused (code, _) => code = .unauthorized
  | .method name =>
    name = text "auth" && handler.enabled &&
      match authenticate (field metadata "token")
          ((field metadata "username").or (field metadata "user")) (field metadata "password")
          handler.users with
      | .ok none => true
      | _ => false
  | _ => false

/-- The refusal of the request quotes a command that cannot be encoded. -/
def Handler.garbles (handler : Handler) (principal : Option Principal) (metadata : Metadata) : Bool :=
  match route handler.mapping handler.str handler.enabled principal (field metadata "cmd") with
  | .refused (_, message) => !Text.encodable message
  | _ => false

/-- The connection ends with the request: its answer is not queued or cannot be
encoded, or it is the fifth that fails to authenticate. -/
def Front.ends (handler : Handler) (front : Front) (step : Step) (connectionId : String)
    (asked : Asked) : Bool :=
  let context := front.context connectionId
  !step.queued || context.mustClose || handler.garbles context.principal asked.metadata ||
    (handler.rejects context.principal asked.metadata && decide (4 ≤ context.authFailures))

section Handling

variable {σ : Type} {handler : Handler} {request : Handler.Request σ} {session : Session σ}

theorem exec_respond {extra : List (String × Value)} {s : σ} : (respond extra).exec s =
    (if extra.all (·.2.encodable) then .ok (.ok extra) else .error .unicodeEncodeError, s) := by
  unfold respond
  split <;> rfl

namespace Handler

theorem exec_welcome {principal : Principal} {after : Session σ} :
    ((welcome principal).exec after).2 = after := by
  rw [welcome, exec_respond]

/-- After the fifth failure an AUTH asks for the connection to be closed. -/
theorem cmdAuth_mustClose (metadata : Metadata) :
    ((handler.cmdAuth metadata).exec session).2.context.mustClose =
      (session.context.mustClose || ((handler.enabled &&
        match authenticate (field metadata "token")
            ((field metadata "username").or (field metadata "user")) (field metadata "password")
            handler.users with
        | .ok none => true
        | _ => false) && decide (4 ≤ session.context.authFailures))) := by
  unfold cmdAuth
  cases handler.enabled with
  | false =>
    rw [if_neg (by simp)]
    change ((welcome ⟨text "anonymous", .admin⟩).exec { session with
      context := { session.context with principal := some ⟨text "anonymous", .admin⟩ } }).2.context.mustClose = _
    rw [exec_welcome]
    simp
  | true =>
    cases authenticate (field metadata "token")
        ((field metadata "username").or (field metadata "user")) (field metadata "password")
        handler.users with
    | error raised => simp [exec_bind_error exec_ofExcept]
    | ok found =>
      rw [if_pos rfl, exec_bind_ok exec_ofExcept]
      cases found with
      | none =>
        change ((fail .unauthorized (text "invalid credentials")).exec
          { session with context := session.context.fail }).2.context.mustClose = _
        rw [exec_fail]
        simp [ConnectionContext.fail]
      | some principal =>
        change ((welcome principal).exec { session with
          context := { session.context with principal := some principal, authFailures := 0 } }).2.context.mustClose = _
        rw [exec_welcome]
        simp

/-- Only a refusal can stay unanswered, and only one that cannot be encoded. -/
theorem handle_answers : ((handler.handle request).exec session).1.isOk =
    !handler.garbles session.context.principal request.metadata := by
  rw [exec_handle]
  unfold garbles
  cases route handler.mapping handler.str handler.enabled session.context.principal
      (field request.metadata "cmd") with
  | missing => simp [exec_fail_encodable (text_encodable _)]; rfl
  | refused refusal =>
    obtain ⟨code, message⟩ := refusal
    dsimp only
    split
    · change ((fail code message).exec { session with context := session.context.fail }).1.isOk = _
      rw [exec_fail]
      cases Text.encodable message <;> rfl
    · rw [exec_fail]
      cases Text.encodable message <;> rfl
  | raises raised => rw [exec_guarded]; rfl
  | unknown cmd => rw [exec_guarded]; rfl
  | method name => rw [exec_guarded]; rfl

/-- A request asks for its connection to be closed when it is the fifth that
fails to authenticate. -/
theorem handle_mustClose : ((handler.handle request).exec session).2.context.mustClose =
    (session.context.mustClose || (handler.rejects session.context.principal request.metadata &&
      decide (4 ≤ session.context.authFailures))) := by
  rw [exec_handle]
  unfold rejects
  cases route handler.mapping handler.str handler.enabled session.context.principal
      (field request.metadata "cmd") with
  | missing => simp [exec_fail_encodable (text_encodable _)]
  | refused refusal =>
    obtain ⟨code, message⟩ := refusal
    dsimp only
    split
    · rename_i unauthorized
      change ((fail code message).exec { session with context := session.context.fail }).2.context.mustClose = _
      rw [exec_fail]
      simp [ConnectionContext.fail, unauthorized]
    · rename_i other
      rw [exec_fail]
      simp [other]
  | raises raised =>
    rw [exec_guarded]
    change session.context.mustClose = _
    simp
  | unknown cmd =>
    rw [exec_guarded, exec_fail]
    simp
  | method name =>
    rw [exec_guarded]
    unfold method
    split
    · rename_i ping
      rw [cmdPing, exec_respond]
      simp [ping, show (text "ping" = text "auth") = False by decide]
    · split
      · rename_i auth
        rw [cmdAuth_mustClose]
        simp [auth]
      · rename_i other
        rw [exec_zoom]
        simp [other]

end Handler

end Handling

namespace Front

variable {handler : Handler} {front : Front} {step : Step} {connectionId : String} {asked : Asked}

theorem handle_context :
    ((front.handle handler connectionId asked).2.context connectionId).mustClose =
      ((front.context connectionId).mustClose ||
        (handler.rejects (front.context connectionId).principal asked.metadata &&
          decide (4 ≤ (front.context connectionId).authFailures))) := by
  have closes : ((handler.handle asked.request).exec (front.session connectionId)).2.context.mustClose =
      ((front.context connectionId).mustClose ||
        (handler.rejects (front.context connectionId).principal asked.metadata &&
          decide (4 ≤ (front.context connectionId).authFailures))) := Handler.handle_mustClose
  rw [← closes]
  simp [handle, context]

/-- A command is handled, and the connection dropped where it ends. -/
theorem serve_ends : front.serve handler step connectionId asked =
    if front.ends handler step connectionId asked = true then
      (front.handle handler connectionId asked).2.drop connectionId step.order
    else (front.handle handler connectionId asked).2 := by
  have answers : (front.handle handler connectionId asked).1.isOk =
      !handler.garbles (front.context connectionId).principal asked.metadata := Handler.handle_answers
  have opposite : front.ends handler step connectionId asked =
      !((front.handle handler connectionId asked).1.isOk && step.queued &&
        !((front.handle handler connectionId asked).2.context connectionId).mustClose) := by
    rw [answers, handle_context, Front.ends]
    simp only [Bool.not_and, Bool.not_not]
    ac_rfl
  rw [opposite]
  unfold serve
  dsimp only
  split <;> rename_i goes
  · rw [goes]
    rfl
  · rw [Bool.eq_false_iff.mpr goes]
    rfl

end Front
end OneOpenBroker.Security

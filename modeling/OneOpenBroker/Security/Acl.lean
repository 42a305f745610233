import OneOpenBroker.Untyped.Handler

/-! Command-level roles, `security/acl.py`, and the choice of a method in
`handle`. A command is authorized by its upper case and dispatched by its lower
case. The two agree on every text: a text with a character outside ASCII is not
both, in upper case, a command of a role and, in lower case, the name of a
method. -/
namespace OneOpenBroker.Security
open OneOpenBroker.Untyped

/-! ## Case -/

/-- Upper case of an ASCII character. -/
def upperAscii (c : Nat) : Nat := if 97 ≤ c ∧ c ≤ 122 then c - 32 else c

/-- Lower case of an ASCII character. -/
def lowerAscii (c : Nat) : Nat := if 65 ≤ c ∧ c ≤ 90 then c + 32 else c

/-- The Greek capital sigma, whose lower case depends on what stands around it. -/
def capitalSigma : Nat := 0x3A3

/-- `.isascii()`. -/
def Ascii (t : Text) : Prop := ∀ c ∈ t, c < 128

instance (t : Text) : Decidable (Ascii t) := inferInstanceAs (Decidable (∀ c ∈ t, c < 128))

/-- What is assumed of `str.upper` and `str.lower`. Both work character by
character, up to the capital sigma. -/
structure CaseMapping where
  upper : Text → Text
  lower : Text → Text
  upper_append : ∀ s t, upper (s ++ t) = upper s ++ upper t
  lower_append : ∀ s t, capitalSigma ∉ s ++ t → lower (s ++ t) = lower s ++ lower t
  upper_ascii : ∀ c < 128, upper [c] = [upperAscii c]
  lower_ascii : ∀ c < 128, lower [c] = [lowerAscii c]
  upper_sigma : upper [capitalSigma] = [capitalSigma]
  one_way : ∀ c, 128 ≤ c → Ascii (upper [c]) → ¬ Ascii (lower [c])

variable {s t : Text} {c : Nat} {mapping : CaseMapping}

theorem Ascii.append : Ascii (s ++ t) ↔ Ascii s ∧ Ascii t := by
  simp only [Ascii, List.forall_mem_append]

namespace CaseMapping

theorem upper_nil (mapping : CaseMapping) : mapping.upper [] = [] := by
  have twice := mapping.upper_append [] []
  simpa using twice

theorem lower_nil (mapping : CaseMapping) : mapping.lower [] = [] := by
  have twice := mapping.lower_append [] [] (by simp)
  simpa using twice

theorem upper_cons : mapping.upper (c :: t) = mapping.upper [c] ++ mapping.upper t :=
  mapping.upper_append [c] t

theorem lower_cons (plain : capitalSigma ∉ c :: t) :
    mapping.lower (c :: t) = mapping.lower [c] ++ mapping.lower t :=
  mapping.lower_append [c] t plain

/-- On ASCII the two work as they do there. -/
theorem upper_of_ascii (ascii : Ascii t) : mapping.upper t = t.map upperAscii := by
  induction t with
  | nil => exact mapping.upper_nil
  | cons c rest ih =>
    obtain ⟨first, others⟩ := List.forall_mem_cons.mp ascii
    rw [upper_cons, mapping.upper_ascii c first, ih others]
    rfl

theorem not_sigma_of_ascii (ascii : Ascii (mapping.upper t)) : capitalSigma ∉ t := by
  induction t with
  | nil => exact List.not_mem_nil
  | cons c rest ih =>
    rw [upper_cons, Ascii.append] at ascii
    refine List.not_mem_cons_of_ne_of_not_mem ?_ (ih ascii.2)
    rintro rfl
    rw [mapping.upper_sigma] at ascii
    exact absurd (ascii.1 capitalSigma List.mem_cons_self) (by decide)

/-- A text whose two cases are both ASCII is ASCII itself. -/
theorem ascii_of_cases (up : Ascii (mapping.upper t)) (low : Ascii (mapping.lower t)) :
    Ascii t ∧ mapping.lower t = t.map lowerAscii := by
  have plain : capitalSigma ∉ t := not_sigma_of_ascii up
  induction t with
  | nil => exact ⟨by simp [Ascii], mapping.lower_nil⟩
  | cons c rest ih =>
    rw [upper_cons, Ascii.append] at up
    rw [lower_cons plain, Ascii.append] at low
    obtain ⟨others, lowered⟩ := ih up.2 low.2 (List.not_mem_of_not_mem_cons plain)
    have first : c < 128 := by
      by_contra outside
      exact mapping.one_way c (not_lt.mp outside) up.1 low.1
    refine ⟨List.forall_mem_cons.mpr ⟨first, others⟩, ?_⟩
    rw [lower_cons plain, mapping.lower_ascii c first, lowered]
    rfl

theorem upperAscii_lowerAscii (c : Nat) : upperAscii (lowerAscii c) = upperAscii c := by
  unfold upperAscii lowerAscii
  split_ifs <;> omega

/-- Where both cases are ASCII, they are cases of one another. -/
theorem upper_lower (up : Ascii (mapping.upper t)) (low : Ascii (mapping.lower t)) :
    mapping.upper (mapping.lower t) = mapping.upper t := by
  obtain ⟨ascii, lowered⟩ := ascii_of_cases up low
  rw [upper_of_ascii low, upper_of_ascii ascii, lowered, List.map_map]
  exact List.map_congr_left fun c _ => upperAscii_lowerAscii c

end CaseMapping

/-! ## Roles -/

inductive Role where
  | admin | producer | consumer | subscriber | monitor
  deriving DecidableEq

def Role.name : Role → String
  | admin => "admin"
  | producer => "producer"
  | consumer => "consumer"
  | subscriber => "subscriber"
  | monitor => "monitor"

structure Principal where
  name : Text
  role : Role
  deriving DecidableEq

def unauthenticatedCommands : List Text := ["PING", "AUTH"].map text

/-- `ROLE_COMMANDS`: a role's commands, or none where every command is allowed. -/
def roleCommands : Role → Option (List Text)
  | .admin => none
  | .producer => some <| ["PING", "AUTH", "PUBLISH", "DECLARE_QUEUE", "DECLARE_EXCHANGE", "BIND",
      "UNBIND", "QUEUE_INFO", "LIST_QUEUES"].map text
  | .consumer => some <| ["PING", "AUTH", "CONSUME", "GET", "ACK", "NACK", "CANCEL", "QOS",
      "DECLARE_QUEUE", "QUEUE_INFO"].map text
  | .subscriber => some <| ["PING", "AUTH", "SUBSCRIBE", "UNSUBSCRIBE", "PUBLISH_CHANNEL",
      "LIST_CHANNELS"].map text
  | .monitor => some <| ["PING", "AUTH", "INFO", "STATS", "LIST_QUEUES", "QUEUE_INFO",
      "LIST_CONSUMERS", "LIST_CHANNELS", "DLQ_INFO"].map text

/-- A command that is not allowed, with the code and the text of the error. -/
abbrev Refusal := ErrorCode × Text

/-- `authorize`: the refusal, if there is one. -/
def authorize (mapping : CaseMapping) (principal : Option Principal) (command : Text)
    (authRequired : Bool) : Option Refusal :=
  let cmd := mapping.upper command
  if unauthenticatedCommands.contains cmd then none
  else
    match principal with
    | none => if authRequired then some (.unauthorized, text "authentication required") else none
    | some principal =>
      match roleCommands principal.role with
      | none => none
      | some allowed =>
        if allowed.contains cmd then none
        else some (.forbidden, text ("role " ++ principal.role.name ++ " cannot ") ++ cmd)

/-! ## The choice of a method -/

/-- The names after `cmd_` of the handler's methods. -/
def methodNames : List Text := [
  "ping", "auth", "info", "stats", "declare_exchange", "delete_exchange", "declare_queue",
  "delete_queue", "queue_info", "list_queues", "bind", "unbind", "publish", "get", "consume",
  "cancel", "ack", "nack", "qos", "list_consumers", "subscribe", "unsubscribe", "publish_channel",
  "list_channels", "dlq_info", "dlq_requeue"].map text

/-- What `handle` does with a request: it answers without a method, for want of
a command or of a right, it raises or finds none in its `try`, or it calls one. -/
inductive Route where
  | missing
  | refused (refusal : Refusal)
  | raises (raised : Raised)
  | unknown (cmd : Text)
  | method (name : Text)
  deriving DecidableEq

/-- `str(cmd)`, where `str` serves the values that are no texts. -/
def commandText (str : Value → Text) : Value → Text
  | .text t => t
  | other => str other

/-- The part of `handle` up to the call. -/
def route (mapping : CaseMapping) (str : Value → Text) (authRequired : Bool)
    (principal : Option Principal) (cmd : Value) : Route :=
  if cmd.truthy then
    match authorize mapping principal (commandText str cmd) authRequired with
    | some refusal => .refused refusal
    | none =>
      match cmd with
      | .text cmd =>
        if methodNames.contains (mapping.lower cmd) then .method (mapping.lower cmd) else .unknown cmd
      | _ => .raises .attributeError
  else .missing

variable {str : Value → Text} {authRequired : Bool} {principal : Option Principal} {cmd : Value}
  {name command : Text} {commands : List Text}

theorem methodNames_ascii : ∀ name ∈ methodNames, Ascii name := by decide

theorem unauthenticatedCommands_ascii : ∀ command ∈ unauthenticatedCommands, Ascii command := by
  decide

theorem roleCommands_ascii (role : Role) :
    ∀ commands, roleCommands role = some commands → ∀ command ∈ commands, Ascii command := by
  cases role <;> simp only [roleCommands, Option.some.injEq, forall_eq', reduceCtorEq,
    false_imp_iff, implies_true] <;> decide

/-- Everyone may use the commands that need no authentication. -/
theorem unauthenticated_subset (role : Role) :
    ∀ commands, roleCommands role = some commands → unauthenticatedCommands ⊆ commands := by
  cases role <;> simp only [roleCommands, Option.some.injEq, forall_eq', reduceCtorEq,
    false_imp_iff, implies_true] <;> decide

/-- A method is called for a text that is authorized, by its lower case. -/
theorem route_method (called : route mapping str authRequired principal cmd = .method name) :
    ∃ command, cmd = .text command ∧ name = mapping.lower command ∧ name ∈ methodNames ∧
      authorize mapping principal command authRequired = none := by
  unfold route at called
  split at called
  · split at called
    · cases called
    · rename_i allowed
      split at called
      · split at called
        · rename_i known
          cases called
          exact ⟨_, rfl, rfl, List.contains_iff_mem.mp known, allowed⟩
        · cases called
      · cases called
  · cases called

/-- The upper case of a method's name is the upper case of the text that called
it, if that is a command. -/
theorem upper_method (known : mapping.lower command ∈ methodNames)
    (ascii : Ascii (mapping.upper command)) :
    mapping.upper (mapping.lower command) = mapping.upper command :=
  CaseMapping.upper_lower ascii (methodNames_ascii _ known)

/-- A principal with a list of commands is allowed those. -/
theorem authorize_bounded {principal : Principal} (bounded : roleCommands principal.role = some commands)
    (allowed : authorize mapping (some principal) command authRequired = none) :
    mapping.upper command ∈ commands := by
  unfold authorize at allowed
  dsimp only at allowed
  split at allowed
  · rename_i anyone
    exact unauthenticated_subset _ _ bounded (List.contains_iff_mem.mp anyone)
  · rw [bounded] at allowed
    dsimp only at allowed
    split at allowed
    · rename_i listed
      exact List.contains_iff_mem.mp listed
    · cases allowed

/-- The upper case of a method that is called is one of the principal's commands. -/
theorem route_bounded {principal : Principal} (bounded : roleCommands principal.role = some commands)
    (called : route mapping str authRequired (some principal) cmd = .method name) :
    name ∈ methodNames ∧ mapping.upper name ∈ commands := by
  obtain ⟨command, rfl, rfl, known, allowed⟩ := route_method called
  have member := authorize_bounded bounded allowed
  exact ⟨known, by rwa [upper_method known (roleCommands_ascii _ _ bounded _ member)]⟩

/-- A method that is called for a principal who is no admin is, in upper case,
one of the commands of the role. -/
theorem authorize_dispatch_agree {principal : Principal} (bounded : principal.role ≠ .admin)
    (called : route mapping str authRequired (some principal) cmd = .method name) :
    ∃ commands, roleCommands principal.role = some commands ∧ mapping.upper name ∈ commands := by
  obtain ⟨commands, listed⟩ : ∃ commands, roleCommands principal.role = some commands := by
    cases role : principal.role with
    | admin => exact absurd role bounded
    | _ => exact ⟨_, rfl⟩
  exact ⟨commands, listed, (route_bounded listed called).2⟩

/-! A case mapping with the Kelvin sign, which has only a lower case in ASCII,
and with the dotless i, the long s, the sharp s and a ligature, which have only
an upper case there. -/

def latinUpper (c : Nat) : Text :=
  if c = 0x131 then text "I"
  else if c = 0x17F then text "S"
  else if c = 0xDF then text "SS"
  else if c = 0xFB01 then text "FI"
  else [upperAscii c]

def latinLower (c : Nat) : Text := if c = 0x212A then text "k" else [lowerAscii c]

def latin : CaseMapping where
  upper t := t.flatMap latinUpper
  lower t := t.flatMap latinLower
  upper_append _ _ := List.flatMap_append
  lower_append _ _ _ := List.flatMap_append
  upper_ascii := by decide +kernel
  lower_ascii := by decide +kernel
  upper_sigma := by decide
  one_way c large up low := by
    have lowered : [c].flatMap latinLower = latinLower c := by simp
    rw [lowered] at low
    by_cases kelvin : c = 0x212A
    · subst kelvin
      exact absurd up (by decide)
    · rw [latinLower, if_neg kelvin] at low
      have small := low _ List.mem_cons_self
      unfold lowerAscii at small
      split_ifs at small <;> omega

/-- A monitor reads the statistics, in whatever case it asks for them. -/
theorem authorize_dispatch_agree_stats :
    ∃ commands, roleCommands .monitor = some commands ∧ latin.upper (text "stats") ∈ commands := by
  let ops : Principal := ⟨text "ops", .monitor⟩
  have called : route latin (fun _ => []) true (some ops) (.text (text "StAtS")) =
      .method (text "stats") := by decide +kernel
  have bounded : ops.role ≠ .admin := by decide
  exact authorize_dispatch_agree bounded called

end OneOpenBroker.Security

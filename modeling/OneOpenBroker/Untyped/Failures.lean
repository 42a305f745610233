import OneOpenBroker.Untyped.Ticker

/-! A request that ends in an internal error has changed nothing, if the
requests before it and itself are careful. -/
namespace OneOpenBroker.Untyped
open Collections Programs
open OneOpenBroker.Core (EngineConfig)

variable {config : EngineConfig}

/-- **Failed requests change nothing.** The engine, the routing tables and the
registry after an internal error are those before the request. -/
theorem internal_error_changes_nothing (host : Host) (clock : Nat → ℚ) (takes : Nat → Bool)
    (events : List Event) (refusal : Option (ErrorCode × Text)) (request : Request)
    (few : FewAttempts config)
    (tame : Systems.Allowed (Broker.step host)
      (fun b event => event.Storable host config b ∧ event.Careful host b)
      (Broker.created config clock takes) (events ++ [.request refusal request]))
    (failed : ((handle host refusal request).exec (reached host config clock takes events)).1.map
      Reply.internal = .ok true) :
    SameTables (reached host config clock takes events)
      (Broker.step host (reached host config clock takes events) (.request refusal request)) := by
  obtain ⟨before, ⟨storable, careful⟩, _⟩ := Systems.Allowed.append.mp tame
  have sound : (reached host config clock takes events).Sound True config :=
    Systems.run_preserves (fun _ _ sound tame => sound.step tame.1 fun _ => tame.2)
      (created_sound few) before
  have answered : wp (handle host refusal request)
      (Answered True config (reached host config clock takes events))
      (Aborted True config (reached host config clock takes events))
      (reached host config clock takes events) :=
    handle_wp sound (fun allowed => by subst allowed; exact storable)
      fun _ allowed => by subst allowed; exact careful
  change SameTables _ ((handle host refusal request).exec (reached host config clock takes events)).2
  cases ran : (handle host refusal request).exec (reached host config clock takes events) with
  | mk result b' =>
    rw [ran] at failed
    cases result with
    | ok reply => exact (wp_ok answered ran).2 trivial (Except.ok.inj failed)
    | error raised => cases failed

/-- BIND of a queue whose name is a list. -/
def binding : Request := requested [("cmd", .text (text "BIND")), ("queue", .list [.null])]

theorem publishing_careful (b : Broker) :
    Careful ascii b (publishing "jobs" (.number (.int 2))) where
  exchange calls := absurd calls (by decide +kernel)
  queue calls := absurd calls (by decide +kernel)
  publish _ := .inl nofun
  get calls := absurd calls (by decide +kernel)
  consume calls := absurd calls (by decide +kernel)
  cancel calls := absurd calls (by decide +kernel)

theorem binding_storable (b : Broker) : Storable ascii {} b binding where
  queue calls := absurd calls (by decide +kernel)
  publish calls := absurd calls (by decide +kernel)
  get calls := absurd calls (by decide +kernel)
  consume calls := absurd calls (by decide +kernel)

theorem binding_careful (b : Broker) : Careful ascii b binding where
  exchange calls := absurd calls (by decide +kernel)
  queue calls := absurd calls (by decide +kernel)
  publish calls := absurd calls (by decide +kernel)
  get calls := absurd calls (by decide +kernel)
  consume calls := absurd calls (by decide +kernel)
  cancel calls := absurd calls (by decide +kernel)

theorem internal_error_changes_nothing_bind : SameTables
    (reached ascii {} (fun n => n) (fun _ => true)
      [.connect "c1", .request none (publishing "jobs" (.number (.int 2)))])
    (Broker.step ascii (reached ascii {} (fun n => n) (fun _ => true)
      [.connect "c1", .request none (publishing "jobs" (.number (.int 2)))]) (.request none binding)) :=
  internal_error_changes_nothing ascii _ _ _ none binding
    (fun _ => by decide) ⟨⟨trivial, trivial⟩, ⟨publishing_storable _, publishing_careful _⟩,
      ⟨binding_storable _, binding_careful _⟩, trivial⟩ (by decide +kernel)

/-- A window that is no number: the queue of the CONSUME is declared before
`int` is called. -/
theorem window_after_declare : ¬ SameTables (reached ascii {} (fun n => n) (fun _ => true) [])
    (Broker.step ascii (reached ascii {} (fun n => n) (fun _ => true) [])
      (.request none (consuming "jobs" (.text (text "many"))))) ∧
    ((handle ascii none (consuming "jobs" (.text (text "many")))).exec
      (reached ascii {} (fun n => n) (fun _ => true) [])).1.map Reply.internal = .ok true := by
  refine ⟨fun same => ?_, by decide +kernel⟩
  have queues := congrArg (fun runtime => runtime.queues.queues.keys) same
  revert queues
  decide +kernel

end OneOpenBroker.Untyped

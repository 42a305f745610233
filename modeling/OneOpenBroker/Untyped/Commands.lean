import OneOpenBroker.Untyped.PumpSteps
import Mathlib.Data.List.TakeWhile

/-! Every command of the handler on a sound broker, and what a request has to
be for the command to keep the broker sound and to raise only where it has
changed nothing. -/
namespace OneOpenBroker.Untyped
open Collections Programs
open OneOpenBroker.Core (EngineConfig)
open QueueEngine (nothing)

variable {b b' b₀ : Broker} {strict : Prop} {config : EngineConfig} {host : Host}
  {connectionId : String} {metadata : Metadata} {request : Request} {names : List Value}

/-! ## Requests -/

/-- The request calls this method of the handler. -/
def Calls (host : Host) (request : Request) (method : String) : Prop :=
  ∃ cmd, field request.metadata "cmd" = .text cmd ∧ host.lower cmd = text method

def isText : Value → Bool
  | .text _ => true
  | _ => false

/-- The consumer id of a GET. -/
def getId (host : Host) (connectionId : String) (metadata : Metadata) : Value :=
  (field metadata "consumer_id").or
    (.text (getConsumerId host connectionId (field metadata "queue")))

/-- A consumer is registered under this id. -/
def Registered (b : Broker) (id : Value) : Prop := ∃ key ∈ b.consumers, id.hash = .ok key

/-- What a GET stores, if it registers its consumer. -/
def StorableGet (host : Host) (b : Broker) (connectionId : String) (metadata : Metadata) : Prop :=
  ¬ Registered b (getId host connectionId metadata) →
    (field metadata "queue").Plain ∧ (field metadata "consumer_id").Plain

/-- What a CONSUME stores: the names before the first that is no text are
declared. -/
def StorableConsume (metadata : Metadata) : Prop :=
  (field metadata "consumer_id").Plain ∧
    ∀ names, (consumeQueues metadata).iterate = .ok names → ∀ name ∈ names.takeWhile isText, name.Plain

/-- What a DECLARE_QUEUE stores. -/
def StorableQueue (metadata : Metadata) : Prop :=
  (field metadata "name").Plain ∧
    (field metadata "visibility_timeout" = .null ∨ (field metadata "visibility_timeout").Lasts)

/-- The values that the request stores take what is done with them later: the
texts and the headers can be written, the timeout can be added to a reading of
the clock, and the bound on the attempts can be compared. -/
structure Storable (host : Host) (config : EngineConfig) (b : Broker) (request : Request) :
    Prop where
  queue : Calls host request "declare_queue" → StorableQueue request.metadata
  publish : Calls host request "publish" → FinePublish config (publishArgs request.metadata [] 0)
  get : Calls host request "get" → StorableGet host b request.connectionId request.metadata
  consume : Calls host request "consume" → StorableConsume request.metadata

/-- The texts before the first name that is none are queues already. -/
def Declared (b : Broker) (names : List Value) : Prop :=
  ∀ name ∈ names.takeWhile isText, ∀ t, name = .text t → t ∈ b.queues.queues

/-- A GET that goes through, or leaves a registered consumer's window. -/
def CarefulGet (host : Host) (b : Broker) (connectionId : String) (metadata : Metadata) : Prop :=
  (Registered b (getId host connectionId metadata) → (field metadata "queue").Hashable ∨
    prefetchArg host metadata (prefetchOf b connectionId) = .ok 0) ∧
  (¬ Registered b (getId host connectionId metadata) → ∃ t, field metadata "queue" = .text t)

/-- The window is left to the connection, or `int` takes it. -/
def Windowed (host : Host) (metadata : Metadata) : Prop :=
  field metadata "prefetch" = .null ∨ ∃ n, host.toInt (field metadata "prefetch") = .ok n

/-- A CONSUME that goes through, or declares nothing. -/
def CarefulConsume (host : Host) (b : Broker) (metadata : Metadata) : Prop :=
  ∀ names, (consumeQueues metadata).iterate = .ok names →
    ((∀ name ∈ names, ∃ t, name = .text t) ∧ (field metadata "consumer_id").Hashable ∧
      Windowed host metadata) ∨ Declared b names

/-- The command goes through, or raises before it has changed anything. -/
structure Careful (host : Host) (b : Broker) (request : Request) : Prop where
  exchange : Calls host request "declare_exchange" → (field request.metadata "name").Plain
  queue : Calls host request "declare_queue" → field request.metadata "max_length" = .null ∨
    (field request.metadata "max_length").Measures
  publish : Calls host request "publish" → Files b (publishArgs request.metadata [] 0)
  get : Calls host request "get" → CarefulGet host b request.connectionId request.metadata
  consume : Calls host request "consume" → CarefulConsume host b request.metadata
  cancel : Calls host request "cancel" → ∀ key ∈ b.consumers,
    (field request.metadata "consumer_id").hash = .ok key → b.queues.Recoverable key

/-! ## Answers -/

/-- The reply that `handle` makes of an exception. -/
def Reply.internal : Reply → Bool
  | .ok _ => false
  | .err code _ => code = .internalError

/-- The broker is sound, and an internal error has changed nothing. -/
def Answered (strict : Prop) (config : EngineConfig) (b : Broker) (reply : Reply) (b' : Broker) :
    Prop := b'.Sound strict config ∧ (strict → reply.internal = true → SameTables b b')

/-- The broker is sound, and what was raised has changed nothing. -/
def Aborted (strict : Prop) (config : EngineConfig) (b : Broker) (_raised : Raised) (b' : Broker) :
    Prop := b'.Sound strict config ∧ (strict → SameTables b b')

theorem Aborted.unchanged {raised : Raised} (sound : b.Sound strict config) (same : b' = b) :
    Aborted strict config b raised b' := by
  subst same
  exact ⟨sound, fun _ => .refl⟩

theorem respond_wp {extra : List (String × Value)} (sound : b.Sound strict config)
    (written : strict → extra.all (·.2.encodable) = true ∨ SameTables b₀ b) :
    wp (respond extra) (Answered strict config b₀) (Aborted strict config b₀) b := by
  unfold respond
  rw [wp_bind]
  unfold encode
  rw [wp_ite]
  split
  · exact ⟨sound, fun _ internal => by cases internal⟩
  · rename_i unwritten
    exact ⟨sound, fun held => (written held).resolve_left unwritten⟩

theorem done_wp (sound : b.Sound strict config) :
    wp (respond []) (Answered strict config b₀) (Aborted strict config b₀) b :=
  respond_wp sound fun _ => .inl rfl

theorem fail_wp {code : ErrorCode} {message : Text} (sound : b.Sound strict config)
    (written : Text.encodable message = true) (external : code ≠ .internalError) :
    wp (fail code message) (Answered strict config b₀) (Aborted strict config b₀) b := by
  have plain : (Value.text message).encodable = true := written
  unfold fail
  rw [wp_bind]
  refine encode_wp ?_ ⟨sound, fun _ internal => absurd (of_decide_eq_true internal) external⟩
  rw [List.all_cons, plain]
  rfl

/-- A value of `meta.get(..) or default`. -/
theorem Value.Plain.or {v : Value} {literal : String} (plain : v.Plain) :
    (v.or (.text (Untyped.text literal))).Plain := Value.or_cases (fun _ => plain) (text_plain literal)

/-! ## Commands -/

theorem cmdDeclareExchange_wp (sound : b.Sound strict config)
    (plain : strict → (field metadata "name").Plain) :
    wp (cmdDeclareExchange metadata) (Answered strict config b) (Aborted strict config b) b := by
  unfold cmdDeclareExchange
  dsimp only
  rw [wp_bind, wp_attempt]
  refine wp_mono (declareExchange_wp sound) (fun _ b' after => ?_) fun raised b' same => ?_
  · rcases after with rfl | ⟨after, hashable, written⟩
    · exact respond_wp sound fun _ => .inr .refl
    · refine respond_wp after fun held => .inl ?_
      have name : ((field metadata "name").or (.text (text ""))).encodable = true :=
        Value.Plain.encodable (plain held).or hashable
      simp only [List.all_cons, List.all_nil, name, written, Bool.and_self]
  · subst same
    cases raised with
    | valueError => exact fail_wp sound (text_encodable _) (by decide)
    | _ => exact ⟨sound, fun _ => .refl⟩

theorem cmdDeleteExchange_wp (sound : b.Sound strict config) :
    wp (cmdDeleteExchange metadata) (Answered strict config b) (Aborted strict config b) b := by
  unfold cmdDeleteExchange
  rw [wp_bind]
  refine wp_mono (deleteExchange_wp sound) (fun _ b' after => ?_)
    fun _ _ same => .unchanged sound same
  rw [wp_ite]
  split
  · exact done_wp after
  · exact fail_wp after (text_encodable _) (by decide)

theorem cmdDeclareQueue_wp (sound : b.Sound strict config) (storable : StorableQueue metadata)
    (capacity : strict → field metadata "max_length" = .null ∨ (field metadata "max_length").Measures) :
    wp (cmdDeclareQueue metadata) (Answered strict config b) (Aborted strict config b) b := by
  unfold cmdDeclareQueue
  dsimp only
  rw [wp_ite]
  split
  · rw [wp_bind, wp_onQueues]
    refine wp_mono QueueEngine.declareQueue_wp (fun t e declared => ?_)
      fun _ _ failed => .unchanged sound (by rw [failed.1])
    obtain ⟨same, rfl⟩ := declared
    have plain := storable.1 t same
    have engine : (b.queues.declareText t ⟨field metadata "max_length",
        field metadata "visibility_timeout", field metadata "max_attempts"⟩).Sound strict config
        nothing := sound.engine.declareText plain ⟨storable.2, capacity⟩
    rw [wp_bind]
    refine wp_mono (onQueueDeclared_wp ⟨engine, sound.consumers⟩) (fun _ _ after => ?_)
      fun _ _ failed => failed.elim
    refine respond_wp after fun _ => .inl ?_
    rw [same, List.all_cons]
    exact Bool.and_eq_true_iff.mpr ⟨plain, rfl⟩
  · exact fail_wp sound (text_encodable _) (by decide)

theorem cmdDeleteQueue_wp (sound : b.Sound strict config) :
    wp (cmdDeleteQueue metadata) (Answered strict config b) (Aborted strict config b) b := by
  unfold cmdDeleteQueue
  rw [wp_bind, wp_onQueues]
  refine wp_mono (QueueEngine.deleteQueue_wp sound.engine) (fun _ e after => ?_)
    fun _ _ same => .unchanged sound (by rw [same])
  have kept : Broker.Sound strict config { b with queues := e } := ⟨after, sound.consumers⟩
  rw [wp_ite]
  split
  · exact done_wp kept
  · exact fail_wp kept (text_encodable _) (by decide)

theorem cmdBind_wp (sound : b.Sound strict config) :
    wp (cmdBind metadata) (Answered strict config b) (Aborted strict config b) b := by
  unfold cmdBind
  dsimp only
  rw [wp_bind]
  refine wp_mono (bind_wp sound) (fun _ b' after => ?_) fun _ _ failed => .unchanged sound failed.1
  rw [wp_ite]
  split
  · exact done_wp after
  · exact fail_wp after (text_encodable _) (by decide)

theorem cmdUnbind_wp (sound : b.Sound strict config) :
    wp (cmdUnbind metadata) (Answered strict config b) (Aborted strict config b) b := by
  unfold cmdUnbind
  dsimp only
  rw [wp_bind]
  refine wp_mono (unbind_wp sound) (fun _ b' after => ?_) fun _ _ same => .unchanged sound same
  rw [wp_ite]
  split
  · exact done_wp after
  · exact fail_wp after (text_encodable _) (by decide)

theorem encodableAll_texts {texts : List Text} (plain : ∀ t ∈ texts, Text.encodable t = true) :
    Value.encodableAll (texts.map .text) = true := by
  induction texts with
  | nil => rfl
  | cons t rest ih =>
    refine Bool.and_eq_true_iff.mpr ⟨plain t List.mem_cons_self, ih fun t' member => ?_⟩
    exact plain t' (List.mem_cons_of_mem _ member)

theorem cmdPublish_wp {payload : List UInt8} {uuid : Text → String} (sound : b.Sound strict config)
    (good : FinePublish config (publishArgs metadata [] 0))
    (files : strict → Files b (publishArgs metadata [] 0)) :
    wp (cmdPublish host metadata payload uuid) (Answered strict config b) (Aborted strict config b) b := by
  unfold cmdPublish
  rw [wp_bind]
  cases host.toInt ((field metadata "priority").or (.number (.int 0))) with
  | error raised => exact ⟨sound, fun _ => .refl⟩
  | ok priority =>
    rw [wp_ofExcept_ok, wp_bind]
    refine wp_mono (publish_wp sound ⟨good.queue, good.messageId, good.headers, good.bounds⟩ files)
      (fun answer b' after => ?_) fun _ _ failed => failed
    obtain ⟨kept, writable⟩ := after
    obtain ⟨messageId, routed, result⟩ := answer
    dsimp only
    rw [wp_ite]
    split
    · exact fail_wp kept (text_encodable _) (by decide)
    rename_i room
    rw [wp_ite]
    split
    · exact fail_wp kept (text_encodable _) (by decide)
    rename_i found
    rw [not_or] at found
    have accepted : result = .ok := by
      cases result with
      | ok => rfl
      | queueFull => exact absurd rfl room
      | notFound => exact absurd rfl found.1
    obtain ⟨id, reached⟩ := writable accepted
    have list : (Value.list (routed.map .text)).encodable = true := encodableAll_texts reached
    rw [wp_bind]
    refine wp_mono (pumpTexts_wp kept) (fun _ _ after => ?_) fun _ _ failed => failed.elim
    refine respond_wp after fun _ => .inl ?_
    simp only [List.all_cons, List.all_nil, id, list, Bool.and_self]

/-- The consumer of a GET is there, or it is registered on a text. -/
theorem getConsumer_wp {id queue : Value} {prefetch : ℤ} (sound : b.Sound strict config)
    (storable : ¬ Registered b id → queue.Plain ∧ id.Plain)
    (careful : strict → (Registered b id → queue.Hashable ∨ prefetch = 0) ∧
      (¬ Registered b id → ∃ t, queue = .text t)) :
    wp (getConsumer id connectionId queue prefetch)
      (fun _ b' => b'.Sound strict config ∧ (strict → b' = b ∨ queue.Hashable))
      (Aborted strict config b) b := by
  unfold getConsumer
  rw [wp_bind]
  refine wp_mono hashed_wp (fun key b' known => ?_) fun _ _ failed => .unchanged sound failed.1
  obtain ⟨rfl, hashed⟩ := known
  rw [wp_bind, wp_get, wp_ite]
  split
  · rename_i there
    have registered : Registered b' id := ⟨key, there, hashed⟩
    rw [wp_ite]
    split
    · exact ⟨sound, fun _ => .inl rfl⟩
    · rename_i window
      exact ⟨sound.updateQos, fun held =>
        .inr (((careful held).1 registered).resolve_right window)⟩
  · rename_i absent
    have unknown : ¬ Registered b' id := by
      rintro ⟨other, there, same⟩
      obtain rfl := Except.ok.inj (same.symm.trans hashed)
      exact absent there
    obtain ⟨plain, plainId⟩ := storable unknown
    have texts : strict → ∀ name ∈ [queue], ∃ t, name = .text t := by
      intro held name member
      rw [List.mem_singleton.mp member]
      exact (careful held).2 unknown
    refine wp_mono (register_wp sound plainId (fun name member => List.mem_singleton.mp member ▸ plain)
      texts) (fun _ _ after => ⟨after.1, fun held => .inr ?_⟩)
      fun _ _ failed => ⟨failed.1, fun held => absurd ⟨key, hashed⟩ (failed.2 held).2⟩
    obtain ⟨t, rfl⟩ := (careful held).2 unknown
    exact ⟨_, rfl⟩

theorem getConsumerId_plain (host : Host) {queue : Value} (plain : queue.Plain) :
    (Value.text (getConsumerId host connectionId queue)).Plain := by
  intro t same
  rw [← Value.text.inj same]
  unfold getConsumerId
  rw [text_append_encodable, text_append_encodable, text_append_encodable, text_encodable,
    text_encodable, text_encodable, Bool.true_and, Bool.true_and, Bool.true_and]
  split
  · exact plain _ rfl
  · exact host.str_encodable _ (by assumption)

theorem cmdGet_wp (sound : b.Sound strict config)
    (storable : StorableGet host b connectionId metadata)
    (careful : strict → CarefulGet host b connectionId metadata) :
    wp (cmdGet host connectionId metadata) (Answered strict config b) (Aborted strict config b) b := by
  unfold cmdGet
  dsimp only
  rw [wp_ite]
  split
  · rw [wp_bind, wp_get, wp_bind]
    cases computed : prefetchArg host metadata (prefetchOf b connectionId) with
    | error raised => exact ⟨sound, fun _ => .refl⟩
    | ok prefetch =>
      rw [wp_ofExcept_ok, wp_bind]
      refine wp_mono (getConsumer_wp sound (fun unknown => ?_) fun held => ?_)
        (fun _ b' after => ?_) fun _ _ failed => failed
      · obtain ⟨plain, plainId⟩ := storable unknown
        exact ⟨plain, Value.or_cases (fun _ => plainId) (getConsumerId_plain host plain)⟩
      · refine ⟨fun known => ((careful held).1 known).imp_right fun none => ?_, (careful held).2⟩
        exact Except.ok.inj (computed.symm.trans none)
      · rw [wp_bind]
        refine wp_mono (tryReserve_wp after.1) (fun found b'' reserved => ?_)
          fun _ b'' failed => ⟨failed.1 ▸ after.1, fun held => ?_⟩
        · split
          · exact respond_wp reserved.1 fun _ => .inl rfl
          · rename_i consumer message
            obtain ⟨fine, good, _⟩ := reserved.2 _ _ _ rfl
            refine respond_wp reserved.1 fun _ => .inl ?_
            rw [List.all_cons, delivery_encodable fine good]
            rfl
        · rw [failed.1]
          exact ((after.2 held).resolve_right failed.2) ▸ .refl
  · exact fail_wp sound (text_encodable _) (by decide)

/-- The queues of a CONSUME are declared, up to the first name that is none. -/
theorem ensureQueues_wp (sound : b.Sound strict config)
    (plain : ∀ name ∈ names.takeWhile isText, name.Plain) :
    wp (forM names ensureQueue)
      (fun _ b' => b'.Sound strict config ∧ (∀ name ∈ names, ∃ t, name = .text t) ∧
        (Declared b names → b' = b))
      (fun _ b' => b'.Sound strict config ∧ (¬ ∀ name ∈ names, ∃ t, name = .text t) ∧
        (Declared b names → b' = b)) b := by
  induction names generalizing b with
  | nil => exact ⟨sound, fun _ member => absurd member List.not_mem_nil, fun _ => rfl⟩
  | cons name rest ih =>
    rw [List.forM_cons, wp_bind]
    by_cases some : ∃ t, name = .text t
    · obtain ⟨t, rfl⟩ := some
      rw [List.takeWhile_cons_of_pos rfl] at plain
      refine wp_mono (ensureQueue_wp sound (plain _ List.mem_cons_self)) (fun _ b' after => ?_)
        fun _ _ failed => absurd rfl (failed.2 t)
      obtain ⟨kept, t', same, known⟩ := after
      obtain rfl := Value.text.inj same
      have back : Declared b (.text t :: rest) → b' = b ∧ Declared b' rest := by
        intro declared
        unfold Declared at declared
        rw [List.takeWhile_cons_of_pos rfl] at declared
        have first := known (declared _ List.mem_cons_self t rfl)
        subst first
        exact ⟨rfl, fun name member => declared name (List.mem_cons_of_mem _ member)⟩
      refine wp_mono (ih kept fun name member => plain name (List.mem_cons_of_mem _ member))
        (fun _ b'' later => ⟨later.1, ?_, fun declared => ?_⟩)
        fun _ b'' later => ⟨later.1, fun texts => later.2.1 fun name member =>
          texts name (List.mem_cons_of_mem _ member), fun declared => ?_⟩
      · intro name member
        rcases List.mem_cons.mp member with rfl | further
        · exact ⟨t, rfl⟩
        · exact later.2.1 name further
      · exact (later.2.2 (back declared).2).trans (back declared).1
      · exact (later.2.2 (back declared).2).trans (back declared).1
    · have absent : ¬ ∀ name' ∈ name :: rest, ∃ t, name' = .text t :=
        fun texts => some (texts name List.mem_cons_self)
      have plainName : name.Plain := fun t same => absurd ⟨t, same⟩ some
      refine wp_mono (ensureQueue_wp sound plainName) (fun _ b' after => ?_)
        fun _ b' failed => ⟨failed.1 ▸ sound, absent, fun _ => failed.1⟩
      obtain ⟨_, t, same, _⟩ := after
      exact absurd ⟨t, same⟩ some

theorem prefetchArg_ok (windowed : Windowed host metadata) (fallback : ℤ) :
    ∃ n, prefetchArg host metadata fallback = .ok n := by
  unfold prefetchArg
  split
  · exact ⟨fallback, rfl⟩
  · rename_i given
    exact windowed.resolve_left given

theorem cmdConsume_wp {uuid : String} (sound : b.Sound strict config)
    (storable : StorableConsume metadata)
    (careful : strict → CarefulConsume host b metadata) :
    wp (cmdConsume host connectionId metadata uuid) (Answered strict config b)
      (Aborted strict config b) b := by
  unfold cmdConsume
  rw [wp_ite]
  split
  · rw [wp_bind]
    cases iterated : (consumeQueues metadata).iterate with
    | error raised => exact ⟨sound, fun _ => .refl⟩
    | ok names =>
      rw [wp_ofExcept_ok, wp_bind]
      refine wp_mono (ensureQueues_wp sound (storable.2 names iterated)) (fun _ b' after => ?_)
        fun _ b' failed => ⟨failed.1, fun held => ?_⟩
      · obtain ⟨kept, texts, unchanged⟩ := after
        have plain : ∀ name ∈ names, name.Plain := by
          intro name member t same
          refine storable.2 names iterated name ?_ t same
          rw [List.takeWhile_eq_self_iff.mpr fun other listed => ?_]
          · exact member
          · obtain ⟨t, rfl⟩ := texts other listed
            rfl
        have plainId : ((field metadata "consumer_id").or (.text (text uuid))).Plain :=
          storable.1.or
        have hashableId (hashable : (field metadata "consumer_id").Hashable) :
            ((field metadata "consumer_id").or (.text (text uuid))).Hashable :=
          Value.or_cases (fun _ => hashable) ⟨_, rfl⟩
        dsimp only
        rw [wp_bind, wp_get, wp_bind]
        cases computed : prefetchArg host metadata (consumePrefetch b' connectionId) with
        | error raised =>
          refine ⟨kept, fun held => ?_⟩
          rcases careful held names iterated with ⟨_, _, windowed⟩ | declared
          · obtain ⟨n, same⟩ := prefetchArg_ok windowed (consumePrefetch b' connectionId)
            rw [same] at computed
            cases computed
          · rw [unchanged declared]
            exact .refl
        | ok prefetch =>
          rw [wp_ofExcept_ok, wp_bind]
          refine wp_mono (register_wp kept plainId plain fun _ => texts) (fun _ b'' joined => ?_)
            fun _ b'' failed => ⟨failed.1, fun held => ?_⟩
          · have hashable : ∀ name ∈ names, name.Hashable := by
              intro name member
              obtain ⟨t, rfl⟩ := texts name member
              exact ⟨_, rfl⟩
            rw [wp_bind]
            refine wp_mono (pumpAll_wp joined.1 fun _ => hashable) (fun _ _ pumped => ?_)
              fun _ _ failed => ?_
            · have id := plainId.encodable joined.2
              refine respond_wp pumped fun _ => .inl ?_
              rw [List.all_cons, id]
              rfl
            · exact ⟨failed.1, fun held => absurd held failed.2⟩
          · rcases careful held names iterated with ⟨_, hashable, _⟩ | declared
            · exact absurd (hashableId hashable) (failed.2 held).2
            · rw [(failed.2 held).1, unchanged declared]
              exact .refl
      · rcases careful held names iterated with through | declared
        · exact absurd through.1 failed.2.1
        · rw [failed.2.2 declared]
          exact .refl
  · exact fail_wp sound (text_encodable _) (by decide)

theorem cmdCancel_wp (sound : b.Sound strict config)
    (recoverable : strict → ∀ key ∈ b.consumers, (field metadata "consumer_id").hash = .ok key →
      b.queues.Recoverable key) :
    wp (cmdCancel metadata) (Answered strict config b) (Aborted strict config b) b := by
  unfold cmdCancel
  dsimp only
  rw [wp_ite]
  split
  · rw [wp_bind]
    refine wp_mono (cancel_wp sound recoverable) (fun _ b' after => ?_)
      fun _ _ failed => ⟨failed.1, fun held => (failed.2 held) ▸ .refl⟩
    rw [wp_ite]
    split
    · exact done_wp after
    · exact fail_wp after (text_encodable _) (by decide)
  · exact fail_wp sound (text_encodable _) (by decide)

/-- What follows a settled delivery. -/
theorem settle_wp {consumerId : Option Key} (sound : b.Sound strict config) :
    wp (do settled consumerId; respond []) (Answered strict config b₀) (Aborted strict config b₀) b := by
  rw [wp_bind]
  exact wp_mono (settled_wp sound) (fun _ _ after => done_wp after)
    fun _ _ failed => ⟨failed.1, fun held => absurd held failed.2⟩

theorem cmdAck_wp (sound : b.Sound strict config) :
    wp (cmdAck metadata) (Answered strict config b) (Aborted strict config b) b := by
  unfold cmdAck
  dsimp only
  rw [wp_ite]
  split
  · rw [wp_bind, wp_onQueues]
    refine wp_mono QueueEngine.inflightConsumer_wp (fun consumerId e found => ?_)
      fun _ _ same => .unchanged sound (by rw [same])
    obtain ⟨rfl, hashable⟩ := found
    rw [wp_bind, wp_onQueues]
    refine wp_mono (QueueEngine.ack_wp sound.engine hashable) (fun result e after => ?_)
      fun _ _ failed => failed.elim
    have kept : Broker.Sound strict config { b with queues := e } := ⟨after, sound.consumers⟩
    cases result with
    | ok => exact settle_wp kept
    | alreadyAcked => exact fail_wp kept (text_encodable _) (by decide)
    | notFound => exact fail_wp kept (text_encodable _) (by decide)
  · exact fail_wp sound (text_encodable _) (by decide)

theorem cmdNack_wp (sound : b.Sound strict config) :
    wp (cmdNack metadata) (Answered strict config b) (Aborted strict config b) b := by
  unfold cmdNack
  dsimp only
  rw [wp_ite]
  split
  · rw [wp_bind, wp_onQueues]
    refine wp_mono QueueEngine.inflightConsumer_wp (fun consumerId e found => ?_)
      fun _ _ same => .unchanged sound (by rw [same])
    obtain ⟨rfl, hashable⟩ := found
    rw [wp_bind, wp_onQueues]
    refine wp_mono (QueueEngine.nack_wp sound.engine hashable) (fun result e after => ?_)
      fun _ _ failed => failed.elim
    have kept : Broker.Sound strict config { b with queues := e } := ⟨after, sound.consumers⟩
    rw [wp_ite]
    split
    · exact settle_wp kept
    · exact fail_wp kept (text_encodable _) (by decide)
  · exact fail_wp sound (text_encodable _) (by decide)

theorem cmdQos_wp (sound : b.Sound strict config) :
    wp (cmdQos host connectionId metadata) (Answered strict config b) (Aborted strict config b) b := by
  unfold cmdQos
  rw [wp_bind]
  cases host.toInt ((field metadata "prefetch").or (.number (.int 0))) with
  | error raised => exact ⟨sound, fun _ => .refl⟩
  | ok prefetch =>
    rw [wp_ofExcept_ok, wp_bind, wp_modify]
    have opened : Broker.Sound strict config
        { b with prefetch := b.prefetch.set connectionId prefetch } := ⟨sound.engine, sound.consumers⟩
    have written : [("prefetch", Value.number (.int prefetch))].all (·.2.encodable) = true := rfl
    dsimp only
    rw [wp_ite]
    split
    · rw [wp_bind]
      refine wp_mono (setPrefetch_wp opened) (fun _ b' after => ?_) fun _ _ same => ?_
      · rw [wp_ite]
        split
        · exact respond_wp after fun _ => .inl written
        · exact fail_wp after (text_encodable _) (by decide)
      · subst same
        exact ⟨opened, fun _ => rfl⟩
    · rw [wp_bind, wp_modify]
      exact respond_wp opened.setWindows fun _ => .inl written

theorem cmdDlqRequeue_wp (sound : b.Sound strict config) :
    wp (cmdDlqRequeue metadata) (Answered strict config b) (Aborted strict config b) b := by
  unfold cmdDlqRequeue
  dsimp only
  rw [wp_ite]
  split
  · rw [wp_bind, wp_onQueues]
    refine wp_mono (QueueEngine.dlqRequeue_wp sound.engine) (fun moved e after => ?_)
      fun _ e failed => ⟨⟨failed.1, sound.consumers⟩, fun held => failed.2 held ▸ .refl⟩
    have kept : Broker.Sound strict config { b with queues := e } := ⟨after.1, sound.consumers⟩
    rw [wp_ite]
    split
    · obtain ⟨t, same⟩ := after.2
      rw [wp_bind]
      refine wp_mono (pumpQueue_wp kept) (fun _ _ pumped => done_wp pumped)
        fun _ _ failed => absurd ?_ failed.2
      rw [same]
      exact ⟨_, rfl⟩
    · exact fail_wp kept (text_encodable _) (by decide)
  · exact fail_wp sound (text_encodable _) (by decide)

/-! ## Dispatch -/

theorem unchanged_wp {result : Except Raised Reply} (sound : b.Sound strict config) :
    wp (MonadExcept.ofExcept result) (Answered strict config b) (Aborted strict config b) b := by
  cases result with
  | ok reply => exact ⟨sound, fun _ _ => .refl⟩
  | error raised => exact ⟨sound, fun _ => .refl⟩

theorem dispatch_wp (sound : b.Sound strict config) (storable : Storable host config b request)
    (careful : strict → Careful host b request) :
    wp (dispatch host request) (Answered strict config b) (Aborted strict config b) b := by
  unfold dispatch
  split
  · rename_i cmd named
    have calls {method : String} (same : host.lower cmd = text method) : Calls host request method :=
      ⟨cmd, named, same⟩
    split
    · rename_i method found
      obtain ⟨before, after, split, _⟩ := List.lookup_eq_some_iff.mp found
      have member : (host.lower cmd, method) ∈ methods host request := by
        rw [split]
        exact List.mem_append_right _ List.mem_cons_self
      unfold methods at member
      simp only [List.mem_cons, Prod.mk.injEq, List.not_mem_nil, or_false] at member
      rcases member with ⟨same, rfl⟩ | ⟨-, rfl⟩ | ⟨same, rfl⟩ | ⟨-, rfl⟩ | ⟨-, rfl⟩ | ⟨-, rfl⟩ |
        ⟨same, rfl⟩ | ⟨same, rfl⟩ | ⟨same, rfl⟩ | ⟨same, rfl⟩ | ⟨-, rfl⟩ | ⟨-, rfl⟩ | ⟨-, rfl⟩ |
        ⟨-, rfl⟩
      · exact cmdDeclareExchange_wp sound fun held => (careful held).exchange (calls same)
      · exact cmdDeleteExchange_wp sound
      · exact cmdDeclareQueue_wp sound (storable.queue (calls same))
          fun held => (careful held).queue (calls same)
      · exact cmdDeleteQueue_wp sound
      · exact cmdBind_wp sound
      · exact cmdUnbind_wp sound
      · exact cmdPublish_wp sound (storable.publish (calls same))
          fun held => (careful held).publish (calls same)
      · exact cmdGet_wp sound (storable.get (calls same)) fun held => (careful held).get (calls same)
      · exact cmdConsume_wp sound (storable.consume (calls same))
          fun held => (careful held).consume (calls same)
      · exact cmdCancel_wp sound fun held => (careful held).cancel (calls same)
      · exact cmdAck_wp sound
      · exact cmdNack_wp sound
      · exact cmdQos_wp sound
      · exact cmdDlqRequeue_wp sound
    · rw [wp_ite]
      split
      · rw [wp_bind, wp_get]
        exact unchanged_wp sound
      · unfold fail
        rw [wp_bind]
        unfold encode
        rw [wp_ite]
        split
        · exact ⟨sound, fun _ internal => by cases internal⟩
        · exact ⟨sound, fun _ => .refl⟩
  · exact ⟨sound, fun _ => .refl⟩

/-- Every request leaves a sound broker sound, and where it is careful an
internal error has changed nothing. -/
theorem handle_wp {refusal : Option (ErrorCode × Text)} (sound : b.Sound strict config)
    (storable : refusal = none → Storable host config b request)
    (careful : strict → refusal = none → Careful host b request) :
    wp (handle host refusal request) (Answered strict config b) (Aborted strict config b) b := by
  unfold handle
  rw [wp_ite]
  split
  · cases refusal with
    | some answer =>
      obtain ⟨code, message⟩ := answer
      unfold fail
      rw [wp_bind]
      unfold encode
      rw [wp_ite]
      split
      · exact ⟨sound, fun _ _ => .refl⟩
      · exact ⟨sound, fun _ => .refl⟩
    | none =>
      rw [wp_bind, wp_attempt]
      refine wp_mono (dispatch_wp sound (storable rfl) fun held => careful held rfl)
        (fun _ _ after => after) fun _ b' failed => ?_
      unfold fail
      rw [wp_bind]
      exact encode_wp (by rw [List.all_cons]; exact Bool.and_eq_true_iff.mpr ⟨text_encodable _, rfl⟩)
        ⟨failed.1, fun held _ => failed.2 held⟩
  · exact fail_wp sound (text_encodable _) (by decide)

end OneOpenBroker.Untyped

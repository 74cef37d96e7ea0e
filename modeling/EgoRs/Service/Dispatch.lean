import EgoRs.Service.Idempotency

/-! # Generated Dispatch

The method that `#[service]` generates for each `#[operation]`
(`service-sdk-macros/src/lib.rs`), with the interceptor chain of
`service-sdk/src/interceptor/chain.rs`:

1. the operation name is stamped on the context
2. `#[authorize]` guard
3. `#[tenant_scoped]` guard
4. `#[idempotent]` slot: fingerprint, reservation, replay
5. `on_request` chain
6. the handler
7. `#[idempotent]` epilogue
8. `on_response` or `on_error` chain

Steps 1 to 4 may return early (`prologue`). The proxy holds the runtime
weakly and upgrades it anew in each guard, so each of them may find it
gone.
-/

namespace EgoRs

/-! ### Operations and the runtime -/

/-- What the macro knows of one operation. -/
structure OperationDecl (Out Err : Type) where
  service : String
  method : String
  /-- Resource and action of `#[authorize]`. -/
  authorize : Option (String × String) := none
  tenantScoped : Bool := false
  idempotent : Bool := false
  codec : Codec Out
  fromSecurityError : SecurityError → Err
  fromRejection : ReservationRejection → Err

/-- `RuntimeInner`, as far as dispatch uses it. -/
structure Runtime where
  authorizationProvider : Option AuthorizationProvider := none
  tenantMode : TenantEnforcementMode := .authenticatedOnly
  reservation : Option ReservationConfig := none

/-- The places where generated code upgrades its weak runtime handle. -/
inductive Slot where
  | authorize
  | tenant
  | idempotency
  | epilogue
  deriving DecidableEq

/-- The proxy's handle: what `upgrade` gives in each slot of one call. -/
structure Handle where
  runtime : Runtime
  alive : Slot → Bool := fun _ => true

/-- `self.runtime.upgrade()`. -/
def Handle.upgrade (handle : Handle) (slot : Slot) : Option Runtime :=
  if handle.alive slot then some handle.runtime else none

/-- The code this development takes as given: hashing and JSON text. -/
structure Platform where
  sha256 : List UInt8 → List UInt8
  serde : SerdeJson

/-! ### Guards -/

section
variable {Out Err : Type} {P : ReservationPort}

section
variable (plat : Platform) (op : OperationDecl Out Err) (handle : Handle)

/-- The `#[authorize]` guard. -/
def authorizeGuard (ctx : ServiceContext) : Except Err Unit :=
  match op.authorize with
  | none => .ok ()
  | some (resource, action) =>
    match ctx.security with
    | none => .error (op.fromSecurityError .missingContext)
    | some security =>
      match handle.upgrade .authorize with
      | none => .error (op.fromSecurityError
          (.providerError "authorization provider unavailable: runtime dropped"))
      | some rt =>
        match rt.authorizationProvider with
        | none => .error (op.fromSecurityError .capabilityNotEnabled)
        | some provider =>
          (authorizeInContext (some security) ⟨resource, none⟩ action provider).mapError
            op.fromSecurityError

/-- The `#[tenant_scoped]` guard. Unmarked operations do not resolve a tenant. -/
def enforceTenantBlock (ctx : ServiceContext) : Except Err ServiceContext :=
  if op.tenantScoped then
    match handle.upgrade .tenant with
    | none => .error (op.fromSecurityError .missingContext)
    | some rt => (enforceTenant rt.tenantMode ctx).mapError op.fromSecurityError
  else .ok ctx

/-- How a guard ends: the method returns at once, or goes on. -/
abbrev Early (Out Err α : Type) : Type := Except (Except Err Out) α

/-- The `#[idempotent]` slot. `args` is `serde_json::to_value` of the tuple of
arguments, `none` when it fails. -/
def idempotencySlot (turn : StoreTurn P) (s : P.State) (ctx : ServiceContext)
    (args : Option JsonValue) :
    P.State × Early Out Err (ServiceContext × Option ReservationDecision) :=
  if op.idempotent then
    match handle.upgrade .idempotency, args with
    | none, _ => (s, .error (.error (op.fromRejection .storeUnavailable)))
    | some _, none => (s, .error (.error (op.fromRejection .requestNotFingerprintable)))
    | some rt, some value =>
      let fingerprint := operationFingerprint plat.sha256 value
      match reserveIdempotentOperation rt.reservation turn s ctx fingerprint with
      | (s', .error rejection) => (s', .error (.error (op.fromRejection rejection)))
      | (s', .ok (_, some (.replay stored))) =>
        -- answered with what was stored, and nothing else runs
        (s', .error ((decodeStoredResponse plat.serde op.codec stored).mapError
          op.fromRejection))
      | (s', .ok (ctx', decision)) => (s', .ok (ctx', decision))
  else (s, .ok (ctx, none))

/-- Everything before the interceptors. -/
def prologue (turn : StoreTurn P) (s : P.State) (ctx : ServiceContext) (args : Option JsonValue) :
    P.State × Early Out Err (ServiceContext × Option ReservationDecision) :=
  let ctx := ctx.withOperationName op.method
  match authorizeGuard op handle ctx with
  | .error e => (s, .error (.error e))
  | .ok () =>
    match enforceTenantBlock op handle ctx with
    | .error e => (s, .error (.error e))
    | .ok ctx => idempotencySlot plat op handle turn s ctx args

/-- The `#[idempotent]` epilogue, with the store call it made. -/
def epilogue (turn : StoreTurn P) (s : P.State) (decision : Option ReservationDecision)
    (result : Except Err Out) : P.State × Option (Call × Reply) :=
  if op.idempotent then
    match result, handle.upgrade .epilogue with
    | .ok output, some rt =>
      completeIdempotentOperation rt.reservation turn s decision
        (encodeStoredResponse plat.serde op.codec output).toOption
    | _, _ => (s, none)
  else (s, none)

/-! ### What the prologue can do -/

/-- The tenant scope the guards resolve for a call, if they let it through
with one. -/
def resolvedScope (ctx : ServiceContext) : Option (Option TenantId) :=
  (enforceTenantBlock op handle (ctx.withOperationName op.method)).toOption.bind fun c =>
    c.resolvedTenant.map CanonicalTenant.tenantId

/-- What the slot makes of the store's reply. -/
def afterReserve (ctx : ServiceContext) (reply : Reply) :
    Early Out Err (ServiceContext × Option ReservationDecision) :=
  match decideOutcome reply with
  | .error rejection => .error (.error (op.fromRejection rejection))
  | .ok (.replay stored) =>
    .error ((decodeStoredResponse plat.serde op.codec stored).mapError op.fromRejection)
  | .ok (.proceed permit) => .ok (ctx, some (.proceed permit))

end

/-- The call came as far as the store, and what it asked with. -/
structure Reserving (op : OperationDecl Out Err) (handle : Handle) (ctx : ServiceContext)
    (args : Option JsonValue) (config : ReservationConfig) (tenant : Option TenantId)
    (key : OperationKey) (value : JsonValue) : Prop where
  args : args = some value
  key : ctx.operationKey = some key
  scope : resolvedScope op handle ctx = some tenant
  config : handle.runtime.reservation = some config

variable {op : OperationDecl Out Err} {handle : Handle} {ctx ctx' : ServiceContext}

theorem enforceTenantBlock_operationKey (h : enforceTenantBlock op handle ctx = .ok ctx') :
    ctx'.operationKey = ctx.operationKey := by
  unfold enforceTenantBlock at h
  split at h
  · cases hup : handle.upgrade .tenant with
    | none => simp [hup] at h
    | some rt =>
      cases henf : enforceTenant rt.tenantMode ctx with
      | error => simp [hup, henf, Except.mapError] at h
      | ok =>
        obtain ⟨canonical, -, rfl⟩ := enforceTenant_ok henf
        simp only [hup, henf, Except.mapError, Except.ok.injEq] at h
        rw [← h]
  · simp only [Except.ok.injEq] at h
    rw [← h]

/-- The slot leaves the store alone and gives no permit, or it makes one
`reserve` call and goes by its reply. -/
theorem idempotencySlot_cases (plat : Platform) (op : OperationDecl Out Err) (handle : Handle)
    (turn : StoreTurn P) (s : P.State) (ctx : ServiceContext) (args : Option JsonValue) :
    (∃ config resolved key value, args = some value ∧ ctx.operationKey = some key ∧
        ctx.resolvedTenant = some resolved ∧ handle.runtime.reservation = some config ∧
        let fingerprint := operationFingerprint plat.sha256 value
        let asked := P.step s turn.storeClock turn.choice
          (.reserve (config.request turn resolved.tenantId key fingerprint))
        idempotencySlot plat op handle turn s ctx args =
          (asked.1, afterReserve plat op
            { ctx with operationFingerprint := some fingerprint } asked.2)) ∨
    ((idempotencySlot plat op handle turn s ctx args).1 = s ∧
      ((∃ e, (idempotencySlot plat op handle turn s ctx args).2 = .error (.error e)) ∨
        ∃ ctx', (idempotencySlot plat op handle turn s ctx args).2 = .ok (ctx', none))) := by
  unfold idempotencySlot
  by_cases hidem : op.idempotent = true
  · simp only [hidem, if_true]
    cases hup : handle.upgrade .idempotency with
    | none => exact Or.inr ⟨rfl, Or.inl ⟨_, rfl⟩⟩
    | some rt =>
      have hrt : rt = handle.runtime := by
        unfold Handle.upgrade at hup
        split at hup
        · simpa using hup.symm
        · cases hup
      subst hrt
      cases args with
      | none => exact Or.inr ⟨rfl, Or.inl ⟨_, rfl⟩⟩
      | some value =>
        simp only [reserveIdempotentOperation]
        cases hconfig : handle.runtime.reservation with
        | none => exact Or.inr ⟨rfl, Or.inr ⟨_, rfl⟩⟩
        | some config =>
          cases hkey : ctx.operationKey with
          | none => exact Or.inr ⟨rfl, Or.inr ⟨_, rfl⟩⟩
          | some key =>
            cases hten : ctx.resolvedTenant with
            | none => exact Or.inr ⟨rfl, Or.inl ⟨_, rfl⟩⟩
            | some resolved =>
              refine Or.inl ⟨config, resolved, key, value, rfl, rfl, rfl, rfl, ?_⟩
              simp only [ReservationConfig.reserve, afterReserve]
              -- both sides branch on what the reply means
              cases decideOutcome (P.step s turn.storeClock turn.choice
                  (.reserve (config.request turn resolved.tenantId key
                    (operationFingerprint plat.sha256 value)))).2 with
              | error => rfl
              | ok decision => cases decision <;> rfl
  · simp only [hidem, Bool.false_eq_true, if_false]
    exact Or.inr ⟨trivial, Or.inr ⟨ctx, rfl⟩⟩

theorem prologue_cases (plat : Platform) (op : OperationDecl Out Err) (handle : Handle)
    (turn : StoreTurn P) (s : P.State) (ctx : ServiceContext) (args : Option JsonValue) :
    (∃ config tenant key value ctx', Reserving op handle ctx args config tenant key value ∧
        ctx'.operationKey = some key ∧
        ctx'.resolvedTenant.map CanonicalTenant.tenantId = some tenant ∧
        let asked := P.step s turn.storeClock turn.choice
          (.reserve (config.request turn tenant key (operationFingerprint plat.sha256 value)))
        prologue plat op handle turn s ctx args =
          (asked.1, afterReserve plat op ctx' asked.2)) ∨
    ((prologue plat op handle turn s ctx args).1 = s ∧
      ((∃ e, (prologue plat op handle turn s ctx args).2 = .error (.error e)) ∨
        ∃ ctx', (prologue plat op handle turn s ctx args).2 = .ok (ctx', none))) := by
  simp only [prologue]
  cases hauth : authorizeGuard op handle (ctx.withOperationName op.method) with
  | error e => exact Or.inr ⟨rfl, Or.inl ⟨e, rfl⟩⟩
  | ok =>
    cases hblock : enforceTenantBlock op handle (ctx.withOperationName op.method) with
    | error e => exact Or.inr ⟨rfl, Or.inl ⟨e, rfl⟩⟩
    | ok c =>
      simp only
      rcases idempotencySlot_cases plat op handle turn s c args with
        ⟨config, resolved, key, value, hargs, hkey, hten, hconfig, heq⟩ | hquiet
      · left
        have hkey' : ctx.operationKey = some key := by
          rw [enforceTenantBlock_operationKey hblock] at hkey
          exact hkey
        have hscope : resolvedScope op handle ctx = some resolved.tenantId := by
          simp [resolvedScope, hblock, Except.toOption, hten]
        exact ⟨config, resolved.tenantId, key, value,
          { c with operationFingerprint := some (operationFingerprint plat.sha256 value) },
          ⟨hargs, hkey', hscope, hconfig⟩, hkey, by simp [hten], heq⟩
      · exact Or.inr hquiet

/-! ### Interceptors -/

/-- An interceptor, as it behaves during one call. -/
structure Interceptor (Err Fault : Type) where
  onRequest : ServiceContext → Except Fault Unit
  onResponse : ServiceContext → Except Fault Unit := fun _ => .ok ()
  onError : ServiceContext → Err → Except Fault Unit := fun _ _ => .ok ()

variable {Fault : Type}

/-- The loop of the three chain methods: the hooks called, and the result.
The first error ends it. -/
def runChain (hook : Interceptor Err Fault → Except Fault Unit) :
    List (Interceptor Err Fault) → List (Except Fault Unit) × Except Fault Unit
  | [] => ([], .ok ())
  | i :: rest =>
    match hook i with
    | .error e => ([.error e], .error e)
    | .ok () =>
      let (called, result) := runChain hook rest
      (.ok () :: called, result)

/-! ### One call -/

/-- What a call does that others can see. -/
inductive Event (Err Fault : Type) where
  | onRequest (result : Except Fault Unit)
  | handler (ctx : ServiceContext)
  | complete (call : Call) (reply : Reply)
  | onResponse (result : Except Fault Unit)
  | onError (result : Except Fault Unit)

structure Dispatched (P : ReservationPort) (Out Err Fault : Type) where
  result : Except Err Out
  events : List (Event Err Fault)
  store : P.State

def closing (chain : List (Interceptor Err Fault)) (ctx : ServiceContext) :
    Except Err Out → List (Event Err Fault)
  | .ok _ => (runChain (fun i => i.onResponse ctx) chain).1.map .onResponse
  | .error e => (runChain (fun i => i.onError ctx e) chain).1.map .onError

/-- The generated method. `meanwhile` is what other callers do to the store
while the handler runs. -/
def dispatch (plat : Platform) (op : OperationDecl Out Err) (handle : Handle)
    (chain : List (Interceptor Err Fault)) (handler : ServiceContext → Except Err Out)
    (begin finish : StoreTurn P) (meanwhile : P.State → P.State) (s : P.State)
    (ctx : ServiceContext) (args : Option JsonValue) : Dispatched P Out Err Fault :=
  match prologue plat op handle begin s ctx args with
  | (s₁, .error result) => ⟨result, [], s₁⟩
  | (s₁, .ok (ctx, decision)) =>
    -- `let _ = chain_ref.on_request(&ctx).await`: the result is dropped
    let requests := (runChain (fun i => i.onRequest ctx) chain).1
    let result := handler ctx
    let (s₂, completion) := epilogue plat op handle finish (meanwhile s₁) decision result
    { result := result
      events := requests.map .onRequest ++ [.handler ctx] ++
        (completion.toList.map fun c => .complete c.1 c.2) ++ closing chain ctx result
      store := s₂ }

/-! ### A failing `on_request` -/

/-- A failing `on_request` means no handler ran, no response was recorded, and an error. -/
def FailingInterceptorBlocks (d : Dispatched P Out Err Fault) : Prop :=
  (∃ e, .onRequest (.error e) ∈ d.events) →
    (∀ ctx, .handler ctx ∉ d.events) ∧ (∃ e, d.result = .error e) ∧
      ∀ fence response, .complete (.complete fence response) .done ∉ d.events

/-- The chain reaches an error exactly when some hook returns one. -/
theorem exists_error_mem_runChain (hook : Interceptor Err Fault → Except Fault Unit)
    (chain : List (Interceptor Err Fault)) :
    (∃ e, .error e ∈ (runChain hook chain).1) ↔ ∃ i ∈ chain, ∃ e, hook i = .error e := by
  induction chain with
  | nil => simp [runChain]
  | cons i rest ih =>
    cases hi : hook i with
    | error e =>
      simp only [runChain, hi, List.mem_singleton, List.exists_mem_cons_iff]
      constructor
      · intro _
        exact Or.inl ⟨e, rfl⟩
      · intro _
        exact ⟨e, rfl⟩
    | ok =>
      have hhead : ¬ ∃ e, hook i = .error e := by simp [hi]
      have hstep : (runChain hook (i :: rest)).1 = .ok () :: (runChain hook rest).1 := by
        simp [runChain, hi]
      rw [hstep, List.exists_mem_cons_iff]
      simp only [hi, reduceCtorEq, exists_false, false_or]
      rw [← ih]
      simp

section
variable {plat : Platform} {chain : List (Interceptor Err Fault)}
  {handler : ServiceContext → Except Err Out} {begin finish : StoreTurn P}
  {meanwhile : P.State → P.State} {s s₁ : P.State} {args : Option JsonValue}
  {decision : Option ReservationDecision}
  (hadm : prologue plat op handle begin s ctx args = (s₁, .ok (ctx', decision)))
include hadm

/-- An admitted call runs its handler, whatever the interceptors said. -/
theorem handler_mem_of_admitted : .handler ctx' ∈
      (dispatch plat op handle chain handler begin finish meanwhile s ctx args).events := by
  simp [dispatch, hadm]

/-- The `on_request` events of an admitted call are those of the chain. -/
theorem onRequest_mem_iff (r : Except Fault Unit) : .onRequest r ∈
        (dispatch plat op handle chain handler begin finish meanwhile s ctx args).events ↔
      r ∈ (runChain (fun i => i.onRequest ctx') chain).1 := by
  have hclosing : .onRequest r ∉ closing chain ctx' (handler ctx') := by
    unfold closing
    split <;> simp
  simp [dispatch, hadm, hclosing]

end

/-- **When a failing interceptor blocks the call.** The law holds of a call
exactly when no interceptor fails on it or a guard ended the call before
the chain: the result of `on_request` is dropped. -/
theorem failing_interceptor_blocks_iff (plat : Platform) (op : OperationDecl Out Err)
    (handle : Handle) (chain : List (Interceptor Err Fault))
    (handler : ServiceContext → Except Err Out) (begin finish : StoreTurn P)
    (meanwhile : P.State → P.State) (s : P.State) (ctx : ServiceContext) (args : Option JsonValue) :
    FailingInterceptorBlocks
        (dispatch plat op handle chain handler begin finish meanwhile s ctx args) ↔
      ∀ s₁ ctx' decision,
        prologue plat op handle begin s ctx args = (s₁, .ok (ctx', decision)) →
        ∀ i ∈ chain, i.onRequest ctx' = .ok () := by
  rcases hpro : prologue plat op handle begin s ctx args with ⟨s₁, result | ⟨ctx', decision⟩⟩
  · -- a guard returned: no hook was called
    constructor
    · intro _ s₂ ctx₂ decision₂ heq
      cases heq
    · rintro _ ⟨e, he⟩
      simp [dispatch, hpro] at he
  · constructor
    · intro hblocks s₂ ctx₂ decision₂ heq i hi
      simp only [Prod.mk.injEq, Except.ok.injEq] at heq
      obtain ⟨-, rfl, -⟩ := heq
      cases hres : i.onRequest ctx' with
      | ok => rfl
      | error e =>
        -- a failing hook and a handler that ran all the same
        exfalso
        obtain ⟨e', he'⟩ := (exists_error_mem_runChain (fun i => i.onRequest ctx') chain).mpr
          ⟨i, hi, e, hres⟩
        exact (hblocks ⟨e', (onRequest_mem_iff hpro _).mpr he'⟩).1 ctx'
          (handler_mem_of_admitted hpro)
    · rintro hok ⟨e, he⟩
      exfalso
      obtain ⟨i, hi, e', hres⟩ := (exists_error_mem_runChain (fun i => i.onRequest ctx') chain).mp
        ⟨e, (onRequest_mem_iff hpro _).mp he⟩
      have := hok s₁ ctx' decision rfl i hi
      rw [hres] at this
      cases this

end

/-! ### A call that goes through although its interceptor refused it -/

def jsonCodec : Codec Json := ⟨some, some⟩

/-- The stored form of the one response the sample calls give. -/
def sampleEnvelope : Json := .object [("v", .number "1"), ("payload", .string "placed")]

def sampleText : List UInt8 := utf8 "\x7b\"v\":1,\"payload\":\"placed\"\x7d"

/-- The SHA-256 digest of the one byte `absorb_canonical` feeds for `null`. -/
def sampleDigest : List UInt8 :=
  [110, 52, 11, 156, 255, 179, 122, 152, 156, 165, 68, 230, 187, 120, 10, 44, 120, 144, 29,
    63, 179, 55, 56, 118, 133, 17, 163, 6, 23, 175, 160, 29]

/-- Hashing and JSON text as they are on the sample calls: no arguments, and
the one response. -/
def samplePlatform : Platform where
  sha256 bytes := if bytes = [0] then sampleDigest else bytes
  serde.toVec
    | .object [("v", .number "1"), ("payload", .string "placed")] => sampleText
    | _ => []
  serde.fromSlice bytes := if bytes = sampleText then some sampleEnvelope else none

/-- An idempotent operation of a tenant, with the errors kept as they are. -/
def sampleOperation (method : String) :
    OperationDecl Json (SecurityError ⊕ ReservationRejection) where
  service := "Orders"
  method := method
  tenantScoped := true
  idempotent := true
  codec := jsonCodec
  fromSecurityError := .inl
  fromRejection := .inr

/-- A runtime that reserves for owner `a`. -/
def sampleHandle : Handle where
  runtime := { reservation := some ⟨⟨"a"⟩, 10, by decide⟩ }

def sampleTurn (now : Timestamp) : StoreTurn Memory.port := ⟨now, now, .stored⟩

/-- A user of tenant `t` presents `sampleKey`. -/
def sampleContext : ServiceContext :=
  (ServiceContext.new.withSecurity
    ⟨⟨.user, sampleSubject, some ⟨"t", by decide⟩, [], []⟩, {}⟩).withOperationKey sampleKey

def refusing : Interceptor (SecurityError ⊕ ReservationRejection) String :=
  { onRequest := fun _ => .error "refused" }

theorem refused_call_succeeds :
    ∃ d : Dispatched Memory.port Json (SecurityError ⊕ ReservationRejection) String,
      d = dispatch samplePlatform (sampleOperation "place") sampleHandle [refusing]
        (fun _ => .ok (.string "placed")) (sampleTurn 0) (sampleTurn 1) id Memory.port.init
        sampleContext
        (some ⟨.null, trivial⟩) ∧
      d.result = .ok (.string "placed") ∧ (∃ call, .complete call .done ∈ d.events) ∧
      ¬ FailingInterceptorBlocks d := by
  refine ⟨_, rfl, rfl, ?_, ?_⟩
  · exact ⟨_, List.mem_cons_of_mem _ (List.mem_cons_of_mem _ List.mem_cons_self)⟩
  intro hblocks
  obtain ⟨e, he⟩ := (hblocks ⟨"refused", List.mem_cons_self⟩).2.1
  cases he

end EgoRs

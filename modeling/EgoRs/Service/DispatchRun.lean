import EgoRs.Service.Dispatch

/-! # Concurrent Dispatches over One Store

Any number of proxies, of any runtimes, dispatch operations over one
reservation store. A call is in flight between its prologue and its
epilogue, and everything else may happen in between: other calls begin and
finish, leases are renewed and abandoned, completed reservations are
purged. A call that never finishes stays in flight for good.

`Moves` says once what one step of such a run can do.
-/

namespace EgoRs

open Framework

/-- The operations of a deployment, and the code it takes as given. -/
structure Deployment (Op Out Err : Type) where
  plat : Platform
  decl : Op → OperationDecl Out Err

/-- A call whose handler is running, with what its generated method holds. -/
structure InFlight (Op : Type) where
  op : Op
  handle : Handle
  args : Option JsonValue
  ctx : ServiceContext
  decision : Option ReservationDecision

structure RunState (P : ReservationPort) (Op : Type) where
  store : P.State
  calls : List (InFlight Op)

/-- The store calls nobody's dispatch makes. -/
inductive Maintenance where
  | renew (fence : OwnerFence) (until' : Timestamp)
  | abandon (fence : OwnerFence)
  | purgeCompletedBefore (cutoff : Timestamp) (batch : Nat)

def Maintenance.call : Maintenance → Call
  | .renew fence until' => .renew fence until'
  | .abandon fence => .abandon fence
  | .purgeCompletedBefore cutoff batch => .purgeCompletedBefore cutoff batch

inductive RunInput (P : ReservationPort) (Op Out Err : Type) where
  /-- A call of `op` arrives and runs its prologue. -/
  | begin (op : Op) (handle : Handle) (turn : StoreTurn P) (ctx : ServiceContext)
      (args : Option JsonValue)
  /-- The handler of the `i`-th call in flight returns; the epilogue runs. -/
  | finish (i : Nat) (turn : StoreTurn P) (result : Except Err Out)
  | maintain (now : Timestamp) (choice : P.Choice) (m : Maintenance)

/-- The store's clock reading during a step. -/
def RunInput.now {P : ReservationPort} {Op Out Err : Type} : RunInput P Op Out Err → Timestamp
  | .begin _ _ turn _ _ => turn.storeClock
  | .finish _ turn _ => turn.storeClock
  | .maintain now _ _ => now

inductive RunOutput (Out Err : Type) where
  | begun (r : Early Out Err (ServiceContext × Option ReservationDecision))
  | finished (completion : Option (Call × Reply))
  | maintained (reply : Reply)
  /-- There is no such call in flight. -/
  | idle

variable {P : ReservationPort} {Op Out Err : Type}

def Deployment.step (sys : Deployment Op Out Err) (st : RunState P Op) :
    RunInput P Op Out Err → RunState P Op × RunOutput Out Err
  | .begin op handle turn ctx args =>
    match prologue sys.plat (sys.decl op) handle turn st.store ctx args with
    | (s, .error result) => (⟨s, st.calls⟩, .begun (.error result))
    | (s, .ok (ctx, decision)) =>
      (⟨s, st.calls ++ [⟨op, handle, args, ctx, decision⟩]⟩, .begun (.ok (ctx, decision)))
  | .finish i turn result =>
    match st.calls[i]? with
    | some c =>
      let (s, completion) :=
        epilogue sys.plat (sys.decl c.op) c.handle turn st.store c.decision result
      (⟨s, st.calls.eraseIdx i⟩, .finished completion)
    | none => (st, .idle)
  | .maintain now choice m =>
    let (s, reply) := P.step st.store now choice m.call
    (⟨s, st.calls⟩, .maintained reply)

/-- The deployment over the store `P`, starting empty. -/
def Deployment.machine (sys : Deployment Op Out Err) (P : ReservationPort) :
    Machine (RunState P Op) (RunInput P Op Out Err) (RunOutput Out Err) where
  init := ⟨P.init, []⟩
  step := sys.step

abbrev RunTransition (P : ReservationPort) (Op Out Err : Type) : Type :=
  Transition (RunState P Op) (RunInput P Op Out Err) (RunOutput Out Err)

abbrev RunHistory (P : ReservationPort) (Op Out Err : Type) : Type :=
  List (RunTransition P Op Out Err)

def RunState.records (st : RunState P Op) : Memory.Records := P.contents st.store

/-- The store's answer to the `reserve` of a beginning call. -/
def Deployment.asks (sys : Deployment Op Out Err) (st : RunState P Op) (turn : StoreTurn P)
    (config : ReservationConfig) (tenant : Option TenantId) (key : OperationKey)
    (value : JsonValue) : P.State × Reply :=
  P.step st.store turn.storeClock turn.choice
    (.reserve (config.request turn tenant key (operationFingerprint sys.plat.sha256 value)))

/-- When the answer leads to a decision, it is the contract's own. -/
theorem asks_step {sys : Deployment Op Out Err} {st : RunState P Op} {turn : StoreTurn P}
    {config : ReservationConfig} {tenant : Option TenantId} {key : OperationKey}
    {value : JsonValue} {decision : ReservationDecision}
    (h : decideOutcome (sys.asks st turn config tenant key value).2 = .ok decision) :
    Memory.Step st.records turn.storeClock
      (.reserve (config.request turn tenant key (operationFingerprint sys.plat.sha256 value)))
      (P.contents (sys.asks st turn config tenant key value).1)
      (sys.asks st turn config tenant key value).2 := by
  refine P.step_of_reply rfl ?_
  intro message hfail
  change (sys.asks st turn config tenant key value).2 = _ at hfail
  rw [hfail] at h
  cases h

/-! ### What one step can do -/

section
variable (sys : Deployment Op Out Err) (st : RunState P Op)

/-- One constructor for each way through a step. -/
inductive Moves : RunInput P Op Out Err → RunState P Op → RunOutput Out Err → Prop where
  /-- A guard refused the call before the store was asked. -/
  | refused (op : Op) (handle : Handle) (turn : StoreTurn P) (ctx : ServiceContext)
      (args : Option JsonValue) (e : Err) :
      Moves (.begin op handle turn ctx args) st (.begun (.error (.error e)))
  /-- The call runs without a reservation. -/
  | unreserved (op : Op) (handle : Handle) (turn : StoreTurn P) (ctx ctx' : ServiceContext)
      (args : Option JsonValue) : Moves (.begin op handle turn ctx args)
        ⟨st.store, st.calls ++ [⟨op, handle, args, ctx', none⟩]⟩ (.begun (.ok (ctx', none)))
  | rejected (op : Op) (handle : Handle) (turn : StoreTurn P) (ctx : ServiceContext)
      (args : Option JsonValue) (config : ReservationConfig) (tenant : Option TenantId)
      (key : OperationKey) (value : JsonValue) (rejection : ReservationRejection)
      (hr : Reserving (sys.decl op) handle ctx args config tenant key value)
      (hreply : decideOutcome (sys.asks st turn config tenant key value).2 = .error rejection) :
      Moves (.begin op handle turn ctx args)
        ⟨(sys.asks st turn config tenant key value).1, st.calls⟩
        (.begun (.error (.error ((sys.decl op).fromRejection rejection))))
  | replayed (op : Op) (handle : Handle) (turn : StoreTurn P) (ctx : ServiceContext)
      (args : Option JsonValue) (config : ReservationConfig) (tenant : Option TenantId)
      (key : OperationKey) (value : JsonValue) (stored : StoredServiceResponse)
      (hr : Reserving (sys.decl op) handle ctx args config tenant key value)
      (hreply : decideOutcome (sys.asks st turn config tenant key value).2 =
        .ok (.replay stored)) : Moves (.begin op handle turn ctx args)
        ⟨(sys.asks st turn config tenant key value).1, st.calls⟩
        (.begun (.error ((decodeStoredResponse sys.plat.serde (sys.decl op).codec
          stored).mapError (sys.decl op).fromRejection)))
  | granted (op : Op) (handle : Handle) (turn : StoreTurn P) (ctx ctx' : ServiceContext)
      (args : Option JsonValue) (config : ReservationConfig) (tenant : Option TenantId)
      (key : OperationKey) (value : JsonValue) (permit : ReservationPermit)
      (hr : Reserving (sys.decl op) handle ctx args config tenant key value)
      (hkey : ctx'.operationKey = some key)
      (hscope : ctx'.resolvedTenant.map CanonicalTenant.tenantId = some tenant)
      (hreply : decideOutcome (sys.asks st turn config tenant key value).2 =
        .ok (.proceed permit)) : Moves (.begin op handle turn ctx args)
        ⟨(sys.asks st turn config tenant key value).1,
          st.calls ++ [⟨op, handle, args, ctx', some (.proceed permit)⟩]⟩
        (.begun (.ok (ctx', some (.proceed permit))))
  /-- A handler returned and there was nothing to record. -/
  | unrecorded (i : Nat) (turn : StoreTurn P) (result : Except Err Out) (c : InFlight Op)
      (hc : st.calls[i]? = some c) :
      Moves (.finish i turn result) ⟨st.store, st.calls.eraseIdx i⟩ (.finished none)
  | recorded (i : Nat) (turn : StoreTurn P) (out : Out) (c : InFlight Op)
      (permit : ReservationPermit) (stored : StoredServiceResponse)
      (hc : st.calls[i]? = some c) (hdecision : c.decision = some (.proceed permit))
      (hencode : encodeStoredResponse sys.plat.serde (sys.decl c.op).codec out = .ok stored) :
      Moves (.finish i turn (.ok out))
        ⟨(P.step st.store turn.storeClock turn.choice (.complete permit.fence stored)).1,
          st.calls.eraseIdx i⟩
        (.finished (some (.complete permit.fence stored,
          (P.step st.store turn.storeClock turn.choice (.complete permit.fence stored)).2)))
  | maintained (now : Timestamp) (choice : P.Choice) (m : Maintenance) :
      Moves (.maintain now choice m) ⟨(P.step st.store now choice m.call).1, st.calls⟩
        (.maintained (P.step st.store now choice m.call).2)
  | idle (i : Nat) (turn : StoreTurn P) (result : Except Err Out) :
      Moves (.finish i turn result) st .idle

end

theorem begin_moves (sys : Deployment Op Out Err) (st : RunState P Op) (op : Op)
    (handle : Handle) (turn : StoreTurn P) (ctx : ServiceContext) (args : Option JsonValue) :
    Moves sys st (.begin op handle turn ctx args) (sys.step st (.begin op handle turn ctx args)).1
      (sys.step st (.begin op handle turn ctx args)).2 := by
  simp only [Deployment.step]
  rcases prologue_cases sys.plat (sys.decl op) handle turn st.store ctx args with
    ⟨config, tenant, key, value, ctx', hr, hkey, hscope, heq⟩ | ⟨hstore, hquiet⟩
  · -- the store was asked
    simp only at heq
    rw [heq]
    simp only [afterReserve]
    cases hreply : decideOutcome (sys.asks st turn config tenant key value).2 with
    | error rejection =>
      have hreply' := hreply
      simp only [Deployment.asks] at hreply'
      simp only [hreply']
      exact .rejected op handle turn ctx args config tenant key value rejection hr hreply
    | ok decision =>
      have hreply' := hreply
      simp only [Deployment.asks] at hreply'
      simp only [hreply']
      cases decision with
      | replay stored =>
        exact .replayed op handle turn ctx args config tenant key value stored hr hreply
      | proceed permit =>
        exact .granted op handle turn ctx ctx' args config tenant key value permit hr hkey
          hscope hreply
  · -- it was not
    rcases hp : prologue sys.plat (sys.decl op) handle turn st.store ctx args with ⟨s, r⟩
    rw [hp] at hstore hquiet
    simp only at hstore
    subst hstore
    rcases hquiet with ⟨e, rfl⟩ | ⟨ctx', rfl⟩
    · exact .refused op handle turn ctx args e
    · exact .unreserved op handle turn ctx ctx' args

/-- The epilogue records nothing, or it completes the call's own permit. -/
theorem epilogue_cases (plat : Platform) (op : OperationDecl Out Err) (handle : Handle)
    (turn : StoreTurn P) (s : P.State) (decision : Option ReservationDecision)
    (result : Except Err Out) : epilogue plat op handle turn s decision result = (s, none) ∨
    ∃ out permit stored, result = .ok out ∧ decision = some (.proceed permit) ∧
      encodeStoredResponse plat.serde op.codec out = .ok stored ∧
      epilogue plat op handle turn s decision result =
        ((P.step s turn.storeClock turn.choice (.complete permit.fence stored)).1,
          some (.complete permit.fence stored,
            (P.step s turn.storeClock turn.choice (.complete permit.fence stored)).2)) := by
  unfold epilogue
  by_cases hidem : op.idempotent = true
  · simp only [hidem, if_true]
    cases result with
    | error => exact Or.inl rfl
    | ok out =>
      cases handle.upgrade .epilogue with
      | none => exact Or.inl rfl
      | some rt =>
        simp only [completeIdempotentOperation]
        cases henc : encodeStoredResponse plat.serde op.codec out with
        | error =>
          left
          cases decision with
          | none => rfl
          | some d => cases d <;> cases rt.reservation <;> rfl
        | ok stored =>
          cases decision with
          | none => exact Or.inl rfl
          | some d =>
            cases d with
            | replay => exact Or.inl rfl
            | proceed permit =>
              cases rt.reservation with
              | none => exact Or.inl rfl
              | some => exact Or.inr ⟨out, permit, stored, rfl, rfl, henc, rfl⟩
  · simp only [hidem, Bool.false_eq_true, if_false]
    exact Or.inl trivial

/-- Every step of a deployment is one of the `Moves`. -/
theorem moves_step (sys : Deployment Op Out Err) (st : RunState P Op)
    (i : RunInput P Op Out Err) : Moves sys st i (sys.step st i).1 (sys.step st i).2 := by
  cases i with
  | begin op handle turn ctx args => exact begin_moves sys st op handle turn ctx args
  | maintain now choice m => exact .maintained now choice m
  | finish i turn result =>
    simp only [Deployment.step]
    cases hc : st.calls[i]? with
    | none => exact .idle i turn result
    | some c =>
      rcases epilogue_cases sys.plat (sys.decl c.op) c.handle turn st.store c.decision result
        with heq | ⟨out, permit, stored, rfl, hdecision, hencode, heq⟩
      · simp only [heq]
        exact .unrecorded i turn result c hc
      · simp only [heq]
        exact .recorded i turn out c permit stored hc hdecision hencode

theorem moves_of_fire {sys : Deployment Op Out Err} {t : RunTransition P Op Out Err}
    (h : t = (sys.machine P).fire t.pre t.input) : Moves sys t.pre t.input t.post t.output := by
  rw [h]
  exact moves_step sys t.pre t.input

/-! ### What a call presents and is given -/

/-- The transition begins a dispatch of `op` with this tenant scope, operation
key and arguments. -/
def Presents (sys : Deployment Op Out Err) (t : RunTransition P Op Out Err) (op : Op)
    (tenant : Option TenantId) (key : OperationKey) (value : JsonValue) : Prop :=
  ∃ handle turn ctx, t.input = .begin op handle turn ctx (some value) ∧
    ctx.operationKey = some key ∧ resolvedScope (sys.decl op) handle ctx = some tenant

/-- The transition is a dispatch that was told to proceed under `fence`. -/
def Proceeds (t : RunTransition P Op Out Err) (fence : OwnerFence) : Prop :=
  ∃ ctx, t.output = .begun (.ok (ctx, some (.proceed ⟨fence⟩)))

/-- Some dispatch of the history was told to proceed under `fence`. -/
def WasIssued (h : RunHistory P Op Out Err) (fence : OwnerFence) : Prop :=
  ∃ t ∈ h, Proceeds t fence

end EgoRs

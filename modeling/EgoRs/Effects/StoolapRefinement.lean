import EgoRs.Effects.SqlPort
import EgoRs.Effects.StoolapEffectStore

/-! # The Effect Stores Without Claims

The life of the effects in `InMemoryEffectStore`, over all call sequences,
and that `StoolapEffectStore`, whose statements have no condition besides
the state of the row, is the same store.
-/

namespace EgoRs.Effects

open Framework

/-- `StoolapEffectStore` behind the ports. What a negative LIMIT gives is not
its code's to say. -/
def stoolapPort : Machine (EffectTables Unit) PortInput PortAnswer :=
  sqlPort StoolapEffectStore.rules Environment.negativeLimit

/-- Nothing but the state of the row can stop a call. -/
theorem stoolap_unhindered (u : SqlEvent Unit) : unhindered StoolapEffectStore.rules u := by
  obtain ⟨tables, ⟨call, env⟩, output, post⟩ := u
  cases call with
  | markInFlight | markSucceeded | markRetryable | markTerminal | claimDue => exact fun _ _ _ => rfl
  | recoverInFlight => exact fun _ _ _ _ => rfl
  | accept | reserve | commitSuccess | release => trivial

/-! ## One call of the in-memory store -/

section
variable {store : InMemoryEffectStore}

theorem serve_accept {input : PortInput} {effect : AcceptedEffect}
    (hcall : input.call = .accept effect) :
    store.serve input = ((store.accept effect).1, .done (store.accept effect).2) := by
  unfold InMemoryEffectStore.serve
  rw [hcall]
  rfl

end

/-! ## The whole life -/

/-- **The life of the effects** over any sequence of calls: a settled effect
stays as it is, an accepted one stays with its tenant and description, a
repeated `accept` and a call that returns an error change nothing, and
`claim_due` changes nothing and returns effects that are due, at most
`limit`. **Stoolap is the same store**: call by call its answers agree and
its tables have the same contents. -/
theorem effect_store_lifecycle {h : MemoryHistory} {s : InMemoryEffectStore}
    (he : memoryPort.Exec .new h s) :
    (∀ t ∈ h, ∀ id record, t.pre.states.lookup id = some record → record.settled = true →
      s.states.lookup id = some record) ∧
    (∀ t ∈ h, ∀ effect, t.input.call = .accept effect → t.output = .done (.ok ()) →
      ∃ record, s.states.lookup effect.id = some record ∧ record.tenant = effect.tenant ∧
        record.description = effect.description) ∧
    (∀ t ∈ h, ∀ effect record, t.input.call = .accept effect →
      t.pre.states.lookup effect.id = some record → record.tenant = effect.tenant →
      record.description = effect.description → t.output = .done (.ok ()) ∧ t.post = t.pre) ∧
    (∀ t ∈ h, t.output.isErr = true → t.post = t.pre) ∧
    (∀ t ∈ h, ∀ now limit, t.input.call = .claimDue now limit → t.post = t.pre ∧
      ∃ copies, t.output = .claimed (.ok copies) ∧ copies.length ≤ limit ∧
        ∀ copy ∈ copies, ∃ record, t.pre.states.lookup copy.id = some record ∧
          copy = record.stored copy.id now ∧
          (record.state = .pending ∨ record.state = .retryableFailed) ∧
          ∀ nextAt, record.nextAt = some nextAt → nextAt ≤ now) ∧
    (∀ calls : List PairedCall,
      List.Forall₂ (fun t u => AnswersAgree t u ∧ SameContents t.post u.post)
        (memoryPort.trace .new (calls.map PairedCall.memoryInput))
        (stoolapPort.trace .new (calls.map PairedCall.sqlInput))) := by
  -- each transition is a call, and the rest of the run ages what it leaves
  have hat : ∀ t ∈ h, t.output = (t.pre.serve t.input).2 ∧ t.post = (t.pre.serve t.input).1 ∧
      StatesAge t.post s := by
    intro t ht
    obtain ⟨h₁, h₂, rfl⟩ := List.append_of_mem ht
    obtain ⟨_, hfire, hrest⟩ := he.split_at
    have hages := hrest.invariant (P := fun _ s => StatesAge t.post s) (.refl _)
      fun _ s input _ hs => hs.trans (serve_ages s input)
    exact ⟨congrArg Transition.output hfire, congrArg Transition.post hfire, hages⟩
  refine ⟨?_, ?_, ?_, ?_, ?_, ?_⟩
  · intro t ht id record hrow hsettled
    obtain ⟨-, hpost, hage⟩ := hat t ht
    have hstep : StatesAge t.pre t.post := by
      rw [hpost]
      exact serve_ages t.pre t.input
    obtain ⟨record', hrow', hages⟩ := hstep.trans hage id record hrow
    rw [hrow', hages.absorbing hsettled]
  · intro t ht effect hcall hok
    obtain ⟨hout, hpost, hage⟩ := hat t ht
    rw [serve_accept hcall] at hout hpost
    obtain ⟨record, hrow, htenant, hdescription⟩ :=
      accepted_present (PortAnswer.done.inj (hout.symm.trans hok))
    rw [← hpost] at hrow
    obtain ⟨record', hrow', hages⟩ := hage effect.id record hrow
    exact ⟨record', hrow', hages.tenant.trans htenant, hages.description.trans hdescription⟩
  · intro t ht effect record hcall hrow htenant hdescription
    obtain ⟨hout, hpost, -⟩ := hat t ht
    have hreplayed : t.pre.accept effect = (t.pre, .ok ()) := by
      unfold InMemoryEffectStore.accept
      rw [hrow]
      simp only [htenant, hdescription, and_self, if_true]
    rw [serve_accept hcall, hreplayed] at hout hpost
    exact ⟨hout, hpost⟩
  · intro t ht herr
    obtain ⟨hout, hpost, -⟩ := hat t ht
    rw [hout] at herr
    rw [hpost]
    exact serve_err t.pre herr
  · intro t ht now limit hcall
    obtain ⟨hout, hpost, -⟩ := hat t ht
    have hserve : t.pre.serve t.input =
        (t.pre, .claimed (.ok (t.pre.claimDue now limit t.input.env.order))) := by
      unfold InMemoryEffectStore.serve
      rw [hcall]
    rw [hserve] at hout hpost
    refine ⟨hpost, _, hout, (selects_claimDue t.pre now limit _).length_le, ?_⟩
    intro copy hcopy
    obtain ⟨record, hrow, hdue, heq⟩ := InMemoryEffectStore.mem_claimDue hcopy
    unfold EffectRecord.due at hdue
    refine ⟨record, hrow, heq, ?_⟩
    cases hnext : record.nextAt with
    | none | some => simpa [hnext] using hdue
  · intro calls
    exact runs_agree StoolapEffectStore.rules Environment.negativeLimit sameContents_new calls
      fun u _ => stoolap_unhindered u

/-- A mail is accepted twice, sent, and the store is asked again. -/
def mailSent : List PortInput :=
  [⟨.accept acceptedMail, environmentAt 0⟩, ⟨.claimDue 0 5, environmentAt 0⟩,
    ⟨.markInFlight ⟨"a"⟩, environmentAt 1⟩, ⟨.accept acceptedMail, environmentAt 1⟩,
    ⟨.markSucceeded ⟨"a"⟩, environmentAt 2⟩, ⟨.markInFlight ⟨"a"⟩, environmentAt 3⟩]

theorem effect_store_lifecycle_mail :
    let run := memoryPort.trace .new mailSent
    (∃ record, (memoryPort.after .new mailSent).states.lookup ⟨"a"⟩ = some record ∧
      record.tenant = acceptedMail.tenant ∧ record.description = acceptedMail.description) ∧
    (∀ t, run[1]? = some t → t.post = t.pre ∧ ∃ copies, t.output = .claimed (.ok copies) ∧
      copies.length = 1) ∧
    (∀ t, run[3]? = some t → t.output = .done (.ok ()) ∧ t.post = t.pre) ∧
    (∀ t, run[5]? = some t → t.output.isErr = true ∧ t.post = t.pre ∧
      (memoryPort.after .new mailSent).states.lookup ⟨"a"⟩ = t.pre.states.lookup ⟨"a"⟩) := by
  obtain ⟨hsettled, haccepted, hagain, herr, hdue, -⟩ :=
    effect_store_lifecycle (memoryPort.exec_trace .new mailSent)
  refine ⟨haccepted _ (List.mem_of_getElem? (i := 0) rfl) acceptedMail rfl rfl, ?_, ?_, ?_⟩
  · intro t ht
    have hmem := List.mem_of_getElem? ht
    obtain rfl := Option.some.inj ht
    exact ⟨(hdue _ hmem 0 5 rfl).1, _, rfl, rfl⟩
  · intro t ht
    have hmem := List.mem_of_getElem? ht
    obtain rfl := Option.some.inj ht
    exact hagain _ hmem acceptedMail _ rfl rfl rfl rfl
  · intro t ht
    have hmem := List.mem_of_getElem? ht
    obtain rfl := Option.some.inj ht
    exact ⟨rfl, herr _ hmem rfl, hsettled _ hmem ⟨"a"⟩ _ rfl rfl⟩

end EgoRs.Effects

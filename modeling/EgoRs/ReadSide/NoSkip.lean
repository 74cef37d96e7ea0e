import EgoRs.ReadSide.SessionStep

/-! # No Event Is Skipped

The offset of a stream stands at the version of one of its events, and every
event up to there was in a batch the handler accepted; so was every event
that is marked.

It holds because it holds of what every session has in its hands. A session
that has read the offset knows of an offset that covers. What it fetched
follows on what that offset covers, without a gap, and what it drops of it is
marked. So once the handler has accepted the rest, everything up to each of
its events is covered; and the last of them is the offset it writes. None of
this is lost when others go on, since streams grow at their ends and accepted
events stay accepted.
-/

namespace EgoRs.ReadSide

open Framework

variable {E : Type}

/-! ## Histories -/

/-- The events of a stream that a step gives to the handler. -/
def ReadSideOutput.given (key : ClaimId) : ReadSideOutput E → TagStream E
  | .handled session batch _ => if session.claimId = key then batch else []
  | _ => []

def ReadSideOutput.accepted (key : ClaimId) : ReadSideOutput E → TagStream E
  | .handled session batch (.ok ()) => if session.claimId = key then batch else []
  | _ => []

/-- The events of a stream that were given to the handler, in order. -/
def given (h : ReadSideHistory E) (key : ClaimId) : TagStream E :=
  h.flatMap fun t => t.output.given key

/-- Those in a batch for which the handler has returned `Ok`. -/
def accepted (h : ReadSideHistory E) (key : ClaimId) : TagStream E :=
  h.flatMap fun t => t.output.accepted key

theorem accepted_snoc (h : ReadSideHistory E) (t : ReadSideEvent E) (key : ClaimId) :
    accepted (h ++ [t]) key = accepted h key ++ t.output.accepted key := by
  simp [accepted]

theorem accepted_subset_snoc (h : ReadSideHistory E) (t : ReadSideEvent E) (key : ClaimId) :
    accepted h key ⊆ accepted (h ++ [t]) key := by
  rw [accepted_snoc]
  exact List.subset_append_left _ _

def appendsOnly (t : ReadSideEvent E) : Bool :=
  match t.input with
  | .insert event => decide (Appends t.pre.stores.streams event)
  | _ => true

/-! ## What a session has in its hands -/

section
variable {stream stream' acc acc' : TagStream E}

/-- The version is one of an event, and every event up to it was accepted. -/
def Covered (stream acc : TagStream E) (version : Int) : Prop :=
  (∃ x ∈ stream, x.eventVersion = version) ∧ ∀ e ∈ stream, e.eventVersion ≤ version → e ∈ acc

/-- Events of the stream that follow, without a gap, on accepted ones. -/
def Pending (stream acc pending : TagStream E) : Prop :=
  (∀ x ∈ pending, x ∈ stream) ∧
    ∀ x ∈ pending, ∀ e ∈ stream, e.eventVersion ≤ x.eventVersion → e ∈ acc ∨ e ∈ pending

/-- Events up to which everything was accepted. -/
def Done (stream acc events : TagStream E) : Prop :=
  ∀ x ∈ events, x ∈ stream ∧ Covered stream acc x.eventVersion

def Offset.Covered (stream acc : TagStream E) : Offset → Prop
  | .sequence version => ReadSide.Covered stream acc version

def BatchPhase.Sound (stream acc : TagStream E) : BatchPhase E → Prop
  | .readOffset => True
  | .fetch lastOffset => ∀ offset, lastOffset = some offset → offset.Covered stream acc
  | .check rest unique => Pending stream acc (unique ++ rest)
  | .handle unique => unique ≠ [] ∧ Pending stream acc unique
  | .renewClock unique => unique ≠ [] ∧ Done stream acc unique
  | .renew unique _ => unique ≠ [] ∧ Done stream acc unique
  | .mark offset rest _ => offset.Covered stream acc ∧ Done stream acc rest
  | .write offset _ _ => offset.Covered stream acc
  | .ended _ => True

def Phase.Sound (stream acc : TagStream E) : Phase E → Prop
  | .batch _ phase => phase.Sound stream acc
  | _ => True

theorem Covered.mono {version : Int} (h : Covered stream acc version) (hstream : stream <+: stream')
    (hinc : Increasing EventStreamElement.eventVersion stream') (hacc : acc ⊆ acc') :
    Covered stream' acc' version := by
  obtain ⟨⟨x, hx, rfl⟩, hcovered⟩ := h
  obtain ⟨extension, rfl⟩ := hstream
  refine ⟨⟨x, List.mem_append_left _ hx, rfl⟩, ?_⟩
  intro e he hle
  exact hacc (hcovered e (hinc.mem_of_append hx he hle) hle)

theorem Offset.Covered.mono {offset : Offset} (h : offset.Covered stream acc)
    (hstream : stream <+: stream') (hinc : Increasing EventStreamElement.eventVersion stream')
    (hacc : acc ⊆ acc') : offset.Covered stream' acc' := by
  cases offset with
  | sequence => exact ReadSide.Covered.mono h hstream hinc hacc

theorem Pending.mono {pending : TagStream E} (h : Pending stream acc pending)
    (hstream : stream <+: stream') (hinc : Increasing EventStreamElement.eventVersion stream')
    (hacc : acc ⊆ acc') : Pending stream' acc' pending := by
  obtain ⟨extension, rfl⟩ := hstream
  refine ⟨fun x hx => List.mem_append_left _ (h.1 x hx), ?_⟩
  intro x hx e he hle
  have hold := hinc.mem_of_append (h.1 x hx) he hle
  exact (h.2 x hx e hold hle).imp (fun hin => hacc hin) id

theorem Done.mono {events : TagStream E} (h : Done stream acc events) (hstream : stream <+: stream')
    (hinc : Increasing EventStreamElement.eventVersion stream') (hacc : acc ⊆ acc') :
    Done stream' acc' events := by
  intro x hx
  exact ⟨hstream.subset (h x hx).1, (h x hx).2.mono hstream hinc hacc⟩

theorem BatchPhase.Sound.mono {phase : BatchPhase E} (h : phase.Sound stream acc)
    (hstream : stream <+: stream') (hinc : Increasing EventStreamElement.eventVersion stream')
    (hacc : acc ⊆ acc') : phase.Sound stream' acc' := by
  cases phase with
  | readOffset | ended => trivial
  | fetch => exact fun offset hoffset => (h offset hoffset).mono hstream hinc hacc
  | check => exact Pending.mono h hstream hinc hacc
  | handle | renewClock | renew => exact ⟨h.1, h.2.mono hstream hinc hacc⟩
  | mark => exact ⟨h.1.mono hstream hinc hacc, h.2.mono hstream hinc hacc⟩
  | write => exact Offset.Covered.mono h hstream hinc hacc

theorem Phase.Sound.mono {phase : Phase E} (h : phase.Sound stream acc)
    (hstream : stream <+: stream') (hinc : Increasing EventStreamElement.eventVersion stream')
    (hacc : acc ⊆ acc') : phase.Sound stream' acc' := by
  cases phase with
  | batch => exact BatchPhase.Sound.mono h hstream hinc hacc
  | _ => trivial

/-! ## How a batch goes on -/

/-- What is fetched after a covered offset follows on what it covers. -/
theorem pending_paginate {streams : Streams E} {session : ReadSideSession}
    {lastOffset : Option Offset}
    (hinc : Increasing EventStreamElement.eventVersion (tenantStream streams session.claimId))
    (hlast : ∀ offset, lastOffset = some offset →
      offset.Covered (tenantStream streams session.claimId) acc) :
    Pending (tenantStream streams session.claimId) acc
      (paginate (eventsForTag streams session.tag) session.tenant lastOffset
        session.batchSize) := by
  have hpage : paginate (eventsForTag streams session.tag) session.tenant lastOffset
      session.batchSize = _ := paginate_eq_tenantStream streams session.claimId lastOffset _
  rw [hpage]
  split
  · exact ⟨by simp, by simp⟩
  · generalize tenantStream streams session.claimId = stream at hinc hlast ⊢
    have hafter : ∀ e ∈ stream, e.eventVersion ≤ resumesAfter lastOffset → e ∈ acc := by
      intro e he hle
      cases lastOffset with
      | none =>
        -- versions start at 1
        have hpos := e.versionPositive
        simp only [resumesAfter, Option.bind_none, Option.getD_none] at hle
        omega
      | some offset =>
        cases offset with
        | sequence => exact (hlast _ rfl).2 e he hle
    refine ⟨fun x hx => (List.mem_filter.mp (List.mem_of_mem_take hx)).1, ?_⟩
    intro x hx e he hle
    by_cases hold : e.eventVersion ≤ resumesAfter lastOffset
    · exact .inl (hafter e he hold)
    · right
      have hmem : e ∈ stream.filter fun e => decide (resumesAfter lastOffset < e.eventVersion) :=
        List.mem_filter.mpr ⟨he, by simpa using hold⟩
      rw [← List.take_append_drop session.batchSize
        (stream.filter fun e => decide (resumesAfter lastOffset < e.eventVersion))] at hmem
      refine Increasing.mem_of_append ?_ hx hmem hle
      rw [List.take_append_drop]
      exact hinc.filter _

variable {unique rest : TagStream E}

theorem Pending.done (h : Pending stream acc unique) : Done stream (acc ++ unique) unique := by
  intro x hx
  refine ⟨h.1 x hx, ⟨x, h.1 x hx, rfl⟩, ?_⟩
  intro e he hle
  exact List.mem_append.mpr (h.2 x hx e he hle)

/-- An event that was accepted need not be handled again. -/
theorem Pending.drop {event : EventStreamElement E}
    (h : Pending stream acc (unique ++ event :: rest)) (hacc : event ∈ acc) :
    Pending stream acc (unique ++ rest) := by
  have hsub : ∀ x ∈ unique ++ rest, x ∈ unique ++ event :: rest := by
    intro x hx
    rcases List.mem_append.mp hx with hleft | hright
    · exact List.mem_append_left _ hleft
    · exact List.mem_append_right _ (List.mem_cons_of_mem _ hright)
  refine ⟨fun x hx => h.1 x (hsub x hx), ?_⟩
  intro x hx e he hle
  rcases h.2 x (hsub x hx) e he hle with hdone | hpending
  · exact .inl hdone
  · rcases List.mem_append.mp hpending with hleft | hright
    · exact .inr (List.mem_append_left _ hleft)
    · rcases List.mem_cons.mp hright with rfl | hrest
      · exact .inl hacc
      · exact .inr (List.mem_append_right _ hrest)

theorem Done.newOffset (h : Done stream acc unique) (hne : unique ≠ []) :
    (newOffset unique).Covered stream acc := by
  unfold ReadSide.newOffset
  rw [List.getLast?_eq_some_getLast hne]
  exact (h _ (List.getLast_mem hne)).2

theorem sound_afterFetch {events : TagStream E} (h : Pending stream acc events) :
    (afterFetch events).Sound stream acc := by
  unfold afterFetch
  split
  · trivial
  · exact h

theorem sound_afterCheck (h : Pending stream acc (unique ++ rest)) :
    (afterCheck rest unique).Sound stream acc := by
  unfold afterCheck
  cases rest with
  | nil =>
    rw [List.append_nil] at h
    cases unique with
    | nil => trivial
    | cons => exact ⟨by simp, h⟩
  | cons => exact h

theorem sound_afterMark {offset : Offset} {lease : Option Timestamp}
    (hoffset : offset.Covered stream acc) (hrest : Done stream acc rest) :
    (afterMark offset rest lease).Sound stream acc := by
  unfold afterMark
  cases rest with
  | nil => exact hoffset
  | cons => exact ⟨hoffset, hrest⟩

theorem sound_settle {fence : Option ClaimFence} {phase : BatchPhase E}
    (h : phase.Sound stream acc) : (settle fence phase).Sound stream acc := by
  cases phase with
  | ended => cases fence <;> trivial
  | _ => exact h

end

/-! ## Every state of a run -/

def UniqueIds (streams : Streams E) : Prop :=
  ∀ tag, ∀ x ∈ eventsForTag streams tag, ∀ y ∈ eventsForTag streams tag,
    x.eventId = y.eventId → x = y

/-- What the streams are like when events are appended only. -/
structure StreamsInv (streams : Streams E) : Prop where
  ordered : StreamsOrdered streams
  increasing : ∀ key, Increasing EventStreamElement.eventVersion (tenantStream streams key)
  uniqueIds : UniqueIds streams

/-- **No event is skipped**, and what makes it so. -/
structure NoSkipInv (h : ReadSideHistory E) (s : ReadSideState E) : Prop where
  streams : StreamsInv s.stores.streams
  offsets : ∀ key offset, s.stores.offsets.lookup key = some offset →
    offset.Covered (tenantStream s.stores.streams key) (accepted h key)
  marks : ∀ mark ∈ s.stores.marks, ∃ e ∈ eventsForTag s.stores.streams mark.tag,
    e.eventId = mark.eventId ∧ e ∈ accepted h ⟨mark.projectionId, mark.tag, e.tenantId⟩
  sessions : ∀ (i : Nat) session phase, s.sessions[i]? = some (session, phase) →
    phase.Sound (tenantStream s.stores.streams session.claimId) (accepted h session.claimId)

section
variable {streams : Streams E} {event : EventStreamElement E}

theorem mem_eventsForTag_insertEvent (hnodup : event.tags.Nodup) {tag : EventTag}
    {x : EventStreamElement E} : x ∈ eventsForTag (insertEvent streams event) tag ↔
      x ∈ eventsForTag streams tag ∨ tag ∈ event.tags ∧ x = event := by
  rw [eventsForTag_insertEvent hnodup]
  by_cases htag : tag ∈ event.tags
  · rw [if_pos htag, mem_insertByKey]
    simp [htag, or_comm]
  · rw [if_neg htag]
    simp [htag]

theorem StreamsInv.insertEvent (h : StreamsInv streams) (happends : Appends streams event) :
    StreamsInv (insertEvent streams event) := by
  obtain ⟨hnodup, hnew⟩ := happends
  refine ⟨h.ordered.insertEvent hnodup, ?_, ?_⟩
  · intro key
    rw [tenantStream_insertEvent h.ordered ⟨hnodup, hnew⟩]
    split
    · rename_i hkey
      refine (h.increasing key).snoc ?_
      intro x hx
      obtain ⟨hx, htenant⟩ := mem_tenantStream.mp hx
      exact (hnew key.tag hkey.1 x hx).2 (htenant.trans hkey.2.symm)
    · exact h.increasing key
  · intro tag x hx y hy hid
    rw [mem_eventsForTag_insertEvent hnodup] at hx hy
    rcases hx with hx | ⟨htag, rfl⟩
    · rcases hy with hy | ⟨htag, rfl⟩
      · exact h.uniqueIds tag x hx y hy hid
      · exact absurd hid (hnew tag htag x hx).1
    · rcases hy with hy | ⟨-, rfl⟩
      · exact absurd hid.symm (hnew tag htag y hy).1
      · rfl

end

section
variable {h : ReadSideHistory E} {s : ReadSideState E} {t : ReadSideEvent E}
  {session : ReadSideSession} {answer : Answer} {phase : Phase E} {backend : OffsetBackend}
  {stores' : Stores E}

/-- A step that shows nothing of the handler adds nothing to what was accepted. -/
theorem accepted_resumeOutput {i : Nat} {key : ClaimId} :
    (resumeOutput i session answer phase).accepted key =
      match phase, answer.handler with
      | .batch _ (.handle unique), .ok () => if session.claimId = key then unique else []
      | _, _ => [] := by
  unfold resumeOutput
  split
  · cases answer.handler <;> rfl
  · rename_i hphase
    cases phase with
    | batch fence phase =>
      cases phase with
      | handle unique => exact absurd rfl (hphase fence unique)
      | _ => rfl
    | _ => rfl

section
variable (hinv : NoSkipInv h s)
include hinv

theorem NoSkipInv.accepted_of_seen {key : ClaimId} {event : EventStreamElement E}
    (hmem : event ∈ tenantStream s.stores.streams key)
    (hseen : s.stores.marks.seen ⟨key.projectionId, key.tag, event.eventId⟩ = true) :
    event ∈ accepted h key := by
  obtain ⟨hevent, htenant⟩ := mem_tenantStream.mp hmem
  obtain ⟨e, he, hid, haccepted⟩ := hinv.marks _ (of_decide_eq_true hseen)
  obtain rfl := hinv.streams.uniqueIds _ e he event hevent hid
  rw [htenant] at haccepted
  exact haccepted

/-- What a session has in its hands after a call. -/
theorem NoSkipInv.sound_batch {fence : Option ClaimFence} {phase phase' : BatchPhase E}
    {acc' : TagStream E}
    (hsound : phase.Sound (tenantStream s.stores.streams session.claimId)
      (accepted h session.claimId))
    (hmoves : BatchMoves backend session fence s.stores answer phase stores' phase')
    (hsub : accepted h session.claimId ⊆ acc')
    (hhandled : ∀ unique, phase = .handle unique → answer.handler = .ok () →
      acc' = accepted h session.claimId ++ unique) :
    phase'.Sound (tenantStream s.stores.streams session.claimId) acc' := by
  have hinc := hinv.streams.increasing session.claimId
  have hstays : ∀ {phase : BatchPhase E},
      phase.Sound (tenantStream s.stores.streams session.claimId)
      (accepted h session.claimId) → phase.Sound (tenantStream s.stores.streams session.claimId)
      acc' := fun hphase => hphase.mono (List.prefix_refl _) hinc hsub
  cases hmoves with
  | readOffset =>
    apply hstays
    intro offset hoffset
    exact hinv.offsets _ offset hoffset
  | fetched => exact hstays (sound_afterFetch (pending_paginate hinc hsound))
  | checked event =>
    apply hstays
    apply sound_afterCheck
    split
    · rename_i hseen
      refine Pending.drop hsound (hinv.accepted_of_seen (hsound.1 event ?_) hseen)
      exact List.mem_append_right _ List.mem_cons_self
    · rw [List.append_assoc]
      exact hsound
  | checkedAll => exact hstays (sound_afterCheck hsound)
  | handled unique isOk =>
    rw [hhandled unique rfl isOk]
    unfold afterHandle
    split
    · exact ⟨hsound.1, hsound.2.done⟩
    · exact sound_afterMark (hsound.2.done.newOffset hsound.1) hsound.2.done
  | renewClock | unclaimed => exact hstays hsound
  | renewed =>
    exact hstays (sound_afterMark (hsound.2.newOffset hsound.1) hsound.2)
  | marked =>
    refine hstays (sound_afterMark hsound.1 ?_)
    exact fun x hx => hsound.2 x (List.mem_cons_of_mem _ hx)
  | markedAll => exact hstays hsound.1
  | writeMissed offset _ stage' lease =>
    have hnext : (BatchPhase.write offset stage' lease).Sound
        (tenantStream s.stores.streams session.claimId) (accepted h session.claimId) := hsound
    exact hstays hnext
  | _ => trivial

/-- Whatever happens next: what was accepted stays so. -/
theorem NoSkipInv.later (t : ReadSideEvent E) : NoSkipInv (h ++ [t]) s := by
  have hacc := accepted_subset_snoc h t
  have hinc := hinv.streams.increasing
  refine ⟨hinv.streams, ?_, ?_, ?_⟩
  · intro key offset hoffset
    exact (hinv.offsets key offset hoffset).mono (List.prefix_refl _) (hinc key) (hacc key)
  · intro mark hmark
    obtain ⟨e, he, hid, haccepted⟩ := hinv.marks mark hmark
    exact ⟨e, he, hid, hacc _ haccepted⟩
  · intro i session phase hat
    exact (hinv.sessions i session phase hat).mono (List.prefix_refl _) (hinc _) (hacc _)

/-- A step that leaves streams, marks and offsets. -/
theorem NoSkipInv.quiet (clock : Timestamp) {sessions : List (ReadSideSession × Phase E)}
    (hsessions : ∀ (i : Nat) session phase, sessions[i]? = some (session, phase) →
      s.sessions[i]? = some (session, phase) ∨ phase.Sound
      (tenantStream s.stores.streams session.claimId) (accepted h session.claimId)) :
    NoSkipInv h ⟨{ s.stores with clock := clock }, sessions⟩ where
  streams := hinv.streams
  offsets := hinv.offsets
  marks := hinv.marks
  sessions := fun i session phase hat =>
    (hsessions i session phase hat).elim (hinv.sessions i session phase) id

theorem NoSkipInv.insert {event : EventStreamElement E}
    (happends : Appends s.stores.streams event) :
    NoSkipInv h
      { s with stores := { s.stores with streams := insertEvent s.stores.streams event } } := by
  have hstreams := hinv.streams.insertEvent happends
  have hgrows (key : ClaimId) : tenantStream s.stores.streams key <+:
      tenantStream (insertEvent s.stores.streams event) key := by
    rw [tenantStream_insertEvent hinv.streams.ordered happends]
    split
    · exact List.prefix_append _ _
    · exact List.prefix_refl _
  refine ⟨hstreams, ?_, ?_, ?_⟩
  · intro key offset hoffset
    exact (hinv.offsets key offset hoffset).mono (hgrows key) (hstreams.increasing key)
      (List.Subset.refl _)
  · intro mark hmark
    obtain ⟨e, he, hrest⟩ := hinv.marks mark hmark
    exact ⟨e, (mem_eventsForTag_insertEvent happends.1).mpr (.inl he), hrest⟩
  · intro i session phase hat
    exact (hinv.sessions i session phase hat).mono (hgrows _) (hstreams.increasing _)
      (List.Subset.refl _)

theorem NoSkipInv.resume {i : Nat} {phase' : Phase E} (hat : s.sessions[i]? = some (session, phase))
    (hmoves : SessionMoves backend session s.stores answer phase stores' phase')
    (houtput : t.output = resumeOutput i session answer phase) :
    NoSkipInv (h ++ [t]) ⟨stores', s.sessions.set i (session, phase')⟩ := by
  have hlater := hinv.later t
  have heffect := hmoves.effect
  have hsound := hlater.sessions i session phase hat
  refine ⟨?_, ?_, ?_, ?_⟩
  · rw [heffect.streams]
    exact hinv.streams
  · intro key offset hoffset
    rw [heffect.streams]
    rcases heffect.offsets with hsame | ⟨fence, written, stage, lease, rfl, hwritten⟩
    · rw [hsame] at hoffset
      exact hlater.offsets key offset hoffset
    · rw [hwritten] at hoffset
      obtain ⟨rfl, rfl⟩ | ⟨-, hoffset⟩ := lookup_insert_cases hoffset
      · exact hsound
      · exact hlater.offsets key offset hoffset
  · intro mark hmark
    rw [heffect.streams]
    rcases heffect.marks with hsame | ⟨fence, offset, event, rest, lease, rfl, hmarked⟩
    · rw [hsame] at hmark
      exact hlater.marks mark hmark
    · rw [hmarked, Marks.markSeen, List.mem_insert_iff] at hmark
      rcases hmark with rfl | hmark
      · -- the event is one the handler has accepted
        obtain ⟨hmem, hcovered⟩ := hsound.2 event List.mem_cons_self
        obtain ⟨hevent, htenant⟩ := mem_tenantStream.mp hmem
        refine ⟨event, hevent, rfl, ?_⟩
        rw [htenant]
        exact hcovered.2 event hmem (Int.le_refl _)
      · exact hlater.marks mark hmark
  · intro j other phase'' hj
    rw [heffect.streams]
    rcases getElem?_set_cases hat hj with ⟨-, heq⟩ | ⟨-, hold⟩
    · cases heq
      have hsound := hinv.sessions i session phase hat
      cases hmoves with
      | batch _ _ _ _ moves =>
        apply sound_settle
        refine hinv.sound_batch hsound moves (accepted_subset_snoc h t _) ?_
        intro unique hphase hok
        rw [accepted_snoc, houtput, accepted_resumeOutput, hphase, hok]
        simp
      | _ => trivial
    · exact hlater.sessions j other phase'' hold

theorem NoSkipInv.step {input : ReadSideInput E} {s' : ReadSideState E} {output : ReadSideOutput E}
    (hs : ReadSideSteps backend s input s' output)
    (happends : appendsOnly ⟨s, input, output, s'⟩ = true) :
    NoSkipInv (h ++ [⟨s, input, output, s'⟩]) s' := by
  cases hs with
  | idle => exact hinv.later _
  | tick => exact (hinv.later _).quiet _ fun _ _ _ hat => .inl hat
  | insert => exact (hinv.later _).insert (of_decide_eq_true happends)
  | execute =>
    refine (hinv.later _).quiet s.stores.clock ?_
    intro i other phase hat
    rcases getElem?_concat_cases hat with ⟨-, heq⟩ | hold
    · cases heq
      right
      unfold ReadSideSession.begin
      split <;> trivial
    · exact .inl hold
  | resume _ _ _ _ _ _ at' _ moves =>
    exact hinv.resume at' moves rfl
  | stop _ _ _ at' =>
    refine (hinv.later _).quiet s.stores.clock ?_
    intro j other phase' hat
    rcases getElem?_set_cases at' hat with ⟨-, heq⟩ | ⟨-, hold⟩
    · cases heq
      exact .inr trivial
    · exact .inl hold

end

theorem noSkipInv_run (he : (readSide E backend).Run h s)
    (happends : Along (fun _ t => appendsOnly t = true) h) : NoSkipInv h s := by
  refine he.invariant_along (P := NoSkipInv) ?_ ?_ happends
  · refine ⟨⟨?_, ?_, ?_⟩, ?_, ?_, ?_⟩
    · exact fun tag => List.Pairwise.nil
    · exact fun key => List.Pairwise.nil
    · intro tag x hx
      cases hx
    · intro key offset hoffset
      cases hoffset
    · intro mark hmark
      cases hmark
    · intro i session phase hat
      cases hat
  · intro h s input _ hinv happends
    exact hinv.step (readSideSteps_step backend s input) happends

end

end EgoRs.ReadSide

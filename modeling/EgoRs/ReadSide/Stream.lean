import EgoRs.Framework.Ordered
import EgoRs.ReadSide.Claim

/-! # Stores of the Read Side

Events by tag (`persistence-memory/src/read_side/store.rs`), marks of the
events a projection has seen (`dedup.rs`), and how far it has come
(`offset.rs`, and `persistence-stoolap/src/read_side/offset.rs`).

An event is inserted into the stream of every tag it carries. A projection
works on the part of a tag's stream that belongs to one tenant.
-/

namespace EgoRs.ReadSide

open Framework

/-! ## Events -/

/-- A tagged event. The checks of `new` come with it. -/
structure EventStreamElement (E : Type) where
  eventId : String
  aggregateId : String
  tenantId : String
  eventType : String
  payload : E
  eventVersion : Int
  occurredAt : Timestamp
  tags : List EventTag
  eventIdNonempty : eventId ≠ ""
  aggregateIdNonempty : aggregateId ≠ ""
  tenantIdNonempty : tenantId ≠ ""
  eventTypeNonempty : eventType ≠ ""
  versionPositive : 1 ≤ eventVersion
  tagged : tags ≠ []
  deriving DecidableEq

/-- The events of a tag, in the order of their versions. -/
abbrev TagStream (E : Type) : Type := List (EventStreamElement E)

inductive Offset where
  | sequence (version : Int)
  deriving DecidableEq

def Offset.asSequence : Offset → Option Int
  | .sequence version => some version

/-- Where reading goes on: after the offset, or from the beginning. -/
def resumesAfter (offset : Option Offset) : Int := (offset.bind Offset.asSequence).getD 0

/-! ## The read store -/

abbrev Streams (E : Type) : Type := Framework.Table EventTag (TagStream E)

section
variable {E : Type}

def eventsForTag (streams : Streams E) (tag : EventTag) : TagStream E :=
  (streams.lookup tag).getD []

/-- Inserts an event into the stream of every tag it carries. -/
def insertEvent (streams : Streams E) (event : EventStreamElement E) : Streams E :=
  event.tags.foldl (fun streams tag => streams.insert tag
    (insertByKey EventStreamElement.eventVersion event (eventsForTag streams tag))) streams

/-- At most `batchSize` events of the tenant after the offset; none without a tenant. -/
def paginate (events : TagStream E) (tenant : String) (offset : Option Offset) (batchSize : Nat) :
    TagStream E :=
  if isBlank tenant then []
  else
    (events.filter fun e =>
      decide (e.tenantId = tenant) && decide (resumesAfter offset < e.eventVersion)).take batchSize

/-- The part of a tag's stream that a projection works on. -/
def tenantStream (streams : Streams E) (key : ClaimId) : TagStream E :=
  (eventsForTag streams key.tag).filter fun e => decide (e.tenantId = key.tenant)

theorem mem_tenantStream {streams : Streams E} {key : ClaimId} {e : EventStreamElement E} :
    e ∈ tenantStream streams key ↔ e ∈ eventsForTag streams key.tag ∧ e.tenantId = key.tenant := by
  simp [tenantStream]

theorem paginate_eq_tenantStream (streams : Streams E) (key : ClaimId) (offset : Option Offset)
    (batchSize : Nat) :
    paginate (eventsForTag streams key.tag) key.tenant offset batchSize =
      if isBlank key.tenant then []
      else ((tenantStream streams key).filter fun e =>
        decide (resumesAfter offset < e.eventVersion)).take batchSize := by
  unfold paginate tenantStream
  rw [List.filter_filter]
  simp only [Bool.and_comm]

end

/-! ## Marks -/

structure DedupKey where
  projectionId : String
  tag : EventTag
  eventId : String
  deriving DecidableEq

abbrev Marks : Type := List DedupKey

def Marks.seen (marks : Marks) (key : DedupKey) : Bool := decide (key ∈ marks)

def Marks.markSeen (marks : Marks) (key : DedupKey) : Marks := marks.insert key

/-! ## Offsets -/

/-- Offsets by projection, tag and tenant, as claims are. -/
abbrev Offsets : Type := Framework.Table ClaimId Offset

inductive OffsetBackend where
  | memory
  | stoolap
  deriving DecidableEq

/-- Where `write_offset` is. In memory there is one statement only. -/
inductive WriteStage where
  | update
  | insert
  /-- Another writer has inserted the row between the two. -/
  | updateAgain
  deriving DecidableEq

/-- What a statement of `write_offset` leaves to be done. -/
inductive Written where
  | done
  | next (stage : WriteStage)
  | vanished
  deriving DecidableEq

/-- One statement of `write_offset`. -/
def writeOffset (backend : OffsetBackend) (offsets : Offsets) (key : ClaimId) (offset : Offset)
    (stage : WriteStage) : Offsets × Written :=
  match backend with
  | .memory => (offsets.insert key offset, .done)
  | .stoolap =>
    match stage with
    | .update =>
      match offsets.updateRow key (fun _ => true) (fun _ => offset) with
      | (offsets', true) => (offsets', .done)
      | (offsets', false) => (offsets', .next .insert)
    | .insert =>
      match offsets.insertNew key offset with
      | (offsets', true) => (offsets', .done)
      | (offsets', false) => (offsets', .next .updateAgain)
    | .updateAgain =>
      match offsets.updateRow key (fun _ => true) (fun _ => offset) with
      | (offsets', true) => (offsets', .done)
      | (offsets', false) => (offsets', .vanished)

/-- A statement writes the offset, or leaves the table as it was. -/
theorem writeOffset_cases (backend : OffsetBackend) (offsets : Offsets) (key : ClaimId)
    (offset : Offset) (stage : WriteStage) :
    writeOffset backend offsets key offset stage = (offsets.insert key offset, .done) ∨
      ∃ written, writeOffset backend offsets key offset stage = (offsets, written) ∧
        written ≠ .done := by
  cases backend with
  | memory => exact .inl rfl
  | stoolap =>
    cases hrow : offsets.lookup key with
    | none =>
      have hupdate : offsets.updateRow key (fun _ => true) (fun _ => offset) = (offsets, false) :=
        Table.updateRow_of_not_match _ (by simp [hrow])
      cases stage with
      | update => exact .inr ⟨.next .insert, by simp only [writeOffset, hupdate], by simp⟩
      | insert => exact .inl (by simp only [writeOffset, Table.insertNew_of_none hrow])
      | updateAgain => exact .inr ⟨.vanished, by simp only [writeOffset, hupdate], by simp⟩
    | some =>
      have hupdate : offsets.updateRow key (fun _ => true) (fun _ => offset) =
          (offsets.insert key offset, true) :=
        Table.updateRow_of_match _ hrow rfl
      cases stage with
      | update | updateAgain => exact .inl (by simp only [writeOffset, hupdate])
      | insert =>
        exact .inr ⟨.next .updateAgain, by simp only [writeOffset, Table.insertNew_of_some hrow],
          by simp⟩

/-! ## What an insertion does to a tenant's stream -/

section
variable {E : Type} {streams : Streams E} {event : EventStreamElement E}

theorem eventsForTag_insert (tag tag' : EventTag) (stream : TagStream E) :
    eventsForTag (streams.insert tag stream) tag' =
      if tag' = tag then stream else eventsForTag streams tag' := by
  unfold eventsForTag
  by_cases htag : tag' = tag
  · subst htag
    rw [AList.lookup_insert, if_pos rfl]
    rfl
  · rw [AList.lookup_insert_ne htag, if_neg htag]

theorem eventsForTag_insertEvent (hnodup : event.tags.Nodup) (tag : EventTag) :
    eventsForTag (insertEvent streams event) tag =
      if tag ∈ event.tags then
        insertByKey EventStreamElement.eventVersion event (eventsForTag streams tag)
      else eventsForTag streams tag := by
  unfold insertEvent
  generalize event.tags = tags at hnodup
  induction tags generalizing streams with
  | nil => rfl
  | cons first _ ih =>
    obtain ⟨hfirst, hrest⟩ := List.nodup_cons.mp hnodup
    rw [List.foldl_cons, ih hrest, eventsForTag_insert]
    by_cases htag : tag = first
    · subst htag
      rw [if_neg hfirst, if_pos rfl, if_pos List.mem_cons_self]
    · simp [htag]

/-- Every stream is kept in the order of the versions. -/
def StreamsOrdered (streams : Streams E) : Prop :=
  ∀ tag, Ordered EventStreamElement.eventVersion (eventsForTag streams tag)

theorem StreamsOrdered.insertEvent (h : StreamsOrdered streams) (hnodup : event.tags.Nodup) :
    StreamsOrdered (insertEvent streams event) := by
  intro tag
  rw [eventsForTag_insertEvent hnodup]
  split
  · exact (h tag).insertByKey
  · exact h tag

/-- A new event has a new id, and a greater version than its tenant's events, wherever it
is inserted. -/
def Appends (streams : Streams E) (event : EventStreamElement E) : Prop :=
  event.tags.Nodup ∧ ∀ tag ∈ event.tags, ∀ x ∈ eventsForTag streams tag,
    x.eventId ≠ event.eventId ∧
      (x.tenantId = event.tenantId → x.eventVersion < event.eventVersion)

instance : Decidable (Appends streams event) := inferInstanceAs (Decidable (_ ∧ _))

/-- An appended event comes last in its tenant's stream, and is in no other. -/
theorem tenantStream_insertEvent (hordered : StreamsOrdered streams)
    (happends : Appends streams event) (key : ClaimId) :
    tenantStream (insertEvent streams event) key =
      if key.tag ∈ event.tags ∧ event.tenantId = key.tenant then
        tenantStream streams key ++ [event]
      else tenantStream streams key := by
  obtain ⟨hnodup, hlast⟩ := happends
  unfold tenantStream
  rw [eventsForTag_insertEvent hnodup]
  by_cases htag : key.tag ∈ event.tags
  · by_cases htenant : event.tenantId = key.tenant
    · rw [if_pos htag, if_pos ⟨htag, htenant⟩]
      apply filter_insertByKey (hordered key.tag) (by simpa using htenant)
      intro x hx hxtenant
      apply (hlast key.tag htag x hx).2
      rw [of_decide_eq_true hxtenant, htenant]
    · rw [if_pos htag, if_neg (fun h => htenant h.2)]
      exact filter_insertByKey_of_not (hordered key.tag) (by simpa using htenant)
  · rw [if_neg htag, if_neg (fun h => htag h.1)]

end

end EgoRs.ReadSide

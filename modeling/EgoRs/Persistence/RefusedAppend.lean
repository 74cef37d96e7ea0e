import Mathlib.Data.Prod.Lex
import Mathlib.Data.String.Basic
import EgoRs.Persistence.StoreRun

/-! # Refused Appends

Whether anybody can tell that an append was refused. Two states of a run
are `Alike` when no call, now or later, answers differently on them: the
committed map may list its entries in another order, which is not
observable, since `list_aggregate_ids` sorts.

A staged append that is refused leaves its unit of work as it was. A
direct append opens its stream before the version is checked, so a refused
one leaves an empty stream where there was none, and both `load` and
`list_aggregate_ids` show it.
-/

namespace EgoRs.EventStore

open Framework

variable {E : Type} {s s' : RunState E}

/-! ## Indistinguishable states -/

/-- The same streams, in whatever order the map holds them, the same receipts
and the same units of work. -/
structure Alike (s s' : RunState E) : Prop where
  streams : ∀ k, s.committed.streams.lookup k = s'.committed.streams.lookup k
  receipts : s.committed.receipts = s'.committed.receipts
  units : s.units = s'.units

theorem Alike.refl (s : RunState E) : Alike s s := ⟨fun _ => rfl, rfl, rfl⟩

/-- Sorted ids depend only on which ids there are. -/
theorem insertionSort_idLe {l l' : List (String × String)} (h : l.Perm l') :
    l.insertionSort (fun a b => idLe a b) = l'.insertionSort fun a b => idLe a b := by
  have hle (a b : String × String) : idLe a b = true ↔ toLex a ≤ toLex b := by
    simp [idLe, Prod.Lex.le_iff]
  have : Std.Total fun a b => idLe a b = true :=
    ⟨fun a b => by simpa only [hle] using le_total (toLex a) (toLex b)⟩
  have : IsTrans (String × String) fun a b => idLe a b = true :=
    ⟨fun a b c hab hbc => (hle a c).mpr (((hle a b).mp hab).trans ((hle b c).mp hbc))⟩
  have hperm := (List.perm_insertionSort (fun a b => idLe a b) l).trans
    (h.trans (List.perm_insertionSort (fun a b => idLe a b) l').symm)
  exact hperm.eq_of_pairwise
    (fun a b _ _ hab hba => toLex.injective (((hle a b).mp hab).antisymm ((hle b a).mp hba)))
    (List.pairwise_insertionSort _ l) (List.pairwise_insertionSort _ l')

namespace Alike

theorem streamAt (h : Alike s s') (k : StreamKey) :
    streamAt s.committed.streams k = EventStore.streamAt s'.committed.streams k := by
  simp [EventStore.streamAt, h.streams]

theorem lookup_extend (h : Alike s s') (k k' : StreamKey) (events : List (StoredEvent E)) :
    (extend s.committed.streams k events).lookup k' =
      (extend s'.committed.streams k events).lookup k' := by
  by_cases hk : k' = k
  · subst hk
    simp [extend, h.streamAt]
  · simp [extend, AList.lookup_insert_ne hk, h.streams]

theorem keys (h : Alike s s') : s.committed.streams.keys.Perm s'.committed.streams.keys := by
  refine (List.perm_ext_iff_of_nodup (AList.keys_nodup _) (AList.keys_nodup _)).mpr fun k => ?_
  rw [← AList.mem_keys, ← AList.mem_keys, ← AList.lookup_isSome, ← AList.lookup_isSome, h.streams]

theorem unit (h : Alike s s') (u : Nat) : s.unit u = s'.unit u := by
  simp [RunState.unit, h.units]

theorem setUnit (h : Alike s s') (u : Nat) (x : Option (UnitOfWork E)) :
    Alike (s.setUnit u x) (s'.setUnit u x) :=
  ⟨h.streams, h.receipts, by simp [RunState.setUnit, h.units]⟩

/-- A direct append. -/
theorem append (h : Alike s s') (args : AppendArgs E) :
    (s.step (.append args)).2 = (s'.step (.append args)).2 ∧
      Alike (s.step (.append args)).1 (s'.step (.append args)).1 := by
  simp only [RunState.step, EventStore.append]
  cases args.key with
  | error e => exact ⟨rfl, h⟩
  | ok k =>
    -- opening the stream keeps the two alike, and so does extending it
    have hopen : Alike { s with committed := { s.committed with
          streams := extend s.committed.streams k [] } }
        { s' with committed := { s'.committed with
          streams := extend s'.committed.streams k [] } } :=
      ⟨fun k' => h.lookup_extend k k' [], h.receipts, h.units⟩
    simp only [streamAt_open, h.streamAt k]
    by_cases hv : ((EventStore.streamAt s'.committed.streams k).length : Int)
        = args.expectedVersion
    · simp only [hv, ne_eq, not_true_eq_false, if_false]
      exact ⟨trivial, fun k' => hopen.lookup_extend k k' args.events, h.receipts, h.units⟩
    · simp only [hv, ne_eq, not_false_eq_true, if_true]
      exact ⟨trivial, hopen⟩

/-- **No call tells alike states apart**, and they stay alike. -/
theorem step (h : Alike s s') (req : Request E) :
    (s.step req).2 = (s'.step req).2 ∧ Alike (s.step req).1 (s'.step req).1 := by
  cases req with
  | append args => exact h.append args
  | load aggregateType aggregateId tenantId =>
    exact ⟨by simp [RunState.step, EventStore.load, h.streams], h⟩
  | listAggregateIds tenantId =>
    refine ⟨?_, h⟩
    simp only [RunState.step, EventStore.listAggregateIds]
    cases resolveTenant tenantId with
    | error e => rfl
    | ok tenant =>
      have hids := insertionSort_idLe ((h.keys.filter fun k => decide (k.tenant = tenant)).map
        fun k => (k.aggregateType, k.aggregateId))
      exact congrArg (fun ids => Answer.ids (.ok ids)) hids
  | findReceipt aggregateType aggregateId tenantId operationKey =>
    exact ⟨by simp [RunState.step, EventStore.findReceipt, h.receipts], h⟩
  | begin => exact ⟨by simp [RunState.step, h.units], h.streams, h.receipts,
      by simp [RunState.step, h.units]⟩
  | unitAppend u args =>
    have hsame (unit : UnitOfWork E) :
        unit.append s.committed args = unit.append s'.committed args := by
      simp only [UnitOfWork.append, h.streamAt]
    simp only [RunState.step, h.unit, hsame]
    cases s'.unit u with
    | none => exact ⟨rfl, h⟩
    | some => exact ⟨rfl, h.setUnit u _⟩
  | confirmReceipt u receipt =>
    simp only [RunState.step, h.unit, UnitOfWork.confirmReceipt, UnitOfWork.reconciles, h.receipts]
    cases s'.unit u with
    | none => exact ⟨rfl, h⟩
    | some => exact ⟨rfl, h.setUnit u _⟩
  | commit u =>
    simp only [RunState.step, h.unit]
    cases s'.unit u with
    | none => exact ⟨rfl, h⟩
    | some unit =>
      refine ⟨rfl, fun k => ?_, ?_, (h.setUnit u none).units⟩
      · simp only [UnitOfWork.commit, lookup_publishInto, h.streams]
      · simp only [UnitOfWork.commit, h.receipts]
  | drop u =>
    simp only [RunState.step, h.unit]
    cases s'.unit u with
    | none => exact ⟨rfl, h⟩
    | some => exact ⟨rfl, h.setUnit u none⟩

/-- Whatever is called on alike states, the answers are the same. -/
theorem outputs (h : Alike s s') (later : List (Request E)) :
    ((store E).trace s later).map Transition.output =
      ((store E).trace s' later).map Transition.output := by
  induction later generalizing s s' with
  | nil => rfl
  | cons req later ih =>
    obtain ⟨hanswer, hnext⟩ := h.step req
    exact congrArg₂ List.cons hanswer (ih hnext)

end Alike

/-! ## What a refused append leaves -/

/-- The stream an append is addressed to already has its entry, or the append
is addressed to none. -/
def Established (s : RunState E) (args : AppendArgs E) : Prop :=
  ∀ k, args.key = .ok k → (s.committed.streams.lookup k).isSome

theorem alike_of_append_refused {args : AppendArgs E} {e : PersistenceError}
    (hthere : Established s args) (hrefused : (s.step (.append args)).2 = .version (.error e)) :
    Alike (s.step (.append args)).1 s := by
  simp only [RunState.step, EventStore.append] at hrefused ⊢
  cases hk : args.key with
  | error => exact Alike.refl s
  | ok k =>
    simp only [hk] at hrefused ⊢
    split at hrefused
    · rename_i hv
      rw [if_pos hv]
      refine ⟨fun k' => ?_, rfl, rfl⟩
      -- the stream was there, so opening it changes nothing
      by_cases h : k' = k
      · subst h
        obtain ⟨events, hevents⟩ := Option.isSome_iff_exists.mp (hthere k' hk)
        simp [extend, EventStore.streamAt, hevents]
      · simp [extend, AList.lookup_insert_ne h]
    · simp at hrefused

/-- No later sequence of calls is answered differently for `req`. -/
def Unseen (s : RunState E) (req : Request E) : Prop :=
  ∀ later, ((store E).trace (s.step req).1 later).map Transition.output =
    ((store E).trace s later).map Transition.output

/-- A refused append that is not seen found its stream: a `load` tells an
opened stream from an absent one. -/
theorem established_of_unseen {args : AppendArgs E} {e : PersistenceError}
    (hrefused : (s.step (.append args)).2 = .version (.error e))
    (hunseen : Unseen s (.append args)) : Established s args := by
  intro k hk
  have hload := hunseen [.load args.aggregateType args.aggregateId args.tenantId]
  simp only [Machine.trace, List.map_cons, List.map_nil, List.cons.injEq, and_true] at hload
  change (RunState.step _ _).2 = (RunState.step _ _).2 at hload
  have hkey := hk
  simp only [AppendArgs.key] at hkey
  cases htenant : resolveTenant args.tenantId with
  | error => simp [htenant, bind, Except.bind] at hkey
  | ok tenant =>
    obtain rfl : StreamKey.mk args.aggregateType args.aggregateId tenant = k := by
      simpa [htenant, bind, Except.bind, pure, Except.pure] using hkey
    cases habsent : s.committed.streams.lookup ⟨args.aggregateType, args.aggregateId, tenant⟩ with
    | some => rfl
    | none =>
      -- the load after the refusal finds the stream that the append opened
      simp only [RunState.step, EventStore.append, hk] at hrefused hload
      split at hrefused
      · rename_i hv
        rw [if_pos hv] at hload
        simp [EventStore.load, htenant, habsent, bind, Except.bind, extend] at hload
      · simp at hrefused

/-- **What a refused append leaves.** A staged one is never seen. A direct one
is not seen exactly if its stream was there before it, or it names none. -/
theorem refused_append_unseen {args : AppendArgs E} {e : PersistenceError} :
    ((s.step (.append args)).2 = .version (.error e) →
      (Unseen s (.append args) ↔ Established s args)) ∧
    ∀ u, (s.step (.unitAppend u args)).2 = .version (.error e) →
      Unseen s (.unitAppend u args) := by
  refine ⟨fun hrefused => ⟨established_of_unseen hrefused, fun hthere =>
    (alike_of_append_refused hthere hrefused).outputs⟩, fun u hrefused later => ?_⟩
  have hmoves := moves_unitAppend s u args
  generalize (s.step (.unitAppend u args)).1 = s' at hmoves ⊢
  rw [hrefused] at hmoves
  cases hmoves
  rfl

/-- A refusal at version 1 of a stream that has one event, directly and staged. -/
theorem refused_at_one :
    let s := (store Nat).after (store Nat).init [.append (sampleAppend 0 7), .begin]
    Unseen s (.append (sampleAppend 5 8)) ∧ Unseen s (.unitAppend 0 (sampleAppend 5 8)) := by
  intro s
  have h := @refused_append_unseen Nat s (sampleAppend 5 8) ((sampleAppend 5 8).versionConflict 1)
  exact ⟨(h.1 rfl).mpr (by rintro k ⟨⟩; rfl), h.2 0 rfl⟩

/-- The first call on the store is an append that is refused. The stream is
then listed and loads as an empty one. -/
theorem refused_append_opens_stream :
    ((store Nat).init.step (.append (sampleAppend 5 8))).2 =
        .version (.error (.conflict "order-o-1" 5 0)) ∧
      ((store Nat).trace (store Nat).init
          [.load "order" "o-1" none, .listAggregateIds none]).map Transition.output =
        [.events (.error (.notFound "order-o-1")), .ids (.ok [])] ∧
      ((store Nat).trace ((store Nat).init.step (.append (sampleAppend 5 8))).1
          [.load "order" "o-1" none, .listAggregateIds none]).map Transition.output =
        [.events (.ok []), .ids (.ok [("order", "o-1")])] := by
  decide

end EgoRs.EventStore

import EgoRs.Security.OidcRun

/-! # How Large the Introspection Cache Gets

The map is capped, the eviction queue is not. A token presented again
after its TTL gets a new entry and a new record, and its old record stays
in the queue: records are only popped when the map is full. So one token,
presented again and again, makes the queue grow with the number of calls.

This file proves:
- the map stays within its cap and each entry has its record, for any
  clock readings
- under a clock that does not go back, what is evicted is the oldest entry
- the queue has at most one record per entry and one more per call that
  found an expired entry
-/

namespace EgoRs.CacheBound
open Framework

/-! ### Calls -/

/-- One `authenticate` call, with what its environment gives it. -/
structure Call where
  credential : Credential
  now : Timestamp
  answer : IntrospectionAnswer

abbrev Made : Type := Transition IntrospectionCache Call (Except Stop Accepted)

section
variable (provider : IntrospectionAuthenticationProvider) (cacheKey : String → CacheKey)
  (mapper : PrincipalMapper)

/-- `authenticate` of `IntrospectionAuthenticationProvider`. -/
def authenticate (cache : IntrospectionCache) (call : Call) :
    IntrospectionCache × Except Stop Accepted :=
  match call.credential.token with
  | .error e => (cache, .error (.refused e))
  | .ok token =>
    match lookupCached provider cache cacheKey token call.now with
    | some accepted => (cache, .ok accepted)
    | none => finishIntrospection provider cache cacheKey mapper token call.now call.answer

def introspection : Machine IntrospectionCache Call (Except Stop Accepted) where
  init := .empty
  step := authenticate provider cacheKey mapper

/-- The call found an entry under its token's key, but no fresh one. -/
def foundExpired (t : Made) : Bool :=
  match t.input.credential.token with
  | .error _ => false
  | .ok token =>
    (t.pre.entries.lookup (cacheKey token)).isSome &&
      (lookupCached provider t.pre cacheKey token t.input.now).isNone

variable {provider cacheKey mapper}

/-- The second look, under the lock, finds what the first one did. -/
theorem store_of_miss {cache : IntrospectionCache} {token : String} {now : Timestamp} {ttl : Nat}
    {accepted : Accepted} (hmiss : lookupCached provider cache cacheKey token now = none)
    (httl : provider.cacheTtl = some ttl) :
    (cache.store ttl (cacheKey token) (wholeSeconds now) accepted).1 =
      cache.makeRoom.insert (cacheKey token) ⟨wholeSeconds now, accepted⟩ := by
  have hfresh : cache.fresh ttl (cacheKey token) (wholeSeconds now) = none := by
    simpa only [lookupCached, httl] using hmiss
  simp only [IntrospectionCache.store, hfresh]

variable (provider cacheKey mapper) in
/-- **What a call does to the cache**: nothing, or one insertion. -/
theorem authenticate_cases (cache : IntrospectionCache) (call : Call) :
    (authenticate provider cacheKey mapper cache call).1 = cache ∨
    ∃ token accepted, call.credential.token = .ok token ∧
      lookupCached provider cache cacheKey token call.now = none ∧
      (authenticate provider cacheKey mapper cache call).1 =
        cache.makeRoom.insert (cacheKey token) ⟨wholeSeconds call.now, accepted⟩ := by
  unfold authenticate
  split
  · exact .inl rfl
  · rename_i token htoken
    split
    · exact .inl rfl
    · rename_i hmiss
      unfold finishIntrospection
      split
      · exact .inl rfl
      · split
        · exact .inl rfl
        · rename_i accepted _
          split
          · exact .inl rfl
          · rename_i ttl httl
            exact .inr ⟨token, accepted, htoken, hmiss, store_of_miss hmiss httl⟩

end

/-! ### Eviction -/

section
variable {entries : AList (fun _ : CacheKey => CacheEntry)} {cache : IntrospectionCache}
  {queue : List (CacheKey × Int)} {key : CacheKey} {entry : CacheEntry}

/-- The record is the one of an entry of the map. -/
def Live (entries : AList (fun _ : CacheKey => CacheEntry)) (record : CacheKey × Int) : Prop :=
  ∃ entry, entries.lookup record.1 = some entry ∧ entry.insertedAt = record.2

/-- The loop pops up to the first live record and removes its entry. -/
theorem evict_live {record : CacheKey × Int} (hmem : record ∈ queue) (hlive : Live entries record) :
    ∃ before key entry rest, queue = before ++ (key, entry.insertedAt) :: rest ∧
      (∀ earlier ∈ before, ¬ Live entries earlier) ∧ entries.lookup key = some entry ∧
      evict entries queue = ⟨entries.erase key, rest⟩ := by
  induction queue with
  | nil => cases hmem
  | cons head queue ih =>
    by_cases hhead : Live entries head
    · obtain ⟨key, queuedAt⟩ := head
      obtain ⟨entry, hentry, rfl⟩ := hhead
      refine ⟨[], key, entry, queue, rfl, List.forall_mem_nil _, hentry, ?_⟩
      simp only [evict, show entries.lookup key = some entry from hentry, if_true]
    · have hrest : record ∈ queue := by
        obtain rfl | h := List.mem_cons.mp hmem
        · exact absurd hlive hhead
        · exact h
      obtain ⟨before, key, entry, rest, hqueue, hbefore, hentry, hevict⟩ := ih hrest
      refine ⟨head :: before, key, entry, rest, by rw [hqueue, List.cons_append],
        List.forall_mem_cons.mpr ⟨hhead, hbefore⟩, hentry, ?_⟩
      -- a ghost record is popped and nothing else happens
      rw [← hevict, evict]
      split
      · rename_i found hfound
        exact if_neg fun hat => hhead ⟨found, hfound, hat⟩
      · rfl

/-! ### The accounts of the cache -/

/-- The map is within its cap, every entry has its record, and at most `ghosts`
records have none. -/
structure Accounted (ghosts : Nat) (cache : IntrospectionCache) : Prop where
  size : cache.entries.entries.length ≤ maxIntrospectionCacheEntries
  recorded : ∀ key entry, cache.entries.lookup key = some entry →
    (key, entry.insertedAt) ∈ cache.queue
  records : cache.queue.length ≤ cache.entries.entries.length + ghosts

/-- A full cache evicts the entry of its first live record. -/
theorem Accounted.evicts {ghosts : Nat} (hc : Accounted ghosts cache)
    (hfull : cache.entries.entries.length = maxIntrospectionCacheEntries) :
    ∃ before key entry rest, cache.queue = before ++ (key, entry.insertedAt) :: rest ∧
      (∀ earlier ∈ before, ¬ Live cache.entries earlier) ∧ cache.entries.lookup key = some entry ∧
      cache.makeRoom = ⟨cache.entries.erase key, rest⟩ := by
  have hpos : 0 < cache.entries.entries.length := hfull ▸ by decide
  obtain ⟨⟨key, entry⟩, hmem⟩ := List.exists_mem_of_length_pos hpos
  have hentry : cache.entries.lookup key = some entry := AList.mem_lookup_iff.mpr hmem
  rw [IntrospectionCache.makeRoom, if_pos hfull.ge]
  exact evict_live (hc.recorded key entry hentry) ⟨entry, hentry, rfl⟩

/-- Making room keeps the accounts, and there is room after it. -/
theorem Accounted.makeRoom {ghosts : Nat} (hc : Accounted ghosts cache) :
    Accounted ghosts cache.makeRoom ∧
      cache.makeRoom.entries.entries.length < maxIntrospectionCacheEntries := by
  obtain hlt | hfull := hc.size.lt_or_eq
  · rw [IntrospectionCache.makeRoom, if_neg hlt.not_ge]
    exact ⟨hc, hlt⟩
  · obtain ⟨before, key, entry, rest, hqueue, hbefore, hentry, hroom⟩ := hc.evicts hfull
    have hlen := length_erase hentry
    have hrecords := hc.records
    rw [hqueue, List.length_append, List.length_cons] at hrecords
    rw [hroom]
    refine ⟨⟨?_, fun other kept hkept => ?_, ?_⟩, ?_⟩
    · show (cache.entries.erase key).entries.length ≤ _
      omega
    · obtain ⟨hne, hold⟩ := lookup_erase_some hkept
      have hin := hc.recorded other kept hold
      rw [hqueue, List.mem_append, List.mem_cons] at hin
      obtain hin | heq | hin := hin
      -- a record before the evicted one would have been evicted first
      · exact absurd ⟨kept, hold, rfl⟩ (hbefore _ hin)
      · exact absurd (congrArg Prod.fst heq) hne
      · exact hin
    · show rest.length ≤ (cache.entries.erase key).entries.length + ghosts
      omega
    · show (cache.entries.erase key).entries.length < _
      omega

/-- An insertion keeps the accounts, with one ghost more when the key was there. -/
theorem Accounted.insert {ghosts : Nat} (hc : Accounted ghosts cache)
    (hroom : cache.entries.entries.length < maxIntrospectionCacheEntries) :
    Accounted (ghosts + if (cache.entries.lookup key).isSome then 1 else 0)
      (cache.insert key entry) := by
  rw [IntrospectionCache.insert, if_pos hroom]
  have hrecorded : ∀ other kept, (cache.entries.insert key entry).lookup other = some kept →
      (other, kept.insertedAt) ∈ cache.queue ++ [(key, entry.insertedAt)] := by
    intro other kept hkept
    obtain ⟨rfl, rfl⟩ | ⟨-, hold⟩ := lookup_insert_cases hkept
    · exact List.mem_concat_self
    · exact List.mem_append_left _ (hc.recorded other kept hold)
  have hrecords := hc.records
  cases hold : cache.entries.lookup key with
  | none =>
    refine ⟨?_, hrecorded, ?_⟩
    · exact (length_insert_new hold).trans_le hroom
    · rw [length_insert_new hold, List.length_append]
      simp only [List.length_singleton, Option.isSome_none, Bool.false_eq_true, if_false]
      omega
  | some old =>
    refine ⟨?_, hrecorded, ?_⟩
    · exact (length_insert_over hold).trans_le hroom.le
    · rw [length_insert_over hold, List.length_append]
      simp only [List.length_singleton, Option.isSome_some, if_true]
      omega

end

/-! ### Runs -/

section
variable {provider : IntrospectionAuthenticationProvider} {cacheKey : String → CacheKey}
  {mapper : PrincipalMapper} {cache s : IntrospectionCache} {h : List Made} {ghosts : Nat}

theorem Accounted.mono {more : Nat} (hc : Accounted ghosts cache) (hle : ghosts ≤ more) :
    Accounted more cache :=
  ⟨hc.size, hc.recorded, hc.records.trans (Nat.add_le_add_left hle _)⟩

/-- A call keeps the accounts; it adds a ghost only where it found an expired
entry. -/
theorem accounted_step (hc : Accounted ghosts cache) (call : Call) :
    Accounted (ghosts + if foundExpired provider cacheKey
        ((introspection provider cacheKey mapper).fire cache call) then 1 else 0)
      (authenticate provider cacheKey mapper cache call).1 := by
  obtain heq | ⟨token, accepted, htoken, hmiss, heq⟩ :=
    authenticate_cases provider cacheKey mapper cache call
  · rw [heq]
    exact hc.mono (Nat.le_add_right _ _)
  · obtain ⟨hkept, hroom⟩ := hc.makeRoom
    rw [heq]
    refine (hkept.insert hroom).mono (Nat.add_le_add_left ?_ _)
    cases hold : cache.makeRoom.entries.lookup (cacheKey token) with
    | none => exact Nat.zero_le _
    | some old =>
      -- what is there after the eviction was there before it
      have hfound : foundExpired provider cacheKey
          ((introspection provider cacheKey mapper).fire cache call) = true := by
        simp only [foundExpired, fire_input, fire_pre, htoken, hmiss, lookup_of_makeRoom hold,
          Option.isSome_some, Option.isNone_none, Bool.and_self]
      rw [hfound]
      exact Nat.le_refl 1

theorem accounted_empty : Accounted 0 .empty where
  size := by decide
  recorded key entry h := by
    rw [IntrospectionCache.empty, AList.lookup_empty] at h
    cases h
  records := by decide

theorem accounted_run (he : (introspection provider cacheKey mapper).Exec .empty h s) :
    Accounted (h.countP (foundExpired provider cacheKey)) s := by
  induction he with
  | nil => exact accounted_empty
  | snoc call _ ih =>
    rw [List.countP_append, List.countP_singleton]
    exact accounted_step ih call

def Forward (h : List Made) : Prop := h.Pairwise fun t u => t.input.now ≤ u.input.now

/-- The records stand in the order of their readings, each the reading of a call. -/
structure InOrder (h : List Made) (queue : List (CacheKey × Int)) : Prop where
  read : ∀ record ∈ queue, ∃ t ∈ h, record.2 = wholeSeconds t.input.now
  sorted : Forward h → queue.Pairwise fun a b => a.2 ≤ b.2

theorem Accounted.makeRoom_suffix (hc : Accounted ghosts cache) :
    cache.makeRoom.queue <:+ cache.queue := by
  obtain hlt | hfull := hc.size.lt_or_eq
  · have hsame : cache.makeRoom = cache := if_neg hlt.not_ge
    simp only [hsame, List.suffix_rfl]
  · obtain ⟨before, key, entry, rest, hqueue, -, -, hroom⟩ := hc.evicts hfull
    rw [hroom, hqueue]
    exact (List.suffix_cons _ _).trans (List.suffix_append _ _)

/-- A record pushed at the reading of the latest call goes last. -/
theorem InOrder.push {queue rest : List (CacheKey × Int)} {t : Made} {key : CacheKey}
    (ho : InOrder h queue) (hrest : rest <:+ queue) :
    InOrder (h ++ [t]) (rest ++ [(key, wholeSeconds t.input.now)]) := by
  refine ⟨fun record hmem => ?_, fun hforward => ?_⟩
  · obtain hmem | rfl := mem_snoc hmem
    · obtain ⟨u, hu, hread⟩ := ho.read record (hrest.subset hmem)
      exact ⟨u, List.mem_append_left _ hu, hread⟩
    · exact ⟨t, List.mem_concat_self, rfl⟩
  · obtain ⟨hbefore, -, hlast⟩ := List.pairwise_append.mp hforward
    refine List.pairwise_append.mpr ⟨(ho.sorted hbefore).sublist hrest.sublist,
      List.pairwise_singleton _ _, fun record hmem last hl => ?_⟩
    obtain ⟨u, hu, hread⟩ := ho.read record (hrest.subset hmem)
    rw [List.mem_singleton.mp hl, hread]
    exact Int.ediv_le_ediv (by decide) (hlast u hu t List.mem_cons_self)

theorem InOrder.snoc {queue : List (CacheKey × Int)} (t : Made) (ho : InOrder h queue) :
    InOrder (h ++ [t]) queue := by
  refine ⟨fun record hmem => ?_, fun hforward => ho.sorted (List.pairwise_append.mp hforward).1⟩
  obtain ⟨u, hu, hread⟩ := ho.read record hmem
  exact ⟨u, List.mem_append_left _ hu, hread⟩

theorem inOrder_run (he : (introspection provider cacheKey mapper).Exec .empty h s) :
    InOrder h s.queue := by
  induction he with
  | nil => exact ⟨List.forall_mem_nil _, fun _ => .nil⟩
  | @snoc h cache call he ih =>
    have hc := accounted_run he
    obtain heq | ⟨token, accepted, -, -, heq⟩ :=
      authenticate_cases provider cacheKey mapper cache call
    · show InOrder _ (authenticate provider cacheKey mapper cache call).1.queue
      rw [heq]
      exact ih.snoc _
    · show InOrder _ (authenticate provider cacheKey mapper cache call).1.queue
      rw [heq, IntrospectionCache.insert, if_pos hc.makeRoom.2]
      exact ih.push hc.makeRoom_suffix

/-- In a queue in order, the first live record is the oldest. -/
theorem oldest_of_sorted {before rest : List (CacheKey × Int)} {key other : CacheKey}
    {old entry : CacheEntry} (hc : Accounted ghosts cache)
    (hsorted : cache.queue.Pairwise fun a b => a.2 ≤ b.2)
    (hqueue : cache.queue = before ++ (key, old.insertedAt) :: rest)
    (hbefore : ∀ earlier ∈ before, ¬ Live cache.entries earlier)
    (hentry : cache.entries.lookup other = some entry) : old.insertedAt ≤ entry.insertedAt := by
  have hmem := hc.recorded other entry hentry
  rw [hqueue] at hmem hsorted
  obtain hmem | hmem := List.mem_append.mp hmem
  · exact absurd ⟨entry, hentry, rfl⟩ (hbefore _ hmem)
  · obtain heq | hmem := List.mem_cons.mp hmem
    · exact (congrArg Prod.snd heq).ge
    · exact (List.pairwise_cons.mp (List.pairwise_append.mp hsorted).2.1).1 _ hmem

/-- **The map is bounded, the queue up to the calls that found an expired
entry**, whatever the clock does; and a full cache gives up its oldest entry
where the clock does not go back. -/
theorem introspection_cache_bounded
    (he : (introspection provider cacheKey mapper).Exec .empty h s) :
    s.entries.entries.length ≤ maxIntrospectionCacheEntries ∧
    (∀ key entry, s.entries.lookup key = some entry → (key, entry.insertedAt) ∈ s.queue) ∧
    (∀ t ∈ h, t.pre.entries.entries.length = maxIntrospectionCacheEntries → t.post = t.pre ∨
      ∃ evicted old key new, t.pre.entries.lookup evicted = some old ∧
        t.post.entries = (t.pre.entries.erase evicted).insert key new ∧
        (Forward h → ∀ other entry, t.pre.entries.lookup other = some entry →
          old.insertedAt ≤ entry.insertedAt)) ∧
    s.queue.length ≤
      maxIntrospectionCacheEntries + h.countP (foundExpired provider cacheKey) := by
  have hc := accounted_run he
  refine ⟨hc.size, hc.recorded, fun t ht hfull => ?_,
    hc.records.trans (Nat.add_le_add_right hc.size _)⟩
  obtain ⟨h₁, h₂, rfl⟩ := List.append_of_mem ht
  obtain ⟨he₁, hfire, -⟩ := he.split_at
  have hc₁ := accounted_run he₁
  have hpost : t.post = (authenticate provider cacheKey mapper t.pre t.input).1 :=
    congrArg Transition.post hfire
  obtain heq | ⟨token, accepted, -, -, heq⟩ :=
    authenticate_cases provider cacheKey mapper t.pre t.input
  · exact .inl (hpost.trans heq)
  · obtain ⟨before, evicted, old, rest, hqueue, hbefore, hold, hroom⟩ := hc₁.evicts hfull
    have hlt := hc₁.makeRoom.2
    refine .inr ⟨evicted, old, cacheKey token, ⟨wholeSeconds t.input.now, accepted⟩, hold, ?_,
      fun hforward other entry hentry => ?_⟩
    · rw [hpost, heq, IntrospectionCache.insert, if_pos hlt, hroom]
    · have hsorted := (inOrder_run he₁).sorted (List.pairwise_append.mp hforward).1
      exact oldest_of_sorted hc₁ hsorted hqueue hbefore hentry

end

/-! ### A token that comes back -/

/-- The introspection part of the sample provider: entries live five minutes. -/
def sampleIntrospection : IntrospectionAuthenticationProvider :=
  ⟨⟨"https", some "idp.example"⟩, ⟨"api", "secret"⟩, some 300⟩

def sampleMachine : Machine IntrospectionCache Call (Except Stop Accepted) :=
  introspection sampleIntrospection OidcRun.sampleEnv.cacheKey OidcRun.sampleEnv.mapper

/-- The `n`th call with `abc`, five minutes after the one before. -/
def comesBack (n : Nat) : Call where
  credential := .bearer "abc"
  now := 300 * n * nanosPerSecond
  answer := some (.ok ⟨true, some (OidcRun.sampleClaims "https://idp.example" "api" 2000000)⟩)

theorem introspection_cache_bounded_twice :
    (sampleMachine.after .empty [comesBack 0, comesBack 1]).queue.length = 2 ∧
    (sampleMachine.after .empty [comesBack 0, comesBack 1]).queue.length ≤
      maxIntrospectionCacheEntries + 1 := by
  refine ⟨rfl, ?_⟩
  exact (introspection_cache_bounded (Machine.exec_trace sampleMachine .empty
    [comesBack 0, comesBack 1])).2.2.2

def abcKey : CacheKey := OidcRun.sampleEnv.cacheKey "abc"

/-- The call replaces the expired entry and leaves its record in the queue. -/
theorem comesBack_step {cache : IntrospectionCache} {entry : CacheEntry} {n : Nat}
    (hentries : cache.entries = AList.singleton abcKey entry)
    (hat : entry.insertedAt = 300 * (n : Int)) :
    ∃ new : CacheEntry, new.insertedAt = 300 * ((n + 1 : Nat) : Int) ∧
      (sampleMachine.step cache (comesBack (n + 1))).1 =
        ⟨AList.singleton abcKey new, cache.queue ++ [(abcKey, new.insertedAt)]⟩ := by
  have hnow : wholeSeconds (comesBack (n + 1)).now = 300 * ((n + 1 : Nat) : Int) :=
    Int.mul_ediv_cancel _ (by decide)
  have hage : ¬ age (wholeSeconds (comesBack (n + 1)).now) entry.insertedAt < 300 := by
    rw [hnow, hat]
    dsimp only [age]
    split_ifs <;> omega
  have hmiss : lookupCached sampleIntrospection cache OidcRun.sampleEnv.cacheKey "abc"
      (comesBack (n + 1)).now = none := by
    have hlookup : cache.entries.lookup abcKey = some entry := hentries ▸ rfl
    show cache.fresh 300 abcKey _ = none
    simp only [IntrospectionCache.fresh, hlookup, if_neg hage]
  obtain ⟨accepted, haccept⟩ : ∃ accepted, OidcRun.sampleEnv.mapper.accept
      (OidcRun.sampleClaims "https://idp.example" "api" 2000000) = .ok accepted := ⟨_, rfl⟩
  have hroom : cache.entries.entries.length < maxIntrospectionCacheEntries := by
    rw [hentries]
    show 1 < maxIntrospectionCacheEntries
    decide
  refine ⟨⟨300 * ((n + 1 : Nat) : Int), accepted⟩, rfl, ?_⟩
  show (authenticate _ _ _ cache (comesBack (n + 1))).1 = _
  have htoken : (comesBack (n + 1)).credential.token = .ok "abc" := rfl
  have hclaims : activeClaims (comesBack (n + 1)).answer = .ok _ := rfl
  simp only [authenticate, htoken, hmiss, finishIntrospection, hclaims, haccept]
  show (cache.store 300 _ _ accepted).1 = _
  rw [store_of_miss hmiss rfl, IntrospectionCache.makeRoom, if_neg hroom.not_ge,
    IntrospectionCache.insert, if_pos hroom, hnow, hentries]
  rfl

/-- Every further call with the token leaves one more record, for a map of one
entry. -/
theorem queue_grows_with_calls :
    IntrospectionAuthenticationProvider.new OidcRun.sampleConfig = .ok sampleIntrospection ∧
    ∀ n, ∃ h s, sampleMachine.Exec .empty h s ∧ h.length = n + 1 ∧
      s.entries.entries.length = 1 ∧ s.queue.length = n + 1 := by
  refine ⟨rfl, ?_⟩
  intro n
  suffices hrun : ∃ h s entry, sampleMachine.Exec .empty h s ∧ h.length = n + 1 ∧
      s.queue.length = n + 1 ∧ s.entries = AList.singleton abcKey entry ∧
      entry.insertedAt = 300 * (n : Int) by
    obtain ⟨h, s, entry, he, hlen, hqueue, hentries, -⟩ := hrun
    exact ⟨h, s, he, hlen, hentries ▸ rfl, hqueue⟩
  induction n with
  | zero => exact ⟨_, _, _, .snoc (comesBack 0) (.nil _), rfl, rfl, rfl, rfl⟩
  | succ n ih =>
    obtain ⟨h, s, entry, he, hlen, hqueue, hentries, hat⟩ := ih
    obtain ⟨new, hnew, hstep⟩ := comesBack_step hentries hat
    refine ⟨_, _, new, he.snoc (comesBack (n + 1)), ?_, ?_, ?_, hnew⟩
    · rw [List.length_append, hlen, List.length_singleton]
    · rw [hstep, List.length_append, hqueue, List.length_singleton]
    · rw [hstep]

end EgoRs.CacheBound

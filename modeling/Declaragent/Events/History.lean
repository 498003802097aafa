import Declaragent.Events.Dispatcher

/-!
# Events — what a dispatcher knows

Events reach a dispatcher over its bus, or are handed to it.  Whatever comes of them, the
dispatcher knows no other: each key of its cache is one that an event it was given is remembered
under, and the store and the recent buffer hold no other events.

* `Only.run` carries a property of all events that are given over to what the dispatcher knows.
* `handle_executes`: an event that shares no key with those, and whose cause is none of them, gets
  to its target.
-/

namespace Declaragent.Events

/-! ### The keys of an event -/

/-- The keys that the cache remembers an event under. -/
def cacheKeys (event : AgentEvent) : List String :=
  event.id :: match event.idempotencyKey with
    | none => []
    | some key => if key = "" then [] else [idempotencyCacheKey event.source.type key]

theorem id_mem_cacheKeys (event : AgentEvent) : event.id ∈ cacheKeys event :=
  List.mem_cons_self

theorem key_mem_cacheKeys {event : AgentEvent} {key : String}
    (hkey : event.idempotencyKey = some key) (hne : key ≠ "") :
    idempotencyCacheKey event.source.type key ∈ cacheKeys event := by
  simp [cacheKeys, hkey, hne]

namespace IdempotencyCache
variable {cache : IdempotencyCache}

theorem knows_delete {key other : String} (h : (cache.delete key).Knows other) :
    cache.Knows other :=
  (List.filter_sublist.map _).subset h

theorem knows_read {key other : String} {now : Int} (h : (cache.read key now).2.Knows other) :
    cache.Knows other := by
  unfold read at h
  split at h
  · exact h
  · rename_i at_ hget
    split at h
    · exact knows_delete h
    · rcases knows_touch h with rfl | h
      · by_contra hno
        rw [get_eq_none.mpr hno] at hget
        cases hget
      · exact h

/-- A lookup makes the cache know nothing. -/
theorem knows_lookup {event : AgentEvent} {now : Int} {other : String}
    (h : (cache.lookup event now).2.Knows other) : cache.Knows other := by
  have hread : ∀ {o cache'}, cache.read event.id now = (o, cache') → ∀ k, cache'.Knows k →
      cache.Knows k := by
    intro o cache' he k hk
    have hk' : (cache.read event.id now).2.Knows k := by rw [he]; exact hk
    exact knows_read hk'
  unfold lookup at h
  split at h
  · rename_i primary cache' he
    exact hread he _ h
  · rename_i cache' he
    split at h
    · exact hread he _ h
    · split at h
      · exact hread he _ h
      · exact hread he _ (knows_read h)

/-- Remembering an event makes the cache know the event's keys. -/
theorem knows_of_remember {event : AgentEvent} {ts : Int} {other : String}
    (h : (cache.remember event ts).Knows other) : other ∈ cacheKeys event ∨ cache.Knows other := by
  unfold remember at h
  dsimp only at h
  cases hk : event.idempotencyKey with
  | none =>
    rw [hk] at h
    rcases knows_write h with rfl | h
    · exact Or.inl (id_mem_cacheKeys event)
    · exact Or.inr h
  | some key =>
    rw [hk] at h
    by_cases hne : key = ""
    · simp only [hne, if_true] at h
      rcases knows_write h with rfl | h
      · exact Or.inl (id_mem_cacheKeys event)
      · exact Or.inr h
    · simp only [hne, if_false] at h
      rcases knows_write h with rfl | h
      · exact Or.inl (key_mem_cacheKeys hk hne)
      · rcases knows_write h with rfl | h
        · exact Or.inl (id_mem_cacheKeys event)
        · exact Or.inr h

/-- An event none of whose keys is known is not found. -/
theorem lookup_of_no_key {event : AgentEvent} {now : Int}
    (h : ∀ key ∈ cacheKeys event, ¬ cache.Knows key) : cache.lookup event now = (none, cache) := by
  unfold lookup
  rw [read_of_unknown (h _ (id_mem_cacheKeys event))]
  cases hk : event.idempotencyKey with
  | none => rfl
  | some key =>
    by_cases hne : key = ""
    · simp [hne]
    · simp only [hne, if_false]
      exact read_of_unknown (h _ (key_mem_cacheKeys hk hne))

end IdempotencyCache

/-- What is written last is there. -/
theorem IdempotencyCache.get_write_self {cache : IdempotencyCache} (hmax : 0 < cache.max)
    (key : String) (ts : Int) : (cache.write key ts).get key = some ts := by
  have hdrop : (cache.touch key ts).entries.drop
      ((cache.touch key ts).entries.length - cache.max) =
      (cache.delete key).entries.drop ((cache.touch key ts).entries.length - cache.max) ++
        [(key, ts)] := by
    have hlen : (cache.touch key ts).entries.length = (cache.delete key).entries.length + 1 := by
      simp [touch]
    exact List.drop_append_of_le_length (by omega)
  have hnone : ((cache.delete key).entries.drop
      ((cache.touch key ts).entries.length - cache.max)).find? (fun entry => entry.1 == key) =
      none := by
    refine List.find?_eq_none.mpr fun entry hentry => ?_
    simpa [delete] using (List.mem_filter.mp (List.mem_of_mem_drop hentry)).2
  unfold write evict get
  dsimp only
  rw [show (cache.touch key ts).max = cache.max from rfl, hdrop, List.find?_append, hnone]
  simp

/-- The key of an event that was just remembered is live. -/
theorem IdempotencyCache.live_of_remember {cache : IdempotencyCache} (hmax : 0 < cache.max)
    {event : AgentEvent} {key : String} (hkey : event.idempotencyKey = some key) (hne : key ≠ "")
    {ts now : Int} (hnow : now - ts ≤ cache.ttlMs) :
    (cache.remember event ts).Live (idempotencyCacheKey event.source.type key) now := by
  refine ⟨ts, ?_, ?_⟩
  · simp only [remember, hkey, hne, if_false]
    have hmax' : 0 < (cache.write event.id ts).max := hmax
    exact get_write_self hmax' _ ts
  · simp only [remember, hkey, hne, if_false]
    exact hnow

/-! ### What the dispatcher knows -/

/-- The dispatcher knows only events with `P`. -/
structure Only (P : AgentEvent → Prop) (d : Dispatcher) : Prop where
  cache : ∀ key, d.cache.Knows key → ∃ event, P event ∧ key ∈ cacheKeys event
  store : ∀ event ∈ d.store.logged, P event
  recent : ∀ event ∈ d.recent, P event

section
variable {P : AgentEvent → Prop} {d : Dispatcher} {event : AgentEvent}

theorem mem_logged_recordEvent {store : EventStore} {now : Int} {prior : AgentEvent}
    (h : prior ∈ (recordEvent store event now).logged) : prior = event ∨ prior ∈ store.logged := by
  unfold recordEvent at h
  rcases EventStore.record_spec store event now with ⟨e, he, -⟩ | ⟨store', he, hlogged, -⟩
  · rw [he] at h
    exact Or.inr h
  · rw [he] at h
    dsimp only at h
    rw [hlogged, List.mem_append, List.mem_singleton] at h
    exact h.symm

theorem Only.remember (h : Only P d) (hP : P event) (now : Int) :
    Only P (d.remember event now) := by
  refine ⟨fun key hkey => ?_, fun prior hprior => ?_, h.recent⟩
  · rcases IdempotencyCache.knows_of_remember hkey with hmem | hkey
    · exact ⟨event, hP, hmem⟩
    · exact h.cache key hkey
  · rcases mem_logged_recordEvent hprior with rfl | hprior
    · exact hP
    · exact h.store prior hprior

/-- Outcomes and rejections are written to the rows that there are. -/
theorem Only.of_logged (h : Only P d) {t : Dispatcher} (hcache : t.cache = d.cache)
    (hlogged : t.store.logged = d.store.logged) (hrecent : t.recent = d.recent) : Only P t :=
  ⟨by rw [hcache]; exact h.cache, by rw [hlogged]; exact h.store, by rw [hrecent]; exact h.recent⟩

theorem Only.with_cache (h : Only P d) {cache : IdempotencyCache}
    (hcache : ∀ key, cache.Knows key →
      d.cache.Knows key ∨ ∃ event, P event ∧ key ∈ cacheKeys event) :
    Only P { d with cache := cache } := by
  refine ⟨fun key hkey => ?_, h.store, h.recent⟩
  rcases hcache key hkey with hknows | hevent
  · exact h.cache key hknows
  · exact hevent

theorem Only.dispatchNew (h : Only P d) (hP : P event) (config : DispatcherConfig) (now : Int) :
    Only P (dispatchNew config d event now).2 := by
  obtain ⟨hcache, hrecent, hlogged, -⟩ := dispatchNew_spec config d event now
  exact (h.remember hP now).of_logged hcache hlogged hrecent

theorem Only.dispatch (h : Only P d) (hP : P event) (config : DispatcherConfig) (now : Int) :
    Only P (dispatch config d event now).2 := by
  have hlookup : ∀ {o cache}, d.cache.lookup event now = (o, cache) → ∀ key, cache.Knows key →
      d.cache.Knows key := by
    intro o cache he key hkey
    have hkey' : (d.cache.lookup event now).2.Knows key := by rw [he]; exact hkey
    exact IdempotencyCache.knows_lookup hkey'
  unfold Events.dispatch firstSeen
  rcases hl : d.cache.lookup event now with ⟨_ | at_, cache⟩
  · cases d.store.findDuplicate event config.dedupWindowMs now with
    | none =>
      have hcache := h.with_cache fun key hkey => Or.inl (hlookup hl key hkey)
      exact hcache.dispatchNew hP config now
    | some prior =>
      refine h.with_cache fun key hkey => ?_
      rcases IdempotencyCache.knows_of_remember hkey with hmem | hkey
      · exact Or.inr ⟨event, hP, hmem⟩
      · exact Or.inl (hlookup hl key hkey)
  · exact h.with_cache fun key hkey => Or.inl (hlookup hl key hkey)

end

/-! ### What the dispatcher is given -/

/-- An event that is published on the bus, or handed to the dispatcher. -/
inductive Handed where
  | publish (event : AgentEvent) (now : Int)
  | handle (event : AgentEvent) (now : Int)

/-- The event that is given, and what `event.before` makes of it. -/
def Handed.events (config : DispatcherConfig) : Handed → List AgentEvent
  | .publish event _ | .handle event _ =>
    event :: match config.before event with
      | .rewrites current => [current]
      | _ => []

def handed (config : DispatcherConfig) (d : Dispatcher) : Handed → Dispatcher
  | .publish event now => publish config d event now
  | .handle event now => (handleInternal config d event now).2

section
variable {P : AgentEvent → Prop} {d : Dispatcher} {config : DispatcherConfig}

theorem Only.handleInternal (h : Only P d) {event : AgentEvent} (hP : P event)
    (hbefore : ∀ current, config.before event = .rewrites current → P current) (now : Int) :
    Only P (handleInternal config d event now).2 := by
  unfold Events.handleInternal
  cases hb : config.before event with
  | throws err => exact h
  | drops => exact h
  | passes => exact h.dispatch hP config now
  | rewrites current => exact h.dispatch (hbefore current hb) config now

theorem Only.handed (h : Only P d) {a : Handed} (hP : ∀ event ∈ a.events config, P event) :
    Only P (handed config d a) := by
  cases a with
  | publish event now =>
    have hpush : Only P (d.push config event) := by
      refine ⟨h.cache, h.store, fun prior hprior => ?_⟩
      rcases mem_pushRecent hprior with rfl | hprior
      · exact hP prior (by simp [Handed.events])
      · exact h.recent prior hprior
    exact hpush.handleInternal (hP event (by simp [Handed.events]))
      (fun current hb => hP current (by simp [Handed.events, hb])) now
  | handle event now =>
    exact h.handleInternal (hP event (by simp [Handed.events]))
      (fun current hb => hP current (by simp [Handed.events, hb])) now

/-- **A dispatcher knows only what it was given.** -/
theorem Only.run (h : Only P d) {as : List Handed}
    (hP : ∀ a ∈ as, ∀ event ∈ a.events config, P event) :
    Only P (as.foldl (Events.handed config) d) := by
  induction as generalizing d with
  | nil => exact h
  | cons a as ih =>
    exact ih (h.handed (hP a List.mem_cons_self)) fun b hb => hP b (List.mem_cons_of_mem _ hb)

/-- A new dispatcher knows what its store holds. -/
theorem Only.create {store : EventStore} (h : ∀ event ∈ store.logged, P event) :
    Only P (createEventDispatcher store) :=
  ⟨fun _ hkey => absurd hkey List.not_mem_nil, h, fun _ hmem => absurd hmem List.not_mem_nil⟩

end

/-! ### When an event gets to its target -/

/-- The events share no key, and the one is not what caused the other. -/
def Unrelated (event other : AgentEvent) : Prop :=
  (∀ key ∈ cacheKeys event, key ∉ cacheKeys other) ∧ event.causedBy ≠ some other.id

section
variable {config : DispatcherConfig} {d : Dispatcher} {event : AgentEvent} {now : Int}

theorem executed_dispatch (hnew : firstSeen config d.cache d.store event now = (none, d.cache))
    (hloop : detectLoop config (d.remember event now) event = false)
    (hrate : config.rateLimiter event.target = none) :
    (dispatch config d event now).2.executed = d.executed ++ [event] := by
  unfold dispatch
  rw [hnew]
  rw [(dispatchNew_spec config d event now).2.2.2, if_pos ⟨hloop, hrate⟩]

/-- A duplicate and a loop do not get to their target. -/
theorem executed_of_stopped
    (h : (firstSeen config d.cache d.store event now).1.isSome ∨
      detectLoop config (d.remember event now) event = true) :
    (dispatch config d event now).2.executed = d.executed := by
  unfold dispatch
  rcases hseen : firstSeen config d.cache d.store event now with ⟨_ | at_, cache⟩
  · rw [hseen] at h
    have hloop := h.resolve_left nofun
    -- the loop check does not read the cache
    have hloop' : detectLoop config ({ d with cache := cache }.remember event now) event = true :=
      hloop
    rw [(dispatchNew_spec config _ event now).2.2.2]
    simp [hloop']
  · rfl

/-- What the cache remembers is a duplicate. -/
theorem firstSeen_of_remembers {cache : IdempotencyCache} {store : EventStore}
    (h : cache.Remembers event now) : (firstSeen config cache store event now).1.isSome := by
  have hsome := IdempotencyCache.lookup_of_remembers h
  unfold firstSeen
  rcases hl : cache.lookup event now with ⟨_ | at_, cache'⟩
  · rw [hl] at hsome
    cases hsome
  · rfl

/-- **An event unrelated to all that the dispatcher knows gets to its target**, unless the hook or
the rate limiter stops it. -/
theorem handle_executes (hd : Only (Unrelated event) d) (hbefore : config.before event = .passes)
    (hrate : config.rateLimiter event.target = none)
    (hhost : ∀ id hit, config.lookupEvent.bind (· id) = some hit →
      hit.id = id ∧ Unrelated event hit)
    (hself : event.causedBy ≠ some event.id) :
    (handleInternal config d event now).2.executed = d.executed ++ [event] := by
  have hcache : ∀ key ∈ cacheKeys event, ¬ d.cache.Knows key := by
    intro key hkey hknows
    obtain ⟨other, hother, hmem⟩ := hd.cache key hknows
    exact hother.1 key hkey hmem
  have hstore : d.store.findDuplicate event config.dedupWindowMs now = none := by
    refine EventStore.findDuplicate_eq_none.mpr ⟨fun prior hprior he => ?_, ?_⟩
    · exact (hd.store prior hprior).1 event.id (id_mem_cacheKeys event)
        (he ▸ id_mem_cacheKeys prior)
    · intro key hkey hne prior hprior hkey' htype
      refine absurd ?_ ((hd.store prior hprior).1 _ (key_mem_cacheKeys hkey hne))
      rw [← htype]
      exact key_mem_cacheKeys hkey' hne
  have hnew : firstSeen config d.cache d.store event now = (none, d.cache) := by
    unfold firstSeen
    rw [IdempotencyCache.lookup_of_no_key hcache, hstore]
  -- the first ancestor is not found
  have hlookup : ∀ cause, event.causedBy = some cause →
      lookupAncestor config (d.remember event now) cause = none := by
    intro cause hcause
    have hknown : ∀ prior, prior.id = cause → ¬ Unrelated event prior :=
      fun prior hid hun => hun.2 (by rw [hid]; exact hcause)
    have hrecent : recentLookup d.recent cause = none := by
      refine List.find?_eq_none.mpr fun prior hprior he => ?_
      exact hknown prior (by simpa using he) (hd.recent prior hprior)
    have hget : (recordEvent d.store event now).get cause = none := by
      refine EventStore.get_eq_none.mpr fun prior hprior hid => ?_
      rcases mem_logged_recordEvent hprior with rfl | hprior
      · exact hself (by rw [hid]; exact hcause)
      · exact hknown prior hid (hd.store prior hprior)
    unfold lookupAncestor
    have hfirst : (config.lookupEvent.getD (recentLookup d.recent)) cause = none := by
      cases hl : config.lookupEvent with
      | none => exact hrecent
      | some lookup =>
        cases hhit : lookup cause with
        | none => simpa using hhit
        | some hit =>
          obtain ⟨hid, hun⟩ := hhost cause hit (by rw [hl]; exact hhit)
          exact absurd hun (hknown hit hid)
    simp only [Dispatcher.remember, hfirst, hget, hrecent]
  have hloop : detectLoop config (d.remember event now) event = false := by
    unfold detectLoop
    split
    · rfl
    · split
      · rfl
      · cases config.causedByDepthLimit.toNat with
        | zero => rfl
        | succ fuel =>
          cases hcause : event.causedBy with
          | none => rfl
          | some cause => simp [walkAncestors, hlookup cause hcause]
  unfold handleInternal
  rw [hbefore]
  exact executed_dispatch hnew hloop hrate

end

end Declaragent.Events

import Declaragent.Events.Store

/-!
# Events — the dispatcher

`handleInternal` takes one event from the bus to its target: the `event.before` hook, the
duplicate check (the idempotency cache, then the store), the record of the event, the loop
check, the rate limit, the target, and the record of its outcome.  The hook, the rate limiter
and the target are parameters.

Each stage is a function of its own, so that a run in which many events interleave can be put
together from the same stages.

* `lookup_of_remembers`, `lookup_of_unknown`: what the cache answers.
* `detectLoop_of_trigger`: an event whose cause has its own trigger is a loop.
* `dispatch_eq`: a dispatch is its start and, once the target is through, its end.
* `detectLoop_of_chain`: the loop check finds a trigger along an unbroken chain of causes.
-/

namespace Declaragent.Events

/-! ### The idempotency cache -/

/-- The cache: when each key was seen, the least recently used first.  No key occurs twice. -/
structure IdempotencyCache where
  max : Nat
  ttlMs : Int
  entries : List (String × Int)
  keys : (entries.map Prod.fst).Nodup

namespace IdempotencyCache

def empty (max : Nat) (ttlMs : Int) : IdempotencyCache := ⟨max, ttlMs, [], List.nodup_nil⟩

/-- `entries.get(key)`. -/
def get (cache : IdempotencyCache) (key : String) : Option Int :=
  (cache.entries.find? fun entry => entry.1 == key).map Prod.snd

def delete (cache : IdempotencyCache) (key : String) : IdempotencyCache :=
  { cache with
    entries := cache.entries.filter fun entry => entry.1 != key
    keys := cache.keys.sublist (List.filter_sublist.map _) }

/-- The key goes to the most recently used end. -/
def touch (cache : IdempotencyCache) (key : String) (at_ : Int) : IdempotencyCache :=
  { cache.delete key with
    entries := (cache.delete key).entries ++ [(key, at_)]
    keys := by
      rw [List.map_append]
      refine (cache.delete key).keys.append (List.nodup_singleton _) ?_
      simp [delete] }

/-- The oldest entries beyond the bound go. -/
def evict (cache : IdempotencyCache) : IdempotencyCache :=
  { cache with
    entries := cache.entries.drop (cache.entries.length - cache.max)
    keys := cache.keys.sublist ((List.drop_sublist _ _).map _) }

def read (cache : IdempotencyCache) (key : String) (now : Int) :
    Option Int × IdempotencyCache :=
  match cache.get key with
  | none => (none, cache)
  | some at_ => if cache.ttlMs < now - at_ then (none, cache.delete key)
      else (some at_, cache.touch key at_)

def write (cache : IdempotencyCache) (key : String) (ts : Int) : IdempotencyCache :=
  (cache.touch key ts).evict

end IdempotencyCache

def idempotencyCacheKey (sourceType idempotencyKey : String) : String :=
  "key:" ++ sourceType ++ ":" ++ idempotencyKey

namespace IdempotencyCache

/-- By event id, then by idempotency key; an empty key is no key. -/
def lookup (cache : IdempotencyCache) (event : AgentEvent) (now : Int) :
    Option Int × IdempotencyCache :=
  match cache.read event.id now with
  | (some primary, cache) => (some primary, cache)
  | (none, cache) =>
    match event.idempotencyKey with
    | none => (none, cache)
    | some key =>
      if key = "" then (none, cache)
      else cache.read (idempotencyCacheKey event.source.type key) now

def remember (cache : IdempotencyCache) (event : AgentEvent) (ts : Int) : IdempotencyCache :=
  let cache := cache.write event.id ts
  match event.idempotencyKey with
  | none => cache
  | some key =>
    if key = "" then cache else cache.write (idempotencyCacheKey event.source.type key) ts

/-- The key is in the cache. -/
def Knows (cache : IdempotencyCache) (key : String) : Prop := key ∈ cache.entries.map Prod.fst

/-- The key is in the cache and has not expired. -/
def Live (cache : IdempotencyCache) (key : String) (now : Int) : Prop :=
  ∃ at_, cache.get key = some at_ ∧ now - at_ ≤ cache.ttlMs

instance (cache : IdempotencyCache) (key : String) (now : Int) :
    Decidable (cache.Live key now) :=
  match h : cache.get key with
  | none => isFalse fun ⟨_, h', _⟩ => by rw [h] at h'; cases h'
  | some at_ =>
    if hle : now - at_ ≤ cache.ttlMs then isTrue ⟨at_, h, hle⟩
    else isFalse fun ⟨_, h', hle'⟩ => by rw [h] at h'; cases h'; exact hle hle'

/-- The cache has a live entry for the event, by its id or by its key. -/
def Remembers (cache : IdempotencyCache) (event : AgentEvent) (now : Int) : Prop :=
  cache.Live event.id now ∨
    match event.idempotencyKey with
    | none => False
    | some key => key ≠ "" ∧ cache.Live (idempotencyCacheKey event.source.type key) now

instance (cache : IdempotencyCache) (event : AgentEvent) (now : Int) :
    Decidable (cache.Remembers event now) := by
  unfold Remembers
  split <;> infer_instance

variable {cache : IdempotencyCache}

theorem get_eq_none {key : String} : cache.get key = none ↔ ¬ cache.Knows key := by
  unfold get Knows
  rw [Option.map_eq_none_iff, List.find?_eq_none, List.mem_map]
  constructor
  · rintro h ⟨entry, hentry, rfl⟩
    exact h entry hentry (by simp)
  · intro h entry hentry he
    exact h ⟨entry, hentry, by simpa using he⟩

theorem get_delete_of_ne {key other : String} (h : other ≠ key) :
    (cache.delete key).get other = cache.get other := by
  unfold get delete
  rw [List.find?_filter]
  congr 2
  funext entry
  by_cases he : entry.1 = other
  · simp [he, h]
  · simp [he]

theorem read_of_live {key : String} {now : Int} (h : cache.Live key now) :
    (cache.read key now).1.isSome := by
  obtain ⟨at_, hget, hle⟩ := h
  unfold read
  rw [hget]
  simp [not_lt.mpr hle]

theorem read_of_unknown {key : String} {now : Int} (h : ¬ cache.Knows key) :
    cache.read key now = (none, cache) := by
  unfold read
  rw [get_eq_none.mpr h]

/-- A read that finds nothing leaves the live entries. -/
theorem live_of_read (key : String) {other : String} {now : Int}
    (hread : (cache.read key now).1 = none) (h : cache.Live other now) :
    (cache.read key now).2.Live other now := by
  unfold read at hread ⊢
  split
  · exact h
  · rename_i at_ hget
    split
    · rename_i hexpired
      -- only an expired entry is deleted, and the live one is another
      have hne : other ≠ key := by
        rintro rfl
        obtain ⟨at', hget', hle⟩ := h
        rw [hget] at hget'
        cases hget'
        omega
      obtain ⟨at', hget', hle⟩ := h
      exact ⟨at', by rw [get_delete_of_ne hne]; exact hget', hle⟩
    · simp_all

/-- **A live entry is found.** -/
theorem lookup_of_remembers {event : AgentEvent} {now : Int} (h : cache.Remembers event now) :
    (cache.lookup event now).1.isSome := by
  unfold lookup
  rcases hr : cache.read event.id now with ⟨_ | primary, cache'⟩
  · rcases h with hid | hkey
    · have hsome := read_of_live hid
      rw [hr] at hsome
      cases hsome
    · cases hk : event.idempotencyKey with
      | none =>
        rw [hk] at hkey
        cases hkey
      | some key =>
        rw [hk] at hkey
        have hlive' := live_of_read event.id (by rw [hr]) hkey.2
        rw [hr] at hlive'
        simp only [hkey.1, if_false]
        exact read_of_live hlive'
  · rfl

theorem lookup_of_unknown {event : AgentEvent} {now : Int} (hid : ¬ cache.Knows event.id)
    (hkey : event.idempotencyKey = none) : cache.lookup event now = (none, cache) := by
  unfold lookup
  rw [read_of_unknown hid]
  simp [hkey]

theorem knows_touch {key other : String} {ts : Int} (h : (cache.touch key ts).Knows other) :
    other = key ∨ cache.Knows other := by
  unfold Knows touch delete at h
  rw [List.map_append, List.mem_append] at h
  rcases h with h | h
  · exact Or.inr ((List.filter_sublist.map _).subset h)
  · exact Or.inl (by simpa using h)

theorem knows_write {key other : String} {ts : Int} (h : (cache.write key ts).Knows other) :
    other = key ∨ cache.Knows other :=
  knows_touch (((List.drop_sublist _ _).map _).subset h)

/-- Remembering an event without a key makes the cache know its id, and no more. -/
theorem knows_remember {event : AgentEvent} {ts : Int} (hkey : event.idempotencyKey = none)
    {key : String} (h : (cache.remember event ts).Knows key) :
    key = event.id ∨ cache.Knows key := by
  unfold remember at h
  simp only [hkey] at h
  exact knows_write h

end IdempotencyCache

/-! ### The stages of a dispatch -/

/-- What `event.before` does with an event. -/
inductive BeforeHook where
  | passes
  | drops
  | rewrites (event : AgentEvent)
  | throws (err : String)

/-- The options of the dispatcher and of the bus it is attached to.  `rateLimiter` gives the
details of a denial; `executeTarget` gives the outcome of the target, or the message of what it
throws. -/
structure DispatcherConfig where
  causedByDepthLimit : Int := 5
  dedupWindowMs : Int := 24 * 60 * 60 * 1000
  lookupEvent : Option (String → Option AgentEvent) := none
  before : AgentEvent → BeforeHook := fun _ => .passes
  rateLimiter : EventTarget → Option String := fun _ => none
  recentBufferSize : Nat := 1000
  executeTarget : AgentEvent → Except String DispatchOutcome

/-- The dispatcher with its store and the recent buffer of its bus, the oldest first; `executed`
is the log of the events whose target was started. -/
structure Dispatcher where
  cache : IdempotencyCache
  store : EventStore
  recent : List AgentEvent
  executed : List AgentEvent

/-- A new dispatcher over a store, with the default bounds of its cache. -/
def createEventDispatcher (store : EventStore) : Dispatcher where
  cache := .empty 10000 600000
  store := store
  recent := []
  executed := []

/-- When the event was first seen, by the cache and then by the store. -/
def firstSeen (config : DispatcherConfig) (cache : IdempotencyCache) (store : EventStore)
    (event : AgentEvent) (now : Int) : Option Int × IdempotencyCache :=
  match cache.lookup event now with
  | (some at_, cache) => (some at_, cache)
  | (none, cache) =>
    match store.findDuplicate event config.dedupWindowMs now with
    | some prior => (some prior.event.timestamp, cache.remember event prior.event.timestamp)
    | none => (none, cache)

/-- `store.record`, best effort: an error is logged. -/
def recordEvent (store : EventStore) (event : AgentEvent) (now : Int) : EventStore :=
  match store.record event now with
  | .ok store => store
  | .error _ => store

/-- `bus.recent((e) => e.id === id)[0]`. -/
def recentLookup (recent : List AgentEvent) (id : String) : Option AgentEvent :=
  recent.find? fun event => event.id == id

/-- The external lookup (by default the bus), then the store, then the bus. -/
def lookupAncestor (config : DispatcherConfig) (d : Dispatcher) (id : String) :
    Option AgentEvent :=
  match (config.lookupEvent.getD (recentLookup d.recent)) id with
  | some hit => some hit
  | none =>
    match d.store.get id with
    | some row => some row.event
    | none => recentLookup d.recent id

/-- Walk the `causedBy` chain for at most `fuel` ancestors. -/
def walkAncestors (lookup : String → Option AgentEvent) (currentTrigger : String) :
    Nat → Option String → List String → Bool
  | 0, _, _ => false
  | _ + 1, none, _ => false
  | fuel + 1, some ancestorId, visited =>
    if ancestorId = "" then false
    else if ancestorId ∈ visited then true
    else
      match lookup ancestorId with
      | none => false
      | some ancestor =>
        if getTriggerId ancestor.source = some currentTrigger then true
        else walkAncestors lookup currentTrigger fuel ancestor.causedBy (ancestorId :: visited)

def detectLoop (config : DispatcherConfig) (d : Dispatcher) (event : AgentEvent) : Bool :=
  match getTriggerId event.source with
  | none => false
  | some currentTrigger =>
    if currentTrigger = "" then false
    else walkAncestors (lookupAncestor config d) currentTrigger config.causedByDepthLimit.toNat
      event.causedBy []

/-- The record of a rejection that is no failure of the target. -/
def Dispatcher.reject (d : Dispatcher) (event : AgentEvent) (reason : RejectReason)
    (details : Option String) (now : Int) : Dispatcher :=
  let store := d.store.markOutcome event.id (.rejected reason details) now
  { d with store := store.upsertRejection event.id reason details now }

/-- The outcome of the target; what it throws is a rejection. -/
def targetOutcome (config : DispatcherConfig) (event : AgentEvent) : DispatchOutcome :=
  match config.executeTarget event with
  | .ok outcome => outcome
  | .error err => .rejected .invalid (some err)

/-- The record of the target's outcome. -/
def Dispatcher.settle (d : Dispatcher) (event : AgentEvent) (outcome : DispatchOutcome)
    (now : Int) : Dispatcher :=
  let store := d.store.markOutcome event.id outcome now
  { d with store := match outcome with
      | .rejected reason details => store.upsertRejection event.id reason details now
      | .dispatched _ | .broadcast => store.deleteRejection event.id
      | .queued _ | .duplicate _ _ => store }

/-- The event is new: the cache and the store take it. -/
def Dispatcher.remember (d : Dispatcher) (event : AgentEvent) (now : Int) : Dispatcher :=
  { d with cache := d.cache.remember event now, store := recordEvent d.store event now }

def loopDetails (event : AgentEvent) : String :=
  "causedBy chain contains triggerId \"" ++ (getTriggerId event.source).getD "<none>" ++ "\""

/-- From the record of the event on. -/
def dispatchNew (config : DispatcherConfig) (d : Dispatcher) (event : AgentEvent) (now : Int) :
    DispatchOutcome × Dispatcher :=
  let d := d.remember event now
  if detectLoop config d event then
    (.rejected .loop (some (loopDetails event)),
      d.reject event .loop (some (loopDetails event)) now)
  else
    match config.rateLimiter event.target with
    | some details =>
      (.rejected .rateLimit (some details), d.reject event .rateLimit (some details) now)
    | none =>
      let d := { d with executed := d.executed ++ [event] }
      (targetOutcome config event, d.settle event (targetOutcome config event) now)

/-- From the duplicate check on. -/
def dispatch (config : DispatcherConfig) (d : Dispatcher) (event : AgentEvent) (now : Int) :
    DispatchOutcome × Dispatcher :=
  match firstSeen config d.cache d.store event now with
  | (some at_, cache) => (.duplicate at_ event.id, { d with cache := cache })
  | (none, cache) => dispatchNew config { d with cache := cache } event now

def handleInternal (config : DispatcherConfig) (d : Dispatcher) (event : AgentEvent) (now : Int) :
    Except String DispatchOutcome × Dispatcher :=
  match config.before event with
  | .throws err => (.error err, d)
  | .drops => (.ok .broadcast, d)
  | .passes => let r := dispatch config d event now; (.ok r.1, r.2)
  | .rewrites current => let r := dispatch config d current now; (.ok r.1, r.2)

/-- The bus keeps the newest events. -/
def pushRecent (size : Nat) (recent : List AgentEvent) (event : AgentEvent) : List AgentEvent :=
  let buffer := recent ++ [event]
  if max 1 size < buffer.length then buffer.tail else buffer

/-- `bus.publish`, with the dispatcher as the subscriber; what a handler throws is logged. -/
def publish (config : DispatcherConfig) (d : Dispatcher) (event : AgentEvent) (now : Int) :
    Dispatcher :=
  let d := { d with recent := pushRecent config.recentBufferSize d.recent event }
  (handleInternal config d event now).2

/-! ### What the stages do -/

/-- An event is let through the duplicate check when neither the cache nor the store knows it. -/
theorem firstSeen_of_unknown (config : DispatcherConfig) {cache : IdempotencyCache}
    {store : EventStore} {event : AgentEvent} {now : Int} (hcache : ¬ cache.Knows event.id)
    (hstore : ∀ prior ∈ store.logged, prior.id ≠ event.id) (hkey : event.idempotencyKey = none) :
    firstSeen config cache store event now = (none, cache) := by
  unfold firstSeen
  rw [IdempotencyCache.lookup_of_unknown hcache hkey]
  have hnone : store.findDuplicate event config.dedupWindowMs now = none :=
    EventStore.findDuplicate_eq_none.mpr ⟨hstore, fun key hk => by rw [hkey] at hk; cases hk⟩
  simp [hnone]

/-- A new id is recorded. -/
theorem logged_recordEvent {store : EventStore} {event : AgentEvent} {now : Int}
    (h : ∀ prior ∈ store.logged, prior.id ≠ event.id) :
    (recordEvent store event now).logged = store.logged ++ [event] := by
  unfold recordEvent
  rcases EventStore.record_spec store event now with
    ⟨e, -, prior, hprior, hid⟩ | ⟨store', he, hlogged, -⟩
  · exact absurd hid (h prior hprior)
  · rw [he]
    exact hlogged

/-- The trigger an event carries: the empty text is none. -/
def Triggered (event : AgentEvent) (trigger : String) : Prop :=
  getTriggerId event.source = some trigger ∧ trigger ≠ ""

@[simp] theorem logged_reject (d : Dispatcher) (event : AgentEvent) (reason : RejectReason)
    (details : Option String) (now : Int) :
    (d.reject event reason details now).store.logged = d.store.logged := by
  simp [Dispatcher.reject]

@[simp] theorem logged_settle (d : Dispatcher) (event : AgentEvent) (outcome : DispatchOutcome)
    (now : Int) : (d.settle event outcome now).store.logged = d.store.logged := by
  unfold Dispatcher.settle
  cases outcome <;> simp

/-- **What the stages after the duplicate check do**: outcomes are written, and the target is
started unless the loop check or the rate limiter rejects the event. -/
theorem dispatchNew_spec (config : DispatcherConfig) (d : Dispatcher) (event : AgentEvent)
    (now : Int) :
    let d' := (dispatchNew config d event now).2
    d'.cache = (d.remember event now).cache ∧ d'.recent = d.recent ∧
    d'.store.logged = (d.remember event now).store.logged ∧
    d'.executed =
      if detectLoop config (d.remember event now) event = false ∧
        config.rateLimiter event.target = none then d.executed ++ [event] else d.executed := by
  intro d'
  simp only [d', dispatchNew]
  cases detectLoop config (d.remember event now) event with
  | true => exact ⟨rfl, rfl, by simp, rfl⟩
  | false =>
    cases config.rateLimiter event.target with
    | some details => exact ⟨rfl, rfl, by simp, rfl⟩
    | none => exact ⟨rfl, rfl, by simp, rfl⟩

theorem mem_pushRecent {size : Nat} {recent : List AgentEvent} {event prior : AgentEvent}
    (h : prior ∈ pushRecent size recent event) : prior = event ∨ prior ∈ recent := by
  unfold pushRecent at h
  have hmem : prior ∈ recent ++ [event] := by
    dsimp only at h
    split at h
    · exact List.mem_of_mem_tail h
    · exact h
  simpa [or_comm] using hmem

/-- An event without a trigger is in no loop, whatever caused it. -/
theorem detectLoop_of_untriggered (config : DispatcherConfig) (d : Dispatcher)
    {event : AgentEvent} (h : ∀ trigger, ¬ Triggered event trigger) :
    detectLoop config d event = false := by
  unfold detectLoop
  split
  · rfl
  · rename_i trigger ht
    split
    · rfl
    · rename_i hne
      exact absurd ⟨ht, hne⟩ (h trigger)

/-- **An event whose cause has its own trigger is a loop**, where a cause is looked up at all. -/
theorem detectLoop_of_trigger {config : DispatcherConfig} {d : Dispatcher}
    {event ancestor : AgentEvent} {trigger ancestorId : String} (ht : Triggered event trigger)
    (hlimit : 0 < config.causedByDepthLimit) (hcause : event.causedBy = some ancestorId)
    (hid : ancestorId ≠ "") (hlookup : lookupAncestor config d ancestorId = some ancestor)
    (hsource : getTriggerId ancestor.source = some trigger) :
    detectLoop config d event = true := by
  obtain ⟨fuel, hfuel⟩ : ∃ fuel, config.causedByDepthLimit.toNat = fuel + 1 :=
    ⟨config.causedByDepthLimit.toNat - 1, by omega⟩
  unfold detectLoop
  simp [ht.1, ht.2, hfuel, hcause, walkAncestors, hid, hlookup, hsource]

/-- Without depth or a named cause no ancestor is looked up. -/
theorem detectLoop_of_unwalked {config : DispatcherConfig} {d : Dispatcher} {event : AgentEvent}
    (h : config.causedByDepthLimit ≤ 0 ∨ event.causedBy = some "") :
    detectLoop config d event = false := by
  unfold detectLoop
  split
  · rfl
  · split
    · rfl
    · rcases h with hlimit | hcause
      · simp [Int.toNat_of_nonpos hlimit, walkAncestors]
      · rw [hcause]
        cases config.causedByDepthLimit.toNat <;> simp [walkAncestors]

/-! ### A dispatch in two steps -/

/-- `dispatchNew` up to the start of the target, with the outcome of an event that does not get
there. -/
def beginNew (config : DispatcherConfig) (d : Dispatcher) (event : AgentEvent) (now : Int) :
    Option DispatchOutcome × Dispatcher :=
  let d := d.remember event now
  if detectLoop config d event then
    (some (.rejected .loop (some (loopDetails event))),
      d.reject event .loop (some (loopDetails event)) now)
  else
    match config.rateLimiter event.target with
    | some details =>
      (some (.rejected .rateLimit (some details)),
        d.reject event .rateLimit (some details) now)
    | none => (none, { d with executed := d.executed ++ [event] })

/-- `dispatch` up to the start of the target. -/
def beginDispatch (config : DispatcherConfig) (d : Dispatcher) (event : AgentEvent) (now : Int) :
    Option DispatchOutcome × Dispatcher :=
  match firstSeen config d.cache d.store event now with
  | (some at_, cache) => (some (.duplicate at_ event.id), { d with cache := cache })
  | (none, cache) => beginNew config { d with cache := cache } event now

/-- `dispatch` is its first step and, where the target was started, the record of the target's
outcome. -/
theorem dispatch_eq (config : DispatcherConfig) (d : Dispatcher) (event : AgentEvent)
    (now : Int) :
    dispatch config d event now =
      match beginDispatch config d event now with
      | (some outcome, d) => (outcome, d)
      | (none, d) => (targetOutcome config event, d.settle event (targetOutcome config event) now)
      := by
  unfold dispatch beginDispatch
  rcases firstSeen config d.cache d.store event now with ⟨_ | at_, cache⟩
  · simp only [dispatchNew, beginNew]
    split
    · rfl
    · cases config.rateLimiter event.target <;> rfl
  · rfl

/-- `handleInternal` up to the start of the target: what the hook leaves of the event, with its
outcome where it does not get there. -/
def beginHandle (config : DispatcherConfig) (d : Dispatcher) (event : AgentEvent) (now : Int) :
    Option (AgentEvent × Option DispatchOutcome) × Dispatcher :=
  let handle (current : AgentEvent) :=
    let r := beginDispatch config d current now
    (some (current, r.1), r.2)
  match config.before event with
  | .throws _ | .drops => (none, d)
  | .passes => handle event
  | .rewrites current => handle current

/-- The bus remembers an event that is published on it. -/
def Dispatcher.push (config : DispatcherConfig) (d : Dispatcher) (event : AgentEvent) :
    Dispatcher :=
  { d with recent := pushRecent config.recentBufferSize d.recent event }

/-- An event that passes the duplicate check is in the store under no event's id. -/
theorem firstSeen_eq_none {config : DispatcherConfig} {cache : IdempotencyCache}
    {store : EventStore} {event : AgentEvent} {now : Int}
    (h : (firstSeen config cache store event now).1 = none) :
    ∀ prior ∈ store.logged, prior.id ≠ event.id := by
  unfold firstSeen at h
  split at h
  · cases h
  · split at h
    · cases h
    · rename_i hnone
      exact (EventStore.findDuplicate_eq_none.mp hnone).1

/-- **What the first step does with a new event**: it is in the store from then on, and a loop is
rejected. -/
theorem beginDispatch_spec {config : DispatcherConfig} {d : Dispatcher} {event : AgentEvent}
    {now : Int} (hnew : (firstSeen config d.cache d.store event now).1 = none) :
    let r := beginDispatch config d event now
    r.2.recent = d.recent ∧ r.2.store.logged = d.store.logged ++ [event] ∧
      (detectLoop config (d.remember event now) event = true →
        r.1 = some (.rejected .loop (some (loopDetails event)))) := by
  intro r
  have hlogged : (recordEvent d.store event now).logged = d.store.logged ++ [event] :=
    logged_recordEvent (firstSeen_eq_none hnew)
  simp only [r, beginDispatch]
  rcases hseen : firstSeen config d.cache d.store event now with ⟨_ | at_, cache⟩
  · -- the check does not read the cache
    have hloop : detectLoop config ({ d with cache := cache }.remember event now) event =
      detectLoop config (d.remember event now) event := rfl
    simp only [beginNew, hloop]
    split
    · exact ⟨rfl, by simpa [Dispatcher.remember] using hlogged, fun _ => rfl⟩
    · rename_i hno
      refine ⟨?_, ?_, fun h => absurd h hno⟩
      · cases config.rateLimiter event.target <;> rfl
      · cases config.rateLimiter event.target with
        | some details => simpa [Dispatcher.remember] using hlogged
        | none => exact hlogged
  · rw [hseen] at hnew
    cases hnew

@[simp] theorem getRejection_recordEvent (store : EventStore) (event : AgentEvent) (now : Int)
    (id : String) : (recordEvent store event now).getRejection id = store.getRejection id := by
  unfold recordEvent EventStore.record
  split
  · rename_i store' he
    split at he
    · cases he
    · cases he
      rfl
  · rfl

@[simp] theorem attempts_recordEvent (store : EventStore) (event : AgentEvent) (now : Int)
    (id : String) : (recordEvent store event now).attempts id = store.attempts id := by
  simp [EventStore.attempts]

/-- The record of an event leaves the other rows. -/
theorem get_recordEvent {store : EventStore} {event : AgentEvent} {now : Int} {id : String}
    (h : id ≠ event.id) : (recordEvent store event now).get id = store.get id := by
  unfold recordEvent EventStore.record
  split
  · rename_i store' he
    split at he
    · cases he
    · cases he
      have hne : ¬ event.id = id := fun e => h e.symm
      simp [EventStore.get, List.find?_append, hne]
  · rfl

/-- The record of an event leaves every row there is: an id that is taken is refused. -/
theorem get_recordEvent_of_some {store : EventStore} {event : AgentEvent} {now : Int}
    {id : String} {row : EventStoreRecord} (h : store.get id = some row) :
    (recordEvent store event now).get id = some row := by
  by_cases hid : id = event.id
  · have htaken : event.id ∈ store.events.map fun row => row.event.id := by
      obtain ⟨hmem, he⟩ := EventStore.get_mem h
      exact List.mem_map.mpr ⟨row, hmem, he.trans hid⟩
    simp [recordEvent, EventStore.record, htaken, h]
  · rw [get_recordEvent hid, h]

@[simp] theorem get_settle {d : Dispatcher} {event : AgentEvent} {outcome : DispatchOutcome}
    {now : Int} {id : String} : (d.settle event outcome now).store.get id =
      (d.store.markOutcome event.id outcome now).get id := by
  unfold Dispatcher.settle
  cases outcome <;> simp

/-- **Taking on an event leaves every row there is**: a new event's row is none of them, and of
one that is known nothing is written. -/
theorem get_beginDispatch {config : DispatcherConfig} {d : Dispatcher} {event : AgentEvent}
    {now : Int} {id : String} {row : EventStoreRecord} (h : d.store.get id = some row) :
    (beginDispatch config d event now).2.store.get id = some row := by
  rcases hseen : firstSeen config d.cache d.store event now with ⟨_ | at_, cache⟩
  · have hne : id ≠ event.id := by
      rintro rfl
      exact firstSeen_eq_none (by rw [hseen]) row.event (EventStore.get_event_mem h)
        (EventStore.get_mem h).2
    have hrecord : (recordEvent d.store event now).get id = some row := by
      rw [get_recordEvent hne, h]
    simp only [beginDispatch, hseen, beginNew]
    split
    · simp [Dispatcher.reject, Dispatcher.remember, EventStore.get_markOutcome, hrecord, hne]
    · cases config.rateLimiter event.target with
      | some details =>
        simp [Dispatcher.reject, Dispatcher.remember, EventStore.get_markOutcome, hrecord, hne]
      | none => exact hrecord
  · simpa [beginDispatch, hseen] using h

/-- An event that gets to its target passed the duplicate check. -/
theorem firstSeen_of_started {config : DispatcherConfig} {d : Dispatcher} {event : AgentEvent}
    {now : Int} (h : (beginDispatch config d event now).1 = none) :
    (firstSeen config d.cache d.store event now).1 = none := by
  rcases hseen : firstSeen config d.cache d.store event now with ⟨_ | at_, cache⟩
  · rfl
  · simp [beginDispatch, hseen] at h

/-- It was new to the store. -/
theorem beginDispatch_started {config : DispatcherConfig} {d : Dispatcher} {event : AgentEvent}
    {now : Int} (h : (beginDispatch config d event now).1 = none) :
    d.store.get event.id = none :=
  EventStore.get_eq_none.mpr (firstSeen_eq_none (firstSeen_of_started h))

/-! ### Chains of causes -/

/-- Each of the ancestors, the nearest first, is the cause of the event after it. -/
def CauseChain : Option String → List AgentEvent → Prop
  | _, [] => True
  | cause, ancestor :: older => cause = some ancestor.id ∧ CauseChain ancestor.causedBy older

/-- **The walk finds a trigger along an unbroken chain** whose events are looked up under their
ids. -/
theorem walkAncestors_of_chain {lookup : String → Option AgentEvent} {trigger : String}
    {ancestors : List AgentEvent} {cause : Option String} (hchain : CauseChain cause ancestors)
    (hlookup : ∀ ancestor ∈ ancestors, ancestor.id ≠ "" ∧ lookup ancestor.id = some ancestor)
    {fuel : Nat} (htrigger : ∃ ancestor ∈ ancestors.take fuel,
      getTriggerId ancestor.source = some trigger) (visited : List String) :
    walkAncestors lookup trigger fuel cause visited = true := by
  induction ancestors generalizing fuel cause visited with
  | nil =>
    obtain ⟨ancestor, hmem, -⟩ := htrigger
    simp at hmem
  | cons ancestor older ih =>
    obtain ⟨rfl, hrest⟩ := hchain
    obtain ⟨hid, hfound⟩ := hlookup ancestor (by simp)
    cases fuel with
    | zero =>
      obtain ⟨ancestor, hmem, -⟩ := htrigger
      simp at hmem
    | succ fuel =>
      rw [walkAncestors, if_neg hid]
      split
      · rfl
      · simp only [hfound]
        split
        · rfl
        · rename_i hne
          obtain ⟨hit, hmem, hhit⟩ := htrigger
          rw [List.take_succ_cons, List.mem_cons] at hmem
          rcases hmem with rfl | hmem
          · exact absurd hhit hne
          · exact ih hrest (fun a ha => hlookup a (List.mem_cons_of_mem _ ha))
              ⟨hit, hmem, hhit⟩ _

/-- **The loop check finds a trigger along an unbroken chain of causes** within its depth. -/
theorem detectLoop_of_chain {config : DispatcherConfig} {d : Dispatcher} {event : AgentEvent}
    {trigger : String} {ancestors : List AgentEvent} (ht : Triggered event trigger)
    (hchain : CauseChain event.causedBy ancestors)
    (hlookup : ∀ ancestor ∈ ancestors,
      ancestor.id ≠ "" ∧ lookupAncestor config d ancestor.id = some ancestor)
    (htrigger : ∃ ancestor ∈ ancestors.take config.causedByDepthLimit.toNat,
      getTriggerId ancestor.source = some trigger) :
    detectLoop config d event = true := by
  unfold detectLoop
  rw [ht.1]
  simp only [ht.2, if_false]
  exact walkAncestors_of_chain hchain hlookup htrigger []

/-- An event of the store is looked up under its id, unless the host's lookup or the bus has
another event under it. -/
theorem lookupAncestor_of_logged {config : DispatcherConfig} {d : Dispatcher} {event : AgentEvent}
    (hlogged : event ∈ d.store.logged)
    (hhost : ∀ hit, config.lookupEvent.bind (· event.id) = some hit → hit = event)
    (hrecent : ∀ prior ∈ d.recent, prior.id = event.id → prior = event) :
    lookupAncestor config d event.id = some event := by
  have hfirst : ∀ hit, (config.lookupEvent.getD (recentLookup d.recent)) event.id = some hit →
      hit = event := by
    intro hit h
    cases hl : config.lookupEvent with
    | none =>
      rw [hl] at h
      have hid := List.find?_some h
      exact hrecent hit (List.mem_of_find?_eq_some h) (by simpa using hid)
    | some lookup =>
      rw [hl] at h
      exact hhost hit (by rw [hl]; exact h)
  obtain ⟨row, hrow, hevent⟩ := EventStore.get_of_logged hlogged
  unfold lookupAncestor
  cases hl : (config.lookupEvent.getD (recentLookup d.recent)) event.id with
  | some hit => rw [hfirst hit hl]
  | none => simp [hrow, hevent]

end Declaragent.Events

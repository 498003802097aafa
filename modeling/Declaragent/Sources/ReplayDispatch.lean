import Declaragent.Events.History
import Declaragent.Sources.KafkaReplay

/-!
# Sources — what becomes of a replayed event

A replayed event has an id of its own, but the idempotency key of the message it was made of, and
the id of that message's event as its cause.  So the duplicate check finds the original by the key;
and where the message brings its own event id, the loop check finds the original by the cause, with
the trigger that the replay has as well.

* `IsOriginal` is a live event of the message, `Reaches` that a replay gets to its target whatever
  the dispatcher was given before, as far as it is these or has nothing to do with the replay.
* `replay_reaches_iff`: it does exactly where the message has neither a key nor an id.
-/

namespace Declaragent.Sources.KafkaReplay
open Events JsonText

/-- What `crypto.randomUUID()` draws. -/
structure Uuid where
  text : String
  shape : text.length = 36 ∧ ∀ c ∈ text.toList, c.isDigit ∨ c ∈ ['a', 'b', 'c', 'd', 'e', 'f', '-']

theorem Uuid.no_colon (u : Uuid) : ':' ∉ u.text.toList := fun h =>
  absurd (u.shape.2 ':' h) (by decide)

section
variable (N : NormalizerDeps) (config : KafkaTriggerConfig) (m : KafkaIncomingMessage)

/-- A live event of the message, whose normalization drew another id than `u`. -/
def IsOriginal (u : Uuid) (event : AgentEvent) : Prop :=
  ∃ (deliveryCount : Nat) (u' : Uuid) (now : Int) (tenant : Option TenantContext)
    (normalized : AgentEvent), u'.text ≠ u.text ∧
    normalizeMessage N config m deliveryCount u'.text now = .ok (some normalized) ∧
    event = stampTenantId normalized tenant

/-- A replay of the message gets to its target, in a dispatcher that was given, in any order and
number, live events of the message and events that are unrelated to the replay, and where neither
the hook nor the rate limiter stops it. -/
def Reaches : Prop :=
  ∀ (D : DispatcherConfig) (store : EventStore) (given : List Handed) (u : Uuid) (now at_ : Int)
    (n : Nat) (event : AgentEvent),
    normalizeMessage N config m 0 u.text now = .ok (some event) →
    let replayed := toReplay event n
    D.before replayed = .passes → D.rateLimiter replayed.target = none →
    (∀ id hit, D.lookupEvent.bind (· id) = some hit →
      hit.id = id ∧ (IsOriginal N config m u hit ∨ Unrelated replayed hit)) →
    (∀ prior ∈ store.logged, IsOriginal N config m u prior ∨ Unrelated replayed prior) →
    (∀ a ∈ given, ∀ prior ∈ a.events D, IsOriginal N config m u prior ∨ Unrelated replayed prior) →
    let d := given.foldl (handed D) (createEventDispatcher store)
    (handleInternal D d replayed at_).2.executed = d.executed ++ [replayed]

/-- The trigger derives no key of the message, and the message brings no event id. -/
def Anonymous (body : Json) : Prop :=
  (deriveIdempotencyKey N (toRaw N m 0) body config.routing.idempotencyKeyFrom).map keyOf =
    .ok none ∧ (toRaw N m 0).headerId = none

end

/-! ### Events of one message -/

section
variable {N : NormalizerDeps} {config : KafkaTriggerConfig} {m : KafkaIncomingMessage}
  {u : Uuid} {event : AgentEvent}

/-- The count of the deliveries is not part of the event. -/
theorem normalizeMessage_deliveryCount (deliveryCount : Nat) (uuid : String) (now : Int) :
    normalizeMessage N config m deliveryCount uuid now = normalizeMessage N config m 0 uuid now :=
  rfl

@[simp] theorem stampTenantId_id (event : AgentEvent) (tenant : Option TenantContext) :
    (stampTenantId event tenant).id = event.id := by
  unfold stampTenantId
  cases tenant with
  | none => rfl
  | some tenant => dsimp only; split <;> rfl

@[simp] theorem stampTenantId_key (event : AgentEvent) (tenant : Option TenantContext) :
    (stampTenantId event tenant).idempotencyKey = event.idempotencyKey := by
  unfold stampTenantId
  cases tenant with
  | none => rfl
  | some tenant =>
    dsimp only
    split
    · rfl
    · unfold AgentEvent.idempotencyKey
      cases event.info <;> rfl

@[simp] theorem toReplay_key (event : AgentEvent) (n : Nat) :
    (toReplay event n).idempotencyKey = event.idempotencyKey := by
  unfold toReplay AgentEvent.idempotencyKey
  cases event.info <;> rfl

theorem keyOf_of_map {key? : Except String (Option String)} {key : Option String}
    (h : key? = .ok key) : key?.map keyOf = .ok (keyOf key) := by
  rw [h]
  rfl

/-- Whether the message is anonymous shows in each of its events. -/
theorem anonymous_iff {uuid : String} {now : Int}
    (h : normalizeMessage N config m 0 uuid now = .ok (some event)) :
    Anonymous N config m event.payload ↔
      event.idempotencyKey = none ∧ (toRaw N m 0).headerId = none := by
  obtain ⟨-, -, -, -, key, hkey, hevent⟩ := normalize_spec h
  unfold Anonymous
  rw [keyOf_of_map hkey, hevent]
  simp

/-- An original of an anonymous message has nothing to do with a replay. -/
theorem IsOriginal.unrelated {now : Int} {n : Nat} {prior : AgentEvent}
    (h : normalizeMessage N config m 0 u.text now = .ok (some event))
    (hanon : Anonymous N config m event.payload) (hprior : IsOriginal N config m u prior) :
    Unrelated (toReplay event n) prior := by
  obtain ⟨hkey, hheader⟩ := (anonymous_iff h).mp hanon
  obtain ⟨deliveryCount, u', now', tenant, normalized, hne, hnorm, rfl⟩ := hprior
  rw [normalizeMessage_deliveryCount] at hnorm
  have hid : event.id = u.text := by rw [(normalize_spec h).1, hheader]; rfl
  have hid' : normalized.id = u'.text := by rw [(normalize_spec hnorm).1, hheader]; rfl
  have hagain := (normalize_again h u'.text now').symm.trans hnorm
  have hkey' : normalized.idempotencyKey = none := by
    simp only [Except.ok.injEq, Option.some.injEq] at hagain
    rw [← hagain]
    exact hkey
  refine ⟨fun key hmem hmem' => ?_, fun hcause => ?_⟩
  · simp only [cacheKeys, toReplay_key, hkey, List.mem_singleton] at hmem
    simp only [cacheKeys, stampTenantId_key, hkey', stampTenantId_id, hid',
      List.mem_singleton] at hmem'
    -- the id of a replay has a colon
    refine u'.no_colon ?_
    rw [← hmem', hmem]
    simp [toReplay]
  · have hcause : some event.id = some (stampTenantId normalized tenant).id := hcause
    rw [stampTenantId_id, hid, hid', Option.some.injEq] at hcause
    exact hne hcause.symm

theorem reaches_of_anonymous {uuid : String} {now : Int}
    (h : normalizeMessage N config m 0 uuid now = .ok (some event))
    (hanon : Anonymous N config m event.payload) : Reaches N config m := by
  intro D store given u now' at_ n event' h' replayed hbefore hrate hhost hstore hgiven
  have hpayload : event'.payload = event.payload := by
    have hagain := (normalize_again h u.text now').symm.trans h'
    simp only [Except.ok.injEq, Option.some.injEq] at hagain
    rw [← hagain]
  rw [← hpayload] at hanon
  have hun : ∀ prior, IsOriginal N config m u prior ∨ Unrelated replayed prior →
      Unrelated replayed prior := by
    rintro prior (hprior | hprior)
    · exact hprior.unrelated h' hanon
    · exact hprior
  have hid : event'.id = u.text := by
    rw [(normalize_spec h').1, ((anonymous_iff h').mp hanon).2]
    rfl
  refine handle_executes ?_ hbefore hrate
    (fun id hit hl => (hhost id hit hl).imp_right (hun hit)) ?_
  · exact (Only.create fun prior hp => hun prior (hstore prior hp)).run
      fun a ha prior hp => hun prior (hgiven a ha prior hp)
  · intro hcause
    have hcause : some event'.id = some ("replay:" ++ event'.id ++ ":" ++ toString n) := hcause
    rw [Option.some.injEq] at hcause
    refine u.no_colon ?_
    rw [← hid, hcause]
    simp

/-! ### An original, and a replay right after it -/

def liveUuid : Uuid := ⟨"00000000-0000-4000-8000-000000000001", by decide, by simp⟩

def replayUuid : Uuid := ⟨"00000000-0000-4000-8000-000000000002", by decide, by simp⟩

def plainConfig : DispatcherConfig where
  executeTarget _ := .ok .broadcast

/-- A new dispatcher that was given one event knows it. -/
theorem published_first (event : AgentEvent) :
    let d := handed plainConfig (createEventDispatcher .empty) (.publish event 0)
    d.cache = (IdempotencyCache.empty 10000 600000).remember event 0 ∧ d.recent = [event] := by
  have hseen : firstSeen plainConfig (.empty 10000 600000) .empty event 0 =
      (none, .empty 10000 600000) := by
    unfold firstSeen
    rw [IdempotencyCache.lookup_of_no_key fun _ _ hknows => absurd hknows List.not_mem_nil]
    have hnone : EventStore.findDuplicate .empty event plainConfig.dedupWindowMs 0 = none :=
      EventStore.findDuplicate_eq_none.mpr ⟨fun _ hp => absurd hp List.not_mem_nil,
        fun _ _ _ _ hp => absurd hp List.not_mem_nil⟩
    rw [hnone]
  have hpublish : handed plainConfig (createEventDispatcher .empty) (.publish event 0) =
      (dispatchNew plainConfig ⟨.empty 10000 600000, .empty, [event], []⟩ event 0).2 := by
    change (dispatch plainConfig ⟨.empty 10000 600000, .empty, [event], []⟩ event 0).2 = _
    unfold dispatch
    rw [hseen]
  obtain ⟨hcache, hrecent, -, -⟩ :=
    dispatchNew_spec plainConfig ⟨.empty 10000 600000, .empty, [event], []⟩ event 0
  intro d
  simp only [d, hpublish]
  exact ⟨hcache, hrecent⟩

theorem anonymous_of_reaches {uuid : String} {now : Int}
    (h : normalizeMessage N config m 0 uuid now = .ok (some event))
    (hreaches : Reaches N config m) : Anonymous N config m event.payload := by
  -- the original is published on a new dispatcher, and then replayed
  have hlive := normalize_again h liveUuid.text 0
  have hreplay := normalize_again h replayUuid.text 0
  generalize hl : ({ event with
    id := (toRaw N m 0).headerId.getD liveUuid.text
    timestamp := (toRaw N m 0).timestamp.getD 0 } : AgentEvent) = live at hlive
  generalize hr : ({ event with
    id := (toRaw N m 0).headerId.getD replayUuid.text
    timestamp := (toRaw N m 0).timestamp.getD 0 } : AgentEvent) = original at hreplay
  have hne : liveUuid.text ≠ replayUuid.text := by decide
  have horiginal : IsOriginal N config m replayUuid live :=
    ⟨0, liveUuid, 0, none, live, hne, hlive, rfl⟩
  obtain ⟨hliveid, hsource, -⟩ := normalize_spec hlive
  obtain ⟨hid, hsource', -⟩ := normalize_spec hreplay
  have hexecuted := hreaches plainConfig .empty [.publish live 0] replayUuid 0 0 0 original hreplay
    rfl rfl (fun _ _ hhost => by cases hhost) (fun _ hp => absurd hp List.not_mem_nil) (by
      intro a ha prior hprior
      obtain rfl := List.mem_singleton.mp ha
      obtain rfl := List.mem_singleton.mp hprior
      exact Or.inl horiginal)
  obtain ⟨hcache, hrecent⟩ := published_first live
  simp only [List.foldl_cons, List.foldl_nil] at hexecuted
  generalize handed plainConfig (createEventDispatcher .empty) (.publish live 0) = d
    at hexecuted hcache hrecent
  have hgoes : ¬ ((firstSeen plainConfig d.cache d.store (toReplay original 0) 0).1.isSome ∨
      detectLoop plainConfig (d.remember (toReplay original 0) 0) (toReplay original 0) =
        true) := by
    intro hstopped
    have hsame := executed_of_stopped hstopped
    change (dispatch plainConfig d (toReplay original 0) 0).2.executed = _ at hexecuted
    rw [hexecuted] at hsame
    simpa using congrArg List.length hsame
  have hkey : event.idempotencyKey = none := by
    by_contra hsome
    obtain ⟨key, hkey⟩ := Option.ne_none_iff_exists'.mp hsome
    refine hgoes (Or.inl ?_)
    have hkeys : live.idempotencyKey = some key ∧ original.idempotencyKey = some key := by
      subst hl hr
      exact ⟨hkey, hkey⟩
    have hne := normalize_key_ne_empty h hkey
    have hknown : d.cache.Live (idempotencyCacheKey live.source.type key) 0 := by
      rw [hcache]
      exact IdempotencyCache.live_of_remember (by decide) hkeys.1 hne (by decide)
    rw [hsource, ← hsource'] at hknown
    refine firstSeen_of_remembers (Or.inr ?_)
    rw [toReplay_key, hkeys.2]
    exact ⟨hne, hknown⟩
  refine (anonymous_iff h).mpr ⟨hkey, ?_⟩
  by_contra hsome
  obtain ⟨id, hheader⟩ := Option.ne_none_iff_exists'.mp hsome
  rw [hheader] at hliveid hid
  have htriggered : Triggered (toReplay original 0) config.id := by
    refine ⟨?_, config.id_ne⟩
    change getTriggerId original.source = _
    rw [hsource']
    rfl
  -- the bus still has the original
  have hfirst : recentLookup d.recent id = some live := by
    rw [hrecent]
    simp [recentLookup, hliveid]
  have hlookup : lookupAncestor plainConfig (d.remember (toReplay original 0) 0) id =
      some live := by
    unfold lookupAncestor
    simp only [plainConfig, Option.getD_none, Dispatcher.remember, hfirst]
  have hsame : getTriggerId live.source = some config.id := by
    rw [hsource]
    rfl
  exact hgoes (Or.inr (detectLoop_of_trigger htriggered (by decide) (congrArg some hid)
    (headerId_ne_empty hheader) hlookup hsame))

/-- **What becomes of a replay.**  It gets to its target, whatever the dispatcher was given of its
message before, exactly where the trigger derives no idempotency key of the message and the message
brings no event id. -/
theorem replay_reaches_iff {uuid : String} {now : Int}
    (h : normalizeMessage N config m 0 uuid now = .ok (some event)) :
    Reaches N config m ↔ Anonymous N config m event.payload :=
  ⟨anonymous_of_reaches h, reaches_of_anonymous h⟩

end

/-! ### A message with a key and one without -/

def ordersMessage : KafkaIncomingMessage where
  topic := "orders"
  partition := 0
  offset := 7
  timestamp := some 0
  value := .text ""

/-- The events of this trigger are told apart by a field of their body. -/
def unkeyedTrigger : KafkaTriggerConfig :=
  { ordersTrigger with
    routing := { ordersTrigger.routing with idempotencyKeyFrom := .path "$.id" } }

/-- A body without the field gives no key. -/
theorem deriveIdempotencyKey_unkeyed :
    deriveIdempotencyKey plainNormalizer (toRaw plainNormalizer ordersMessage 0) .null
      unkeyedTrigger.routing.idempotencyKeyFrom = .ok none := by
  have hdots : ¬ ['.', '.'] <:+: ['$', '.', 'i', 'd'] := by decide
  have hpath : parseJsonPath "$.id" = .ok [.key "id"] := by
    simp [parseJsonPath, hasWildcard, hasPredicate, bracketed, parseSegments, scanIdent, hdots,
      isIdentChar]
    rfl
  have hresolve : resolveJsonPath .null "$.id" = .ok none := by
    unfold resolveJsonPath
    rw [hpath]
    rfl
  have hdollar : isJsonPath "$.id" = true := rfl
  simp only [deriveIdempotencyKey, unkeyedTrigger, hdollar, if_true, hresolve]
  rfl

theorem replay_reaches_unkeyed : Reaches plainNormalizer unkeyedTrigger ordersMessage := by
  have hinfo : normalizeMeta plainNormalizer (toRaw plainNormalizer ordersMessage 0)
      unkeyedTrigger.routing .null = .ok none := by
    unfold normalizeMeta
    rw [deriveIdempotencyKey_unkeyed]
    rfl
  refine (replay_reaches_iff (normalize_of_parts rfl rfl rfl hinfo "a" 0)).mpr ⟨?_, rfl⟩
  rw [deriveIdempotencyKey_unkeyed]
  rfl

/-- By default the key is made of the topic, the partition and the offset: the replay of a message
that was dispatched is a duplicate of it. -/
theorem replay_is_duplicate : ¬ Reaches plainNormalizer ordersTrigger ordersMessage := by
  have hnormalize : normalizeMessage plainNormalizer ordersTrigger ordersMessage 0 "a" 0 =
      .ok (some _) := normalize_of_parts rfl rfl rfl rfl "a" 0
  intro h
  have hnone := (anonymous_of_reaches hnormalize h).1
  cases hnone

end Declaragent.Sources.KafkaReplay

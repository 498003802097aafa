import Declaragent.Events.RateLimiter
import Declaragent.Library.Transition

/-!
# Channels — outbound rate limits

A send takes a token of the channel, where that is limited, and then one of its conversation, and
waits for each.  The buckets of the conversations are in a map that keeps the last
`maxConversationBuckets` of them that were used; a conversation whose bucket is gone gets a full one.

Calls wait side by side, and are interrupted only where they wait.  `clock n` is the `n`-th reading
of the clock.

* `sends_paced`: what a conversation is granted is paced by the buckets that were made for it; as
  long as its bucket is kept there is one.
* `evicted_bucket_full`: a conversation whose bucket was evicted is granted more.
-/

namespace Declaragent.Channels
open Events Metering Transition

structure OutboundRateLimiterOptions where
  perConversationPerSec : Option ℚ := none
  perConversationBurst : Option ℚ := none
  globalPerSec : Option ℚ := none
  globalBurst : Option ℚ := none
  maxWaitMs : ℚ := 30000
  maxConversationBuckets : Nat := 4096

inductive RateLimitScope where
  | global
  | perConversation

inductive OutboundRateLimitError where
  | timeout (scope : RateLimitScope) (conversationId : Option String) (waitedMs : ℚ)
  | aborted
  | bucket (err : TokenBucketError)

/-- Where a call of `acquire` is. -/
inductive CallPoint where
  | waitsGlobal
  | passedGlobal
  /-- It waits for a token of this bucket. -/
  | waits (bucket : Nat)
  | granted
  | failed (err : OutboundRateLimitError)

structure AcquireCall where
  conversationId : String
  deadline : ℚ
  point : CallPoint

/-- A send that was granted: by which bucket of its conversation, and at which reading. -/
structure Grant where
  conversationId : String
  bucket : Nat
  reading : ℚ

/-- All the buckets that were made, with their conversations; the map of those that are kept, the
last one used at its end; and how often the clock was read. -/
structure OutboundRateLimiter where
  global : Option TokenBucket := none
  buckets : List (String × TokenBucket) := []
  perConversation : List (String × Nat) := []
  readings : Nat := 0
  calls : List AcquireCall := []
  grants : List Grant := []

inductive OutboundAct where
  | acquire (conversationId : String) (aborted : Bool)
  /-- A wait of the call is over. -/
  | resume (call : Nat) (aborted : Bool)

/-- What a turn of the loop in `drainBucket` comes to. -/
inductive Drain where
  | taken
  | waits
  | throws (err : OutboundRateLimitError)

namespace OutboundRateLimiter

variable (options : OutboundRateLimiterOptions) (clock : Nat → ℚ)

/-- The constructor. -/
def create : Except TokenBucketError OutboundRateLimiter :=
  match options.globalPerSec with
  | none => .ok {}
  | some ratePerSec =>
    match TokenBucket.create ⟨ratePerSec, options.globalBurst⟩ (clock 0) with
    | .ok global => .ok { global := some global, readings := 1 }
    | .error err => .error err

/-- One turn of the loop: the bucket, what it comes to, and how often the clock was read. -/
def drain (b : TokenBucket) (deadline : ℚ) (scope : RateLimitScope)
    (conversationId : Option String) (aborted : Bool) (readings : Nat) :
    TokenBucket × Drain × Nat :=
  let (b, ok) := b.tryTake (clock readings) 1
  if ok then (b, .taken, readings + 1)
  else if aborted then (b, .throws .aborted, readings + 1)
  else if min 100 (deadline - clock (readings + 1)) ≤ 0 then
    (b, .throws (.timeout scope conversationId options.maxWaitMs), readings + 2)
  else (b, .waits, readings + 2)

variable (s : OutboundRateLimiter)

/-- The call goes on to a point. -/
def goto (i : Nat) (point : CallPoint) : OutboundRateLimiter :=
  { s with calls := s.calls.modify i fun call => { call with point } }

/-- A turn of the loop for a bucket of the conversation. -/
def drainConversation (i : Nat) (call : AcquireCall) (k : Nat) (aborted : Bool) :
    OutboundRateLimiter :=
  match s.buckets[k]? with
  | none => s
  | some (owner, b) =>
    let (b, outcome, readings) := drain options clock b call.deadline .perConversation
      call.conversationId aborted s.readings
    let grant : Grant := ⟨call.conversationId, k, clock s.readings⟩
    let s := { s with buckets := s.buckets.set k (owner, b), readings }
    match outcome with
    | .taken => ({ s with grants := s.grants ++ [grant] }).goto i .granted
    | .waits => s.goto i (.waits k)
    | .throws err => s.goto i (.failed err)

/-- The map without its oldest entries. -/
def evictLRU (entries : List (String × Nat)) : List (String × Nat) :=
  entries.drop (entries.length - options.maxConversationBuckets)

/-- `bucketFor`: the bucket that is kept, now the last one used, or a new one. -/
def bucketFor (conversationId : String) (ratePerSec : ℚ) :
    Except TokenBucketError (Nat × OutboundRateLimiter) :=
  match s.perConversation.lookup conversationId with
  | some k =>
    .ok (k, { s with
      perConversation :=
        s.perConversation.filter (fun entry => entry.1 ≠ conversationId) ++ [(conversationId, k)] })
  | none =>
    match TokenBucket.create ⟨ratePerSec, options.perConversationBurst⟩ (clock s.readings) with
    | .error err => .error err
    | .ok b =>
      let k := s.buckets.length
      .ok (k, { s with
        buckets := s.buckets ++ [(conversationId, b)]
        perConversation := evictLRU options (s.perConversation ++ [(conversationId, k)])
        readings := s.readings + 1 })

/-- From the global bucket on. -/
def enter (i : Nat) (call : AcquireCall) (aborted : Bool) : OutboundRateLimiter :=
  match options.perConversationPerSec with
  | none => s.goto i .granted
  | some ratePerSec =>
    match s.bucketFor options clock call.conversationId ratePerSec with
    | .error err => s.goto i (.failed (.bucket err))
    | .ok (k, s) => s.drainConversation options clock i call k aborted

/-- A turn of the loop for the global bucket. -/
def drainGlobal (i : Nat) (call : AcquireCall) (b : TokenBucket) (aborted : Bool) :
    OutboundRateLimiter :=
  let (b, outcome, readings) := drain options clock b call.deadline .global none aborted s.readings
  let s := { s with global := some b, readings }
  match outcome with
  | .taken => s.goto i .passedGlobal
  | .waits => s.goto i .waitsGlobal
  | .throws err => s.goto i (.failed err)

/-- `acquire`, up to where it waits first. -/
def acquire (conversationId : String) (aborted : Bool) : OutboundRateLimiter :=
  let call : AcquireCall :=
    { conversationId, deadline := clock s.readings + options.maxWaitMs, point := .passedGlobal }
  let i := s.calls.length
  let s := { s with calls := s.calls ++ [call], readings := s.readings + 1 }
  match s.global with
  | some b => s.drainGlobal options clock i call b aborted
  | none => s.enter options clock i call aborted

def step : OutboundAct → Option OutboundRateLimiter
  | .acquire conversationId aborted => some (s.acquire options clock conversationId aborted)
  | .resume i aborted =>
    match s.calls[i]? with
    | none => none
    | some call =>
      match call.point with
      | .waitsGlobal => s.global.map fun b => s.drainGlobal options clock i call b aborted
      | .passedGlobal => some (s.enter options clock i call aborted)
      | .waits k => some (s.drainConversation options clock i call k aborted)
      | .granted | .failed _ => none

/-- The conversation that a bucket was made for. -/
def owner (k : Nat) : Option String := s.buckets[k]?.map Prod.fst

/-- The buckets that were made for a conversation. -/
def bucketsOf (conversationId : String) : List Nat :=
  (List.range s.buckets.length).filter fun k => s.owner k = some conversationId

/-- The bucket that was made for the conversation is in the map. -/
def Kept (conversationId : String) : Prop :=
  ∀ k ∈ s.bucketsOf conversationId, s.perConversation.lookup conversationId = some k

instance (conversationId : String) : Decidable (s.Kept conversationId) :=
  inferInstanceAs (Decidable (∀ k ∈ s.bucketsOf conversationId, _ = some k))

/-- The step evicts no bucket of the conversation. -/
def Keeps (conversationId : String) (s : OutboundRateLimiter) (a : OutboundAct) : Prop :=
  ∀ t ∈ s.step options clock a, t.Kept conversationId

instance (conversationId : String) (s : OutboundRateLimiter) (a : OutboundAct) :
    Decidable (Keeps options clock conversationId s a) :=
  inferInstanceAs (Decidable (∀ t ∈ s.step options clock a, t.Kept conversationId))

/-- When sends of the conversation were granted. -/
def grantedTo (conversationId : String) : List ℚ :=
  (s.grants.filter fun g => g.conversationId = conversationId).map Grant.reading

/-- When sends were granted by a bucket. -/
def through (k : Nat) : List ℚ := (s.grants.filter fun g => g.bucket = k).map Grant.reading

/-! ### What becomes of a bucket -/

variable {options clock s} {t : OutboundRateLimiter} {b b' : TokenBucket} {grants : List ℚ}

/-- What was granted is metered by the bucket, which may lack a billionth of a token. -/
def Within (b : TokenBucket) (grants : List ℚ) : Prop :=
  Metered (b.burst + 1 / 1000000000) (b.ratePerSec / 1000) (b.tokens + 1 / 1000000000)
    b.lastRefillAt grants

theorem Within.drained (h : Within b grants) (hdrained : Drained b b') : Within b' grants := by
  unfold Within
  have hsound : b'.tokens ≤ b.burst := hdrained.burst ▸ hdrained.sound
  rw [hdrained.burst, hdrained.ratePerSec]
  refine h.refill (rate_nonneg b) hdrained.later ?_ (by linarith)
  linarith [hdrained.flow]

/-- A token that was taken may be granted. -/
theorem Within.tryTake (h : Within b grants) (hsound : b.Sound) {now : ℚ}
    (htaken : (b.tryTake now 1).2 = true) :
    Within (b.tryTake now 1).1 (grants ++ [(b.tryTake now 1).1.lastRefillAt]) := by
  have hrefill := h.drained (refilled_refill hsound now).toDrained
  unfold TokenBucket.tryTake at htaken ⊢
  dsimp only at htaken ⊢
  by_cases htoken : (b.refill now).tokens + 1 / 1000000000 < 1
  · rw [if_pos htoken] at htaken
    cases htaken
  · rw [if_neg htoken]
    refine hrefill.grant (rate_nonneg _) (not_lt.mp htoken) (le_of_eq ?_)
    simp only [TokenBucket.spend]
    ring

theorem le_drain_readings (options : OutboundRateLimiterOptions) (clock : Nat → ℚ)
    (b : TokenBucket) (deadline : ℚ) (scope : RateLimitScope) (conversationId : Option String)
    (aborted : Bool) (readings : Nat) :
    readings ≤ (drain options clock b deadline scope conversationId aborted readings).2.2 := by
  simp only [drain]
  split
  · exact Nat.le_succ _
  · split
    · exact Nat.le_succ _
    · split <;> exact Nat.le_add_right _ _

/-- What a turn of the loop does to its bucket. -/
theorem drain_spec (options : OutboundRateLimiterOptions) (grants : List ℚ) (hsound : b.Sound)
    {readings : Nat} (hlast : b.lastRefillAt ≤ clock readings) (deadline : ℚ)
    (scope : RateLimitScope) (conversationId : Option String) (aborted : Bool) :
    let r := drain options clock b deadline scope conversationId aborted readings
    Drained b r.1 ∧ r.1.lastRefillAt = clock readings ∧ readings ≤ r.2.2 ∧
      (r.2.1 = .taken → Within b grants → Within r.1 (grants ++ [clock readings])) := by
  intro r
  have hfirst : r.1 = (b.tryTake (clock readings) 1).1 := by
    simp only [r, drain]
    split
    · rfl
    · split
      · rfl
      · split <;> rfl
  have hnow := tryTake_lastRefillAt hlast
  have htaken : r.2.1 = .taken → (b.tryTake (clock readings) 1).2 = true := by
    simp only [r, drain]
    split
    · rename_i hok
      exact fun _ => hok
    · split
      · exact fun h => (by cases h)
      · split
        · exact fun h => (by cases h)
        · exact fun h => (by cases h)
  rw [hfirst]
  refine ⟨drained_tryTake hsound _, hnow, le_drain_readings _ _ _ _ _ _ _ _, fun htake h => ?_⟩
  have hwithin := h.tryTake hsound (htaken htake)
  rwa [hnow] at hwithin

/-! ### What becomes of the limiter -/

/-- The bucket of a conversation has its rate and its burst. -/
def Configured (options : OutboundRateLimiterOptions) (b : TokenBucket) : Prop :=
  options.perConversationPerSec = some (b.ratePerSec : ℚ) ∧
    (b.burst : ℚ) = options.perConversationBurst.getD b.ratePerSec

/-- Each bucket has paced what it granted, to the conversation that it was made for. -/
structure Booked (options : OutboundRateLimiterOptions) (clock : Nat → ℚ)
    (s : OutboundRateLimiter) : Prop where
  sound : ∀ (k : Nat) (c : String) (b : TokenBucket), s.buckets[k]? = some (c, b) →
    b.Sound ∧ b.lastRefillAt ≤ clock s.readings ∧ Configured options b ∧ Within b (s.through k)
  grants : ∀ g ∈ s.grants, s.owner g.bucket = some g.conversationId
  map : ∀ entry ∈ s.perConversation, s.owner entry.2 = some entry.1
  waits : ∀ (i : Nat) (call : AcquireCall) (k : Nat), s.calls[i]? = some call →
    call.point = .waits k → s.owner k = some call.conversationId

theorem Booked.goto (h : s.Booked options clock) {i : Nat} {point : CallPoint}
    (hpoint : ∀ (call : AcquireCall) (k : Nat), s.calls[i]? = some call → point = .waits k →
      s.owner k = some call.conversationId) : (s.goto i point).Booked options clock := by
  refine ⟨h.sound, h.grants, h.map, fun j call k hcall hwaits => ?_⟩
  simp only [OutboundRateLimiter.goto, List.getElem?_modify] at hcall
  obtain ⟨call', hcall', rfl⟩ := Option.map_eq_some_iff.mp hcall
  by_cases hj : i = j
  · subst hj
    rw [if_pos rfl] at hwaits ⊢
    exact hpoint call' k hcall' hwaits
  · rw [if_neg hj] at hwaits ⊢
    exact h.waits j call' k hcall' hwaits

/-- A bucket that is stored stays that of its conversation. -/
theorem owner_set {k : Nat} {c : String} (hb : s.buckets[k]? = some (c, b)) (b' : TokenBucket)
    (j : Nat) : ((s.buckets.set k (c, b'))[j]?).map Prod.fst = s.owner j := by
  have hk : k < s.buckets.length := (List.getElem?_eq_some_iff.mp hb).1
  rw [List.getElem?_set]
  split
  · rename_i hj
    subst hj
    rw [OutboundRateLimiter.owner, hb]
    rfl
  · rfl

/-- A bucket is stored as it is now, with what it granted. -/
theorem Booked.store (hclock : Monotone clock) (h : s.Booked options clock) {k : Nat} {c : String}
    (hb : s.buckets[k]? = some (c, b)) {readings : Nat} (hreadings : s.readings ≤ readings)
    (hdrained : Drained b b') (hlast : b'.lastRefillAt ≤ clock s.readings) {gs : List Grant}
    (hgs : ∀ g ∈ gs, g.bucket = k ∧ g.conversationId = c)
    (hwithin : Within b' (s.through k ++ gs.map Grant.reading)) :
    ({ s with
        buckets := s.buckets.set k (c, b')
        readings
        grants := s.grants ++ gs } : OutboundRateLimiter).Booked options clock := by
  have hk : k < s.buckets.length := (List.getElem?_eq_some_iff.mp hb).1
  have howner := owner_set hb b'
  have hlater := hclock hreadings
  refine ⟨fun j c' b₀ hb₀ => ?_, fun g hg => ?_, fun entry hentry => ?_, fun i call j hcall hpoint =>
    ?_⟩
  · have hthrough : ∀ j, (({ s with
          buckets := s.buckets.set k (c, b')
          readings
          grants := s.grants ++ gs } : OutboundRateLimiter).through j) =
        s.through j ++ (gs.filter fun g => g.bucket = j).map Grant.reading := by
      intro j
      simp only [OutboundRateLimiter.through, List.filter_append, List.map_append]
    rw [hthrough]
    simp only [List.getElem?_set] at hb₀
    by_cases hj : k = j
    · subst hj
      rw [if_pos rfl, if_pos hk] at hb₀
      obtain ⟨rfl, rfl⟩ := Prod.mk.inj (Option.some.inj hb₀)
      obtain ⟨-, -, hconfigured, -⟩ := h.sound k c b hb
      have hall : (gs.filter fun g => g.bucket = k) = gs :=
        List.filter_eq_self.mpr fun g hg => decide_eq_true (hgs g hg).1
      refine ⟨hdrained.sound, hlast.trans hlater, ?_, by rwa [hall]⟩
      unfold Configured
      rw [hdrained.ratePerSec, hdrained.burst]
      exact hconfigured
    · rw [if_neg hj] at hb₀
      obtain ⟨hsound, hold, hconfigured, hpaced⟩ := h.sound j c' b₀ hb₀
      have hnone : (gs.filter fun g => g.bucket = j) = [] :=
        List.filter_eq_nil_iff.mpr fun g hg hgj =>
          hj ((hgs g hg).1.symm.trans (of_decide_eq_true hgj))
      rw [hnone, List.map_nil, List.append_nil]
      exact ⟨hsound, hold.trans hlater, hconfigured, hpaced⟩
  · rw [OutboundRateLimiter.owner, howner]
    rcases List.mem_append.mp hg with hg | hg
    · exact h.grants g hg
    · obtain ⟨hbucket, hconversation⟩ := hgs g hg
      rw [hbucket, hconversation, OutboundRateLimiter.owner, hb]
      rfl
  · rw [OutboundRateLimiter.owner, howner]
    exact h.map entry hentry
  · rw [OutboundRateLimiter.owner, howner]
    exact h.waits i call j hcall hpoint

theorem Booked.drainConversation (hclock : Monotone clock) (h : s.Booked options clock) {i : Nat}
    {call call' : AcquireCall} {k : Nat} (hcall : s.calls[i]? = some call')
    (hsame : call'.conversationId = call.conversationId)
    (howner : s.owner k = some call.conversationId) (aborted : Bool) :
    (s.drainConversation options clock i call k aborted).Booked options clock := by
  obtain ⟨⟨c, b⟩, hb, hc⟩ := Option.map_eq_some_iff.mp howner
  obtain rfl : c = call.conversationId := hc
  obtain ⟨hsound, hlast, -, hwithin⟩ := h.sound k _ b hb
  have hspec := drain_spec options (s.through k) hsound hlast call.deadline .perConversation
    (some call.conversationId) aborted
  unfold OutboundRateLimiter.drainConversation
  rw [hb]
  dsimp only at hspec ⊢
  generalize drain options clock b call.deadline .perConversation call.conversationId aborted
    s.readings = r at hspec ⊢
  obtain ⟨b', outcome, readings⟩ := r
  obtain ⟨hdrained, hnow, hreadings, htaken⟩ := hspec
  dsimp only at hdrained hnow hreadings htaken ⊢
  have hstore := h.store hclock hb hreadings hdrained hnow.le
    (fun g (hg : g ∈ []) => (by cases hg)) (by simpa using hwithin.drained hdrained)
  rw [List.append_nil] at hstore
  cases outcome with
  | taken =>
    have hgrant : ∀ g ∈ [(⟨call.conversationId, k, clock s.readings⟩ : Grant)],
        g.bucket = k ∧ g.conversationId = call.conversationId := by
      intro g hg
      rw [List.mem_singleton.mp hg]
      exact ⟨rfl, rfl⟩
    exact Booked.goto (h.store hclock hb hreadings hdrained hnow.le hgrant (htaken rfl hwithin))
      fun _ _ _ hpoint => (by cases hpoint)
  | waits =>
    refine Booked.goto hstore fun call'' k' hcall'' hpoint => ?_
    obtain rfl := CallPoint.waits.inj hpoint
    obtain rfl := Option.some.inj (hcall.symm.trans hcall'')
    rw [hsame, ← howner]
    exact owner_set hb b' k
  | throws err => exact Booked.goto hstore fun _ _ _ hpoint => (by cases hpoint)

/-- A bucket that was just made has granted nothing. -/
theorem Booked.through_eq_nil (h : s.Booked options clock) :
    s.through s.buckets.length = [] := by
  refine List.map_eq_nil_iff.mpr (List.filter_eq_nil_iff.mpr fun g hg hbucket => ?_)
  have howner := h.grants g hg
  rw [of_decide_eq_true hbucket, OutboundRateLimiter.owner,
    List.getElem?_eq_none (Nat.le_refl _)] at howner
  cases howner

theorem owner_append {k : Nat} {c : String} (howner : s.owner k = some c)
    (made : List (String × TokenBucket)) :
    ((s.buckets ++ made)[k]?).map Prod.fst = some c := by
  obtain ⟨pair, hpair, hc⟩ := Option.map_eq_some_iff.mp howner
  rw [List.getElem?_append_left (List.getElem?_eq_some_iff.mp hpair).1, hpair, Option.map_some, hc]

theorem Booked.bucketFor (hclock : Monotone clock) (h : s.Booked options clock) {c : String}
    {ratePerSec : ℚ} (hrate : options.perConversationPerSec = some ratePerSec) {k : Nat}
    (hbucket : s.bucketFor options clock c ratePerSec = .ok (k, t)) :
    t.Booked options clock ∧ t.owner k = some c ∧ t.calls = s.calls := by
  unfold OutboundRateLimiter.bucketFor at hbucket
  split at hbucket
  · rename_i k' hlookup
    obtain ⟨rfl, rfl⟩ := Prod.mk.inj (Except.ok.inj hbucket)
    obtain ⟨before, after, hsplit, -⟩ := List.lookup_eq_some_iff.mp hlookup
    have howner : s.owner k' = some c := h.map (c, k') (by rw [hsplit]; simp)
    refine ⟨⟨h.sound, h.grants, fun entry hentry => ?_, h.waits⟩, howner, rfl⟩
    rcases List.mem_append.mp hentry with hentry | hentry
    · exact h.map entry (List.mem_filter.mp hentry).1
    · rw [List.mem_singleton.mp hentry]
      exact howner
  · split at hbucket
    · cases hbucket
    · rename_i b hcreate
      obtain ⟨rfl, rfl⟩ := Prod.mk.inj (Except.ok.inj hbucket)
      obtain ⟨hfull, hrateOf, hburst, hlast⟩ := of_create hcreate
      have hnew : ((s.buckets ++ [(c, b)])[s.buckets.length]?).map Prod.fst = some c := by
        rw [List.getElem?_concat_length]
        rfl
      have hlater : clock s.readings ≤ clock (s.readings + 1) := hclock (Nat.le_succ _)
      refine ⟨⟨fun j c' b' hb' => ?_, fun g hg => owner_append (h.grants g hg) _,
        fun entry hentry => ?_, fun i call j hcall hpoint =>
          owner_append (h.waits i call j hcall hpoint) _⟩, hnew, rfl⟩
      · rcases Nat.lt_or_ge j s.buckets.length with hj | hj
        · rw [List.getElem?_append_left hj] at hb'
          obtain ⟨hsound, hold, hpaced⟩ := h.sound j c' b' hb'
          exact ⟨hsound, hold.trans hlater, hpaced⟩
        · obtain ⟨rfl, hpair⟩ : j = s.buckets.length ∧ (c', b') = (c, b) := by
            rw [List.getElem?_append_right hj, List.getElem?_singleton] at hb'
            split at hb'
            · exact ⟨by omega, (Option.some.inj hb').symm⟩
            · cases hb'
          obtain ⟨rfl, rfl⟩ := Prod.mk.inj hpair
          refine ⟨hfull.le, hlast.trans_le hlater, ⟨by rw [hrate, hrateOf], ?_⟩, ?_⟩
          · rw [hburst, hrateOf]
          · have hpositive := b'.burst.2
            have hthrough := h.through_eq_nil
            rw [OutboundRateLimiter.through] at hthrough
            unfold Within
            rw [OutboundRateLimiter.through, hthrough, hfull]
            exact Metered.full (by linarith) (rate_nonneg b') _
      · rcases List.mem_append.mp (List.mem_of_mem_drop hentry) with hentry | hentry
        · exact owner_append (h.map entry hentry) _
        · rw [List.mem_singleton.mp hentry]
          exact hnew

theorem Booked.enter (hclock : Monotone clock) (h : s.Booked options clock) {i : Nat}
    {call call' : AcquireCall} (hcall : s.calls[i]? = some call')
    (hsame : call'.conversationId = call.conversationId) (aborted : Bool) :
    (s.enter options clock i call aborted).Booked options clock := by
  unfold OutboundRateLimiter.enter
  split
  · exact h.goto fun _ _ _ hpoint => (by cases hpoint)
  · rename_i ratePerSec hrate
    split
    · exact h.goto fun _ _ _ hpoint => (by cases hpoint)
    · rename_i k t hbucket
      obtain ⟨ht, howner, hcalls⟩ := h.bucketFor hclock hrate hbucket
      exact ht.drainConversation hclock (by rw [hcalls, hcall]) hsame howner aborted

theorem Booked.later (hclock : Monotone clock) (h : s.Booked options clock) {readings : Nat}
    (hreadings : s.readings ≤ readings) (global : Option TokenBucket) :
    ({ s with global, readings } : OutboundRateLimiter).Booked options clock := by
  refine ⟨fun k c b hb => ?_, h.grants, h.map, h.waits⟩
  obtain ⟨hsound, hlast, hpaced⟩ := h.sound k c b hb
  exact ⟨hsound, hlast.trans (hclock hreadings), hpaced⟩

theorem Booked.drainGlobal (hclock : Monotone clock) (h : s.Booked options clock) (i : Nat)
    (call : AcquireCall) (b : TokenBucket) (aborted : Bool) :
    (s.drainGlobal options clock i call b aborted).Booked options clock := by
  have hreadings := le_drain_readings options clock b call.deadline .global none aborted s.readings
  unfold OutboundRateLimiter.drainGlobal
  generalize drain options clock b call.deadline .global none aborted s.readings = r at hreadings ⊢
  obtain ⟨b', outcome, readings⟩ := r
  have hlater := h.later hclock hreadings (some b')
  cases outcome with
  | taken => exact hlater.goto fun _ _ _ hpoint => (by cases hpoint)
  | waits => exact hlater.goto fun _ _ _ hpoint => (by cases hpoint)
  | throws err => exact hlater.goto fun _ _ _ hpoint => (by cases hpoint)

theorem Booked.acquire (hclock : Monotone clock) (h : s.Booked options clock) (c : String)
    (aborted : Bool) : (s.acquire options clock c aborted).Booked options clock := by
  have hlater := h.later hclock (Nat.le_succ s.readings) s.global
  have hcalled : ∀ call : AcquireCall, call.point = .passedGlobal →
      ({ s with calls := s.calls ++ [call], readings := s.readings + 1 } :
        OutboundRateLimiter).Booked options clock := by
    intro call hpoint
    refine ⟨hlater.sound, hlater.grants, hlater.map, fun i call' k hcall hwaits => ?_⟩
    rcases List.mem_append.mp (List.mem_of_getElem? hcall) with hmem | hmem
    · obtain ⟨j, hj⟩ := List.getElem?_of_mem hmem
      exact h.waits j call' k hj hwaits
    · rw [List.mem_singleton.mp hmem, hpoint] at hwaits
      cases hwaits
  unfold OutboundRateLimiter.acquire
  dsimp only
  split
  · exact (hcalled _ rfl).drainGlobal hclock _ _ _ _
  · exact (hcalled _ rfl).enter hclock (List.getElem?_concat_length ..) rfl aborted

theorem Booked.step (hclock : Monotone clock) (h : s.Booked options clock) {a : OutboundAct}
    (hstep : s.step options clock a = some t) : t.Booked options clock := by
  cases a with
  | acquire c aborted =>
    rw [← Option.some.inj hstep]
    exact h.acquire hclock c aborted
  | resume i aborted =>
    rw [OutboundRateLimiter.step] at hstep
    split at hstep
    · cases hstep
    · rename_i call hcall
      split at hstep
      · obtain ⟨b, -, rfl⟩ := Option.map_eq_some_iff.mp hstep
        exact h.drainGlobal hclock i call b aborted
      · rw [← Option.some.inj hstep]
        exact h.enter hclock hcall rfl aborted
      · rename_i k hpoint
        rw [← Option.some.inj hstep]
        exact h.drainConversation hclock hcall rfl (h.waits i call k hcall hpoint) aborted
      · cases hstep
      · cases hstep

/-! ### What a conversation is granted -/

theorem Booked.create (hcreate : create options clock = .ok s) : s.Booked options clock := by
  have hnone : ∀ (global : Option TokenBucket) (readings : Nat),
      ({ global, readings } : OutboundRateLimiter).Booked options clock :=
    fun global readings => ⟨fun k c b hb => (by cases hb), fun g hg => (by cases hg),
      fun entry hentry => (by cases hentry), fun i call k hcall => (by cases hcall)⟩
  unfold OutboundRateLimiter.create at hcreate
  split at hcreate
  · rw [← Except.ok.inj hcreate]
    exact hnone none 0
  · split at hcreate
    · rename_i global _
      rw [← Except.ok.inj hcreate]
      exact hnone (some global) 1
    · cases hcreate

theorem Booked.paced (h : s.Booked options clock) {ratePerSec : ℚ}
    (hrate : options.perConversationPerSec = some ratePerSec) {k : Nat} {c : String}
    (howner : s.owner k = some c) :
    Conforms (options.perConversationBurst.getD ratePerSec + 1 / 1000000000) (ratePerSec / 1000)
      (s.through k) := by
  obtain ⟨⟨c', b⟩, hb, -⟩ := Option.map_eq_some_iff.mp howner
  obtain ⟨-, -, ⟨hrateOf, hburst⟩, hwithin⟩ := h.sound k c' b hb
  obtain rfl := Option.some.inj (hrate.symm.trans hrateOf)
  rw [← hburst]
  exact hwithin.conforms

theorem mem_bucketsOf {k : Nat} {c : String} : k ∈ s.bucketsOf c ↔ s.owner k = some c := by
  simp only [bucketsOf, List.mem_filter, List.mem_range, decide_eq_true_eq, and_iff_right_iff_imp]
  intro howner
  obtain ⟨pair, hpair, -⟩ := Option.map_eq_some_iff.mp howner
  exact (List.getElem?_eq_some_iff.mp hpair).1

/-- A bucket that is kept is the only one that was made for its conversation. -/
theorem Kept.eq_of_mem {c : String} (h : s.Kept c) {k j : Nat} (hk : k ∈ s.bucketsOf c)
    (hj : j ∈ s.bucketsOf c) : k = j :=
  Option.some.inj ((h k hk).symm.trans (h j hj))

theorem Kept.length_le {c : String} (h : s.Kept c) : (s.bucketsOf c).length ≤ 1 := by
  have hnodup : (s.bucketsOf c).Nodup := List.nodup_range.filter _
  rcases hbuckets : s.bucketsOf c with _ | ⟨k, _ | ⟨j, ks⟩⟩
  · exact Nat.zero_le 1
  · exact Nat.le_refl 1
  · have heq : k = j := h.eq_of_mem (by simp [hbuckets]) (by simp [hbuckets])
    rw [hbuckets, heq] at hnodup
    simp at hnodup

theorem kept_create (hcreate : create options clock = .ok s) (c : String) : s.Kept c := by
  have hempty : s.buckets = [] := by
    unfold create at hcreate
    split at hcreate
    · rw [← Except.ok.inj hcreate]
    · split at hcreate
      · rw [← Except.ok.inj hcreate]
      · cases hcreate
  intro k hk
  rw [mem_bucketsOf, owner, hempty] at hk
  cases hk

/-- A bucket of the conversation met its part of what the conversation was granted. -/
theorem Booked.countP_grants (h : s.Booked options clock) {ratePerSec : ℚ}
    (hrate : options.perConversationPerSec = some ratePerSec) {k : Nat} {c : String}
    (hk : k ∈ s.bucketsOf c) {a b : ℚ} (hab : a ≤ b) :
    ((s.grants.countP fun g =>
      (decide (a ≤ g.reading ∧ g.reading ≤ b) && decide (g.conversationId = c)) &&
        decide (g.bucket = k) : Nat) : ℚ) ≤
      options.perConversationBurst.getD ratePerSec + 1 / 1000000000 +
        ratePerSec / 1000 * (b - a) := by
  refine le_trans (Nat.cast_le.mpr ?_) (h.paced hrate (mem_bucketsOf.mp hk) a b hab)
  rw [between, through, List.countP_map, List.countP_filter]
  refine List.countP_mono_left fun g _ hg => ?_
  simp only [Bool.and_eq_true] at hg ⊢
  exact ⟨hg.1.1, hg.2⟩

theorem Booked.between_grantedTo (h : s.Booked options clock) {ratePerSec : ℚ}
    (hrate : options.perConversationPerSec = some ratePerSec) (c : String) {a b : ℚ}
    (hab : a ≤ b) :
    (between (s.grantedTo c) a b : ℚ) ≤ (s.bucketsOf c).length *
      (options.perConversationBurst.getD ratePerSec + 1 / 1000000000 +
        ratePerSec / 1000 * (b - a)) := by
  rw [between, grantedTo, List.countP_map, List.countP_filter]
  refine countP_le_of_each Grant.bucket s.grants _ _ (fun g hg hmet => ?_)
    fun k hk => h.countP_grants hrate hk hab
  rw [mem_bucketsOf, h.grants g hg]
  exact congrArg some (of_decide_eq_true (Bool.and_eq_true_iff.mp hmet).2)

/-- **What a conversation is granted is paced** by the buckets that were made for it, and as long
as its bucket is kept that is one. -/
theorem sends_paced (options : OutboundRateLimiterOptions) (clock : Nat → ℚ)
    (hclock : Monotone clock) {ratePerSec : ℚ}
    (hrate : options.perConversationPerSec = some ratePerSec) {s₀ s : OutboundRateLimiter}
    (hcreate : create options clock = .ok s₀) {acts : List OutboundAct}
    (r : Run (step options clock) Any s₀ acts s) (c : String) :
    (∀ a b, a ≤ b → (between (s.grantedTo c) a b : ℚ) ≤ (s.bucketsOf c).length *
      (options.perConversationBurst.getD ratePerSec + 1 / 1000000000 +
        ratePerSec / 1000 * (b - a))) ∧
    (Run (step options clock) (Keeps options clock c) s₀ acts s →
      (s.bucketsOf c).length ≤ 1) := by
  have hbooked : s.Booked options clock :=
    r.invariant (Booked.create hcreate) fun t a t' ht _ hstep => ht.step hclock hstep
  refine ⟨fun a b hab => hbooked.between_grantedTo hrate c hab, fun hkeeps => ?_⟩
  have hkept : s.Kept c :=
    hkeeps.invariant (P := fun t => t.Kept c) (kept_create hcreate c)
      fun t a t' _ hkeep hstep => hkeep t' hstep
  exact hkept.length_le

/-- One send each second, and room for one conversation. -/
def oneConversation : OutboundRateLimiterOptions :=
  { perConversationPerSec := some 1, maxConversationBuckets := 1 }

/-- A second send waits, and is granted when a token has flowed in. -/
theorem sends_paced_waits : ∃ s : OutboundRateLimiter,
    s.grantedTo "a" = [400, 1600] ∧ (s.bucketsOf "a").length ≤ 1 := by
  have hclock : Monotone fun n : Nat => (n * 200 : ℚ) := fun n m hnm =>
    mul_le_mul_of_nonneg_right (Nat.cast_le.mpr hnm) (by norm_num)
  have hreplay : (exec (guarded (step oneConversation fun n => n * 200)
      (Keeps oneConversation (fun n => n * 200) "a")) {}
      [.acquire "a" false, .acquire "a" false, .resume 1 false, .resume 1 false]).any
        (fun s => decide (s.grantedTo "a" = [400, 1600])) = true := by
    decide +kernel
  obtain ⟨s, r, hs⟩ := Run.of_replay hreplay
  have hrun : Run (step oneConversation fun n => n * 200) Any {} _ s :=
    r.mono (P := fun _ => True) trivial fun _ _ _ _ _ => ⟨trivial, fun _ => trivial⟩
  exact ⟨s, of_decide_eq_true hs, (sends_paced oneConversation _ hclock rfl rfl hrun "a").2 r⟩

/-- **A conversation whose bucket was evicted is granted more**: it gets a full bucket. -/
theorem evicted_bucket_full :
    ¬ ∀ (options : OutboundRateLimiterOptions) (clock : Nat → ℚ), Monotone clock →
      ∀ ratePerSec, options.perConversationPerSec = some ratePerSec →
      ∀ s₀, create options clock = .ok s₀ → ∀ acts s, Run (step options clock) Any s₀ acts s →
        ∀ c, Conforms (options.perConversationBurst.getD ratePerSec) (ratePerSec / 1000)
          (s.grantedTo c) := by
  intro h
  have hreplay : (exec (step oneConversation fun _ => 0) {}
      [.acquire "a" false, .acquire "b" false, .acquire "a" false]).any
        (fun s => decide (s.grantedTo "a" = [0, 0])) = true := by
    decide +kernel
  obtain ⟨s, r, hs⟩ := Run.any_of_replay hreplay
  have hpaced := h oneConversation (fun _ => 0) monotone_const 1 rfl {} rfl _ s r "a" 0 0 (le_refl _)
  rw [of_decide_eq_true hs] at hpaced
  norm_num [between, oneConversation] at hpaced

end OutboundRateLimiter

end Declaragent.Channels

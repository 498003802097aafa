import Declaragent.Channels.SendIdempotency
import Declaragent.Library.Async
import Mathlib.Data.Fintype.Basic

/-!
# Channels — sending with an idempotency key

A caller looks its key up in the cache, waits for the rate limiter, and sends; a platform that
answers with a rate limit is asked once more.  The bridge calls again after a failure, up to
`sendMaxAttempts` times.  Between the look-up and the put of the receipt other callers run.

* `sendStep_keyStep`: what a step does to one key.
* `KeyInv.step`: what holds of a key whose calls do not overlap.
* `sent_once`: a key whose calls do not overlap, and are not repeated once a send is lost, is sent
  once, and each later call gets the receipt.
-/

namespace Declaragent.Channels
open Transition Async

/-! ### A caller -/

/-- What happens to a key: `started` and `refused` are of the platform send, `lost` is a send that
failed and may have taken effect, and `returned` and `threw` are of the call. -/
inductive SendEvent where
  | started
  | refused
  | lost
  | returned (sent : SentMessage)
  | threw
  deriving DecidableEq

/-- How `doSend` ends.  A rate limit refuses the message; another failure is definite where it
came before the message took effect. -/
inductive DoSend where
  | resolves (sent : SentMessage)
  | rateLimited (retryAfterMs : Int)
  | fails (definite : Bool)

/-- The cache, and what has happened to the keys, the last first. -/
structure Outbound where
  cache : SendIdempotencyCache
  history : List (String × SendEvent)

def Outbound.log (sh : Outbound) (key : String) (event : SendEvent) : Outbound :=
  { sh with history := (key, event) :: sh.history }

/-- Where a caller is, with its key and the attempts it has left after this one. -/
inductive SendLoc where
  | idle
  | limited (key : String) (left : Nat)
  | sending (key : String) (retried : Bool) (left : Nat)
  | sleeping (key : String) (left : Nat)
  | backingOff (key : String) (left : Nat)

inductive SendAct where
  | call (key : String) (sendMaxAttempts : Nat) (now : Int)
  | admitted (ok : Bool)
  | settles (outcome : DoSend) (now : Int)
  | wakes
  | again (now : Int)

/-- The next attempt of the bridge, or the end of the call. -/
def backOff (key : String) (left : Nat) : SendLoc :=
  match left with
  | 0 => .idle
  | left + 1 => .backingOff key left

/-- `send`, up to its first wait.  A call without a key is refused before anything else. -/
def send (sh : Outbound) (key : String) (left : Nat) (now : Int) : Outbound × SendLoc :=
  if key = "" then (sh, backOff key left)
  else
    match sh.cache.get key now with
    | (cache, some sent) => ((⟨cache, sh.history⟩ : Outbound).log key (.returned sent), .idle)
    | (cache, none) => (⟨cache, sh.history⟩, .limited key left)

def startSend (sh : Outbound) (key : String) (retried : Bool) (left : Nat) : Outbound × SendLoc :=
  (sh.log key .started, .sending key retried left)

def rethrow (sh : Outbound) (key : String) (left : Nat) : Outbound × SendLoc :=
  (sh.log key .threw, backOff key left)

/-- `doSend` ended. -/
def settle (opts : SendIdempotencyCacheOptions) (sh : Outbound) (key : String) (retried : Bool)
    (left : Nat) (now : Int) : DoSend → Outbound × SendLoc
  | .resolves sent =>
    ((⟨sh.cache.put opts key sent now, sh.history⟩ : Outbound).log key (.returned sent), .idle)
  | .rateLimited retryAfterMs =>
    let sh := sh.log key .refused
    if retried then rethrow sh key left
    else if 0 < retryAfterMs then (sh, .sleeping key left)
    else startSend sh key true left
  | .fails definite => rethrow (sh.log key (if definite then .refused else .lost)) key left

/-- A plain `send` is a call with one attempt.  The limiter gives up after a while, and the render
of the content may throw. -/
def sendStep (opts : SendIdempotencyCacheOptions) (sh : Outbound) :
    SendLoc → SendAct → Option (Outbound × SendLoc)
  | .idle, .call key sendMaxAttempts now => some (send sh key (sendMaxAttempts - 1) now)
  | .limited key left, .admitted ok =>
    some (if ok then startSend sh key false left else rethrow sh key left)
  | .sending key retried left, .settles outcome now =>
    some (settle opts sh key retried left now outcome)
  | .sleeping key left, .wakes => some (startSend sh key true left)
  | .backingOff key left, .again now => some (send sh key left now)
  | _, _ => none

def sends (ι : Type) (opts : SendIdempotencyCacheOptions) :
    System ι Outbound SendLoc SendAct Empty where
  task _ := sendStep opts
  env _ e := e.elim

variable {ι : Type}

def noSends : State ι Outbound SendLoc := ⟨⟨∅, []⟩, fun _ => .idle⟩

/-! ### What is asked of a key -/

/-- What has happened to the key, the last first. -/
def eventsOf (key : String) (history : List (String × SendEvent)) : List SendEvent :=
  (history.filter fun entry => entry.1 = key).map Prod.snd

/-- Every send so far was refused. -/
def AllRefused (events : List SendEvent) : Prop := events.count .started = events.count .refused

/-- No send is started after one that was not refused, and every call that ends after the first
receipt was returned gets that receipt. -/
def SentOnce : List SendEvent → Prop
  | [] => True
  | .started :: events => AllRefused events ∧ SentOnce events
  | .returned sent :: events => (∀ sent', .returned sent' ∈ events → sent' = sent) ∧ SentOnce events
  | .threw :: events => (∀ sent, .returned sent ∉ events) ∧ SentOnce events
  | .refused :: events | .lost :: events => SentOnce events

inductive Phase where
  | out | waiting | inFlight
  deriving DecidableEq

/-- Whether a caller is past the look-up of the key. -/
def SendLoc.phase (key : String) : SendLoc → Phase
  | .limited k _ | .sleeping k _ => if k = key then .waiting else .out
  | .sending k _ _ => if k = key then .inFlight else .out
  | .idle | .backingOff _ _ => .out

@[simp] theorem SendLoc.phase_idle (key : String) : SendLoc.idle.phase key = .out := rfl

@[simp] theorem SendLoc.phase_limited (key k : String) (left : Nat) :
    (SendLoc.limited k left).phase key = if k = key then .waiting else .out := rfl

@[simp] theorem SendLoc.phase_sending (key k : String) (retried : Bool) (left : Nat) :
    (SendLoc.sending k retried left).phase key = if k = key then .inFlight else .out := rfl

@[simp] theorem SendLoc.phase_sleeping (key k : String) (left : Nat) :
    (SendLoc.sleeping k left).phase key = if k = key then .waiting else .out := rfl

/-- When the step looks the key up. -/
def looksUp (key : String) : SendLoc → SendAct → Option Int
  | .idle, .call k _ now | .backingOff k _, .again now => if k = key then some now else none
  | _, _ => none

/-- A call that finds no receipt begins only when no other call with the key is under way, and
no send with the key was lost. -/
def Alone (key : String) (s : State ι Outbound SendLoc) : Label ι SendAct Empty → Prop
  | .task i a => ∀ now ∈ looksUp key (s.loc i) a, (s.shared.cache.get key now).2 = none →
      (∀ j, j ≠ i → (s.loc j).phase key = .out) ∧ .lost ∉ eventsOf key s.shared.history
  | .env _ => True

def SendAct.clock : SendAct → Option Int
  | .call _ _ now | .settles _ now | .again now => some now
  | .admitted _ | .wakes => none

/-- The receipt of the key has not expired, and the cache is below its capacity. -/
def Cached (opts : SendIdempotencyCacheOptions) (key : String) (s : State ι Outbound SendLoc) :
    Label ι SendAct Empty → Prop
  | .task _ a => (∀ now ∈ a.clock, s.shared.cache.WithinTtl key now) ∧
      s.shared.cache.entries.length < opts.maxEntries
  | .env _ => True

instance (cache : SendIdempotencyCache) (key : String) (now : Int) :
    Decidable (cache.WithinTtl key now) :=
  inferInstanceAs (Decidable (∀ entry ∈ cache.lookup key, now < entry.expiresAt))

instance (opts : SendIdempotencyCacheOptions) (key : String) (s : State ι Outbound SendLoc) :
    ∀ a, Decidable (Cached opts key s a)
  | .task _ a => inferInstanceAs (Decidable ((∀ now ∈ a.clock, s.shared.cache.WithinTtl key now) ∧
      s.shared.cache.entries.length < opts.maxEntries))
  | .env _ => .isTrue trivial

instance [Fintype ι] [DecidableEq ι] (key : String) (s : State ι Outbound SendLoc) :
    ∀ a, Decidable (Alone key s a)
  | .task i a => inferInstanceAs (Decidable (∀ now ∈ looksUp key (s.loc i) a,
      (s.shared.cache.get key now).2 = none →
        (∀ j, j ≠ i → (s.loc j).phase key = .out) ∧ .lost ∉ eventsOf key s.shared.history))
  | .env _ => .isTrue trivial

/-! ### What a step does to a key -/

/-- The receipt of a key in the cache, and what has happened to the key. -/
structure KeyView where
  receipt : Option SentMessage
  events : List SendEvent

def Outbound.view (sh : Outbound) (key : String) : KeyView :=
  ⟨sh.cache.receipt key, eventsOf key sh.history⟩

def KeyView.log (v : KeyView) (event : SendEvent) : KeyView := ⟨v.receipt, event :: v.events⟩

/-- The steps of a caller, as one key sees them. -/
inductive KeyStep (v : KeyView) : Phase → KeyView → Phase → Prop where
  | other (p : Phase) : KeyStep v p v p
  | hit (sent : SentMessage) (h : v.receipt = some sent) :
      KeyStep v .out (v.log (.returned sent)) .out
  | miss (h : v.receipt = none) : KeyStep v .out v .waiting
  | starts : KeyStep v .waiting (v.log .started) .inFlight
  | givesUp : KeyStep v .waiting (v.log .threw) .out
  | resolves (sent : SentMessage) :
      KeyStep v .inFlight ((⟨some sent, v.events⟩ : KeyView).log (.returned sent)) .out
  | sleeps : KeyStep v .inFlight (v.log .refused) .waiting
  | restarts : KeyStep v .inFlight ((v.log .refused).log .started) .inFlight
  | refused : KeyStep v .inFlight ((v.log .refused).log .threw) .out
  | lost : KeyStep v .inFlight ((v.log .lost).log .threw) .out

variable {opts : SendIdempotencyCacheOptions} {sh sh' : Outbound} {key key' : String}
  {l l' : SendLoc} {left : Nat} {now : Int} {event : SendEvent}

theorem view_log_self (sh : Outbound) (key : String) (event : SendEvent) :
    (sh.log key event).view key = (sh.view key).log event := by
  simp [Outbound.view, Outbound.log, KeyView.log, eventsOf]

theorem view_log_of_ne (sh : Outbound) (h : key' ≠ key) (event : SendEvent) :
    (sh.log key' event).view key = sh.view key := by
  simp [Outbound.view, Outbound.log, eventsOf, h]

@[simp] theorem backOff_phase (key key' : String) (left : Nat) :
    (backOff key' left).phase key = .out := by
  cases left <;> rfl

/-- A step with another key. -/
theorem KeyStep.of_same (hview : sh'.view key = sh.view key)
    (hphase : l'.phase key = l.phase key) :
    KeyStep (sh.view key) (l.phase key) (sh'.view key) (l'.phase key) := by
  rw [hview, hphase]
  exact .other _

/-- The look-up, as a key sees it. -/
theorem send_keyStep (httl : sh.cache.WithinTtl key now) (key' : String) (left : Nat) :
    KeyStep (sh.view key) .out ((send sh key' left now).1.view key)
      ((send sh key' left now).2.phase key) := by
  unfold send
  by_cases hempty : key' = ""
  · rw [if_pos hempty, backOff_phase]
    exact .other _
  · rw [if_neg hempty]
    have hkept : (sh.cache.get key' now).1.receipt key = sh.cache.receipt key := by
      rw [SendIdempotencyCache.receipt, SendIdempotencyCache.lookup_get httl]
      rfl
    cases hget : sh.cache.get key' now with
    | mk cache found =>
      rw [hget] at hkept
      have hview : Outbound.view ⟨cache, sh.history⟩ key = sh.view key := by
        rw [Outbound.view, hkept]
        rfl
      by_cases hkey : key' = key
      · subst hkey
        have hfound : sh.cache.receipt key' = found := by
          rw [← SendIdempotencyCache.get_receipt httl, hget]
        cases found with
        | none =>
          dsimp only
          rw [hview, SendLoc.phase_limited, if_pos rfl]
          exact .miss hfound
        | some sent =>
          dsimp only
          rw [view_log_self, hview]
          exact .hit sent hfound
      · cases found with
        | none => exact .of_same (l := .idle) hview (by simp [hkey])
        | some sent =>
          exact .of_same (l := .idle) (by rw [view_log_of_ne _ hkey, hview]) rfl

/-- The end of a platform send, as a key sees it. -/
theorem settle_keyStep (httl : sh.cache.WithinTtl key now)
    (hroom : sh.cache.entries.length < opts.maxEntries) (key' : String) (retried : Bool)
    (left : Nat) (outcome : DoSend) :
    KeyStep (sh.view key) ((SendLoc.sending key' retried left).phase key)
      ((settle opts sh key' retried left now outcome).1.view key)
      ((settle opts sh key' retried left now outcome).2.phase key) := by
  by_cases hkey : key' = key
  · subst hkey
    rw [SendLoc.phase_sending, if_pos rfl]
    cases outcome with
    | resolves sent =>
      have hput : (sh.cache.put opts key' sent now).receipt key' = some sent := by
        rw [SendIdempotencyCache.receipt, SendIdempotencyCache.lookup_put httl hroom, if_pos rfl]
        rfl
      have hview : Outbound.view ⟨sh.cache.put opts key' sent now, sh.history⟩ key' =
          ⟨some sent, (sh.view key').events⟩ := by
        rw [Outbound.view, hput]
        rfl
      rw [settle, view_log_self, hview]
      exact .resolves sent
    | rateLimited retryAfterMs =>
      simp only [settle]
      split
      · rw [rethrow, backOff_phase, view_log_self, view_log_self]
        exact .refused
      · split
        · rw [view_log_self, SendLoc.phase_sleeping, if_pos rfl]
          exact .sleeps
        · rw [startSend, view_log_self, view_log_self, SendLoc.phase_sending, if_pos rfl]
          exact .restarts
    | fails definite =>
      rw [settle, rethrow, backOff_phase, view_log_self, view_log_self]
      cases definite with
      | true => exact .refused
      | false => exact .lost
  · rw [SendLoc.phase_sending, if_neg hkey]
    cases outcome with
    | resolves sent =>
      have hput : (sh.cache.put opts key' sent now).receipt key = sh.cache.receipt key := by
        rw [SendIdempotencyCache.receipt, SendIdempotencyCache.lookup_put httl hroom,
          if_neg (Ne.symm hkey)]
        rfl
      refine .of_same (l := .idle) ?_ rfl
      rw [settle, view_log_of_ne _ hkey, Outbound.view, hput]
      rfl
    | rateLimited retryAfterMs =>
      simp only [settle]
      split
      · exact .of_same (l := .idle) (by simp [rethrow, view_log_of_ne _ hkey]) (by simp [rethrow])
      · split
        · exact .of_same (l := .idle) (view_log_of_ne _ hkey _) (by simp [hkey])
        · exact .of_same (l := .idle) (by simp [startSend, view_log_of_ne _ hkey])
            (by simp [startSend, hkey])
    | fails definite =>
      exact .of_same (l := .idle) (by simp [settle, rethrow, view_log_of_ne _ hkey])
        (by simp [settle, rethrow])

/-- **What a step does to a key**, while its receipt does not expire and the cache has room. -/
theorem sendStep_keyStep {a : SendAct} (httl : ∀ now ∈ a.clock, sh.cache.WithinTtl key now)
    (hroom : sh.cache.entries.length < opts.maxEntries)
    {r : Outbound × SendLoc} (h : sendStep opts sh l a = some r) :
    KeyStep (sh.view key) (l.phase key) (r.1.view key) (r.2.phase key) := by
  cases l with
  | idle =>
    cases a with
    | call key' sendMaxAttempts now =>
      obtain rfl := Option.some.inj h
      exact send_keyStep (httl now rfl) _ _
    | _ => cases h
  | limited key' left =>
    cases a with
    | admitted ok =>
      obtain rfl := Option.some.inj h
      rw [SendLoc.phase_limited]
      by_cases hkey : key' = key
      · subst hkey
        rw [if_pos rfl]
        cases ok with
        | true => simpa [startSend, view_log_self] using KeyStep.starts
        | false => simpa [rethrow, view_log_self] using KeyStep.givesUp
      · rw [if_neg hkey]
        cases ok with
        | true =>
          exact .of_same (l := .idle) (view_log_of_ne _ hkey _) (by simp [startSend, hkey])
        | false => exact .of_same (l := .idle) (view_log_of_ne _ hkey _) (by simp [rethrow])
    | _ => cases h
  | sending key' retried left =>
    cases a with
    | settles outcome now =>
      obtain rfl := Option.some.inj h
      exact settle_keyStep (httl now rfl) hroom _ _ _ _
    | _ => cases h
  | sleeping key' left =>
    cases a with
    | wakes =>
      obtain rfl := Option.some.inj h
      rw [SendLoc.phase_sleeping]
      by_cases hkey : key' = key
      · subst hkey
        rw [if_pos rfl]
        simpa [startSend, view_log_self] using KeyStep.starts
      · rw [if_neg hkey]
        exact .of_same (l := .idle) (view_log_of_ne _ hkey _) (by simp [startSend, hkey])
    | _ => cases h
  | backingOff key' left =>
    cases a with
    | again now =>
      obtain rfl := Option.some.inj h
      exact send_keyStep (httl now rfl) _ _
    | _ => cases h

/-! ### A key whose calls do not overlap -/

/-- No receipt was returned, and the cache has none. -/
def Unsent (v : KeyView) : Prop := v.receipt = none ∧ ∀ sent, .returned sent ∉ v.events

/-- What is known of the key while one caller is in the phase and the others are out. -/
def PhaseInv (v : KeyView) : Phase → Prop
  | .out => v.receipt = none → Unsent v ∧ (.lost ∉ v.events → AllRefused v.events)
  | .waiting => Unsent v ∧ AllRefused v.events
  | .inFlight => Unsent v ∧ v.events.count .started = v.events.count .refused + 1

structure KeyInv (v : KeyView) (phase : ι → Phase) : Prop where
  once : SentOnce v.events
  receipt : ∀ sent, v.receipt = some sent → ∀ sent', .returned sent' ∈ v.events → sent' = sent
  alone : ∀ i j, phase i ≠ .out → phase j ≠ .out → i = j
  busy : ∀ i, phase i ≠ .out → PhaseInv v (phase i)
  quiet : (∀ i, phase i = .out) → PhaseInv v .out

theorem Unsent.receipt {v : KeyView} (h : Unsent v) (sent : SentMessage)
    (hsent : v.receipt = some sent) (sent' : SentMessage) (_ : .returned sent' ∈ v.events) :
    sent' = sent := by
  rw [h.1] at hsent
  cases hsent

theorem Unsent.log {v : KeyView} (h : Unsent v) (hevent : ∀ sent, event ≠ .returned sent) :
    Unsent (v.log event) :=
  ⟨h.1, fun sent hmem => (List.mem_cons.mp hmem).elim (fun e => hevent sent e.symm) (h.2 sent)⟩

variable [DecidableEq ι] {phase : ι → Phase} {v v' : KeyView} {i : ι} {p : Phase}

theorem KeyInv.of_only (hothers : ∀ j, j ≠ i → phase j = .out) (honce : SentOnce v.events)
    (hreceipt : ∀ sent, v.receipt = some sent → ∀ sent', .returned sent' ∈ v.events → sent' = sent)
    (hp : PhaseInv v p) : KeyInv v (Function.update phase i p) := by
  have hout : ∀ j, Function.update phase i p j ≠ .out → j = i := fun j hj => by
    by_contra hne
    rw [Function.update_of_ne hne] at hj
    exact hj (hothers j hne)
  refine ⟨honce, hreceipt, fun j k hj hk => (hout j hj).trans (hout k hk).symm, fun j hj => ?_,
    fun hall => ?_⟩
  · rw [hout j hj, Function.update_self]
    exact hp
  · have hi := hall i
    rw [Function.update_self] at hi
    rwa [hi] at hp

/-- **A step keeps what is known of the key**, where a call that finds no receipt is alone. -/
theorem KeyInv.step (h : KeyInv v phase) (hstep : KeyStep v (phase i) v' p)
    (hmiss : phase i = .out → p = .waiting →
      (∀ j, j ≠ i → phase j = .out) ∧ .lost ∉ v.events) :
    KeyInv v' (Function.update phase i p) := by
  have hothers : phase i ≠ .out → ∀ j, j ≠ i → phase j = .out := fun hi j hne => by
    by_contra hj
    exact hne (h.alone j i hj hi)
  have hbusy := h.busy i
  generalize hq : phase i = q at hstep hmiss hothers hbusy
  cases hstep with
  | other =>
    rw [← hq, Function.update_eq_self]
    exact h
  | hit sent hsent =>
    -- a caller past the look-up would see no receipt
    have hout : ∀ j, phase j = .out := fun j => by
      by_contra hj
      have hunsent : Unsent v := by
        have hj' := h.busy j hj
        cases hp : phase j with
        | out => exact absurd hp hj
        | waiting => rw [hp] at hj'; exact hj'.1
        | inFlight => rw [hp] at hj'; exact hj'.1
      rw [hunsent.1] at hsent
      cases hsent
    refine .of_only (fun j _ => hout j) ⟨h.receipt sent hsent, h.once⟩ ?_ fun hnone => ?_
    · intro sent₁ h₁ sent₂ h₂
      have heq : sent = sent₁ := Option.some.inj (hsent.symm.trans h₁)
      rcases List.mem_cons.mp h₂ with e | hmem
      · cases e
        exact heq
      · exact (h.receipt sent hsent sent₂ hmem).trans heq
    · rw [KeyView.log, hsent] at hnone
      cases hnone
  | miss hnone =>
    obtain ⟨halone, hlost⟩ := hmiss rfl rfl
    have hout : ∀ j, phase j = .out := fun j => by
      by_cases hj : j = i
      · rw [hj, hq]
      · exact halone j hj
    obtain ⟨hunsent, hrefused⟩ := h.quiet hout hnone
    exact .of_only halone h.once h.receipt ⟨hunsent, hrefused hlost⟩
  | starts =>
    obtain ⟨hunsent, hrefused⟩ := hbusy (by decide)
    have hunsent' : Unsent (v.log .started) := hunsent.log (fun _ => nofun)
    refine .of_only (hothers (by decide)) ⟨hrefused, h.once⟩ hunsent'.receipt ⟨hunsent', ?_⟩
    simpa [KeyView.log, AllRefused] using hrefused
  | givesUp =>
    obtain ⟨hunsent, hrefused⟩ := hbusy (by decide)
    have hunsent' : Unsent (v.log .threw) := hunsent.log (fun _ => nofun)
    refine .of_only (hothers (by decide)) ⟨hunsent.2, h.once⟩ hunsent'.receipt
      fun _ => ⟨hunsent', fun _ => ?_⟩
    simpa [KeyView.log, AllRefused] using hrefused
  | resolves sent =>
    obtain ⟨hunsent, -⟩ := hbusy (by decide)
    refine .of_only (hothers (by decide))
      ⟨fun sent' hmem => absurd hmem (hunsent.2 sent'), h.once⟩ ?_
      fun hnone => (Option.some_ne_none sent hnone).elim
    intro sent₁ h₁ sent₂ h₂
    rcases List.mem_cons.mp h₂ with e | hmem
    · cases e
      exact Option.some.inj h₁
    · exact absurd hmem (hunsent.2 sent₂)
  | sleeps =>
    obtain ⟨hunsent, hcount⟩ := hbusy (by decide)
    have hunsent' : Unsent (v.log .refused) := hunsent.log (fun _ => nofun)
    refine .of_only (hothers (by decide)) h.once hunsent'.receipt ⟨hunsent', ?_⟩
    simpa [KeyView.log, AllRefused] using hcount
  | restarts =>
    obtain ⟨hunsent, hcount⟩ := hbusy (by decide)
    have hunsent₁ : Unsent (v.log .refused) := hunsent.log (fun _ => nofun)
    have hunsent' : Unsent ((v.log .refused).log .started) := hunsent₁.log (fun _ => nofun)
    have hrefused : AllRefused (v.log .refused).events := by
      simpa [KeyView.log, AllRefused] using hcount
    refine .of_only (hothers (by decide)) ⟨hrefused, h.once⟩ hunsent'.receipt ⟨hunsent', ?_⟩
    simpa [KeyView.log] using hcount
  | refused =>
    obtain ⟨hunsent, hcount⟩ := hbusy (by decide)
    have hunsent₁ : Unsent (v.log .refused) := hunsent.log (fun _ => nofun)
    have hunsent' : Unsent ((v.log .refused).log .threw) := hunsent₁.log (fun _ => nofun)
    refine .of_only (hothers (by decide)) ⟨hunsent₁.2, h.once⟩ hunsent'.receipt
      fun _ => ⟨hunsent', fun _ => ?_⟩
    simpa [KeyView.log, AllRefused] using hcount
  | lost =>
    obtain ⟨hunsent, -⟩ := hbusy (by decide)
    have hunsent₁ : Unsent (v.log .lost) := hunsent.log (fun _ => nofun)
    have hunsent' : Unsent ((v.log .lost).log .threw) := hunsent₁.log (fun _ => nofun)
    refine .of_only (hothers (by decide)) ⟨hunsent₁.2, h.once⟩ hunsent'.receipt
      fun _ => ⟨hunsent', fun hlost => ?_⟩
    exact absurd (by simp [KeyView.log]) hlost

/-- A caller that goes past the look-up has looked the key up, and found nothing. -/
theorem looksUp_of_waiting {a : SendAct} {r : Outbound × SendLoc}
    (h : sendStep opts sh l a = some r) (hl : l.phase key = .out) (hr : r.2.phase key = .waiting) :
    ∃ now ∈ looksUp key l a, (sh.cache.get key now).2 = none := by
  have hsend : ∀ key' left now, (send sh key' left now).2.phase key = .waiting →
      key' = key ∧ (sh.cache.get key now).2 = none := by
    intro key' left now hwaiting
    unfold send at hwaiting
    split at hwaiting
    · simp at hwaiting
    · split at hwaiting
      · simp at hwaiting
      · rename_i cache hget
        have hkey : key' = key := by simpa using hwaiting
        subst hkey
        exact ⟨rfl, by rw [hget]⟩
  cases l with
  | idle =>
    cases a with
    | call key' sendMaxAttempts now =>
      obtain rfl := Option.some.inj h
      obtain ⟨rfl, hnone⟩ := hsend _ _ _ hr
      exact ⟨now, if_pos rfl, hnone⟩
    | _ => cases h
  | limited key' left =>
    cases a with
    | admitted ok =>
      obtain rfl := Option.some.inj h
      cases ok with
      | true =>
        have hne : ¬ key' = key := by simpa using hl
        simp [startSend, hne] at hr
      | false => simp [rethrow] at hr
    | _ => cases h
  | sending key' retried left =>
    have hne : ¬ key' = key := by simpa using hl
    cases a with
    | settles outcome now =>
      obtain rfl := Option.some.inj h
      cases outcome with
      | resolves sent => simp [settle] at hr
      | rateLimited retryAfterMs =>
        simp only [settle] at hr
        split at hr
        · simp [rethrow] at hr
        · split at hr <;> simp [startSend, hne] at hr
      | fails definite => simp [settle, rethrow] at hr
    | _ => cases h
  | sleeping key' left =>
    cases a with
    | wakes =>
      obtain rfl := Option.some.inj h
      have hne : ¬ key' = key := by simpa using hl
      simp [startSend, hne] at hr
    | _ => cases h
  | backingOff key' left =>
    cases a with
    | again now =>
      obtain rfl := Option.some.inj h
      obtain ⟨rfl, hnone⟩ := hsend _ _ _ hr
      exact ⟨now, if_pos rfl, hnone⟩
    | _ => cases h

/-- **A key is sent once** in every run in which a call that finds no receipt of it begins only
when no other call with it is under way and no send with it was lost. -/
theorem sent_once (opts : SendIdempotencyCacheOptions) (key : String)
    {as : List (Label ι SendAct Empty)} {s : State ι Outbound SendLoc}
    (r : Run (sends ι opts).step (fun s a => Cached opts key s a ∧ Alone key s a) noSends as s) :
    SentOnce (eventsOf key s.shared.history) := by
  have hinv : KeyInv (s.shared.view key) fun i => (s.loc i).phase key := by
    refine Run.invariant (P := fun s : State ι Outbound SendLoc =>
      KeyInv (s.shared.view key) fun i => (s.loc i).phase key) ?_ (fun t a t' ht hC hstep => ?_) r
    · refine ⟨trivial, nofun, fun i j hi _ => (hi rfl).elim, fun i hi => (hi rfl).elim, ?_⟩
      exact fun _ _ => ⟨⟨rfl, nofun⟩, fun _ => rfl⟩
    · cases a with
      | env e => exact e.elim
      | task i a =>
        obtain ⟨hcached, halone⟩ := hC
        obtain ⟨sh, l, h, rfl⟩ := System.step_task hstep
        have hkey := sendStep_keyStep hcached.1 hcached.2 h
        have hnext := ht.step hkey fun hout hwaiting => by
          obtain ⟨now, hlooks, hnone⟩ := looksUp_of_waiting h hout hwaiting
          exact halone now hlooks hnone
        have hphase : (fun j => ((t.move i sh l).loc j).phase key) =
            Function.update (fun j => (t.loc j).phase key) i (l.phase key) :=
          Function.comp_update (SendLoc.phase key) t.loc i l
        rw [← hphase] at hnext
        exact hnext
  exact hinv.once

def hello : SentMessage := ⟨"m1", ⟨"telegram", "chat", none⟩, none⟩

/-- Two callers with one key, neither of which finds a receipt. -/
def overlapping : List (Label Bool SendAct Empty) :=
  [.task true (.call "k" 1 0), .task false (.call "k" 1 0),
    .task true (.admitted true), .task true (.settles (.resolves hello) 1),
    .task false (.admitted true)]

/-- The bridge, whose first send fails after it took effect. -/
def retried : List (Label Unit SendAct Empty) :=
  [.task () (.call "k" 3 0), .task () (.admitted true), .task () (.settles (.fails false) 1),
    .task () (.again 2), .task () (.admitted true)]

/-- Two overlapping calls send twice, and so does a retry of the bridge. -/
theorem sent_twice :
    (∃ s, Run (sends Bool {}).step (Cached {} "k") noSends overlapping s ∧
      ¬ SentOnce (eventsOf "k" s.shared.history)) ∧
    ∃ s, Run (sends Unit {}).step (Cached {} "k") noSends retried s ∧
      ¬ SentOnce (eventsOf "k" s.shared.history) := by
  have hoverlap : (exec (guarded (sends Bool {}).step (Cached {} "k")) noSends overlapping).any
      (fun s => decide (eventsOf "k" s.shared.history = [.started, .returned hello, .started])) =
        true := by
    decide
  have hretry : (exec (guarded (sends Unit {}).step (Cached {} "k")) noSends retried).any
      (fun s => decide (eventsOf "k" s.shared.history = [.started, .threw, .lost, .started])) =
        true := by
    decide
  obtain ⟨s, r, h⟩ := Run.of_replay hoverlap
  obtain ⟨t, r', h'⟩ := Run.of_replay hretry
  refine ⟨⟨s, r, ?_⟩, t, r', ?_⟩
  · rw [of_decide_eq_true h]
    rintro ⟨hrefused, -⟩
    exact Nat.one_ne_zero hrefused
  · rw [of_decide_eq_true h']
    rintro ⟨hrefused, -⟩
    exact Nat.one_ne_zero hrefused

/-- A refused send, the bridge's retry, and a later call that gets its receipt. -/
theorem sent_once_retry : ∃ s : State Unit Outbound SendLoc,
    eventsOf "k" s.shared.history =
        [.returned hello, .returned hello, .started, .threw, .refused, .started] ∧
      SentOnce (eventsOf "k" s.shared.history) := by
  have hreplay : (exec (guarded (sends Unit {}).step fun s a => Cached {} "k" s a ∧ Alone "k" s a)
      noSends
      [.task () (.call "k" 3 0), .task () (.admitted true), .task () (.settles (.fails true) 1),
        .task () (.again 2), .task () (.admitted true), .task () (.settles (.resolves hello) 3),
        .task () (.call "k" 1 4)]).any
      (fun s => decide (eventsOf "k" s.shared.history =
        [.returned hello, .returned hello, .started, .threw, .refused, .started])) = true := by
    decide
  obtain ⟨s, r, h⟩ := Run.of_replay hreplay
  exact ⟨s, of_decide_eq_true h, sent_once {} "k" r⟩

end Declaragent.Channels

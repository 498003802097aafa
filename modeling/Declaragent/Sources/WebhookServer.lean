import Declaragent.Library.Transition
import Mathlib.Data.List.Nodup

/-!
# Sources — the server of the webhooks

The triggers of an adapter share one server.  `start` registers the route of its trigger and
`ensureServer` listens when there is no server yet; `stop` takes the route away and the last one
stops the server.  Both look at the server, at a pending `listen()` and at the number of active
triggers, and `listen()` and the server's `stop()` are awaited in between.

* `webhookStep`: a call of a trigger, or the end of what the calls wait for.
* `Undisturbed`: nothing fails, and no `listen()` is over while no trigger is active.
* `lifecycle_of_run`: then the server and the routes are those of the started triggers.
-/

namespace Declaragent.Sources
open Transition

inductive TriggerOp where
  | start
  | stop
  deriving DecidableEq

/-- What a call of a trigger has come to. -/
inductive CallOutcome where
  | ok
  | failed
  /-- It waits for `startingServer`. -/
  | awaitsListen
  /-- It waits for `s.stop()`. -/
  | awaitsStop (server : Nat)
  deriving DecidableEq

def CallOutcome.pending : CallOutcome → Bool
  | .ok | .failed => false
  | .awaitsListen | .awaitsStop _ => true

structure TriggerCall (τ : Type) where
  trigger : τ
  op : TriggerOp
  outcome : CallOutcome

/-- The adapter of triggers `τ` at paths `π`.  `listening` are the servers that are open, `calls`
the calls there have been. -/
structure WebhookAdapter (τ π : Type) where
  routes : List (π × τ) := []
  server : Option Nat := none
  startingServer : Bool := false
  activeCount : Nat := 0
  started : τ → Bool := fun _ => false
  listening : List Nat := []
  nextServer : Nat := 0
  calls : List (TriggerCall τ) := []

inductive WebhookLabel (τ : Type) where
  | start (trigger : τ)
  | stop (trigger : τ)
  | listened
  | listenFailed
  | stopped (server : Nat)
  /-- `closed` says whether the server is open no more all the same. -/
  | stopFailed (server : Nat) (closed : Bool)

/-- The calls that wait come to an outcome. -/
def settleCalls {τ : Type} (awaits outcome : CallOutcome) (calls : List (TriggerCall τ)) :
    List (TriggerCall τ) :=
  calls.map fun call => if call.outcome = awaits then { call with outcome := outcome } else call

section
variable {τ π : Type} [DecidableEq τ] [DecidableEq π] (path : τ → π)

namespace WebhookAdapter
variable (s : WebhookAdapter τ π)

def called (trigger : τ) (op : TriggerOp) (outcome : CallOutcome) : WebhookAdapter τ π :=
  { s with calls := s.calls ++ [⟨trigger, op, outcome⟩] }

/-- `ensureServer`, for the start of a trigger. -/
def ensureServer (trigger : τ) : WebhookAdapter τ π :=
  match s.server with
  | some _ => s.called trigger .start .ok
  | none => { s with startingServer := true }.called trigger .start .awaitsListen

/-- `maybeShutdownServer`, for the stop of a trigger. -/
def maybeShutdownServer (trigger : τ) : WebhookAdapter τ π :=
  if s.activeCount = 0 then
    match s.server with
    | some server => { s with server := none }.called trigger .stop (.awaitsStop server)
    | none => s.called trigger .stop .ok
  else s.called trigger .stop .ok

def start (trigger : τ) : WebhookAdapter τ π :=
  if s.started trigger then s.called trigger .start .ok
  -- the path is another trigger's
  else if path trigger ∈ s.routes.map Prod.fst then s.called trigger .start .failed
  else
    { s with
      started := Function.update s.started trigger true
      routes := s.routes ++ [(path trigger, trigger)]
      activeCount := s.activeCount + 1 }.ensureServer trigger

def stop (trigger : τ) : WebhookAdapter τ π :=
  if s.started trigger then
    { s with
      started := Function.update s.started trigger false
      routes := s.routes.filter (·.1 ≠ path trigger)
      activeCount := s.activeCount - 1 }.maybeShutdownServer trigger
  else s.called trigger .stop .ok

end WebhookAdapter

def webhookStep (s : WebhookAdapter τ π) : WebhookLabel τ → Option (WebhookAdapter τ π)
  | .start trigger => some (s.start path trigger)
  | .stop trigger => some (s.stop path trigger)
  | .listened =>
    if s.startingServer then
      some { s with
        server := some s.nextServer
        startingServer := false
        listening := s.listening ++ [s.nextServer]
        nextServer := s.nextServer + 1
        calls := settleCalls .awaitsListen .ok s.calls }
    else none
  | .listenFailed =>
    if s.startingServer then
      some { s with
        startingServer := false
        calls := settleCalls .awaitsListen .failed s.calls }
    else none
  | .stopped server =>
    if .awaitsStop server ∈ s.calls.map (·.outcome) then
      some { s with
        listening := s.listening.filter (· ≠ server)
        calls := settleCalls (.awaitsStop server) .ok s.calls }
    else none
  | .stopFailed server closed =>
    if .awaitsStop server ∈ s.calls.map (·.outcome) then
      some { s with
        listening := if closed then s.listening.filter (· ≠ server) else s.listening
        calls := settleCalls (.awaitsStop server) .failed s.calls }
    else none

/-! ### What is to hold -/

/-- The last call of a trigger with an outcome that is accepted. -/
def lastCall (accepts : CallOutcome → Bool) (trigger : τ) (calls : List (TriggerCall τ)) :
    Option (TriggerCall τ) :=
  (calls.filter fun call => call.trigger = trigger && accepts call.outcome).getLast?

namespace WebhookAdapter
variable (s : WebhookAdapter τ π)

/-- The last successful operation of the trigger was `start`. -/
def Up (trigger : τ) : Prop :=
  (lastCall (· = .ok) trigger s.calls).map (·.op) = some .start

/-- No call waits. -/
def Settled : Prop := ∀ call ∈ s.calls, call.outcome.pending = false

/-- One server is open when a trigger is up and none else, the routes are those of the triggers
that are up, and a start that failed is not taken for one that succeeded. -/
structure Lifecycle : Prop where
  one : ∀ i ∈ s.listening, ∀ j ∈ s.listening, i = j
  listens : (∃ i, i ∈ s.listening) ↔ ∃ trigger, s.Up trigger
  routes : ∀ p trigger, (p, trigger) ∈ s.routes ↔ s.Up trigger ∧ path trigger = p
  retry : ∀ trigger call, lastCall (fun _ => true) trigger s.calls = some call →
    call.op = .start → call.outcome = .failed → s.started trigger = false

end WebhookAdapter

/-- Nothing fails, and no `listen()` is over while no trigger is active. -/
def Undisturbed (s : WebhookAdapter τ π) : WebhookLabel τ → Prop
  | .listened => s.activeCount ≠ 0
  | .listenFailed | .stopFailed _ _ => False
  | .start _ | .stop _ | .stopped _ => True

/-! ### The calls of a trigger -/

omit [DecidableEq π] in
theorem lastCall_append (accepts : CallOutcome → Bool) (trigger : τ) (calls : List (TriggerCall τ))
    (call : TriggerCall τ) :
    lastCall accepts trigger (calls ++ [call]) =
      if call.trigger = trigger ∧ accepts call.outcome = true then some call
      else lastCall accepts trigger calls := by
  unfold lastCall
  rw [List.filter_append]
  by_cases h : call.trigger = trigger ∧ accepts call.outcome = true
  · simp [h]
  · have hnot : (decide (call.trigger = trigger) && accepts call.outcome) = false := by
      simpa [Bool.and_eq_false_iff, Classical.or_iff_not_imp_left] using h
    rw [if_neg h]
    simp [hnot]

/-- Settling changes no call but in its outcome. -/
theorem lastCall_settleCalls {accepts : CallOutcome → Bool} {awaits outcome : CallOutcome}
    (h : accepts outcome = accepts awaits) (trigger : τ) (calls : List (TriggerCall τ)) :
    lastCall accepts trigger (settleCalls awaits outcome calls) =
      (lastCall accepts trigger calls).map fun call =>
        if call.outcome = awaits then { call with outcome := outcome } else call := by
  unfold lastCall settleCalls
  rw [List.filter_map, List.getLast?_map]
  congr 2
  refine List.filter_congr fun call _ => ?_
  simp only [Function.comp_apply]
  split
  · rename_i hawaits
    rw [hawaits, h]
  · rfl

def notFailed (outcome : CallOutcome) : Bool := outcome ≠ .failed

/-- A trigger is started when its last call that has not failed is a start, and is not when its
last call is a start that failed. -/
structure CallsKept (started : τ → Bool) (calls : List (TriggerCall τ)) : Prop where
  up : ∀ trigger, started trigger = true ↔
    (lastCall notFailed trigger calls).map (·.op) = some .start
  retry : ∀ trigger call, lastCall (fun _ => true) trigger calls = some call → call.op = .start →
    call.outcome = .failed → started trigger = false

section
variable {started : τ → Bool} {calls : List (TriggerCall τ)}

theorem CallsKept.append (h : CallsKept started calls) {trigger : τ} {op : TriggerOp}
    {outcome : CallOutcome} {started' : τ → Bool}
    (hothers : ∀ other, other ≠ trigger → started' other = started other)
    (hdone : outcome ≠ .failed → (started' trigger = true ↔ op = .start))
    (hfailed : outcome = .failed → started' trigger = false ∧ started trigger = false) :
    CallsKept started' (calls ++ [⟨trigger, op, outcome⟩]) := by
  constructor
  · intro other
    rw [lastCall_append]
    by_cases hother : other = trigger
    · subst hother
      by_cases hoc : outcome = .failed
      · have hskip : ¬ (other = other ∧ notFailed outcome = true) := by simp [notFailed, hoc]
        rw [if_neg hskip, ← h.up, (hfailed hoc).1, (hfailed hoc).2]
      · have htake : other = other ∧ notFailed outcome = true := ⟨rfl, by simp [notFailed, hoc]⟩
        rw [if_pos htake, hdone hoc]
        simp
    · rw [if_neg fun hs => hother hs.1.symm, hothers other hother]
      exact h.up other
  · intro other call hlast hop hoc
    rw [lastCall_append] at hlast
    by_cases hother : other = trigger
    · subst hother
      rw [if_pos ⟨rfl, rfl⟩] at hlast
      obtain rfl := Option.some.inj hlast
      exact (hfailed hoc).1
    · rw [if_neg fun hs => hother hs.1.symm] at hlast
      rw [hothers other hother]
      exact h.retry other call hlast hop hoc

theorem CallsKept.settle (h : CallsKept started calls) {awaits : CallOutcome}
    (hawaits : awaits ≠ .failed) : CallsKept started (settleCalls awaits .ok calls) := by
  constructor
  · intro trigger
    have hsame : notFailed .ok = notFailed awaits := by simp [notFailed, hawaits]
    rw [h.up, lastCall_settleCalls hsame, Option.map_map]
    have hop : (fun call : TriggerCall τ => call.op) ∘ (fun call =>
        if call.outcome = awaits then { call with outcome := .ok } else call) = (·.op) := by
      funext call
      simp only [Function.comp_apply]
      split <;> rfl
    rw [hop]
  · intro trigger call hlast hop hoc
    have hall : (fun _ : CallOutcome => true) .ok = (fun _ => true) awaits := rfl
    rw [lastCall_settleCalls hall] at hlast
    obtain ⟨before, hbefore, rfl⟩ := Option.map_eq_some_iff.mp hlast
    by_cases hb : before.outcome = awaits
    · rw [if_pos hb] at hoc
      cases hoc
    · rw [if_neg hb] at hop hoc
      exact h.retry trigger before hbefore hop hoc

end

omit [DecidableEq τ] in
theorem mem_settleCalls {awaits outcome other : CallOutcome} {calls : List (TriggerCall τ)}
    (hne : other ≠ outcome) :
    other ∈ (settleCalls awaits outcome calls).map (·.outcome) ↔
      other ≠ awaits ∧ other ∈ calls.map (·.outcome) := by
  unfold settleCalls
  simp only [List.mem_map, exists_exists_and_eq_and]
  constructor
  · rintro ⟨call, hcall, hoc⟩
    split at hoc
    · exact absurd hoc.symm hne
    · rename_i hnot
      exact ⟨fun h => hnot (hoc.trans h), call, hcall, hoc⟩
  · rintro ⟨hnot, call, hcall, hoc⟩
    refine ⟨call, hcall, ?_⟩
    rw [if_neg fun h => hnot (hoc.symm.trans h)]
    exact hoc

/-! ### What a run keeps -/

/-- The server is there, or listened for, exactly while triggers are active, and the open servers
are that one and those that are being stopped. -/
structure AdapterKept (s : WebhookAdapter τ π) : Prop where
  calls : CallsKept s.started s.calls
  active : s.activeCount = s.routes.length
  paths : (s.routes.map Prod.fst).Nodup
  routes : ∀ p trigger, (p, trigger) ∈ s.routes ↔ s.started trigger = true ∧ path trigger = p
  served : s.activeCount ≠ 0 → s.server = none → s.startingServer = true
  idle : s.activeCount = 0 → s.server = none
  alone : s.startingServer = true → s.server = none
  awaited : s.startingServer = true → .awaitsListen ∈ s.calls.map (·.outcome)
  listening : ∀ i, i ∈ s.listening ↔
    s.server = some i ∨ .awaitsStop i ∈ s.calls.map (·.outcome)
  stopping : ∀ i, .awaitsStop i ∈ s.calls.map (·.outcome) → s.server ≠ some i
  fresh : ∀ i ∈ s.listening, i < s.nextServer

variable {path} {s t : WebhookAdapter τ π} {trigger : τ} {label : WebhookLabel τ}

omit [DecidableEq τ] [DecidableEq π] in
theorem mem_called {op : TriggerOp} {outcome other : CallOutcome} :
    other ∈ (s.called trigger op outcome).calls.map (·.outcome) ↔
      other ∈ s.calls.map (·.outcome) ∨ other = outcome := by
  unfold WebhookAdapter.called
  rw [List.map_append, List.mem_append]
  exact or_congr_right List.mem_singleton

omit [DecidableEq τ] [DecidableEq π] in
/-- A call that does not wait for a server to stop. -/
theorem stops_called {op : TriggerOp} {outcome : CallOutcome} (h : ∀ i, outcome ≠ .awaitsStop i)
    (i : Nat) : .awaitsStop i ∈ (s.called trigger op outcome).calls.map (·.outcome) ↔
      .awaitsStop i ∈ s.calls.map (·.outcome) := by
  rw [mem_called]
  exact or_iff_left fun hoc => h i hoc.symm

namespace AdapterKept

omit [DecidableEq π] in
/-- A call that changes nothing. -/
theorem called (h : AdapterKept path s) {op : TriggerOp} {outcome : CallOutcome}
    (hcalls : CallsKept s.started (s.calls ++ [⟨trigger, op, outcome⟩]))
    (hpending : outcome.pending = false) : AdapterKept path (s.called trigger op outcome) := by
  have hsame : ∀ i, .awaitsStop i ∈ (s.called trigger op outcome).calls.map (·.outcome) ↔
      .awaitsStop i ∈ s.calls.map (·.outcome) := by
    refine stops_called ?_
    rintro i rfl
    cases hpending
  exact
    { h with
      calls := hcalls
      awaited := fun hs => mem_called.mpr (.inl (h.awaited hs))
      listening := fun i => (h.listening i).trans (or_congr_right (hsame i).symm)
      stopping := fun i hi => h.stopping i ((hsame i).mp hi) }

omit [DecidableEq π] in
/-- The routes with that of a trigger that is started. -/
theorem routes_start (h : AdapterKept path s) (hstopped : ¬ s.started trigger = true)
    (hfree : path trigger ∉ s.routes.map Prod.fst) :
    ((s.routes ++ [(path trigger, trigger)]).map Prod.fst).Nodup ∧
      ∀ p other, (p, other) ∈ s.routes ++ [(path trigger, trigger)] ↔
        Function.update s.started trigger true other = true ∧ path other = p := by
  constructor
  · rw [List.map_append]
    refine h.paths.append (List.nodup_singleton _) ?_
    intro p hp hnew
    rw [List.mem_singleton.mp hnew] at hp
    exact hfree hp
  · intro p other
    rw [List.mem_append, h.routes, List.mem_singleton]
    by_cases hother : other = trigger
    · subst hother
      simp [hstopped, eq_comm]
    · simp [hother]

/-- The routes without that of a trigger that is stopped. -/
theorem routes_stop (h : AdapterKept path s) (hstarted : s.started trigger = true) :
    (∀ p other, (p, other) ∈ s.routes.filter (·.1 ≠ path trigger) ↔
      Function.update s.started trigger false other = true ∧ path other = p) ∧
    (s.routes.filter (·.1 ≠ path trigger)).length + 1 = s.routes.length := by
  have hroute : (path trigger, trigger) ∈ s.routes := (h.routes _ _).mpr ⟨hstarted, rfl⟩
  constructor
  · intro p other
    rw [List.mem_filter, h.routes]
    by_cases hother : other = trigger
    · subst hother
      simp only [Function.update_self, decide_eq_true_eq]
      constructor
      · rintro ⟨⟨-, hp⟩, hne⟩
        exact absurd hp.symm hne
      · rintro ⟨hfalse, -⟩
        cases hfalse
    · simp only [Function.update_of_ne hother, decide_eq_true_eq]
      refine ⟨And.left, fun hs => ⟨hs, fun hp => hother ?_⟩⟩
      -- two routes at one path are one
      have hmine : (p, other) ∈ s.routes := (h.routes _ _).mpr hs
      exact congrArg Prod.snd (List.inj_on_of_nodup_map h.paths hmine hroute hp)
  · have hone : s.routes.countP (fun route => decide (route.1 = path trigger)) = 1 := by
      have hcount := List.count_eq_one_of_mem h.paths (List.mem_map_of_mem hroute)
      rw [List.count, List.countP_map] at hcount
      rw [← hcount]
      refine List.countP_congr fun route _ => ?_
      simp
    have hsplit := s.routes.length_eq_countP_add_countP fun route => decide (route.1 = path trigger)
    rw [hone, List.countP_eq_length_filter] at hsplit
    rw [hsplit, Nat.add_comm]
    congr 3
    funext route
    simp

theorem start (h : AdapterKept path s) (trigger : τ) : AdapterKept path (s.start path trigger) := by
  unfold WebhookAdapter.start
  split
  · rename_i hstarted
    exact h.called (h.calls.append (fun _ _ => rfl) (fun _ => iff_of_true hstarted rfl) nofun) rfl
  · rename_i hstopped
    split
    · refine h.called (h.calls.append (fun _ _ => rfl) (fun hne => absurd rfl hne) fun _ => ?_) rfl
      exact ⟨Bool.eq_false_iff.mpr hstopped, Bool.eq_false_iff.mpr hstopped⟩
    · rename_i hfree
      obtain ⟨hpaths, hroutes⟩ := h.routes_start hstopped hfree
      have hactive : s.activeCount + 1 = (s.routes ++ [(path trigger, trigger)]).length := by
        rw [List.length_append, h.active]
        rfl
      have hcalls : ∀ {outcome : CallOutcome}, outcome ≠ .failed →
          CallsKept (Function.update s.started trigger true)
            (s.calls ++ [⟨trigger, .start, outcome⟩]) := by
        intro outcome hne
        refine h.calls.append (fun other hother => Function.update_of_ne hother ..)
          (fun _ => iff_of_true (Function.update_self ..) rfl) fun hoc => absurd hoc hne
      have hok : ∀ (i : Nat), .awaitsStop i ∈
          (s.called trigger .start .ok).calls.map (·.outcome) ↔
            .awaitsStop i ∈ s.calls.map (·.outcome) := stops_called fun _ => nofun
      have hwaits : ∀ (i : Nat), .awaitsStop i ∈
          (s.called trigger .start .awaitsListen).calls.map (·.outcome) ↔
            .awaitsStop i ∈ s.calls.map (·.outcome) := stops_called fun _ => nofun
      unfold WebhookAdapter.ensureServer
      split
      · rename_i server hserver
        exact
          { calls := hcalls nofun
            active := hactive
            paths := hpaths
            routes := hroutes
            served := fun _ hnone => absurd (hserver.symm.trans hnone) nofun
            idle := fun hzero => absurd hzero (Nat.succ_ne_zero _)
            alone := h.alone
            awaited := fun hs => mem_called.mpr (.inl (h.awaited hs))
            listening := fun i => (h.listening i).trans (or_congr_right (hok i).symm)
            stopping := fun i hi => h.stopping i ((hok i).mp hi)
            fresh := h.fresh }
      · rename_i hnone
        exact
          { calls := hcalls nofun
            active := hactive
            paths := hpaths
            routes := hroutes
            served := fun _ _ => rfl
            idle := fun hzero => absurd hzero (Nat.succ_ne_zero _)
            alone := fun _ => hnone
            awaited := fun _ => mem_called.mpr (.inr rfl)
            listening := fun i => (h.listening i).trans (or_congr_right (hwaits i).symm)
            stopping := fun i hi => h.stopping i ((hwaits i).mp hi)
            fresh := h.fresh }

theorem stop (h : AdapterKept path s) (trigger : τ) : AdapterKept path (s.stop path trigger) := by
  unfold WebhookAdapter.stop
  split
  · rename_i hstarted
    obtain ⟨hroutes, hlength⟩ := h.routes_stop hstarted
    have hactive : s.activeCount - 1 = (s.routes.filter (·.1 ≠ path trigger)).length := by
      rw [h.active, ← hlength]
      rfl
    have hpaths : ((s.routes.filter (·.1 ≠ path trigger)).map Prod.fst).Nodup :=
      h.paths.sublist (List.filter_sublist.map Prod.fst)
    have hcalls : ∀ {outcome : CallOutcome}, outcome ≠ .failed →
        CallsKept (Function.update s.started trigger false)
          (s.calls ++ [⟨trigger, .stop, outcome⟩]) := by
      intro outcome hne
      refine h.calls.append (fun other hother => Function.update_of_ne hother ..) (fun _ => ?_)
        fun hoc => absurd hoc hne
      rw [Function.update_self]
      exact iff_of_false Bool.false_ne_true nofun
    have hsame : ∀ (i : Nat), .awaitsStop i ∈ (s.called trigger .stop .ok).calls.map (·.outcome) ↔
        .awaitsStop i ∈ s.calls.map (·.outcome) := stops_called fun _ => nofun
    unfold WebhookAdapter.maybeShutdownServer
    dsimp only
    split
    · rename_i hzero
      split
      · rename_i server hserver
        -- the server is the one that is being stopped from now on
        have hstops : ∀ i, .awaitsStop i ∈
              (s.called trigger .stop (.awaitsStop server)).calls.map (·.outcome) ↔
            .awaitsStop i ∈ s.calls.map (·.outcome) ∨ i = server := by
          intro i
          rw [mem_called]
          exact or_congr_right ⟨CallOutcome.awaitsStop.inj, congrArg _⟩
        exact
          { calls := hcalls nofun
            active := hactive
            paths := hpaths
            routes := hroutes
            served := fun hne => absurd hzero hne
            idle := fun _ => rfl
            alone := fun _ => rfl
            awaited := fun hs => mem_called.mpr (.inl (h.awaited hs))
            listening := fun i => by
              refine (h.listening i).trans ?_
              rw [hserver]
              refine Iff.trans ?_ (or_iff_right nofun).symm
              refine Iff.trans ?_ (hstops i).symm
              rw [Option.some.injEq, or_comm, eq_comm]
            stopping := fun _ _ => nofun
            fresh := h.fresh }
      · rename_i hnone
        exact
          { calls := hcalls nofun
            active := hactive
            paths := hpaths
            routes := hroutes
            served := fun hne => absurd hzero hne
            idle := fun _ => hnone
            alone := h.alone
            awaited := fun hs => mem_called.mpr (.inl (h.awaited hs))
            listening := fun i => (h.listening i).trans (or_congr_right (hsame i).symm)
            stopping := fun i hi => h.stopping i ((hsame i).mp hi)
            fresh := h.fresh }
    · rename_i hne
      have hsome : s.activeCount ≠ 0 := fun hzero => hne (by rw [hzero])
      exact
        { calls := hcalls nofun
          active := hactive
          paths := hpaths
          routes := hroutes
          served := fun _ => h.served hsome
          idle := fun hzero => absurd hzero hne
          alone := h.alone
          awaited := fun hs => mem_called.mpr (.inl (h.awaited hs))
          listening := fun i => (h.listening i).trans (or_congr_right (hsame i).symm)
          stopping := fun i hi => h.stopping i ((hsame i).mp hi)
          fresh := h.fresh }
  · rename_i hstopped
    exact h.called
      (h.calls.append (fun _ _ => rfl) (fun _ => iff_of_false hstopped nofun) nofun) rfl

omit [DecidableEq π] in
theorem listened (h : AdapterKept path s) (hactive : s.activeCount ≠ 0)
    (hpending : s.startingServer = true) :
    AdapterKept path
      { s with
        server := some s.nextServer
        startingServer := false
        listening := s.listening ++ [s.nextServer]
        nextServer := s.nextServer + 1
        calls := settleCalls .awaitsListen .ok s.calls } := by
  have hnone := h.alone hpending
  have hsame : ∀ i, .awaitsStop i ∈ (settleCalls .awaitsListen .ok s.calls).map (·.outcome) ↔
      .awaitsStop i ∈ s.calls.map (·.outcome) := by
    intro i
    refine (mem_settleCalls ?_).trans (and_iff_right ?_)
    · exact nofun
    · exact nofun
  exact
    { calls := h.calls.settle nofun
      active := h.active
      paths := h.paths
      routes := h.routes
      served := fun _ => nofun
      idle := fun hzero => absurd hzero hactive
      alone := nofun
      awaited := nofun
      listening := by
        intro i
        rw [List.mem_append, h.listening, hsame, hnone, List.mem_singleton, or_comm]
        exact or_congr (eq_comm.trans (Option.some.injEq ..).symm.to_iff) (or_iff_right nofun)
      stopping := by
        rintro i hi ⟨⟩
        -- a server that is being stopped is an earlier one
        have hopen := (h.listening s.nextServer).mpr (.inr ((hsame _).mp hi))
        exact Nat.lt_irrefl _ (h.fresh _ hopen)
      fresh := by
        intro i hi
        rcases List.mem_append.mp hi with hi | hi
        · exact Nat.lt_succ_of_lt (h.fresh i hi)
        · rw [List.mem_singleton.mp hi]
          exact Nat.lt_succ_self _ }

omit [DecidableEq π] in
theorem stopped (h : AdapterKept path s) {server : Nat}
    (hstops : .awaitsStop server ∈ s.calls.map (·.outcome)) :
    AdapterKept path
      { s with
        listening := s.listening.filter (· ≠ server)
        calls := settleCalls (.awaitsStop server) .ok s.calls } := by
  have hsame : ∀ i, .awaitsStop i ∈ (settleCalls (.awaitsStop server) .ok s.calls).map (·.outcome) ↔
      i ≠ server ∧ .awaitsStop i ∈ s.calls.map (·.outcome) := by
    intro i
    refine (mem_settleCalls ?_).trans
      (and_congr_left' (not_congr ⟨CallOutcome.awaitsStop.inj, congrArg _⟩))
    exact nofun
  exact
    { calls := h.calls.settle nofun
      active := h.active
      paths := h.paths
      routes := h.routes
      served := h.served
      idle := h.idle
      alone := h.alone
      awaited := by
        intro hs
        refine (mem_settleCalls ?_).mpr ⟨?_, h.awaited hs⟩
        · exact nofun
        · exact nofun
      listening := by
        intro i
        rw [List.mem_filter, h.listening, hsame, decide_eq_true_eq]
        constructor
        · rintro ⟨hi | hi, hne⟩
          · exact .inl hi
          · exact .inr ⟨hne, hi⟩
        · rintro (hi | ⟨hne, hi⟩)
          · refine ⟨.inl hi, ?_⟩
            rintro rfl
            exact h.stopping i hstops hi
          · exact ⟨.inr hi, hne⟩
      stopping := fun i hi => h.stopping i ((hsame i).mp hi).2
      fresh := fun i hi => h.fresh i (List.mem_filter.mp hi).1 }

theorem step (h : AdapterKept path s) (hquiet : Undisturbed s label)
    (hstep : webhookStep path s label = some t) : AdapterKept path t := by
  cases label with
  | start trigger =>
    obtain rfl := Option.some.inj hstep
    exact h.start trigger
  | stop trigger =>
    obtain rfl := Option.some.inj hstep
    exact h.stop trigger
  | listened =>
    simp only [webhookStep] at hstep
    split at hstep
    · rename_i hpending
      obtain rfl := Option.some.inj hstep
      exact h.listened hquiet hpending
    · cases hstep
  | stopped server =>
    simp only [webhookStep] at hstep
    split at hstep
    · rename_i hstops
      obtain rfl := Option.some.inj hstep
      exact h.stopped hstops
    · cases hstep
  | listenFailed => exact hquiet.elim
  | stopFailed server closed => exact hquiet.elim

omit [DecidableEq π] in
/-- When no call waits, the triggers that are up are the started ones. -/
theorem up_iff (h : AdapterKept path s) (hsettled : s.Settled) (trigger : τ) :
    s.Up trigger ↔ s.started trigger = true := by
  unfold WebhookAdapter.Up
  rw [h.calls.up]
  have hsame : lastCall (· = .ok) trigger s.calls = lastCall notFailed trigger s.calls := by
    unfold lastCall
    congr 1
    refine List.filter_congr fun call hcall => ?_
    have hdone := hsettled call hcall
    cases hoc : call.outcome with
    | ok => rfl
    | failed => rfl
    | awaitsListen => rw [hoc] at hdone; cases hdone
    | awaitsStop server => rw [hoc] at hdone; cases hdone
  rw [hsame]

theorem lifecycle (h : AdapterKept path s) (hsettled : s.Settled) : s.Lifecycle path := by
  have hnone : ∀ {outcome : CallOutcome}, outcome.pending = true →
      outcome ∉ s.calls.map (·.outcome) := by
    intro outcome hpending hmem
    obtain ⟨call, hcall, rfl⟩ := List.mem_map.mp hmem
    rw [hsettled call hcall] at hpending
    cases hpending
  have hserver : ∀ i, i ∈ s.listening ↔ s.server = some i := fun i =>
    (h.listening i).trans (or_iff_left (hnone rfl))
  have hstarting : s.startingServer = false := by
    by_contra hs
    exact hnone rfl (h.awaited (Bool.not_eq_false _ ▸ hs))
  have hroute : ∀ p trigger, (p, trigger) ∈ s.routes ↔ s.Up trigger ∧ path trigger = p := by
    intro p trigger
    rw [h.routes, h.up_iff hsettled]
  have hactive : s.activeCount ≠ 0 ↔ ∃ trigger, s.Up trigger := by
    rw [h.active, ne_eq, List.length_eq_zero_iff]
    constructor
    · intro hne
      obtain ⟨⟨p, trigger⟩, hmem⟩ := List.exists_mem_of_ne_nil _ hne
      exact ⟨trigger, ((hroute p trigger).mp hmem).1⟩
    · rintro ⟨trigger, hup⟩ hnil
      have hmem := (hroute _ trigger).mpr ⟨hup, rfl⟩
      rw [hnil] at hmem
      cases hmem
  refine ⟨fun i hi j hj => ?_, ?_, hroute, h.calls.retry⟩
  · exact Option.some.inj (((hserver i).mp hi).symm.trans ((hserver j).mp hj))
  · rw [← hactive]
    constructor
    · rintro ⟨i, hi⟩ hzero
      cases (h.idle hzero).symm.trans ((hserver i).mp hi)
    · intro hne
      cases hs : s.server with
      | none =>
        rw [h.served hne hs] at hstarting
        cases hstarting
      | some i => exact ⟨i, (hserver i).mpr hs⟩

end AdapterKept

/-- **The server and the routes are those of the triggers that are up**, in each settled state of a
run in which nothing fails and no `listen()` is over while no trigger is active. -/
theorem lifecycle_of_run {labels : List (WebhookLabel τ)}
    (r : Run (webhookStep path) Undisturbed {} labels s) (hsettled : s.Settled) :
    s.Lifecycle path := by
  have hstart : AdapterKept path ({} : WebhookAdapter τ π) :=
    { calls := ⟨fun _ => iff_of_false Bool.false_ne_true nofun, fun _ _ => nofun⟩
      active := rfl
      paths := List.nodup_nil
      routes := fun _ _ => iff_of_false List.not_mem_nil fun h => Bool.false_ne_true h.1
      served := fun hne => absurd rfl hne
      idle := fun _ => rfl
      alone := nofun
      awaited := nofun
      listening := fun _ => iff_of_false List.not_mem_nil (by rintro (h | h) <;> cases h)
      stopping := fun _ _ => nofun
      fresh := fun _ hi => absurd hi List.not_mem_nil }
  have hkept : AdapterKept path s :=
    Run.invariant hstart (fun _ _ _ hs hquiet hstep => hs.step hquiet hstep) r
  exact hkept.lifecycle hsettled

instance : ∀ (s : WebhookAdapter τ π) (label : WebhookLabel τ), Decidable (Undisturbed s label)
  | s, .listened => inferInstanceAs (Decidable (s.activeCount ≠ 0))
  | _, .listenFailed | _, .stopFailed _ _ => .isFalse id
  | _, .start _ | _, .stop _ | _, .stopped _ => .isTrue trivial

instance (s : WebhookAdapter τ π) : Decidable s.Settled :=
  inferInstanceAs (Decidable (∀ call ∈ s.calls, call.outcome.pending = false))

end

/-- Two triggers share a server, which is stopped after the second and started anew. -/
theorem lifecycle_of_run_restarted :
    ∃ s : WebhookAdapter Bool Bool, Run (webhookStep id) Undisturbed {}
        [.start false, .start true, .listened, .stop false, .stop true, .start false, .stopped 0,
          .listened] s ∧
      s.listening = [1] ∧ s.Lifecycle id := by
  have hreplay : (exec (guarded (webhookStep id) Undisturbed) ({} : WebhookAdapter Bool Bool)
      [.start false, .start true, .listened, .stop false, .stop true, .start false, .stopped 0,
        .listened]).any (fun s => decide (s.listening = [1] ∧ s.Settled)) = true := by decide
  obtain ⟨s, r, hs⟩ := Run.of_replay hreplay
  obtain ⟨hlistening, hsettled⟩ := of_decide_eq_true hs
  exact ⟨s, r, hlistening, lifecycle_of_run r hsettled⟩

/-- A trigger that is stopped while its server is listened for leaves it open, and one whose server
could not be had counts as started, so that its next start is no start. -/
theorem server_leaks :
    (∃ s : WebhookAdapter Unit Unit,
      Run (webhookStep id) Any {} [.start (), .stop (), .listened] s ∧ s.Settled ∧
        s.listening = [0] ∧ ¬ s.Lifecycle id) ∧
    ∃ s : WebhookAdapter Unit Unit,
      Run (webhookStep id) Any {} [.start (), .listenFailed, .start ()] s ∧ s.Settled ∧
        s.listening = [] ∧ s.Up () ∧ ¬ s.Lifecycle id := by
  refine ⟨⟨_, .any_of_exec rfl, by decide, rfl, fun h => ?_⟩,
    ⟨_, .any_of_exec rfl, by decide, rfl, rfl, fun h => ?_⟩⟩
  · obtain ⟨trigger, hup⟩ := h.listens.mp ⟨0, List.mem_cons_self⟩
    cases hup
  · obtain ⟨i, hi⟩ := h.listens.mpr ⟨(), rfl⟩
    cases hi

end Declaragent.Sources

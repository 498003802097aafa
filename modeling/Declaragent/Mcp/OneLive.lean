import Declaragent.Mcp.Supervisor

/-!
# Mcp — one live client

A supervisor has at most one client that is not shut down, and at most one restart loop, in a run
in which no client fails once the factory has created it, `stop` comes while no loop drains or
boots, and a restart comes while no loop runs.  Each of the three is needed: a client that fails to
boot is never shut down, a loop that was draining or booting when `stop` came takes the state back
from it, and two loops boot a client each.

* `Undisturbed`: the condition.
* `Kept`: what such a run keeps.
* `oneLive_of_run`: in every state of such a run there is at most one live client.
-/

namespace Declaragent.Mcp
open Transition
open Events (CircuitBreaker)

variable {ι ρ : Type} {opts : SupervisorOptions ι} {s t : Supervisor ι ρ} {i : Nat}

/-- Whether a client is between its creation and the end of its boot. -/
def Phase.boots : Phase → Bool
  | .initializing _ | .listing _ => true
  | _ => false

/-- What `stop` may find a loop at. -/
def Phase.quiet : Phase → Bool
  | .tearing | .sleeping | .returned | .ended => true
  | _ => false

namespace Supervisor

/-- The factory has created the client, and nobody has called its `shutdown`. -/
def Live (s : Supervisor ι ρ) (c : Nat) : Prop :=
  c < s.nextClient ∧ (s.clients c).shutDown = false

/-- No client is being booted. -/
def Settled (s : Supervisor ι ρ) : Prop := ∀ i, (s.loops i).phase.boots = false

def Idle (s : Supervisor ι ρ) : Prop := ∀ i, (s.loops i).phase.running = false

/-- A restart begins a drain. -/
def begins (opts : SupervisorOptions ι) (s : Supervisor ι ρ) (now : Int) : Bool :=
  !s.stopped && decide (s.state ≠ .reconnecting) && decide (s.state ≠ .draining) &&
    (s.circuit.allow opts.circuit now).2.2

end Supervisor

open Supervisor

structure OneLive (s : Supervisor ι ρ) : Prop where
  client : s.Settled → ∀ c, s.Live c → s.client = some c
  loop : ∀ i j, (s.loops i).phase.running = true → (s.loops j).phase.running = true → i = j
  stopped : s.stopResolved = true → s.state = .stopped ∧ ∀ c, ¬ s.Live c

/-- No loop that has started still runs. -/
def NoneRuns (s : Supervisor ι ρ) : Prop :=
  ∀ i < s.nextLoop, (s.loops i).phase.running = false

def Undisturbed (opts : SupervisorOptions ι) (s : Supervisor ι ρ) : SupervisorLabel ι ρ → Prop
  | .stop _ => s.stopped = false → ∀ i < s.nextLoop, (s.loops i).phase.quiet = true
  | .initialized _ ok | .listed _ ok => ok = true
  | .exitRuns myGen _ now => myGen = s.generation → s.begins opts now = true → NoneRuns s
  | .pingAnswers currentGen ok now =>
    currentGen = s.generation → ok = false →
      opts.pingFailureThreshold.1 ≤ s.pingFailures + 1 → s.begins opts now = true → NoneRuns s
  | .probeRuns now => s.begins opts now = true → NoneRuns s
  | _ => True

/-! ### What a run keeps -/

/-- Every live client is the current one. -/
def Attached (s : Supervisor ι ρ) : Prop := ∀ c, s.Live c → s.client = some c

def Detached (s : Supervisor ι ρ) : Prop := s.client = none ∧ ∀ c, ¬ s.Live c

/-- What holds while the one loop that runs is there. -/
def Phase.Fits (s : Supervisor ι ρ) : Phase → Prop
  | .draining _ | .drained _ | .booted => s.stopped = false ∧ Attached s
  | .tearing | .sleeping => Detached s
  | .discarding | .failed => s.stopped = false ∧ Detached s
  | .initializing fresh | .listing fresh =>
    s.stopped = false ∧ s.client = none ∧ ∀ c, s.Live c → c = fresh
  | .returned | .ended => Attached s

structure Kept (s : Supervisor ι ρ) : Prop where
  fresh : ∀ i, s.nextLoop ≤ i → (s.loops i).phase = .ended
  loop : ∀ i j, (s.loops i).phase.running = true → (s.loops j).phase.running = true → i = j
  fits : ∀ i, (s.loops i).phase.running = true → (s.loops i).phase.Fits s
  idle : s.Idle → Attached s
  stopped : s.stopped = true → s.state = .stopped ∧ Detached s
  resolved : s.stopped = false → s.stopResolved = false ∧ s.stopping = .idle

theorem Detached.attached (h : Detached s) : Attached s := fun c hc => absurd hc (h.2 c)

theorem Phase.Fits.attached {phase : Phase} (h : phase.Fits s) (hboots : phase.boots = false) :
    Attached s := by
  cases phase with
  | draining active => exact h.2
  | drained overflow => exact h.2
  | booted => exact h.2
  | tearing => exact Detached.attached h
  | sleeping => exact Detached.attached h
  | discarding => exact h.2.attached
  | failed => exact h.2.attached
  | initializing fresh => cases hboots
  | listing fresh => cases hboots
  | returned => exact h
  | ended => exact h

theorem Kept.oneLive (h : Kept s) : OneLive s := by
  refine ⟨fun hsettled c hc => ?_, h.loop, fun hresolved => ?_⟩
  · by_cases hidle : s.Idle
    · exact h.idle hidle c hc
    · simp only [Idle, not_forall, Bool.not_eq_false] at hidle
      obtain ⟨i, hi⟩ := hidle
      exact (h.fits i hi).attached (hsettled i) c hc
  · cases hstopped : s.stopped with
    | false => exact absurd (hresolved.symm.trans (h.resolved hstopped).1) (by decide)
    | true =>
      obtain ⟨hstate, hdetached⟩ := h.stopped hstopped
      exact ⟨hstate, hdetached.2⟩

/-! ### Steps that leave the loops and the clients alone -/

/-- The two states have the same loops and the same clients. -/
structure SameLoops (s t : Supervisor ι ρ) : Prop where
  loops : t.loops = s.loops
  nextLoop : t.nextLoop = s.nextLoop
  clients : t.clients = s.clients
  nextClient : t.nextClient = s.nextClient
  client : t.client = s.client
  stopped : t.stopped = s.stopped

theorem SameLoops.live (h : SameLoops s t) (c : Nat) : t.Live c ↔ s.Live c := by
  rw [Live, Live, h.clients, h.nextClient]

theorem SameLoops.attached (h : SameLoops s t) : Attached t ↔ Attached s := by
  simp only [Attached, h.live, h.client]

theorem SameLoops.detached (h : SameLoops s t) : Detached t ↔ Detached s := by
  simp only [Detached, h.live, h.client]

theorem SameLoops.fits (h : SameLoops s t) (phase : Phase) : phase.Fits t ↔ phase.Fits s := by
  cases phase <;> simp only [Phase.Fits, h.attached, h.detached, h.live, h.client, h.stopped]

theorem Kept.same (h : Kept s) (hsame : SameLoops s t)
    (hstate : s.stopped = true → t.state = s.state)
    (hresolved : s.stopped = false → t.stopResolved = s.stopResolved ∧ t.stopping = s.stopping) :
    Kept t := by
  refine ⟨?_, ?_, fun i hi => ?_, fun hidle => ?_, fun hstopped => ?_, fun hstopped => ?_⟩
  · rw [hsame.loops, hsame.nextLoop]
    exact h.fresh
  · rw [hsame.loops]
    exact h.loop
  · rw [hsame.loops] at hi ⊢
    exact (hsame.fits _).mpr (h.fits i hi)
  · rw [Idle, hsame.loops] at hidle
    exact hsame.attached.mpr (h.idle hidle)
  · rw [hsame.stopped] at hstopped
    obtain ⟨hs, hdetached⟩ := h.stopped hstopped
    exact ⟨(hstate hstopped).trans hs, hsame.detached.mpr hdetached⟩
  · rw [hsame.stopped] at hstopped
    obtain ⟨hr, hstopping⟩ := hresolved hstopped
    rw [hr, hstopping]
    exact h.resolved hstopped

/-! ### Steps of the loop that runs -/

/-- A loop that runs is the only one. -/
theorem Kept.others (h : Kept s) (hi : (s.loops i).phase.running = true) (j : Nat) (hj : j ≠ i) :
    (s.loops j).phase.running = false := by
  by_contra hrun
  exact hj (h.loop j i (Bool.not_eq_false _ ▸ hrun) hi)

theorem Kept.lt_nextLoop (h : Kept s) (hi : (s.loops i).phase ≠ .ended) : i < s.nextLoop := by
  by_contra hle
  exact hi (h.fresh i (Nat.le_of_not_lt hle))

/-- The loop that runs, or one that starts while none does, goes to a phase that fits. -/
theorem Kept.only (h : Kept s) {loop : RestartLoop}
    (hothers : ∀ j, j ≠ i → (s.loops j).phase.running = false)
    (hi : i < t.nextLoop) (hnext : s.nextLoop ≤ t.nextLoop)
    (hloops : t.loops = Function.update s.loops i loop)
    (hstopped : t.stopped = s.stopped) (hfits : loop.phase.Fits t)
    (hstop : s.stopped = true → t.state = .stopped ∧ Detached t)
    (hresolved : t.stopResolved = s.stopResolved ∧ t.stopping = s.stopping) : Kept t := by
  have hself : t.loops i = loop := by rw [hloops, Function.update_self]
  have honly : ∀ j, (t.loops j).phase.running = true → j = i := by
    intro j hj
    by_contra hne
    rw [hloops, Function.update_of_ne hne, hothers j hne] at hj
    cases hj
  refine ⟨fun j hj => ?_, fun j k hj hk => (honly j hj).trans (honly k hk).symm, fun j hj => ?_,
    fun hidle => ?_, fun hs => hstop (hstopped ▸ hs), fun hs => ?_⟩
  · have hne : j ≠ i := fun he => Nat.lt_irrefl i (Nat.lt_of_lt_of_le hi (he ▸ hj))
    rw [hloops, Function.update_of_ne hne]
    exact h.fresh j (Nat.le_trans hnext hj)
  · obtain rfl := honly j hj
    rw [hself]
    exact hfits
  · have hphase := hidle i
    rw [hself] at hphase
    refine hfits.attached ?_
    cases hp : loop.phase with
    | initializing fresh => rw [hp] at hphase; cases hphase
    | listing fresh => rw [hp] at hphase; cases hphase
    | _ => rfl
  · rw [hresolved.1, hresolved.2]
    exact h.resolved (hstopped ▸ hs)

theorem Phase.ne_ended {phase : Phase} (h : phase.running = true) : phase ≠ .ended := by
  rintro rfl
  cases h

/-- Nothing but the loop changes, and what held of it fits what it goes on to. -/
theorem Kept.setLoop (h : Kept s) {loop : RestartLoop} (hi : (s.loops i).phase.running = true)
    (hfits : (s.loops i).phase.Fits s → loop.phase.Fits s) : Kept (s.setLoop i loop) := by
  have hsame : loop.phase.Fits (s.setLoop i loop) ↔ loop.phase.Fits s := by
    cases loop.phase <;> exact Iff.rfl
  exact h.only (h.others hi) (h.lt_nextLoop (Phase.ne_ended hi)) (Nat.le_refl _) rfl rfl
    (hsame.mpr (hfits (h.fits i hi))) h.stopped ⟨rfl, rfl⟩

theorem Kept.returnLoop (h : Kept s) (hi : (s.loops i).phase.running = true)
    (hboots : (s.loops i).phase.boots = false) : Kept (s.returnLoop i) := by
  refine h.setLoop hi fun hfits => ?_
  have hattached := hfits.attached hboots
  dsimp only
  split
  · exact hattached
  · exact hattached

theorem Kept.whileNotStopped (h : Kept s) (hi : (s.loops i).phase.running = true)
    (hdetached : Detached s) (hboots : (s.loops i).phase.boots = false) :
    Kept (s.whileNotStopped i) := by
  unfold Supervisor.whileNotStopped
  split
  · exact h.returnLoop hi hboots
  · exact h.setLoop hi fun _ => hdetached

theorem shutDown_of_update {clients : Nat → Client} {c d : Nat}
    (h : (shutdown clients (some d) c).shutDown = false) :
    c ≠ d ∧ (clients c).shutDown = false := by
  by_cases hc : c = d
  · subst hc
    rw [shutdown, Function.update_self] at h
    cases h
  · rw [shutdown, Function.update_of_ne hc] at h
    exact ⟨hc, h⟩

/-- What was attached is detached once the current client is shut down and gone. -/
theorem Attached.detach (h : Attached s) (hclients : t.clients = shutdown s.clients s.client)
    (hnext : t.nextClient = s.nextClient) (hclient : t.client = none) : Detached t := by
  refine ⟨hclient, fun c ⟨hlt, hlive⟩ => ?_⟩
  rw [hclients] at hlive
  cases hs : s.client with
  | none =>
    rw [hs] at hlive
    cases hs.symm.trans (h c ⟨hnext ▸ hlt, hlive⟩)
  | some dying =>
    rw [hs] at hlive
    obtain ⟨hne, hlive⟩ := shutDown_of_update hlive
    have hcurrent := h c ⟨hnext ▸ hlt, hlive⟩
    rw [hs] at hcurrent
    exact hne (Option.some.inj hcurrent).symm

theorem Kept.respawn (h : Kept s) {overflow : List Nat}
    (hphase : (s.loops i).phase = .drained overflow) : Kept (s.respawn opts i overflow) := by
  have hi : (s.loops i).phase.running = true := by rw [hphase]; rfl
  obtain ⟨hopen, hattached⟩ : s.stopped = false ∧ Attached s := by
    have hfits := h.fits i hi
    rwa [hphase] at hfits
  exact h.only (h.others hi) (h.lt_nextLoop (Phase.ne_ended hi)) (Nat.le_refl _) rfl rfl
    (hattached.detach rfl rfl rfl) (fun hs => absurd (hopen.symm.trans hs) (by decide)) ⟨rfl, rfl⟩

/-- The factory has created the next client. -/
theorem Kept.bootFreshClient (h : Kept s) (hphase : (s.loops i).phase = .sleeping)
    (hopen : s.stopped = false) : Kept (s.bootFreshClient i) := by
  have hi : (s.loops i).phase.running = true := by rw [hphase]; rfl
  have hdetached : Detached s := by
    have hfits := h.fits i hi
    rwa [hphase] at hfits
  refine h.only (h.others hi) (h.lt_nextLoop (Phase.ne_ended hi)) (Nat.le_refl _) rfl rfl ?_
    (fun hs => absurd (hopen.symm.trans hs) (by decide)) ⟨rfl, rfl⟩
  refine ⟨hopen, hdetached.1, fun c hc => ?_⟩
  by_contra hne
  obtain ⟨hlt, hlive⟩ := hc
  have hold : ((Function.update s.clients s.nextClient { generation := s.generation }) c).shutDown =
      false := hlive
  rw [Function.update_of_ne hne] at hold
  exact hdetached.2 c ⟨Nat.lt_of_le_of_ne (Nat.le_of_lt_succ hlt) hne, hold⟩

theorem Kept.wake (h : Kept s) (hphase : (s.loops i).phase = .sleeping) (created : Bool) :
    Kept (s.wake i created) := by
  have hi : (s.loops i).phase.running = true := by rw [hphase]; rfl
  unfold Supervisor.wake
  split
  · exact h.returnLoop hi (by rw [hphase]; rfl)
  · rename_i hstopped
    have hopen : s.stopped = false := Bool.eq_false_iff.mpr hstopped
    have hcounted : Kept { s with restarts := s.restarts ++ [(s.loops i).reason] } :=
      h.same ⟨rfl, rfl, rfl, rfl, rfl, rfl⟩ (fun _ => rfl) fun _ => ⟨rfl, rfl⟩
    split
    · exact hcounted.bootFreshClient hphase hopen
    · refine hcounted.setLoop hi fun hfits => ?_
      rw [hphase] at hfits
      exact ⟨hopen, hfits⟩

/-- The client that was booted becomes the current one, unless its generation is over. -/
theorem Kept.install (h : Kept s) {fresh : Nat} (hphase : (s.loops i).phase = .listing fresh) :
    Kept (s.install i fresh) := by
  have hi : (s.loops i).phase.running = true := by rw [hphase]; rfl
  obtain ⟨hopen, hnone, hlive⟩ :
      s.stopped = false ∧ s.client = none ∧ ∀ c, s.Live c → c = fresh := by
    have hfits := h.fits i hi
    rwa [hphase] at hfits
  have hlt := h.lt_nextLoop (Phase.ne_ended hi)
  have hstop : ∀ {t : Supervisor ι ρ}, s.stopped = true → t.state = .stopped ∧ Detached t :=
    fun hs => absurd (hopen.symm.trans hs) (by decide)
  unfold Supervisor.install
  split
  · refine h.only (h.others hi) hlt (Nat.le_refl _) rfl rfl ⟨hopen, fun c hc => ?_⟩ hstop ⟨rfl, rfl⟩
    rw [hlive c hc]
  · refine h.only (h.others hi) hlt (Nat.le_refl _) rfl rfl ⟨hopen, hnone, fun c hc => ?_⟩ hstop
      ⟨rfl, rfl⟩
    obtain ⟨hne, hold⟩ := shutDown_of_update hc.2
    exact hne (hlive c ⟨hc.1, hold⟩)

/-- Asking for the state of the circuit. -/
theorem Kept.allow (h : Kept s) (now : Int) : Kept (s.allow opts now).1 := by
  obtain ⟨probes, heq⟩ := allow_eq opts s now
  rw [heq]
  exact h.same ⟨rfl, rfl, rfl, rfl, rfl, rfl⟩ (fun _ => rfl) fun _ => ⟨rfl, rfl⟩

theorem Kept.catchBoot (h : Kept s) (hphase : (s.loops i).phase = .failed) (now : Int) :
    Kept (s.catchBoot opts i now) := by
  have hi : (s.loops i).phase.running = true := by rw [hphase]; rfl
  have hboots : (s.loops i).phase.boots = false := by rw [hphase]; rfl
  obtain ⟨hopen, hdetached⟩ : s.stopped = false ∧ Detached s := by
    have hfits := h.fits i hi
    rwa [hphase] at hfits
  -- the loop is at its next turn, whatever the circuit has become
  have hturn : ∀ (u : Supervisor ι ρ) (loop : RestartLoop), Kept u → u.loops = s.loops →
      Detached u → u.stopped = false → loop.phase = .failed →
      Kept ((u.setLoop i loop).whileNotStopped i) := by
    intro u loop hu hloops hdetached hopen hloop
    have hself : ((u.setLoop i loop).loops i).phase = .failed := by
      rw [← hloop]
      exact congrArg RestartLoop.phase (Function.update_self ..)
    have hset : Kept (u.setLoop i loop) := by
      refine hu.setLoop (by rw [hloops]; exact hi) fun _ => ?_
      rw [hloop]
      exact ⟨hopen, hdetached⟩
    exact hset.whileNotStopped (by rw [hself]; rfl) hdetached (by rw [hself]; rfl)
  unfold Supervisor.catchBoot
  dsimp only
  split
  · obtain ⟨circuit, probes, state, hrecord⟩ :=
      record_eq opts { s with consecutiveGiveUps := s.consecutiveGiveUps + 1 } now false
    rw [hrecord]
    generalize hu : ({ s with
      consecutiveGiveUps := s.consecutiveGiveUps + 1
      circuit
      probes
      state } : Supervisor ι ρ) = u
    have hrecorded : Kept u := by
      subst hu
      exact h.same ⟨rfl, rfl, rfl, rfl, rfl, rfl⟩
        (fun hs => absurd (hopen.symm.trans hs) (by decide)) fun _ => ⟨rfl, rfl⟩
    obtain ⟨probes', hallow⟩ := allow_eq opts u now
    have hasked : Kept (u.allow opts now).1 := hrecorded.allow now
    have hloops : (u.allow opts now).1.loops = s.loops := by rw [hallow, ← hu]
    have hopen' : (u.allow opts now).1.stopped = false := by rw [hallow, ← hu]; exact hopen
    have hdetached' : Detached (u.allow opts now).1 := by rw [hallow, ← hu]; exact hdetached
    generalize u.allow opts now = answer at hasked hloops hopen' hdetached'
    obtain ⟨v, ok⟩ := answer
    dsimp only
    split
    · exact hturn v _ hasked hloops hdetached' hopen' hphase
    · -- the circuit has opened, and the loop gives up
      have hset : Kept ((v.setLoop i { s.loops i with
          attempt := (s.loops i).attempt + 1
          reason := .initFailed }).setState .circuitOpen) := by
        refine Kept.same (hasked.setLoop (by rw [hloops]; exact hi) fun _ => ?_)
          ⟨rfl, rfl, rfl, rfl, rfl, rfl⟩ (fun hs => absurd (hopen'.symm.trans hs) (by decide))
          fun _ => ⟨rfl, rfl⟩
        rw [hphase]
        exact ⟨hopen', hdetached'⟩
      refine hset.returnLoop ?_ ?_
      · simp only [Supervisor.setState, Supervisor.setLoop, Function.update_self]
        exact hi
      · simp only [Supervisor.setState, Supervisor.setLoop, Function.update_self]
        exact hboots
  · exact hturn s _ h rfl hdetached hopen hphase

theorem Kept.continueLoop (h : Kept s) (hphase : (s.loops i).phase = .booted) (now : Int) :
    Kept (s.continueLoop opts i now) := by
  have hi : (s.loops i).phase.running = true := by rw [hphase]; rfl
  have hboots : (s.loops i).phase.boots = false := by rw [hphase]; rfl
  have hopen : s.stopped = false := by
    have hfits := h.fits i hi
    rw [hphase] at hfits
    exact hfits.1
  obtain ⟨circuit, probes, state, hrecord⟩ :=
    record_eq opts { s with consecutiveGiveUps := 0 } now true
  unfold Supervisor.continueLoop
  rw [hrecord]
  refine Kept.returnLoop ?_ hi hboots
  exact h.same ⟨rfl, rfl, rfl, rfl, rfl, rfl⟩
    (fun hs => absurd (hopen.symm.trans hs) (by decide)) fun _ => ⟨rfl, rfl⟩

/-- A loop that has returned ends. -/
theorem Kept.ends (h : Kept s) (hphase : (s.loops i).phase = .returned) :
    Kept (s.setPhase i .ended) := by
  have hrun : ∀ j, ((s.setPhase i .ended).loops j).phase.running =
      (s.loops j).phase.running := by
    intro j
    by_cases hj : j = i
    · subst hj
      rw [setPhase_self, hphase]
      rfl
    · rw [setPhase_of_ne s _ hj]
  refine ⟨fun j hj => ?_, fun j k hj hk => ?_, fun j hj => ?_, fun hidle => ?_, h.stopped,
    h.resolved⟩
  · have hne : j ≠ i := fun he =>
      absurd (h.lt_nextLoop (by rw [hphase]; exact nofun)) (Nat.not_lt.mpr (he ▸ hj))
    rw [setPhase_of_ne s _ hne]
    exact h.fresh j hj
  · rw [hrun] at hj hk
    exact h.loop j k hj hk
  · rw [hrun] at hj
    have hne : j ≠ i := by
      rintro rfl
      rw [hphase] at hj
      cases hj
    rw [setPhase_of_ne s _ hne]
    have hfits := h.fits j hj
    cases hp : (s.loops j).phase <;> rw [hp] at hfits <;> exact hfits
  · exact h.idle fun j => (hrun j).symm.trans (hidle j)

theorem Kept.resume (h : Kept s) (hphase : (s.loops i).phase = .returned) :
    Kept (s.resume opts i) := by
  unfold Supervisor.resume
  dsimp only
  split
  · exact (h.ends hphase).same ⟨rfl, rfl, rfl, rfl, rfl, rfl⟩ (fun _ => rfl) fun _ => ⟨rfl, rfl⟩
  · exact h.ends hphase

/-! ### Draining -/

theorem Kept.drained (h : Kept s) {active overflow : List Nat}
    (hphase : (s.loops i).phase = .draining active) :
    Kept { s.setPhase i (.drained overflow) with cancelActiveDrain := none } := by
  have hset : Kept (s.setPhase i (.drained overflow)) :=
    h.setLoop (by rw [hphase]; rfl) fun hfits => by rwa [hphase] at hfits
  exact hset.same ⟨rfl, rfl, rfl, rfl, rfl, rfl⟩ (fun _ => rfl) fun _ => ⟨rfl, rfl⟩

theorem Kept.endDrain (h : Kept s) (i : Nat) : Kept (s.endDrain i) := by
  unfold Supervisor.endDrain
  split
  · exact h.drained ‹_›
  · exact h

theorem Kept.cancelDrain (h : Kept s) : Kept s.cancelDrain := by
  unfold Supervisor.cancelDrain
  split
  · exact h.endDrain _
  · exact h

/-- A drain begins while no loop runs. -/
theorem Kept.beginDrain (h : Kept s) (hopen : s.stopped = false) (hidle : s.Idle)
    (reason : MCPRestartReason) : Kept (s.beginDrain opts reason) := by
  have hstop : ∀ {t : Supervisor ι ρ}, s.stopped = true → t.state = .stopped ∧ Detached t :=
    fun hs => absurd (hopen.symm.trans hs) (by decide)
  have hattached := h.idle hidle
  unfold Supervisor.beginDrain
  dsimp only
  split
  · exact h.only (fun j _ => hidle j) (Nat.lt_succ_self _) (Nat.le_succ _) rfl rfl
      ⟨hopen, hattached⟩ hstop ⟨rfl, rfl⟩
  · exact h.only (fun j _ => hidle j) (Nat.lt_succ_self _) (Nat.le_succ _) rfl rfl
      ⟨hopen, hattached⟩ hstop ⟨rfl, rfl⟩

theorem Kept.idle_of (h : Kept s) (hnone : NoneRuns s) : s.Idle := by
  intro i
  by_cases hi : i < s.nextLoop
  · exact hnone i hi
  · rw [h.fresh i (Nat.le_of_not_lt hi)]
    rfl

/-- A restart begins no drain while a loop runs. -/
theorem Kept.triggerRestart (h : Kept s) {now : Int} (reason : MCPRestartReason)
    (hnone : s.begins opts now = true → NoneRuns s) : Kept (s.triggerRestart opts now reason) := by
  cases hopen : s.stopped with
  | true =>
    rw [Supervisor.triggerRestart, hopen]
    exact h
  | false =>
    have hbegins : s.state ≠ .reconnecting → s.state ≠ .draining →
        Kept (if (s.allow opts now).2 then
            ((s.allow opts now).1.setState .draining).beginDrain opts reason
          else (s.allow opts now).1.setState .circuitOpen) := by
      intro hreconnecting hdraining
      obtain ⟨probes, hallow⟩ := allow_eq opts s now
      have hasked : ∀ state, Kept ((s.allow opts now).1.setState state) := by
        intro state
        rw [hallow]
        exact h.same ⟨rfl, rfl, rfl, rfl, rfl, rfl⟩
          (fun hs => absurd (hopen.symm.trans hs) (by decide)) fun _ => ⟨rfl, rfl⟩
      have hopen' : (s.allow opts now).1.stopped = false := by rw [hallow]; exact hopen
      have hloops : (s.allow opts now).1.loops = s.loops := by rw [hallow]
      split
      · rename_i hok
        have hb : s.begins opts now = true := by
          simp only [begins, hopen, Bool.not_false, Bool.true_and, ne_eq, hreconnecting,
            not_false_eq_true, decide_true, hdraining]
          exact hok
        refine (hasked .draining).beginDrain hopen' ?_ reason
        intro i
        exact (congrArg (fun loops : Nat → RestartLoop => (loops i).phase.running) hloops).trans
          (h.idle_of (hnone hb) i)
      · exact hasked .circuitOpen
    unfold Supervisor.triggerRestart
    rw [hopen]
    cases hstate : s.state with
    | reconnecting => exact h
    | draining => exact h.cancelDrain
    | starting => exact hbegins (by rw [hstate]; decide) (by rw [hstate]; decide)
    | ready => exact hbegins (by rw [hstate]; decide) (by rw [hstate]; decide)
    | circuitOpen => exact hbegins (by rw [hstate]; decide) (by rw [hstate]; decide)
    | stopped => exact hbegins (by rw [hstate]; decide) (by rw [hstate]; decide)

/-- A probe asks the circuit before it restarts. -/
theorem Kept.probe (h : Kept s) {now : Int} (hnone : s.begins opts now = true → NoneRuns s) :
    Kept (let (t, ok) := s.allow opts now
      if !ok then t
      else if t.state = .reconnecting then t
      else t.triggerRestart opts now .probe) := by
  obtain ⟨probes, hallow⟩ := allow_eq opts s now
  have hasked : Kept (s.allow opts now).1 := h.allow now
  dsimp only
  split
  · exact hasked
  · rename_i hok
    have hok : (s.circuit.allow opts.circuit now).2.2 = true := by
      cases hallowed : (s.circuit.allow opts.circuit now).2.2 with
      | true => rfl
      | false => exact absurd (congrArg not hallowed) hok
    split
    · exact hasked
    · refine hasked.triggerRestart _ fun hbegins => ?_
      rw [hallow] at hbegins ⊢
      simp only [begins, Bool.and_eq_true] at hbegins
      refine hnone ?_
      simp only [begins, Bool.and_eq_true]
      exact ⟨hbegins.1, hok⟩

/-! ### Start and stop -/

/-- Before `start` there is nothing that could begin a drain. -/
structure Unstarted (s : Supervisor ι ρ) : Prop where
  loops : ∀ i, (s.loops i).phase = .ended
  nextClient : s.nextClient = 0
  client : s.client = none
  circuit : s.circuit.state = .closed
  exits : s.exits = []
  pings : s.pings = []
  pingArmed : s.pingArmed = false
  probes : s.probes = 0
  cancelActiveDrain : s.cancelActiveDrain = none

theorem Unstarted.detached (h : Unstarted s) : Detached s :=
  ⟨h.client, fun c hc => absurd hc.1 (by rw [h.nextClient]; exact Nat.not_lt_zero c)⟩

theorem Kept.start (h : Kept s) (hun : s.started = false → Unstarted s) : Kept s.start := by
  unfold Supervisor.start
  split
  · exact h
  · rename_i hopen
    split
    · exact h
    · rename_i hstarted
      have hunstarted := hun (Bool.eq_false_iff.mpr hstarted)
      refine h.only (fun j _ => ?_) (Nat.lt_succ_self _) (Nat.le_succ _) rfl rfl
        hunstarted.detached (fun hs => absurd hs hopen) ⟨rfl, rfl⟩
      rw [hunstarted.loops j]
      rfl

/-- A loop that does not drain has nothing to cancel. -/
theorem endDrain_of_quiet (h : (s.loops i).phase.quiet = true) : s.endDrain i = s := by
  unfold Supervisor.endDrain
  cases hphase : (s.loops i).phase with
  | draining active => rw [hphase] at h; cases h
  | _ => rfl

theorem Kept.stop (h : Kept s) {now : Int}
    (hquiet : s.stopped = false → ∀ i < s.nextLoop, (s.loops i).phase.quiet = true) :
    Kept (s.stop opts now) := by
  unfold Supervisor.stop
  split
  · rename_i hstopped
    exact h.same ⟨rfl, rfl, rfl, rfl, rfl, rfl⟩ (fun _ => rfl)
      fun hopen => absurd (hstopped.symm.trans hopen) (by decide)
  · rename_i hopen
    have hopen := Bool.eq_false_iff.mpr hopen
    have hall : ∀ i, (s.loops i).phase.quiet = true := by
      intro i
      by_cases hi : i < s.nextLoop
      · exact hquiet hopen i hi
      · rw [h.fresh i (Nat.le_of_not_lt hi)]
        rfl
    have hattached : Attached s := by
      by_cases hidle : s.Idle
      · exact h.idle hidle
      · simp only [Idle, not_forall, Bool.not_eq_false] at hidle
        obtain ⟨i, hi⟩ := hidle
        refine (h.fits i hi).attached ?_
        have hi := hall i
        cases hphase : (s.loops i).phase with
        | initializing fresh => rw [hphase] at hi; cases hi
        | listing fresh => rw [hphase] at hi; cases hi
        | _ => rfl
    have hcancel : { s with stopped := true, pingArmed := false }.cancelDrain =
        { s with stopped := true, pingArmed := false } := by
      unfold Supervisor.cancelDrain
      split
      · exact endDrain_of_quiet (hall _)
      · rfl
    obtain ⟨circuit, probes, calls, hcalls⟩ :=
      rejectAll_eq opts ({ { s with stopped := true, pingArmed := false }.setState .stopped with
        client := none }.signalGenerationEnd s.generation) now
    rw [hcancel]
    dsimp only
    rw [hcalls]
    have hdetached : Detached
        ({ ({ { ({ s with stopped := true, pingArmed := false } : Supervisor ι ρ).setState
          .stopped with client := none }.signalGenerationEnd s.generation with
            circuit, probes, calls }.teardownClient s.client) with stopping := .tearing }) :=
      hattached.detach rfl rfl rfl
    refine ⟨h.fresh, h.loop, fun i hi => ?_, fun _ => hdetached.attached,
      fun _ => ⟨rfl, hdetached⟩, fun hfalse => nomatch hfalse⟩
    have hquiet := hall i
    cases hphase : (s.loops i).phase with
    | tearing => exact hphase ▸ hdetached
    | sleeping => exact hphase ▸ hdetached
    | returned => exact hphase ▸ hdetached.attached
    | ended => exact hphase ▸ hdetached.attached
    | _ => rw [hphase] at hquiet; cases hquiet

/-- Nothing but `start` starts. -/
theorem Unstarted.step {label : SupervisorLabel ι ρ} (h : Unstarted s)
    (hstep : supervisorStep opts s label = some t) (hstarted : t.started = false) :
    Unstarted t := by
  have hallow := fun now => allow_of_closed opts h.circuit now
  -- there is no loop yet that could be in another phase
  have hended : ∀ {i : Nat} {phase : Phase}, (s.loops i).phase = phase → phase = .ended := by
    intro i phase hphase
    rw [← hphase, h.loops]
  cases taken_of_step hstep with
  | start =>
    by_cases hstopped : s.stopped = true
    · rw [Supervisor.start, if_pos hstopped]
      exact h
    · by_cases hs : s.started = true
      · rw [Supervisor.start, if_neg hstopped, if_pos hs]
        exact h
      · rw [Supervisor.start, if_neg hstopped, if_neg hs] at hstarted
        cases hstarted
  | stop now =>
    unfold Supervisor.stop
    split
    · exact ⟨h.1, h.2, h.3, h.4, h.5, h.6, h.7, h.8, h.9⟩
    · have hcancel : { s with stopped := true, pingArmed := false }.cancelDrain =
          { s with stopped := true, pingArmed := false } := by
        rw [Supervisor.cancelDrain, h.cancelActiveDrain]
      have hclosed : ({ ({ s with stopped := true, pingArmed := false } : Supervisor ι ρ).setState
          .stopped with client := none }.signalGenerationEnd s.generation).circuit.state =
            .closed := h.circuit
      rw [hcancel]
      dsimp only [Supervisor.rejectAll]
      rw [allow_of_closed opts hclosed now, ite_self, h.client]
      exact ⟨h.1, h.2, rfl, h.4, h.5, h.6, rfl, h.8, h.9⟩
  | asks now =>
    rw [hallow]
    exact h
  | drainSettles hphase _ | drainTimesOut hphase | respawns hphase | tornDown hphase
  | wakes hphase _ | initialized hphase _ | listed hphase _ | discarded hphase
  | catches hphase _ | continues hphase _ | resumes hphase => cases hended hphase
  | exits hc reason => exact absurd (h.nextClient ▸ hc) (Nat.not_lt_zero _)
  | exitRuns hmem now => exact absurd (h.exits ▸ hmem) List.not_mem_nil
  | pingFires harmed => exact absurd harmed (by rw [h.pingArmed]; decide)
  | pingAnswers hmem | pingFails hmem => exact absurd (h.pings ▸ hmem) List.not_mem_nil
  | probeStops hprobes | probeRuns hprobes =>
    exact absurd (h.probes ▸ hprobes) (Nat.lt_irrefl _)
  | callTool toolName input taken now =>
    obtain ⟨calls, nextCallId, heq | heq⟩ := callTool_eq opts s toolName input taken now
    · rw [heq, hallow]
      exact ⟨h.1, h.2, h.3, h.4, h.5, h.6, h.7, h.8, h.9⟩
    · rw [heq]
      exact h
  | raceRuns hcall hruns =>
    obtain ⟨calls, rfl | rfl⟩ := raceRuns_eq hruns
    · exact ⟨h.1, h.2, h.3, h.4, h.5, h.6, h.7, h.8, h.9⟩
    · rw [hallow]
      exact ⟨h.1, h.2, h.3, h.4, h.5, h.6, h.7, h.8, h.9⟩
  | stopTornDown _ | stopResolves _ _ | answers _ _ _ | reissueAnswers _ _ _ =>
    exact ⟨h.1, h.2, h.3, h.4, h.5, h.6, h.7, h.8, h.9⟩

theorem started_allow (opts : SupervisorOptions ι) (s : Supervisor ι ρ) (now : Int) :
    (s.allow opts now).1.started = s.started := by
  obtain ⟨probes, hallow⟩ := allow_eq opts s now
  rw [hallow]

theorem started_record (opts : SupervisorOptions ι) (s : Supervisor ι ρ) (now : Int)
    (success : Bool) : (s.record opts now success).started = s.started := by
  obtain ⟨circuit, probes, state, hrecord⟩ := record_eq opts s now success
  rw [hrecord]

theorem started_endDrain (s : Supervisor ι ρ) (i : Nat) : (s.endDrain i).started = s.started := by
  unfold Supervisor.endDrain
  split <;> rfl

theorem started_cancelDrain (s : Supervisor ι ρ) : s.cancelDrain.started = s.started := by
  unfold Supervisor.cancelDrain
  split
  · exact started_endDrain s _
  · rfl

theorem started_beginDrain (opts : SupervisorOptions ι) (s : Supervisor ι ρ)
    (reason : MCPRestartReason) : (s.beginDrain opts reason).started = s.started := by
  unfold Supervisor.beginDrain
  dsimp only
  split <;> rfl

theorem started_triggerRestart (opts : SupervisorOptions ι) (s : Supervisor ι ρ) (now : Int)
    (reason : MCPRestartReason) : (s.triggerRestart opts now reason).started = s.started := by
  have hallow := started_allow opts s now
  unfold Supervisor.triggerRestart
  split
  · rfl
  · split
    · rfl
    · exact started_cancelDrain s
    all_goals
      dsimp only
      split
      · exact (started_beginDrain opts _ reason).trans hallow
      · exact hallow

theorem started_whileNotStopped (s : Supervisor ι ρ) (i : Nat) :
    (s.whileNotStopped i).started = s.started := by
  unfold Supervisor.whileNotStopped
  split <;> rfl

theorem started_catchBoot (opts : SupervisorOptions ι) (s : Supervisor ι ρ) (i : Nat) (now : Int) :
    (s.catchBoot opts i now).started = s.started := by
  unfold Supervisor.catchBoot
  dsimp only
  split
  · split
    · exact (started_whileNotStopped _ i).trans ((started_allow ..).trans (started_record ..))
    · exact (started_allow ..).trans (started_record ..)
  · exact started_whileNotStopped _ i

theorem started_stop (opts : SupervisorOptions ι) (s : Supervisor ι ρ) (now : Int) :
    (s.stop opts now).started = s.started := by
  unfold Supervisor.stop
  split
  · rfl
  · obtain ⟨circuit, probes, calls, hcalls⟩ := rejectAll_eq opts
      ({ { s with stopped := true, pingArmed := false }.cancelDrain.setState .stopped with
        client := none }.signalGenerationEnd s.generation) now
    dsimp only
    rw [hcalls]
    exact started_cancelDrain { s with stopped := true, pingArmed := false }

/-- What has started stays so. -/
theorem started_step {label : SupervisorLabel ι ρ} (h : s.started = true)
    (hstep : supervisorStep opts s label = some t) : t.started = true := by
  refine Eq.trans ?_ h
  cases taken_of_step hstep with
  | start => rw [Supervisor.start, if_pos h, ite_self]
  | stop now => exact started_stop opts s now
  | asks now => exact started_allow opts s now
  | drainTimesOut _ => exact started_endDrain s _
  | tornDown _ => exact started_whileNotStopped s _
  | wakes _ created =>
    unfold Supervisor.wake
    split
    · rfl
    · cases created <;> rfl
  | listed _ ok =>
    split
    · unfold Supervisor.install
      split <;> rfl
    · rfl
  | catches _ now => exact started_catchBoot opts s _ now
  | continues _ now => exact started_record opts { s with consecutiveGiveUps := 0 } now true
  | resumes _ =>
    unfold Supervisor.resume
    dsimp only
    split <;> rfl
  | exits _ reason =>
    obtain ⟨exits, heq⟩ := s.onExit_eq _ reason
    rw [heq]
  | exitRuns _ now =>
    split
    · exact started_triggerRestart opts _ now _
    · rfl
  | pingFails _ _ _ => exact started_triggerRestart opts _ _ .pingFailed
  | @probeRuns now _ =>
    have hallow := started_allow opts { s with probes := s.probes - 1 } now
    dsimp only
    split
    · exact hallow
    · split
      · exact hallow
      · exact (started_triggerRestart opts _ now .probe).trans hallow
  | callTool toolName input taken now =>
    obtain ⟨calls, nextCallId, heq | heq⟩ := callTool_eq opts s toolName input taken now
    · rw [heq]
      exact started_allow opts s now
    · rw [heq]
  | @raceRuns id call now t _ hruns =>
    obtain ⟨calls, rfl | rfl⟩ := raceRuns_eq hruns
    · rfl
    · exact started_allow opts s now
  | stopTornDown _ | stopResolves _ _ | drainSettles _ _ | respawns _ | initialized _ _
  | discarded _ | pingFires _ _ _ | pingAnswers _ _ _ | probeStops _ | answers _ _ _
  | reissueAnswers _ _ _ => rfl

/-! ### Every step -/

theorem Kept.step {label : SupervisorLabel ι ρ} (h : Kept s)
    (hun : s.started = false → Unstarted s) (hclean : Undisturbed opts s label)
    (hstep : supervisorStep opts s label = some t) : Kept t := by
  cases taken_of_step hstep with
  | start => exact h.start hun
  | stop now => exact h.stop hclean
  | stopTornDown hstopping | stopResolves hstopping _ =>
    exact h.same ⟨rfl, rfl, rfl, rfl, rfl, rfl⟩ (fun _ => rfl)
      fun hopen => nomatch (h.resolved hopen).2.symm.trans hstopping
  | asks now => exact h.allow now
  | drainSettles hphase _ => exact h.drained hphase
  | drainTimesOut _ => exact h.endDrain _
  | respawns hphase => exact h.respawn hphase
  | @tornDown i hphase =>
    have hi : (s.loops i).phase.running = true := by rw [hphase]; rfl
    have hfits := h.fits i hi
    rw [hphase] at hfits
    exact h.whileNotStopped hi hfits (by rw [hphase]; rfl)
  | wakes hphase created => exact h.wake hphase created
  | initialized hphase ok =>
    obtain rfl : ok = true := hclean
    exact h.setLoop (by rw [hphase]; rfl) fun hfits => by rwa [hphase] at hfits
  | listed hphase ok =>
    obtain rfl : ok = true := hclean
    exact h.install hphase
  | discarded hphase =>
    exact h.setLoop (by rw [hphase]; rfl) fun hfits => by rwa [hphase] at hfits
  | catches hphase now => exact h.catchBoot hphase now
  | continues hphase now => exact h.continueLoop hphase now
  | resumes hphase => exact h.resume hphase
  | exits _ reason =>
    obtain ⟨exits, heq⟩ := s.onExit_eq _ reason
    rw [heq]
    exact h.same ⟨rfl, rfl, rfl, rfl, rfl, rfl⟩ (fun _ => rfl) fun _ => ⟨rfl, rfl⟩
  | @exitRuns myGen reason _ now =>
    have htaken : Kept { s with exits := s.exits.erase (myGen, reason) } :=
      h.same ⟨rfl, rfl, rfl, rfl, rfl, rfl⟩ (fun _ => rfl) fun _ => ⟨rfl, rfl⟩
    split
    · rename_i hgeneration
      exact htaken.triggerRestart reason (hclean hgeneration)
    · exact htaken
  | pingFails _ hcurrent hthreshold =>
    refine Kept.triggerRestart ?_ _ (hclean hcurrent rfl hthreshold)
    exact h.same ⟨rfl, rfl, rfl, rfl, rfl, rfl⟩ (fun _ => rfl) fun _ => ⟨rfl, rfl⟩
  | probeRuns _ =>
    have htaken : Kept { s with probes := s.probes - 1 } :=
      h.same ⟨rfl, rfl, rfl, rfl, rfl, rfl⟩ (fun _ => rfl) fun _ => ⟨rfl, rfl⟩
    exact htaken.probe hclean
  | callTool toolName input taken now =>
    obtain ⟨calls, nextCallId, heq | heq⟩ := callTool_eq opts s toolName input taken now
    · rw [heq]
      exact (h.allow now).same ⟨rfl, rfl, rfl, rfl, rfl, rfl⟩ (fun _ => rfl) fun _ => ⟨rfl, rfl⟩
    · rw [heq]
      exact h
  | raceRuns _ hruns =>
    obtain ⟨calls, rfl | rfl⟩ := raceRuns_eq hruns
    · exact h.same ⟨rfl, rfl, rfl, rfl, rfl, rfl⟩ (fun _ => rfl) fun _ => ⟨rfl, rfl⟩
    · exact (h.allow _).same ⟨rfl, rfl, rfl, rfl, rfl, rfl⟩ (fun _ => rfl)
        fun _ => ⟨rfl, rfl⟩
  | pingFires _ _ _ | pingAnswers _ _ _ | probeStops _ | answers _ _ _ | reissueAnswers _ _ _ =>
    exact h.same ⟨rfl, rfl, rfl, rfl, rfl, rfl⟩ (fun _ => rfl) fun _ => ⟨rfl, rfl⟩

/-- **At most one client is live** in a run in which no client fails to boot, `stop` comes while no
loop drains or boots, and a restart comes while no loop runs. -/
theorem oneLive_of_run {labels : List (SupervisorLabel ι ρ)}
    (r : Run (supervisorStep opts) (Undisturbed opts) {} labels s) : OneLive s := by
  have hstart : Kept ({} : Supervisor ι ρ) :=
    ⟨fun _ _ => rfl, fun _ _ hi => (nomatch hi), fun _ hi => (nomatch hi),
      fun _ c hc => absurd hc.1 (Nat.not_lt_zero c), fun hs => (nomatch hs), fun _ => ⟨rfl, rfl⟩⟩
  have hun : Unstarted ({} : Supervisor ι ρ) :=
    ⟨fun _ => rfl, rfl, rfl, rfl, rfl, rfl, rfl, rfl, rfl⟩
  have hkept : Kept s ∧ (s.started = false → Unstarted s) := by
    refine Run.invariant (P := fun s => Kept s ∧ (s.started = false → Unstarted s))
      ⟨hstart, fun _ => hun⟩ (fun u label u' hu hclean hstep => ?_) r
    refine ⟨hu.1.step hu.2 hclean hstep, fun hs => ?_⟩
    cases hstarted : u.started with
    | false => exact (hu.2 hstarted).step hstep hs
    | true => cases (started_step hstarted hstep).symm.trans hs
  exact hkept.1.oneLive

instance : ∀ (s : Supervisor ι ρ) (label : SupervisorLabel ι ρ),
    Decidable (Undisturbed opts s label)
  | s, .stop _ => inferInstanceAs (Decidable
      (s.stopped = false → ∀ i < s.nextLoop, (s.loops i).phase.quiet = true))
  | _, .initialized _ ok | _, .listed _ ok => inferInstanceAs (Decidable (ok = true))
  | s, .exitRuns myGen _ now => inferInstanceAs (Decidable
      (myGen = s.generation → s.begins opts now = true →
        ∀ i < s.nextLoop, (s.loops i).phase.running = false))
  | s, .pingAnswers currentGen ok now => inferInstanceAs (Decidable
      (currentGen = s.generation → ok = false →
        opts.pingFailureThreshold.1 ≤ s.pingFailures + 1 → s.begins opts now = true →
          ∀ i < s.nextLoop, (s.loops i).phase.running = false))
  | s, .probeRuns now => inferInstanceAs (Decidable
      (s.begins opts now = true → ∀ i < s.nextLoop, (s.loops i).phase.running = false))
  | _, .start | _, .stopTornDown | _, .stopResolves | _, .asks _ | _, .drainSettles _
  | _, .drainTimesOut _ | _, .respawns _ | _, .tornDown _ | _, .wakes _ _ | _, .discarded _
  | _, .catches _ _ | _, .continues _ _ | _, .resumes _ | _, .exits _ _ | _, .pingFires
  | _, .callTool _ _ _ _ | _, .answers _ _ | _, .raceRuns _ _ | _, .reissueAnswers _ _ _ =>
    .isTrue trivial

def plainOptions : SupervisorOptions Unit where
  serverId := "files"
  cloneArgs := id

/-- The first client dies and the second takes over, until `stop`. -/
theorem oneLive_of_run_respawned :
    ∃ s : Supervisor Unit Unit, Run (supervisorStep plainOptions) (Undisturbed plainOptions) {}
        [.start, .tornDown 0, .wakes 0 true, .initialized 0 true, .listed 0 true, .continues 0 0,
          .exits 0 .transportClosed, .exitRuns 0 .transportClosed 0, .respawns 1, .tornDown 1,
          .wakes 1 true, .initialized 1 true, .listed 1 true, .continues 1 0, .resumes 1,
          .stop 0, .stopTornDown, .stopResolves] s ∧ s.nextClient = 2 ∧ s.stopResolved = true ∧
      OneLive s := by
  have hreplay : (exec (guarded (supervisorStep plainOptions) (Undisturbed plainOptions))
      ({} : Supervisor Unit Unit)
      [.start, .tornDown 0, .wakes 0 true, .initialized 0 true, .listed 0 true, .continues 0 0,
        .exits 0 .transportClosed, .exitRuns 0 .transportClosed 0, .respawns 1, .tornDown 1,
        .wakes 1 true, .initialized 1 true, .listed 1 true, .continues 1 0, .resumes 1,
        .stop 0, .stopTornDown, .stopResolves]).any
      (fun s => decide (s.nextClient = 2) && s.stopResolved) = true := by decide
  obtain ⟨s, r, hs⟩ := Run.of_replay hreplay
  obtain ⟨hclients, hresolved⟩ := Bool.and_eq_true_iff.mp hs
  exact ⟨s, r, of_decide_eq_true hclients, hresolved, oneLive_of_run r⟩

/-- A client that fails to list its tools stays behind; a client whose boot outlives `stop` becomes
the current one of a supervisor that has stopped; and a client that dies while it boots brings a
second loop. -/
theorem boots_beside :
    (∃ s : Supervisor Unit Unit, Run (supervisorStep plainOptions) Any {}
        [.start, .tornDown 0, .wakes 0 true, .initialized 0 true, .listed 0 false, .catches 0 0] s ∧
      s.Settled ∧ s.Live 0 ∧ s.client = none ∧ ¬ OneLive s) ∧
    (∃ s : Supervisor Unit Unit, Run (supervisorStep plainOptions) Any {}
        [.start, .tornDown 0, .wakes 0 true, .stop 0, .stopTornDown, .initialized 0 true,
          .listed 0 true, .continues 0 0, .stopResolves] s ∧
      s.Settled ∧ s.stopResolved = true ∧ s.Live 0 ∧ s.state = .ready ∧ ¬ OneLive s) ∧
    ∃ s : Supervisor Unit Unit, Run (supervisorStep plainOptions) Any {}
        [.start, .tornDown 0, .wakes 0 true, .exits 0 .initFailed, .exitRuns 0 .initFailed 0] s ∧
      (s.loops 0).phase.running = true ∧ (s.loops 1).phase.running = true ∧ ¬ OneLive s := by
  refine ⟨⟨_, .any_of_exec rfl, ?_, ⟨by decide, rfl⟩, rfl, fun h => ?_⟩,
    ⟨_, .any_of_exec rfl, ?_, rfl, ⟨by decide, rfl⟩, rfl, fun h => ?_⟩,
    ⟨_, .any_of_exec rfl, rfl, rfl, fun h => ?_⟩⟩
  · intro i
    cases i <;> rfl
  · have hcurrent := h.client (fun i => by cases i <;> rfl) 0 ⟨by decide, rfl⟩
    cases hcurrent
  · intro i
    cases i <;> rfl
  · cases (h.stopped rfl).1
  · cases h.loop 0 1 rfl rfl

end Declaragent.Mcp

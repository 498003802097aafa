import Declaragent.Events.CircuitBreaker
import Declaragent.Library.Transition

/-!
# Mcp — the supervisor of one MCP server

A supervisor keeps one client of an MCP server alive.  It boots a client, pings it, and when the
client dies or does not answer drains the tool calls in flight, shuts the client down and boots the
next one, with a circuit breaker against a server that never comes up.

Every function that awaits is cut at its awaits, and a label runs one function from one await to
the next.  In between, anything else may run.  A restart loop is numbered in the order in which the
loops start, a client in the order in which the factory creates them.

* `Supervisor`: what the closure of `createMCPSupervisor` holds, with every client that the factory
  has created and every restart loop that has started.
* `supervisorStep`: one piece of one of its functions.
-/

namespace Declaragent.Mcp
open Events (CircuitBreaker CircuitBreakerOptions CircuitBreakerState)

inductive MCPSupervisorState where
  | starting | ready | draining | reconnecting | circuitOpen | stopped
  deriving DecidableEq

def MCPSupervisorState.name : MCPSupervisorState → String
  | .starting => "starting"
  | .ready => "ready"
  | .draining => "draining"
  | .reconnecting => "reconnecting"
  | .circuitOpen => "circuit-open"
  | .stopped => "stopped"

inductive MCPRestartReason where
  | initial | transportClosed | pingFailed | initFailed | probe
  deriving DecidableEq

/-- Why a client says it has ended. -/
inductive MCPLifecycleExitReason where
  | shutdown | transportClosed | initFailed | restartFailed
  deriving DecidableEq

/-- `backoffMs`, `sleep` and `setTimer` only say when something happens.  `cloneArgs` is the JSON
round trip that a tool's input takes. -/
structure SupervisorOptions (ι : Type) where
  serverId : String
  circuitThreshold : { n : Nat // 0 < n } := ⟨5, Events.five_pos⟩
  circuitResetMs : Nat := 30000
  drainTimeoutMs : Nat := 5000
  resubmitOnRespawn : Bool := false
  pingFailureThreshold : { n : Nat // 0 < n } := ⟨2, Nat.two_pos⟩
  cloneArgs : ι → ι

def SupervisorOptions.circuit {ι : Type} (opts : SupervisorOptions ι) : CircuitBreakerOptions where
  failureThreshold := opts.circuitThreshold
  resetTimeoutMs := opts.circuitResetMs

/-- How a tool call fails.  The limit that `rateLimited` names is the supervisor's own. -/
inductive CallError (ι : Type) where
  | crashed (circuitState : CircuitBreakerState) (message : String)
  | drained (toolName : String) (argSnapshot : ι) (drainTimeoutMs : Nat)
  | rateLimited
  | client (err : String)

/-- The text of `MCPServerCrashedError` where it is given none. -/
def crashedMessage (serverId : String) (circuitState : CircuitBreakerState) : String :=
  "MCP server \"" ++ serverId ++ "\" crashed and its supervisor circuit is " ++
    circuitState.name ++ "; retry after the circuit half-opens"

/-- What the client has answered, as the promise of the caller takes it. -/
def clientResult {ι ρ : Type} : Except String ρ → Except (CallError ι) ρ
  | .ok result => .ok result
  | .error err => .error (.client err)

/-- The race of a call against the end of its generation: nothing has won yet, the client's answer
or the sentinel has won and the continuation is queued, or the continuation has run. -/
inductive Race (ρ : Type) where
  | pending
  | answered (result : Except String ρ)
  | crashed
  | done

/-- What a client was sent, and by which restart loop if it was sent again. -/
structure Sending (ι : Type) where
  client : Nat
  toolName : String
  input : ι
  loop : Option Nat

/-- An entry of `inFlight`.  It stays here when it is deleted there.  `settlements`, `sends` and
`missed` are its history: what its promise was given, what clients were sent of it, and the restart
loops whose drain ended before it was settled. -/
structure InFlightCall (ι ρ : Type) where
  toolName : String
  argSnapshot : ι
  generation : Nat
  settled : Bool := false
  /-- Whether `inFlight` has it. -/
  tracked : Bool := true
  race : Race ρ := .pending
  /-- The loops that sent it again and whose client has not answered. -/
  reissues : List Nat := []
  settlements : List (Except (CallError ι) ρ) := []
  sends : List (Sending ι)
  missed : List Nat := []

/-- How far a restart loop is. -/
inductive Phase where
  /-- `drainInFlightCalls` waits for these calls. -/
  | draining (active : List Nat)
  /-- It has resolved with these as its overflow. -/
  | drained (overflow : List Nat)
  /-- `teardownClient(dying)` is awaited. -/
  | tearing
  | sleeping
  | initializing (fresh : Nat)
  | listing (fresh : Nat)
  /-- The generation has changed, and the client is shut down. -/
  | discarding
  /-- `bootFreshClient` has thrown. -/
  | failed
  /-- `bootFreshClient` has returned. -/
  | booted
  /-- `runRestartLoop` has returned to `drainThenRespawn`. -/
  | returned
  | ended
  deriving DecidableEq

/-- Whether `runRestartLoop` is still to return. -/
def Phase.running : Phase → Bool
  | .returned | .ended => false
  | _ => true

structure RestartLoop where
  phase : Phase := .ended
  attempt : Nat := 0
  reason : MCPRestartReason := .initial
  /-- `drainThenRespawn` runs it, and not `start`. -/
  drains : Bool := false

/-- A client of the factory: the generation that its handlers know, and whether `shutdown` was
called. -/
structure Client where
  generation : Nat := 0
  shutDown : Bool := false

/-- The clients after `shutdown` was called of one of them, or of none. -/
def shutdown (clients : Nat → Client) : Option Nat → Nat → Client
  | none => clients
  | some c => Function.update clients c { clients c with shutDown := true }

/-- How far `stop` is. -/
inductive Stopping where
  | idle
  /-- `teardownClient(dying)` is awaited. -/
  | tearing
  /-- `restartLoopPromise` is awaited. -/
  | awaiting (loop : Option Nat)
  | done

structure Supervisor (ι ρ : Type) where
  state : MCPSupervisorState := .starting
  circuit : CircuitBreaker := {}
  client : Option Nat := none
  clients : Nat → Client := fun _ => {}
  nextClient : Nat := 0
  generation : Nat := 0
  started : Bool := false
  stopped : Bool := false
  /-- The reasons that `recordRestart` has counted. -/
  restarts : List MCPRestartReason := []
  consecutiveGiveUps : Nat := 0
  loops : Nat → RestartLoop := fun _ => {}
  nextLoop : Nat := 0
  /-- The loop whose drain `cancelActiveDrain` ends. -/
  cancelActiveDrain : Option Nat := none
  calls : Nat → Option (InFlightCall ι ρ) := fun _ => none
  nextCallId : Nat := 0
  pingArmed : Bool := false
  /-- The generations of the pings on their way. -/
  pings : List Nat := []
  pingFailures : Nat := 0
  /-- The microtasks that `onExit` has queued. -/
  exits : List (Nat × MCPRestartReason) := []
  /-- The number of microtasks that `scheduleProbe` has queued. -/
  probes : Nat := 0
  stopping : Stopping := .idle
  /-- A promise of `stop` has resolved. -/
  stopResolved : Bool := false

inductive SupervisorLabel (ι ρ : Type) where
  | start
  | stop (now : Int)
  | stopTornDown
  | stopResolves
  /-- `snapshot`, which asks for the state of the circuit. -/
  | asks (now : Int)
  | drainSettles (loop : Nat)
  | drainTimesOut (loop : Nat)
  | respawns (loop : Nat)
  | tornDown (loop : Nat)
  /-- `sleep` is over, and the factory creates a client or throws. -/
  | wakes (loop : Nat) (created : Bool)
  | initialized (loop : Nat) (ok : Bool)
  | listed (loop : Nat) (ok : Bool)
  | discarded (loop : Nat)
  | catches (loop : Nat) (now : Int)
  | continues (loop : Nat) (now : Int)
  | resumes (loop : Nat)
  | exits (client : Nat) (reason : MCPLifecycleExitReason)
  | exitRuns (generation : Nat) (reason : MCPRestartReason) (now : Int)
  | pingFires
  | pingAnswers (generation : Nat) (ok : Bool) (now : Int)
  | probeRuns (now : Int)
  /-- `taken` is what `tryTake` answers; a supervisor without a limit asks nobody. -/
  | callTool (toolName : String) (input : ι) (taken : Bool) (now : Int)
  | answers (call : Nat) (result : Except String ρ)
  | raceRuns (call : Nat) (now : Int)
  | reissueAnswers (call loop : Nat) (result : Except String ρ)

namespace InFlightCall
variable {ι ρ : Type}

/-- The flag is set and the promise is given its result, unless that was done before. -/
def settle (c : InFlightCall ι ρ) (result : Except (CallError ι) ρ) : InFlightCall ι ρ :=
  if c.settled then c
  else { c with settled := true, settlements := c.settlements ++ [result] }

/-- `settle`, and `inFlight` loses the call. -/
def finish (c : InFlightCall ι ρ) (result : Except (CallError ι) ρ) : InFlightCall ι ρ :=
  { c.settle result with tracked := false }

/-- The sentinel of the generation wins the race, unless something has. -/
def crash (c : InFlightCall ι ρ) : InFlightCall ι ρ :=
  match c.race with
  | .pending => { c with race := .crashed }
  | .answered _ | .crashed | .done => c

/-- `resubmitStashedCalls` sends the call again. -/
def resubmit (c : InFlightCall ι ρ) (client loop : Nat) : InFlightCall ι ρ :=
  { c with
    sends := c.sends ++ [⟨client, c.toolName, c.argSnapshot, some loop⟩]
    reissues := loop :: c.reissues }

end InFlightCall

namespace Supervisor
variable {ι ρ : Type} (opts : SupervisorOptions ι) (s : Supervisor ι ρ)

def setState (next : MCPSupervisorState) : Supervisor ι ρ := { s with state := next }

def setLoop (i : Nat) (loop : RestartLoop) : Supervisor ι ρ :=
  { s with loops := Function.update s.loops i loop }

def setPhase (i : Nat) (phase : Phase) : Supervisor ι ρ :=
  s.setLoop i { s.loops i with phase }

def setCall (id : Nat) (call : InFlightCall ι ρ) : Supervisor ι ρ :=
  { s with calls := Function.update s.calls id (some call) }

def mapCalls (f : Nat → InFlightCall ι ρ → InFlightCall ι ρ) : Supervisor ι ρ :=
  { s with calls := fun id => (s.calls id).map (f id) }

/-- The calls that `inFlight` has and that are not settled. -/
def unsettled : List Nat :=
  (List.range s.nextCallId).filter fun id =>
    (s.calls id).any fun call => call.tracked && !call.settled

def scheduleProbe : Supervisor ι ρ :=
  if s.stopped then s
  else if s.state = .reconnecting then s
  else { s with probes := s.probes + 1 }

/-- The supervisor's listener to its circuit. -/
def onTransition : CircuitBreakerState → Supervisor ι ρ
  | .opened _ => s.setState .circuitOpen
  | .halfOpen => s.scheduleProbe
  | .closed => s

/-- `circuit.allow()`, with the listeners that it calls. -/
def allow (now : Int) : Supervisor ι ρ × Bool :=
  let (circuit, moves, ok) := s.circuit.allow opts.circuit now
  (moves.foldl onTransition { s with circuit }, ok)

/-- `circuit.record(success)`, with the listeners that it calls. -/
def record (now : Int) (success : Bool) : Supervisor ι ρ :=
  let (circuit, moves) := s.circuit.record opts.circuit now success
  moves.foldl onTransition { s with circuit }

/-- `teardownClient`, which calls `shutdown` at once. -/
def teardownClient (client : Option Nat) : Supervisor ι ρ :=
  { s with clients := shutdown s.clients client }

def schedulePingLoop : Supervisor ι ρ := { s with pingArmed := !s.stopped }

/-- `signalGenerationEnd` of the calls of a generation. -/
def signalGenerationEnd (generation : Nat) : Supervisor ι ρ :=
  s.mapCalls fun _ call => if call.generation = generation then call.crash else call

/-! ### Draining -/

/-- `onCancelOrTimeout` of a drain. -/
def endDrain (i : Nat) : Supervisor ι ρ :=
  match (s.loops i).phase with
  | .draining active =>
    let overflow := active.filter fun id => (s.calls id).any fun call => !call.settled
    { s.setPhase i (.drained overflow) with cancelActiveDrain := none }
  | _ => s

/-- `cancelActiveDrain?.()` -/
def cancelDrain : Supervisor ι ρ :=
  match s.cancelActiveDrain with
  | some i => s.endDrain i
  | none => s

/-- `drainThenRespawn` up to its first await, which is the one of the drain. -/
def beginDrain (reason : MCPRestartReason) : Supervisor ι ρ :=
  let active := s.unsettled.filter fun id =>
    (s.calls id).any fun call => decide (call.generation = s.generation)
  let t := { s with nextLoop := s.nextLoop + 1 }
  if active = [] ∨ opts.drainTimeoutMs = 0 then
    t.setLoop s.nextLoop { phase := .drained active, reason, drains := true }
  else
    { t.setLoop s.nextLoop { phase := .draining active, reason, drains := true } with
      cancelActiveDrain := some s.nextLoop }

def triggerRestart (now : Int) (reason : MCPRestartReason) : Supervisor ι ρ :=
  if s.stopped then s
  else match s.state with
    | .reconnecting => s
    | .draining => s.cancelDrain
    | .starting | .ready | .circuitOpen | .stopped =>
      let (t, ok) := s.allow opts now
      if ok then (t.setState .draining).beginDrain opts reason else t.setState .circuitOpen

/-- The calls that overflowed the drain of a loop: rejected, or left for the next client. -/
def rejectOverflow (overflow : List Nat) : Supervisor ι ρ :=
  s.mapCalls fun id call =>
    if id ∈ overflow ∧ call.settled = false ∧ opts.resubmitOnRespawn = false then
      call.finish (.error (.drained call.toolName call.argSnapshot opts.drainTimeoutMs))
    else call

/-- What is not settled has missed the drain of the loop. -/
def miss (i : Nat) : Supervisor ι ρ :=
  s.mapCalls fun _ call =>
    if call.settled then call else { call with missed := i :: call.missed }

/-- `drainThenRespawn` from the end of the drain to the await of the dying client's shutdown. -/
def respawn (i : Nat) (overflow : List Nat) : Supervisor ι ρ :=
  let dying := s.client
  let t := { s with generation := s.generation + 1, client := none, pingArmed := false }
  let t := (((t.rejectOverflow opts overflow).miss i).signalGenerationEnd s.generation)
  ((t.setState .reconnecting).teardownClient dying).setPhase i .tearing

/-! ### Restarting -/

/-- `runRestartLoop` returns. -/
def returnLoop (i : Nat) : Supervisor ι ρ :=
  s.setPhase i (if (s.loops i).drains then .returned else .ended)

/-- The head of the loop. -/
def whileNotStopped (i : Nat) : Supervisor ι ρ :=
  if s.stopped then s.returnLoop i else s.setPhase i .sleeping

/-- `bootFreshClient` up to its first await. -/
def bootFreshClient (i : Nat) : Supervisor ι ρ :=
  let t := { s with
    clients := Function.update s.clients s.nextClient { generation := s.generation }
    nextClient := s.nextClient + 1 }
  t.setPhase i (.initializing s.nextClient)

/-- The rest of the loop's body after `sleep`. -/
def wake (i : Nat) (created : Bool) : Supervisor ι ρ :=
  if s.stopped then s.returnLoop i
  else
    let t := { s with restarts := s.restarts ++ [(s.loops i).reason] }
    if created then t.bootFreshClient i else t.setPhase i .failed

/-- `bootFreshClient` once it has the tools. -/
def install (i fresh : Nat) : Supervisor ι ρ :=
  if (s.clients fresh).generation = s.generation then
    { s.setPhase i .booted with client := some fresh }
  else (s.teardownClient (some fresh)).setPhase i .discarding

/-- The `catch` of the loop, and its next turn. -/
def catchBoot (i : Nat) (now : Int) : Supervisor ι ρ :=
  let loop := s.loops i
  let loop := { loop with attempt := loop.attempt + 1, reason := .initFailed }
  if opts.circuitThreshold.1 ≤ loop.attempt then
    let t := { s with consecutiveGiveUps := s.consecutiveGiveUps + 1 }.record opts now false
    let (t, ok) := t.allow opts now
    if ok then (t.setLoop i { loop with attempt := 0 }).whileNotStopped i
    else ((t.setLoop i loop).setState .circuitOpen).returnLoop i
  else (s.setLoop i loop).whileNotStopped i

/-- The loop goes on after its client has booted. -/
def continueLoop (i : Nat) (now : Int) : Supervisor ι ρ :=
  let t := { s with consecutiveGiveUps := 0 }.record opts now true
  (t.setState .ready).schedulePingLoop.returnLoop i

def resubmitStashedCalls (i client : Nat) : Supervisor ι ρ :=
  s.mapCalls fun id call => if id ∈ s.unsettled then call.resubmit client i else call

/-- The rest of `drainThenRespawn` after `runRestartLoop`. -/
def resume (i : Nat) : Supervisor ι ρ :=
  let t := s.setPhase i .ended
  match opts.resubmitOnRespawn, s.state, s.client with
  | true, .ready, some client => t.resubmitStashedCalls i client
  | _, _, _ => t

/-! ### What the outside asks for -/

/-- `start` up to its await. -/
def start : Supervisor ι ρ :=
  if s.stopped then s
  else if s.started then s
  else
    let t := { s with started := true, nextLoop := s.nextLoop + 1 }.setState .starting
    t.setLoop s.nextLoop { phase := .tearing }

/-- Every call that `inFlight` has is rejected, and `inFlight` is cleared. -/
def rejectAll (now : Int) : Supervisor ι ρ :=
  -- each error asks for the state of the circuit
  let t := if s.unsettled = [] then s else (s.allow opts now).1
  t.mapCalls fun _ call =>
    if call.tracked then call.finish (.error (.crashed t.circuit.state "supervisor stopped"))
    else call

/-- `stop` up to its first await; a second call resolves at once. -/
def stop (now : Int) : Supervisor ι ρ :=
  if s.stopped then { s with stopResolved := true }
  else
    let t := ({ s with stopped := true, pingArmed := false }.cancelDrain).setState .stopped
    let t := { t with client := none }.signalGenerationEnd s.generation
    { (t.rejectAll opts now).teardownClient s.client with stopping := .tearing }

/-- What `callTool` leaves, and the promise or the error that it gives. -/
def callTool (toolName : String) (input : ι) (taken : Bool) (now : Int) :
    Supervisor ι ρ × Except (CallError ι) Nat :=
  if s.stopped then
    let t := (s.allow opts now).1
    (t, .error (.crashed t.circuit.state "supervisor stopped"))
  else if !taken then (s, .error .rateLimited)
  else
    let (t, ok) := s.allow opts now
    if !ok then
      (t, .error (.crashed t.circuit.state (crashedMessage opts.serverId t.circuit.state)))
    else match t.client, t.state with
      | some client, .ready =>
        let call : InFlightCall ι ρ := {
          toolName
          argSnapshot := opts.cloneArgs input
          generation := t.generation
          sends := [⟨client, toolName, input, none⟩] }
        ({ t.setCall t.nextCallId call with nextCallId := t.nextCallId + 1 }, .ok t.nextCallId)
      | _, state =>
        (t, .error (.crashed t.circuit.state
          ("MCP server \"" ++ opts.serverId ++ "\" is " ++ state.name ++
            "; tool call rejected")))

/-- The race of a call has ended without an answer that counts. -/
def surfaceCrash (id : Nat) (call : InFlightCall ι ρ) (now : Int) : Supervisor ι ρ :=
  -- the drain path owns the call
  if call.tracked then s.setCall id call
  else
    let t := (s.allow opts now).1
    t.setCall id (call.settle (.error (.crashed t.circuit.state
      ("MCP server \"" ++ opts.serverId ++ "\" crashed during tool call \"" ++
        call.toolName ++ "\""))))

/-- What follows the race of a call. -/
def raceRuns (id : Nat) (call : InFlightCall ι ρ) (now : Int) : Option (Supervisor ι ρ) :=
  let run := { call with race := .done }
  match call.race with
  | .pending | .done => none
  | .crashed => some (if call.settled then s.setCall id run else s.surfaceCrash opts id run now)
  | .answered result => some
      (if call.settled then s.setCall id run
      else if call.generation ≠ s.generation ∨ s.stopped then s.surfaceCrash opts id run now
      else s.setCall id (run.finish (clientResult result)))

/-- A call that a loop has sent again is answered. -/
def reissueAnswers (id i : Nat) (call : InFlightCall ι ρ) (result : Except String ρ) :
    Supervisor ι ρ :=
  s.setCall id ({ call with reissues := call.reissues.erase i }.finish (clientResult result))

/-! ### What the clients do -/

/-- `onExit` of a client. -/
def onExit (c : Nat) (reason : MCPLifecycleExitReason) : Supervisor ι ρ :=
  let myGen := (s.clients c).generation
  if s.stopped ∨ myGen ≠ s.generation then s
  else match reason with
    | .shutdown => s
    | .transportClosed => { s with exits := (myGen, .transportClosed) :: s.exits }
    | .initFailed | .restartFailed => { s with exits := (myGen, .initFailed) :: s.exits }

def exitRuns (myGen : Nat) (reason : MCPRestartReason) (now : Int) : Option (Supervisor ι ρ) :=
  if (myGen, reason) ∈ s.exits then
    let t := { s with exits := s.exits.erase (myGen, reason) }
    some (if myGen = s.generation then t.triggerRestart opts now reason else t)
  else none

/-- `runPing` up to its await. -/
def pingFires : Option (Supervisor ι ρ) :=
  if s.pingArmed then
    let t := { s with pingArmed := false }
    some (if s.stopped then t
    else match s.client, s.state with
      | some _, .ready => { t with pings := s.generation :: s.pings }
      | _, _ => t.schedulePingLoop)
  else none

def pingAnswers (currentGen : Nat) (ok : Bool) (now : Int) : Option (Supervisor ι ρ) :=
  if currentGen ∈ s.pings then
    let t := { s with pings := s.pings.erase currentGen }
    some (if s.stopped ∨ currentGen ≠ s.generation then t
    else if ok then { t with pingFailures := 0 }.schedulePingLoop
    else if opts.pingFailureThreshold.1 ≤ s.pingFailures + 1 then
      { t with pingFailures := 0 }.triggerRestart opts now .pingFailed
    else { t with pingFailures := s.pingFailures + 1 }.schedulePingLoop)
  else none

/-- The microtask of `scheduleProbe`. -/
def probeRuns (now : Int) : Option (Supervisor ι ρ) :=
  if 0 < s.probes then
    let t := { s with probes := s.probes - 1 }
    some (if t.stopped then t
    else
      let (t, ok) := t.allow opts now
      if !ok then t
      else if t.state = .reconnecting then t
      else t.triggerRestart opts now .probe)
  else none

end Supervisor

open Supervisor in
def supervisorStep {ι ρ : Type} (opts : SupervisorOptions ι) (s : Supervisor ι ρ) :
    SupervisorLabel ι ρ → Option (Supervisor ι ρ)
  | .start => some s.start
  | .stop now => some (s.stop opts now)
  | .stopTornDown =>
    match s.stopping with
    | .tearing => some { s with
        stopping := .awaiting (if s.nextLoop = 0 then none else some (s.nextLoop - 1)) }
    | _ => none
  | .stopResolves =>
    match s.stopping with
    | .awaiting none => some { s with stopping := .done, stopResolved := true }
    | .awaiting (some i) =>
      if (s.loops i).phase = .ended then
        some { s with stopping := .done, stopResolved := true }
      else none
    | _ => none
  | .asks now => some (s.allow opts now).1
  | .drainSettles i =>
    match (s.loops i).phase with
    | .draining active =>
      if active.all fun id => (s.calls id).all (·.settled) then
        some { s.setPhase i (.drained []) with cancelActiveDrain := none }
      else none
    | _ => none
  | .drainTimesOut i =>
    match (s.loops i).phase with
    | .draining _ => some (s.endDrain i)
    | _ => none
  | .respawns i =>
    match (s.loops i).phase with
    | .drained overflow => some (s.respawn opts i overflow)
    | _ => none
  | .tornDown i =>
    match (s.loops i).phase with
    | .tearing => some (s.whileNotStopped i)
    | _ => none
  | .wakes i created =>
    match (s.loops i).phase with
    | .sleeping => some (s.wake i created)
    | _ => none
  | .initialized i ok =>
    match (s.loops i).phase with
    | .initializing fresh => some (s.setPhase i (if ok then .listing fresh else .failed))
    | _ => none
  | .listed i ok =>
    match (s.loops i).phase with
    | .listing fresh => some (if ok then s.install i fresh else s.setPhase i .failed)
    | _ => none
  | .discarded i =>
    match (s.loops i).phase with
    | .discarding => some (s.setPhase i .failed)
    | _ => none
  | .catches i now =>
    match (s.loops i).phase with
    | .failed => some (s.catchBoot opts i now)
    | _ => none
  | .continues i now =>
    match (s.loops i).phase with
    | .booted => some (s.continueLoop opts i now)
    | _ => none
  | .resumes i =>
    match (s.loops i).phase with
    | .returned => some (s.resume opts i)
    | _ => none
  | .exits c reason => if c < s.nextClient then some (s.onExit c reason) else none
  | .exitRuns myGen reason now => s.exitRuns opts myGen reason now
  | .pingFires => s.pingFires
  | .pingAnswers currentGen ok now => s.pingAnswers opts currentGen ok now
  | .probeRuns now => s.probeRuns opts now
  | .callTool toolName input taken now => some (s.callTool opts toolName input taken now).1
  | .answers id result =>
    match s.calls id with
    | some call =>
      match call.race with
      | .pending => some (s.setCall id { call with race := .answered result })
      | _ => none
    | none => none
  | .raceRuns id now =>
    match s.calls id with
    | some call => s.raceRuns opts id call now
    | none => none
  | .reissueAnswers id i result =>
    match s.calls id with
    | some call => if i ∈ call.reissues then some (s.reissueAnswers id i call result) else none
    | none => none

/-! ### What the pieces leave alone -/

namespace Supervisor
variable {ι ρ : Type} {opts : SupervisorOptions ι} {s : Supervisor ι ρ}

@[simp] theorem setLoop_self (s : Supervisor ι ρ) (i : Nat) (loop : RestartLoop) :
    (s.setLoop i loop).loops i = loop := Function.update_self ..

theorem setLoop_of_ne (s : Supervisor ι ρ) {i j : Nat} (loop : RestartLoop) (h : j ≠ i) :
    (s.setLoop i loop).loops j = s.loops j := Function.update_of_ne h ..

@[simp] theorem setPhase_self (s : Supervisor ι ρ) (i : Nat) (phase : Phase) :
    (s.setPhase i phase).loops i = { s.loops i with phase } := Function.update_self ..

theorem setPhase_of_ne (s : Supervisor ι ρ) {i j : Nat} (phase : Phase) (h : j ≠ i) :
    (s.setPhase i phase).loops j = s.loops j := Function.update_of_ne h ..

@[simp] theorem setCall_self (s : Supervisor ι ρ) (id : Nat) (call : InFlightCall ι ρ) :
    (s.setCall id call).calls id = some call := Function.update_self ..

theorem setCall_of_ne (s : Supervisor ι ρ) {id other : Nat} (call : InFlightCall ι ρ)
    (h : other ≠ id) : (s.setCall id call).calls other = s.calls other :=
  Function.update_of_ne h ..

theorem scheduleProbe_eq (s : Supervisor ι ρ) : ∃ probes, s.scheduleProbe = { s with probes } := by
  unfold scheduleProbe
  split
  · exact ⟨s.probes, rfl⟩
  · split
    · exact ⟨s.probes, rfl⟩
    · exact ⟨_, rfl⟩

theorem foldl_halfOpen : ∀ {moves : List CircuitBreakerState} (s : Supervisor ι ρ),
    (∀ move ∈ moves, move = .halfOpen) →
      ∃ probes, moves.foldl onTransition s = { s with probes }
  | [], s, _ => ⟨s.probes, rfl⟩
  | move :: moves, s, h => by
      obtain ⟨rfl, hrest⟩ := List.forall_mem_cons.mp h
      obtain ⟨probes, hprobes⟩ := scheduleProbe_eq s
      obtain ⟨probes', hprobes'⟩ := foldl_halfOpen s.scheduleProbe hrest
      refine ⟨probes', ?_⟩
      rw [List.foldl_cons, onTransition, hprobes', hprobes]

/-- Asking for the state of the circuit may queue probes. -/
theorem allow_eq (opts : SupervisorOptions ι) (s : Supervisor ι ρ) (now : Int) :
    ∃ probes, (s.allow opts now).1 =
      { s with circuit := (s.circuit.advance opts.circuit now).1, probes } :=
  foldl_halfOpen _ (CircuitBreaker.advance_moves _ _ _)

/-- A closed circuit answers at once. -/
theorem allow_of_closed (opts : SupervisorOptions ι) (h : s.circuit.state = .closed) (now : Int) :
    s.allow opts now = (s, true) := by
  have hadvance : s.circuit.advance opts.circuit now = (s.circuit, []) := by
    rw [CircuitBreaker.advance, h]
  rw [allow, CircuitBreaker.allow, hadvance]
  simp only [h]
  rfl

/-- The end of a drain changes its loop. -/
theorem cancelDrain_stopped (s : Supervisor ι ρ) :
    ({ s with stopped := true, pingArmed := false } : Supervisor ι ρ).cancelDrain =
      { s.cancelDrain with stopped := true, pingArmed := false } := by
  unfold cancelDrain endDrain
  dsimp only
  split
  · split <;> rfl
  · rfl

/-- An outcome may also open the circuit. -/
theorem record_eq (opts : SupervisorOptions ι) (s : Supervisor ι ρ) (now : Int) (success : Bool) :
    ∃ circuit probes state, s.record opts now success = { s with circuit, probes, state } := by
  have hmoved := CircuitBreaker.moved_record opts.circuit s.circuit now success
  unfold record
  generalize s.circuit.record opts.circuit now success = recorded at hmoved
  cases hmoved with
  | @opens circuit openedAt moves hmoves h =>
    obtain ⟨probes, hprobes⟩ := foldl_halfOpen { s with circuit } hmoves
    refine ⟨circuit, probes, .circuitOpen, ?_⟩
    dsimp only
    rw [List.foldl_append, hprobes]
    rfl
  | @closes circuit moves hmoves h =>
    obtain ⟨probes, hprobes⟩ := foldl_halfOpen { s with circuit } hmoves
    refine ⟨circuit, probes, s.state, ?_⟩
    dsimp only
    rw [List.foldl_append, hprobes]
    rfl
  | @stays circuit moves hmoves h =>
    obtain ⟨probes, hprobes⟩ := foldl_halfOpen { s with circuit } hmoves
    exact ⟨circuit, probes, s.state, hprobes⟩

/-- A call changes the circuit, which it asks, and the calls. -/
theorem callTool_eq (opts : SupervisorOptions ι) (s : Supervisor ι ρ) (toolName : String)
    (input : ι) (taken : Bool) (now : Int) :
    ∃ calls nextCallId, (s.callTool opts toolName input taken now).1 =
        { (s.allow opts now).1 with calls, nextCallId } ∨
      (s.callTool opts toolName input taken now).1 = s := by
  unfold callTool
  split
  · exact ⟨_, _, .inl rfl⟩
  · split
    · exact ⟨s.calls, s.nextCallId, .inr rfl⟩
    · dsimp only
      split
      · exact ⟨_, _, .inl rfl⟩
      · split
        · exact ⟨_, _, .inl rfl⟩
        · exact ⟨_, _, .inl rfl⟩

theorem raceRuns_eq {id : Nat} {call : InFlightCall ι ρ} {now : Int} {t : Supervisor ι ρ}
    (h : s.raceRuns opts id call now = some t) :
    ∃ calls, t = { s with calls } ∨ t = { (s.allow opts now).1 with calls } := by
  have hcrash : ∀ run, ∃ calls, s.surfaceCrash opts id run now = { s with calls } ∨
      s.surfaceCrash opts id run now = { (s.allow opts now).1 with calls } := by
    intro run
    unfold surfaceCrash
    split
    · exact ⟨_, .inl rfl⟩
    · exact ⟨_, .inr rfl⟩
  unfold raceRuns at h
  dsimp only at h
  split at h
  · cases h
  · cases h
  · obtain rfl := Option.some.inj h
    split
    · exact ⟨_, .inl rfl⟩
    · exact hcrash _
  · obtain rfl := Option.some.inj h
    split
    · exact ⟨_, .inl rfl⟩
    · split
      · exact hcrash _
      · exact ⟨_, .inl rfl⟩

theorem rejectAll_eq (opts : SupervisorOptions ι) (s : Supervisor ι ρ) (now : Int) :
    ∃ circuit probes calls, s.rejectAll opts now = { s with circuit, probes, calls } := by
  unfold rejectAll
  split
  · exact ⟨s.circuit, s.probes, _, rfl⟩
  · obtain ⟨probes, hallow⟩ := allow_eq opts s now
    rw [hallow]
    exact ⟨_, probes, _, rfl⟩

theorem rejectAll_calls (opts : SupervisorOptions ι) (s : Supervisor ι ρ) (now : Int) :
    ∃ result, ∀ id, (s.rejectAll opts now).calls id =
      (s.calls id).map fun call => if call.tracked then call.finish result else call := by
  unfold rejectAll
  split
  · exact ⟨_, fun _ => rfl⟩
  · obtain ⟨probes, hallow⟩ := allow_eq opts s now
    rw [hallow]
    exact ⟨_, fun _ => rfl⟩

end Supervisor

theorem InFlightCall.crash_eq {ι ρ : Type} (call : InFlightCall ι ρ) :
    ∃ race, call.crash = { call with race } := by
  unfold InFlightCall.crash
  cases call.race with
  | pending => exact ⟨.crashed, rfl⟩
  | answered result => exact ⟨call.race, rfl⟩
  | crashed => exact ⟨call.race, rfl⟩
  | done => exact ⟨call.race, rfl⟩

/-- The end of a generation touches no more than the race of a call. -/
theorem InFlightCall.ended_eq {ι ρ : Type} (call : InFlightCall ι ρ) (generation : Nat) :
    ∃ race, (if call.generation = generation then call.crash else call) = { call with race } := by
  split
  · exact call.crash_eq
  · exact ⟨call.race, rfl⟩

/-! ### The steps that are taken -/

/-- A step as it is taken: what it finds, and what it leaves. -/
inductive Taken {ι ρ : Type} (opts : SupervisorOptions ι) (s : Supervisor ι ρ) :
    SupervisorLabel ι ρ → Supervisor ι ρ → Prop where
  | start : Taken opts s .start s.start
  | stop (now : Int) : Taken opts s (.stop now) (s.stop opts now)
  | stopTornDown (hstopping : s.stopping = .tearing) :
      Taken opts s .stopTornDown { s with
        stopping := .awaiting (if s.nextLoop = 0 then none else some (s.nextLoop - 1)) }
  | stopResolves {awaited : Option Nat} (hstopping : s.stopping = .awaiting awaited)
      (hended : ∀ i, awaited = some i → (s.loops i).phase = .ended) :
      Taken opts s .stopResolves { s with
        stopping := .done
        stopResolved := true }
  | asks (now : Int) : Taken opts s (.asks now) (s.allow opts now).1
  | drainSettles {i : Nat} {active : List Nat} (hphase : (s.loops i).phase = .draining active)
      (hall : (active.all fun id => (s.calls id).all (·.settled)) = true) :
      Taken opts s (.drainSettles i) { s.setPhase i (.drained []) with cancelActiveDrain := none }
  | drainTimesOut {i : Nat} {active : List Nat} (hphase : (s.loops i).phase = .draining active) :
      Taken opts s (.drainTimesOut i) (s.endDrain i)
  | respawns {i : Nat} {overflow : List Nat} (hphase : (s.loops i).phase = .drained overflow) :
      Taken opts s (.respawns i) (s.respawn opts i overflow)
  | tornDown {i : Nat} (hphase : (s.loops i).phase = .tearing) :
      Taken opts s (.tornDown i) (s.whileNotStopped i)
  | wakes {i : Nat} (hphase : (s.loops i).phase = .sleeping) (created : Bool) :
      Taken opts s (.wakes i created) (s.wake i created)
  | initialized {i fresh : Nat} (hphase : (s.loops i).phase = .initializing fresh) (ok : Bool) :
      Taken opts s (.initialized i ok) (s.setPhase i (if ok then .listing fresh else .failed))
  | listed {i fresh : Nat} (hphase : (s.loops i).phase = .listing fresh) (ok : Bool) :
      Taken opts s (.listed i ok) (if ok then s.install i fresh else s.setPhase i .failed)
  | discarded {i : Nat} (hphase : (s.loops i).phase = .discarding) :
      Taken opts s (.discarded i) (s.setPhase i .failed)
  | catches {i : Nat} (hphase : (s.loops i).phase = .failed) (now : Int) :
      Taken opts s (.catches i now) (s.catchBoot opts i now)
  | continues {i : Nat} (hphase : (s.loops i).phase = .booted) (now : Int) :
      Taken opts s (.continues i now) (s.continueLoop opts i now)
  | resumes {i : Nat} (hphase : (s.loops i).phase = .returned) :
      Taken opts s (.resumes i) (s.resume opts i)
  | exits {c : Nat} (hc : c < s.nextClient) (reason : MCPLifecycleExitReason) :
      Taken opts s (.exits c reason) (s.onExit c reason)
  | exitRuns {myGen : Nat} {reason : MCPRestartReason} (hmem : (myGen, reason) ∈ s.exits)
      (now : Int) :
      Taken opts s (.exitRuns myGen reason now)
        (if myGen = s.generation then
          { s with exits := s.exits.erase (myGen, reason) }.triggerRestart opts now reason
        else { s with exits := s.exits.erase (myGen, reason) })
  | pingFires (harmed : s.pingArmed = true) (pings : List Nat) (pingArmed : Bool) :
      Taken opts s .pingFires { s with
        pings
        pingArmed }
  | pingAnswers {currentGen : Nat} {ok : Bool} {now : Int} (hmem : currentGen ∈ s.pings)
      (pingArmed : Bool) (pingFailures : Nat) :
      Taken opts s (.pingAnswers currentGen ok now) { s with
        pings := s.pings.erase currentGen
        pingArmed
        pingFailures }
  | pingFails {currentGen : Nat} {now : Int} (hmem : currentGen ∈ s.pings)
      (hcurrent : currentGen = s.generation)
      (hthreshold : opts.pingFailureThreshold.1 ≤ s.pingFailures + 1) :
      Taken opts s (.pingAnswers currentGen false now)
        ({ s with
          pings := s.pings.erase currentGen
          pingFailures := 0 }.triggerRestart opts now .pingFailed)
  | probeStops {now : Int} (hprobes : 0 < s.probes) :
      Taken opts s (.probeRuns now) { s with probes := s.probes - 1 }
  | probeRuns {now : Int} (hprobes : 0 < s.probes) :
      Taken opts s (.probeRuns now)
        (let (t, ok) := { s with probes := s.probes - 1 }.allow opts now
        if !ok then t
        else if t.state = .reconnecting then t
        else t.triggerRestart opts now .probe)
  | callTool (toolName : String) (input : ι) (taken : Bool) (now : Int) :
      Taken opts s (.callTool toolName input taken now) (s.callTool opts toolName input taken now).1
  | answers {id : Nat} {call : InFlightCall ι ρ} (hcall : s.calls id = some call)
      (hrace : call.race = .pending) (result : Except String ρ) :
      Taken opts s (.answers id result) (s.setCall id { call with race := .answered result })
  | raceRuns {id : Nat} {call : InFlightCall ι ρ} {now : Int} {t : Supervisor ι ρ}
      (hcall : s.calls id = some call) (hruns : s.raceRuns opts id call now = some t) :
      Taken opts s (.raceRuns id now) t
  | reissueAnswers {id i : Nat} {call : InFlightCall ι ρ} (hcall : s.calls id = some call)
      (hi : i ∈ call.reissues) (result : Except String ρ) :
      Taken opts s (.reissueAnswers id i result) (s.reissueAnswers id i call result)

/-- **What a step finds and leaves.** -/
theorem taken_of_step {ι ρ : Type} {opts : SupervisorOptions ι} {s t : Supervisor ι ρ}
    {label : SupervisorLabel ι ρ} (hstep : supervisorStep opts s label = some t) :
    Taken opts s label t := by
  cases label with
  | start =>
    cases hstep
    exact .start
  | stop now =>
    cases hstep
    exact .stop now
  | asks now =>
    cases hstep
    exact .asks now
  | callTool toolName input taken now =>
    cases hstep
    exact .callTool toolName input taken now
  | stopTornDown =>
    simp only [supervisorStep] at hstep
    split at hstep
    · rename_i hstopping
      cases hstep
      exact .stopTornDown hstopping
    · cases hstep
  | stopResolves =>
    simp only [supervisorStep] at hstep
    split at hstep
    · rename_i hstopping
      cases hstep
      exact .stopResolves hstopping nofun
    · rename_i i hstopping
      split at hstep
      · rename_i hended
        cases hstep
        refine .stopResolves hstopping fun j hj => ?_
        cases hj
        exact hended
      · cases hstep
    · cases hstep
  | drainSettles i =>
    simp only [supervisorStep] at hstep
    split at hstep
    · rename_i active hphase
      split at hstep
      · rename_i hall
        cases hstep
        exact .drainSettles hphase hall
      · cases hstep
    · cases hstep
  | drainTimesOut i =>
    simp only [supervisorStep] at hstep
    split at hstep
    · rename_i active hphase
      cases hstep
      exact .drainTimesOut hphase
    · cases hstep
  | respawns i =>
    simp only [supervisorStep] at hstep
    split at hstep
    · rename_i overflow hphase
      cases hstep
      exact .respawns hphase
    · cases hstep
  | tornDown i =>
    simp only [supervisorStep] at hstep
    split at hstep
    · rename_i hphase
      cases hstep
      exact .tornDown hphase
    · cases hstep
  | wakes i created =>
    simp only [supervisorStep] at hstep
    split at hstep
    · rename_i hphase
      cases hstep
      exact .wakes hphase created
    · cases hstep
  | initialized i ok =>
    simp only [supervisorStep] at hstep
    split at hstep
    · rename_i fresh hphase
      cases hstep
      exact .initialized hphase ok
    · cases hstep
  | listed i ok =>
    simp only [supervisorStep] at hstep
    split at hstep
    · rename_i fresh hphase
      cases hstep
      exact .listed hphase ok
    · cases hstep
  | discarded i =>
    simp only [supervisorStep] at hstep
    split at hstep
    · rename_i hphase
      cases hstep
      exact .discarded hphase
    · cases hstep
  | catches i now =>
    simp only [supervisorStep] at hstep
    split at hstep
    · rename_i hphase
      cases hstep
      exact .catches hphase now
    · cases hstep
  | continues i now =>
    simp only [supervisorStep] at hstep
    split at hstep
    · rename_i hphase
      cases hstep
      exact .continues hphase now
    · cases hstep
  | resumes i =>
    simp only [supervisorStep] at hstep
    split at hstep
    · rename_i hphase
      cases hstep
      exact .resumes hphase
    · cases hstep
  | exits c reason =>
    simp only [supervisorStep] at hstep
    split at hstep
    · rename_i hc
      cases hstep
      exact .exits hc reason
    · cases hstep
  | exitRuns myGen reason now =>
    simp only [supervisorStep, Supervisor.exitRuns] at hstep
    split at hstep
    · rename_i hmem
      cases hstep
      exact .exitRuns hmem now
    · cases hstep
  | pingFires =>
    simp only [supervisorStep, Supervisor.pingFires] at hstep
    split at hstep
    · rename_i harmed
      cases hstep
      split
      · exact .pingFires harmed _ _
      · split
        · exact .pingFires harmed _ _
        · exact .pingFires harmed _ _
    · cases hstep
  | pingAnswers currentGen ok now =>
    simp only [supervisorStep, Supervisor.pingAnswers] at hstep
    split at hstep
    · rename_i hmem
      cases hstep
      split
      · exact .pingAnswers hmem _ _
      · rename_i hcurrent
        split
        · exact .pingAnswers hmem _ _
        · rename_i hok
          obtain rfl := Bool.eq_false_iff.mpr hok
          split
          · rename_i hthreshold
            exact .pingFails hmem (not_not.mp fun hne => hcurrent (.inr hne)) hthreshold
          · exact .pingAnswers hmem _ _
    · cases hstep
  | probeRuns now =>
    simp only [supervisorStep, Supervisor.probeRuns] at hstep
    split at hstep
    · rename_i hprobes
      cases hstep
      split
      · exact .probeStops hprobes
      · exact .probeRuns hprobes
    · cases hstep
  | answers id result =>
    simp only [supervisorStep] at hstep
    split at hstep
    · rename_i call hcall
      split at hstep
      · rename_i hrace
        cases hstep
        exact .answers hcall hrace result
      · cases hstep
    · cases hstep
  | raceRuns id now =>
    simp only [supervisorStep] at hstep
    split at hstep
    · rename_i call hcall
      exact .raceRuns hcall hstep
    · cases hstep
  | reissueAnswers id i result =>
    simp only [supervisorStep] at hstep
    split at hstep
    · rename_i call hcall
      split at hstep
      · rename_i hi
        cases hstep
        exact .reissueAnswers hcall hi result
      · cases hstep
    · cases hstep

theorem Supervisor.onExit_eq {ι ρ : Type} (s : Supervisor ι ρ) (c : Nat)
    (reason : MCPLifecycleExitReason) : ∃ exits, s.onExit c reason = { s with exits } := by
  unfold Supervisor.onExit
  dsimp only
  split
  · exact ⟨_, rfl⟩
  · cases reason <;> exact ⟨_, rfl⟩

end Declaragent.Mcp

import Declaragent.Library.Transition

/-!
# Fleet — following the logs of many hosts

Each host has a loop: it opens a stream, reads it until it ends, waits, and tries again.  `stop`
aborts the requests and clears the timers; nothing else wakes a loop that waits.

* `hostStep`: the loop of one host, from one `await` or call of the handler to the next.
* `hostStep_kept`: what a step of a loop keeps.
* `stop_completes_iff`: after a stop all loops go on, exactly if none was waiting for its timer.
* `ends_of_scheduled`: loops that go on come to an end.
-/

namespace Declaragent.Fleet
open Transition

structure FleetHost where
  name : String
  url : String
  /-- `auth.bearer` -/
  bearer : Option String := none

inductive SystemKind where
  | connected | disconnected | dropped | reconnecting | error
  deriving DecidableEq

structure MultiHostLogSystem where
  host : String
  kind : SystemKind
  message : String
  retryInMs : Option Nat := none
  deriving DecidableEq

/-- What the handler gets; the lines of the logs are not looked at here. -/
inductive MultiHostLogEvent (ι : Type) where
  | log (line : ι)
  | system (event : MultiHostLogSystem)
  deriving DecidableEq

structure TailOptions where
  agent : Option String := none
  initialReconnectDelayMs : Nat := 500
  maxReconnectDelayMs : Nat := 30000
  /-- The token, or the text of the error that is thrown. -/
  resolveBearerToken : String → Except String String
  /-- A value as `URLSearchParams` writes it. -/
  encodeParam : String → String

structure FetchResponse where
  ok : Bool
  status : Nat
  statusText : String
  hasBody : Bool

/-- How a stream ends, or a request, or a read: with a value, or with the text of an error. -/
abbrev Outcome (α : Type) := Except String α

/-- What a loop goes on with once the promise it waits for is settled. -/
inductive Resumption (ι : Type) where
  | fetched (res : Outcome FetchResponse)
  /-- The events of the frames that a chunk completes, or the end of the stream. -/
  | read (result : Outcome (Option (List (MultiHostLogEvent ι))))
  /-- `streamOnce` is over. -/
  | ended (outcome : Outcome Unit)
  | woken

/-- Where a loop is when it calls the handler. -/
inductive HandlerCall (ι : Type) where
  | connected
  | frames (rest : List (MultiHostLogEvent ι))
  | disconnected
  | error
  | reconnecting

inductive LoopPoint (ι : Type) where
  | fetching
  | reading
  /-- `await reader.cancel()`, and what `streamOnce` ends with. -/
  | cancelling (outcome : Outcome Unit)
  | sleeping
  | ready (next : Resumption ι)
  | calling (call : HandlerCall ι)
  /-- The loop is over, or an error of the handler has ended it. -/
  | exited (thrown : Option String)

/-- `PerHostState`, and where the loop is. -/
structure HostLoop (ι : Type) where
  host : FleetHost
  currentDelay : Nat
  /-- The controller of the last attempt, and whether it is aborted. -/
  aborter : Option Bool := none
  /-- The timer is armed. -/
  backoffTimer : Bool := false
  done : Bool := false
  point : LoopPoint ι

variable {ι : Type}

section
variable (opts : TailOptions)

/-- The address without the slashes at its end, and the query. -/
def logsUrl (host : FleetHost) : String :=
  let base := String.ofList (host.url.toList.reverse.dropWhile (· = '/')).reverse
  match opts.agent.filter (· ≠ "") with
  | some agent => base ++ "/logs?agent=" ++ opts.encodeParam agent
  | none => base ++ "/logs?all=1"

/-- A host loop, and the event that it calls the handler with. -/
abbrev Emits (ι : Type) := HostLoop ι × Option (MultiHostLogEvent ι)

namespace HostLoop

def goto (h : HostLoop ι) (point : LoopPoint ι) : Emits ι := ({ h with point := point }, none)

def calls (h : HostLoop ι) (call : HandlerCall ι) (event : MultiHostLogEvent ι) : Emits ι :=
  ({ h with point := .calling call }, some event)

def system (h : HostLoop ι) (call : HandlerCall ι) (kind : SystemKind) (message : String)
    (retryInMs : Option Nat := none) : Emits ι :=
  h.calls call (.system { host := h.host.name, kind, message, retryInMs })

def exit (h : HostLoop ι) : Emits ι := ({ h with done := true, point := .exited none }, none)

/-- The beginning of an attempt, as far as the request. -/
def attempt (h : HostLoop ι) : HostLoop ι :=
  let h := { h with aborter := some false }
  match h.host.bearer.map opts.resolveBearerToken with
  | some (.error msg) => { h with point := .ready (.ended (.error msg)) }
  | _ => { h with point := .fetching }

/-- The loop from `while` on. -/
def iterate (stopped : Bool) (h : HostLoop ι) : Emits ι :=
  if stopped then h.exit else (h.attempt opts, none)

/-- Behind the `try`. -/
def afterAttempt (stopped : Bool) (h : HostLoop ι) : Emits ι :=
  if stopped then h.exit
  else h.system .reconnecting .reconnecting s!"retrying in {h.currentDelay}ms" h.currentDelay

def catchError (stopped : Bool) (h : HostLoop ι) (msg : String) : Emits ι :=
  if stopped then h.exit else h.system .error .error msg

def readOn (h : HostLoop ι) : List (MultiHostLogEvent ι) → Emits ι
  | [] => h.goto .reading
  | event :: rest => h.calls (.frames rest) event

/-- A settled promise: the loop runs on to the next `await` or call of the handler. -/
def resume (stopped : Bool) (h : HostLoop ι) : Resumption ι → Emits ι
  | .fetched (.error msg) => h.goto (.ready (.ended (.error msg)))
  | .fetched (.ok res) =>
    if ¬ res.ok then h.goto (.ready (.ended (.error s!"{res.status} {res.statusText}")))
    else if ¬ res.hasBody then h.goto (.ready (.ended (.error "response has no body")))
    else h.system .connected .connected s!"streaming from {logsUrl opts h.host}"
  | .read (.error msg) => h.goto (.cancelling (.error msg))
  | .read (.ok none) => h.goto (.cancelling (.ok ()))
  | .read (.ok (some events)) => h.readOn events
  | .ended (.ok ()) =>
    let h := { h with currentDelay := opts.initialReconnectDelayMs }
    if stopped then h.afterAttempt stopped
    else h.system .disconnected .disconnected "stream ended; reconnecting"
  | .ended (.error msg) => h.catchError stopped msg
  | .woken =>
    { h with currentDelay := min (h.currentDelay * 2) opts.maxReconnectDelayMs }.iterate opts
      stopped

/-- The handler returns. -/
def handled (stopped : Bool) (h : HostLoop ι) : HandlerCall ι → Emits ι
  | .connected => h.goto .reading
  | .frames rest => h.readOn rest
  | .disconnected | .error => h.afterAttempt stopped
  | .reconnecting => { h with backoffTimer := true }.goto .sleeping

/-- The handler throws. -/
def handlerThrew (stopped : Bool) (h : HostLoop ι) (msg : String) : HandlerCall ι → Emits ι
  | .connected => h.goto (.ready (.ended (.error msg)))
  | .frames _ => h.goto (.cancelling (.error msg))
  | .disconnected => h.catchError stopped msg
  | .error | .reconnecting => h.goto (.exited (some msg))

/-- What `stop` does to a host. -/
def stop (h : HostLoop ι) : HostLoop ι :=
  { h with aborter := h.aborter.map fun _ => true, backoffTimer := false }

end HostLoop

/-- What may happen to the loop of a host. -/
inductive HostAct (ι : Type) where
  | fetchSettles (res : Outcome FetchResponse)
  | readSettles (result : Outcome (Option (List (MultiHostLogEvent ι))))
  /-- The request or the read is rejected, as its signal is aborted. -/
  | abortRejects
  | cancelSettles
  | timerFires
  | continues
  | returns
  | throws (msg : String)

def abortMessage : String := "The operation was aborted."

def hostStep (stopped : Bool) (h : HostLoop ι) : HostAct ι → Option (Emits ι)
  | .fetchSettles res =>
    match h.point with
    | .fetching => some (h.goto (.ready (.fetched res)))
    | _ => none
  | .readSettles result =>
    match h.point with
    | .reading => some (h.goto (.ready (.read result)))
    | _ => none
  | .abortRejects =>
    if h.aborter = some true then
      match h.point with
      | .fetching => some (h.goto (.ready (.fetched (.error abortMessage))))
      | .reading => some (h.goto (.ready (.read (.error abortMessage))))
      | _ => none
    else none
  | .cancelSettles =>
    match h.point with
    | .cancelling outcome => some (h.goto (.ready (.ended outcome)))
    | _ => none
  | .timerFires =>
    match h.point, h.backoffTimer with
    | .sleeping, true => some ({ h with backoffTimer := false }.goto (.ready .woken))
    | _, _ => none
  | .continues =>
    match h.point with
    | .ready next => some (h.resume opts stopped next)
    | _ => none
  | .returns =>
    match h.point with
    | .calling call => some (h.handled stopped call)
    | _ => none
  | .throws msg =>
    match h.point with
    | .calling call => some (h.handlerThrew stopped msg call)
    | _ => none

structure TailState (ι : Type) where
  hosts : List (HostLoop ι)
  stopped : Bool := false
  /-- The host whose loop is calling the handler. -/
  running : Option Nat := none
  /-- The calls of the handler. -/
  events : List (MultiHostLogEvent ι) := []

inductive TailAct (ι : Type) where
  | stop
  | host (i : Nat) (act : HostAct ι)

def LoopPoint.isCalling : LoopPoint ι → Bool
  | .calling _ => true
  | _ => false

/-- One thread: while a loop calls the handler no other goes on, but the handler may stop. -/
def tailStep (s : TailState ι) : TailAct ι → Option (TailState ι)
  | .stop =>
    if s.stopped then some s
    else some { s with stopped := true, hosts := s.hosts.map HostLoop.stop }
  | .host i act =>
    if s.running = none ∨ s.running = some i then do
      let h ← s.hosts[i]?
      let (h, event) ← hostStep opts s.stopped h act
      some { s with
        hosts := s.hosts.set i h
        running := if h.point.isCalling then some i else none
        events := s.events ++ event.toList }
    else none

/-- `tailLogsMultiHost`, when it returns: each loop has begun its first attempt. -/
def tailLogsMultiHost (hosts : List FleetHost) : TailState ι where
  hosts := hosts.map fun host =>
    HostLoop.attempt opts
      { host, currentDelay := opts.initialReconnectDelayMs, point := .exited none }

end

/-! ### What wakes a loop -/

def LoopPoint.isExited : LoopPoint ι → Bool
  | .exited _ => true
  | _ => false

/-- The loop goes on without a word of its host: what it waits for is aborted, or its timer is
armed, or it waits for nothing. -/
def HostLoop.Scheduled (h : HostLoop ι) : Prop :=
  match h.point with
  | .fetching | .reading => h.aborter = some true
  | .sleeping => h.backoffTimer = true
  | .cancelling _ | .ready _ | .calling _ | .exited _ => True

/-- Steps that no host has a part in. -/
def TailAct.Own : TailAct ι → Prop
  | .stop | .host _ (.fetchSettles _) | .host _ (.readSettles _) => False
  | .host _ _ => True

namespace TailState

/-- `done` is not settled: a loop has not ended. -/
def Pending (s : TailState ι) : Prop := ∃ h ∈ s.hosts, h.point.isExited = false

/-- Once stopped, every loop that has not ended goes on, and while one has not there is something
that happens next. -/
structure StopCompletes (opts : TailOptions) (s : TailState ι) : Prop where
  scheduled : s.stopped = true → ∀ h ∈ s.hosts, h.Scheduled
  goes_on : s.stopped = true → s.Pending → ∃ act : TailAct ι, act.Own ∧
    (tailStep opts s act).isSome

end TailState

/-- No loop waits for its timer when `stop` is called for the first time. -/
def NoneSleeping (s : TailState ι) : TailAct ι → Prop
  | .stop => s.stopped = false → ∀ h ∈ s.hosts, h.backoffTimer = false
  | .host _ _ => True

/-- The controller is aborted by a stop only, and until then a timer is armed exactly while the loop
sleeps. -/
structure HostLoop.Sound (stopped : Bool) (h : HostLoop ι) : Prop where
  aborter : h.aborter = some stopped
  timer : stopped = false → (h.backoffTimer = true ↔ h.point = .sleeping)

variable {opts : TailOptions} {stopped : Bool} {h h' : HostLoop ι} {act : HostAct ι}
  {event : Option (MultiHostLogEvent ι)}

namespace HostLoop

/-- A loop that does not sleep. -/
structure Awake (stopped : Bool) (h : HostLoop ι) : Prop where
  aborter : h.aborter = some stopped
  timer : stopped = false → h.backoffTimer = false

/-- A loop that stands where it may, and goes on once stopped. -/
structure Fine (stopped : Bool) (h : HostLoop ι) : Prop where
  sound : h.Sound stopped
  scheduled : stopped = true → h.Scheduled

theorem Sound.awake (hs : h.Sound stopped) (hpoint : h.point ≠ .sleeping) : h.Awake stopped := by
  refine ⟨hs.aborter, fun hstopped => ?_⟩
  cases htimer : h.backoffTimer with
  | false => rfl
  | true => exact absurd ((hs.timer hstopped).mp htimer) hpoint

theorem Awake.fine (ha : h.Awake stopped) (hpoint : h.point ≠ .sleeping) : h.Fine stopped := by
  refine ⟨⟨ha.aborter, fun hstopped => ?_⟩, ?_⟩
  · rw [ha.timer hstopped]
    exact ⟨fun htimer => absurd htimer Bool.false_ne_true, fun hsleeps => absurd hsleeps hpoint⟩
  · rintro rfl
    unfold Scheduled
    split
    · exact ha.aborter
    · exact ha.aborter
    · rename_i hsleeps
      exact absurd hsleeps hpoint
    all_goals trivial

section
variable (ha : h.Awake stopped)
include ha

theorem Awake.goto {point : LoopPoint ι} (hpoint : point ≠ .sleeping) :
    (h.goto point).1.Fine stopped :=
  Awake.fine (h := (h.goto point).1) ⟨ha.aborter, ha.timer⟩ hpoint

theorem Awake.calls (call : HandlerCall ι) (event : MultiHostLogEvent ι) :
    (h.calls call event).1.Fine stopped := ha.goto (by simp)

theorem Awake.exit : h.exit.1.Fine stopped :=
  Awake.fine (h := h.exit.1) ⟨ha.aborter, ha.timer⟩ (by simp [HostLoop.exit])

theorem Awake.afterAttempt : (h.afterAttempt stopped).1.Fine stopped := by
  unfold HostLoop.afterAttempt
  split
  · exact ha.exit
  · exact ha.calls _ _

theorem Awake.catchError (msg : String) : (h.catchError stopped msg).1.Fine stopped := by
  unfold HostLoop.catchError
  split
  · exact ha.exit
  · exact ha.calls _ _

theorem Awake.readOn (events : List (MultiHostLogEvent ι)) :
    (h.readOn events).1.Fine stopped := by
  cases events with
  | nil => exact ha.goto (by simp)
  | cons event rest => exact ha.calls _ _

/-- A new attempt has a controller of its own. -/
theorem Awake.iterate (opts : TailOptions) : (h.iterate opts stopped).1.Fine stopped := by
  unfold HostLoop.iterate
  split
  · exact ha.exit
  · rename_i hstopped
    obtain rfl := Bool.eq_false_iff.mpr hstopped
    unfold HostLoop.attempt
    dsimp only
    split
    · exact Awake.fine ⟨rfl, ha.timer⟩ (by simp)
    · exact Awake.fine ⟨rfl, ha.timer⟩ (by simp)

theorem Awake.resume (opts : TailOptions) (next : Resumption ι) :
    (h.resume opts stopped next).1.Fine stopped := by
  unfold HostLoop.resume
  split
  · exact ha.goto (by simp)
  · split
    · exact ha.goto (by simp)
    · split
      · exact ha.goto (by simp)
      · exact ha.calls _ _
  · exact ha.goto (by simp)
  · exact ha.goto (by simp)
  · exact ha.readOn _
  · dsimp only
    have hreset : Awake stopped { h with currentDelay := opts.initialReconnectDelayMs } :=
      ⟨ha.aborter, ha.timer⟩
    split
    · exact hreset.afterAttempt
    · exact hreset.calls _ _
  · exact ha.catchError _
  · have hdelay : Awake stopped
        { h with currentDelay := min (h.currentDelay * 2) opts.maxReconnectDelayMs } :=
      ⟨ha.aborter, ha.timer⟩
    exact hdelay.iterate opts

/-- A loop that the handler has told to wait arms its timer, even where the handler has stopped. -/
theorem Awake.handled (call : HandlerCall ι) : (h.handled stopped call).1.Fine stopped := by
  unfold HostLoop.handled
  split
  · exact ha.goto (by simp)
  · exact ha.readOn _
  · exact ha.afterAttempt
  · exact ha.afterAttempt
  · exact ⟨⟨ha.aborter, fun _ => ⟨fun _ => rfl, fun _ => rfl⟩⟩, fun _ => rfl⟩

theorem Awake.handlerThrew (msg : String) (call : HandlerCall ι) :
    (h.handlerThrew stopped msg call).1.Fine stopped := by
  unfold HostLoop.handlerThrew
  split
  · exact ha.goto (by simp)
  · exact ha.goto (by simp)
  · exact ha.catchError _
  · exact ha.goto (by simp)
  · exact ha.goto (by simp)

end

end HostLoop

/-- A step of a loop leads to where the loop goes on once stopped, and from there. -/
theorem hostStep_kept (hs : h.Sound stopped)
    (hstep : hostStep opts stopped h act = some (h', event)) :
    h'.Fine stopped ∧ (stopped = true → h.Scheduled) := by
  have hawake : ∀ {point : LoopPoint ι}, h.point = point → point ≠ .sleeping →
      h.Awake stopped ∧ (stopped = true → h.Scheduled) := by
    rintro point rfl hsleeps
    exact ⟨hs.awake hsleeps, ((hs.awake hsleeps).fine hsleeps).scheduled⟩
  cases act with
  | fetchSettles res =>
    dsimp only [hostStep] at hstep
    split at hstep
    · rename_i hpoint
      obtain ⟨ha, hscheduled⟩ := hawake hpoint (by simp)
      cases hstep
      exact ⟨ha.goto (by simp), hscheduled⟩
    · cases hstep
  | readSettles result =>
    dsimp only [hostStep] at hstep
    split at hstep
    · rename_i hpoint
      obtain ⟨ha, hscheduled⟩ := hawake hpoint (by simp)
      cases hstep
      exact ⟨ha.goto (by simp), hscheduled⟩
    · cases hstep
  | abortRejects =>
    dsimp only [hostStep] at hstep
    split at hstep
    · split at hstep
      · rename_i hpoint
        obtain ⟨ha, hscheduled⟩ := hawake hpoint (by simp)
        cases hstep
        exact ⟨ha.goto (by simp), hscheduled⟩
      · rename_i hpoint
        obtain ⟨ha, hscheduled⟩ := hawake hpoint (by simp)
        cases hstep
        exact ⟨ha.goto (by simp), hscheduled⟩
      · cases hstep
    · cases hstep
  | cancelSettles =>
    dsimp only [hostStep] at hstep
    split at hstep
    · rename_i hpoint
      obtain ⟨ha, hscheduled⟩ := hawake hpoint (by simp)
      cases hstep
      exact ⟨ha.goto (by simp), hscheduled⟩
    · cases hstep
  | timerFires =>
    dsimp only [hostStep] at hstep
    split at hstep
    · rename_i hpoint htimer
      cases hstep
      have ha : HostLoop.Awake stopped { h with backoffTimer := false } :=
        ⟨hs.aborter, fun _ => rfl⟩
      refine ⟨ha.goto (by simp), fun _ => ?_⟩
      unfold HostLoop.Scheduled
      rw [hpoint]
      exact htimer
    · cases hstep
  | continues =>
    dsimp only [hostStep] at hstep
    split at hstep
    · rename_i next hpoint
      obtain ⟨ha, hscheduled⟩ := hawake hpoint (by simp)
      have hfine := ha.resume opts next
      rw [Option.some.inj hstep] at hfine
      exact ⟨hfine, hscheduled⟩
    · cases hstep
  | returns =>
    dsimp only [hostStep] at hstep
    split at hstep
    · rename_i call hpoint
      obtain ⟨ha, hscheduled⟩ := hawake hpoint (by simp)
      have hfine := ha.handled call
      rw [Option.some.inj hstep] at hfine
      exact ⟨hfine, hscheduled⟩
    · cases hstep
  | throws msg =>
    dsimp only [hostStep] at hstep
    split at hstep
    · rename_i call hpoint
      obtain ⟨ha, hscheduled⟩ := hawake hpoint (by simp)
      have hfine := ha.handlerThrew msg call
      rw [Option.some.inj hstep] at hfine
      exact ⟨hfine, hscheduled⟩
    · cases hstep

/-! ### All loops -/

variable {s t : TailState ι} {i : Nat}

/-- The loops are sound, and the one that runs is calling the handler. -/
structure TailState.Sound (s : TailState ι) : Prop where
  hosts : ∀ h ∈ s.hosts, h.Sound s.stopped
  running : ∀ i, s.running = some i → ∃ h call, s.hosts[i]? = some h ∧ h.point = .calling call

/-- What a step of a loop does to the whole. -/
theorem tailStep_host_inv (hstep : tailStep opts s (.host i act) = some t) :
    ∃ h h' event, s.hosts[i]? = some h ∧ hostStep opts s.stopped h act = some (h', event) ∧
      t = { s with
        hosts := s.hosts.set i h'
        running := if h'.point.isCalling then some i else none
        events := s.events ++ event.toList } := by
  unfold tailStep at hstep
  dsimp only at hstep
  split at hstep
  · cases hhost : s.hosts[i]? with
    | none =>
      rw [hhost] at hstep
      cases hstep
    | some h =>
      rw [hhost, Option.bind_eq_bind, Option.bind_some] at hstep
      cases hloop : hostStep opts s.stopped h act with
      | none =>
        rw [hloop] at hstep
        cases hstep
      | some result =>
        rw [hloop] at hstep
        exact ⟨h, result.1, result.2, rfl, hloop, (Option.some.inj hstep).symm⟩
  · cases hstep

theorem forall_set_iff {α : Type} {Q : α → Prop} {l : List α} {i : Nat} {a b : α}
    (hget : l[i]? = some a) (ha : Q a) (hb : Q b) : (∀ x ∈ l.set i b, Q x) ↔ ∀ x ∈ l, Q x := by
  constructor
  · intro hall x hx
    obtain ⟨j, hj⟩ := List.mem_iff_getElem?.mp hx
    by_cases hij : i = j
    · subst hij
      rw [hget] at hj
      cases hj
      exact ha
    · refine hall x (List.mem_iff_getElem?.mpr ⟨j, ?_⟩)
      rwa [List.getElem?_set_ne hij]
  · intro hall x hx
    rcases List.mem_or_eq_of_mem_set hx with hx | rfl
    · exact hall x hx
    · exact hb

theorem HostLoop.Sound.stop (hs : h.Sound false) : h.stop.Sound true := by
  refine ⟨?_, fun hstopped => absurd hstopped.symm Bool.false_ne_true⟩
  rw [HostLoop.stop, hs.aborter]
  rfl

/-- A loop goes on after the stop exactly if it does not wait for its timer. -/
theorem HostLoop.Sound.stop_scheduled (hs : h.Sound false) :
    h.stop.Scheduled ↔ h.backoffTimer = false := by
  by_cases hpoint : h.point = .sleeping
  · have htimer : h.backoffTimer = true := (hs.timer rfl).mpr hpoint
    simp [HostLoop.Scheduled, HostLoop.stop, hpoint, htimer]
  · have hsleeps : h.stop.point ≠ .sleeping := hpoint
    exact ⟨fun _ => (hs.awake hpoint).timer rfl,
      fun _ => ((hs.stop.awake hsleeps).fine hsleeps).scheduled rfl⟩

/-- Where every loop goes on, and one has not ended, something happens next. -/
theorem TailState.Sound.goes_on (hs : s.Sound) (hscheduled : ∀ h ∈ s.hosts, h.Scheduled)
    (hpending : s.Pending) (opts : TailOptions) :
    ∃ act : TailAct ι, act.Own ∧ (tailStep opts s act).isSome := by
  have hgo : ∀ i h act, s.hosts[i]? = some h → (s.running = none ∨ s.running = some i) →
      (hostStep opts s.stopped h act).isSome → (tailStep opts s (.host i act)).isSome := by
    intro i h act hget hrunning hsome
    obtain ⟨result, hresult⟩ := Option.isSome_iff_exists.mp hsome
    simp [tailStep, hrunning, hget, hresult]
  cases hrunning : s.running with
  | some i =>
    obtain ⟨h, call, hget, hpoint⟩ := hs.running i hrunning
    refine ⟨.host i .returns, trivial, hgo i h _ hget (.inr hrunning) ?_⟩
    simp [hostStep, hpoint]
  | none =>
    obtain ⟨h, hmem, hexited⟩ := hpending
    obtain ⟨i, hget⟩ := List.mem_iff_getElem?.mp hmem
    have hgo := fun act => hgo i h act hget (.inl hrunning)
    have hwakes := hscheduled h hmem
    unfold HostLoop.Scheduled at hwakes
    cases hpoint : h.point with
    | fetching =>
      rw [hpoint] at hwakes
      exact ⟨.host i .abortRejects, trivial, hgo _ (by simp [hostStep, hpoint, hwakes])⟩
    | reading =>
      rw [hpoint] at hwakes
      exact ⟨.host i .abortRejects, trivial, hgo _ (by simp [hostStep, hpoint, hwakes])⟩
    | cancelling outcome =>
      exact ⟨.host i .cancelSettles, trivial, hgo _ (by simp [hostStep, hpoint])⟩
    | sleeping =>
      rw [hpoint] at hwakes
      exact ⟨.host i .timerFires, trivial, hgo _ (by simp [hostStep, hpoint, hwakes])⟩
    | ready next => exact ⟨.host i .continues, trivial, hgo _ (by simp [hostStep, hpoint])⟩
    | calling call => exact ⟨.host i .returns, trivial, hgo _ (by simp [hostStep, hpoint])⟩
    | exited thrown =>
      rw [hpoint] at hexited
      cases hexited

theorem TailState.Sound.completes_iff (hs : s.Sound) : s.StopCompletes opts ↔
    (s.stopped = true → ∀ h ∈ s.hosts, h.Scheduled) :=
  ⟨fun hcompletes => hcompletes.scheduled, fun hscheduled =>
    ⟨hscheduled, fun hstopped hpending => hs.goes_on (hscheduled hstopped) hpending opts⟩⟩

theorem TailState.Sound.stop (hs : s.Sound) (hrunning : s.stopped = false) :
    TailState.Sound { s with stopped := true, hosts := s.hosts.map HostLoop.stop } := by
  refine ⟨fun h hmem => ?_, fun i hi => ?_⟩
  · obtain ⟨h, hold, rfl⟩ := List.mem_map.mp hmem
    exact (hrunning ▸ hs.hosts h hold).stop
  · obtain ⟨h, call, hget, hpoint⟩ := hs.running i hi
    refine ⟨h.stop, call, ?_, hpoint⟩
    rw [List.getElem?_map, hget, Option.map_some]

theorem TailState.Sound.host (hs : s.Sound) (hstep : tailStep opts s (.host i act) = some t) :
    t.Sound ∧ ((t.stopped = true → ∀ h ∈ t.hosts, h.Scheduled) ↔
      (s.stopped = true → ∀ h ∈ s.hosts, h.Scheduled)) := by
  obtain ⟨h, h', event, hget, hloop, rfl⟩ := tailStep_host_inv hstep
  have hsound := hs.hosts h (List.mem_of_getElem? hget)
  obtain ⟨hfine, hscheduled⟩ := hostStep_kept hsound hloop
  refine ⟨⟨(forall_set_iff hget hsound hfine.sound).mpr hs.hosts, fun j hj => ?_⟩, ?_⟩
  · dsimp only at hj
    split at hj
    · rename_i hcalling
      obtain rfl := Option.some.inj hj
      have hlt : i < s.hosts.length := (List.getElem?_eq_some_iff.mp hget).1
      cases hpoint : h'.point with
      | calling call => exact ⟨h', call, List.getElem?_set_self hlt, hpoint⟩
      | _ => rw [hpoint] at hcalling; cases hcalling
    · cases hj
  · exact forall_congr' fun hstopped =>
      forall_set_iff hget (hscheduled hstopped) (hfine.scheduled hstopped)

/-- What a step keeps, and when every loop goes on after it. -/
theorem tailStep_kept {act : TailAct ι} (hs : s.Sound) (hstep : tailStep opts s act = some t) :
    t.Sound ∧ (t.StopCompletes opts ↔ s.StopCompletes opts ∧ NoneSleeping s act) := by
  cases act with
  | host i act =>
    obtain ⟨hsound, hiff⟩ := hs.host hstep
    exact ⟨hsound, by rw [hsound.completes_iff, hs.completes_iff, hiff]; simp [NoneSleeping]⟩
  | stop =>
    unfold tailStep at hstep
    dsimp only at hstep
    split at hstep
    · rename_i hstopped
      obtain rfl := Option.some.inj hstep
      refine ⟨hs, fun hcompletes => ⟨hcompletes, fun hfalse => ?_⟩, fun hboth => hboth.1⟩
      rw [hstopped] at hfalse
      cases hfalse
    · rename_i hstopped
      have hrunning : s.stopped = false := Bool.eq_false_iff.mpr hstopped
      obtain rfl := Option.some.inj hstep
      have hsound := hs.stop hrunning
      refine ⟨hsound, ?_⟩
      rw [hsound.completes_iff, hs.completes_iff]
      have hloops : ∀ h ∈ s.hosts, h.stop.Scheduled ↔ h.backoffTimer = false := fun h hmem =>
        (hrunning ▸ hs.hosts h hmem).stop_scheduled
      constructor
      · intro hall
        refine ⟨fun hfalse => absurd hfalse hstopped, fun _ h hmem => ?_⟩
        exact (hloops h hmem).mp (hall rfl h.stop (List.mem_map_of_mem hmem))
      · rintro ⟨-, htimers⟩ - h hmem
        obtain ⟨h, hold, rfl⟩ := List.mem_map.mp hmem
        exact (hloops h hold).mpr (htimers hrunning h hold)

theorem sound_tailLogsMultiHost (opts : TailOptions) (hosts : List FleetHost) :
    (tailLogsMultiHost opts hosts : TailState ι).Sound := by
  refine ⟨fun h hmem => ?_, fun i hi => nomatch hi⟩
  obtain ⟨host, -, rfl⟩ := List.mem_map.mp hmem
  have hawake : (HostLoop.mk host opts.initialReconnectDelayMs (some false) false false
      (.exited none) : HostLoop ι).Awake false := ⟨rfl, fun _ => rfl⟩
  exact (hawake.iterate opts).sound

/-- **Every loop goes on after a stop** exactly if none was waiting for its timer at the stop. -/
theorem stop_completes_iff (opts : TailOptions) (hosts : List FleetHost)
    {acts : List (TailAct ι)} {t : TailState ι}
    (r : Run (tailStep opts) Any (tailLogsMultiHost opts hosts) acts t) :
    t.StopCompletes opts ↔
      Run (tailStep opts) NoneSleeping (tailLogsMultiHost opts hosts) acts t := by
  have hsound := sound_tailLogsMultiHost (ι := ι) opts hosts
  have hbegin : (tailLogsMultiHost opts hosts : TailState ι).StopCompletes opts :=
    hsound.completes_iff.mpr fun hstopped => absurd hstopped Bool.false_ne_true
  exact Run.meets_iff_of hsound hbegin (fun _ _ _ hs hstep => tailStep_kept hs hstep) r

def plainOptions : TailOptions where
  resolveBearerToken token := .ok token
  encodeParam value := value

def silentHost : FleetHost where
  name := "a"
  url := "http://a"

/-- A stop before any host has answered. -/
theorem stop_completes_iff_at_once : ∃ t : TailState Unit, t.stopped = true ∧
    (t.StopCompletes plainOptions ↔ Run (tailStep plainOptions) NoneSleeping
      (tailLogsMultiHost plainOptions [silentHost]) [.stop] t) := by
  refine ⟨_, rfl, stop_completes_iff plainOptions [silentHost] (.snoc .nil trivial rfl)⟩

/-! ### A loop that nothing wakes -/

def LoopPoint.isSleeping : LoopPoint ι → Bool
  | .sleeping => true
  | _ => false

/-- The loop waits for a timer that is cleared. -/
def HostLoop.isAsleep (h : HostLoop ι) : Bool := h.point.isSleeping && !h.backoffTimer

/-- `stop` has been called, and a loop waits for a timer that is cleared. -/
def TailState.isAbandoned (s : TailState ι) : Bool := s.stopped && s.hosts.any HostLoop.isAsleep

theorem isAsleep_iff : h.isAsleep = true ↔ h.point = .sleeping ∧ h.backoffTimer = false := by
  unfold HostLoop.isAsleep LoopPoint.isSleeping
  cases h.point <;> simp

theorem isAbandoned_iff : s.isAbandoned = true ↔
    s.stopped = true ∧ ∃ (i : Nat) (h : HostLoop ι), s.hosts[i]? = some h ∧ h.isAsleep = true := by
  unfold TailState.isAbandoned
  rw [Bool.and_eq_true, List.any_eq_true]
  refine and_congr_right fun _ => ⟨?_, ?_⟩
  · rintro ⟨h, hmem, hasleep⟩
    obtain ⟨i, hget⟩ := List.mem_iff_getElem?.mp hmem
    exact ⟨i, h, hget, hasleep⟩
  · rintro ⟨i, h, hget, hasleep⟩
    exact ⟨h, List.mem_of_getElem? hget, hasleep⟩

theorem hostStep_asleep (opts : TailOptions) (stopped : Bool) (hasleep : h.isAsleep = true)
    (act : HostAct ι) : hostStep opts stopped h act = none := by
  obtain ⟨hpoint, htimer⟩ := isAsleep_iff.mp hasleep
  cases act <;> simp [hostStep, hpoint, htimer]

theorem isAbandoned_step {act : TailAct ι} (ha : s.isAbandoned = true)
    (hstep : tailStep opts s act = some t) : t.isAbandoned = true := by
  obtain ⟨hstopped, i, h, hget, hasleep⟩ := isAbandoned_iff.mp ha
  cases act with
  | stop =>
    rw [tailStep, if_pos hstopped] at hstep
    cases hstep
    exact ha
  | host j act =>
    obtain ⟨g, g', event, hget', hloop, rfl⟩ := tailStep_host_inv hstep
    have hne : j ≠ i := by
      rintro rfl
      obtain rfl := Option.some.inj (hget'.symm.trans hget)
      rw [hostStep_asleep opts s.stopped hasleep] at hloop
      cases hloop
    refine isAbandoned_iff.mpr ⟨hstopped, i, h, ?_, hasleep⟩
    rw [← hget]
    exact List.getElem?_set_ne hne

/-- Whatever happens, `done` is never settled. -/
theorem pending_of_isAbandoned {acts : List (TailAct ι)} (ha : s.isAbandoned = true)
    (r : Run (tailStep opts) Any s acts t) : t.Pending := by
  have hkept : t.isAbandoned = true :=
    Run.invariant (P := fun u => u.isAbandoned = true) ha
      (fun _ _ _ ha _ hstep => isAbandoned_step ha hstep) r
  obtain ⟨-, i, h, hget, hasleep⟩ := isAbandoned_iff.mp hkept
  refine ⟨h, List.mem_of_getElem? hget, ?_⟩
  rw [(isAsleep_iff.mp hasleep).1]
  rfl

/-- The host does not answer, its loop waits, and the user stops. -/
def stopWhileWaiting : List (TailAct Unit) :=
  [.host 0 (.fetchSettles (.error "down")), .host 0 .continues, .host 0 .continues,
    .host 0 .returns, .host 0 .returns, .stop]

/-- `stop` never returns. -/
theorem stop_hangs : ∃ t : TailState Unit,
    Run (tailStep plainOptions) Any (tailLogsMultiHost plainOptions [silentHost])
      stopWhileWaiting t ∧
    ¬ t.StopCompletes plainOptions ∧
    ∀ acts t', Run (tailStep plainOptions) Any t acts t' → t'.Pending := by
  have hreplay : (exec (tailStep plainOptions) (tailLogsMultiHost plainOptions [silentHost])
      stopWhileWaiting).any TailState.isAbandoned = true := rfl
  obtain ⟨t, r, ht⟩ := Run.any_of_replay hreplay
  refine ⟨t, r, fun hcompletes => ?_, fun acts t' r' => pending_of_isAbandoned ht r'⟩
  obtain ⟨hstopped, i, h, hget, hasleep⟩ := isAbandoned_iff.mp ht
  obtain ⟨hpoint, htimer⟩ := isAsleep_iff.mp hasleep
  have hscheduled := hcompletes.scheduled hstopped h (List.mem_of_getElem? hget)
  rw [HostLoop.Scheduled, hpoint] at hscheduled
  exact absurd (htimer.symm.trans hscheduled) Bool.false_ne_true

end Declaragent.Fleet

import Declaragent.Library.JsValue
import Declaragent.Library.Transition

/-!
# Events — the hot reload of a daemon's sources

The daemon keeps its sources twice: `loaded` by the key `<type>:<config.id>` that a reload
compares, and the public `sources` by the id of the instance alone.  A reload first stops what is
removed or changed, through the extension registry, and then starts what is added or changed.
A start that fails is logged; a stop that rejects ends the reload, and one that does not settle in
time is made a second time, directly, while the registry waits for the first.

* `Sound` is what reloads keep that meet `Orderly`.
* `Sound.reload_iff`: a reload comes to what it should exactly when it meets `Orderly`.
* `reloads_iff` says so of all the reloads of a daemon.
-/

namespace Declaragent.Events
open Transition JsonText

/-! ### The configuration -/

structure ConfiguredSource where
  type : String
  config : Json

/-- `config.id`, where it is a text and not empty. -/
def ConfiguredSource.id? (spec : ConfiguredSource) : Option String :=
  match spec.config.field "id" with
  | some (.str id) => if id = "" then none else some id
  | _ => none

def sourceKey (spec : ConfiguredSource) : Except String String :=
  match spec.id? with
  | some id => .ok (spec.type ++ ":" ++ id)
  | none =>
    .error ("daemon: source config for type \"" ++ spec.type ++
      "\" must have a non-empty string \"id\" field for reload to work")

/-- The fields in the order of their keys' code units. -/
def sortKeys (parts : List (String × String)) : List (String × String) :=
  parts.insertionSort fun a b => utf16 a.1 ≤ utf16 b.1

mutual

def stableStringify : Json → String
  | .arr items => "[" ++ ",".intercalate (stableItems items) ++ "]"
  | .obj fields =>
    "\x7b" ++ ",".intercalate ((sortKeys (stableFields fields)).map fun p =>
      stringify (.str p.1) ++ ":" ++ p.2) ++ "\x7d"
  | value => stringify value

def stableItems : List Json → List String
  | [] => []
  | item :: items => stableStringify item :: stableItems items

def stableFields : List (String × Json) → List (String × String)
  | [] => []
  | (key, value) :: fields => (key, stableStringify value) :: stableFields fields

end

def configEqual (a b : Json) : Bool := stableStringify a == stableStringify b

/-! ### The daemon -/

/-- A running source; no two instances have the same serial number. -/
structure SourceInstance where
  serial : Nat
  type : String
  id : String

structure LoadedSource where
  spec : ConfiguredSource
  inst : SourceInstance
  extensionId : String

/-- `extensions` are the registered ones, `stopping` those whose stop has not settled in time.
`instances` logs what was registered, and `stops` counts the calls of `stop` on each of them. -/
structure DaemonState where
  loaded : List (String × LoadedSource) := []
  sources : String → Option SourceInstance := fun _ => none
  extensions : String → Bool := fun _ => false
  stopping : String → Bool := fun _ => false
  created : Nat := 0
  instances : List SourceInstance := []
  stops : Nat → Nat := fun _ => 0

inductive StopOutcome where
  | resolves
  | rejects
  /-- It does not settle within the time allowed. -/
  | hangs
  deriving DecidableEq

inductive StartOutcome where
  | resolves
  /-- There is no adapter, or it does not take the configuration. -/
  | notCreated
  | rejects
  deriving DecidableEq

def extensionId (type id : String) : String := "event-source:" ++ (type ++ ":" ++ id)

namespace DaemonState

def countStop (s : DaemonState) (inst : SourceInstance) : DaemonState :=
  { s with stops := Function.update s.stops inst.serial (s.stops inst.serial + 1) }

/-- The registry has forgotten the extension. -/
def release (s : DaemonState) (extensionId : String) : DaemonState :=
  { s with
    extensions := Function.update s.extensions extensionId false
    stopping := Function.update s.stopping extensionId false }

/-- The stop settles after its time. -/
def settle (s : DaemonState) (extensionId : String) : Option DaemonState :=
  if s.stopping extensionId then some (s.release extensionId) else none

def forget (s : DaemonState) (key : String) (entry : LoadedSource) : DaemonState :=
  { s with
    loaded := s.loaded.filter fun p => p.1 ≠ key
    sources := Function.update s.sources entry.inst.id none }

/-- `registry.unregister` has forgotten the extension also when its stop rejects. -/
def unregisterSource (s : DaemonState) (key : String) (stop : StopOutcome) :
    DaemonState × Except String Unit :=
  match s.loaded.lookup key with
  | none => (s, .ok ())
  | some entry =>
    if s.extensions entry.extensionId then
      match stop with
      | .resolves =>
        (((s.countStop entry.inst).release entry.extensionId).forget key entry, .ok ())
      | .rejects => ((s.countStop entry.inst).release entry.extensionId, .error "stop rejected")
      | .hangs =>
        -- the second stop is made directly, and its outcome ignored
        let s := (s.countStop entry.inst).countStop entry.inst
        ({ s with stopping := Function.update s.stopping entry.extensionId true }.forget key
          entry, .ok ())
    else (s, .error ("extension \"" ++ entry.extensionId ++ "\" is not registered"))

/-- The source runs. -/
def enter (s : DaemonState) (spec : ConfiguredSource) (id : String) : DaemonState :=
  let inst : SourceInstance := ⟨s.created, spec.type, id⟩
  { s with
    loaded := put (spec.type ++ ":" ++ id) ⟨spec, inst, extensionId spec.type id⟩ s.loaded
    sources := Function.update s.sources id (some inst)
    extensions := Function.update s.extensions (extensionId spec.type id) true
    created := s.created + 1
    instances := s.instances ++ [inst] }

/-- `settled` says that an earlier stop of this extension has settled by now. -/
def registerSource (s : DaemonState) (spec : ConfiguredSource) (start : StartOutcome)
    (settled : Bool) : Except String DaemonState :=
  match spec.id? with
  | none => .error "no id"
  | some id =>
    let extensionId := extensionId spec.type id
    let s := if settled && s.stopping extensionId then s.release extensionId else s
    match start with
    | .notCreated => .error "not created"
    | .rejects => .error "start rejected"
    | .resolves =>
      if s.extensions extensionId then
        .error ("extension id \"" ++ extensionId ++ "\" already registered by built-in; " ++
          "cannot register from built-in")
      else .ok (s.enter spec id)

/-- The sources that are to be stopped, one after the other, up to the first that cannot be. -/
def unregisterAll (stop : String → StopOutcome) :
    DaemonState → List String → DaemonState × Except String Unit
  | s, [] => (s, .ok ())
  | s, key :: keys =>
    match s.unregisterSource key (stop key) with
    | (s, .error e) => (s, .error e)
    | (s, .ok ()) => unregisterAll stop s keys

/-- The sources that are to be started; one that fails is logged. -/
def registerAll (start : String → StartOutcome) (settled : String → Bool) :
    DaemonState → List (String × ConfiguredSource) → DaemonState
  | s, [] => s
  | s, (key, spec) :: specs =>
    match s.registerSource spec (start key) (settled key) with
    | .error _ => registerAll start settled s specs
    | .ok s => registerAll start settled s specs

end DaemonState

/-- `newByKey`. -/
def collect (newByKey : List (String × ConfiguredSource)) :
    List ConfiguredSource → Except String (List (String × ConfiguredSource))
  | [] => .ok newByKey
  | spec :: specs =>
    match sourceKey spec with
    | .error e => .error e
    | .ok key =>
      if key ∈ newByKey.map (·.1) then
        .error ("daemon.reload: duplicate source key \"" ++ key ++ "\"")
      else collect (newByKey ++ [(key, spec)]) specs

/-- What a call of `reload` meets: the sources that it is given, or that its provider has, and how
the stops and starts of each key turn out. -/
structure Reload where
  newSources : Option (List ConfiguredSource)
  stop : String → StopOutcome
  start : String → StartOutcome
  settled : String → Bool

structure DaemonReloadResult where
  added : List String
  removed : List String
  changed : List String
  unchanged : List String

namespace DaemonState

def added (s : DaemonState) (newByKey : List (String × ConfiguredSource)) :
    List (String × ConfiguredSource) :=
  newByKey.filter fun p => (s.loaded.lookup p.1).isNone

/-- The configuration under the key is equal. -/
def sameConfig (s : DaemonState) (p : String × ConfiguredSource) : Bool :=
  (s.loaded.lookup p.1).any fun prior => configEqual prior.spec.config p.2.config

def unchanged (s : DaemonState) (newByKey : List (String × ConfiguredSource)) :
    List (String × ConfiguredSource) :=
  newByKey.filter s.sameConfig

def changed (s : DaemonState) (newByKey : List (String × ConfiguredSource)) :
    List (String × ConfiguredSource) :=
  newByKey.filter fun p => (s.loaded.lookup p.1).isSome && !s.sameConfig p

def removed (s : DaemonState) (newByKey : List (String × ConfiguredSource)) : List String :=
  (s.loaded.map (·.1)).filter fun key => key ∉ newByKey.map (·.1)

/-- The keys that a reload stops, in order. -/
def toStop (s : DaemonState) (newByKey : List (String × ConfiguredSource)) : List String :=
  s.removed newByKey ++ (s.changed newByKey).map (·.1)

/-- The sources that a reload starts, in order. -/
def toStart (s : DaemonState) (newByKey : List (String × ConfiguredSource)) :
    List (String × ConfiguredSource) :=
  s.added newByKey ++ s.changed newByKey

def doReload (s : DaemonState) (a : Reload) : DaemonState × Except String DaemonReloadResult :=
  match a.newSources with
  | none => (s, .ok ⟨[], [], [], s.loaded.map (·.1)⟩)
  | some newSources =>
    match collect [] newSources with
    | .error e => (s, .error e)
    | .ok newByKey =>
      match s.unregisterAll a.stop (s.toStop newByKey) with
      | (t, .error e) => (t, .error e)
      | (t, .ok ()) =>
        (t.registerAll a.start a.settled (s.toStart newByKey),
          .ok ⟨(s.added newByKey).map (·.1), s.removed newByKey,
            (s.changed newByKey).map (·.1), (s.unchanged newByKey).map (·.1)⟩)

end DaemonState

/-- `startDaemon` rejects where a source does not start. -/
def startDaemon : DaemonState → List ConfiguredSource → Except String DaemonState
  | s, [] => .ok s
  | s, spec :: specs =>
    match s.registerSource spec .resolves false with
    | .error e => .error e
    | .ok s => startDaemon s specs

inductive DaemonLabel where
  | reload (a : Reload)
  /-- A stop settles that did not in its time. -/
  | settles (extensionId : String)

def daemonStep (s : DaemonState) : DaemonLabel → Option DaemonState
  | .reload a => some (s.doReload a).1
  | .settles extensionId => s.settle extensionId

/-! ### What a reload should come to -/

def Reload.desired (a : Reload) : Option (List (String × ConfiguredSource)) :=
  a.newSources.bind fun newSources => (collect [] newSources).toOption

/-- The entry is configured, as it is. -/
def Wanted (newByKey : List (String × ConfiguredSource)) (p : String × LoadedSource) : Prop :=
  ∃ spec, newByKey.lookup p.1 = some spec ∧ configEqual p.2.spec.config spec.config = true

namespace DaemonState

/-- `sources` and `loaded` describe the same instances. -/
def Agree (s : DaemonState) : Prop :=
  ∀ type id, (∃ p ∈ s.loaded, p.2.inst.type = type ∧ p.2.inst.id = id) ↔
    ∃ key inst, s.sources key = some inst ∧ inst.type = type ∧ inst.id = id

/-- A reload that is given `newByKey` leads from `s` to `t`. -/
structure Reloaded (newByKey : List (String × ConfiguredSource)) (s t : DaemonState) : Prop where
  agree : t.Agree
  /-- Every instance that is not wanted, now or before, was stopped once. -/
  stopped : ∀ inst ∈ s.instances, (¬ ∃ p ∈ s.loaded, p.2.inst = inst ∧ Wanted newByKey p) →
    t.stops inst.serial = 1
  /-- Every instance that is wanted goes on as it was. -/
  kept : ∀ p ∈ s.loaded, Wanted newByKey p → p ∈ t.loaded ∧
    t.stops p.2.inst.serial = s.stops p.2.inst.serial ∧
    (s.sources p.2.inst.id = some p.2.inst → t.sources p.2.inst.id = some p.2.inst)

/-- A reload that is given nothing new, or that rejects its sources, does nothing. -/
def Reloads (s t : DaemonState) : DaemonLabel → Prop
  | .reload a =>
    match a.desired with
    | none => t.Agree ∧ t = s
    | some newByKey => Reloaded newByKey s t
  | .settles _ => True

/-! ### When it does -/

/-- The entry is registered: its `stop` has not been called. -/
def Live (s : DaemonState) (key : String) : Prop :=
  ∃ entry, (key, entry) ∈ s.loaded ∧ s.extensions entry.extensionId = true

/-- No stop hangs, and only the last one that is made may reject. -/
structure StopsOrderly (s : DaemonState) (stop : String → StopOutcome) (keys : List String) :
    Prop where
  settles : ∀ key ∈ keys, s.Live key → stop key ≠ .hangs
  last : keys.Pairwise fun key key' => s.Live key' → s.Live key ∧ stop key ≠ .rejects

/-- The ids of the sources that start. -/
def startedIds (start : String → StartOutcome) (specs : List (String × ConfiguredSource)) :
    List String :=
  (specs.filter fun p => start p.1 = .resolves).filterMap fun p => p.2.id?

/-- The ids of what a reload keeps and of what it starts. -/
def idsAfter (s : DaemonState) (start : String → StartOutcome)
    (newByKey : List (String × ConfiguredSource)) : List String :=
  ((s.loaded.filter fun p => p.1 ∉ s.toStop newByKey).map fun p => p.2.inst.id) ++
    startedIds start (s.toStart newByKey)

/-- The stops are orderly, and where all of them go through no id is used twice. -/
def Orderly (s : DaemonState) : DaemonLabel → Prop
  | .reload a =>
    ∀ newByKey, a.desired = some newByKey → s.StopsOrderly a.stop (s.toStop newByKey) ∧
      ((∀ key ∈ s.toStop newByKey, s.Live key ∧ a.stop key ≠ .rejects) →
        (s.idsAfter a.start newByKey).Nodup)
  | .settles _ => True

end DaemonState

/-! ### What every state keeps -/

theorem extensionId_inj {type id type' id' : String} :
    extensionId type id = extensionId type' id' ↔ type ++ ":" ++ id = type' ++ ":" ++ id' := by
  unfold extensionId
  constructor
  · intro h
    have h := congrArg String.toList h
    simp only [String.toList_append, List.append_cancel_left_eq] at h
    exact String.ext (by simpa only [String.toList_append] using h)
  · intro h
    rw [h]

namespace DaemonState
variable {s t : DaemonState}

/-- The keys are those of the instances, and the registry has no other extension. -/
structure Keyed (s : DaemonState) : Prop where
  keys : (s.loaded.map Prod.fst).Nodup
  entry : ∀ p ∈ s.loaded, p.1 = p.2.inst.type ++ ":" ++ p.2.inst.id ∧
    p.2.extensionId = extensionId p.2.inst.type p.2.inst.id
  sources : ∀ id inst, s.sources id = some inst → inst.id = id
  extensions : ∀ e, s.extensions e = true → ∃ p ∈ s.loaded, p.2.extensionId = e
  stopping : ∀ e, s.stopping e = false

/-- What the daemon has, between reloads and in the middle of them. -/
structure Sound (s : DaemonState) : Prop extends Keyed s where
  serials : (s.instances.map (·.serial)).Nodup
  created : ∀ inst ∈ s.instances, inst.serial < s.created
  unused : ∀ n, s.created ≤ n → s.stops n = 0
  logged : ∀ p ∈ s.loaded, p.2.inst ∈ s.instances
  listed : ∀ p ∈ s.loaded, s.sources p.2.inst.id = some p.2.inst
  known : ∀ id inst, s.sources id = some inst → ∃ p ∈ s.loaded, p.2.inst = inst
  stops : ∀ p ∈ s.loaded, s.stops p.2.inst.serial =
    if s.extensions p.2.extensionId then 0 else 1
  dropped : ∀ inst ∈ s.instances, (∀ p ∈ s.loaded, p.2.inst ≠ inst) → s.stops inst.serial = 1

theorem Keyed.eq_of_key (h : s.Keyed) {p q : String × LoadedSource} (hp : p ∈ s.loaded)
    (hq : q ∈ s.loaded) (e : p.1 = q.1) : p = q :=
  List.inj_on_of_nodup_map h.keys hp hq e

theorem Keyed.eq_of_inst (h : s.Keyed) {p q : String × LoadedSource} (hp : p ∈ s.loaded)
    (hq : q ∈ s.loaded) (e : p.2.inst = q.2.inst) : p = q :=
  h.eq_of_key hp hq (by rw [(h.entry p hp).1, (h.entry q hq).1, e])

theorem Keyed.eq_of_extension (h : s.Keyed) {p q : String × LoadedSource} (hp : p ∈ s.loaded)
    (hq : q ∈ s.loaded) (e : p.2.extensionId = q.2.extensionId) : p = q := by
  rw [(h.entry p hp).2, (h.entry q hq).2, extensionId_inj, ← (h.entry p hp).1,
    ← (h.entry q hq).1] at e
  exact h.eq_of_key hp hq e

theorem Keyed.lookup (h : s.Keyed) {p : String × LoadedSource} (hp : p ∈ s.loaded) :
    s.loaded.lookup p.1 = some p.2 := (lookup_eq_some_iff_mem h.keys).mpr hp

theorem Keyed.live_iff (h : s.Keyed) {p : String × LoadedSource} (hp : p ∈ s.loaded) :
    s.Live p.1 ↔ s.extensions p.2.extensionId = true := by
  constructor
  · rintro ⟨entry, hmem, hlive⟩
    rwa [h.eq_of_key hp hmem rfl]
  · exact fun hlive => ⟨p.2, hp, hlive⟩

theorem Sound.eq_of_serial (h : s.Sound) {i j : SourceInstance} (hi : i ∈ s.instances)
    (hj : j ∈ s.instances) (e : i.serial = j.serial) : i = j :=
  List.inj_on_of_nodup_map h.serials hi hj e

theorem Sound.agree (h : s.Sound) : s.Agree := by
  intro type id
  constructor
  · rintro ⟨p, hp, rfl, rfl⟩
    exact ⟨_, _, h.listed p hp, rfl, rfl⟩
  · rintro ⟨key, inst, hinst, rfl, rfl⟩
    obtain ⟨p, hp, rfl⟩ := h.known key inst hinst
    exact ⟨p, hp, rfl, rfl⟩

/-- Where the collections agree, no id is used twice. -/
theorem Keyed.nodup_of_agree (h : s.Keyed) (hagree : s.Agree) :
    (s.loaded.map fun p => p.2.inst.id).Nodup := by
  have hkeys := List.Nodup.of_map _ h.keys
  refine (List.nodup_map_iff_inj_on hkeys).mpr fun p hp q hq e => ?_
  obtain ⟨k, i, hi, hitype, hiid⟩ := (hagree p.2.inst.type p.2.inst.id).mp ⟨p, hp, rfl, rfl⟩
  obtain ⟨k', j, hj, hjtype, hjid⟩ := (hagree q.2.inst.type q.2.inst.id).mp ⟨q, hq, rfl, rfl⟩
  have hk : k = k' := by
    rw [← h.sources k i hi, ← h.sources k' j hj, hiid, hjid, e]
  subst hk
  have hij : i = j := Option.some.inj (hi.symm.trans hj)
  refine h.eq_of_key hp hq ?_
  rw [(h.entry p hp).1, (h.entry q hq).1, ← hitype, ← hjtype, hij, e]

/-! ### A stop -/

/-- The stop of a registered source rejects. -/
theorem Sound.rejected (h : s.Sound) {p : String × LoadedSource} (hp : p ∈ s.loaded)
    (hlive : s.extensions p.2.extensionId = true) :
    ((s.countStop p.2.inst).release p.2.extensionId).Sound := by
  have hstops (i : SourceInstance) (hi : i ∈ s.instances) (hne : p.2.inst ≠ i) :
      (s.countStop p.2.inst).stops i.serial = s.stops i.serial := by
    refine Function.update_of_ne (fun e => hne ?_) _ _
    exact (h.eq_of_serial hi (h.logged p hp) e).symm
  have hself : (s.countStop p.2.inst).stops p.2.inst.serial = 1 := by
    have hzero := h.stops p hp
    rw [if_pos hlive] at hzero
    simp [countStop, hzero]
  refine
    { keys := h.keys
      entry := h.entry
      sources := h.sources
      extensions := fun e he => ?_
      stopping := fun e => ?_
      serials := h.serials
      created := h.created
      unused := fun n hn => ?_
      logged := h.logged
      listed := h.listed
      known := h.known
      stops := fun q hq => ?_
      dropped := fun inst hinst hdropped => ?_ }
  · by_cases hne : e = p.2.extensionId
    · subst hne
      simp [release] at he
    · refine h.extensions e ?_
      simpa [release, countStop, hne] using he
  · by_cases hne : e = p.2.extensionId
    · simp [release, hne]
    · simpa [release, countStop, hne] using h.stopping e
  · have hlt := h.created _ (h.logged p hp)
    have hne : n ≠ p.2.inst.serial := by
      rintro rfl
      exact absurd hlt (Nat.not_lt.mpr hn)
    exact (Function.update_of_ne hne _ _).trans (h.unused n hn)
  · by_cases e : q = p
    · subst e
      refine hself.trans ?_
      simp [release]
    · have hne : q.2.extensionId ≠ p.2.extensionId := fun hext => e (h.eq_of_extension hq hp hext)
      have hinst : p.2.inst ≠ q.2.inst := fun hi => e (h.eq_of_inst hq hp hi.symm)
      refine (hstops _ (h.logged q hq) hinst).trans ((h.stops q hq).trans ?_)
      simp [release, countStop, hne]
  · exact (hstops inst hinst (hdropped p hp)).trans (h.dropped inst hinst hdropped)

/-- The daemon forgets a source that was stopped. -/
theorem Sound.forget (h : s.Sound) {p : String × LoadedSource} (hp : p ∈ s.loaded)
    (hdead : s.extensions p.2.extensionId = false) : (s.forget p.1 p.2).Sound := by
  have hmem {q : String × LoadedSource} (hq : q ∈ (s.forget p.1 p.2).loaded) :
      q ∈ s.loaded ∧ q ≠ p := by
    obtain ⟨hq, hne⟩ := List.mem_filter.mp hq
    exact ⟨hq, fun e => of_decide_eq_true hne (congrArg Prod.fst e)⟩
  have hrest {q : String × LoadedSource} (hq : q ∈ s.loaded) (hne : q ≠ p) :
      q ∈ (s.forget p.1 p.2).loaded :=
    List.mem_filter.mpr ⟨hq, decide_eq_true fun e => hne (h.eq_of_key hq hp e)⟩
  refine
    { keys := ?_
      entry := fun q hq => h.entry q (hmem hq).1
      sources := fun id inst hinst => ?_
      extensions := fun e he => ?_
      stopping := h.stopping
      serials := h.serials
      created := h.created
      unused := h.unused
      logged := fun q hq => h.logged q (hmem hq).1
      listed := fun q hq => ?_
      known := fun id inst hinst => ?_
      stops := fun q hq => h.stops q (hmem hq).1
      dropped := fun inst hinst hdropped => ?_ }
  · exact h.keys.sublist (List.filter_sublist.map _)
  · by_cases e : id = p.2.inst.id
    · subst e
      simp [DaemonState.forget] at hinst
    · refine h.sources id inst ?_
      simpa [DaemonState.forget, e] using hinst
  · obtain ⟨q, hq, rfl⟩ := h.extensions e he
    refine ⟨q, hrest hq ?_, rfl⟩
    rintro rfl
    exact absurd (hdead.symm.trans he) (by decide)
  · obtain ⟨hq, hne⟩ := hmem hq
    refine (Function.update_of_ne (fun e => hne ?_) _ _).trans (h.listed q hq)
    have hsame : some q.2.inst = some p.2.inst := by
      rw [← h.listed q hq, ← h.listed p hp, e]
    exact h.eq_of_inst hq hp (Option.some.inj hsame)
  · by_cases e : id = p.2.inst.id
    · subst e
      simp [DaemonState.forget] at hinst
    · have hold : s.sources id = some inst := by simpa [DaemonState.forget, e] using hinst
      obtain ⟨q, hq, rfl⟩ := h.known id inst hold
      refine ⟨q, hrest hq ?_, rfl⟩
      rintro rfl
      exact e (h.sources id _ hold).symm
  · by_cases e : p.2.inst = inst
    · subst e
      refine (h.stops p hp).trans ?_
      rw [hdead]
      rfl
    · refine h.dropped inst hinst fun q hq hi => ?_
      by_cases hqp : q = p
      · exact e (hqp ▸ hi)
      · exact hdropped q (hrest hq hqp) hi

/-- A stop that settles in time. -/
def drop (s : DaemonState) (p : String × LoadedSource) : DaemonState :=
  ((s.countStop p.2.inst).release p.2.extensionId).forget p.1 p.2

theorem Sound.drop (h : s.Sound) {p : String × LoadedSource} (hp : p ∈ s.loaded)
    (hlive : s.extensions p.2.extensionId = true) : (s.drop p).Sound :=
  (h.rejected hp hlive).forget hp (by simp [release])

theorem mem_drop (h : s.Keyed) {p q : String × LoadedSource} (hp : p ∈ s.loaded) :
    q ∈ (s.drop p).loaded ↔ q ∈ s.loaded ∧ q ≠ p := by
  refine List.mem_filter.trans (and_congr_right fun hq => ?_)
  rw [decide_eq_true_iff, not_iff_not]
  exact ⟨fun e => h.eq_of_key hq hp e, fun e => congrArg Prod.fst e⟩

theorem Sound.live_drop (h : s.Sound) {p : String × LoadedSource} (hp : p ∈ s.loaded) {key : String}
    (hkey : key ≠ p.1) : (s.drop p).Live key ↔ s.Live key := by
  have hext {entry : LoadedSource} (hmem : (key, entry) ∈ s.loaded) :
      (s.drop p).extensions entry.extensionId = s.extensions entry.extensionId := by
    refine Function.update_of_ne (fun e => hkey ?_) _ _
    exact congrArg Prod.fst (h.eq_of_extension hmem hp e)
  constructor
  · rintro ⟨entry, hmem, hlive⟩
    obtain ⟨hmem, -⟩ := (mem_drop h.toKeyed hp).mp hmem
    exact ⟨entry, hmem, (hext hmem) ▸ hlive⟩
  · rintro ⟨entry, hmem, hlive⟩
    refine ⟨entry, (mem_drop h.toKeyed hp).mpr ⟨hmem, fun e => hkey (congrArg Prod.fst e)⟩, ?_⟩
    rwa [hext hmem]

/-! ### The stops of a reload -/

/-- The first stop goes through. -/
theorem stopsOrderly_of_goes {stop : String → StopOutcome} {key : String} {keys : List String}
    (hlive : s.Live key) (hstop : stop key = .resolves)
    (ht : ∀ key' ∈ keys, t.Live key' ↔ s.Live key') :
    s.StopsOrderly stop (key :: keys) ↔ t.StopsOrderly stop keys := by
  constructor
  · rintro ⟨hsettles, hlast⟩
    refine ⟨fun key' hmem hlive' => ?_, (List.pairwise_cons.mp hlast).2.imp_of_mem ?_⟩
    · exact hsettles key' (List.mem_cons_of_mem _ hmem) ((ht key' hmem).mp hlive')
    · intro k k' hk hk' hnext hlive'
      rw [ht k hk]
      exact hnext ((ht k' hk').mp hlive')
  · rintro ⟨hsettles, hlast⟩
    refine ⟨fun key' hmem hlive' => ?_, List.pairwise_cons.mpr ⟨fun _ _ _ => ?_, ?_⟩⟩
    · rcases List.mem_cons.mp hmem with rfl | hmem
      · simp [hstop]
      · exact hsettles key' hmem ((ht key' hmem).mpr hlive')
    · exact ⟨hlive, by simp [hstop]⟩
    · refine hlast.imp_of_mem fun {k k'} hk hk' hnext hlive' => ?_
      rw [← ht k hk]
      exact hnext ((ht k' hk').mpr hlive')

/-- The first stop does not go through. -/
theorem stopsOrderly_of_fails {stop : String → StopOutcome} {key : String} {keys : List String}
    (hfails : ¬ (s.Live key ∧ stop key ≠ .rejects)) (hsettles : s.Live key → stop key ≠ .hangs) :
    s.StopsOrderly stop (key :: keys) ↔ ∀ key' ∈ keys, ¬ s.Live key' := by
  constructor
  · intro h key' hmem hlive
    exact hfails ((List.pairwise_cons.mp h.last).1 key' hmem hlive)
  · intro hnone
    refine ⟨fun key' hmem hlive => ?_, List.pairwise_cons.mpr ⟨fun key' hmem hlive => ?_, ?_⟩⟩
    · rcases List.mem_cons.mp hmem with rfl | hmem
      · exact hsettles hlive
      · exact absurd hlive (hnone key' hmem)
    · exact absurd hlive (hnone key' hmem)
    · exact List.pairwise_of_forall_mem_list fun k _ k' hk' hlive => absurd hlive (hnone k' hk')

/-- What the stop of a key can be. -/
theorem Keyed.unregisterSource_cases (h : s.Keyed) {p : String × LoadedSource} (hp : p ∈ s.loaded)
    (stop : StopOutcome) :
    (s.Live p.1 ∧ stop = .resolves ∧ s.unregisterSource p.1 stop = (s.drop p, .ok ())) ∨
    (s.Live p.1 ∧ stop = .hangs ∧ ∃ t, s.unregisterSource p.1 stop = (t, .ok ()) ∧
      (∀ q ∈ t.loaded, q ∈ s.loaded ∧ q ≠ p) ∧
      t.stops p.2.inst.serial = s.stops p.2.inst.serial + 2) ∨
    (s.Live p.1 ∧ stop = .rejects ∧ ∃ e, s.unregisterSource p.1 stop =
      ((s.countStop p.2.inst).release p.2.extensionId, .error e)) ∨
    (¬ s.Live p.1 ∧ ∃ e, s.unregisterSource p.1 stop = (s, .error e)) := by
  rw [h.live_iff hp]
  unfold unregisterSource
  rw [h.lookup hp]
  dsimp only
  by_cases hlive : s.extensions p.2.extensionId = true
  · rw [if_pos hlive]
    cases stop with
    | resolves => exact .inl ⟨hlive, rfl, rfl⟩
    | rejects => exact .inr (.inr (.inl ⟨hlive, rfl, _, rfl⟩))
    | hangs =>
      refine .inr (.inl ⟨hlive, rfl, _, rfl, fun q hq => ?_, ?_⟩)
      · obtain ⟨hq, hne⟩ := List.mem_filter.mp hq
        exact ⟨hq, fun e => of_decide_eq_true hne (congrArg Prod.fst e)⟩
      · simp [DaemonState.forget, countStop]
  · rw [if_neg hlive]
    exact .inr (.inr (.inr ⟨hlive, _, rfl⟩))

theorem unregisterSource_stops {n : Nat} (key : String) (stop : StopOutcome)
    (hn : ∀ q ∈ s.loaded, q.2.inst.serial ≠ n) :
    (s.unregisterSource key stop).1.stops n = s.stops n ∧
      ∀ q ∈ (s.unregisterSource key stop).1.loaded, q ∈ s.loaded := by
  unfold unregisterSource
  split
  · exact ⟨rfl, fun _ hq => hq⟩
  · rename_i entry hlookup
    have hne : n ≠ entry.inst.serial := by
      obtain ⟨front, back, hloaded, -⟩ := List.lookup_eq_some_iff.mp hlookup
      exact (hn (key, entry) (by simp [hloaded])).symm
    split
    · cases stop with
      | resolves =>
        exact ⟨Function.update_of_ne hne _ _, fun q hq => (List.mem_filter.mp hq).1⟩
      | rejects => exact ⟨Function.update_of_ne hne _ _, fun _ hq => hq⟩
      | hangs =>
        refine ⟨?_, fun q hq => (List.mem_filter.mp hq).1⟩
        exact (Function.update_of_ne hne _ _).trans (Function.update_of_ne hne _ _)
    · exact ⟨rfl, fun _ hq => hq⟩

/-- A source that is not loaded is not stopped. -/
theorem unregisterAll_stops {n : Nat} (stop : String → StopOutcome) :
    ∀ (keys : List String) {s : DaemonState}, (∀ q ∈ s.loaded, q.2.inst.serial ≠ n) →
      (s.unregisterAll stop keys).1.stops n = s.stops n
  | [], _, _ => rfl
  | key :: keys, s, hn => by
      obtain ⟨hstops, hloaded⟩ := unregisterSource_stops key (stop key) hn
      unfold unregisterAll
      split
      · rename_i t e ht
        rw [ht] at hstops
        exact hstops
      · rename_i t ht
        rw [ht] at hstops hloaded
        exact (unregisterAll_stops stop keys fun q hq => hn q (hloaded q hq)).trans hstops

/-- The first stop does not go through. -/
theorem Sound.unregisterAll_fails (h : s.Sound) {stop : String → StopOutcome} {key : String}
    {entry : LoadedSource} (hp : (key, entry) ∈ s.loaded) (keys : List String)
    (hcase : (s.Live key ∧ stop key = .rejects ∧ ∃ x, s.unregisterSource key (stop key) =
        ((s.countStop entry.inst).release entry.extensionId, .error x)) ∨
      (¬ s.Live key ∧ ∃ x, s.unregisterSource key (stop key) = (s, .error x))) :
    ∃ t x, s.unregisterAll stop (key :: keys) = (t, .error x) ∧ t.Sound ∧ t.loaded = s.loaded ∧
      t.instances = s.instances ∧ t.stops entry.inst.serial = 1 ∧
      ∀ q ∈ s.loaded, q.1 ≠ key → t.stops q.2.inst.serial = s.stops q.2.inst.serial := by
  unfold DaemonState.unregisterAll
  rcases hcase with ⟨hlive, -, x, e⟩ | ⟨hdead, x, e⟩
  · have hlive := (h.live_iff hp).mp hlive
    rw [e]
    refine ⟨_, x, rfl, h.rejected hp hlive, rfl, rfl, ?_, fun q hq hne => ?_⟩
    · have hzero := h.stops _ hp
      rw [if_pos hlive] at hzero
      simp [release, countStop, hzero]
    · refine Function.update_of_ne (fun he => hne ?_) _ _
      exact congrArg Prod.fst
        (h.eq_of_inst hq hp (h.eq_of_serial (h.logged q hq) (h.logged _ hp) he))
  · rw [e]
    refine ⟨s, x, rfl, h, rfl, rfl, (h.stops _ hp).trans (if_neg fun hlive => hdead ?_),
      fun _ _ _ => rfl⟩
    exact (h.live_iff hp).mpr hlive

/-- **The stops of a reload** leave each of their instances stopped once exactly when they are
orderly. -/
theorem Sound.stops_unregisterAll (stop : String → StopOutcome) : ∀ (keys : List String)
    {s : DaemonState}, s.Sound → keys.Nodup → (∀ key ∈ keys, ∃ entry, (key, entry) ∈ s.loaded) →
    ((∀ p ∈ s.loaded, p.1 ∈ keys → (s.unregisterAll stop keys).1.stops p.2.inst.serial = 1) ↔
      s.StopsOrderly stop keys)
  | [], s, h, _, _ => ⟨fun _ => ⟨nofun, .nil⟩, fun _ => nofun⟩
  | key :: keys, s, h, hnodup, hmem => by
      obtain ⟨entry, hp⟩ := hmem key (List.mem_cons_self ..)
      obtain ⟨hkey, hnodup⟩ := List.nodup_cons.mp hnodup
      have hself {q : String × LoadedSource} (hq : q ∈ s.loaded) (e : q.1 = key) :
          q = (key, entry) := h.eq_of_key hq hp e
      have hserial {q : String × LoadedSource} (hq : q ∈ s.loaded)
          (e : q.2.inst.serial = entry.inst.serial) : q = (key, entry) :=
        h.eq_of_inst hq hp (h.eq_of_serial (h.logged q hq) (h.logged _ hp) e)
      rcases h.unregisterSource_cases hp (stop key) with ⟨hlive, hstop, e⟩ |
        ⟨hlive, hstop, t, e, hloaded, hstops⟩ | hfails
      · have hlives (key' : String) (hmem' : key' ∈ keys) :
            (s.drop (key, entry)).Live key' ↔ s.Live key' :=
          h.live_drop hp (ne_of_mem_of_not_mem hmem' hkey)
        have ih := Sound.stops_unregisterAll stop keys (h.drop hp ((h.live_iff hp).mp hlive)) hnodup
          fun key' hmem' => by
            obtain ⟨entry', hq⟩ := hmem key' (List.mem_cons_of_mem _ hmem')
            refine ⟨entry', (mem_drop h.toKeyed hp).mpr ⟨hq, fun he => ?_⟩⟩
            exact ne_of_mem_of_not_mem hmem' hkey (congrArg Prod.fst he)
        have hone : (s.drop (key, entry)).stops entry.inst.serial = 1 := by
          have hzero := h.stops _ hp
          rw [if_pos ((h.live_iff hp).mp hlive)] at hzero
          simp [DaemonState.drop, DaemonState.forget, release, countStop, hzero]
        have hthen : (s.unregisterAll stop (key :: keys)) =
            (s.drop (key, entry)).unregisterAll stop keys := by
          rw [DaemonState.unregisterAll, e]
        rw [stopsOrderly_of_goes hlive hstop hlives, ← ih, hthen]
        constructor
        · intro hall q hq hmem'
          exact hall q ((mem_drop h.toKeyed hp).mp hq).1 (List.mem_cons_of_mem _ hmem')
        · intro hall q hq hmem'
          by_cases hq' : q.1 = key
          · obtain rfl := hself hq hq'
            refine (unregisterAll_stops stop keys fun q' hq' he => ?_).trans hone
            obtain ⟨hq', hne⟩ := (mem_drop h.toKeyed hp).mp hq'
            exact hne (hserial hq' he)
          · refine hall q ((mem_drop h.toKeyed hp).mpr ⟨hq, fun he => hq' (he ▸ rfl)⟩) ?_
            exact (List.mem_cons.mp hmem').resolve_left hq'
      · -- it is stopped a second time, and no later stop takes that back
        have htwo : (s.unregisterAll stop (key :: keys)).1.stops entry.inst.serial =
            s.stops entry.inst.serial + 2 := by
          rw [DaemonState.unregisterAll, e]
          exact (unregisterAll_stops stop keys fun q hq he =>
            (hloaded q hq).2 (hserial (hloaded q hq).1 he)).trans hstops
        constructor
        · intro hall
          exact absurd (htwo.symm.trans (hall _ hp (List.mem_cons_self ..))) (by omega)
        · intro ho
          exact absurd hstop (ho.settles key (List.mem_cons_self ..) hlive)
      · obtain ⟨t, x, e, -, -, -, hone, hrest⟩ := h.unregisterAll_fails hp keys hfails
        have hno : ¬ (s.Live key ∧ stop key ≠ .rejects) := by
          rintro ⟨hlive, hgoes⟩
          rcases hfails with ⟨-, hrejects, -⟩ | ⟨hdead, -⟩
          · exact hgoes hrejects
          · exact hdead hlive
        have hsettles : s.Live key → stop key ≠ .hangs := by
          intro hlive hhangs
          rcases hfails with ⟨-, hrejects, -⟩ | ⟨hdead, -⟩
          · exact absurd (hhangs.symm.trans hrejects) (by decide)
          · exact hdead hlive
        rw [stopsOrderly_of_fails hno hsettles, e]
        constructor
        · intro hall key' hmem' hlive
          obtain ⟨entry', hq⟩ := hmem key' (List.mem_cons_of_mem _ hmem')
          have hone := hall _ hq (List.mem_cons_of_mem _ hmem')
          have hzero := h.stops _ hq
          rw [if_pos ((h.live_iff hq).mp hlive)] at hzero
          rw [hrest _ hq (ne_of_mem_of_not_mem hmem' hkey), hzero] at hone
          exact absurd hone (by decide)
        · intro hnone q hq hmem'
          by_cases hq' : q.1 = key
          · obtain rfl := hself hq hq'
            exact hone
          · refine (hrest q hq hq').trans ((h.stops q hq).trans (if_neg fun hlive => ?_))
            exact hnone q.1 ((List.mem_cons.mp hmem').resolve_left hq') ((h.live_iff hq).mpr hlive)

/-- The stops of a reload went as they should. -/
structure Stopped (s t : DaemonState) (keys : List String) (went : Prop) : Prop where
  sound : t.Sound
  kept : ∀ p ∈ s.loaded, p.1 ∉ keys →
    p ∈ t.loaded ∧ t.stops p.2.inst.serial = s.stops p.2.inst.serial
  loaded : ∀ p ∈ t.loaded, p ∈ s.loaded
  instances : t.instances = s.instances
  went : went → t.loaded = s.loaded.filter fun p => p.1 ∉ keys

theorem Stopped.cons (h : s.Sound) {keys : List String} {p : String × LoadedSource}
    (hp : p ∈ s.loaded) {went : Prop} (ht : Stopped (s.drop p) t keys went) :
    Stopped s t (p.1 :: keys) went where
  sound := ht.sound
  kept q hq hnot := by
    rw [List.mem_cons, not_or] at hnot
    have hqp : q ≠ p := fun e => hnot.1 (congrArg Prod.fst e)
    obtain ⟨hqt, hstops⟩ := ht.kept q ((mem_drop h.toKeyed hp).mpr ⟨hq, hqp⟩) hnot.2
    refine ⟨hqt, hstops.trans (Function.update_of_ne (fun e => hqp ?_) _ _)⟩
    exact h.eq_of_inst hq hp (h.eq_of_serial (h.logged q hq) (h.logged p hp) e)
  loaded q hq := ((mem_drop h.toKeyed hp).mp (ht.loaded q hq)).1
  instances := ht.instances
  went hwent := by
    refine (ht.went hwent).trans ?_
    show (s.loaded.filter fun q => q.1 ≠ p.1).filter _ = _
    rw [List.filter_filter]
    refine List.filter_congr fun q _ => ?_
    simp [Bool.and_comm]

/-- **Orderly stops** go through unless one rejects or is not registered, and leave the rest
alone. -/
theorem Sound.unregisterAll {stop : String → StopOutcome} : ∀ {keys : List String}
    {s : DaemonState}, s.Sound → keys.Nodup → (∀ key ∈ keys, ∃ entry, (key, entry) ∈ s.loaded) →
    s.StopsOrderly stop keys →
      ((s.unregisterAll stop keys).2 = .ok () ↔ ∀ key ∈ keys, s.Live key ∧ stop key ≠ .rejects) ∧
      Stopped s (s.unregisterAll stop keys).1 keys ((s.unregisterAll stop keys).2 = .ok ())
  | [], s, h, _, _, _ => by
      refine ⟨⟨fun _ => nofun, fun _ => rfl⟩, h, fun p hp _ => ⟨hp, rfl⟩, fun _ hp => hp, rfl, ?_⟩
      intro _
      exact (List.filter_eq_self.mpr fun _ _ => rfl).symm
  | key :: keys, s, h, hnodup, hmem, ho => by
      obtain ⟨entry, hp⟩ := hmem key (List.mem_cons_self ..)
      obtain ⟨hkey, hnodup⟩ := List.nodup_cons.mp hnodup
      rcases h.unregisterSource_cases hp (stop key) with ⟨hlive, hstop, e⟩ | ⟨hlive, hstop, -⟩ |
        hfails
      · have hlives (key' : String) (hmem' : key' ∈ keys) :
            (s.drop (key, entry)).Live key' ↔ s.Live key' :=
          h.live_drop hp (ne_of_mem_of_not_mem hmem' hkey)
        have hmem' (key' : String) (hmem' : key' ∈ keys) :
            ∃ entry', (key', entry') ∈ (s.drop (key, entry)).loaded := by
          obtain ⟨entry', hq⟩ := hmem key' (List.mem_cons_of_mem _ hmem')
          refine ⟨entry', (mem_drop h.toKeyed hp).mpr ⟨hq, fun he => ?_⟩⟩
          exact ne_of_mem_of_not_mem hmem' hkey (congrArg Prod.fst he)
        obtain ⟨hok, hstopped⟩ := Sound.unregisterAll (h.drop hp ((h.live_iff hp).mp hlive)) hnodup
          hmem' ((stopsOrderly_of_goes hlive hstop hlives).mp ho)
        have hthen : (s.unregisterAll stop (key :: keys)) =
            (s.drop (key, entry)).unregisterAll stop keys := by
          rw [DaemonState.unregisterAll, e]
        rw [hthen]
        refine ⟨hok.trans ?_, hstopped.cons h hp⟩
        rw [List.forall_mem_cons]
        have hgoes : s.Live key ∧ stop key ≠ .rejects := ⟨hlive, by simp [hstop]⟩
        constructor
        · exact fun hall => ⟨hgoes, fun k hk => ⟨(hlives k hk).mp (hall k hk).1, (hall k hk).2⟩⟩
        · exact fun hall k hk => ⟨(hlives k hk).mpr (hall.2 k hk).1, (hall.2 k hk).2⟩
      · exact absurd hstop (ho.settles key (List.mem_cons_self ..) hlive)
      · obtain ⟨t, x, e, hsound, hloaded, hinstances, -, hrest⟩ :=
          h.unregisterAll_fails hp keys hfails
        rw [e]
        refine ⟨⟨nofun, fun hall => ?_⟩, hsound, fun p hp' hnot => ?_, fun p hp' => hloaded ▸ hp',
          hinstances, nofun⟩
        · obtain ⟨hlive, hgoes⟩ := hall key (List.mem_cons_self ..)
          rcases hfails with ⟨-, hrejects, -⟩ | ⟨hdead, -⟩
          · exact absurd hrejects hgoes
          · exact absurd hlive hdead
        · refine ⟨hloaded.symm ▸ hp', hrest p hp' fun he => hnot ?_⟩
          rw [he]
          exact List.mem_cons_self ..

/-! ### The starts of a reload -/

theorem Keyed.notMem_extension (h : s.Keyed) {type id : String}
    (hkey : type ++ ":" ++ id ∉ s.loaded.map Prod.fst) :
    s.extensions (extensionId type id) = false := by
  rw [Bool.eq_false_iff]
  intro hregistered
  obtain ⟨p, hp, he⟩ := h.extensions _ hregistered
  rw [(h.entry p hp).2, extensionId_inj, ← (h.entry p hp).1] at he
  exact hkey (he ▸ List.mem_map_of_mem hp)

theorem Keyed.registerSource (h : s.Keyed) {spec : ConfiguredSource} {id : String}
    (hid : spec.id? = some id) (hkey : spec.type ++ ":" ++ id ∉ s.loaded.map Prod.fst)
    (settled : Bool) : s.registerSource spec .resolves settled = .ok (s.enter spec id) := by
  unfold DaemonState.registerSource
  rw [hid]
  simp [h.stopping, h.notMem_extension hkey]

theorem registerSource_fails {spec : ConfiguredSource} {start : StartOutcome}
    (hstart : start ≠ .resolves) (settled : Bool) :
    ∃ e, s.registerSource spec start settled = .error e := by
  unfold DaemonState.registerSource
  split
  · exact ⟨_, rfl⟩
  · cases start with
    | notCreated => exact ⟨_, rfl⟩
    | rejects => exact ⟨_, rfl⟩
    | resolves => exact absurd rfl hstart

theorem enter_loaded {spec : ConfiguredSource} {id : String}
    (hkey : spec.type ++ ":" ++ id ∉ s.loaded.map Prod.fst) :
    (s.enter spec id).loaded = s.loaded ++ [(spec.type ++ ":" ++ id,
      ⟨spec, ⟨s.created, spec.type, id⟩, extensionId spec.type id⟩)] :=
  put_of_notMem hkey _

theorem Keyed.enter (h : s.Keyed) {spec : ConfiguredSource} {id : String}
    (hkey : spec.type ++ ":" ++ id ∉ s.loaded.map Prod.fst) : (s.enter spec id).Keyed where
  keys := by
    rw [enter_loaded hkey, List.map_append]
    exact h.keys.append (List.nodup_singleton _) (by simpa using hkey)
  entry p hp := by
    rw [enter_loaded hkey, List.mem_append, List.mem_singleton] at hp
    rcases hp with hp | rfl
    · exact h.entry p hp
    · exact ⟨rfl, rfl⟩
  sources id' inst hinst := by
    by_cases e : id' = id
    · subst e
      simp only [DaemonState.enter, Function.update_self, Option.some.injEq] at hinst
      rw [← hinst]
    · refine h.sources id' inst ?_
      simpa [DaemonState.enter, e] using hinst
  extensions e he := by
    rw [enter_loaded hkey]
    by_cases hne : e = extensionId spec.type id
    · exact ⟨_, List.mem_append_right _ (List.mem_singleton_self _), hne.symm⟩
    · obtain ⟨p, hp, rfl⟩ := h.extensions e (by simpa [DaemonState.enter, hne] using he)
      exact ⟨p, List.mem_append_left _ hp, rfl⟩
  stopping := h.stopping

/-- A source starts under an id that no other one has. -/
theorem Sound.enter (h : s.Sound) {spec : ConfiguredSource} {id : String}
    (hkey : spec.type ++ ":" ++ id ∉ s.loaded.map Prod.fst)
    (hid : id ∉ s.loaded.map fun p => p.2.inst.id) : (s.enter spec id).Sound := by
  have hlive := h.notMem_extension hkey
  have hext {p : String × LoadedSource} (hp : p ∈ s.loaded) :
      p.2.extensionId ≠ extensionId spec.type id := by
    intro e
    rw [(h.entry p hp).2, extensionId_inj, ← (h.entry p hp).1] at e
    exact hkey (e ▸ List.mem_map_of_mem hp)
  have hne {p : String × LoadedSource} (hp : p ∈ s.loaded) : p.2.inst.id ≠ id :=
    fun e => hid (e ▸ List.mem_map_of_mem (f := fun p => p.2.inst.id) hp)
  refine
    { toKeyed := h.toKeyed.enter hkey
      serials := ?_
      created := fun inst hinst => ?_
      unused := fun n hn => h.unused n (Nat.le_of_succ_le hn)
      logged := fun p hp => ?_
      listed := fun p hp => ?_
      known := fun id' inst hinst => ?_
      stops := fun p hp => ?_
      dropped := fun inst hinst hdropped => ?_ }
  · show ((s.instances ++ _).map (·.serial)).Nodup
    rw [List.map_append]
    refine h.serials.append (List.nodup_singleton _) ?_
    simp only [List.map_cons, List.map_nil, List.disjoint_singleton, List.mem_map, not_exists,
      not_and]
    exact fun inst hinst => (h.created inst hinst).ne
  · rcases List.mem_append.mp hinst with hinst | hinst
    · exact Nat.lt_succ_of_lt (h.created inst hinst)
    · rw [List.mem_singleton.mp hinst]
      exact Nat.lt_succ_self _
  · rw [enter_loaded hkey, List.mem_append, List.mem_singleton] at hp
    rcases hp with hp | rfl
    · exact List.mem_append_left _ (h.logged p hp)
    · exact List.mem_append_right _ (List.mem_singleton_self _)
  · rw [enter_loaded hkey, List.mem_append, List.mem_singleton] at hp
    rcases hp with hp | rfl
    · exact (Function.update_of_ne (hne hp) _ _).trans (h.listed p hp)
    · exact Function.update_self ..
  · rw [enter_loaded hkey]
    by_cases e : id' = id
    · subst e
      simp only [DaemonState.enter, Function.update_self, Option.some.injEq] at hinst
      exact ⟨_, List.mem_append_right _ (List.mem_singleton_self _), hinst⟩
    · obtain ⟨p, hp, rfl⟩ := h.known id' inst (by simpa [DaemonState.enter, e] using hinst)
      exact ⟨p, List.mem_append_left _ hp, rfl⟩
  · rw [enter_loaded hkey, List.mem_append, List.mem_singleton] at hp
    rcases hp with hp | rfl
    · refine (h.stops p hp).trans ?_
      simp [DaemonState.enter, hext hp]
    · refine (h.unused _ le_rfl).trans ?_
      simp [DaemonState.enter]
  · rw [enter_loaded hkey] at hdropped
    rcases List.mem_append.mp hinst with hinst | hinst
    · exact h.dropped inst hinst fun p hp => hdropped p (List.mem_append_left _ hp)
    · rw [List.mem_singleton.mp hinst] at hdropped
      exact absurd rfl (hdropped _ (List.mem_append_right _ (List.mem_singleton_self _)))

/-- The sources have keys of their own that are not loaded. -/
structure Startable (s : DaemonState) (specs : List (String × ConfiguredSource)) : Prop where
  keys : (specs.map Prod.fst).Nodup
  free : ∀ p ∈ specs, p.1 ∉ s.loaded.map Prod.fst
  key : ∀ p ∈ specs, ∃ id, p.2.id? = some id ∧ p.1 = p.2.type ++ ":" ++ id

/-- The next source is started, or not. -/
theorem Startable.cons {p : String × ConfiguredSource} {specs : List (String × ConfiguredSource)}
    (hspecs : s.Startable (p :: specs)) (h : s.Keyed) (start : String → StartOutcome)
    (settled : String → Bool) :
    (∃ id, p.2.id? = some id ∧ p.1 = p.2.type ++ ":" ++ id ∧
      p.2.type ++ ":" ++ id ∉ s.loaded.map Prod.fst ∧
      (s.enter p.2 id).Startable specs ∧
      s.registerAll start settled (p :: specs) = (s.enter p.2 id).registerAll start settled specs ∧
      startedIds start (p :: specs) = id :: startedIds start specs) ∨
    (s.Startable specs ∧
      s.registerAll start settled (p :: specs) = s.registerAll start settled specs ∧
      startedIds start (p :: specs) = startedIds start specs) := by
  obtain ⟨hkey, hkeys⟩ := List.nodup_cons.mp hspecs.keys
  have hrest : s.Startable specs := ⟨hkeys, fun q hq => hspecs.free q (List.mem_cons_of_mem _ hq),
    fun q hq => hspecs.key q (List.mem_cons_of_mem _ hq)⟩
  obtain ⟨id, hid, hpkey⟩ := hspecs.key p (List.mem_cons_self ..)
  have hfree := hspecs.free p (List.mem_cons_self ..)
  by_cases hstart : start p.1 = .resolves
  · rw [hpkey] at hfree
    refine .inl ⟨id, hid, hpkey, hfree, ⟨hkeys, fun q hq hmem => ?_, hrest.key⟩, ?_, ?_⟩
    · rw [enter_loaded hfree, List.map_append, List.mem_append] at hmem
      rcases hmem with hmem | hmem
      · exact hrest.free q hq hmem
      · rw [List.map_singleton, List.mem_singleton, ← hpkey] at hmem
        exact hkey (hmem ▸ List.mem_map_of_mem hq)
    · rw [DaemonState.registerAll, hstart, h.registerSource hid hfree]
    · unfold startedIds
      rw [List.filter_cons_of_pos (by simpa using hstart)]
      exact List.filterMap_cons_some hid
  · refine .inr ⟨hrest, ?_, ?_⟩
    · have hfails : ∃ e, s.registerSource p.2 (start p.1) (settled p.1) = .error e :=
        registerSource_fails hstart _
      obtain ⟨e, he⟩ := hfails
      rw [DaemonState.registerAll, he]
    · unfold startedIds
      rw [List.filter_cons_of_neg (by simpa using hstart)]

/-- **The starts of a reload** add what starts, and stop nothing. -/
theorem Keyed.registerAll (start : String → StartOutcome) (settled : String → Bool) :
    ∀ {specs : List (String × ConfiguredSource)} {s : DaemonState}, s.Keyed → s.Startable specs →
      (s.registerAll start settled specs).Keyed ∧
      (s.registerAll start settled specs).stops = s.stops ∧
      ∃ new, (s.registerAll start settled specs).loaded = s.loaded ++ new ∧
        (s.registerAll start settled specs).instances = s.instances ++ new.map (·.2.inst) ∧
        (∀ p ∈ new, (p.1, p.2.spec) ∈ specs) ∧
        new.map (·.2.inst.id) = startedIds start specs
  | [], s, h, _ => ⟨h, rfl, [], (List.append_nil _).symm, (List.append_nil _).symm, nofun, rfl⟩
  | p :: specs, s, h, hspecs => by
      rcases hspecs.cons h start settled with ⟨id, -, hpkey, hfree, hspecs, e, hids⟩ |
        ⟨hspecs, e, hids⟩
      · obtain ⟨hkeyed, hstops, new, hloaded, hinstances, hnew, hnewids⟩ :=
          Keyed.registerAll start settled (h.enter hfree) hspecs
        rw [e, hids]
        refine ⟨hkeyed, hstops, (p.1, ⟨p.2, ⟨s.created, p.2.type, id⟩, extensionId p.2.type id⟩) ::
          new, ?_, ?_, ?_, ?_⟩
        · rw [hloaded, enter_loaded hfree, List.append_assoc, ← hpkey]
          rfl
        · rw [hinstances]
          exact List.append_assoc ..
        · rintro q (_ | ⟨_, hq⟩)
          · exact List.mem_cons_self ..
          · exact List.mem_cons_of_mem _ (hnew q hq)
        · rw [List.map_cons, hnewids]
      · obtain ⟨hkeyed, hstops, new, hloaded, hinstances, hnew, hnewids⟩ :=
          Keyed.registerAll start settled h hspecs
        rw [e, hids]
        exact ⟨hkeyed, hstops, new, hloaded, hinstances,
          fun q hq => List.mem_cons_of_mem _ (hnew q hq), hnewids⟩

/-- Where no id is used twice, the daemon stays sound. -/
theorem Sound.registerAll (start : String → StartOutcome) (settled : String → Bool) :
    ∀ {specs : List (String × ConfiguredSource)} {s : DaemonState}, s.Sound → s.Startable specs →
      ((s.loaded.map fun p => p.2.inst.id) ++ startedIds start specs).Nodup →
      (s.registerAll start settled specs).Sound
  | [], s, h, _, _ => h
  | p :: specs, s, h, hspecs, hids => by
      rcases hspecs.cons h.toKeyed start settled with ⟨id, -, -, hfree, hspecs, e, he⟩ |
        ⟨hspecs, e, he⟩
      · rw [e]
        rw [he] at hids
        have hid : id ∉ s.loaded.map fun p => p.2.inst.id := fun hmem =>
          (List.nodup_append.mp hids).2.2 id hmem id (List.mem_cons_self ..) rfl
        refine Sound.registerAll start settled (h.enter hfree hid) hspecs ?_
        rw [enter_loaded hfree, List.map_append, List.append_assoc]
        exact hids
      · rw [e]
        rw [he] at hids
        exact Sound.registerAll start settled h hspecs hids

end DaemonState

/-! ### A reload -/

theorem sourceKey_ok {spec : ConfiguredSource} {key : String} :
    sourceKey spec = .ok key ↔ ∃ id, spec.id? = some id ∧ key = spec.type ++ ":" ++ id := by
  unfold sourceKey
  split
  · rename_i id hid
    simp [hid, eq_comm]
  · rename_i hid
    simp [hid]

theorem collect_ok : ∀ {specs : List ConfiguredSource}
    {front newByKey : List (String × ConfiguredSource)},
    collect front specs = .ok newByKey → (front.map Prod.fst).Nodup →
    (∀ p ∈ front, sourceKey p.2 = .ok p.1) →
    (newByKey.map Prod.fst).Nodup ∧ ∀ p ∈ newByKey, sourceKey p.2 = .ok p.1
  | [], front, newByKey, h, hnodup, hkeys => by
      cases h
      exact ⟨hnodup, hkeys⟩
  | spec :: specs, front, newByKey, h, hnodup, hkeys => by
      unfold collect at h
      split at h
      · cases h
      · rename_i key hkey
        split at h
        · cases h
        · rename_i hnew
          refine collect_ok h ?_ ?_
          · rw [List.map_append]
            exact hnodup.append (List.nodup_singleton _) (by simpa using hnew)
          · intro p hp
            rcases List.mem_append.mp hp with hp | hp
            · exact hkeys p hp
            · rw [List.mem_singleton.mp hp]
              exact hkey

theorem collected_of_desired {a : Reload} {newByKey : List (String × ConfiguredSource)}
    (h : a.desired = some newByKey) :
    ∃ newSources, a.newSources = some newSources ∧ collect [] newSources = .ok newByKey := by
  unfold Reload.desired at h
  obtain ⟨newSources, hsources, h⟩ := Option.bind_eq_some_iff.mp h
  refine ⟨newSources, hsources, ?_⟩
  cases hcollect : collect [] newSources with
  | error e =>
    rw [hcollect] at h
    cases h
  | ok collected =>
    rw [hcollect] at h
    cases h
    rfl

theorem desired_spec {a : Reload} {newByKey : List (String × ConfiguredSource)}
    (h : a.desired = some newByKey) :
    (newByKey.map Prod.fst).Nodup ∧ ∀ p ∈ newByKey, sourceKey p.2 = .ok p.1 := by
  obtain ⟨newSources, -, hcollect⟩ := collected_of_desired h
  exact collect_ok hcollect List.nodup_nil nofun

namespace DaemonState
variable {s t : DaemonState} {newByKey : List (String × ConfiguredSource)}

theorem Keyed.sameConfig_iff (h : s.Keyed) {p : String × LoadedSource} (hp : p ∈ s.loaded)
    (spec : ConfiguredSource) : s.sameConfig (p.1, spec) = true ↔
      configEqual p.2.spec.config spec.config = true := by
  unfold sameConfig
  rw [h.lookup hp]
  exact Iff.rfl

/-- What a reload does not stop is what is wanted. -/
theorem Keyed.mem_toStop (h : s.Keyed) (hkeys : (newByKey.map Prod.fst).Nodup)
    {p : String × LoadedSource} (hp : p ∈ s.loaded) :
    p.1 ∈ s.toStop newByKey ↔ ¬ Wanted newByKey p := by
  unfold toStop removed changed
  rw [List.mem_append, List.mem_filter, decide_eq_true_iff]
  constructor
  · rintro (⟨-, hnot⟩ | hmem) ⟨spec, hspec, hequal⟩
    · exact hnot (List.mem_map_of_mem ((lookup_eq_some_iff_mem hkeys).mp hspec))
    · obtain ⟨q, hq, hkey⟩ := List.mem_map.mp hmem
      obtain ⟨hq, hchanged⟩ := List.mem_filter.mp hq
      have hqp : q = (p.1, spec) := List.inj_on_of_nodup_map hkeys hq
        ((lookup_eq_some_iff_mem hkeys).mp hspec) hkey
      rw [hqp, (h.sameConfig_iff hp spec).mpr hequal] at hchanged
      simp at hchanged
  · intro hnot
    by_cases hmem : p.1 ∈ newByKey.map Prod.fst
    · obtain ⟨⟨key, spec⟩, hq, hkey⟩ := List.mem_map.mp hmem
      obtain rfl : key = p.1 := hkey
      refine .inr (List.mem_map.mpr ⟨_, List.mem_filter.mpr ⟨hq, ?_⟩, rfl⟩)
      have hdiffers : s.sameConfig (p.1, spec) = false := by
        rw [Bool.eq_false_iff, ne_eq, h.sameConfig_iff hp spec]
        exact fun hequal => hnot ⟨spec, (lookup_eq_some_iff_mem hkeys).mpr hq, hequal⟩
      rw [h.lookup hp, hdiffers]
      rfl
    · exact .inl ⟨List.mem_map_of_mem hp, hmem⟩

theorem mem_changed {q : String × ConfiguredSource} (hq : q ∈ s.changed newByKey) :
    q ∈ newByKey ∧ q.1 ∈ s.loaded.map Prod.fst := by
  obtain ⟨hq, hchanged⟩ := List.mem_filter.mp hq
  rw [Bool.and_eq_true, List.lookup_isSome_iff] at hchanged
  obtain ⟨⟨p, hp, hkey⟩, -⟩ := hchanged
  exact ⟨hq, List.mem_map.mpr ⟨p, hp, (eq_of_beq hkey).symm⟩⟩

theorem mem_added {q : String × ConfiguredSource} (hq : q ∈ s.added newByKey) :
    q ∈ newByKey ∧ q.1 ∉ s.loaded.map Prod.fst := by
  obtain ⟨hq, hadded⟩ := List.mem_filter.mp hq
  refine ⟨hq, fun hmem => ?_⟩
  obtain ⟨p, hp, hkey⟩ := List.mem_map.mp hmem
  rw [Option.isNone_iff_eq_none, List.lookup_eq_none_iff] at hadded
  simpa [hkey] using hadded p hp

theorem Keyed.nodup_toStop (h : s.Keyed) (hkeys : (newByKey.map Prod.fst).Nodup) :
    (s.toStop newByKey).Nodup := by
  refine (h.keys.sublist List.filter_sublist).append
    (hkeys.sublist (List.filter_sublist.map Prod.fst)) ?_
  intro key hremoved hchanged
  obtain ⟨q, hq, rfl⟩ := List.mem_map.mp hchanged
  exact of_decide_eq_true (List.mem_filter.mp hremoved).2
    (List.mem_map_of_mem (mem_changed hq).1)

theorem mem_toStop_loaded {key : String} (hkey : key ∈ s.toStop newByKey) :
    ∃ entry, (key, entry) ∈ s.loaded := by
  have hmem : key ∈ s.loaded.map Prod.fst := by
    rcases List.mem_append.mp hkey with hremoved | hchanged
    · exact (List.mem_filter.mp hremoved).1
    · obtain ⟨q, hq, rfl⟩ := List.mem_map.mp hchanged
      exact (mem_changed hq).2
  obtain ⟨p, hp, rfl⟩ := List.mem_map.mp hmem
  exact ⟨p.2, hp⟩

/-- After the stops, the starts are of keys that are free. -/
theorem startable_toStart (hkeys : (newByKey.map Prod.fst).Nodup)
    (hspecs : ∀ p ∈ newByKey, sourceKey p.2 = .ok p.1)
    (ht : t.loaded = s.loaded.filter fun p => p.1 ∉ s.toStop newByKey) :
    t.Startable (s.toStart newByKey) where
  keys := by
    unfold toStart
    rw [List.map_append]
    refine (hkeys.sublist (List.filter_sublist.map _)).append
      (hkeys.sublist (List.filter_sublist.map _)) ?_
    intro key hadded hchanged
    obtain ⟨q, hq, rfl⟩ := List.mem_map.mp hadded
    obtain ⟨q', hq', hkey⟩ := List.mem_map.mp hchanged
    exact (mem_added hq).2 (hkey ▸ (mem_changed hq').2)
  free q hq hmem := by
    rw [ht] at hmem
    obtain ⟨p, hp, hkey⟩ := List.mem_map.mp hmem
    obtain ⟨hp, hstays⟩ := List.mem_filter.mp hp
    have hstays := of_decide_eq_true hstays
    rcases List.mem_append.mp hq with hadded | hchanged
    · exact (mem_added hadded).2 (hkey ▸ List.mem_map_of_mem hp)
    · refine hstays (hkey ▸ ?_)
      exact List.mem_append_right _ (List.mem_map_of_mem hchanged)
  key q hq := by
    have hmem : q ∈ newByKey := by
      rcases List.mem_append.mp hq with hadded | hchanged
      · exact (mem_added hadded).1
      · exact (mem_changed hchanged).1
    exact sourceKey_ok.mp (hspecs q hmem)

theorem registerSource_stops {spec : ConfiguredSource} {start : StartOutcome} {settled : Bool}
    (h : s.registerSource spec start settled = .ok t) : t.stops = s.stops := by
  unfold DaemonState.registerSource at h
  split at h
  · cases h
  · rename_i id hid
    have hstops : (if settled && s.stopping (extensionId spec.type id) then
        s.release (extensionId spec.type id) else s).stops = s.stops := by
      split <;> rfl
    dsimp only at h
    generalize (if settled && s.stopping (extensionId spec.type id) then
        s.release (extensionId spec.type id) else s) = u at h hstops
    cases start with
    | notCreated | rejects => cases h
    | resolves =>
      dsimp only at h
      split at h
      · cases h
      · cases h
        exact hstops

/-- A start stops nothing. -/
theorem registerAll_stops (start : String → StartOutcome) (settled : String → Bool) :
    ∀ (specs : List (String × ConfiguredSource)) (s : DaemonState),
      (s.registerAll start settled specs).stops = s.stops
  | [], _ => rfl
  | p :: specs, s => by
      unfold DaemonState.registerAll
      split
      · exact registerAll_stops start settled specs s
      · rename_i t ht
        exact (registerAll_stops start settled specs t).trans (registerSource_stops ht)

theorem doReload_eq {a : Reload} (h : a.desired = some newByKey) :
    (s.doReload a).1 = match (s.unregisterAll a.stop (s.toStop newByKey)).2 with
      | .error _ => (s.unregisterAll a.stop (s.toStop newByKey)).1
      | .ok () => (s.unregisterAll a.stop (s.toStop newByKey)).1.registerAll a.start a.settled
          (s.toStart newByKey) := by
  obtain ⟨newSources, hsources, hcollect⟩ := collected_of_desired h
  unfold doReload
  rw [hsources]
  dsimp only
  rw [hcollect]
  dsimp only
  cases s.unregisterAll a.stop (s.toStop newByKey) with
  | mk t r => cases r <;> rfl

theorem doReload_stops {a : Reload} (h : a.desired = some newByKey) :
    (s.doReload a).1.stops = (s.unregisterAll a.stop (s.toStop newByKey)).1.stops := by
  rw [doReload_eq h]
  split
  · rfl
  · exact registerAll_stops ..

/-- What is not wanted is stopped once exactly when the stops are orderly. -/
theorem Sound.stopped_iff (h : s.Sound) {a : Reload} (ha : a.desired = some newByKey) :
    (∀ inst ∈ s.instances, (¬ ∃ p ∈ s.loaded, p.2.inst = inst ∧ Wanted newByKey p) →
      (s.doReload a).1.stops inst.serial = 1) ↔ s.StopsOrderly a.stop (s.toStop newByKey) := by
  have hkeys := (desired_spec ha).1
  rw [← h.stops_unregisterAll a.stop _ (h.nodup_toStop hkeys) fun _ => mem_toStop_loaded,
    doReload_stops ha]
  constructor
  · intro hall p hp hmem
    refine hall _ (h.logged p hp) ?_
    rintro ⟨q, hq, hi, hwanted⟩
    obtain rfl := h.eq_of_inst hq hp hi
    exact (h.mem_toStop hkeys hq).mp hmem hwanted
  · intro hall inst hinst hnot
    by_cases hloaded : ∃ p ∈ s.loaded, p.2.inst = inst
    · obtain ⟨p, hp, rfl⟩ := hloaded
      exact hall p hp ((h.mem_toStop hkeys hp).mpr fun hwanted => hnot ⟨p, hp, rfl, hwanted⟩)
    · have hgone (p : String × LoadedSource) (hp : p ∈ s.loaded) : p.2.inst ≠ inst :=
        fun hi => hloaded ⟨p, hp, hi⟩
      refine (unregisterAll_stops a.stop _ fun p hp hi => hgone p hp ?_).trans
        (h.dropped inst hinst hgone)
      exact h.eq_of_serial (h.logged p hp) hinst hi

/-- After orderly stops the daemon is sound and has what is wanted, as it was. -/
theorem Sound.reloaded_of_stopsOrderly (h : s.Sound) {a : Reload} (ha : a.desired = some newByKey)
    (ho : s.StopsOrderly a.stop (s.toStop newByKey)) :
    ((s.doReload a).1.Agree ↔
      ((∀ key ∈ s.toStop newByKey, s.Live key ∧ a.stop key ≠ .rejects) →
        (s.idsAfter a.start newByKey).Nodup)) ∧
    ((s.doReload a).1.Agree → (s.doReload a).1.Sound) ∧
    ∀ p ∈ s.loaded, Wanted newByKey p → p ∈ (s.doReload a).1.loaded ∧
      (s.doReload a).1.stops p.2.inst.serial = s.stops p.2.inst.serial := by
  obtain ⟨hkeys, hspecs⟩ := desired_spec ha
  obtain ⟨hok, hstopped⟩ :=
    h.unregisterAll (h.nodup_toStop hkeys) (fun _ => mem_toStop_loaded) ho
  have hkept (p : String × LoadedSource) (hp : p ∈ s.loaded) (hwanted : Wanted newByKey p) :=
    hstopped.kept p hp fun hmem => (h.mem_toStop hkeys hp).mp hmem hwanted
  rw [doReload_eq ha, ← hok]
  cases hresult : (s.unregisterAll a.stop (s.toStop newByKey)).2 with
  | error e => exact ⟨iff_of_true hstopped.sound.agree nofun, fun _ => hstopped.sound, hkept⟩
  | ok =>
    have hloaded := hstopped.went hresult
    have hstart := startable_toStart hkeys hspecs hloaded
    obtain ⟨hkeyed, hstops, new, hnew, -, -, hids⟩ :=
      hstopped.sound.toKeyed.registerAll a.start a.settled hstart
    have hidsAfter : s.idsAfter a.start newByKey =
        ((s.unregisterAll a.stop (s.toStop newByKey)).1.registerAll a.start a.settled
          (s.toStart newByKey)).loaded.map fun p => p.2.inst.id := by
      rw [hnew, List.map_append, hids, hloaded]
      rfl
    have hsound (hnodup : (s.idsAfter a.start newByKey).Nodup) :
        ((s.unregisterAll a.stop (s.toStop newByKey)).1.registerAll a.start a.settled
          (s.toStart newByKey)).Sound := by
      refine hstopped.sound.registerAll a.start a.settled hstart ?_
      rw [hloaded]
      exact hnodup
    have hnodup (hagree : ((s.unregisterAll a.stop (s.toStop newByKey)).1.registerAll a.start
        a.settled (s.toStart newByKey)).Agree) : (s.idsAfter a.start newByKey).Nodup := by
      rw [hidsAfter]
      exact hkeyed.nodup_of_agree hagree
    refine ⟨⟨fun hagree _ => hnodup hagree, fun hall => (hsound (hall rfl)).agree⟩,
      fun hagree => hsound (hnodup hagree), fun p hp hwanted => ?_⟩
    obtain ⟨hmem, hsame⟩ := hkept p hp hwanted
    dsimp only
    rw [hnew, hstops]
    exact ⟨List.mem_append_left _ hmem, hsame⟩

/-- **A reload comes to what it should** exactly when it is orderly, and the daemon is sound
then. -/
theorem Sound.reload_iff (h : s.Sound) {a : DaemonLabel} (hstep : daemonStep s a = some t) :
    (Reloads s t a ↔ s.Orderly a) ∧ (Reloads s t a → t.Sound) := by
  cases a with
  | settles extensionId =>
    simp [daemonStep, DaemonState.settle, h.stopping] at hstep
  | reload a =>
    obtain rfl := Option.some.inj hstep
    simp only [Reloads, Orderly]
    cases ha : a.desired with
    | none =>
      have hsame : (s.doReload a).1 = s := by
        unfold Reload.desired at ha
        unfold doReload
        cases hsources : a.newSources with
        | none => rfl
        | some newSources =>
          rw [hsources, Option.bind_some] at ha
          dsimp only
          cases hcollect : collect [] newSources with
          | error e => rfl
          | ok newByKey =>
            rw [hcollect] at ha
            cases ha
      rw [hsame]
      exact ⟨iff_of_true ⟨h.agree, rfl⟩ fun _ e => (by cases e), fun _ => h⟩
    | some newByKey =>
      have hstopped := h.stopped_iff ha
      constructor
      · constructor
        · intro hreloaded newByKey' e
          obtain rfl := Option.some.inj e
          have ho := hstopped.mp hreloaded.stopped
          exact ⟨ho, (h.reloaded_of_stopsOrderly ha ho).1.mp hreloaded.agree⟩
        · intro ho
          obtain ⟨ho, hids⟩ := ho newByKey rfl
          obtain ⟨hagree, hsound, hkept⟩ := h.reloaded_of_stopsOrderly ha ho
          have hagree := hagree.mpr hids
          refine ⟨hagree, hstopped.mpr ho, fun p hp hwanted => ?_⟩
          obtain ⟨hmem, hsame⟩ := hkept p hp hwanted
          exact ⟨hmem, hsame, fun _ => (hsound hagree).listed p hmem⟩
      · intro hreloaded
        have ho := hstopped.mp hreloaded.stopped
        exact (h.reloaded_of_stopsOrderly ha ho).2.1 hreloaded.agree

/-! ### The reloads of a daemon -/

theorem sound_empty : Sound {} where
  keys := List.nodup_nil
  entry := nofun
  sources := nofun
  extensions := nofun
  stopping _ := rfl
  serials := List.nodup_nil
  created := nofun
  unused _ _ := rfl
  logged := nofun
  listed := nofun
  known := nofun
  stops := nofun
  dropped := nofun

/-- A daemon starts with all of its sources, or not at all. -/
theorem startDaemon_spec : ∀ {specs : List ConfiguredSource} {s t : DaemonState}, s.Keyed →
    (∀ p ∈ s.loaded, s.extensions p.2.extensionId = true) → startDaemon s specs = .ok t →
    t.Keyed ∧ (t.loaded.map fun p => p.2.inst.id) =
      (s.loaded.map fun p => p.2.inst.id) ++ specs.filterMap (·.id?) ∧
    (s.Sound → (t.loaded.map fun p => p.2.inst.id).Nodup → t.Sound)
  | [], s, t, h, _, hstart => by
      cases hstart
      exact ⟨h, (List.append_nil _).symm, fun hsound _ => hsound⟩
  | spec :: specs, s, t, h, hlive, hstart => by
      unfold startDaemon at hstart
      split at hstart
      · cases hstart
      · rename_i u hu
        unfold DaemonState.registerSource at hu
        split at hu
        · cases hu
        · rename_i id hid
          simp only [h.stopping, Bool.and_false, Bool.false_eq_true, if_false] at hu
          split at hu
          · cases hu
          · rename_i hfree
            cases hu
            have hkey : spec.type ++ ":" ++ id ∉ s.loaded.map Prod.fst := by
              intro hmem
              obtain ⟨p, hp, hpkey⟩ := List.mem_map.mp hmem
              refine hfree ?_
              rw [← hlive p hp, (h.entry p hp).2, extensionId_inj.mpr]
              rw [← (h.entry p hp).1, hpkey]
            have hlive' (p : String × LoadedSource) (hp : p ∈ (s.enter spec id).loaded) :
                (s.enter spec id).extensions p.2.extensionId = true := by
              rw [enter_loaded hkey, List.mem_append, List.mem_singleton] at hp
              by_cases e : p.2.extensionId = extensionId spec.type id
              · simp [DaemonState.enter, e]
              · rcases hp with hp | rfl
                · simp [DaemonState.enter, e, hlive p hp]
                · exact absurd rfl e
            obtain ⟨hkeyed, hids, hsound⟩ := startDaemon_spec (h.enter hkey) hlive' hstart
            rw [enter_loaded hkey, List.map_append, List.append_assoc] at hids
            refine ⟨hkeyed, ?_, fun hs hnodup => hsound ?_ hnodup⟩
            · rw [hids, List.filterMap_cons_some hid]
              rfl
            · refine hs.enter hkey fun hmem => ?_
              rw [hids] at hnodup
              exact (List.nodup_append.mp hnodup).2.2 id hmem id (List.mem_cons_self ..) rfl

end DaemonState

/-- Wherever the step leads, it comes to what it should. -/
def ReloadsRight (s : DaemonState) (a : DaemonLabel) : Prop :=
  ∀ t, daemonStep s a = some t → s.Reloads t a

/-- **The reloads of a daemon** all come to what they should, from a start after which its two
collections agree, exactly when no two of the sources it starts with have the same id and every
reload is orderly. -/
theorem reloads_iff {specs : List ConfiguredSource} {s t : DaemonState} {as : List DaemonLabel}
    (hstart : startDaemon {} specs = .ok s) :
    (s.Agree ∧ Run daemonStep ReloadsRight s as t) ↔
      (specs.filterMap (·.id?)).Nodup ∧ Run daemonStep DaemonState.Orderly s as t := by
  obtain ⟨hkeyed, hids, hsound⟩ :=
    DaemonState.startDaemon_spec DaemonState.sound_empty.toKeyed nofun hstart
  have hruns (hs : s.Sound) :
      Run daemonStep ReloadsRight s as t ↔ Run daemonStep DaemonState.Orderly s as t := by
    refine Run.congr_of hs (fun u a u' hu hstep => ?_) fun u a u' hu hright hstep =>
      (hu.reload_iff hstep).2 (hright u' hstep)
    constructor
    · exact fun hright => (hu.reload_iff hstep).1.mp (hright u' hstep)
    · exact fun ho u'' hstep' => (hu.reload_iff hstep').1.mpr ho
  have hids : (s.loaded.map fun p => p.2.inst.id) = specs.filterMap (·.id?) := hids
  constructor
  · rintro ⟨hagree, hright⟩
    have hnodup := hkeyed.nodup_of_agree hagree
    exact ⟨hids ▸ hnodup, (hruns (hsound DaemonState.sound_empty hnodup)).mp hright⟩
  · rintro ⟨hnodup, ho⟩
    have hs := hsound DaemonState.sound_empty (hids ▸ hnodup)
    exact ⟨hs.agree, (hruns hs).mpr ho⟩

def namedSource (type id : String) : ConfiguredSource := ⟨type, .obj [("id", .str id)]⟩

/-- Every stop and every start resolves. -/
def smoothReload (specs : List ConfiguredSource) : Reload where
  newSources := some specs
  stop _ := .resolves
  start _ := .resolves
  settled _ := false

def digestDaemon : DaemonState := ({} : DaemonState).enter (namedSource "cron" "digest") "digest"

def twoDigests : DaemonState := digestDaemon.enter (namedSource "webhook" "digest") "digest"

/-- The only source is removed. -/
theorem reloads_iff_removed : ∃ t,
    daemonStep digestDaemon (.reload (smoothReload [])) = some t ∧ digestDaemon.Agree ∧
    Run daemonStep ReloadsRight digestDaemon [.reload (smoothReload [])] t := by
  have hstart : startDaemon {} [namedSource "cron" "digest"] = .ok digestDaemon := rfl
  have ho : digestDaemon.Orderly (.reload (smoothReload [])) := by
    intro newByKey hdesired
    obtain rfl : [] = newByKey := Option.some.inj hdesired
    refine ⟨⟨fun _ _ _ => by simp [smoothReload], List.pairwise_singleton _ _⟩, fun _ => ?_⟩
    exact List.nodup_nil
  have r : Run daemonStep DaemonState.Orderly digestDaemon [.reload (smoothReload [])] _ :=
    .snoc .nil ho rfl
  exact ⟨_, rfl, (reloads_iff hstart).mpr ⟨List.nodup_singleton _, r⟩⟩

/-- A second source of another type takes over the id of the first, although it runs on, and the
removal of the second one removes the first. -/
theorem id_shared_by_types : startDaemon {} [namedSource "cron" "digest"] = .ok digestDaemon ∧
    digestDaemon.Agree ∧
    daemonStep digestDaemon (.reload (smoothReload
      [namedSource "cron" "digest", namedSource "webhook" "digest"])) = some twoDigests ∧
    ¬ twoDigests.Agree ∧
    ∃ t, daemonStep twoDigests (.reload (smoothReload [namedSource "cron" "digest"])) = some t ∧
      t.loaded.map Prod.fst = ["cron:digest"] ∧ t.sources "digest" = none := by
  have hsound : digestDaemon.Sound :=
    DaemonState.sound_empty.enter List.not_mem_nil List.not_mem_nil
  refine ⟨rfl, hsound.agree, rfl, fun hagree => ?_, _, rfl, rfl, rfl⟩
  have hcron : ∃ p ∈ twoDigests.loaded, p.2.inst.type = "cron" ∧ p.2.inst.id = "digest" :=
    ⟨_, List.mem_cons_self .., rfl, rfl⟩
  obtain ⟨key, inst, hinst, htype, -⟩ := (hagree "cron" "digest").mp hcron
  have hsources : twoDigests.sources =
      Function.update digestDaemon.sources "digest" (some ⟨1, "webhook", "digest"⟩) := rfl
  rw [hsources] at hinst
  by_cases e : key = "digest"
  · rw [e, Function.update_self] at hinst
    cases hinst
    exact absurd htype (by decide)
  · have hnone : digestDaemon.sources key = none := Function.update_of_ne e _ _
    rw [Function.update_of_ne e, hnone] at hinst
    cases hinst

end Declaragent.Events

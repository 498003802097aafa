import Declaragent.Library.Exposition
import Declaragent.Library.Grouping
import Declaragent.Library.JsonParse
import Mathlib.Data.List.Pairwise

/-!
# Observability — the metrics registry

Updates of metrics are kept in samples, one for each text of labels, and `scrape` writes all of them
as a text in the exposition format.

* `keeps_run`: the samples of a metric are its updates, grouped by the text of their labels.
* `renderSample_eq`: a sample is written as the series of the updates that it got.
* `read_scrape`: the text is read as the series of the samples, if the labels have names of labels.
* `faithful_iff`: when the text has just one series for each metric and label set, of the fold of
  its updates.
-/

namespace Declaragent.Observability.Prometheus
open JsonText (utf16 utf16_injective notMem_toString)
open Grouping (upsert collect)
open Exposition (Series)

/-- The numbers of the host, those that are not finite among them. -/
class HostNumber (V : Type) where
  zero : V
  one : V
  add : V → V → V
  sub : V → V → V
  le : V → V → Bool
  lt : V → V → Bool
  isFinite : V → Bool
  isNaN : V → Bool
  /-- `toString`. -/
  text : V → String
  text_line : ∀ v, '\n' ∉ (text v).toList

open HostNumber

/-! ### Labels -/

/-- A record of texts. -/
structure Labels where
  pairs : List (String × String)
  nodup : (pairs.map Prod.fst).Nodup

def Labels.empty : Labels := ⟨[], List.nodup_nil⟩

/-- The order of the keys. -/
def KeyLe (p q : String × String) : Prop := utf16 p.1 ≤ utf16 q.1

instance : DecidableRel KeyLe := fun p q => inferInstanceAs (Decidable (utf16 p.1 ≤ utf16 q.1))

/-- `Object.keys(labels).sort()`, each with its value. -/
def Labels.sorted (labels : Labels) : List (String × String) := labels.pairs.insertionSort KeyLe

def keyText (sorted : List (String × String)) : String :=
  ",".intercalate (sorted.map fun p => p.1 ++ "=" ++ p.2)

def labelKey (labels : Labels) : String := keyText labels.sorted

/-- `{ ...base, ...extra }`. -/
def spread (base extra : List (String × String)) : List (String × String) :=
  base.map (fun p => (p.1, (extra.lookup p.1).getD p.2)) ++
    extra.filter fun p => p.1 ∉ base.map Prod.fst

theorem nodup_spread {base extra : List (String × String)} (hbase : (base.map Prod.fst).Nodup)
    (hextra : (extra.map Prod.fst).Nodup) : ((spread base extra).map Prod.fst).Nodup := by
  have hkeys : (spread base extra).map Prod.fst =
      base.map Prod.fst ++ (extra.filter fun p => p.1 ∉ base.map Prod.fst).map Prod.fst := by
    rw [spread, List.map_append, List.map_map]
    rfl
  rw [hkeys, List.nodup_append']
  refine ⟨hbase, (List.filter_sublist.map Prod.fst).nodup hextra, fun key hkey hnew => ?_⟩
  obtain ⟨p, hp, rfl⟩ := List.mem_map.mp hnew
  exact absurd hkey (of_decide_eq_true (List.mem_filter.mp hp).2)

def mergeLabels (base : Labels) (extra : Option Labels) : Labels :=
  match extra with
  | none => base
  | some extra =>
    if extra.pairs = [] then base
    else if base.pairs = [] then extra
    else ⟨spread base.pairs extra.pairs, nodup_spread base.nodup extra.nodup⟩

/-! ### The registry -/

inductive MetricKind where
  | counter | gauge | histogram
  deriving DecidableEq

def MetricKind.text : MetricKind → String
  | .counter => "counter"
  | .gauge => "gauge"
  | .histogram => "histogram"

structure Histogram (V : Type) where
  boundaries : List V
  buckets : List Nat
  sum : V
  count : Nat

structure Sample (V : Type) where
  labels : Labels
  value : V
  histogram : Option (Histogram V)

structure RegisteredMetric (V : Type) where
  kind : MetricKind
  help : Option String
  samples : List (String × Sample V)

abbrev Registry (V : Type) := List (String × RegisteredMetric V)

structure Options (V : Type) where
  defaultBuckets : List V
  constLabels : Labels

inductive Update (V : Type) where
  | counterInc (value : Option V)
  | gaugeSet (value : V)
  | gaugeInc (value : Option V)
  | gaugeDec (value : Option V)
  | observe (value : V)

def Update.kind {V : Type} : Update V → MetricKind
  | .counterInc _ => .counter
  | .gaugeSet _ | .gaugeInc _ | .gaugeDec _ => .gauge
  | .observe _ => .histogram

section
variable {V : Type} [HostNumber V]

/-- The value of an update, 1 where it has none. -/
def Update.value : Update V → V
  | .counterInc value | .gaugeInc value | .gaugeDec value => value.getD one
  | .gaugeSet value | .observe value => value

/-- A value that is not finite is skipped, and so is a negative one of a counter. -/
def Update.isTaken (u : Update V) : Bool :=
  isFinite u.value && (u.kind != .counter || !lt u.value zero)

def register (metrics : Registry V) (name : String) (kind : MetricKind) (help : Option String) :
    Except String (Registry V) :=
  match metrics.lookup name with
  | some existing =>
    if existing.kind ≠ kind then
      .error ("metric \"" ++ name ++ "\" already registered as " ++ existing.kind.text ++
        ", cannot re-register as " ++ kind.text)
    else .ok (upsert name existing (fun m => { m with help := m.help <|> help }) metrics)
  | none => .ok (upsert name ⟨kind, help, []⟩ id metrics)

/-- The sample that is made for new labels. -/
def freshSample (o : Options V) (kind : MetricKind) (labels : Labels) : Sample V where
  labels := labels
  value := zero
  histogram :=
    if kind = .histogram then
      some ⟨o.defaultBuckets, List.replicate (o.defaultBuckets.length + 1) 0, zero, 0⟩
    else none

/-- The value goes to the first bucket that takes it, else to the last one. -/
def Histogram.observe (h : Histogram V) (value : V) : Histogram V where
  boundaries := h.boundaries
  buckets := h.buckets.modify (h.boundaries.findIdx (le value ·)) (· + 1)
  sum := add h.sum value
  count := h.count + 1

def Sample.update (sample : Sample V) (u : Update V) : Sample V :=
  match u with
  | .counterInc _ | .gaugeInc _ => { sample with value := add sample.value u.value }
  | .gaugeSet value => { sample with value := value }
  | .gaugeDec _ => { sample with value := sub sample.value u.value }
  | .observe value => { sample with histogram := sample.histogram.map (·.observe value) }

/-- `ensureSample`, and the update of the sample that it returns. -/
def RegisteredMetric.update (o : Options V) (metric : RegisteredMetric V) (labels : Labels)
    (u : Update V) : RegisteredMetric V :=
  { metric with
    samples := upsert (labelKey labels) (freshSample o metric.kind labels) (·.update u)
      metric.samples }

/-- A call: a handle is asked for, and may be used. -/
structure Call (V : Type) where
  name : String
  kind : MetricKind
  help : Option String
  use : Option (Option Labels × Update V)
  sameKind : ∀ p ∈ use, p.2.kind = kind

/-- The update of a call, with all its labels, if it is not skipped. -/
def Call.taken? (c : Call V) (o : Options V) : Option (Labels × Update V) :=
  (c.use.filter fun p => p.2.isTaken).map fun p => (mergeLabels o.constLabels p.1, p.2)

def updateMetric (o : Options V) (name : String) (labels : Labels) (u : Update V)
    (metrics : Registry V) : Registry V :=
  metrics.map fun entry =>
    if entry.1 = name then (entry.1, entry.2.update o labels u) else entry

def call (o : Options V) (metrics : Registry V) (c : Call V) : Except String (Registry V) :=
  (register metrics c.name c.kind c.help).map fun metrics =>
    match c.taken? o with
    | none => metrics
    | some (labels, u) => updateMetric o c.name labels u metrics

/-- The registry after a call, the same where it threw. -/
def after (o : Options V) (metrics : Registry V) (c : Call V) : Registry V :=
  match call o metrics c with
  | .ok metrics => metrics
  | .error _ => metrics

def run (o : Options V) (history : List (Call V)) : Registry V := history.foldl (after o) []

end

/-! ### The text -/

/-- A character that is allowed stays, any other is replaced unit by unit. -/
def normalizeChar (c : Char) : List Char :=
  if Exposition.isMetricChar c then [c]
  else List.replicate (utf16 (String.singleton c)).length '_'

def normalizeMetricName (name : String) : List Char :=
  match name.toList.flatMap normalizeChar with
  | [] => ['_']
  | c :: cs => if c.isDigit then '_' :: c :: cs else c :: cs

def escapeLabelValue (value : String) : List Char :=
  value.toList.flatMap fun c =>
    if c = '\\' then ['\\', '\\'] else if c = '\n' then ['\\', 'n']
    else if c = '"' then ['\\', '"'] else [c]

def escapeHelp (help : String) : List Char :=
  help.toList.flatMap fun c =>
    if c = '\\' then ['\\', '\\'] else if c = '\n' then ['\\', 'n'] else [c]

def renderLabels (labels : Labels) (extra : Option (String × String)) : List Char :=
  let pairs := (labels.sorted ++ extra.toList).map fun p =>
    p.1.toList ++ '=' :: '"' :: escapeLabelValue p.2 ++ ['"']
  if pairs = [] then [] else '{' :: [','].intercalate pairs ++ ['}']

section
variable {V : Type} [HostNumber V]

def renderValue (v : V) : String :=
  if isFinite v then text v
  else if isNaN v then "NaN"
  else if lt zero v then "+Inf" else "-Inf"

def renderLine (name : List Char) (labels : Labels) (extra : Option (String × String))
    (value : String) : List Char :=
  name ++ renderLabels labels extra ++ ' ' :: value.toList

/-- The counts of the buckets, each with those before it. -/
def cumulate : Nat → List Nat → List Nat
  | _, [] => []
  | cumulative, n :: buckets => (cumulative + n) :: cumulate (cumulative + n) buckets

/-- The bounds, and the last one. -/
def bucketLabels (boundaries : List V) : List String := boundaries.map renderValue ++ ["+Inf"]

def renderHistogram (name : List Char) (sample : Sample V) : List (List Char) :=
  match sample.histogram with
  | none => []
  | some h =>
    ((bucketLabels h.boundaries).zip (cumulate 0 h.buckets)).map (fun p =>
      renderLine (name ++ "_bucket".toList) sample.labels (some ("le", p.1)) (toString p.2)) ++
    [renderLine (name ++ "_sum".toList) sample.labels none (renderValue h.sum),
      renderLine (name ++ "_count".toList) sample.labels none (toString h.count)]

/-- The lines of a metric; `collate` is `localeCompare`. -/
def renderMetric (collate : String → String → Bool) (name : String) (metric : RegisteredMetric V) :
    List (List Char) :=
  let wireName := normalizeMetricName name
  metric.help.toList.map (fun help =>
      "# HELP ".toList ++ wireName ++ ' ' :: escapeHelp help) ++
    ("# TYPE ".toList ++ wireName ++ ' ' :: metric.kind.text.toList) ::
    ((metric.samples.map Prod.snd).mergeSort fun a b =>
        collate (labelKey a.labels) (labelKey b.labels)).flatMap fun sample =>
      if metric.kind = .histogram then renderHistogram wireName sample
      else [renderLine wireName sample.labels none (renderValue sample.value)]

def scrapeLines (collate : String → String → Bool) (metrics : Registry V) : List (List Char) :=
  (metrics.map Prod.fst).insertionSort (fun a b => utf16 a ≤ utf16 b) |>.flatMap fun name =>
    match metrics.lookup name with
    | none => []
    | some metric => renderMetric collate name metric

def scrape (collate : String → String → Bool) (metrics : Registry V) : List Char :=
  match scrapeLines collate metrics with
  | [] => []
  | out => ['\n'].intercalate out ++ ['\n']

/-! ### What is promised -/

/-- The kind that a name was first registered as. -/
def kindOf (history : List (Call V)) (name : String) : Option MetricKind :=
  (history.find? (·.name = name)).map Call.kind

/-- The updates of a metric that are taken, with all their labels. -/
def updatesOf (o : Options V) (history : List (Call V)) (name : String) (kind : MetricKind) :
    List (Labels × Update V) :=
  history.filterMap fun c => if c.name = name ∧ c.kind = kind then c.taken? o else none

/-- A metric with one of the label sets that it was updated with. -/
structure Due where
  name : String
  kind : MetricKind
  labels : List (String × String)
  deriving DecidableEq

def due (o : Options V) (history : List (Call V)) : List Due :=
  (history.map Call.name).dedup.flatMap fun name =>
    (kindOf history name).toList.flatMap fun kind =>
      ((updatesOf o history name kind).map fun p => p.1.sorted).dedup.map fun labels =>
        ⟨name, kind, labels⟩

/-- The updates made with a label set. -/
def Due.updates (d : Due) (o : Options V) (history : List (Call V)) : List (Update V) :=
  ((updatesOf o history d.name d.kind).filter fun p => decide (p.1.sorted = d.labels)).map Prod.snd

/-- What a counter or a gauge comes to. -/
def total (us : List (Update V)) : V :=
  us.foldl (fun sum u =>
    match u with
    | .counterInc _ | .gaugeInc _ => add sum u.value
    | .gaugeSet value => value
    | .gaugeDec _ => sub sum u.value
    | .observe _ => sum) zero

def sumOf (us : List (Update V)) : V := us.foldl (fun sum u => add sum u.value) zero

/-- How many values each bucket and those before it take; the last one takes all. -/
def taken (boundaries : List V) (us : List (Update V)) : List Nat :=
  (List.range boundaries.length).map (fun i =>
    us.countP fun u => (boundaries.take (i + 1)).any (le u.value ·)) ++ [us.length]

def Due.wire (d : Due) (suffix : String) : String :=
  String.ofList (normalizeMetricName d.name ++ suffix.toList)

/-- The series of a metric with a label set, of the fold of the updates made with it. -/
def Due.series (d : Due) (o : Options V) (us : List (Update V)) : List Series :=
  if d.kind = .histogram then
    ((bucketLabels o.defaultBuckets).zip (taken o.defaultBuckets us)).map (fun p =>
        ⟨d.wire "_bucket", d.labels ++ [("le", p.1)], toString p.2⟩) ++
      [⟨d.wire "_sum", d.labels, renderValue (sumOf us)⟩,
        ⟨d.wire "_count", d.labels, toString us.length⟩]
  else [⟨d.wire "", d.labels, renderValue (total us)⟩]

def expected (o : Options V) (history : List (Call V)) : List Series :=
  (due o history).flatMap fun d => d.series o (d.updates o history)

/-- **The exposition is faithful**: it is read as the series that are due, each once, and no two
of them are told by the same name and labels. -/
def Faithful (collate : String → String → Bool) (o : Options V) (history : List (Call V)) : Prop :=
  ∃ series, Exposition.read (scrape collate (run o history)) = some series ∧
    series.Perm (expected o history) ∧ (series.map Series.identity).Nodup

/-! ### When it is -/

/-- What the series of a metric with a label set are told by. -/
def Due.identities (d : Due) (o : Options V) : List (String × Finset (String × String)) :=
  if d.kind = .histogram then
    (bucketLabels o.defaultBuckets).map (fun bound =>
        (d.wire "_bucket", (d.labels ++ [("le", bound)]).toFinset)) ++
      [(d.wire "_sum", d.labels.toFinset), (d.wire "_count", d.labels.toFinset)]
  else [(d.wire "", d.labels.toFinset)]

/-- The labels have names of labels, and those of a histogram are not named `le`. -/
def Named (o : Options V) (history : List (Call V)) : Prop :=
  ∀ d ∈ due o history, (∀ p ∈ d.labels, Exposition.isLabelName p.1.toList = true) ∧
    (d.kind = .histogram → "le" ∉ d.labels.map Prod.fst)

/-- The labels are named; label sets that a metric is updated with have different texts; and what
is due is told apart once metric names are normalised. -/
structure Apart (o : Options V) (history : List (Call V)) : Prop where
  named : Named o history
  keyed : ∀ name kind, kindOf history name = some kind →
    ∀ p ∈ updatesOf o history name kind, ∀ q ∈ updatesOf o history name kind,
      labelKey p.1 = labelKey q.1 → p.1.sorted = q.1.sorted
  told : ((due o history).flatMap fun d => d.identities o).Nodup

/-! ### The samples of a metric -/

variable {o : Options V} {history : List (Call V)} {metrics : Registry V}

/-- Updates, grouped by the text of their labels. -/
def samplesOf (o : Options V) (kind : MetricKind) (updates : List (Labels × Update V)) :
    List (String × Sample V) :=
  collect (fun p => labelKey p.1) (fun p => freshSample o kind p.1)
    (fun p sample => sample.update p.2) updates

/-- The registry keeps the updates of a history. -/
structure Keeps (o : Options V) (history : List (Call V)) (metrics : Registry V) : Prop where
  nodup : (Grouping.keys metrics).Nodup
  lookup : ∀ name, (metrics.lookup name).map (fun m => (m.kind, m.samples)) =
    (kindOf history name).map fun kind =>
      (kind, samplesOf o kind (updatesOf o history name kind))

omit [HostNumber V] in
theorem kindOf_append (history : List (Call V)) (c : Call V) (name : String) :
    kindOf (history ++ [c]) name =
      (kindOf history name).or (if c.name = name then some c.kind else none) := by
  unfold kindOf
  rw [List.find?_append, List.find?_singleton]
  by_cases hname : c.name = name
  · cases history.find? (·.name = name) <;> simp [hname]
  · simp [hname]

theorem updatesOf_append (o : Options V) (history : List (Call V)) (c : Call V) (name : String)
    (kind : MetricKind) : updatesOf o (history ++ [c]) name kind =
      updatesOf o history name kind ++ updatesOf o [c] name kind := List.filterMap_append

theorem lookup_updateMetric (o : Options V) (name : String) (labels : Labels) (u : Update V)
    (metrics : Registry V) (k : String) : (updateMetric o name labels u metrics).lookup k =
      if k = name then (metrics.lookup k).map (·.update o labels u) else metrics.lookup k := by
  unfold updateMetric
  induction metrics with
  | nil => simp
  | cons entry metrics ih =>
    rw [List.map_cons, Grouping.lookup_cons, Grouping.lookup_cons, ih]
    by_cases hentry : entry.1 = name
    · rw [if_pos hentry]
      by_cases hk : k = entry.1
      · rw [if_pos hk, if_pos hk, if_pos (hk.trans hentry)]
        rfl
      · rw [if_neg hk, if_neg hk]
    · rw [if_neg hentry]
      by_cases hk : k = entry.1
      · rw [if_pos hk, if_pos hk, if_neg fun heq => hentry (hk.symm.trans heq)]
      · rw [if_neg hk, if_neg hk]

theorem keys_updateMetric (o : Options V) (name : String) (labels : Labels) (u : Update V)
    (metrics : Registry V) :
    Grouping.keys (updateMetric o name labels u metrics) = Grouping.keys metrics := by
  unfold updateMetric
  rw [Grouping.keys, List.map_map]
  refine List.map_congr_left fun entry _ => ?_
  rw [Function.comp_apply]
  split <;> rfl

omit [HostNumber V] in
/-- What a registration leaves: the name has its kind, and the other names what they had. -/
theorem register_cases (metrics : Registry V) (name : String) (kind : MetricKind)
    (help : Option String) :
    (∃ existing text, metrics.lookup name = some existing ∧ existing.kind ≠ kind ∧
      register metrics name kind help = .error text) ∨
    (∃ metric fresh f, register metrics name kind help = .ok (upsert name fresh f metrics) ∧
      f ((metrics.lookup name).getD fresh) = metric ∧ metric.kind = kind ∧
      metric.samples = ((metrics.lookup name).map RegisteredMetric.samples).getD [] ∧
      ∀ existing, metrics.lookup name = some existing → existing.kind = kind) := by
  unfold register
  cases hlookup : metrics.lookup name with
  | none =>
    refine .inr ⟨_, _, _, rfl, rfl, rfl, rfl, fun _ h => ?_⟩
    cases h
  | some existing =>
    dsimp only
    by_cases hkind : existing.kind = kind
    · rw [if_neg (not_not.mpr hkind)]
      refine .inr ⟨_, _, _, rfl, rfl, hkind, rfl, fun _ h => ?_⟩
      obtain rfl := Option.some.inj h
      exact hkind
    · rw [if_pos hkind]
      exact .inl ⟨existing, _, rfl, hkind, rfl⟩

theorem updatesOf_singleton (o : Options V) (c : Call V) (name : String) (kind : MetricKind) :
    updatesOf o [c] name kind =
      if c.name = name ∧ c.kind = kind then (c.taken? o).toList else [] := by
  unfold updatesOf
  rw [List.filterMap_cons, List.filterMap_nil]
  split_ifs with h
  · cases c.taken? o <;> rfl
  · rfl

theorem updatesOf_of_kindOf_none {name : String} (h : kindOf history name = none)
    (kind : MetricKind) : updatesOf o history name kind = [] := by
  have hnames := List.find?_eq_none.mp (Option.map_eq_none_iff.mp h)
  refine List.filterMap_eq_nil_iff.mpr fun c hc => if_neg fun hboth => ?_
  exact hnames c hc (decide_eq_true hboth.1)

theorem Keeps.kind (h : Keeps o history metrics) (name : String) :
    (metrics.lookup name).map RegisteredMetric.kind = kindOf history name := by
  have hlookup := congrArg (Option.map Prod.fst) (h.lookup name)
  rw [Option.map_map, Option.map_map] at hlookup
  exact hlookup.trans Option.map_id'

/-- The samples there are of the kind that the name has, none where it has none yet. -/
theorem Keeps.samples (h : Keeps o history metrics) {name : String} {kind : MetricKind}
    (hkind : ∀ existing, metrics.lookup name = some existing → existing.kind = kind) :
    ((metrics.lookup name).map RegisteredMetric.samples).getD [] =
      samplesOf o kind (updatesOf o history name kind) := by
  have hlookup := h.lookup name
  have hkindOf := h.kind name
  cases hmetric : metrics.lookup name with
  | none =>
    rw [hmetric] at hkindOf
    rw [updatesOf_of_kindOf_none hkindOf.symm]
    rfl
  | some existing =>
    have hexisting := hkind existing hmetric
    rw [hmetric, ← hkindOf, hmetric] at hlookup
    have hpair := Prod.mk.inj (Option.some.inj hlookup)
    rw [← hexisting]
    exact hpair.2

/-- The entry of a metric after one more update of it, if there is one. -/
theorem updated_entry (o : Options V) (c : Call V) (updates : List (Labels × Update V))
    {metric : RegisteredMetric V} (hkind : metric.kind = c.kind)
    (hsamples : metric.samples = samplesOf o c.kind updates) :
    ((c.taken? o).elim metric fun p => metric.update o p.1 p.2).kind = c.kind ∧
      ((c.taken? o).elim metric fun p => metric.update o p.1 p.2).samples =
        samplesOf o c.kind (updates ++ (c.taken? o).toList) := by
  cases c.taken? o with
  | none =>
    rw [Option.toList_none, List.append_nil]
    exact ⟨hkind, hsamples⟩
  | some p =>
    refine ⟨hkind, ?_⟩
    have happend : samplesOf o c.kind (updates ++ [p]) = upsert (labelKey p.1)
        (freshSample o c.kind p.1) (·.update p.2) (samplesOf o c.kind updates) :=
      Grouping.collect_append _ _ _ updates p
    rw [Option.toList_some, happend, ← hsamples, ← hkind]
    rfl

/-- **A call keeps the updates**, those of the history and its own. -/
theorem Keeps.after (h : Keeps o history metrics) (c : Call V) :
    Keeps o (history ++ [c]) (after o metrics c) := by
  have hother (name : String) (hname : c.name ≠ name) (kind : MetricKind) :
      kindOf (history ++ [c]) name = kindOf history name ∧
        updatesOf o (history ++ [c]) name kind = updatesOf o history name kind := by
    rw [kindOf_append, updatesOf_append, updatesOf_singleton, if_neg hname,
      if_neg fun hboth => hname hboth.1, Option.or_none, List.append_nil]
    exact ⟨rfl, rfl⟩
  rcases register_cases metrics c.name c.kind c.help with
    ⟨existing, text, hexisting, hkind, herror⟩ |
    ⟨metric, fresh, f, hok, hmetric, hkind, hsamples, hold⟩
  · have hafter : Prometheus.after o metrics c = metrics := by
      rw [Prometheus.after, call, herror]
      rfl
    rw [hafter]
    refine ⟨h.nodup, fun name => ?_⟩
    by_cases hname : c.name = name
    · subst hname
      have hkindOf : kindOf history c.name = some existing.kind := by
        rw [← h.kind, hexisting]
        rfl
      rw [h.lookup, kindOf_append, hkindOf, Option.some_or, Option.map_some, Option.map_some,
        updatesOf_append, updatesOf_singleton, if_neg fun hboth => hkind hboth.2.symm,
        List.append_nil]
    · rw [h.lookup, (hother name hname .counter).1]
      simp only [(hother name hname _).2]
  · have hafter : Prometheus.after o metrics c =
        ((c.taken? o).elim (upsert c.name fresh f metrics) fun p =>
          updateMetric o c.name p.1 p.2 (upsert c.name fresh f metrics)) := by
      rw [Prometheus.after, call, hok]
      cases c.taken? o <;> rfl
    have hnodup : (Grouping.keys (upsert c.name fresh f metrics)).Nodup :=
      Grouping.nodup_keys_upsert h.nodup
    have hlookup (name : String) : (Prometheus.after o metrics c).lookup name =
        if name = c.name then
          some ((c.taken? o).elim metric fun p => metric.update o p.1 p.2)
        else metrics.lookup name := by
      rw [hafter]
      cases c.taken? o with
      | none =>
        rw [Option.elim_none, Grouping.lookup_upsert, hmetric]
        rfl
      | some p =>
        rw [Option.elim_some, lookup_updateMetric, Grouping.lookup_upsert, hmetric]
        split_ifs <;> rfl
    refine ⟨?_, fun name => ?_⟩
    · rw [hafter]
      cases c.taken? o with
      | none => exact hnodup
      | some p =>
        rw [Option.elim_some, keys_updateMetric]
        exact hnodup
    · rw [hlookup]
      by_cases hname : c.name = name
      · subst hname
        rw [h.samples hold] at hsamples
        obtain ⟨hk, hs⟩ := updated_entry o c _ hkind hsamples
        have hkindOf : kindOf (history ++ [c]) c.name = some c.kind := by
          rw [kindOf_append, if_pos rfl, ← h.kind]
          cases hexisting : metrics.lookup c.name with
          | none => rfl
          | some existing => rw [Option.map_some, hold existing hexisting, Option.some_or]
        rw [if_pos rfl, hkindOf, Option.map_some, Option.map_some, hk, hs, updatesOf_append,
          updatesOf_singleton, if_pos ⟨rfl, rfl⟩]
      · rw [if_neg (Ne.symm hname), h.lookup, (hother name hname .counter).1]
        simp only [(hother name hname _).2]

/-- **The samples of a run** are its updates, grouped. -/
theorem keeps_run (o : Options V) (history : List (Call V)) : Keeps o history (run o history) := by
  induction history using List.reverseRecOn with
  | nil => exact ⟨List.nodup_nil, fun _ => rfl⟩
  | append_singleton history c ih =>
    rw [run, List.foldl_append]
    exact ih.after c

/-! ### A sample -/

/-- The bucket that takes the value of an update. -/
def bucketOf (boundaries : List V) (u : Update V) : Nat := boundaries.findIdx (le u.value ·)

/-- The histogram of updates. -/
def observed (o : Options V) (us : List (Update V)) : Histogram V where
  boundaries := o.defaultBuckets
  buckets := (List.range (o.defaultBuckets.length + 1)).map fun i =>
    us.countP fun u => decide (bucketOf o.defaultBuckets u = i)
  sum := sumOf us
  count := us.length

theorem observed_append (o : Options V) (us : List (Update V)) (value : V) :
    observed o (us ++ [.observe value]) = (observed o us).observe value := by
  have hbuckets : (List.range (o.defaultBuckets.length + 1)).map (fun i =>
        (us ++ [Update.observe value]).countP fun u => decide (bucketOf o.defaultBuckets u = i)) =
      ((List.range (o.defaultBuckets.length + 1)).map fun i =>
        us.countP fun u => decide (bucketOf o.defaultBuckets u = i)).modify
          (bucketOf o.defaultBuckets (.observe value)) (· + 1) := by
    refine List.ext_getElem (by simp) fun i _ _ => ?_
    rw [List.getElem_modify]
    simp only [List.getElem_map, List.getElem_range, List.countP_append, List.countP_singleton,
      decide_eq_true_eq]
    split_ifs <;> rfl
  have hsum : sumOf (us ++ [.observe value]) = add (sumOf us) value := by
    rw [sumOf, List.foldl_append]
    rfl
  unfold observed Histogram.observe
  rw [hbuckets, hsum, List.length_append]
  rfl

/-- **A sample is the fold of its updates.** -/
theorem foldl_update (o : Options V) (kind : MetricKind) (labels : Labels) {us : List (Update V)}
    (h : ∀ u ∈ us, u.kind = kind) :
    us.foldl Sample.update (freshSample o kind labels) =
      ⟨labels, total us, if kind = .histogram then some (observed o us) else none⟩ := by
  induction us using List.reverseRecOn with
  | nil =>
    unfold freshSample observed
    simp only [List.foldl_nil, List.countP_nil, List.map_const', List.length_range]
    rfl
  | append_singleton us u ih =>
    have hkind : u.kind = kind := h u (by simp)
    have htotal : total (us ++ [u]) = (Sample.update ⟨labels, total us, none⟩ u).value := by
      rw [total, List.foldl_append]
      cases u <;> rfl
    rw [List.foldl_append, ih fun u' hu' => h u' (List.mem_append_left _ hu'), htotal,
      List.foldl_cons, List.foldl_nil]
    subst hkind
    cases u with
    | observe value =>
      have hobserve : (Update.observe value).kind = .histogram := rfl
      rw [if_pos hobserve, if_pos hobserve, observed_append]
      rfl
    | counterInc | gaugeSet | gaugeInc | gaugeDec => rfl

/-! ### Its lines -/

theorem countP_lt_add_eq {α : Type} (f : α → Nat) (items : List α) (s : Nat) :
    (items.countP fun a => decide (f a < s)) + (items.countP fun a => decide (f a = s)) =
      items.countP fun a => decide (f a ≤ s) := by
  induction items with
  | nil => rfl
  | cons a items ih =>
    simp only [List.countP_cons, decide_eq_true_eq]
    split_ifs <;> omega

theorem cumulate_countP {α : Type} (f : α → Nat) (items : List α) (n : Nat) :
    ∀ s : Nat, cumulate (items.countP fun a => decide (f a < s))
        ((List.range' s n).map fun i => items.countP fun a => decide (f a = i)) =
      (List.range' s n).map fun i => items.countP fun a => decide (f a ≤ i) := by
  induction n with
  | zero => intro _; rfl
  | succ n ih =>
    intro s
    have hnext : (items.countP fun a => decide (f a ≤ s)) =
        items.countP fun a => decide (f a < s + 1) := by
      simp only [Nat.lt_succ_iff]
    rw [List.range'_succ, List.map_cons, List.map_cons, cumulate, countP_lt_add_eq]
    refine congrArg _ ?_
    rw [hnext]
    exact ih (s + 1)

theorem any_take_succ {α : Type} (p : α → Bool) :
    ∀ {items : List α} {i : Nat}, i < items.length →
      (items.take (i + 1)).any p = decide (items.findIdx p ≤ i)
  | a :: items, 0, _ => by
      rw [List.take_succ_cons, List.take_zero, List.any_cons, List.any_nil, List.findIdx_cons]
      cases p a <;> rfl
  | a :: items, i + 1, h => by
      rw [List.take_succ_cons, List.any_cons, List.findIdx_cons,
        any_take_succ p (Nat.lt_of_succ_lt_succ h)]
      cases p a <;> simp

/-- The buckets with those before them hold what they take. -/
theorem cumulate_observed (o : Options V) (us : List (Update V)) :
    cumulate 0 (observed o us).buckets = taken o.defaultBuckets us := by
  have hzero : (us.countP fun u => decide (bucketOf o.defaultBuckets u < 0)) = 0 :=
    List.countP_eq_zero.mpr fun u _ => by simp
  have hlast : (us.countP fun u =>
      decide (bucketOf o.defaultBuckets u ≤ o.defaultBuckets.length)) = us.length :=
    List.countP_eq_length.mpr fun u _ => decide_eq_true List.findIdx_le_length
  have hcumulate := cumulate_countP (bucketOf o.defaultBuckets) us
    (o.defaultBuckets.length + 1) 0
  rw [hzero, ← List.range_eq_range'] at hcumulate
  rw [observed, hcumulate, List.range_succ, List.map_append, taken]
  refine congrArg₂ _ (List.map_congr_left fun i hi => ?_) (congrArg (fun n => [n]) hlast)
  refine List.countP_congr fun u _ => ?_
  rw [any_take_succ _ (List.mem_range.mp hi)]
  rfl

theorem renderLabels_eq (labels : Labels) (extra : Option (String × String)) :
    renderLabels labels extra = Exposition.writeLabels (labels.sorted ++ extra.toList) := by
  unfold renderLabels Exposition.writeLabels
  simp only [List.map_eq_nil_iff]
  rfl

theorem renderLine_eq (name : List Char) (labels : Labels) (extra : Option (String × String))
    (value : String) : renderLine name labels extra value =
      Exposition.writeLine ⟨String.ofList name, labels.sorted ++ extra.toList, value⟩ := by
  rw [renderLine, Exposition.writeLine, renderLabels_eq, String.toList_ofList]

/-- **A sample is written as the series of its updates.** -/
theorem renderSample_eq (o : Options V) (name : String) (kind : MetricKind) (labels : Labels)
    (us : List (Update V)) {sample : Sample V} (hsample : sample =
      ⟨labels, total us, if kind = .histogram then some (observed o us) else none⟩) :
    (if kind = .histogram then renderHistogram (normalizeMetricName name) sample
      else [renderLine (normalizeMetricName name) sample.labels none (renderValue sample.value)]) =
    ((Due.mk name kind labels.sorted).series o us).map Exposition.writeLine := by
  subst hsample
  unfold Due.series
  by_cases hkind : kind = .histogram
  · rw [if_pos hkind, if_pos hkind, if_pos hkind, renderHistogram]
    dsimp only
    rw [cumulate_observed, List.map_append, List.map_map]
    simp only [renderLine_eq, Option.toList_none, List.append_nil]
    rfl
  · rw [if_neg hkind, if_neg hkind, if_neg hkind, renderLine_eq, Due.wire]
    simp

/-! ### The samples that there are -/

/-- The updates that have the text of the labels. -/
def Due.keyUpdates (d : Due) (o : Options V) (history : List (Call V)) : List (Update V) :=
  ((updatesOf o history d.name d.kind).filter fun p =>
    decide (labelKey p.1 = keyText d.labels)).map Prod.snd

/-- The labels are those of the first update that has their text. -/
def Due.IsFirst (d : Due) (o : Options V) (history : List (Call V)) : Prop :=
  ((updatesOf o history d.name d.kind).find? fun p =>
    decide (labelKey p.1 = keyText d.labels)).map (fun p => p.1.sorted) = some d.labels

instance (d : Due) (o : Options V) (history : List (Call V)) : Decidable (d.IsFirst o history) :=
  inferInstanceAs (Decidable (_ = _))

theorem kind_of_mem_updatesOf {name : String} {kind : MetricKind} {p : Labels × Update V}
    (h : p ∈ updatesOf o history name kind) : p.2.kind = kind := by
  obtain ⟨c, -, hc⟩ := List.mem_filterMap.mp h
  split at hc
  · rename_i hboth
    obtain ⟨use, huse, rfl⟩ := Option.map_eq_some_iff.mp hc
    exact (c.sameKind use (Option.mem_filter_iff.mp huse).1).trans hboth.2
  · cases hc

theorem mem_samplesOf {kind : MetricKind} {updates : List (Labels × Update V)}
    (hkinds : ∀ p ∈ updates, p.2.kind = kind) {key : String} {sample : Sample V} :
    (key, sample) ∈ samplesOf o kind updates ↔
      ∃ first, updates.find? (fun p => decide (labelKey p.1 = key)) = some first ∧
        ∃ us, us = (updates.filter fun p => decide (labelKey p.1 = key)).map Prod.snd ∧
          sample =
            ⟨first.1, total us, if kind = .histogram then some (observed o us) else none⟩ := by
  have hfold (first : Labels × Update V) :
      (updates.filter fun p => decide (labelKey p.1 = key)).foldl
          (fun sample p => sample.update p.2) (freshSample o kind first.1) =
        ⟨first.1, total ((updates.filter fun p => decide (labelKey p.1 = key)).map Prod.snd),
          if kind = .histogram then
            some (observed o ((updates.filter fun p => decide (labelKey p.1 = key)).map Prod.snd))
          else none⟩ := by
    rw [← foldl_update, List.foldl_map]
    intro u hu
    obtain ⟨p, hp, rfl⟩ := List.mem_map.mp hu
    exact hkinds p (List.mem_filter.mp hp).1
  rw [samplesOf, ← Grouping.lookup_eq_some_iff (Grouping.nodup_keys_collect _ _ _ _),
    Grouping.lookup_collect, Option.map_eq_some_iff]
  refine exists_congr fun first => and_congr_right fun _ => ?_
  rw [hfold]
  constructor
  · intro h
    exact ⟨_, rfl, h.symm⟩
  · rintro ⟨_, rfl, rfl⟩
    rfl

/-- The metrics and labels of the samples, as they are written. -/
def held (collate : String → String → Bool) (metrics : Registry V) : List Due :=
  ((metrics.map Prod.fst).insertionSort fun a b => utf16 a ≤ utf16 b).flatMap fun name =>
    (metrics.lookup name).toList.flatMap fun metric =>
      ((metric.samples.map Prod.snd).mergeSort fun a b =>
        collate (labelKey a.labels) (labelKey b.labels)).map fun sample =>
          ⟨name, metric.kind, sample.labels.sorted⟩

theorem mem_due {d : Due} : d ∈ due o history ↔ kindOf history d.name = some d.kind ∧
    ∃ p ∈ updatesOf o history d.name d.kind, p.1.sorted = d.labels := by
  obtain ⟨name, kind, labels⟩ := d
  unfold due
  simp only [List.mem_flatMap, List.mem_dedup, List.mem_map, Option.mem_toList, Due.mk.injEq]
  constructor
  · rintro ⟨_, -, _, hkind, _, ⟨p, hp, rfl⟩, rfl, rfl, rfl⟩
    exact ⟨hkind, p, hp, rfl⟩
  · rintro ⟨hkind, p, hp, rfl⟩
    obtain ⟨c, hc, -⟩ := Option.map_eq_some_iff.mp hkind
    have hname := List.find?_some hc
    exact ⟨name, ⟨c, List.mem_of_find?_eq_some hc, of_decide_eq_true hname⟩, kind, hkind, _,
      ⟨p, hp, rfl⟩, rfl, rfl, rfl⟩

theorem due_nodup (o : Options V) (history : List (Call V)) : (due o history).Nodup := by
  unfold due
  refine List.nodup_flatMap.mpr ⟨fun name _ => List.nodup_flatMap.mpr ⟨fun kind _ => ?_, ?_⟩, ?_⟩
  · refine (List.nodup_dedup _).map fun labels labels' heq => ?_
    exact (Due.mk.inj heq).2.2
  · cases kindOf history name with
    | none => exact List.Pairwise.nil
    | some kind => exact List.pairwise_singleton _ _
  · refine (List.nodup_dedup _).imp fun {name name'} hne => ?_
    intro d hd hd'
    simp only [List.mem_flatMap, List.mem_map] at hd hd'
    obtain ⟨_, -, _, -, rfl⟩ := hd
    obtain ⟨_, -, _, -, heq⟩ := hd'
    exact hne (Due.mk.inj heq).1.symm

theorem lookup_run_iff {name : String} {metric : RegisteredMetric V} :
    (run o history).lookup name = some metric →
      kindOf history name = some metric.kind ∧
        metric.samples = samplesOf o metric.kind (updatesOf o history name metric.kind) := by
  intro h
  have hlookup := (keeps_run o history).lookup name
  have hkind := (keeps_run o history).kind name
  rw [h, Option.map_some] at hkind
  rw [h, ← hkind] at hlookup
  exact ⟨hkind.symm, (Prod.mk.inj (Option.some.inj hlookup)).2⟩

/-- The text of the labels of a sample is its key. -/
theorem key_of_mem_samples {name : String} {metric : RegisteredMetric V}
    (h : (run o history).lookup name = some metric) {key : String} {sample : Sample V}
    (hmem : (key, sample) ∈ metric.samples) : labelKey sample.labels = key := by
  obtain ⟨-, hsamples⟩ := lookup_run_iff h
  rw [hsamples, mem_samplesOf fun p => kind_of_mem_updatesOf] at hmem
  obtain ⟨first, hfirst, _, -, rfl⟩ := hmem
  have hkey := List.find?_some hfirst
  exact of_decide_eq_true hkey

/-- What is written are the firsts of their texts. -/
theorem mem_held {collate : String → String → Bool} {d : Due} :
    d ∈ held collate (run o history) ↔
      kindOf history d.name = some d.kind ∧ d.IsFirst o history := by
  obtain ⟨name, kind, labels⟩ := d
  unfold held
  simp only [List.mem_flatMap, List.mem_insertionSort, List.mem_map, Option.mem_toList,
    List.mem_mergeSort, Due.mk.injEq]
  constructor
  · rintro ⟨_, -, metric, hmetric, sample, ⟨⟨key, _⟩, hmem, rfl⟩, rfl, rfl, rfl⟩
    obtain ⟨hkind, hsamples⟩ := lookup_run_iff hmetric
    have hkey := key_of_mem_samples hmetric hmem
    rw [hsamples, mem_samplesOf fun p => kind_of_mem_updatesOf] at hmem
    obtain ⟨first, hfirst, _, -, heq⟩ := hmem
    refine ⟨hkind, Option.map_eq_some_iff.mpr ⟨first, ?_, ?_⟩⟩
    · dsimp only
      rw [← hfirst, ← hkey]
      rfl
    · dsimp only
      rw [heq]
  · rintro ⟨hkind, hfirst⟩
    obtain ⟨first, hfind, hlabels⟩ := Option.map_eq_some_iff.mp hfirst
    dsimp only at hkind hfind hlabels
    have hlookup := (keeps_run o history).kind name
    rw [hkind] at hlookup
    obtain ⟨metric, hmetric, rfl⟩ := Option.map_eq_some_iff.mp hlookup
    obtain ⟨-, hsamples⟩ := lookup_run_iff hmetric
    have hname : (name, metric) ∈ run o history :=
      (Grouping.lookup_eq_some_iff (keeps_run o history).nodup).mp hmetric
    have hsample := (mem_samplesOf (o := o) fun p => kind_of_mem_updatesOf).mpr
      ⟨first, hfind, _, rfl, rfl⟩
    rw [← hsamples] at hsample
    exact ⟨name, ⟨_, hname, rfl⟩, metric, hmetric, _, ⟨_, hsample, rfl⟩, rfl, rfl, hlabels⟩

theorem held_nodup (collate : String → String → Bool) (o : Options V) (history : List (Call V)) :
    (held collate (run o history)).Nodup := by
  unfold held
  refine List.nodup_flatMap.mpr ⟨fun name _ => List.nodup_flatMap.mpr ⟨fun metric hmetric => ?_,
    ?_⟩, ?_⟩
  · have hmetric := Option.mem_toList.mp hmetric
    have hkeys : (Grouping.keys metric.samples).Nodup := by
      rw [(lookup_run_iff hmetric).2]
      exact Grouping.nodup_keys_collect _ _ _ _
    have hsamples : metric.samples.map (fun p => labelKey p.2.labels) =
        Grouping.keys metric.samples :=
      List.map_congr_left fun p hp => key_of_mem_samples hmetric hp
    have hperm := (List.mergeSort_perm (metric.samples.map Prod.snd) fun a b =>
      collate (labelKey a.labels) (labelKey b.labels)).map fun s =>
        (⟨name, metric.kind, s.labels.sorted⟩ : Due)
    refine hperm.nodup_iff.mpr (List.Nodup.of_map (fun d => keyText d.labels) ?_)
    rw [List.map_map, List.map_map]
    exact hsamples ▸ hkeys
  · cases (run o history).lookup name with
    | none => exact List.Pairwise.nil
    | some metric => exact List.pairwise_singleton _ _
  · have hnames : ((run o history).map Prod.fst).Nodup := (keeps_run o history).nodup
    refine (((List.perm_insertionSort _ _).nodup_iff).mpr hnames).imp fun {name name'} hne => ?_
    intro d hd hd'
    simp only [List.mem_flatMap, List.mem_map] at hd hd'
    obtain ⟨_, -, _, -, rfl⟩ := hd
    obtain ⟨_, -, _, -, heq⟩ := hd'
    exact hne (Due.mk.inj heq).1.symm

/-! ### Reading the text -/

theorem isMetricChar_normalize (name : String) :
    ∀ c ∈ normalizeMetricName name, Exposition.isMetricChar c = true := by
  have hall : ∀ c ∈ name.toList.flatMap normalizeChar, Exposition.isMetricChar c = true := by
    intro c hc
    obtain ⟨d, -, hd⟩ := List.mem_flatMap.mp hc
    unfold normalizeChar at hd
    split at hd
    · rename_i hallowed
      rwa [List.mem_singleton.mp hd]
    · rw [List.eq_of_mem_replicate hd]
      rfl
  unfold normalizeMetricName
  split
  · intro c hc
    rw [List.mem_singleton.mp hc]
    rfl
  · rename_i c cs hcs
    rw [hcs] at hall
    split
    · intro d hd
      rcases List.mem_cons.mp hd with rfl | hd
      · rfl
      · exact hall d hd
    · exact hall

theorem isMetricName_normalize (name : String) {suffix : List Char}
    (hsuffix : ∀ c ∈ suffix, Exposition.isMetricChar c = true) :
    Exposition.isMetricName (normalizeMetricName name ++ suffix) = true := by
  have hhead : normalizeMetricName name ≠ [] ∧
      ∀ c ∈ (normalizeMetricName name).head?, c.isDigit = false := by
    unfold normalizeMetricName
    split
    · simp
    · split_ifs with hdigit
      · simp
      · simpa using hdigit
  refine Exposition.isMetricName_iff.mpr ⟨?_, ?_, fun c hc => ?_⟩
  · exact fun h => hhead.1 (List.append_eq_nil_iff.mp h).1
  · rw [List.head?_append_of_ne_nil _ hhead.1]
    exact hhead.2
  · rcases List.mem_append.mp hc with hc | hc
    · exact isMetricChar_normalize name c hc
    · exact hsuffix c hc

theorem notMem_renderValue (v : V) : '\n' ∉ (renderValue v).toList := by
  unfold renderValue
  split_ifs
  · exact text_line v
  · decide
  · decide
  · decide

/-- The suffixes of a histogram are of characters of a name. -/
theorem wire_wellFormed (d : Due) {suffix : String}
    (h : suffix ∈ ["", "_bucket", "_sum", "_count"]) :
    Exposition.isMetricName (d.wire suffix).toList = true := by
  rw [Due.wire, String.toList_ofList]
  refine isMetricName_normalize d.name (List.all_eq_true.mp ?_)
  simp only [List.mem_cons, List.not_mem_nil, or_false] at h
  rcases h with rfl | rfl | rfl | rfl <;> decide

theorem sorted_nodup (labels : Labels) : (labels.sorted.map Prod.fst).Nodup :=
  (((List.perm_insertionSort _ _).map Prod.fst).nodup_iff).mpr labels.nodup

theorem labels_nodup_of_mem_due {d : Due} (h : d ∈ due o history) :
    (d.labels.map Prod.fst).Nodup := by
  obtain ⟨-, p, -, hp⟩ := mem_due.mp h
  rw [← hp]
  exact sorted_nodup p.1

theorem wellFormed_series {d : Due} (hd : d ∈ due o history)
    (hnamed : (∀ p ∈ d.labels, Exposition.isLabelName p.1.toList = true) ∧
      (d.kind = .histogram → "le" ∉ d.labels.map Prod.fst)) (us : List (Update V)) :
    ∀ s ∈ d.series o us, s.WellFormed := by
  have hnodup := labels_nodup_of_mem_due hd
  intro s hs
  unfold Due.series at hs
  split at hs
  · rename_i hkind
    rcases List.mem_append.mp hs with hs | hs
    · obtain ⟨p, -, rfl⟩ := List.mem_map.mp hs
      refine ⟨wire_wellFormed d (by simp), fun q hq => ?_, ?_, notMem_toString rfl _⟩
      · rcases List.mem_append.mp hq with hq | hq
        · exact hnamed.1 q hq
        · rw [List.mem_singleton.mp hq]
          have hle : Exposition.isLabelName "le".toList = true := by decide
          exact hle
      · rw [List.map_append, List.nodup_append']
        refine ⟨hnodup, List.nodup_singleton _, fun name hname hle => ?_⟩
        rw [List.map_singleton, List.mem_singleton] at hle
        rw [hle] at hname
        exact hnamed.2 hkind hname
    · rcases List.mem_cons.mp hs with rfl | hs
      · exact ⟨wire_wellFormed d (by simp), hnamed.1, hnodup, notMem_renderValue _⟩
      · rw [List.mem_singleton.mp hs]
        exact ⟨wire_wellFormed d (by simp), hnamed.1, hnodup, notMem_toString rfl _⟩
  · rw [List.mem_singleton.mp hs]
    exact ⟨wire_wellFormed d (by simp), hnamed.1, hnodup, notMem_renderValue _⟩

theorem IsFirst.mem_due {d : Due} (hkind : kindOf history d.name = some d.kind)
    (h : d.IsFirst o history) : d ∈ due o history := by
  obtain ⟨p, hp, hlabels⟩ := Option.map_eq_some_iff.mp h
  exact Prometheus.mem_due.mpr ⟨hkind, p, List.mem_of_find?_eq_some hp, hlabels⟩

/-- The lines of a sample that there is. -/
theorem renderSample_held {name : String} {metric : RegisteredMetric V}
    (hmetric : (run o history).lookup name = some metric) {sample : Sample V}
    (hsample : sample ∈ metric.samples.map Prod.snd) :
    (if metric.kind = .histogram then renderHistogram (normalizeMetricName name) sample
      else [renderLine (normalizeMetricName name) sample.labels none (renderValue sample.value)]) =
    ((Due.mk name metric.kind sample.labels.sorted).series o
      ((Due.mk name metric.kind sample.labels.sorted).keyUpdates o history)).map
        Exposition.writeLine := by
  obtain ⟨⟨key, _⟩, hmem, rfl⟩ := List.mem_map.mp hsample
  have hkey := key_of_mem_samples hmetric hmem
  rw [(lookup_run_iff hmetric).2, mem_samplesOf fun p => kind_of_mem_updatesOf] at hmem
  obtain ⟨first, -, us, hus, heq⟩ := hmem
  refine renderSample_eq o name metric.kind _ _ ?_
  dsimp only at hkey ⊢
  rw [heq] at hkey ⊢
  rw [hus, ← hkey]
  rfl

theorem notMem_comment {name : String} {text : List Char} (h : '\n' ∉ text) (start : List Char)
    (hstart : '\n' ∉ start) : '\n' ∉ start ++ normalizeMetricName name ++ ' ' :: text := by
  have hname := Exposition.notMem_of_isMetricChar (isMetricChar_normalize name) (c := '\n') rfl
  simp [hname, h, hstart]

theorem notMem_escapeHelp (help : String) : '\n' ∉ escapeHelp help := by
  intro h
  obtain ⟨c, -, hc⟩ := List.mem_flatMap.mp h
  split_ifs at hc with hbackslash hnewline
  · simp at hc
  · simp at hc
  · exact hnewline (List.mem_singleton.mp hc).symm

theorem notMem_renderMetric {collate : String → String → Bool} {name : String}
    {metric : RegisteredMetric V}
    (hsamples : ∀ sample ∈ metric.samples.map Prod.snd, ∀ line ∈
      (if metric.kind = .histogram then renderHistogram (normalizeMetricName name) sample
        else [renderLine (normalizeMetricName name) sample.labels none
          (renderValue sample.value)]), '\n' ∉ line) :
    ∀ line ∈ renderMetric collate name metric, '\n' ∉ line := by
  intro line hline
  rcases List.mem_append.mp hline with hhelp | hline
  · obtain ⟨help, -, rfl⟩ := List.mem_map.mp hhelp
    exact notMem_comment (notMem_escapeHelp help) _ (by decide)
  · rcases List.mem_cons.mp hline with rfl | hline
    · refine notMem_comment ?_ _ (by decide)
      cases metric.kind <;> decide
    · obtain ⟨sample, hsample, hline⟩ := List.mem_flatMap.mp hline
      exact hsamples sample (List.mem_mergeSort.mp hsample) line hline

/-- The lines of a metric are read as those of its samples. -/
theorem readLines_renderMetric {collate : String → String → Bool} {name : String}
    {metric : RegisteredMetric V} {series : Sample V → List Series}
    (hsamples : ∀ sample ∈ metric.samples.map Prod.snd, Exposition.readLines
      (if metric.kind = .histogram then renderHistogram (normalizeMetricName name) sample
        else [renderLine (normalizeMetricName name) sample.labels none
          (renderValue sample.value)]) = some (series sample)) :
    Exposition.readLines (renderMetric collate name metric) =
      some (((metric.samples.map Prod.snd).mergeSort fun a b =>
        collate (labelKey a.labels) (labelKey b.labels)).flatMap series) := by
  have hhelp : Exposition.readLines (metric.help.toList.map fun help => "# HELP ".toList ++
      normalizeMetricName name ++ ' ' :: escapeHelp help) = some [] := by
    cases metric.help <;> rfl
  refine Exposition.readLines_append hhelp ?_
  exact Exposition.readLines_flatMap fun sample hsample =>
    hsamples sample (List.mem_mergeSort.mp hsample)

/-- The samples of a metric that there is, as they are written. -/
theorem mem_held_of_sample (collate : String → String → Bool) {name : String}
    {metric : RegisteredMetric V} (hmetric : (run o history).lookup name = some metric)
    {sample : Sample V} (hsample : sample ∈ metric.samples.map Prod.snd) :
    (Due.mk name metric.kind sample.labels.sorted) ∈ held collate (run o history) := by
  have hname : (name, metric) ∈ run o history :=
    (Grouping.lookup_eq_some_iff (keeps_run o history).nodup).mp hmetric
  unfold held
  simp only [List.mem_flatMap, List.mem_insertionSort, List.mem_map, Option.mem_toList,
    List.mem_mergeSort]
  exact ⟨name, ⟨_, hname, rfl⟩, metric, hmetric, sample, List.mem_map.mp hsample, rfl⟩

theorem wellFormed_held {collate : String → String → Bool} (h : Named o history) {d : Due}
    (hd : d ∈ held collate (run o history)) (us : List (Update V)) :
    ∀ s ∈ d.series o us, s.WellFormed := by
  obtain ⟨hkind, hfirst⟩ := mem_held.mp hd
  have hdue : d ∈ due o history := IsFirst.mem_due hkind hfirst
  exact wellFormed_series hdue (h d hdue) us

/-- **The text is read** as the series of the samples that there are. -/
theorem read_scrape (collate : String → String → Bool) (h : Named o history) :
    Exposition.read (scrape collate (run o history)) =
      some ((held collate (run o history)).flatMap fun d =>
        d.series o (d.keyUpdates o history)) := by
  have hwell {name : String} {metric : RegisteredMetric V}
      (hmetric : (run o history).lookup name = some metric) {sample : Sample V}
      (hsample : sample ∈ metric.samples.map Prod.snd) :=
    wellFormed_held h (mem_held_of_sample collate hmetric hsample)
  have hnot : ∀ line ∈ scrapeLines collate (run o history), '\n' ∉ line := by
    intro line hline
    obtain ⟨name, -, hline⟩ := List.mem_flatMap.mp hline
    cases hmetric : (run o history).lookup name with
    | none =>
      rw [hmetric] at hline
      cases hline
    | some metric =>
      rw [hmetric] at hline
      refine notMem_renderMetric (fun sample hsample line hline => ?_) line hline
      rw [renderSample_held hmetric hsample] at hline
      obtain ⟨s, hs, rfl⟩ := List.mem_map.mp hline
      exact (hwell hmetric hsample _ s hs).notMem_writeLine
  have htext : scrape collate (run o history) =
      (scrapeLines collate (run o history)).flatMap (· ++ ['\n']) := by
    unfold scrape
    split
    · rename_i hnil
      rw [hnil]
      rfl
    · rename_i hne
      exact Lines.intercalate_terminated hne
  have hlines : Exposition.readLines (scrapeLines collate (run o history)) = some
      ((held collate (run o history)).flatMap fun d => d.series o (d.keyUpdates o history)) := by
    rw [scrapeLines, held, List.flatMap_assoc]
    refine Exposition.readLines_flatMap fun name _ => ?_
    cases hmetric : (run o history).lookup name with
    | none => rfl
    | some metric =>
      rw [Option.toList_some, List.flatMap_singleton, List.flatMap_map]
      refine readLines_renderMetric fun sample hsample => ?_
      rw [renderSample_held hmetric hsample]
      exact Exposition.readLines_map_writeLine (hwell hmetric hsample _)
  rw [htext, Exposition.read_terminated hnot, hlines]

/-! ### Faithfulness -/

theorem identity_series (d : Due) (o : Options V) (us : List (Update V)) :
    (d.series o us).map Series.identity = d.identities o := by
  unfold Due.series Due.identities
  split
  · have hzip : ((bucketLabels o.defaultBuckets).zip (taken o.defaultBuckets us)).map Prod.fst =
        bucketLabels o.defaultBuckets :=
      List.map_fst_zip (by simp [bucketLabels, taken])
    rw [List.map_append, List.map_map, ← hzip, List.map_map]
    simp only [hzip]
    rfl
  · rfl

theorem identities_expected (o : Options V) (history : List (Call V)) :
    (expected o history).map Series.identity = (due o history).flatMap fun d => d.identities o := by
  rw [expected, List.map_flatMap]
  simp only [identity_series]

theorem identities_ne_nil (d : Due) (o : Options V) : d.identities o ≠ [] := by
  unfold Due.identities
  split <;> simp

/-- A histogram has a bucket. -/
theorem exists_bucket {d : Due} (hkind : d.kind = .histogram) (o : Options V)
    (us : List (Update V)) :
    ∃ bound value, ⟨d.wire "_bucket", d.labels ++ [("le", bound)], value⟩ ∈ d.series o us := by
  have hlength : 0 < ((bucketLabels o.defaultBuckets).zip (taken o.defaultBuckets us)).length := by
    simp [bucketLabels, taken]
  obtain ⟨p, hp⟩ := List.exists_mem_of_length_pos hlength
  unfold Due.series
  rw [if_pos hkind]
  exact ⟨_, _, List.mem_append_left _ (List.mem_map_of_mem hp)⟩

/-- The labels of what is due are labels of a series, which may have one more. -/
theorem exists_series (d : Due) (o : Options V) (us : List (Update V)) :
    ∃ s ∈ d.series o us, d.labels ⊆ s.labels := by
  by_cases hkind : d.kind = .histogram
  · obtain ⟨bound, value, hmem⟩ := exists_bucket hkind o us
    exact ⟨_, hmem, List.subset_append_left _ _⟩
  · refine ⟨⟨d.wire "", d.labels, renderValue (total us)⟩, ?_, List.Subset.refl _⟩
    rw [Due.series, if_neg hkind]
    exact List.mem_singleton_self _

/-- Labels that can be read are named. -/
theorem named_of_legible {series : List Series} (hperm : series.Perm (expected o history))
    (h : ∀ s ∈ series, (∀ p ∈ s.labels, Exposition.isLabelName p.1.toList = true) ∧
      (s.labels.map Prod.fst).Nodup) : Named o history := by
  intro d hd
  have hseries : ∀ s ∈ d.series o (d.updates o history),
      (∀ p ∈ s.labels, Exposition.isLabelName p.1.toList = true) ∧
        (s.labels.map Prod.fst).Nodup :=
    fun s hs => h s (hperm.mem_iff.mpr (List.mem_flatMap.mpr ⟨d, hd, hs⟩))
  constructor
  · obtain ⟨s, hs, hlabels⟩ := exists_series d o (d.updates o history)
    exact fun p hp => (hseries s hs).1 p (hlabels hp)
  · intro hkind hle
    obtain ⟨bound, value, hmem⟩ := exists_bucket hkind o (d.updates o history)
    have hnodup := (hseries _ hmem).2
    rw [List.map_append, List.nodup_append'] at hnodup
    exact hnodup.2.2 hle (List.mem_singleton_self "le")

/-- Where label sets have different texts, each is the first of its text. -/
theorem isFirst_of_keyed {d : Due} (hd : d ∈ due o history)
    (hkeyed : ∀ name kind, kindOf history name = some kind →
      ∀ p ∈ updatesOf o history name kind, ∀ q ∈ updatesOf o history name kind,
        labelKey p.1 = labelKey q.1 → p.1.sorted = q.1.sorted) :
    d.IsFirst o history ∧ d.keyUpdates o history = d.updates o history := by
  obtain ⟨hkind, p, hp, hlabels⟩ := mem_due.mp hd
  have hiff : ∀ q ∈ updatesOf o history d.name d.kind,
      labelKey q.1 = keyText d.labels ↔ q.1.sorted = d.labels := by
    intro q hq
    constructor
    · intro hkey
      rw [← hlabels] at hkey ⊢
      exact hkeyed d.name d.kind hkind q hq p hp hkey
    · intro hq
      rw [labelKey, hq]
  constructor
  · cases hfind : (updatesOf o history d.name d.kind).find? fun q =>
        decide (labelKey q.1 = keyText d.labels) with
    | none =>
      exact absurd (decide_eq_true ((hiff p hp).mpr hlabels))
        (List.find?_eq_none.mp hfind p hp)
    | some first =>
      have hfirst := List.find?_some hfind
      have hmem := List.mem_of_find?_eq_some hfind
      rw [Due.IsFirst, hfind, Option.map_some, (hiff first hmem).mp (of_decide_eq_true hfirst)]
  · rw [Due.keyUpdates, Due.updates]
    refine congrArg _ (List.filter_congr fun q hq => ?_)
    exact decide_eq_decide.mpr (hiff q hq)

/-- What is told apart is told by one of its identities. -/
theorem eq_of_told (h : ((due o history).flatMap fun d => d.identities o).Nodup) {d d' : Due}
    (hd : d ∈ due o history) (hd' : d' ∈ due o history)
    {i : String × Finset (String × String)} (hi : i ∈ d.identities o) (hi' : i ∈ d'.identities o) :
    d = d' := by
  by_contra hne
  have : Std.Symm (Function.onFun List.Disjoint fun d : Due => d.identities o) :=
    ⟨fun _ _ hdisjoint => hdisjoint.symm⟩
  exact (List.nodup_flatMap.mp h).2.forall hd hd' hne hi hi'

/-- Two label sets of one text leave one of them without a series. -/
theorem keyed_of_perm (htold : ((due o history).flatMap fun d => d.identities o).Nodup)
    {collate : String → String → Bool}
    (hperm : ((held collate (run o history)).flatMap fun d =>
      d.series o (d.keyUpdates o history)).Perm (expected o history))
    {name : String} {kind : MetricKind} (hkind : kindOf history name = some kind)
    {p q : Labels × Update V} (hp : p ∈ updatesOf o history name kind)
    (hq : q ∈ updatesOf o history name kind) (hkey : labelKey p.1 = labelKey q.1) :
    p.1.sorted = q.1.sorted := by
  have hfirst : ∀ r ∈ updatesOf o history name kind,
      (Due.mk name kind r.1.sorted).IsFirst o history := by
    intro r hr
    have hdue : Due.mk name kind r.1.sorted ∈ due o history := mem_due.mpr ⟨hkind, r, hr, rfl⟩
    obtain ⟨i, hi⟩ :=
      List.exists_mem_of_ne_nil _ (identities_ne_nil (Due.mk name kind r.1.sorted) o)
    have hexpected : i ∈ (expected o history).map Series.identity := by
      rw [identities_expected]
      exact List.mem_flatMap.mpr ⟨_, hdue, hi⟩
    rw [← (hperm.map Series.identity).mem_iff, List.map_flatMap] at hexpected
    obtain ⟨d, hd, hmem⟩ := List.mem_flatMap.mp hexpected
    rw [identity_series] at hmem
    obtain ⟨hdkind, hdfirst⟩ := mem_held.mp hd
    rw [eq_of_told htold hdue (IsFirst.mem_due hdkind hdfirst) hi hmem]
    exact hdfirst
  obtain ⟨first, hfindp, hlabelsp⟩ := Option.map_eq_some_iff.mp (hfirst p hp)
  obtain ⟨second, hfindq, hlabelsq⟩ := Option.map_eq_some_iff.mp (hfirst q hq)
  dsimp only at hfindp hfindq hlabelsp hlabelsq
  have htext : keyText p.1.sorted = keyText q.1.sorted := hkey
  rw [htext, hfindq] at hfindp
  rw [← hlabelsp, ← hlabelsq, Option.some.inj hfindp]

theorem apart_of_faithful {collate : String → String → Bool}
    (h : Faithful collate o history) : Apart o history := by
  obtain ⟨series, hread, hperm, hnodup⟩ := h
  have hnamed := named_of_legible hperm (Exposition.labels_of_readLines hread)
  have htold : ((due o history).flatMap fun d => d.identities o).Nodup := by
    rw [← identities_expected]
    exact (hperm.map Series.identity).nodup_iff.mp hnodup
  rw [read_scrape collate hnamed] at hread
  obtain rfl := Option.some.inj hread
  exact ⟨hnamed, fun name kind hkind p hp q hq hkey =>
    keyed_of_perm htold hperm hkind hp hq hkey, htold⟩

theorem faithful_of_apart (collate : String → String → Bool) (h : Apart o history) :
    Faithful collate o history := by
  obtain ⟨hnamed, hkeyed, htold⟩ := h
  have hheld : (held collate (run o history)).Perm (due o history) := by
    refine (List.perm_ext_iff_of_nodup (held_nodup _ _ _) (due_nodup _ _)).mpr fun d => ?_
    constructor
    · intro hd
      obtain ⟨hkind, hfirst⟩ := mem_held.mp hd
      exact IsFirst.mem_due hkind hfirst
    · intro hd
      exact mem_held.mpr ⟨(mem_due.mp hd).1, (isFirst_of_keyed hd hkeyed).1⟩
  have hperm : ((held collate (run o history)).flatMap fun d =>
      d.series o (d.keyUpdates o history)).Perm (expected o history) := by
    refine (hheld.flatMap_right _).trans (List.Perm.of_eq ?_)
    refine List.flatMap_congr fun d hd => ?_
    rw [(isFirst_of_keyed hd hkeyed).2]
  refine ⟨_, read_scrape collate hnamed, hperm, ?_⟩
  rw [(hperm.map Series.identity).nodup_iff, identities_expected]
  exact htold

/-- **When the exposition is faithful.** -/
theorem faithful_iff (collate : String → String → Bool) (o : Options V)
    (history : List (Call V)) : Faithful collate o history ↔ Apart o history :=
  ⟨apart_of_faithful, faithful_of_apart collate⟩

end

/-! ### Two label sets of one text -/

theorem notMem_toString_int (n : Int) : '\n' ∉ (toString n).toList := by
  cases n with
  | ofNat n => exact notMem_toString rfl n
  | negSucc n =>
    have htext : toString (Int.negSucc n) = "-" ++ toString (n + 1) := rfl
    rw [htext, String.toList_append, List.mem_append]
    rintro (hsign | hdigits)
    · exact absurd hsign (by decide)
    · exact notMem_toString rfl (n + 1) hdigits

/-- Whole numbers. -/
instance : HostNumber Int where
  zero := 0
  one := 1
  add := (· + ·)
  sub := (· - ·)
  le a b := decide (a ≤ b)
  lt a b := decide (a < b)
  isFinite _ := true
  isNaN _ := false
  text := toString
  text_line := notMem_toString_int

def bare : Options Int := ⟨[1, 2, 4], Labels.empty⟩

theorem sameKind_requests (labels : Labels) :
    ∀ p ∈ some (some labels, Update.counterInc (none : Option Int)), p.2.kind = .counter := by
  intro p hp
  cases hp
  rfl

/-- A counter is raised by one. -/
def raised (labels : Labels) : Call Int :=
  ⟨"requests", .counter, none, some (some labels, .counterInc none), sameKind_requests labels⟩

/-- The label `a`, whose value looks like two labels. -/
def oneLabel : Labels := ⟨[("a", "1,b=2")], List.nodup_singleton _⟩

theorem nodup_twoNames : ([("a", "1"), ("b", "2")].map Prod.fst).Nodup := by decide

def twoLabels : Labels := ⟨[("a", "1"), ("b", "2")], nodup_twoNames⟩

theorem updatesOf_raised : updatesOf bare [raised oneLabel, raised twoLabels] "requests" .counter =
    [(oneLabel, .counterInc none), (twoLabels, .counterInc none)] := by
  unfold updatesOf
  rw [List.filterMap_cons, List.filterMap_cons, List.filterMap_nil, if_pos ⟨rfl, rfl⟩,
    if_pos ⟨rfl, rfl⟩]
  rfl

/-- Both are counted in one series. -/
theorem labels_run_together : ¬ ∀ (collate : String → String → Bool) (o : Options Int)
    (history : List (Call Int)), Faithful collate o history := by
  intro h
  have hapart := apart_of_faithful (h (fun _ _ => true) bare [raised oneLabel, raised twoLabels])
  have hkeyed := hapart.keyed "requests" .counter rfl
  rw [updatesOf_raised] at hkeyed
  have hsame := hkeyed _ List.mem_cons_self _ (List.mem_cons_of_mem _ List.mem_cons_self)
    (by decide)
  exact absurd hsame (by decide)

end Declaragent.Observability.Prometheus

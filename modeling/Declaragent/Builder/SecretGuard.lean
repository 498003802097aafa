import Declaragent.Library.MatchSymbols
import Declaragent.Library.RegExp
import Mathlib.Data.List.FinRange
import Mathlib.Data.List.Induction

/-!
# Builder — the secret guard

Before a message goes anywhere, each match of one of seven patterns is replaced by a placeholder,
one pattern after the other, each in what the patterns before it have left.

A placeholder is fenced by characters that no pattern accepts, so that it neither hides a secret nor
makes one, and the text is redacted as if its matches were single symbols.  The index of a finding
is that in the rewritten text.

* `redactUpTo_inv`: what holds after each pattern.
* `redacts_iff`: when each finding has the index of its match in the input.
-/

namespace Declaragent.Builder
open WordPattern
open RegExp (CodeUnit unit)

/-! ### The patterns -/

def isDigit (c : CodeUnit) : Bool := unit '0' ≤ c && c ≤ unit '9'

def isUpper (c : CodeUnit) : Bool := unit 'A' ≤ c && c ≤ unit 'Z'

def isLower (c : CodeUnit) : Bool := unit 'a' ≤ c && c ≤ unit 'z'

def isAlnum (c : CodeUnit) : Bool := isUpper c || isLower c || isDigit c

/-- `\w`. -/
def isWordUnit (c : CodeUnit) : Bool := isAlnum c || c == unit '_'

/-- `[A-Za-z0-9_-]`. -/
def isWordOrHyphen (c : CodeUnit) : Bool := isWordUnit c || c == unit '-'

def literal (text : String) : List (Item CodeUnit) := text.toList.map fun c => .one (· == unit c)

/-- The expression between `\b` and `\b`, its alternatives written out. -/
structure SecretPattern where
  re : List (List (Item CodeUnit))
  label : String

def SECRET_PATTERNS : List SecretPattern :=
  [⟨["live", "proj", "ant"].map fun name =>
      literal "sk-" ++ literal name ++ literal "-" ++ [.many 20 isWordOrHyphen], "likely API key"⟩,
    ⟨[literal "ghp_" ++ [.many 30 isAlnum]], "GitHub PAT"⟩,
    ⟨[literal "gho_" ++ [.many 30 isAlnum]], "GitHub OAuth token"⟩,
    ⟨[literal "npm_" ++ [.many 30 isAlnum]], "npm token"⟩,
    ⟨[literal "xox" ++ [.one fun c => "bpoasr".toList.any (c == unit ·)] ++ literal "-" ++
      [.many 20 fun c => isAlnum c || c == unit '-']], "Slack token"⟩,
    ⟨[literal "AKIA" ++ List.replicate 16 (.one fun c => isUpper c || isDigit c)],
      "AWS access key id"⟩,
    ⟨[literal "ey" ++ [.many 20 isWordOrHyphen] ++ literal "." ++ [.many 20 isWordOrHyphen] ++
      literal "." ++ [.many 20 isWordOrHyphen]], "JWT"⟩]

/-! ### Redaction -/

structure SecretFinding where
  label : String
  index : Nat
  deriving DecidableEq

structure RedactResult where
  redacted : List CodeUnit
  findings : List SecretFinding

def placeholder (label : String) : List CodeUnit :=
  unit '<' :: ("redacted:" ++ label).toList.map unit ++ [unit '>']

/-- The replacement of one pattern. -/
def redactPattern (result : RedactResult) (pattern : SecretPattern) : RedactResult :=
  let found := events isWordUnit pattern.re 0 false result.redacted
  ⟨replaced (placeholder pattern.label) found,
    result.findings ++ (offsets 0 found).map (⟨pattern.label, ·⟩)⟩

def redactSecrets (text : List CodeUnit) : RedactResult :=
  SECRET_PATTERNS.foldl redactPattern ⟨text, []⟩

/-- The label of the first pattern that matches. -/
def detectSecret (text : List CodeUnit) : Option String :=
  (SECRET_PATTERNS.find? fun pattern => test isWordUnit pattern.re false text).map (·.label)

/-! ### The secrets of a text -/

abbrev PatternId := Fin SECRET_PATTERNS.length

def pattern (k : PatternId) : SecretPattern := SECRET_PATTERNS.get k

def shownFor (k : PatternId) : List CodeUnit := placeholder (pattern k).label

/-- The matches of some patterns made symbols, one pattern after the other. -/
def markUpTo (ks : List PatternId) (text : List CodeUnit) : List (WordPattern.Symbol CodeUnit PatternId) :=
  ks.foldl (fun ss k => pass isWordUnit (pattern k).re k false ss) (text.map .plain)

/-- The text with each match made one symbol. -/
def secretsOf (text : List CodeUnit) : List (WordPattern.Symbol CodeUnit PatternId) :=
  markUpTo (List.finRange SECRET_PATTERNS.length) text

/-- The findings, each with the position of its match in the input. -/
def positions (ss : List (WordPattern.Symbol CodeUnit PatternId)) : List SecretFinding :=
  (List.finRange SECRET_PATTERNS.length).flatMap fun k =>
    (places (fun x => x.source.length) k 0 ss).map (⟨(pattern k).label, ·⟩)

/-- No secret is left, what is not a match is as it was, and each finding has the position of its
match in the input. -/
structure Redacts (text : List CodeUnit) : Prop where
  clean : detectSecret (redactSecrets text).redacted = none
  input : sourceOf (secretsOf text) = text
  matched : Located isWordUnit (fun k => (pattern k).re) false (secretsOf text)
  output : (redactSecrets text).redacted = (secretsOf text).flatMap (WordPattern.Symbol.shown shownFor)
  findings : (redactSecrets text).findings = positions (secretsOf text)

/-- The matches of earlier patterns, with what they stand for. -/
def earlier (k : PatternId) (ss : List (WordPattern.Symbol CodeUnit PatternId)) :
    List (PatternId × List CodeUnit) :=
  ss.filterMap fun
    | .plain _ => none
    | .mark j source => if j < k then some (j, source) else none

/-- Ahead of each match, the matches of earlier patterns are as long as their placeholders, taken
together. -/
def Unshifted (ss : List (WordPattern.Symbol CodeUnit PatternId)) : Prop :=
  ∀ before k source after, ss = before ++ .mark k source :: after →
    ((earlier k before).map fun secret => (shownFor secret.1).length).sum =
      ((earlier k before).map fun secret => secret.2.length).sum

/-! ### The patterns and the placeholders -/

theorem begins_literal {c : Char} {text : String} {cs : List Char} (eq : text.toList = c :: cs)
    (word : isWordUnit (unit c) = true) (rest : List (Item CodeUnit)) :
    ∃ accepts items, literal text ++ rest = .one accepts :: items ∧
      ∀ c, accepts c = true → isWordUnit c = true := by
  rw [literal, eq]
  refine ⟨_, _, rfl, fun d accepted => ?_⟩
  rwa [beq_iff_eq.mp accepted]

theorem begins_single {c : Char} {text : String} {cs : List Char} (eq : text.toList = c :: cs)
    (word : isWordUnit (unit c) = true) (rest : List (Item CodeUnit)) :
    Begins isWordUnit [literal text ++ rest] := by
  intro items mem
  rw [List.mem_singleton.mp mem]
  exact begins_literal eq word rest

theorem begins_of_mem : ∀ p ∈ SECRET_PATTERNS, Begins isWordUnit p.re := by
  simp only [SECRET_PATTERNS, List.forall_mem_cons, List.append_assoc]
  refine ⟨?_, ?_, ?_, ?_, ?_, ?_, ?_, by simp⟩
  · intro items mem
    obtain ⟨name, -, rfl⟩ := List.mem_map.mp mem
    exact begins_literal (c := 's') rfl (by decide) _
  · exact begins_single (c := 'g') rfl (by decide) _
  · exact begins_single (c := 'g') rfl (by decide) _
  · exact begins_single (c := 'n') rfl (by decide) _
  · exact begins_single (c := 'x') rfl (by decide) _
  · exact begins_single (c := 'A') rfl (by decide) _
  · exact begins_single (c := 'e') rfl (by decide) _

theorem begins_pattern (k : PatternId) : Begins isWordUnit (pattern k).re :=
  begins_of_mem _ (List.get_mem ..)

theorem inert_placeholder (j k : PatternId) :
    Inert isWordUnit (pattern j).re (shownFor k) := by
  refine inert_of_test (begins_pattern j) ?_ ?_ ?_
  · exact ⟨by decide, by revert j; decide⟩
  · exact ⟨by decide, by revert j; decide⟩
  · revert j k; decide

/-! ### One pattern after the other -/

def redactUpTo (ks : List PatternId) (text : List CodeUnit) : RedactResult :=
  (ks.map pattern).foldl redactPattern ⟨text, []⟩

/-- How wide a symbol is when a pattern is looked for. -/
def widthAt (k : PatternId) : WordPattern.Symbol CodeUnit PatternId → Nat
  | .plain _ => 1
  | .mark j source => if j < k then (shownFor j).length else source.length

def findingsOf (k : PatternId) (indices : List Nat) : List SecretFinding :=
  indices.map (⟨(pattern k).label, ·⟩)

/-- What holds after some patterns. -/
structure RedactInv (ks : List PatternId) (text : List CodeUnit)
    (ss : List (WordPattern.Symbol CodeUnit PatternId)) (result : RedactResult) : Prop where
  redacted : result.redacted = ss.flatMap (WordPattern.Symbol.shown shownFor)
  findings : result.findings = ks.flatMap fun k => findingsOf k (places (widthAt k) k 0 ss)
  marks : ∀ j source, .mark j source ∈ ss → j ∈ ks
  clean : ∀ k ∈ ks, test (WordPattern.Symbol.lift isWordUnit) (liftAll (pattern k).re) false ss = false
  source : sourceOf ss = text
  located : Located isWordUnit (fun k => (pattern k).re) false ss

variable {ks : List PatternId} {text : List CodeUnit} {ss : List (WordPattern.Symbol CodeUnit PatternId)}
  {result : RedactResult}

/-- What one pattern does. -/
theorem RedactInv.redactPattern {j : PatternId} (h : RedactInv ks text ss result)
    (last : ∀ k ∈ ks, k < j) :
    RedactInv (ks ++ [j]) text (pass isWordUnit (pattern j).re j false ss)
      (redactPattern result (pattern j)) := by
  have passed := passed_pass (begins_pattern j) j false ss
  have found : events isWordUnit (pattern j).re 0 false result.redacted =
      (events (WordPattern.Symbol.lift isWordUnit) (liftAll (pattern j).re) 0 false ss).flatMap
        (Event.shown shownFor) := by
    rw [h.redacted]
    exact events_shown (begins_pattern j) (inert_placeholder j) false ss
  refine ⟨?_, ?_, ?_, ?_, ?_, ?_⟩
  · show replaced (shownFor j) (events isWordUnit (pattern j).re 0 false result.redacted) = _
    rw [found, replaced_shown]
    rfl
  · have new : offsets 0 (events isWordUnit (pattern j).re 0 false result.redacted) =
        places (widthAt j) j 0 (pass isWordUnit (pattern j).re j false ss) := by
      rw [found]
      refine offsets_shown (fun _ => rfl) (fun u => if_neg (lt_irrefl j)) (fun l u mem => ?_) 0
      have before := last l (h.marks l u (mem_of_keep mem))
      exact ⟨ne_of_lt before, if_pos before⟩
    have old (k : PatternId) (mem : k ∈ ks) :
        places (widthAt k) k 0 (pass isWordUnit (pattern j).re j false ss) =
          places (widthAt k) k 0 ss :=
      places_passed passed (ne_of_gt (last k mem)) (fun _ => rfl)
        (fun u => if_neg (lt_asymm (last k mem))) 0
    show result.findings ++ findingsOf j (offsets 0 _) = _
    rw [new, h.findings, List.flatMap_append, List.flatMap_singleton]
    congr 1
    exact List.flatMap_congr fun k mem => by rw [old k mem]
  · intro k source mem
    rw [List.mem_append, List.mem_singleton]
    exact (mark_of_passed passed mem).imp_left (h.marks k source)
  · intro k mem
    rcases List.mem_append.mp mem with mem | mem
    · exact test_passed (begins_pattern j) (begins_pattern k) passed (h.clean k mem)
    · obtain rfl := List.mem_singleton.mp mem
      exact test_passed_self (begins_pattern k) passed
  · rw [sourceOf_passed passed, h.source]
  · exact located_passed (begins_pattern j) passed (.inl rfl) h.located

theorem redactUpTo_inv (text : List CodeUnit) (ks : List PatternId) (sorted : ks.Pairwise (· < ·)) :
    RedactInv ks text (markUpTo ks text) (redactUpTo ks text) := by
  induction ks using List.reverseRecOn with
  | nil =>
    refine ⟨(shown_plain text).symm, rfl, ?_, ?_, sourceOf_plain text, located_text text⟩
    · intro j source mem
      obtain ⟨c, -, eq⟩ := List.mem_map.mp mem
      cases eq
    · intro k mem
      cases mem
  | append_singleton ks j ih =>
    obtain ⟨sorted, -, last⟩ := List.pairwise_append.mp sorted
    rw [markUpTo, redactUpTo, List.foldl_append, List.map_append, List.foldl_append]
    exact (ih sorted).redactPattern fun k mem => last k mem j (List.mem_singleton_self j)

theorem redactSecrets_inv (text : List CodeUnit) :
    RedactInv (List.finRange SECRET_PATTERNS.length) text (secretsOf text)
      (redactSecrets text) := by
  have all : (List.finRange SECRET_PATTERNS.length).map pattern = SECRET_PATTERNS :=
    List.ofFn_eq_map.symm.trans (List.ofFn_get _)
  have := redactUpTo_inv text _ (List.pairwise_lt_finRange SECRET_PATTERNS.length)
  rwa [redactUpTo, all] at this

/-! ### The claim about a text -/

/-- No secret is left. -/
theorem detectSecret_redacted (text : List CodeUnit) :
    detectSecret (redactSecrets text).redacted = none := by
  have inv := redactSecrets_inv text
  rw [detectSecret, Option.map_eq_none_iff, List.find?_eq_none]
  intro p mem
  obtain ⟨k, rfl⟩ := List.mem_iff_get.mp mem
  have shown := test_shown false (secretsOf text) (begins_pattern k) (inert_placeholder k)
  rw [← inv.redacted, inv.clean k (List.mem_finRange k)] at shown
  rw [← pattern, shown]
  decide

/-- **A text is left alone exactly if no secret is detected in it**, so a second redaction finds
nothing. -/
theorem redactSecrets_eq_iff (text : List CodeUnit) :
    (redactSecrets text = ⟨text, []⟩ ↔ detectSecret text = none) ∧
      redactSecrets (redactSecrets text).redacted = ⟨(redactSecrets text).redacted, []⟩ := by
  have hclean (s : List CodeUnit) (h : detectSecret s = none) : redactSecrets s = ⟨s, []⟩ := by
    rw [detectSecret, Option.map_eq_none_iff, List.find?_eq_none] at h
    unfold redactSecrets
    generalize SECRET_PATTERNS = patterns at h ⊢
    have hnone : offsets 0 (s.map .keep) = [] := by simpa [offsets] using offsets_keep 0 s []
    induction patterns with
    | nil => rfl
    | cons p ps ih =>
      have hkept := events_of_test (Bool.eq_false_iff.mpr (h p List.mem_cons_self))
      have hone : redactPattern ⟨s, []⟩ p = ⟨s, []⟩ := by
        rw [redactPattern, hkept, replaced_keep, hnone]
        rfl
      rw [List.foldl_cons, hone]
      exact ih fun q hq => h q (List.mem_cons_of_mem p hq)
  refine ⟨⟨fun h => ?_, hclean text⟩, hclean _ (detectSecret_redacted text)⟩
  have hnone := detectSecret_redacted text
  rwa [h] at hnone

theorem earlier_mark (k j : PatternId) (source : List CodeUnit)
    (ss : List (WordPattern.Symbol CodeUnit PatternId)) :
    earlier k (.mark j source :: ss) =
      if j < k then (j, source) :: earlier k ss else earlier k ss := by
  by_cases before : j < k <;> simp [earlier, before]

/-- What a pattern finds later is as wide as it is in the input, but for what was found before. -/
theorem sum_widthAt (k : PatternId) (ss : List (WordPattern.Symbol CodeUnit PatternId)) :
    (ss.map (widthAt k)).sum + ((earlier k ss).map fun secret => secret.2.length).sum =
      (ss.map fun x => x.source.length).sum +
        ((earlier k ss).map fun secret => (shownFor secret.1).length).sum := by
  induction ss with
  | nil => rfl
  | cons x ss ih =>
    rw [List.map_cons, List.sum_cons, List.map_cons, List.sum_cons]
    cases x with
    | plain c =>
      have same : earlier k (.plain c :: ss) = earlier k ss := rfl
      rw [same, widthAt, WordPattern.Symbol.source, List.length_singleton]
      omega
    | mark j source =>
      rw [earlier_mark, widthAt, WordPattern.Symbol.source]
      by_cases before : j < k
      · rw [if_pos before, if_pos before, List.map_cons, List.sum_cons, List.map_cons,
          List.sum_cons]
        dsimp only
        omega
      · rw [if_neg before, if_neg before]
        omega

theorem flatMap_eq_iff {β γ : Type} {l : List β} {f g : β → List γ}
    (length : ∀ x ∈ l, (f x).length = (g x).length) :
    l.flatMap f = l.flatMap g ↔ ∀ x ∈ l, f x = g x := by
  induction l with
  | nil => simp
  | cons x l ih =>
    rw [List.forall_mem_cons] at length ⊢
    rw [List.flatMap_cons, List.flatMap_cons, ← ih length.2]
    exact ⟨fun h => List.append_inj h length.1, fun h => by rw [h.1, h.2]⟩

theorem findingsOf_injective (k : PatternId) : Function.Injective (findingsOf k) :=
  List.map_injective_iff.mpr fun _ _ h => (SecretFinding.mk.inj h).2

/-- Every text is redacted, and the findings have the positions of the matches in the input if and
only if, ahead of each match, the matches of earlier patterns are as long as their placeholders. -/
theorem redacts_iff (text : List CodeUnit) : Redacts text ↔ Unshifted (secretsOf text) := by
  have inv := redactSecrets_inv text
  have findings : (redactSecrets text).findings = positions (secretsOf text) ↔
      ∀ k ∈ List.finRange SECRET_PATTERNS.length,
        findingsOf k (places (widthAt k) k 0 (secretsOf text)) =
          findingsOf k (places (fun x => x.source.length) k 0 (secretsOf text)) := by
    rw [inv.findings]
    refine flatMap_eq_iff fun k _ => ?_
    rw [findingsOf, List.length_map, List.length_map]
    exact places_length ..
  have widths (k : PatternId) :
      findingsOf k (places (widthAt k) k 0 (secretsOf text)) =
          findingsOf k (places (fun x => x.source.length) k 0 (secretsOf text)) ↔
        ∀ before source after, secretsOf text = before ++ .mark k source :: after →
          (before.map (widthAt k)).sum = (before.map fun x => x.source.length).sum := by
    rw [(findingsOf_injective k).eq_iff, places_eq_iff]
    simp only [Nat.zero_add]
  have unshifted : (redactSecrets text).findings = positions (secretsOf text) ↔
      Unshifted (secretsOf text) := by
    rw [findings]
    constructor
    · intro h before k source after eq
      have wide := (widths k).mp (h k (List.mem_finRange k)) before source after eq
      have := sum_widthAt k before
      omega
    · intro h k _
      refine (widths k).mpr fun before source after eq => ?_
      have lengths := h before k source after eq
      have := sum_widthAt k before
      omega
  rw [← unshifted]
  exact ⟨Redacts.findings, fun h =>
    ⟨detectSecret_redacted text, inv.source, inv.located, inv.redacted, h⟩⟩

/-- A GitHub token, a space and an AWS key. -/
def twoSecrets : List CodeUnit :=
  "ghp_".toList.map unit ++ List.replicate 30 (unit 'a') ++ [unit ' '] ++
    "AKIA".toList.map unit ++ List.replicate 16 (unit 'A')

/-- The second secret begins at 35, and its finding has its offset behind the placeholder. -/
theorem index_shifted :
    (redactSecrets twoSecrets).findings = [⟨"GitHub PAT", 0⟩, ⟨"AWS access key id", 22⟩] ∧
      positions (secretsOf twoSecrets) = [⟨"GitHub PAT", 0⟩, ⟨"AWS access key id", 35⟩] ∧
      ¬ Redacts twoSecrets := by
  have found : (redactSecrets twoSecrets).findings =
      [⟨"GitHub PAT", 0⟩, ⟨"AWS access key id", 22⟩] := by decide
  have placed : positions (secretsOf twoSecrets) =
      [⟨"GitHub PAT", 0⟩, ⟨"AWS access key id", 35⟩] := by decide
  refine ⟨found, placed, fun h => ?_⟩
  have same := h.findings
  rw [found, placed] at same
  exact absurd same (by decide)

end Declaragent.Builder

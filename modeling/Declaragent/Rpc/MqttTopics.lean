import Declaragent.Library.Lines

/-!
# Rpc — the topics of the MQTT transport

Filters and topics are compared level by level.  `+` stands for one level, and `#` at the end for
any number of them; a filter that begins with one of the two is not meant for topics that begin with
`$`, which the transport does not look at.

* `Levels` is the matching of the specification, level by level; `Matches` is all of it.
* `matchLevels_iff`: the loop decides it.
* `matchTopic_right_iff`: when a filter and a topic match as the specification says.
-/

namespace Declaragent.Rpc.Mqtt

/-! ### The transport -/

def levels (topic : String) : List (List Char) := topic.toList.splitOn '/'

/-- The loop over the levels of the pattern. -/
def matchLevels : List (List Char) → List (List Char) → Bool
  | [], tp => tp.isEmpty
  | p :: pp, tp =>
    if p = ['#'] then pp.isEmpty
    else match tp with
      | [] => false
      | t :: tp => if p = ['+'] then matchLevels pp tp else p = t && matchLevels pp tp

def matchTopic (pattern topic : String) : Bool :=
  pattern = topic || matchLevels (levels pattern) (levels topic)

/-! ### The specification -/

/-- What a message may be published to. -/
structure TopicName where
  text : String
  noWildcard : '+' ∉ text.toList ∧ '#' ∉ text.toList

inductive Levels : List (List Char) → List (List Char) → Prop where
  | nil : Levels [] []
  | level {l : List Char} {fs ts : List (List Char)} (plus : l ≠ ['+']) (hash : l ≠ ['#'])
      (h : Levels fs ts) : Levels (l :: fs) (l :: ts)
  | plus {t : List Char} {fs ts : List (List Char)} (h : Levels fs ts) :
      Levels (['+'] :: fs) (t :: ts)
  | hash (ts : List (List Char)) : Levels [['#']] ts

/-- A filter that begins with a wildcard, and a topic that begins with `$`. -/
def Reserved (filter topic : String) : Prop :=
  (filter.toList.head? = some '+' ∨ filter.toList.head? = some '#') ∧
    topic.toList.head? = some '$'

def Matches (filter topic : String) : Prop :=
  Levels (levels filter) (levels topic) ∧ ¬Reserved filter topic

/-! ### The loop -/

theorem matchLevels_iff (pp tp : List (List Char)) : matchLevels pp tp = true ↔ Levels pp tp := by
  induction pp generalizing tp with
  | nil =>
    unfold matchLevels
    rw [List.isEmpty_iff]
    constructor
    · rintro rfl
      exact .nil
    · rintro ⟨⟩
      rfl
  | cons p pp ih =>
    unfold matchLevels
    by_cases hash : p = ['#']
    · rw [if_pos hash, List.isEmpty_iff]
      constructor
      · rintro rfl
        rw [hash]
        exact .hash tp
      · intro h
        cases h with
        | level _ notHash => exact absurd hash notHash
        | plus => cases hash
        | hash => rfl
    · rw [if_neg hash]
      cases tp with
      | nil =>
        refine iff_of_false Bool.false_ne_true fun h => ?_
        cases h
        exact hash rfl
      | cons t tp =>
        dsimp only
        by_cases plus : p = ['+']
        · rw [if_pos plus, ih, plus]
          constructor
          · exact .plus
          · intro h
            cases h with
            | level notPlus => exact absurd rfl notPlus
            | plus h => exact h
        · rw [if_neg plus, Bool.and_eq_true, decide_eq_true_eq, ih]
          constructor
          · rintro ⟨rfl, h⟩
            exact .level plus hash h
          · intro h
            cases h with
            | level _ _ h => exact ⟨rfl, h⟩
            | plus => exact absurd rfl plus
            | hash => exact absurd rfl hash

/-- Without a wildcard, a filter is the topic it matches. -/
theorem levels_refl {ts : List (List Char)} (plain : ∀ t ∈ ts, t ≠ ['+'] ∧ t ≠ ['#']) :
    Levels ts ts := by
  induction ts with
  | nil => exact .nil
  | cons t ts ih =>
    rw [List.forall_mem_cons] at plain
    exact .level plain.1.1 plain.1.2 (ih plain.2)

theorem TopicName.plain (topic : TopicName) :
    ∀ t ∈ levels topic.text, t ≠ ['+'] ∧ t ≠ ['#'] := by
  have mem (c : Char) (absent : c ∉ topic.text.toList) : [c] ∉ levels topic.text := fun level =>
    absent (Lines.mem_of_mem_splitOn level (List.mem_singleton_self c))
  intro t h
  exact ⟨fun eq => mem _ topic.noWildcard.1 (eq ▸ h), fun eq => mem _ topic.noWildcard.2 (eq ▸ h)⟩

theorem matchTopic_iff (filter : String) (topic : TopicName) :
    matchTopic filter topic.text = true ↔ Levels (levels filter) (levels topic.text) := by
  rw [matchTopic, Bool.or_eq_true, decide_eq_true_eq, matchLevels_iff]
  constructor
  · rintro (rfl | h)
    · exact levels_refl topic.plain
    · exact h
  · exact .inr

/-- **The claim about a filter and a topic.**  They match as the specification says, unless level by
level they match and the filter is not meant for the topic. -/
theorem matchTopic_right_iff (filter : String) (topic : TopicName) :
    (matchTopic filter topic.text = true ↔ Matches filter topic.text) ↔
      ¬(Reserved filter topic.text ∧ Levels (levels filter) (levels topic.text)) := by
  rw [matchTopic_iff, Matches]
  tauto

/-- `#` matches the topics of the broker itself. -/
theorem hash_matches_sys :
    ¬(matchTopic "#" "$SYS/broker/uptime" = true ↔ Matches "#" "$SYS/broker/uptime") := by
  rintro ⟨sound, -⟩
  exact (sound (by decide)).2 ⟨.inr (by decide), by decide⟩

end Declaragent.Rpc.Mqtt

import Declaragent.Library.Json
import Mathlib.Data.List.Chain

/-!
# Engine — messages

The messages of a transcript, and what it is for a transcript to be well formed: each `tool_use`
block of an assistant message is answered by exactly one `tool_result` of its id in the user
message right after it, and no `tool_result` stands anywhere else (`Paired`).

`Linked` is the part of this that no later message repairs; `Paired` adds that the last message
leaves nothing open.
-/

namespace Declaragent.Engine
open JsonText

inductive Role where
  | user | assistant | system | tool
  deriving DecidableEq

inductive StopReason where
  | endTurn | toolUse | maxTokens | stopSequence | error
  deriving DecidableEq

inductive MessageContent where
  | text (text : String)
  | toolUse (id name : String) (input : Json)
  | toolResult (toolUseId content : String) (isError : Option Bool)

structure TokenUsage where
  inputTokens : Nat
  outputTokens : Nat
  cacheReadTokens : Option Nat := none

structure MessageMeta where
  model : Option String := none
  stopReason : Option StopReason := none
  usage : Option TokenUsage := none

/-- A message; `info` is its `meta`. -/
structure Message where
  role : Role
  content : List MessageContent
  info : Option MessageMeta := none

/-- A user message of one text. -/
def userText (text : String) : Message := { role := .user, content := [.text text] }

/-! ### Calls and their answers -/

def MessageContent.toolUseId? : MessageContent → Option String
  | .toolUse id _ _ => some id
  | _ => none

def MessageContent.toolResultId? : MessageContent → Option String
  | .toolResult id _ _ => some id
  | _ => none

/-- The ids of the `tool_use` blocks, in order. -/
def useIds (content : List MessageContent) : List String :=
  content.filterMap MessageContent.toolUseId?

/-- The ids of the `tool_result` blocks, in order. -/
def resultIds (content : List MessageContent) : List String :=
  content.filterMap MessageContent.toolResultId?

/-- The calls an assistant message opens. -/
def Message.calls (m : Message) : List String :=
  if m.role = .assistant then useIds m.content else []

def Message.answers (m : Message) : List String := resultIds m.content

def callsOf (m : Option Message) : List String := (m.map Message.calls).getD []

def answersOf (m : Option Message) : List String := (m.map Message.answers).getD []

/-- `next`, if there is one, comes right after `prev`, if there is one: a user message answers
each call once, and answers nothing else. -/
structure Meets (prev next : Option Message) : Prop where
  answered : ∀ id ∈ callsOf prev, (∃ m, next = some m ∧ m.role = .user) ∧
    (answersOf next).count id = 1
  called : ∀ id ∈ answersOf next, id ∈ callsOf prev

/-- Each message meets the one before it, the first one the beginning. -/
def Linked (transcript : List Message) : Prop :=
  (none :: transcript.map some).IsChain Meets

/-- The transcript is well formed: each message meets the one before it, and the last one leaves
no call open. -/
structure Paired (transcript : List Message) : Prop where
  linked : Linked transcript
  closed : callsOf transcript.getLast? = []

theorem paired_nil : Paired [] := ⟨List.isChain_singleton none, rfl⟩

theorem linked_append {transcript : List Message} {m : Message} :
    Linked (transcript ++ [m]) ↔
      Linked transcript ∧ Meets transcript.getLast? (some m) := by
  have hlast : (none :: transcript.map some).getLast? = some transcript.getLast? := by
    rw [List.getLast?_cons, List.getLast?_map]
    cases transcript.getLast? <;> rfl
  unfold Linked
  rw [List.map_append, ← List.cons_append, List.isChain_append, hlast]
  simp

theorem Linked.of_append {transcript more : List Message} (h : Linked (transcript ++ more)) :
    Linked transcript := by
  unfold Linked at h ⊢
  rw [List.map_append, ← List.cons_append] at h
  exact h.left_of_append

/-- A message without answers meets one that leaves no call open. -/
theorem meets_of_closed {prev : Option Message} {m : Message} (hprev : callsOf prev = []) :
    Meets prev (some m) ↔ m.answers = [] := by
  constructor
  · intro h
    refine List.eq_nil_iff_forall_not_mem.mpr fun id hid => ?_
    have hcalled := h.called id hid
    rw [hprev] at hcalled
    cases hcalled
  · intro h
    refine ⟨fun id hid => ?_, fun id hid => ?_⟩
    · rw [hprev] at hid
      cases hid
    · rw [show answersOf (some m) = [] from h] at hid
      cases hid

/-- **One more message** on a well-formed transcript. -/
theorem Paired.append_iff {transcript : List Message} (h : Paired transcript) {m : Message} :
    Paired (transcript ++ [m]) ↔ m.answers = [] ∧ m.calls = [] := by
  have hlast : (transcript ++ [m]).getLast? = some m := by simp
  constructor
  · intro hp
    have hmeets := (linked_append.mp hp.linked).2
    refine ⟨(meets_of_closed h.closed).mp hmeets, ?_⟩
    have hclosed := hp.closed
    rwa [hlast] at hclosed
  · rintro ⟨ha, hc⟩
    exact ⟨linked_append.mpr ⟨h.linked, (meets_of_closed h.closed).mpr ha⟩, by rwa [hlast]⟩

/-- **A message and its answers** on a well-formed transcript, the answers those of a user
message that answers exactly the calls, in their order. -/
theorem Paired.append_pair_iff {transcript : List Message} (h : Paired transcript)
    {m answer : Message} (hrole : answer.role = .user) (hanswers : answer.answers = m.calls) :
    Paired (transcript ++ [m, answer]) ↔ m.answers = [] ∧ m.calls.Nodup := by
  have hsplit : transcript ++ [m, answer] = (transcript ++ [m]) ++ [answer] := by simp
  have hlast : (transcript ++ [m]).getLast? = some m := by simp
  have hclosed : callsOf (some answer) = [] := by
    simp [callsOf, Message.calls, hrole]
  have hmeets : Meets (some m) (some answer) ↔ m.calls.Nodup := by
    have hans : answersOf (some answer) = m.calls := hanswers
    constructor
    · intro hm
      refine List.nodup_iff_count_le_one.mpr fun id => ?_
      by_cases hid : id ∈ m.calls
      · have hcount := (hm.answered id hid).2
        rw [hans] at hcount
        omega
      · rw [List.count_eq_zero_of_not_mem hid]
        omega
    · intro hnodup
      refine ⟨fun id hid => ⟨⟨answer, rfl, hrole⟩, ?_⟩, fun id hid => ?_⟩
      · rw [hans]
        exact List.count_eq_one_of_mem hnodup hid
      · rwa [hans] at hid
  rw [hsplit]
  constructor
  · intro hp
    obtain ⟨hl, hm⟩ := linked_append.mp hp.linked
    rw [hlast] at hm
    exact ⟨(meets_of_closed h.closed).mp (linked_append.mp hl).2, hmeets.mp hm⟩
  · rintro ⟨ha, hnodup⟩
    refine ⟨linked_append.mpr ⟨linked_append.mpr ⟨h.linked,
      (meets_of_closed h.closed).mpr ha⟩, ?_⟩, ?_⟩
    · rw [hlast]
      exact hmeets.mpr hnodup
    · simpa using hclosed

/-- A call that was left open is not answered by a message without answers, so the transcript
stays broken. -/
theorem not_linked_of_open {transcript : List Message} {m : Message}
    (hopen : callsOf transcript.getLast? ≠ []) (hm : m.answers = []) :
    ¬ Linked (transcript ++ [m]) := by
  intro h
  have hmeets := (linked_append.mp h).2
  obtain ⟨id, hid⟩ := List.exists_mem_of_ne_nil _ hopen
  have hcount := (hmeets.answered id hid).2
  rw [show answersOf (some m) = [] from hm] at hcount
  cases hcount

end Declaragent.Engine

import Declaragent.Library.RegExp
import Declaragent.Library.Search

/-!
# Tools — the edit of a file

`Edit` puts a new text in place of an old one, which has to occur once unless every occurrence is
asked for.  It counts the occurrences with `indexOf`, replaces one of them with `replace` and all of
them with `split` and `join`.  `replace` reads the new text as a template: `getSubstitution` is what
it makes of the patterns that begin with a dollar sign.

A file is the text that is read of it, and a write that throws has written nothing.

* `replacedAll_pieces`: what `split` and `join` do, and that they do it as often as was counted.
* `countOccurrences_of_once`: a text that occurs at one position is counted once.
* `replaces_iff`: when an edit replaces what was asked for and nothing else.
-/

namespace Declaragent.Tools
open RegExp Search

structure EditInput where
  path : String
  oldString : List CodeUnit
  newString : List CodeUnit
  replaceAll : Bool := false

inductive EditEvent where
  | error (code : Option String) (message : String)
  | result (path : String) (replacements : Nat)

/-- The calls to the runtime: what a path resolves to, whether the turn is aborted once the file is
read, and the message of each call that throws. -/
structure EditRuntime where
  resolve : String → String
  aborted : Bool := false
  existsError : Option String := none
  textError : Option String := none
  writeError : Option String := none

/-- The files there are, by their paths. -/
abbrev Files := String → Option (List CodeUnit)

/-! ### The primitives -/

/-- The loop, from behind the last occurrence on. -/
def countFrom (needle rest : List CodeUnit) : Nat :=
  match _hcut : cut needle rest with
  | none => 0
  | some (_, after) => if _hneedle : needle = [] then 0 else 1 + countFrom needle after
termination_by rest.length
decreasing_by exact cut_length _hneedle _hcut

def countOccurrences (haystack needle : List CodeUnit) : Nat :=
  if needle = [] then 0 else countFrom needle haystack

/-- What a template comes to at a match without groups, between what is before it and after it: two
dollar signs are one, and with `&`, a grave accent or an apostrophe one stands for the match, what
is before it or what is after it. -/
def getSubstitution (matched before after : List CodeUnit) : List CodeUnit → List CodeUnit
  | [] => []
  | [c] => [c]
  | c :: d :: template =>
    if c = unit '$' ∧ d = unit '$' then
      unit '$' :: getSubstitution matched before after template
    else if c = unit '$' ∧ d = unit '&' then
      matched ++ getSubstitution matched before after template
    else if c = unit '$' ∧ d = 96 then
      before ++ getSubstitution matched before after template
    else if c = unit '$' ∧ d = 39 then
      after ++ getSubstitution matched before after template
    else c :: getSubstitution matched before after (d :: template)

/-- `text.replace(searched, template)`. -/
def replaceFirst (text searched template : List CodeUnit) : List CodeUnit :=
  match cut searched text with
  | none => text
  | some (before, after) => before ++ getSubstitution searched before after template ++ after

/-- `text.split(searched).join(replacement)`. -/
def replaceEvery (text searched replacement : List CodeUnit) : List CodeUnit :=
  replacement.intercalate (pieces searched text)

def execute (R : EditRuntime) (files : Files) (input : EditInput) : EditEvent × Files :=
  let absolute := R.resolve input.path
  match R.existsError with
  | some message => (.error none message, files)
  | none =>
    match files absolute with
    | none => (.error (some "ENOENT") ("File not found: " ++ absolute), files)
    | some original =>
      match R.textError with
      | some message => (.error none message, files)
      | none =>
        if R.aborted then (.error (some "ABORTED") "Edit aborted", files)
        else if input.oldString = input.newString then
          (.error (some "EINVAL") "oldString and newString are identical", files)
        else
          let occurrences := countOccurrences original input.oldString
          if occurrences = 0 then
            (.error (some "ENOMATCH") "oldString not found in file", files)
          else if input.replaceAll = false ∧ 1 < occurrences then
            (.error (some "EAMBIGUOUS") ("oldString matches " ++ toString occurrences ++
              " times; pass replaceAll: true or supply more context"), files)
          else
            let next :=
              if input.replaceAll then
                replaceEvery original input.oldString input.newString
              else replaceFirst original input.oldString input.newString
            match R.writeError with
            | some message => (.error none message, files)
            | none => (.result absolute (if input.replaceAll then occurrences else 1),
                Function.update files absolute (some next))

/-! ### What is asked for -/

/-- The text with each occurrence replaced that is the first one behind those before it, and their
number. -/
inductive ReplacedAll (old new : List CodeUnit) : List CodeUnit → List CodeUnit → Nat → Prop where
  | none {text : List CodeUnit} (h : ¬ old <:+: text) : ReplacedAll old new text text 0
  | first {text before after next : List CodeUnit} {n : Nat} (hfirst : First old text before after)
      (h : ReplacedAll old new after next n) :
      ReplacedAll old new text (before ++ new ++ next) (n + 1)

/-- The old text occurs here and nowhere else. -/
def Once (old content before after : List CodeUnit) : Prop :=
  content = before ++ old ++ after ∧
    ∀ before' after', content = before' ++ old ++ after' → before' = before

variable (R : EditRuntime) (files : Files) (input : EditInput)

/-- The edit replaces what was asked for and nothing else. -/
structure Replaces : Prop where
  single : ∀ path n, (execute R files input).1 = .result path n → input.replaceAll = false →
    ∃ content before after, files (R.resolve input.path) = some content ∧
      Once input.oldString content before after ∧
      (execute R files input).2 = Function.update files (R.resolve input.path)
        (some (before ++ input.newString ++ after))
  all : ∀ path n, (execute R files input).1 = .result path n → input.replaceAll = true →
    ∃ content next, files (R.resolve input.path) = some content ∧
      ReplacedAll input.oldString input.newString content next n ∧
      (execute R files input).2 = Function.update files (R.resolve input.path) (some next)
  modes : ∀ content before after, files (R.resolve input.path) = some content →
    Once input.oldString content before after →
      (execute R files { input with replaceAll := true }).2 =
        (execute R files { input with replaceAll := false }).2
  errors : ∀ code message, (execute R files input).1 = .error code message →
    (execute R files input).2 = files

/-- The file can be read and written, and there is something to replace. -/
structure Editable (content : List CodeUnit) : Prop where
  file : files (R.resolve input.path) = some content
  noExistsError : R.existsError = none
  noTextError : R.textError = none
  noWriteError : R.writeError = none
  notAborted : R.aborted = false
  differs : input.oldString ≠ input.newString
  nonempty : input.oldString ≠ []

/-- If the text is counted once then it occurs once, unless every occurrence is asked for; and where
it occurs once, the new text is no template for another one. -/
def Unambiguous : Prop :=
  ∀ content, Editable R files input content →
    (input.replaceAll = false → countOccurrences content input.oldString = 1 →
      ∃ before after, Once input.oldString content before after) ∧
    ∀ before after, Once input.oldString content before after →
      getSubstitution input.oldString before after input.newString = input.newString

/-! ### The primitives, where the old text is not empty -/

section
variable {old new text before after : List CodeUnit}

theorem countFrom_of_none (h : cut old text = none) : countFrom old text = 0 := by
  rw [countFrom]
  split
  · rfl
  · rename_i hcut
    rw [h] at hcut
    cases hcut

theorem countFrom_of_cut (hold : old ≠ []) (h : cut old text = some (before, after)) :
    countFrom old text = 1 + countFrom old after := by
  rw [countFrom]
  split
  · rename_i hcut
    rw [h] at hcut
    cases hcut
  · rename_i hcut
    rw [h] at hcut
    cases hcut
    rw [dif_neg hold]

theorem countOccurrences_eq (hold : old ≠ []) : countOccurrences text old = countFrom old text :=
  if_neg hold

/-- **Split and join** replace every occurrence, as often as the loop counts. -/
theorem replacedAll_pieces (hold : old ≠ []) (new text : List CodeUnit) :
    ReplacedAll old new text (replaceEvery text old new) (countOccurrences text old) := by
  rw [countOccurrences_eq hold]
  unfold replaceEvery
  induction hn : text.length using Nat.strong_induction_on generalizing text with
  | _ n ih =>
    cases hcut : cut old text with
    | none =>
      rw [pieces_of_none hcut, countFrom_of_none hcut, List.intercalate_singleton]
      exact .none (cut_eq_none_iff.mp hcut)
    | some p =>
      obtain ⟨before, after⟩ := p
      have hrest := ih after.length (hn ▸ cut_length hold hcut) after rfl
      have hne : pieces old after ≠ [] := by
        rw [pieces]
        split
        · exact List.cons_ne_nil _ _
        · split <;> exact List.cons_ne_nil _ _
      rw [pieces_of_cut hold hcut, countFrom_of_cut hold hcut, Nat.add_comm,
        List.intercalate_cons_of_ne_nil hne, List.append_assoc, ← List.append_assoc]
      exact .first (cut_eq_some_iff.mp hcut) hrest

theorem Once.cut (h : Once old text before after) : cut old text = some (before, after) :=
  cut_eq_some_iff.mpr ⟨h.1, fun _ _ htext => by rw [h.2 _ _ htext]⟩

theorem Once.cut_after (h : Once old text before after) (hold : old ≠ []) :
    Search.cut old after = none := by
  rw [cut_eq_none_iff]
  rintro ⟨before', after', hafter⟩
  have htext : text = (before ++ old ++ before') ++ old ++ after' := by
    rw [h.1, ← hafter]
    simp only [List.append_assoc]
  have hlength := congrArg List.length (h.2 _ _ htext)
  have hpos := List.length_pos_of_ne_nil hold
  simp only [List.length_append] at hlength
  omega

/-- A text that occurs at one position is counted once. -/
theorem countOccurrences_of_once (h : Once old text before after) (hold : old ≠ []) :
    countOccurrences text old = 1 := by
  rw [countOccurrences_eq hold, countFrom_of_cut hold h.cut, countFrom_of_none (h.cut_after hold)]

theorem replaceFirst_of_once (h : Once old text before after) (new : List CodeUnit) :
    replaceFirst text old new = before ++ getSubstitution old before after new ++ after := by
  rw [replaceFirst, h.cut]

theorem replaceEvery_of_once (h : Once old text before after) (hold : old ≠ [])
    (new : List CodeUnit) : replaceEvery text old new = before ++ new ++ after := by
  rw [replaceEvery, pieces_of_cut hold h.cut, pieces_of_none (h.cut_after hold)]
  simp [List.intercalate]

end

/-! ### The edit -/

/-- The text after an edit. -/
def edited (content : List CodeUnit) : List CodeUnit :=
  if input.replaceAll then replaceEvery content input.oldString input.newString
  else replaceFirst content input.oldString input.newString

/-- An edit that does not fail. -/
structure Succeeds (content : List CodeUnit) : Prop where
  editable : Editable R files input content
  counted : countOccurrences content input.oldString ≠ 0
  single : input.replaceAll = false → countOccurrences content input.oldString = 1

variable {R files input}

theorem Succeeds.execute {content : List CodeUnit} (h : Succeeds R files input content) :
    execute R files input =
      (.result (R.resolve input.path)
        (if input.replaceAll then countOccurrences content input.oldString else 1),
        Function.update files (R.resolve input.path) (some (edited input content))) := by
  obtain ⟨hfile, hexists, htext, hwrite, haborted, hdiffers, -⟩ := h.editable
  have hsingle : ¬ (input.replaceAll = false ∧ 1 < countOccurrences content input.oldString) := by
    rintro ⟨hall, hlt⟩
    rw [h.single hall] at hlt
    exact Nat.lt_irrefl _ hlt
  simp only [Tools.execute, hexists, hfile, htext, haborted, hwrite, Bool.false_eq_true, if_false]
  rw [if_neg hdiffers, if_neg h.counted, if_neg hsingle]
  rfl

/-- An edit fails and changes nothing, or succeeds. -/
theorem execute_cases (R : EditRuntime) (files : Files) (input : EditInput) :
    (∃ code message, execute R files input = (.error code message, files)) ∨
      ∃ content, Succeeds R files input content := by
  cases hexists : R.existsError with
  | some message =>
    refine .inl ?_
    simp only [execute, hexists]
    exact ⟨_, _, rfl⟩
  | none =>
  cases hfile : files (R.resolve input.path) with
  | none =>
    refine .inl ?_
    simp only [execute, hexists, hfile]
    exact ⟨_, _, rfl⟩
  | some content =>
  cases htext : R.textError with
  | some message =>
    refine .inl ?_
    simp only [execute, hexists, hfile, htext]
    exact ⟨_, _, rfl⟩
  | none =>
  cases haborted : R.aborted with
  | true =>
    refine .inl ?_
    simp only [execute, hexists, hfile, htext, haborted, if_true]
    exact ⟨_, _, rfl⟩
  | false =>
  by_cases hdiffers : input.oldString = input.newString
  · refine .inl ?_
    simp only [execute, hexists, hfile, htext, haborted, Bool.false_eq_true, if_false,
      if_pos hdiffers]
    exact ⟨_, _, rfl⟩
  by_cases hcounted : countOccurrences content input.oldString = 0
  · refine .inl ?_
    simp only [execute, hexists, hfile, htext, haborted, Bool.false_eq_true, if_false,
      if_neg hdiffers, if_pos hcounted]
    exact ⟨_, _, rfl⟩
  by_cases hsingle : input.replaceAll = false ∧ 1 < countOccurrences content input.oldString
  · refine .inl ?_
    simp only [execute, hexists, hfile, htext, haborted, Bool.false_eq_true, if_false,
      if_neg hdiffers, if_neg hcounted, if_pos hsingle]
    exact ⟨_, _, rfl⟩
  cases hwrite : R.writeError with
  | some message =>
    refine .inl ?_
    simp only [execute, hexists, hfile, htext, haborted, Bool.false_eq_true, if_false,
      if_neg hdiffers, if_neg hcounted, if_neg hsingle, hwrite]
    exact ⟨_, _, rfl⟩
  | none =>
    have hold : input.oldString ≠ [] := fun hnil => hcounted (if_pos hnil)
    exact .inr ⟨content, ⟨hfile, hexists, htext, hwrite, haborted, hdiffers, hold⟩, hcounted,
      fun hall => by
        have hle : ¬ 1 < countOccurrences content input.oldString :=
          fun hlt => hsingle ⟨hall, hlt⟩
        omega⟩

/-- An edit that gives a result has succeeded. -/
theorem succeeds_of_result {path : String} {n : Nat}
    (h : (execute R files input).1 = .result path n) :
    ∃ content, Succeeds R files input content := by
  rcases execute_cases R files input with ⟨code, message, he⟩ | hs
  · rw [he] at h
    cases h
  · exact hs

theorem Editable.mode {content : List CodeUnit} (h : Editable R files input content) (all : Bool) :
    Editable R files { input with replaceAll := all } content :=
  ⟨h.file, h.noExistsError, h.noTextError, h.noWriteError, h.notAborted, h.differs, h.nonempty⟩

theorem Editable.of_mode {content : List CodeUnit} {all : Bool}
    (h : Editable R files { input with replaceAll := all } content) :
    Editable R files input content :=
  ⟨h.file, h.noExistsError, h.noTextError, h.noWriteError, h.notAborted, h.differs, h.nonempty⟩

/-- A text that occurs once is replaced in both modes. -/
theorem Once.succeeds {content before after : List CodeUnit}
    (h : Once input.oldString content before after) (he : Editable R files input content)
    (all : Bool) : Succeeds R files { input with replaceAll := all } content := by
  have hone := countOccurrences_of_once h he.nonempty
  exact ⟨he.mode all, by rw [hone]; exact Nat.one_ne_zero, fun _ => hone⟩

theorem Once.execute {content before after : List CodeUnit}
    (h : Once input.oldString content before after) (he : Editable R files input content)
    (all : Bool) :
    (Tools.execute R files { input with replaceAll := all }).2 =
      Function.update files (R.resolve input.path)
        (some (before ++ (if all then input.newString
          else getSubstitution input.oldString before after input.newString) ++ after)) := by
  rw [(h.succeeds he all).execute]
  cases all with
  | true =>
    rw [edited, if_pos rfl, replaceEvery_of_once h he.nonempty, if_pos rfl]
    rfl
  | false =>
    rw [edited, if_neg Bool.false_ne_true, replaceFirst_of_once h, if_neg Bool.false_ne_true]
    rfl

/-- **An edit replaces what was asked for** exactly if a text that it replaces once occurs once, and
the new text of one that occurs once is no template for another text. -/
theorem replaces_iff (R : EditRuntime) (files : Files) (input : EditInput) :
    Replaces R files input ↔ Unambiguous R files input := by
  constructor
  · intro h content he
    refine ⟨fun hall hone => ?_, fun before after honce => ?_⟩
    · have hs : Succeeds R files input content :=
        ⟨he, by rw [hone]; exact Nat.one_ne_zero, fun _ => hone⟩
      obtain ⟨content', before, after, hfile, honce, -⟩ :=
        h.single _ _ (congrArg Prod.fst hs.execute) hall
      rw [he.file] at hfile
      cases hfile
      exact ⟨before, after, honce⟩
    · have hmodes := h.modes content before after he.file honce
      rw [honce.execute he true, honce.execute he false, if_pos rfl,
        if_neg Bool.false_ne_true] at hmodes
      have htexts := congrFun hmodes (R.resolve input.path)
      rw [Function.update_self, Function.update_self, Option.some.injEq] at htexts
      rw [List.append_assoc, List.append_assoc] at htexts
      exact (List.append_cancel_right (List.append_cancel_left htexts)).symm
  · intro h
    refine ⟨fun path n hresult hall => ?_, fun path n hresult hall => ?_,
      fun content before after hfile honce => ?_, fun code message herror => ?_⟩
    · obtain ⟨content, hs⟩ := succeeds_of_result hresult
      obtain ⟨before, after, honce⟩ := (h content hs.editable).1 hall (hs.single hall)
      refine ⟨content, before, after, hs.editable.file, honce, ?_⟩
      have hedit := honce.execute hs.editable false
      rw [if_neg Bool.false_ne_true, (h content hs.editable).2 before after honce] at hedit
      rwa [← hall] at hedit
    · obtain ⟨content, hs⟩ := succeeds_of_result hresult
      rw [hs.execute, if_pos hall] at hresult ⊢
      cases hresult
      refine ⟨content, edited input content, hs.editable.file, ?_, rfl⟩
      rw [edited, if_pos hall]
      exact replacedAll_pieces hs.editable.nonempty _ _
    · by_cases he : Editable R files input content
      · rw [honce.execute he true, honce.execute he false, if_pos rfl, if_neg Bool.false_ne_true,
          (h content he).2 before after honce]
      · have hfails : ∀ all, (execute R files { input with replaceAll := all }).2 = files := by
          intro all
          rcases execute_cases R files { input with replaceAll := all } with
            ⟨code, message, herror⟩ | ⟨content', hs⟩
          · rw [herror]
          · have he' := hs.editable.of_mode
            obtain rfl := Option.some.inj (he'.file.symm.trans hfile)
            exact absurd he' he
        rw [hfails, hfails]
    · rcases execute_cases R files input with ⟨code', message', he⟩ | ⟨content, hs⟩
      · rw [he]
      · rw [hs.execute] at herror
        cases herror

/-! ### An edit and back -/

theorem getSubstitution_of_notMem {matched before after template : List CodeUnit}
    (h : unit '$' ∉ template) : getSubstitution matched before after template = template := by
  induction template with
  | nil => rfl
  | cons c template ih =>
    obtain ⟨hc, htemplate⟩ := not_or.mp (mt List.mem_cons.mpr h)
    cases template with
    | nil => rfl
    | cons d template =>
      simp only [getSubstitution, Ne.symm hc, false_and, if_false, ih htemplate]

/-- The edit the other way round. -/
def EditInput.swap (input : EditInput) : EditInput :=
  { input with oldString := input.newString, newString := input.oldString }

/-- **The edit back gives the file back**, in both modes, where each text occurs once in the file
that it is replaced in and neither has a dollar sign. -/
theorem execute_swap {content before after : List CodeUnit}
    (he : Editable R files input content) (hnew : input.newString ≠ [])
    (h : Once input.oldString content before after)
    (h' : Once input.newString (before ++ input.newString ++ after) before after)
    (hplain : ∀ c ∈ input.oldString ++ input.newString, c ≠ unit '$') (all : Bool) :
    (execute R (execute R files { input with replaceAll := all }).2
      { input.swap with replaceAll := all }).2 = files := by
  obtain ⟨hold, hplain⟩ := List.forall_mem_append.mp hplain
  have hback : Editable R (Function.update files (R.resolve input.path)
      (some (before ++ input.newString ++ after))) input.swap
      (before ++ input.newString ++ after) :=
    ⟨Function.update_self .., he.noExistsError, he.noTextError, he.noWriteError, he.notAborted,
      he.differs.symm, hnew⟩
  have hthere := h.execute he all
  rw [getSubstitution_of_notMem fun hmem => hplain _ hmem rfl, ite_self] at hthere
  have hswap : Once input.swap.oldString (before ++ input.newString ++ after) before after := h'
  have hthen := hswap.execute hback all
  rw [EditInput.swap, getSubstitution_of_notMem fun hmem => hold _ hmem rfl, ite_self,
    Function.update_idem, ← h.1, ← he.file, Function.update_eq_self] at hthen
  rw [hthere]
  exact hthen

theorem once_self (old : List CodeUnit) : Once old old [] [] := by
  refine ⟨(List.append_nil old).symm, fun before after h => ?_⟩
  have hlength := congrArg List.length h
  simp only [List.length_append] at hlength
  exact List.length_eq_zero_iff.mp (by omega)

theorem execute_swap_digit : (execute { resolve := id } (execute { resolve := id }
    (fun _ => some [unit '1']) ⟨"a", [unit '1'], [unit '2'], false⟩).2
      ⟨"a", [unit '2'], [unit '1'], false⟩).2 = fun _ => some [unit '1'] := by
  have he : Editable { resolve := id } (fun _ => some [unit '1'])
      ⟨"a", [unit '1'], [unit '2'], false⟩ [unit '1'] :=
    ⟨rfl, rfl, rfl, rfl, rfl, by decide, by decide⟩
  exact execute_swap he (by decide) (once_self _) (once_self _)
    (fun c hc h => absurd (h ▸ hc) (by decide)) false

/-- The price is to be twenty dollars, and two dollar signs. -/
def priceEdit : EditInput where
  path := "price.txt"
  oldString := ['1', '0'].map unit
  newString := ['$', '$', '2', '0'].map unit

/-- One of the two is lost, unless every occurrence of the one price is replaced. -/
theorem dollar_lost :
    ¬ Replaces { resolve := id } (fun _ => some (['1', '0'].map unit)) priceEdit := by
  intro h
  have honce : Once priceEdit.oldString (['1', '0'].map unit) [] [] := by
    refine ⟨rfl, fun before' after' htext => ?_⟩
    have hlength := congrArg List.length htext
    simp only [List.length_append, List.length_map, priceEdit, List.length_cons] at hlength
    exact List.length_eq_zero_iff.mp (by omega)
  have he : Editable { resolve := id } (fun _ => some (['1', '0'].map unit)) priceEdit
      (['1', '0'].map unit) :=
    ⟨rfl, rfl, rfl, rfl, rfl, by decide, by decide⟩
  have hmodes := h.modes _ [] [] rfl honce
  rw [honce.execute he true, honce.execute he false] at hmodes
  have htexts := congrFun hmodes "price.txt"
  revert htexts
  decide

end Declaragent.Tools

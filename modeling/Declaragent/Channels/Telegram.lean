import Declaragent.Channels.RichContent
import Declaragent.Library.MarkdownV2
import Declaragent.Library.Search

/-!
# Channels — Telegram

A message is sent as one text in MarkdownV2, with rows of buttons below it.

The text of a code block is put between its fences as it is.

* `renderTelegram_valid_iff`: which messages are sent as a text that is valid and shows their texts.
* `code_not_escaped`: a code block with a backtick is sent as a text that is not valid.
-/

namespace Declaragent.Channels
open RegExp (CodeUnit unit)
open Markup (units decimal)
open MarkdownV2 Search

/-! ### Escaping -/

def OUTSIDE_ESCAPES : List CodeUnit :=
  [unit '_', unit '*', unit '[', unit ']', unit '(', unit ')', unit '~', tick, unit '>', unit '#',
    unit '+', unit '-', unit '=', unit '|', unit '{', unit '}', unit '.', unit '!']

def INSIDE_CODE_ESCAPES : List CodeUnit := [backslash, tick]

def outsideSpecial (c : CodeUnit) : Bool := c ∈ OUTSIDE_ESCAPES || c = backslash

def escapeOutside (segment : Text) : Text := escapeEach outsideSpecial segment

def escapeInsideCode (segment : Text) : Text := escapeEach (· ∈ INSIDE_CODE_ESCAPES) segment

/-- Each turn takes a character at least. -/
def escapeMarkdownFrom : Nat → Text → Text
  | 0, _ => []
  | _ + 1, [] => []
  | fuel + 1, c :: raw =>
    if fence.isPrefixOf (c :: raw) then
      match cut fence (raw.drop 2) with
      | none => escapeOutside (c :: raw)
      | some (inner, rest) =>
        fence ++ escapeInsideCode inner ++ fence ++ escapeMarkdownFrom fuel rest
    else if c = tick then
      match cut [tick] raw with
      | none => escapeOutside (c :: raw)
      | some (inner, rest) =>
        [tick] ++ escapeInsideCode inner ++ [tick] ++ escapeMarkdownFrom fuel rest
    else
      escapeOutside ((c :: raw).takeWhile (· ≠ tick)) ++
        escapeMarkdownFrom fuel ((c :: raw).dropWhile (· ≠ tick))

def escapeMarkdownV2 (raw : Text) : Text := escapeMarkdownFrom raw.length raw

/-! ### Rendering -/

structure TelegramInlineButton where
  text : Text
  callbackData : Option Text
  url : Option Text

inductive TelegramPayload where
  | text (text : Text) (keyboard : Option (List (List TelegramInlineButton)))
  | file (url path : Option Text) (caption : Option Text)
  | template (name : Text) (params : List (Text × Text)) (language : Option Text)
  | voice (url path : Option Text) (duration : Option Nat)

def buttonToTelegram (btn : Button) : TelegramInlineButton :=
  match btn.url with
  | some url => ⟨btn.label, none, some url⟩
  | none => ⟨btn.label, some btn.id, none⟩

def RichBlock.isButtonRow : RichBlock → Bool
  | .buttonRow _ => true
  | _ => false

/-- The text of a block, which is no row of buttons. -/
def renderBlockToMarkdown : RichBlock → Text
  | .heading text => units "*" ++ escapeMarkdownV2 text ++ units "*"
  | .paragraph text => escapeMarkdownV2 text
  | .code text lang => fenced (((truthyText lang).map escapeMarkdownV2).getD []) text
  | .bulletedList items => bulleted (items.map escapeMarkdownV2)
  | .divider => units "—"
  | .image url alt => escapeMarkdownV2 (blockToFallbackText (.image url alt))
  | .context text => units "_" ++ escapeMarkdownV2 text ++ units "_"
  | .buttonRow _ => []

def keyboardRow : RichBlock → Option (List TelegramInlineButton)
  | .buttonRow buttons => some (buttons.map buttonToTelegram)
  | _ => none

def renderTelegramRich (blocks : List RichBlock) : TelegramPayload :=
  let textParts := (blocks.filter fun block => !block.isButtonRow).map renderBlockToMarkdown
  let keyboardRows := blocks.filterMap keyboardRow
  .text (join "\n\n" textParts) (if keyboardRows.length > 0 then some keyboardRows else none)

def renderTelegram (content : ChannelMessageContent) (caps : ChannelCapabilities) :
    TelegramPayload :=
  match capabilitiesAwareRender caps content with
  | .text text => .text (escapeMarkdownV2 text) none
  | .rich blocks => renderTelegramRich blocks
  | .template name params language => .template name params language
  | .file file caption => .file file.url file.path (caption.map escapeMarkdownV2)
  | .voice audio durationSec => .voice audio.url audio.path durationSec

/-! ### What is shown -/

/-- The pieces of a text: the code that it marks, and the characters around. -/
def spansFrom : Nat → Text → List Piece
  | 0, _ => []
  | _ + 1, [] => []
  | fuel + 1, c :: raw =>
    if fence.isPrefixOf (c :: raw) then
      match cut fence (raw.drop 2) with
      | none => (c :: raw).map .char
      | some (inner, rest) =>
        [.opensPre] ++ inner.map .code ++ [.closesPre] ++ spansFrom fuel rest
    else if c = tick then
      match cut [tick] raw with
      | none => (c :: raw).map .char
      | some (inner, rest) =>
        [.opensCode] ++ inner.map .code ++ [.closesCode] ++ spansFrom fuel rest
    else
      ((c :: raw).takeWhile (· ≠ tick)).map .char ++
        spansFrom fuel ((c :: raw).dropWhile (· ≠ tick))

def spans (raw : Text) : List Piece := spansFrom raw.length raw

def chars (text : String) : List Piece := (units text).map .char

/-- The pieces of a block, with its text in the place for it. -/
def shownBlock : RichBlock → List Piece
  | .heading text => [.mark .bold] ++ spans text ++ [.mark .bold]
  | .paragraph text => spans text
  | .code text lang =>
    [.opensPre] ++ ((truthyText lang).getD [] ++ units "\n" ++ text ++ units "\n").map .code ++
      [.closesPre]
  | .bulletedList items =>
    (chars "\n").intercalate (items.map fun item => chars "• " ++ spans item)
  | .divider => chars "—"
  | .image url alt => spans (blockToFallbackText (.image url alt))
  | .context text => [.mark .italic] ++ spans text ++ [.mark .italic]
  | .buttonRow _ => []

def shownBlocks (blocks : List RichBlock) : List Piece :=
  (chars "\n\n").intercalate ((blocks.filter fun block => !block.isButtonRow).map shownBlock)

def shown (caps : ChannelCapabilities) (blocks : List RichBlock) : List Piece :=
  match capabilitiesAwareRender caps (.rich blocks) with
  | .text text => spans text
  | .rich blocks => shownBlocks blocks
  | _ => []

/-- The text of a block. -/
def blockText : RichBlock → Text
  | .heading text | .paragraph text | .context text => text
  | .code text lang => fenced ((truthyText lang).getD []) text
  | .bulletedList items => bulleted items
  | .divider => units "—"
  | .image url alt => blockToFallbackText (.image url alt)
  | .buttonRow _ => []

def messageText (caps : ChannelCapabilities) (blocks : List RichBlock) : Text :=
  match capabilitiesAwareRender caps (.rich blocks) with
  | .text text => text
  | .rich blocks => join "\n\n" ((blocks.filter fun block => !block.isButtonRow).map blockText)
  | _ => []

/-- The first backtick is closed by another one, or the first three in a row by three more. -/
def OpensCode (raw : Text) : Prop :=
  match raw.dropWhile (· ≠ tick) with
  | [] => False
  | c :: rest => if fence.isPrefixOf (c :: rest) then fence <:+: rest.drop 2 else tick ∈ rest

/-- Nothing in the block has to be escaped that is not: the text of a code block has no backslash
and no backtick, and its language opens no code; a context is not empty. -/
def Safe : RichBlock → Prop
  | .code text lang => backslash ∉ text ∧ tick ∉ text ∧ ¬ OpensCode ((truthyText lang).getD [])
  | .context text => text ≠ []
  | _ => True

/-! ### Reading what was escaped -/

theorem escapeOutside_bare {c : CodeUnit} (h : outsideSpecial c = false) (zone : Zone) :
    Bare zone c := by
  simp only [outsideSpecial, Bool.or_eq_false_iff, decide_eq_false_iff_not] at h
  have htick : c ≠ tick := fun heq => h.1 (heq ▸ by decide)
  cases zone with
  | text => exact ⟨h.2, h.1⟩
  | code => exact ⟨h.2, htick⟩
  | pre => exact ⟨h.2, htick⟩

theorem escapable_outside : ∀ c ∈ backslash :: OUTSIDE_ESCAPES, escapable c = true :=
  List.all_eq_true.mp (by decide)

theorem read_escapeOutside (zone : Zone) (segment rest : Text) :
    readFrom zone .ready (escapeOutside segment ++ rest) =
      (readFrom zone .ready rest).map (segment.map zone.piece ++ ·) := by
  refine read_escapeEach (fun c hc => escapeOutside_bare hc zone) (fun c hc => ?_) segment
  simp only [outsideSpecial, Bool.or_eq_true, decide_eq_true_eq] at hc
  rcases hc with hc | rfl
  · exact escapable_outside c (List.mem_cons_of_mem _ hc)
  · exact escapable_outside _ List.mem_cons_self

theorem escapable_inside : ∀ c ∈ INSIDE_CODE_ESCAPES, escapable c = true :=
  List.all_eq_true.mp (by decide)

theorem read_escapeInsideCode {zone : Zone} (hzone : zone = .code ∨ zone = .pre)
    (segment rest : Text) :
    readFrom zone .ready (escapeInsideCode segment ++ rest) =
      (readFrom zone .ready rest).map (segment.map .code ++ ·) := by
  have hbare : ∀ c, decide (c ∈ INSIDE_CODE_ESCAPES) = false → Bare zone c := by
    intro c hc
    have hno := of_decide_eq_false hc
    have hslash : c ≠ backslash := fun heq => hno (heq ▸ by decide)
    have htick : c ≠ tick := fun heq => hno (heq ▸ by decide)
    rcases hzone with rfl | rfl <;> exact ⟨hslash, htick⟩
  have hescapable : ∀ c, decide (c ∈ INSIDE_CODE_ESCAPES) = true → escapable c = true :=
    fun c hc => escapable_inside c (of_decide_eq_true hc)
  have hread : readFrom zone .ready (escapeInsideCode segment ++ rest) =
      (readFrom zone .ready rest).map (segment.map zone.piece ++ ·) :=
    read_escapeEach hbare hescapable segment
  rcases hzone with rfl | rfl <;> exact hread

theorem escapeOutside_cons (c : CodeUnit) (segment : Text) :
    escapeOutside (c :: segment) =
      (if outsideSpecial c then [backslash, c] else [c]) ++ escapeOutside segment := by
  rw [escapeOutside, escapeEach, List.flatMap_cons]
  rfl

/-- The first character: a backslash, or the same one, where that opens code or is not special. -/
theorem escapeMarkdown_head (fuel : Nat) (c : CodeUnit) (raw : Text) :
    ∃ d more, escapeMarkdownFrom (fuel + 1) (c :: raw) = d :: more ∧
      (d = backslash ∨ d = c ∧ (c = tick ∨ c ∉ OUTSIDE_ESCAPES)) := by
  have houtside : ∀ segment rest : Text, ∃ d more,
      escapeOutside (c :: segment) ++ rest = d :: more ∧
        (d = backslash ∨ d = c ∧ (c = tick ∨ c ∉ OUTSIDE_ESCAPES)) := by
    intro segment rest
    rw [escapeOutside_cons]
    split_ifs with h
    · exact ⟨backslash, _, rfl, .inl rfl⟩
    · refine ⟨c, _, rfl, .inr ⟨rfl, .inr fun hmem => h ?_⟩⟩
      rw [outsideSpecial, decide_eq_true hmem]
      rfl
  rw [escapeMarkdownFrom]
  split_ifs with hfence htick
  · have hc : c = tick := by
      obtain ⟨rest, hrest⟩ := List.isPrefixOf_iff_prefix.mp hfence
      exact (List.cons.inj hrest).1.symm
    cases hcut : cut fence (raw.drop 2) with
    | none => simpa using houtside raw []
    | some p => exact ⟨tick, _, rfl, .inr ⟨hc.symm, .inl hc⟩⟩
  · cases hcut : cut [tick] raw with
    | none => simpa using houtside raw []
    | some p => exact ⟨tick, _, rfl, .inr ⟨htick.symm, .inl htick⟩⟩
  · rw [List.takeWhile_cons, if_pos (decide_eq_true htick)]
    exact houtside _ _

/-- What can follow: nothing, or a new line. -/
def EndsBlock (rest : Text) : Prop := rest = [] ∨ ∃ more, rest = 10 :: more

theorem head_ne_tick_append {fuel : Nat} {raw rest : Text} (hraw : raw.head? ≠ some tick)
    (hrest : rest.head? ≠ some tick) : (escapeMarkdownFrom fuel raw ++ rest).head? ≠ some tick := by
  cases fuel with
  | zero => exact hrest
  | succ fuel =>
    cases raw with
    | nil => exact hrest
    | cons c raw =>
      obtain ⟨d, more, heq, hd⟩ := escapeMarkdown_head fuel c raw
      rw [heq, List.cons_append, List.head?_cons]
      intro h
      obtain rfl := Option.some.inj h
      rcases hd with hd | ⟨rfl, -⟩
      · exact absurd hd (by decide)
      · exact hraw rfl

theorem notMem_of_cut {raw inner after : Text} (h : cut [tick] raw = some (inner, after)) :
    tick ∉ inner := by
  intro hmem
  obtain ⟨front, back, rfl⟩ := List.append_of_mem hmem
  have htext : raw = front ++ [tick] ++ (back ++ [tick] ++ after) := by
    rw [cut_eq h]
    simp
  have hle := cut_first h htext
  rw [List.length_append, List.length_cons] at hle
  omega

/-- Inline code does not begin with three backticks. -/
theorem goesOn_inline {fuel : Nat} {raw inner after rest : Text}
    (hfence : ¬ fence.isPrefixOf (tick :: raw) = true) (hcut : cut [tick] raw = some (inner, after))
    (hrest : rest.head? ≠ some tick) :
    goesOn (escapeInsideCode inner ++ ([tick] ++ (escapeMarkdownFrom fuel after ++ rest))) =
      false := by
  cases inner with
  | nil =>
    have hafter : after.head? ≠ some tick := by
      intro h
      refine hfence (List.isPrefixOf_iff_prefix.mpr ?_)
      obtain ⟨more, rfl⟩ : ∃ more, after = tick :: more := by
        cases after with
        | nil => cases h
        | cons d more => exact ⟨more, by rw [Option.some.inj h]⟩
      rw [cut_eq hcut]
      exact ⟨more, rfl⟩
    exact goesOn_tick_of_head_ne (head_ne_tick_append hafter hrest)
  | cons d inner =>
    refine goesOn_of_head_ne ?_
    have hd : d ≠ tick := fun heq => notMem_of_cut hcut (heq ▸ List.mem_cons_self)
    rw [escapeInsideCode, escapeEach, List.flatMap_cons]
    split_ifs
    · exact fun h => absurd (Option.some.inj h) (by decide)
    · exact fun h => hd (Option.some.inj h)

/-- **An escaped text is read as its pieces.** -/
theorem read_escapeMarkdown {rest : Text} (hrest : rest.head? ≠ some tick) (fuel : Nat)
    (raw : Text) : readFrom .text .ready (escapeMarkdownFrom fuel raw ++ rest) =
      (readFrom .text .ready rest).map (spansFrom fuel raw ++ ·) := by
  induction fuel generalizing raw with
  | zero =>
    rw [escapeMarkdownFrom, spansFrom, List.nil_append]
    cases readFrom .text .ready rest <;> rfl
  | succ fuel ih =>
    cases raw with
    | nil =>
      rw [escapeMarkdownFrom, spansFrom, List.nil_append]
      cases readFrom .text .ready rest <;> rfl
    | cons c raw =>
      rw [escapeMarkdownFrom, spansFrom]
      split_ifs with hfence htick
      · cases hcut : cut fence (raw.drop 2) with
        | none => exact read_escapeOutside .text (c :: raw) rest
        | some p =>
          obtain ⟨inner, after⟩ := p
          dsimp only
          rw [List.append_assoc, List.append_assoc, List.append_assoc, readFrom_opensPre,
            read_escapeInsideCode (.inr rfl), readFrom_closesPre, ih, Option.map_map,
            Option.map_map, Option.map_map]
          congr 1
          funext pieces
          simp
      · subst htick
        cases hcut : cut [tick] raw with
        | none => exact read_escapeOutside .text (tick :: raw) rest
        | some p =>
          obtain ⟨inner, after⟩ := p
          dsimp only
          have hgoes : goesOn (escapeInsideCode inner ++ ([tick] ++
              (escapeMarkdownFrom fuel after ++ rest))) = false :=
            goesOn_inline hfence hcut hrest
          rw [List.append_assoc, List.append_assoc, List.append_assoc,
            List.singleton_append, readFrom_opensCode hgoes,
            read_escapeInsideCode (.inl rfl), List.singleton_append, readFrom_closesCode, ih,
            Option.map_map, Option.map_map, Option.map_map]
          congr 1
          funext pieces
          simp
      · rw [List.append_assoc, read_escapeOutside, ih, Option.map_map]
        congr 1
        funext pieces
        simp [Zone.piece]

/-! ### The pieces of a text -/

theorem source_map_char (text : Text) : (text.map Piece.char).flatMap Piece.source = text := by
  induction text with
  | nil => rfl
  | cons c text ih => exact congrArg (c :: ·) ih

theorem source_map_code (text : Text) : (text.map Piece.code).flatMap Piece.source = text := by
  induction text with
  | nil => rfl
  | cons c text ih => exact congrArg (c :: ·) ih

theorem fence_ne_nil : fence ≠ [] := by decide

/-- The pieces show the text. -/
theorem source_spansFrom (fuel : Nat) (raw : Text) (hfuel : raw.length ≤ fuel) :
    (spansFrom fuel raw).flatMap Piece.source = raw := by
  induction fuel generalizing raw with
  | zero =>
    rw [List.eq_nil_of_length_eq_zero (Nat.le_zero.mp hfuel)]
    rfl
  | succ fuel ih =>
    cases raw with
    | nil => rfl
    | cons c raw =>
      rw [spansFrom]
      rw [List.length_cons] at hfuel
      split_ifs with hfence htick
      · obtain ⟨more, hmore⟩ := List.isPrefixOf_iff_prefix.mp hfence
        have hdrop : c :: raw = fence ++ raw.drop 2 := by
          obtain ⟨rfl, rfl⟩ := List.cons.inj hmore
          rfl
        cases hcut : cut fence (raw.drop 2) with
        | none => exact source_map_char _
        | some p =>
          obtain ⟨inner, after⟩ := p
          have hlt := cut_length fence_ne_nil hcut
          rw [List.length_drop] at hlt
          simp only [List.flatMap_append, source_map_code, ih after (by omega)]
          rw [hdrop, cut_eq hcut]
          simp only [List.append_assoc]
          rfl
      · cases hcut : cut [tick] raw with
        | none => exact source_map_char _
        | some p =>
          obtain ⟨inner, after⟩ := p
          have hlt := cut_length (List.cons_ne_nil _ _) hcut
          simp only [List.flatMap_append, source_map_code, ih after (by omega)]
          rw [htick, cut_eq hcut]
          simp only [List.append_assoc]
          rfl
      · have hlength : ((c :: raw).dropWhile (· ≠ tick)).length ≤ fuel := by
          have hle : (raw.dropWhile (· ≠ tick)).length ≤ raw.length :=
            (List.dropWhile_suffix _).length_le
          rw [List.dropWhile_cons, if_pos (decide_eq_true htick)]
          omega
        rw [List.flatMap_append, source_map_char, ih _ hlength]
        exact List.takeWhile_append_dropWhile

theorem source_spans (raw : Text) : (spans raw).flatMap Piece.source = raw :=
  source_spansFrom _ raw le_rfl

theorem isMark_spansFrom (fuel : Nat) (raw : Text) : ∀ p ∈ spansFrom fuel raw, p.isMark = false := by
  have hchar : ∀ text : Text, ∀ p ∈ text.map Piece.char, p.isMark = false := by
    intro text p hp
    obtain ⟨c, -, rfl⟩ := List.mem_map.mp hp
    rfl
  have hcode : ∀ text : Text, ∀ p ∈ text.map Piece.code, p.isMark = false := by
    intro text p hp
    obtain ⟨c, -, rfl⟩ := List.mem_map.mp hp
    rfl
  induction fuel generalizing raw with
  | zero => exact fun p hp => (by cases hp)
  | succ fuel ih =>
    cases raw with
    | nil => exact fun p hp => (by cases hp)
    | cons c raw =>
      rw [spansFrom]
      split_ifs
      · cases cut fence (raw.drop 2) with
        | none => exact hchar _
        | some q =>
          intro p hp
          simp only [List.mem_append, List.mem_singleton] at hp
          rcases hp with ((rfl | hp) | rfl) | hp
          · rfl
          · exact hcode _ p hp
          · rfl
          · exact ih _ p hp
      · cases cut [tick] raw with
        | none => exact hchar _
        | some q =>
          intro p hp
          simp only [List.mem_append, List.mem_singleton] at hp
          rcases hp with ((rfl | hp) | rfl) | hp
          · rfl
          · exact hcode _ p hp
          · rfl
          · exact ih _ p hp
      · intro p hp
        rcases List.mem_append.mp hp with hp | hp
        · exact hchar _ p hp
        · exact ih _ p hp

/-! ### The language of a code block -/

/-- What is before the first backtick is escaped. -/
theorem escape_split (raw : Text) : ∃ fuel, (raw.dropWhile (· ≠ tick)).length ≤ fuel ∧
    escapeMarkdownV2 raw = escapeOutside (raw.takeWhile (· ≠ tick)) ++
      escapeMarkdownFrom fuel (raw.dropWhile (· ≠ tick)) := by
  cases raw with
  | nil => exact ⟨0, le_rfl, rfl⟩
  | cons c raw =>
    by_cases htick : c = tick
    · subst htick
      refine ⟨(tick :: raw).length, (List.dropWhile_suffix _).length_le, ?_⟩
      rw [List.takeWhile_cons, List.dropWhile_cons, if_neg (by simp), if_neg (by simp)]
      rfl
    · have hfence : ¬ fence.isPrefixOf (c :: raw) = true := by
        intro h
        obtain ⟨more, hmore⟩ := List.isPrefixOf_iff_prefix.mp h
        exact htick (List.cons.inj hmore).1.symm
      refine ⟨raw.length, ?_, ?_⟩
      · rw [List.dropWhile_cons, if_pos (decide_eq_true htick)]
        exact (List.dropWhile_suffix _).length_le
      · rw [escapeMarkdownV2, List.length_cons, escapeMarkdownFrom, if_neg hfence, if_neg htick]

theorem dropWhile_tick (raw : Text) : raw.dropWhile (· ≠ tick) = [] ∨
    ∃ rest, raw.dropWhile (· ≠ tick) = tick :: rest := by
  cases hdrop : raw.dropWhile (· ≠ tick) with
  | nil => exact .inl rfl
  | cons c rest =>
    have hc := List.head_dropWhile_not (· ≠ tick) (by rw [hdrop]; exact List.cons_ne_nil _ _)
    simp only [hdrop, List.head_cons, decide_eq_false_iff_not, not_not] at hc
    exact .inr ⟨rest, by rw [hc]⟩

theorem escape_of_not_opensCode {raw : Text} (h : ¬ OpensCode raw) :
    escapeMarkdownV2 raw = escapeOutside raw := by
  obtain ⟨fuel, hfuel, hescape⟩ := escape_split raw
  have hraw : escapeOutside raw = escapeOutside (raw.takeWhile (· ≠ tick)) ++
      escapeOutside (raw.dropWhile (· ≠ tick)) := by
    rw [escapeOutside, escapeOutside, escapeOutside, ← escapeEach_append,
      List.takeWhile_append_dropWhile]
  rw [hescape, hraw]
  congr 1
  rw [OpensCode] at h
  rcases dropWhile_tick raw with hnil | ⟨rest, hrest⟩
  · rw [hnil]
    cases fuel <;> rfl
  · rw [hrest] at h hfuel ⊢
    cases fuel with
    | zero => cases hfuel
    | succ fuel =>
      rw [escapeMarkdownFrom]
      dsimp only at h
      split_ifs at h ⊢ with hfence htick
      · rw [cut_eq_none_iff.mpr h]
      · have hcut : cut [tick] rest = none :=
          cut_eq_none_iff.mpr fun hin => h (hin.subset List.mem_cons_self)
        rw [hcut]
      · exact absurd rfl htick

theorem escape_of_opensCode {raw : Text} (h : OpensCode raw) :
    ∃ front back out, raw = front ++ tick :: back ∧
      escapeMarkdownV2 raw = escapeOutside front ++ tick :: out := by
  obtain ⟨fuel, hfuel, hescape⟩ := escape_split raw
  rw [OpensCode] at h
  rcases dropWhile_tick raw with hnil | ⟨rest, hrest⟩
  · rw [hnil] at h
    cases h
  · rw [hrest] at h hfuel hescape
    have hraw : raw = raw.takeWhile (· ≠ tick) ++ tick :: rest := by
      rw [← hrest, List.takeWhile_append_dropWhile]
    have hout : ∃ out, escapeMarkdownFrom fuel (tick :: rest) = tick :: out := by
      cases fuel with
      | zero => cases hfuel
      | succ fuel =>
        rw [escapeMarkdownFrom]
        dsimp only at h
        split_ifs at h ⊢ with hfence htick
        · cases hcut : cut fence (rest.drop 2) with
          | none => exact absurd h (cut_eq_none_iff.mp hcut)
          | some p => exact ⟨_, rfl⟩
        · cases hcut : cut [tick] rest with
          | none =>
            obtain ⟨front, back, rfl⟩ := List.append_of_mem h
            exact absurd ⟨front, back, by simp⟩ (cut_eq_none_iff.mp hcut)
          | some p => exact ⟨_, rfl⟩
        · exact absurd rfl htick
    obtain ⟨out, hout⟩ := hout
    exact ⟨_, rest, out, hraw, by rw [hescape, hout]⟩

/-! ### Blocks -/

/-- The text is read as the pieces, before the end of a block. -/
def Reads (out : Text) (pieces : List Piece) : Prop :=
  ∀ rest, EndsBlock rest → readFrom .text .ready (out ++ rest) =
    (readFrom .text .ready rest).map (pieces ++ ·)

/-- The text is not read as the pieces. -/
def Misreads (out : Text) (pieces : List Piece) : Prop :=
  ∀ rest more, readFrom .text .ready (out ++ rest) ≠ some (pieces ++ more)

theorem EndsBlock.head_ne {rest : Text} (h : EndsBlock rest) {c : CodeUnit} (hc : c ≠ 10) :
    rest.head? ≠ some c := by
  rcases h with rfl | ⟨more, rfl⟩
  · exact fun h => (by cases h)
  · exact fun h => hc (Option.some.inj h).symm

theorem reads_escape (raw : Text) : Reads (escapeMarkdownV2 raw) (spans raw) :=
  fun _ hrest => read_escapeMarkdown (hrest.head_ne (by decide)) _ raw

theorem readFrom_chars {text : Text} (h : ∀ c ∈ text, Bare .text c) (rest : Text) :
    readFrom .text .ready (text ++ rest) =
      (readFrom .text .ready rest).map (text.map .char ++ ·) := by
  induction text with
  | nil => cases hrest : readFrom .text .ready rest <;> simp [hrest]
  | cons c text ih =>
    rw [List.cons_append, readFrom_bare (h c List.mem_cons_self),
      ih fun d hd => h d (List.mem_cons_of_mem c hd), Option.map_map]
    rfl

/-- A newline and more of them. -/
def Breaks (separator : Text) : Prop := ∃ n, separator = List.replicate (n + 1) 10

theorem Breaks.endsBlock {separator : Text} (h : Breaks separator) (rest : Text) :
    EndsBlock (separator ++ rest) := by
  obtain ⟨n, rfl⟩ := h
  exact .inr ⟨List.replicate n 10 ++ rest, rfl⟩

theorem Breaks.bare {separator : Text} (h : Breaks separator) :
    ∀ c ∈ separator, Bare .text c := by
  obtain ⟨n, rfl⟩ := h
  intro c hc
  rw [List.eq_of_mem_replicate hc]
  exact ⟨by decide, by decide⟩

section
variable {ι : Type} {out : ι → Text} {pieces : ι → List Piece} {separator : Text}

/-- What is joined is read in turn. -/
theorem reads_intercalate (hsep : Breaks separator) {xs : List ι}
    (h : ∀ x ∈ xs, Reads (out x) (pieces x)) :
    Reads (separator.intercalate (xs.map out))
      ((separator.map Piece.char).intercalate (xs.map pieces)) := by
  induction xs with
  | nil =>
    intro rest _
    cases hread : readFrom .text .ready rest <;> simp [List.intercalate, hread]
  | cons x xs ih =>
    cases xs with
    | nil => simpa [List.intercalate] using h x List.mem_cons_self
    | cons y xs =>
      intro rest hrest
      have htail := ih (fun z hz => h z (List.mem_cons_of_mem x hz)) rest hrest
      have hx := h x List.mem_cons_self
        (separator ++ (separator.intercalate ((y :: xs).map out) ++ rest)) (hsep.endsBlock _)
      simp only [List.map_cons, List.intercalate_cons_cons, List.append_assoc] at htail hx ⊢
      rw [hx, readFrom_chars hsep.bare, htail, Option.map_map, Option.map_map]
      congr 1

/-- **What is joined is read as the pieces exactly where each part is.** -/
theorem read_intercalate_iff (hsep : Breaks separator) {safe : ι → Prop} (xs : List ι)
    (h : ∀ x, safe x → Reads (out x) (pieces x)) (h' : ∀ x, ¬ safe x → Misreads (out x) (pieces x)) :
    readMarkdown (separator.intercalate (xs.map out)) =
        some ((separator.map Piece.char).intercalate (xs.map pieces)) ↔ ∀ x ∈ xs, safe x := by
  constructor
  · intro hread
    rw [readMarkdown] at hread
    induction xs with
    | nil => exact fun x hx => (by cases hx)
    | cons x xs ih =>
      have hx : safe x := by
        by_contra hunsafe
        cases xs with
        | nil =>
          refine h' x hunsafe [] [] ?_
          simpa [List.intercalate] using hread
        | cons y xs =>
          simp only [List.map_cons, List.intercalate_cons_cons, List.append_assoc] at hread
          exact h' x hunsafe _ _ hread
      have hxs : ∀ y ∈ xs, safe y := by
        cases xs with
        | nil => exact fun y hy => (by cases hy)
        | cons y xs =>
          refine ih ?_
          simp only [List.map_cons, List.intercalate_cons_cons, List.append_assoc] at hread ⊢
          rw [h x hx _ (hsep.endsBlock _), readFrom_chars hsep.bare, Option.map_map] at hread
          obtain ⟨found, hfound, heq⟩ := Option.map_eq_some_iff.mp hread
          rw [hfound]
          exact congrArg some (List.append_cancel_left (List.append_cancel_left heq))
      intro y hy
      rcases List.mem_cons.mp hy with rfl | hy
      · exact hx
      · exact hxs y hy
  · intro hsafe
    have hreads := reads_intercalate hsep (fun x hx => h x (hsafe x hx)) [] (.inl rfl)
    rw [List.append_nil] at hreads
    rw [readMarkdown, hreads]
    exact congrArg some (List.append_nil _)

end

theorem reads_heading (text : Text) :
    Reads (units "*" ++ escapeMarkdownV2 text ++ units "*")
      ([.mark .bold] ++ spans text ++ [.mark .bold]) := by
  intro rest hrest
  have hstar : units "*" = [unit '*'] := by decide
  have hclose : ((unit '*' :: rest : Text)).head? ≠ some tick := fun h =>
    absurd (Option.some.inj h) (by decide)
  rw [hstar, List.append_assoc, List.append_assoc, List.singleton_append, List.singleton_append,
    readFrom_bold, escapeMarkdownV2, read_escapeMarkdown hclose, readFrom_bold, Option.map_map,
    Option.map_map]
  congr 1
  funext found
  simp [spans]

theorem reads_context {text : Text} (htext : text ≠ []) :
    Reads (units "_" ++ escapeMarkdownV2 text ++ units "_")
      ([.mark .italic] ++ spans text ++ [.mark .italic]) := by
  intro rest hrest
  have hunder : units "_" = [unit '_'] := by decide
  have hclose : ((unit '_' :: rest : Text)).head? ≠ some tick := fun h =>
    absurd (Option.some.inj h) (by decide)
  have hopen : (escapeMarkdownV2 text ++ unit '_' :: rest).head? ≠ some (unit '_') := by
    obtain ⟨c, raw, rfl⟩ := List.exists_cons_of_ne_nil htext
    obtain ⟨d, more, heq, hd⟩ := escapeMarkdown_head raw.length c raw
    rw [escapeMarkdownV2, List.length_cons, heq]
    intro h
    obtain rfl := Option.some.inj h
    rcases hd with hd | ⟨rfl, hd | hd⟩
    · exact absurd hd (by decide)
    · exact absurd hd (by decide)
    · exact hd (by decide)
  rw [hunder, List.append_assoc, List.append_assoc, List.singleton_append, List.singleton_append,
    readFrom_italic hopen, escapeMarkdownV2, read_escapeMarkdown hclose,
    readFrom_italic (hrest.head_ne (by decide)), Option.map_map, Option.map_map]
  congr 1
  funext found
  simp [spans]

/-- An empty context is two underscores, which are one mark. -/
theorem misreads_context : Misreads (units "_" ++ escapeMarkdownV2 [] ++ units "_")
    ([.mark .italic] ++ spans [] ++ [.mark .italic]) := by
  intro rest more h
  have hout : units "_" ++ escapeMarkdownV2 [] ++ units "_" = [unit '_', unit '_'] := by decide
  rw [hout, List.cons_append, List.singleton_append, readFrom_underline] at h
  obtain ⟨found, -, heq⟩ := Option.map_eq_some_iff.mp h
  cases heq

theorem reads_bulleted (items : List Text) : Reads (bulleted (items.map escapeMarkdownV2))
    ((chars "\n").intercalate (items.map fun item => chars "• " ++ spans item)) := by
  have hbreaks : Breaks (units "\n") := ⟨0, by decide⟩
  have hbullet : ∀ c ∈ units "• ", Bare .text c := by
    have hall : ((units "• ").all fun c => decide (c ≠ backslash) && decide (c ∉ reserved)) =
        true := by decide
    intro c hc
    have h := List.all_eq_true.mp hall c hc
    simp only [Bool.and_eq_true, decide_eq_true_eq] at h
    exact h
  have hitem : ∀ item ∈ items, Reads (units "• " ++ escapeMarkdownV2 item)
      (chars "• " ++ spans item) := by
    intro item _ rest hrest
    rw [List.append_assoc, readFrom_chars hbullet, reads_escape item rest hrest, Option.map_map]
    congr 1
  have hreads := reads_intercalate hbreaks hitem
  rw [bulleted, join, List.map_map]
  exact hreads

/-! ### Code blocks -/

/-- The text of a code block, from its fence on. -/
theorem fenced_append (lang text rest : Text) : fenced lang text ++ rest =
    fence ++ (lang ++ 10 :: (text ++ 10 :: (fence ++ rest))) := by
  have hfence : units "```" = fence := by decide
  have hnewline : units "\n" = [10] := by decide
  have hclose : units "\n```" = 10 :: fence := by decide
  rw [fenced, hfence, hnewline, hclose]
  simp only [List.append_assoc, List.cons_append, List.nil_append]

theorem bare_newline : Bare .pre 10 := ⟨by decide, by decide⟩

theorem reads_code {lang text escaped : Text} (hslash : backslash ∉ text) (htick : tick ∉ text)
    (hlang : escaped = escapeOutside lang) : Reads (fenced escaped text)
      ([.opensPre] ++ (lang ++ units "\n" ++ text ++ units "\n").map .code ++ [.closesPre]) := by
  intro rest _
  have hplain : ∀ c ∈ text, decide (c ∈ INSIDE_CODE_ESCAPES) = false := by
    intro c hc
    refine decide_eq_false fun hmem => ?_
    rcases List.mem_cons.mp hmem with rfl | hmem
    · exact hslash hc
    · exact htick (List.mem_singleton.mp hmem ▸ hc)
  have htext : escapeInsideCode text = text := escapeEach_of_plain hplain
  have hnewline : units "\n" = [10] := by decide
  have hread := read_escapeInsideCode (.inr rfl) text (10 :: (fence ++ rest))
  rw [htext] at hread
  rw [fenced_append, hlang, readFrom_opensPre, read_escapeOutside, readFrom_bare bare_newline,
    hread, readFrom_bare bare_newline, readFrom_closesPre]
  simp only [Option.map_map, hnewline]
  congr 1
  funext found
  simp [Zone.piece]

/-- Where the language opens code, it is not read as itself. -/
theorem not_opensCode_of_read {lang rest : Text} {more : List Piece}
    (h : readFrom .pre .ready (escapeMarkdownV2 lang ++ rest) = some (lang.map .code ++ more)) :
    ¬ OpensCode lang := by
  intro hopens
  obtain ⟨front, back, out, hlang, hescape⟩ := escape_of_opensCode hopens
  rw [hescape, List.append_assoc, read_escapeOutside] at h
  obtain ⟨found, hfound, heq⟩ := Option.map_eq_some_iff.mp h
  rw [hlang, List.map_append, List.append_assoc] at heq
  obtain rfl := List.append_cancel_left heq
  rw [List.cons_append] at hfound
  cases hgoes : goesOn (out ++ rest) with
  | false =>
    rw [readFrom_pre_tick hgoes] at hfound
    cases hfound
  | true =>
    have hclose : step .pre tick (out ++ rest) .ready = some ([.closesPre], .text, .skip 1) := by
      rw [step, if_neg (by decide), stepZone, stepPre, if_pos rfl, hgoes]
      rfl
    rw [readFrom_step hclose] at hfound
    obtain ⟨found, -, heq⟩ := Option.map_eq_some_iff.mp hfound
    cases heq

/-- A code block that is read as its text has nothing to escape. -/
theorem plain_of_read_code {lang text rest : Text} {more : List Piece}
    (h : readFrom .text .ready (fenced (escapeMarkdownV2 lang) text ++ rest) =
      some ([.opensPre] ++ (lang ++ units "\n" ++ text ++ units "\n").map .code ++ [.closesPre] ++
        more)) : backslash ∉ text ∧ tick ∉ text ∧ ¬ OpensCode lang := by
  have hnewline : units "\n" = [10] := by decide
  rw [fenced_append, readFrom_opensPre, hnewline] at h
  obtain ⟨found, hfound, heq⟩ := Option.map_eq_some_iff.mp h
  have hpieces : found = lang.map .code ++ ((10 :: (text ++ [10])).map .code ++ .closesPre :: more) := by
    simpa using heq
  rw [hpieces] at hfound
  have hlang := not_opensCode_of_read hfound
  rw [escape_of_not_opensCode hlang, read_escapeOutside] at hfound
  obtain ⟨found', hfound', heq'⟩ := Option.map_eq_some_iff.mp hfound
  obtain rfl := List.append_cancel_left heq'
  rw [readFrom_bare bare_newline] at hfound'
  obtain ⟨pieces, htail, htext⟩ := code_cons hfound'
  obtain ⟨-, rfl⟩ := List.cons.inj htail
  obtain ⟨hslash, htick⟩ := (length_pre htext).2 (by rw [List.length_append]; rfl)
  exact ⟨hslash, htick, hlang⟩

/-! ### Messages -/

theorem getD_map_escape (lang : Option Text) :
    ((truthyText lang).map escapeMarkdownV2).getD [] =
      escapeMarkdownV2 ((truthyText lang).getD []) := by
  cases truthyText lang <;> rfl

theorem reads_of_safe {block : RichBlock} (h : Safe block) :
    Reads (renderBlockToMarkdown block) (shownBlock block) := by
  cases block with
  | heading text => exact reads_heading text
  | paragraph text => exact reads_escape text
  | code text lang =>
    obtain ⟨hslash, htick, hlang⟩ := h
    rw [renderBlockToMarkdown, getD_map_escape]
    exact reads_code hslash htick (escape_of_not_opensCode hlang)
  | bulletedList items => exact reads_bulleted items
  | buttonRow buttons =>
    intro rest _
    cases hrest : readFrom .text .ready rest <;> simp [renderBlockToMarkdown, shownBlock, hrest]
  | divider =>
    intro rest _
    have hdash : units "—" = [unit '—'] := by decide
    have hbare : ∀ c ∈ units "—", Bare .text c := by
      rw [hdash]
      intro c hc
      rw [List.mem_singleton.mp hc]
      exact ⟨by decide, by decide⟩
    exact readFrom_chars hbare rest
  | image url alt => exact reads_escape _
  | context text => exact reads_context h

theorem misreads_of_not_safe {block : RichBlock} (h : ¬ Safe block) :
    Misreads (renderBlockToMarkdown block) (shownBlock block) := by
  cases block with
  | code text lang =>
    intro rest more hread
    rw [renderBlockToMarkdown, getD_map_escape] at hread
    exact h (plain_of_read_code hread)
  | context text =>
    have htext : text = [] := not_not.mp h
    rw [htext]
    exact misreads_context
  | heading text => exact absurd trivial h
  | paragraph text => exact absurd trivial h
  | bulletedList items => exact absurd trivial h
  | buttonRow buttons => exact absurd trivial h
  | divider => exact absurd trivial h
  | image url alt => exact absurd trivial h

/-- The text that is sent. -/
def TelegramPayload.sent (payload : TelegramPayload) : Option Text :=
  match payload with
  | .text sent _ => some sent
  | _ => none

theorem read_renderTelegramRich_iff (blocks : List RichBlock) :
    ((renderTelegramRich blocks).sent.bind readMarkdown = some (shownBlocks blocks)) ↔
      ∀ block ∈ blocks, Safe block := by
  have hbreaks : Breaks (units "\n\n") := ⟨1, by decide⟩
  have hreads : ∀ block, Safe block → Reads (renderBlockToMarkdown block) (shownBlock block) :=
    fun _ => reads_of_safe
  have hmisreads : ∀ block, ¬ Safe block →
      Misreads (renderBlockToMarkdown block) (shownBlock block) := fun _ => misreads_of_not_safe
  have hiff := read_intercalate_iff hbreaks (blocks.filter fun block => !block.isButtonRow) hreads
    hmisreads
  refine hiff.trans ⟨fun h block hblock => ?_, fun h block hblock =>
    h block (List.mem_of_mem_filter hblock)⟩
  cases hrow : block.isButtonRow with
  | false => exact h block (List.mem_filter.mpr ⟨hblock, by rw [hrow]; rfl⟩)
  | true =>
    cases block with
    | buttonRow buttons => trivial
    | heading _ => cases hrow
    | paragraph _ => cases hrow
    | code _ _ => cases hrow
    | bulletedList _ => cases hrow
    | divider => cases hrow
    | image _ _ => cases hrow
    | context _ => cases hrow

theorem safe_of_not_supported {caps : ChannelCapabilities} {block : RichBlock}
    (h : isBlockSupported caps block = false) : Safe block := by
  cases block with
  | buttonRow buttons => trivial
  | image url alt => trivial
  | heading _ => cases h
  | paragraph _ => cases h
  | code _ _ => cases h
  | bulletedList _ => cases h
  | divider => cases h
  | context _ => cases h

/-- What is not supported needs no escaping. -/
theorem forall_safe_iff (caps : ChannelCapabilities) (blocks : List RichBlock) :
    (∀ block ∈ supportedBlocks caps blocks, Safe block) ↔ ∀ block ∈ blocks, Safe block := by
  refine ⟨fun h block hblock => ?_, fun h block hblock => h block (List.mem_of_mem_filter hblock)⟩
  cases hsupported : isBlockSupported caps block with
  | true => exact h block (List.mem_filter.mpr ⟨hblock, hsupported⟩)
  | false => exact safe_of_not_supported hsupported

/-! ### Marks and texts of what is shown -/

/-- The pieces open no mark and close none. -/
def Neutral (pieces : List Piece) : Prop :=
  ∀ more, nestedFrom [] (pieces ++ more) = nestedFrom [] more

theorem neutral_nil : Neutral [] := fun _ => rfl

theorem Neutral.append {pieces more : List Piece} (h : Neutral pieces) (h' : Neutral more) :
    Neutral (pieces ++ more) := fun rest => by rw [List.append_assoc, h, h']

theorem neutral_spans (raw : Text) : Neutral (spans raw) :=
  nestedFrom_append (isMark_spansFrom _ raw) []

theorem neutral_chars (text : String) : Neutral (chars text) := by
  refine nestedFrom_append (fun p hp => ?_) []
  obtain ⟨c, -, rfl⟩ := List.mem_map.mp hp
  rfl

theorem neutral_marked (m : Mark) (raw : Text) : Neutral ([.mark m] ++ spans raw ++ [.mark m]) := by
  intro more
  have hmarked := nestedFrom_marked (isMark_spansFrom raw.length raw) m more
  simpa [spans] using hmarked

theorem neutral_intercalate {separator : List Piece} (hsep : Neutral separator)
    {parts : List (List Piece)} (h : ∀ part ∈ parts, Neutral part) :
    Neutral (separator.intercalate parts) := by
  induction parts with
  | nil => exact neutral_nil
  | cons part parts ih =>
    have hpart := h part List.mem_cons_self
    have hparts := ih fun p hp => h p (List.mem_cons_of_mem part hp)
    cases parts with
    | nil => simpa [List.intercalate] using hpart
    | cons next parts =>
      rw [List.intercalate_cons_cons]
      exact (hpart.append hsep).append hparts

theorem neutral_shownBlock (block : RichBlock) : Neutral (shownBlock block) := by
  cases block with
  | heading text => exact neutral_marked .bold text
  | paragraph text => exact neutral_spans text
  | code text lang =>
    refine nestedFrom_append (fun p hp => ?_) []
    simp only [shownBlock, List.mem_append, List.mem_singleton] at hp
    rcases hp with (rfl | hp) | rfl
    · rfl
    · obtain ⟨c, -, rfl⟩ := List.mem_map.mp hp
      rfl
    · rfl
  | bulletedList items =>
    refine neutral_intercalate (neutral_chars _) fun part hpart => ?_
    obtain ⟨item, -, rfl⟩ := List.mem_map.mp hpart
    exact (neutral_chars _).append (neutral_spans item)
  | buttonRow buttons => exact neutral_nil
  | divider => exact neutral_chars _
  | image url alt => exact neutral_spans _
  | context text => exact neutral_marked .italic text

theorem neutral_shownBlocks (blocks : List RichBlock) : Neutral (shownBlocks blocks) := by
  refine neutral_intercalate (neutral_chars _) fun part hpart => ?_
  obtain ⟨block, -, rfl⟩ := List.mem_map.mp hpart
  exact neutral_shownBlock block

theorem source_intercalate (separator : String) (parts : List (List Piece)) :
    ((chars separator).intercalate parts).flatMap Piece.source =
      join separator (parts.map (List.flatMap Piece.source)) := by
  induction parts with
  | nil => rfl
  | cons part parts ih =>
    cases parts with
    | nil => simp [List.intercalate, join]
    | cons next parts =>
      rw [join, List.map_cons, List.map_cons, List.intercalate_cons_cons,
        List.intercalate_cons_cons, List.flatMap_append, List.flatMap_append, ih, chars,
        source_map_char]
      rfl

theorem source_shownBlock (block : RichBlock) :
    (shownBlock block).flatMap Piece.source = blockText block := by
  cases block with
  | heading text =>
    rw [shownBlock, List.flatMap_append, List.flatMap_append, source_spans]
    exact List.append_nil text
  | paragraph text => exact source_spans text
  | code text lang =>
    have hfence : units "```" = fence := by decide
    have hclose : units "\n```" = units "\n" ++ fence := by decide
    rw [shownBlock, blockText, fenced, List.flatMap_append, List.flatMap_append, source_map_code,
      hfence, hclose]
    simp [Piece.source]
  | bulletedList items =>
    rw [shownBlock, source_intercalate, blockText, bulleted, List.map_map]
    congr 1
    refine List.map_congr_left fun item _ => ?_
    rw [Function.comp_apply, List.flatMap_append, source_spans, chars, source_map_char]
  | buttonRow buttons => rfl
  | divider => exact source_map_char _
  | image url alt => exact source_spans _
  | context text =>
    rw [shownBlock, List.flatMap_append, List.flatMap_append, source_spans]
    exact List.append_nil text

theorem source_shownBlocks (blocks : List RichBlock) :
    (shownBlocks blocks).flatMap Piece.source =
      join "\n\n" ((blocks.filter fun block => !block.isButtonRow).map blockText) := by
  rw [shownBlocks, source_intercalate, List.map_map]
  congr 1
  exact List.map_congr_left fun block _ => source_shownBlock block

/-! ### What is sent -/

/-- The text that is sent is valid, and read as the pieces. -/
def SentAs (payload : TelegramPayload) (pieces : List Piece) : Prop :=
  ∃ text, payload.sent = some text ∧ readMarkdown text = some pieces ∧ Nested pieces

theorem sentAs_iff {payload : TelegramPayload} {pieces : List Piece} (h : Neutral pieces) :
    SentAs payload pieces ↔ payload.sent.bind readMarkdown = some pieces := by
  have hnested : Nested pieces := by
    have hnil := h []
    rw [List.append_nil] at hnil
    exact hnil
  constructor
  · rintro ⟨text, hsent, hread, -⟩
    rw [hsent]
    exact hread
  · intro hbind
    obtain ⟨text, hsent, hread⟩ := Option.bind_eq_some_iff.mp hbind
    exact ⟨text, hsent, hread, hnested⟩

/-- **A message is sent as a valid text** that shows each text of it in its place, exactly where
nothing in it has to be escaped that is not. -/
theorem renderTelegram_valid_iff (caps : ChannelCapabilities) (blocks : List RichBlock) :
    (SentAs (renderTelegram (.rich blocks) caps) (shown caps blocks) ↔
        ∀ block ∈ blocks, Safe block) ∧
      (shown caps blocks).flatMap Piece.source = messageText caps blocks := by
  rw [renderTelegram, shown, messageText, ← forall_safe_iff caps, capabilitiesAwareRender]
  by_cases hnone : supportedBlocks caps blocks = []
  · rw [if_pos hnone, hnone]
    refine ⟨iff_of_true ?_ fun block hblock => (by cases hblock), source_spans _⟩
    rw [sentAs_iff (neutral_spans _)]
    have hread := reads_escape (join "\n\n" (fallbackTexts caps blocks)) [] (.inl rfl)
    rw [List.append_nil] at hread
    exact hread.trans (congrArg some (List.append_nil _))
  · rw [if_neg hnone]
    split_ifs with hfallback
    · refine ⟨?_, source_shownBlocks _⟩
      rw [sentAs_iff (neutral_shownBlocks _)]
      exact read_renderTelegramRich_iff _
    · refine ⟨?_, source_shownBlocks _⟩
      rw [sentAs_iff (neutral_shownBlocks _)]
      refine (read_renderTelegramRich_iff _).trans
        ⟨fun h block hblock => h block (List.mem_append_left _ hblock), fun h block hblock => ?_⟩
      rcases List.mem_append.mp hblock with hblock | hblock
      · exact h block hblock
      · rw [List.mem_singleton.mp hblock]
        trivial

/-- **A backtick in a code block** is sent as it is, and the text is not valid. -/
theorem code_not_escaped : ¬ ∀ (caps : ChannelCapabilities) (blocks : List RichBlock),
    SentAs (renderTelegram (.rich blocks) caps) (shown caps blocks) := by
  intro h
  obtain ⟨text, hsent, hread, -⟩ := h ⟨true, true⟩ [.code [tick] none]
  have htext : (renderTelegram (.rich [.code [tick] none]) ⟨true, true⟩).sent =
      some (fence ++ [10, tick, 10] ++ fence) := by decide
  have hnone : (readMarkdown (fence ++ [10, tick, 10] ++ fence)).isNone = true := by decide
  rw [htext] at hsent
  obtain rfl := Option.some.inj hsent
  rw [hread] at hnone
  cases hnone

end Declaragent.Channels

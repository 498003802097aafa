import Declaragent.Channels.RichContent

/-!
# Channels — messages on Discord

The blocks of a message become one embed and rows of buttons.

* `renderDiscord_shows`: the title is the first heading, the footer the only context, the
  description holds the other texts in their order, and every button is in a row.
-/

namespace Declaragent.Channels
open Markup (units)

/-! ### The payload -/

structure DiscordEmbed where
  title : Option Text := none
  description : Option Text := none
  footer : Option Text := none
  image : Option Text := none

structure DiscordButton where
  style : Nat
  label : Text
  customId : Option Text
  url : Option Text

inductive DiscordPayload where
  | text (content : Text)
  | rich (content : Option Text) (embeds : List DiscordEmbed) (components : List (List DiscordButton))
  | template (name : Text) (params : List (Text × Text)) (language : Option Text)
  | file (files : List FilePart) (content : Option Text)
  | voice (files : List FilePart)

/-! ### The renderer -/

def discordStyle (btn : Button) : Nat :=
  if btn.url.isSome then 5
  else match btn.style with
    | some .primary => 1
    | some .danger => 4
    | _ => 2

def buttonToDiscord (btn : Button) : DiscordButton where
  style := discordStyle btn
  label := btn.label
  customId := if btn.url.isSome then none else some btn.id
  url := btn.url

/-- The rows of a loop that takes five buttons each turn. -/
def splitButtonsIntoRows : List Button → List (List DiscordButton)
  | [] => []
  | btn :: buttons =>
    ((btn :: buttons).take 5).map buttonToDiscord :: splitButtonsIntoRows (buttons.drop 4)
  termination_by buttons => buttons.length
  decreasing_by exact Nat.lt_succ_of_le (List.length_drop ▸ Nat.sub_le _ _)

structure DiscordParts where
  embed : DiscordEmbed := {}
  descriptionParts : List Text := []
  extraContent : List Text := []
  rows : List (List DiscordButton) := []

def DiscordParts.describe (p : DiscordParts) (part : Text) : DiscordParts :=
  { p with descriptionParts := p.descriptionParts ++ [part] }

/-- One turn of the loop. -/
def discordTurn (p : DiscordParts) : RichBlock → DiscordParts
  | .buttonRow buttons => { p with rows := p.rows ++ splitButtonsIntoRows buttons }
  | .heading text =>
    if p.embed.title.isNone then { p with embed := { p.embed with title := some text } }
    else p.describe (units "**" ++ text ++ units "**")
  | .paragraph text => p.describe text
  | .code text lang => p.describe (fenced ((truthyText lang).getD []) text)
  | .bulletedList items => p.describe (bulleted items)
  | .divider => p.describe (units "—")
  | .image url alt =>
    if p.embed.image.isNone then { p with embed := { p.embed with image := some url } }
    else { p with
      extraContent := p.extraContent ++ [blockToFallbackText (.image url alt)] }
  | .context text => { p with embed := { p.embed with footer := some text } }

def DiscordEmbed.hasKey (embed : DiscordEmbed) : Bool :=
  embed.title.isSome || embed.description.isSome || embed.footer.isSome || embed.image.isSome

def renderDiscord (caps : ChannelCapabilities) (content : ChannelMessageContent) : DiscordPayload :=
  match capabilitiesAwareRender caps content with
  | .text text => .text text
  | .rich blocks =>
    let p := blocks.foldl discordTurn {}
    let embed := { p.embed with description := joinSome "\n\n" p.descriptionParts }
    .rich (joinSome "\n" p.extraContent) (if embed.hasKey then [embed] else []) p.rows
  | .template name params language => .template name params language
  | .file file caption => .file [⟨file.name.getD (units "file"), file.url, file.path⟩] caption
  | .voice audio _ => .voice [⟨audio.name.getD (units "voice"), audio.url, audio.path⟩]

/-! ### What is shown -/

/-- The texts that a block has in the description. -/
def describedTexts : RichBlock → List Text
  | .buttonRow _ | .image _ _ | .context _ => []
  | block => fallbackPieces block

inductive ShownOnDiscord : List RichBlock → DiscordPayload → Prop where
  | text {text : Text} : ShownOnDiscord [.paragraph text] (.text text)
  | rich {blocks : List RichBlock} {content : Option Text} {embeds : List DiscordEmbed}
      {embed : DiscordEmbed} {rows : List (List DiscordButton)} :
      embed = embeds.headD {} →
      embed.title = (blocks.filterMap headingText).head? →
      Holds ((withoutSlot headingText none blocks).flatMap describedTexts) (embed.description.getD []) →
      ((blocks.filterMap contextText).length ≤ 1 →
        embed.footer = (blocks.filterMap contextText).head?) →
      rows.flatten = (blocks.flatMap blockButtons).map buttonToDiscord →
      (∀ row ∈ rows, row.length ≤ 5) →
      ShownOnDiscord blocks (.rich content embeds rows)

/-! ### The run over the blocks -/

theorem splitButtonsIntoRows_spec (buttons : List Button) :
    (splitButtonsIntoRows buttons).flatten = buttons.map buttonToDiscord ∧
      ∀ row ∈ splitButtonsIntoRows buttons, row.length ≤ 5 := by
  fun_induction splitButtonsIntoRows buttons with
  | case1 => simp
  | case2 btn buttons ih =>
    obtain ⟨hflatten, hlength⟩ := ih
    refine ⟨?_, List.forall_mem_cons.mpr ⟨?_, hlength⟩⟩
    · rw [List.flatten_cons, hflatten, ← List.map_append, List.take_succ_cons, List.cons_append,
        List.take_append_drop]
    · rw [List.length_map]
      exact List.length_take_le 5 _

theorem flatten_rows (blocks : List RichBlock) :
    (blocks.flatMap fun block => splitButtonsIntoRows (blockButtons block)).flatten =
      (blocks.flatMap blockButtons).map buttonToDiscord := by
  induction blocks with
  | nil => rfl
  | cons block blocks ih =>
    rw [List.flatMap_cons, List.flatMap_cons, List.flatten_append, ih, List.map_append,
      (splitButtonsIntoRows_spec _).1]

/-- What a block adds to the description. -/
def describedPart : RichBlock → Option Text
  | .heading text => some (units "**" ++ text ++ units "**")
  | .paragraph text => some text
  | .code text lang => some (fenced ((truthyText lang).getD []) text)
  | .bulletedList items => some (bulleted items)
  | .divider => some (units "—")
  | _ => none

/-- What one turn does. -/
theorem discordTurn_spec (p : DiscordParts) (block : RichBlock) :
    (discordTurn p block).embed.title = p.embed.title.or (headingText block) ∧
      (discordTurn p block).embed.footer = (contextText block).or p.embed.footer ∧
      (discordTurn p block).descriptionParts = p.descriptionParts ++
        (if slotIn headingText p.embed.title block then [] else (describedPart block).toList) ∧
      (discordTurn p block).rows = p.rows ++ splitButtonsIntoRows (blockButtons block) := by
  cases block with
  | heading text =>
    cases htitle : p.embed.title <;>
      simp [discordTurn, htitle, DiscordParts.describe, headingText, contextText, slotIn,
        describedPart, blockButtons, splitButtonsIntoRows]
  | image url alt =>
    cases himage : p.embed.image <;>
      simp [discordTurn, himage, headingText, contextText, slotIn, describedPart, blockButtons,
        splitButtonsIntoRows]
  | _ =>
    simp [discordTurn, DiscordParts.describe, headingText, contextText, slotIn, describedPart,
      blockButtons, splitButtonsIntoRows]

theorem foldl_discordTurn (blocks : List RichBlock) (p : DiscordParts) :
    (blocks.foldl discordTurn p).embed.title =
        p.embed.title.or (blocks.filterMap headingText).head? ∧
      (blocks.foldl discordTurn p).embed.footer =
        (blocks.filterMap contextText).getLast?.or p.embed.footer ∧
      (blocks.foldl discordTurn p).descriptionParts = p.descriptionParts ++
        (withoutSlot headingText p.embed.title blocks).filterMap describedPart ∧
      (blocks.foldl discordTurn p).rows = p.rows ++
        blocks.flatMap fun block => splitButtonsIntoRows (blockButtons block) := by
  induction blocks generalizing p with
  | nil => simp
  | cons block blocks ih =>
    obtain ⟨htitle, hfooter, hparts, hrows⟩ := discordTurn_spec p block
    rw [List.foldl_cons, (ih _).1, (ih _).2.1, (ih _).2.2.1, (ih _).2.2.2, htitle, hfooter, hparts,
      hrows, filterMap_withoutSlot_cons, List.append_assoc, List.append_assoc, List.flatMap_cons]
    refine ⟨?_, ?_, rfl, rfl⟩
    · rw [head?_filterMap_cons, Option.or_assoc]
    · cases hcontext : contextText block with
      | none => simp [hcontext]
      | some text =>
        rw [List.filterMap_cons_some hcontext, List.getLast?_cons]
        cases (blocks.filterMap contextText).getLast? <;> rfl

theorem holds_described {block : RichBlock} {out : Text} (h : describedPart block = some out) :
    Holds (describedTexts block) out := by
  cases block with
  | heading text =>
    cases h
    exact holds_before (holds_behind "**" (by simp [words]) (.single text)) "**" (by simp [words])
  | paragraph text => cases h; exact .single _
  | code text lang => cases h; exact holds_fenced _ text
  | bulletedList items => cases h; exact holds_bulleted items
  | divider => cases h; exact holds_word "—" (by simp [words])
  | _ => cases h

theorem describedTexts_of_none {block : RichBlock} (h : describedPart block = none) :
    describedTexts block = [] := by
  cases block <;> first | rfl | cases h

theorem headD_embeds (embed : DiscordEmbed) :
    (if embed.hasKey then [embed] else []).headD {} = embed := by
  rcases embed with ⟨_ | _, _ | _, _ | _, _ | _⟩ <;> rfl

/-- **On Discord** the blocks are shown in the parts of an embed, and all buttons below it. -/
theorem renderDiscord_shows {caps : ChannelCapabilities} {content : ChannelMessageContent}
    {shown : List RichBlock} (h : RenderedAs caps content shown) :
    ShownOnDiscord shown (renderDiscord caps content) := by
  rcases h with h | ⟨text, rfl, h⟩
  · obtain ⟨htitle, hfooter, hparts, hrows⟩ := foldl_discordTurn shown {}
    have hdescription : Holds ((withoutSlot headingText none shown).flatMap describedTexts)
        (join "\n\n" (shown.foldl discordTurn {}).descriptionParts) := by
      rw [hparts]
      exact Woven.joined (mem_formatting (by simp [words])) (fun _ _ => holds_described)
        (fun _ => describedTexts_of_none) _
    rw [renderDiscord, h]
    refine .rich (headD_embeds _).symm htitle ?_ ?_ ?_ ?_
    · rwa [joinSome_getD]
    · intro hone
      refine hfooter.trans ?_
      cases hcontexts : shown.filterMap contextText with
      | nil => rfl
      | cons text rest =>
        rw [hcontexts] at hone
        rw [List.eq_nil_of_length_eq_zero (Nat.le_zero.mp (Nat.le_of_succ_le_succ hone))]
        rfl
    · rw [hrows, List.nil_append, flatten_rows]
    · intro row hrow
      rw [hrows, List.nil_append] at hrow
      obtain ⟨block, -, hmem⟩ := List.mem_flatMap.mp hrow
      exact (splitButtonsIntoRows_spec _).2 row hmem
  · rw [renderDiscord, h]
    exact .text

end Declaragent.Channels

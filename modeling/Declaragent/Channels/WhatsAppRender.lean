import Declaragent.Channels.RichContent

/-!
# Channels — messages on WhatsApp

The texts of a message become one body and its contexts a footer, with up to three buttons to reply
with or a list of up to ten rows; a message with an image becomes the image and a caption.

* `renderWhatsApp_shows`: all texts and buttons are in their places, up to the limits of the
  platform.
-/

namespace Declaragent.Channels
open Markup (units decimal)

/-! ### The payload -/

/-- A button to reply with, or a row of a list. -/
structure WhatsAppChoice where
  id : Text
  title : Text

inductive MediaType where
  | document | image | audio | video

inductive WhatsAppPayload where
  | text (body : Text)
  | buttons (body : Text) (footer : Option Text) (buttons : List WhatsAppChoice)
  | list (body : Text) (footer : Option Text) (button : Text) (rows : List WhatsAppChoice)
  | template (name language : Text) (params : List (Text × Text))
  | media (mediaType : MediaType) (url path caption : Option Text)

/-! ### The renderer -/

def truncate (text : Text) (max : Nat) : Text :=
  if text.length ≤ max then text else text.take (max - 1) ++ units "…"

def inferMediaType (mime : Option Text) : MediaType :=
  match truthyText mime with
  | none => .document
  | some mime =>
    if (units "image/").isPrefixOf mime then .image
    else if (units "audio/").isPrefixOf mime then .audio
    else if (units "video/").isPrefixOf mime then .video
    else .document

structure WhatsAppParts where
  textParts : List Text := []
  contextParts : List Text := []
  buttons : List Button := []
  imageUrl : Option Text := none

def WhatsAppParts.say (p : WhatsAppParts) (part : Text) : WhatsAppParts :=
  { p with textParts := p.textParts ++ [part] }

/-- One turn of the loop. -/
def whatsAppTurn (p : WhatsAppParts) : RichBlock → WhatsAppParts
  | .buttonRow buttons => { p with buttons := p.buttons ++ buttons }
  | .heading text => p.say (units "*" ++ text ++ units "*")
  | .paragraph text => p.say text
  | .code text _ => p.say text
  | .bulletedList items => p.say (bulleted items)
  | .divider => p.say (units "—")
  | .image url alt =>
    if p.imageUrl.isNone then { p with imageUrl := some url }
    else p.say (blockToFallbackText (.image url alt))
  | .context text => { p with contextParts := p.contextParts ++ [text] }

/-- `bodyText || ' '`. -/
def bodyOrBlank (bodyText : Text) : Text := if bodyText = [] then units " " else bodyText

/-- A button behind the ten of a list. -/
def extraText (i : Nat) (btn : Button) : Text :=
  units "(" ++ decimal (10 + i + 1) ++ units ") " ++ btn.label

/-- What is made of the parts. -/
def WhatsAppParts.payload (p : WhatsAppParts) : WhatsAppPayload :=
  let bodyText := join "\n\n" p.textParts
  let footerText := joinSome " · " p.contextParts
  match p.imageUrl with
  | some url =>
    .media .image (some url) none (if bodyText = [] then none else some (truncate bodyText 1024))
  | none =>
    if p.buttons = [] then
      .text (truncate (if bodyText = [] then footerText.getD [] else bodyText) 1024)
    else if p.buttons.length ≤ 3 then
      .buttons (truncate (bodyOrBlank bodyText) 1024) (footerText.map (truncate · 60))
        (p.buttons.map fun btn => ⟨btn.id, truncate btn.label 20⟩)
    else
      let textParts :=
        if 10 < p.buttons.length then
          p.textParts ++ [join "\n" ((p.buttons.drop 10).mapIdx extraText)]
        else p.textParts
      .list (truncate (bodyOrBlank (join "\n\n" textParts)) 1024) (footerText.map (truncate · 60))
        (units "Choose") ((p.buttons.take 10).map fun btn => ⟨btn.id, truncate btn.label 24⟩)

def renderWhatsApp (caps : ChannelCapabilities) (content : ChannelMessageContent) :
    WhatsAppPayload :=
  match capabilitiesAwareRender caps content with
  | .text text => .text (truncate text 1024)
  | .rich blocks => (blocks.foldl whatsAppTurn {}).payload
  | .template name params language => .template name (language.getD (units "en_US")) params
  | .file file caption => .media (inferMediaType file.mimeType) file.url file.path caption
  | .voice audio _ => .media .audio audio.url audio.path none

/-! ### What is shown -/

/-- The texts that a block has in the body. -/
def saidTexts : RichBlock → List Text
  | .buttonRow _ | .context _ => []
  | .code text _ => [text]
  | block => fallbackPieces block

/-- The text holds the texts, up to so many code units. -/
def HoldsTruncated (max : Nat) (texts : List Text) (out : Text) : Prop :=
  ∃ whole, Holds texts whole ∧ out = truncate whole max

/-- A text takes the place of a body, an image the place of buttons and a footer: what is shown of
the contexts beside a text, and of buttons and contexts beside an image, is left open. -/
inductive ShownOnWhatsApp (blocks : List RichBlock) : WhatsAppPayload → Prop where
  | text {body : Text} :
      (blocks.filterMap imageUrl).head? = none → blocks.flatMap blockButtons = [] →
      (blocks.filterMap contextText = [] → HoldsTruncated 1024 (blocks.flatMap saidTexts) body) →
      ((∀ block ∈ blocks, (contextText block).isSome) →
        HoldsTruncated 1024 (blocks.filterMap contextText) body) →
      ShownOnWhatsApp blocks (.text body)
  | buttons {body : Text} {footer : Option Text} :
      (blocks.filterMap imageUrl).head? = none → blocks.flatMap blockButtons ≠ [] →
      (blocks.flatMap blockButtons).length ≤ 3 →
      HoldsTruncated 1024 (blocks.flatMap saidTexts) body →
      HoldsTruncated 60 (blocks.filterMap contextText) (footer.getD []) →
      ShownOnWhatsApp blocks (.buttons body footer ((blocks.flatMap blockButtons).map fun btn =>
        ⟨btn.id, truncate btn.label 20⟩))
  | list {body button : Text} {footer : Option Text} :
      (blocks.filterMap imageUrl).head? = none → 3 < (blocks.flatMap blockButtons).length →
      HoldsTruncated 1024 (blocks.flatMap saidTexts ++
        ((blocks.flatMap blockButtons).drop 10).map Button.label) body →
      HoldsTruncated 60 (blocks.filterMap contextText) (footer.getD []) →
      ShownOnWhatsApp blocks (.list body footer button
        (((blocks.flatMap blockButtons).take 10).map fun btn => ⟨btn.id, truncate btn.label 24⟩))
  | image {url : Text} {caption : Option Text} :
      (blocks.filterMap imageUrl).head? = some url →
      (blocks.flatMap blockButtons = [] → blocks.filterMap contextText = [] →
        HoldsTruncated 1024 ((withoutSlot imageUrl none blocks).flatMap saidTexts)
          (caption.getD [])) →
      ShownOnWhatsApp blocks (.media .image (some url) none caption)

/-! ### The run over the blocks -/

/-- What a block adds to the body. -/
def saidPart : RichBlock → Option Text
  | .heading text => some (units "*" ++ text ++ units "*")
  | .paragraph text | .code text _ => some text
  | .bulletedList items => some (bulleted items)
  | .divider => some (units "—")
  | .image url alt => some (blockToFallbackText (.image url alt))
  | _ => none

/-- What one turn does. -/
theorem whatsAppTurn_spec (p : WhatsAppParts) (block : RichBlock) :
    (whatsAppTurn p block).imageUrl = p.imageUrl.or (imageUrl block) ∧
      (whatsAppTurn p block).textParts = p.textParts ++
        (if slotIn imageUrl p.imageUrl block then [] else (saidPart block).toList) ∧
      (whatsAppTurn p block).contextParts = p.contextParts ++ (contextText block).toList ∧
      (whatsAppTurn p block).buttons = p.buttons ++ blockButtons block := by
  cases block with
  | image url alt =>
    cases himage : p.imageUrl <;>
      simp [whatsAppTurn, himage, WhatsAppParts.say, imageUrl, contextText, slotIn, saidPart,
        blockButtons]
  | _ =>
    simp [whatsAppTurn, WhatsAppParts.say, imageUrl, contextText, slotIn, saidPart, blockButtons]

theorem foldl_whatsAppTurn (blocks : List RichBlock) (p : WhatsAppParts) :
    (blocks.foldl whatsAppTurn p).imageUrl =
        p.imageUrl.or (blocks.filterMap imageUrl).head? ∧
      (blocks.foldl whatsAppTurn p).textParts = p.textParts ++
        (withoutSlot imageUrl p.imageUrl blocks).filterMap saidPart ∧
      (blocks.foldl whatsAppTurn p).contextParts = p.contextParts ++
        blocks.filterMap contextText ∧
      (blocks.foldl whatsAppTurn p).buttons = p.buttons ++ blocks.flatMap blockButtons := by
  induction blocks generalizing p with
  | nil => simp
  | cons block blocks ih =>
    obtain ⟨himage, hparts, hcontexts, hbuttons⟩ := whatsAppTurn_spec p block
    rw [List.foldl_cons, (ih _).1, (ih _).2.1, (ih _).2.2.1, (ih _).2.2.2, himage, hparts,
      hcontexts, hbuttons, filterMap_withoutSlot_cons, head?_filterMap_cons, List.append_assoc,
      List.append_assoc, List.append_assoc, List.flatMap_cons, Option.or_assoc]
    refine ⟨rfl, rfl, ?_, rfl⟩
    cases hcontext : contextText block <;> simp [hcontext]

theorem holds_said {block : RichBlock} {out : Text} (h : saidPart block = some out) :
    Holds (saidTexts block) out := by
  cases block with
  | heading text =>
    cases h
    exact holds_before (holds_behind "*" (by simp [words]) (.single text)) "*" (by simp [words])
  | paragraph text => cases h; exact .single _
  | code text lang => cases h; exact .single _
  | bulletedList items => cases h; exact holds_bulleted items
  | divider => cases h; exact holds_word "—" (by simp [words])
  | image url alt => cases h; exact holds_fallback (.image url alt)
  | _ => cases h

theorem saidTexts_of_none {block : RichBlock} (h : saidPart block = none) :
    saidTexts block = [] := by
  cases block <;> first | rfl | cases h

/-- The body holds what is said, also if it must not be empty. -/
theorem holds_body (blocks : List RichBlock) :
    Holds (blocks.flatMap saidTexts) (join "\n\n" (blocks.filterMap saidPart)) :=
  Woven.joined (mem_formatting (by simp [words])) (fun _ _ => holds_said)
    (fun _ => saidTexts_of_none) blocks

theorem holds_bodyOrBlank {texts : List Text} {body : Text} (h : Holds texts body) :
    Holds texts (bodyOrBlank body) := by
  rw [bodyOrBlank]
  split
  · rename_i hnil
    have hblank := holds_before h " " (by simp [words])
    rwa [hnil, List.nil_append] at hblank
  · exact h

theorem holds_footer (contexts : List Text) : Holds contexts (join " · " contexts) := by
  have h := holds_join (by simp [words] : " · " ∈ words) _ _ (fun text : Text => .single text) contexts
  rwa [List.flatMap_singleton', List.map_id'] at h

theorem footer_truncated (contexts : List Text) : HoldsTruncated 60 contexts
    (((joinSome " · " contexts).map (truncate · 60)).getD []) := by
  refine ⟨_, holds_footer contexts, ?_⟩
  rw [joinSome]
  split
  · rename_i hnil
    rw [hnil]
    rfl
  · rfl

theorem holds_extraText (i : Nat) (btn : Button) : Holds [btn.label] (extraText i btn) := by
  have hnumber := holds_behind "(" (by simp [words]) (holds_decimal (10 + i + 1))
  exact (holds_before hnumber ") " (by simp [words])).append (.single btn.label)

/-- The body of a list, with the buttons that have no row. -/
theorem holds_listBody (blocks : List RichBlock) (buttons : List Button) :
    Holds (blocks.flatMap saidTexts ++ (buttons.drop 10).map Button.label)
      (join "\n\n" (if 10 < buttons.length then
        blocks.filterMap saidPart ++ [join "\n" ((buttons.drop 10).mapIdx extraText)]
      else blocks.filterMap saidPart)) := by
  have hbody := holds_body blocks
  by_cases hmany : 10 < buttons.length
  · have hextras := holds_numbered (by simp [words] : "\n" ∈ words) _ _ holds_extraText
      (buttons.drop 10)
    rw [← List.map_eq_flatMap] at hextras
    rw [if_pos hmany]
    exact hbody.joined_concat (mem_formatting (by simp [words])) hextras
  · rw [if_neg hmany, List.drop_eq_nil_of_le (Nat.le_of_not_lt hmany)]
    rwa [List.map_nil, List.append_nil]

/-- **On WhatsApp** the blocks are shown as a text, an image, or a body with buttons. -/
theorem renderWhatsApp_shows {caps : ChannelCapabilities} {content : ChannelMessageContent}
    {shown : List RichBlock} (h : RenderedAs caps content shown) :
    ShownOnWhatsApp shown (renderWhatsApp caps content) := by
  rcases h with h | ⟨text, rfl, h⟩
  · obtain ⟨himage, hparts, hcontexts, hbuttons⟩ := foldl_whatsAppTurn shown {}
    simp only [List.nil_append, Option.none_or] at himage hparts hcontexts hbuttons
    rw [renderWhatsApp, h]
    dsimp only
    rw [WhatsAppParts.payload, himage, hparts, hcontexts, hbuttons]
    dsimp only
    cases hurl : (shown.filterMap imageUrl).head? with
    | some url =>
      refine .image hurl fun _ _ => ⟨_, holds_body _, ?_⟩
      split
      · rename_i hempty
        rw [hempty]
        rfl
      · rfl
    | none =>
      have hall : withoutSlot imageUrl none shown = shown := by
        refine List.eraseP_of_forall_not fun block hblock => ?_
        rw [List.filterMap_eq_nil_iff.mp (List.head?_eq_none_iff.mp hurl) block hblock]
        exact Bool.false_ne_true
      rw [hall]
      dsimp only
      by_cases hnone : shown.flatMap blockButtons = []
      · rw [if_pos hnone]
        refine .text hurl hnone (fun hcontexts => ⟨_, holds_body shown, ?_⟩) fun hcontexts =>
          ⟨_, holds_footer _, ?_⟩
        · split
          · rename_i hempty
            rw [hempty, hcontexts]
            rfl
          · rfl
        · have hsaid : shown.filterMap saidPart = [] := by
            refine List.filterMap_eq_nil_iff.mpr fun block hblock => ?_
            have hcontext := hcontexts block hblock
            cases block <;> first | rfl | cases hcontext
          have hempty : join "\n\n" [] = [] := rfl
          rw [hsaid, hempty, if_pos rfl, joinSome_getD]
      · rw [if_neg hnone]
        by_cases hfew : (shown.flatMap blockButtons).length ≤ 3
        · rw [if_pos hfew]
          exact .buttons hurl hnone hfew ⟨_, holds_bodyOrBlank (holds_body shown), rfl⟩
            (footer_truncated _)
        · rw [if_neg hfew]
          exact .list hurl (Nat.lt_of_not_le hfew)
            ⟨_, holds_bodyOrBlank (holds_listBody shown _), rfl⟩ (footer_truncated _)
  · rw [renderWhatsApp, h]
    exact .text rfl rfl (fun _ => ⟨text, .single text, rfl⟩) fun hcontexts =>
      (by cases hcontexts _ List.mem_cons_self)

end Declaragent.Channels

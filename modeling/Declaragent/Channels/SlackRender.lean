import Declaragent.Channels.RichContent

/-!
# Channels — messages on Slack

The blocks of a message become blocks of Slack, which are then validated.

* `slackRich_shows`: each block is shown by one of Slack's, in order; a row of buttons by its first
  five, as far as they have labels.
* `renderSlack_ok_iff`: what passes the validation.
-/

namespace Declaragent.Channels
open Markup (units)

/-! ### The payload -/

structure SlackButtonElement where
  text : Text
  actionId : Text
  style : Option ButtonStyle
  url : Option Text

inductive SlackBlock where
  | header (text : Text)
  | mrkdwn (text : Text)
  | divider
  | actions (elements : List SlackButtonElement)
  | context (elements : List Text)
  | image (imageUrl altText : Text)

inductive SlackPayload where
  | text (text : Text)
  | rich (text : Text) (blocks : List SlackBlock)
  | template (name : Text) (params : List (Text × Text)) (language : Option Text)
  | file (text : Text) (files : List FilePart)
  | voice (text : Text) (files : List FilePart)

/-! ### The validation -/

structure BlockKitValidationError where
  message : String
  path : String

def required (message : String) (length : Nat) (path : String) :
    Except BlockKitValidationError Unit :=
  if length = 0 then .error ⟨message, path⟩ else .ok ()

def within (what : String) (limit : Nat) (of : String) (length : Nat) (path : String) :
    Except BlockKitValidationError Unit :=
  if limit < length then
    .error ⟨what ++ " exceeds " ++ toString limit ++ " " ++ of ++ " (got " ++ toString length ++ ")",
      path⟩
  else .ok ()

/-- Each of a list, with its index in the path. -/
def validateEach {α : Type} (validate : String → α → Except BlockKitValidationError Unit)
    (path : String) : Nat → List α → Except BlockKitValidationError Unit
  | _, [] => .ok ()
  | i, x :: xs => do
      validate (path ++ "[" ++ toString i ++ "]") x
      validateEach validate path (i + 1) xs

def validateButton (path : String) (b : SlackButtonElement) :
    Except BlockKitValidationError Unit := do
  required "button text is required" b.text.length (path ++ ".text.text")
  within "button text" 75 "chars" b.text.length (path ++ ".text.text")
  required "button.action_id is required" b.actionId.length (path ++ ".action_id")
  within "button.action_id" 255 "chars" b.actionId.length (path ++ ".action_id")

def validateBlock (path : String) : SlackBlock → Except BlockKitValidationError Unit
  | .mrkdwn text => within "section text" 3000 "chars" text.length (path ++ ".text.text")
  | .header text => within "header text" 150 "chars" text.length (path ++ ".text.text")
  | .divider => .ok ()
  | .actions elements => do
      required "actions requires a non-empty elements array" elements.length (path ++ ".elements")
      within "actions.elements" 5 "entries" elements.length (path ++ ".elements")
      validateEach validateButton (path ++ ".elements") 0 elements
  | .context elements => do
      required "context requires a non-empty elements array" elements.length (path ++ ".elements")
      within "context.elements" 10 "entries" elements.length (path ++ ".elements")
  | .image imageUrl altText => do
      required "image.image_url is required" imageUrl.length (path ++ ".image_url")
      within "image.alt_text" 2000 "chars" altText.length (path ++ ".alt_text")

def validateBlockKit (blocks : List SlackBlock) : Except BlockKitValidationError Unit :=
  validateEach validateBlock "blocks" 0 blocks

/-! ### The renderer -/

def slackElement (btn : Button) : SlackButtonElement where
  text := btn.label.take 75
  actionId := btn.id.take 255
  style := btn.style.filter fun style => style = .primary || style = .danger
  url := btn.url

def buttonToSlack (btn : Button) : Option SlackButtonElement :=
  if btn.label.length = 0 then none else some (slackElement btn)

/-- `out` and `textParts`. -/
structure SlackRich where
  out : List SlackBlock := []
  textParts : List Text := []

def SlackRich.push (r : SlackRich) (block : SlackBlock) (parts : List Text) : SlackRich where
  out := r.out ++ [block]
  textParts := r.textParts ++ parts

/-- One turn of the loop. -/
def slackTurn (r : SlackRich) : RichBlock → SlackRich
  | .buttonRow buttons =>
    let elements := (buttons.take 5).filterMap buttonToSlack
    if elements.length = 0 then r
    else r.push (.actions elements) [join " / " (buttons.map Button.label)]
  | .heading text => r.push (.header (text.take 150)) [text]
  | .paragraph text => r.push (.mrkdwn (text.take 3000)) [text]
  | .code text lang => r.push (.mrkdwn ((fenced ((truthyText lang).getD []) text).take 3000)) [text]
  | .bulletedList items => r.push (.mrkdwn ((bulleted items).take 3000)) [join ", " items]
  | .divider => r.push .divider []
  | .image url alt => r.push (.image url (alt.getD [])) [blockToFallbackText (.image url alt)]
  | .context text => r.push (.context [text]) [text]

def renderSlack (caps : ChannelCapabilities) (content : ChannelMessageContent) :
    Except BlockKitValidationError SlackPayload :=
  match capabilitiesAwareRender caps content with
  | .text text => .ok (.text text)
  | .rich blocks => do
      let rich := blocks.foldl slackTurn {}
      validateBlockKit rich.out
      return .rich ((join " " rich.textParts).take 40000) rich.out
  | .template name params language => .ok (.template name params language)
  | .file file caption =>
    let name := file.name.getD (units "file")
    .ok (.file (caption.getD name) [⟨name, file.url, file.path⟩])
  | .voice audio _ =>
    .ok (.voice (units "voice message") [⟨audio.name.getD (units "voice"), audio.url, audio.path⟩])

/-! ### What is shown -/

/-- The text holds the texts, up to so many code units. -/
def HoldsCut (cap : Nat) (texts : List Text) (out : Text) : Prop :=
  ∃ whole, Holds texts whole ∧ out = whole.take cap

inductive SlackShows : RichBlock → SlackBlock → Prop where
  | heading {text out : Text} : HoldsCut 150 [text] out → SlackShows (.heading text) (.header out)
  | text {block : RichBlock} {out : Text} : HoldsCut 3000 (fallbackPieces block) out →
      SlackShows block (.mrkdwn out)
  | row {buttons : List Button} {elements : List SlackButtonElement} :
      elements.map (fun e => (e.text, e.actionId)) =
        ((buttons.take 5).filter fun btn => btn.label ≠ []).map
          (fun btn => (btn.label.take 75, btn.id.take 255)) →
      SlackShows (.buttonRow buttons) (.actions elements)
  | divider : SlackShows .divider .divider
  | image {url : Text} {alt : Option Text} : SlackShows (.image url alt) (.image url (alt.getD []))
  | context {text : Text} : SlackShows (.context text) (.context [text])

/-- A row of buttons is left out if none of the first five has a label. -/
def slackKeeps : RichBlock → Bool
  | .buttonRow buttons => (buttons.take 5).any fun btn => btn.label ≠ []
  | _ => true

/-- The platform takes the block: the buttons that are shown have ids, and an image has its URL and
no long description. -/
def Sendable : RichBlock → Prop
  | .buttonRow buttons => ∀ btn ∈ buttons.take 5, btn.label ≠ [] → btn.id ≠ []
  | .image url alt => url ≠ [] ∧ (alt.getD []).length ≤ 2000
  | _ => True

inductive ShownOnSlack : List RichBlock → SlackPayload → Prop where
  | text {text : Text} : ShownOnSlack [.paragraph text] (.text text)
  | rich {blocks : List RichBlock} {text : Text} {out : List SlackBlock} :
      List.Forall₂ SlackShows (blocks.filter slackKeeps) out → ShownOnSlack blocks (.rich text out)

/-! ### What passes the validation -/

section Validation

variable {ε : Type} {path : String}

theorem then_ok {a b : Except ε Unit} :
    (a >>= fun _ => b) = .ok () ↔ a = .ok () ∧ b = .ok () := by
  cases a with
  | error err => exact iff_of_false (fun h => (by cases h)) (fun h => (by cases h.1))
  | ok u => exact (and_iff_right rfl).symm

theorem required_ok {message : String} {length : Nat} :
    required message length path = .ok () ↔ length ≠ 0 := by
  rw [required]
  split <;> simp_all

theorem within_ok {what unit : String} {limit length : Nat} :
    within what limit unit length path = .ok () ↔ length ≤ limit := by
  rw [within]
  split <;> simp <;> omega

theorem validateEach_ok {α : Type} {validate : String → α → Except BlockKitValidationError Unit}
    {Valid : α → Prop} (h : ∀ path x, validate path x = .ok () ↔ Valid x) (i : Nat) (xs : List α) :
    validateEach validate path i xs = .ok () ↔ ∀ x ∈ xs, Valid x := by
  induction xs generalizing i with
  | nil => simp [validateEach]
  | cons x xs ih => rw [validateEach, then_ok, h, ih, List.forall_mem_cons]

def ValidButton (b : SlackButtonElement) : Prop :=
  b.text ≠ [] ∧ b.text.length ≤ 75 ∧ b.actionId ≠ [] ∧ b.actionId.length ≤ 255

def Valid : SlackBlock → Prop
  | .mrkdwn text => text.length ≤ 3000
  | .header text => text.length ≤ 150
  | .divider => True
  | .actions elements => elements ≠ [] ∧ elements.length ≤ 5 ∧ ∀ e ∈ elements, ValidButton e
  | .context elements => elements ≠ [] ∧ elements.length ≤ 10
  | .image imageUrl altText => imageUrl ≠ [] ∧ altText.length ≤ 2000

theorem validateButton_ok (path : String) (b : SlackButtonElement) :
    validateButton path b = .ok () ↔ ValidButton b := by
  simp [validateButton, then_ok, required_ok, within_ok, ValidButton]

theorem validateBlock_ok (path : String) (block : SlackBlock) :
    validateBlock path block = .ok () ↔ Valid block := by
  cases block <;>
    simp [validateBlock, then_ok, required_ok, within_ok, validateEach_ok validateButton_ok, Valid]

end Validation

/-! ### The run over the blocks -/

theorem filterMap_buttonToSlack (buttons : List Button) : buttons.filterMap buttonToSlack =
    (buttons.filter fun btn => btn.label ≠ []).map slackElement := by
  induction buttons with
  | nil => rfl
  | cons btn buttons ih =>
    by_cases hlabel : btn.label = []
    · rw [List.filterMap_cons_none (by simp [buttonToSlack, hlabel]), ih,
        List.filter_cons_of_neg (by simp [hlabel])]
    · rw [List.filterMap_cons_some (by simp [buttonToSlack, hlabel]; rfl), ih,
        List.filter_cons_of_pos (by simp [hlabel]), List.map_cons]

theorem validButton_slackElement {btn : Button} (h : btn.label ≠ []) :
    ValidButton (slackElement btn) ↔ btn.id ≠ [] := by
  simp [ValidButton, slackElement, h, Nat.min_le_left]

theorem slackTurn_row (r : SlackRich) (buttons : List Button) :
    (slackKeeps (.buttonRow buttons) = false ∧ Sendable (.buttonRow buttons) ∧
        slackTurn r (.buttonRow buttons) = r) ∨
      (slackKeeps (.buttonRow buttons) = true ∧ ∃ shown parts,
        slackTurn r (.buttonRow buttons) = r.push shown parts ∧
        SlackShows (.buttonRow buttons) shown ∧ (Valid shown ↔ Sendable (.buttonRow buttons))) := by
  have hlength : ((buttons.take 5).filter fun btn => btn.label ≠ []).length ≤ 5 :=
    Nat.le_trans (List.length_filter_le _ _) (List.length_take_le 5 buttons)
  have helements := filterMap_buttonToSlack (buttons.take 5)
  rw [slackTurn]
  by_cases hnone : ∀ btn ∈ buttons.take 5, btn.label = []
  · refine .inl ⟨?_, fun btn hbtn hlabel => absurd (hnone btn hbtn) hlabel, ?_⟩
    · simpa [slackKeeps] using hnone
    · rw [helements, List.filter_eq_nil_iff.mpr (by simpa using hnone)]
      rfl
  · obtain ⟨btn, hbtn, hlabel⟩ : ∃ btn ∈ buttons.take 5, btn.label ≠ [] := by
      simpa using hnone
    have hkept : btn ∈ (buttons.take 5).filter fun btn => btn.label ≠ [] :=
      List.mem_filter.mpr ⟨hbtn, by simpa using hlabel⟩
    have hne := List.ne_nil_of_mem hkept
    have hkeeps : slackKeeps (.buttonRow buttons) = true :=
      List.any_eq_true.mpr ⟨btn, hbtn, by simpa using hlabel⟩
    rw [helements, if_neg (by rw [List.length_map, List.length_eq_zero_iff]; exact hne)]
    refine .inr ⟨hkeeps, _, _, rfl, .row (by rw [List.map_map]; rfl), ?_⟩
    constructor
    · rintro ⟨-, -, hvalid⟩ btn hbtn hlabel
      refine (validButton_slackElement hlabel).mp (hvalid _ (List.mem_map_of_mem ?_))
      exact List.mem_filter.mpr ⟨hbtn, by simpa using hlabel⟩
    · intro hsend
      refine ⟨by simpa using hne, by rwa [List.length_map], fun e he => ?_⟩
      obtain ⟨btn, hmem, rfl⟩ := List.mem_map.mp he
      obtain ⟨hbtn, hlabel⟩ := List.mem_filter.mp hmem
      have hlabel' : btn.label ≠ [] := by simpa using hlabel
      exact (validButton_slackElement hlabel').mpr (hsend btn hbtn hlabel')

/-- What one turn does. -/
theorem slackTurn_cases (r : SlackRich) (block : RichBlock) :
    (slackKeeps block = false ∧ Sendable block ∧ slackTurn r block = r) ∨
      (slackKeeps block = true ∧ ∃ shown parts, slackTurn r block = r.push shown parts ∧
        SlackShows block shown ∧ (Valid shown ↔ Sendable block)) := by
  cases block with
  | buttonRow buttons =>
    exact slackTurn_row r buttons
  | heading text =>
    exact .inr ⟨rfl, _, _, rfl, .heading ⟨text, .single text, rfl⟩, by simp [Valid, Sendable, Nat.min_le_left]⟩
  | paragraph text =>
    exact .inr ⟨rfl, _, _, rfl, .text ⟨text, .single text, rfl⟩, by simp [Valid, Sendable, Nat.min_le_left]⟩
  | code text lang =>
    exact .inr ⟨rfl, _, _, rfl, .text ⟨_, holds_fenced _ text, rfl⟩, by simp [Valid, Sendable, Nat.min_le_left]⟩
  | bulletedList items =>
    exact .inr ⟨rfl, _, _, rfl, .text ⟨_, holds_bulleted items, rfl⟩, by simp [Valid, Sendable, Nat.min_le_left]⟩
  | divider => exact .inr ⟨rfl, _, _, rfl, .divider, Iff.rfl⟩
  | image url alt => exact .inr ⟨rfl, _, _, rfl, .image, Iff.rfl⟩
  | context text => exact .inr ⟨rfl, _, _, rfl, .context, by simp [Valid, Sendable]⟩

theorem slackRich_shows (blocks : List RichBlock) (r : SlackRich) :
    ∃ out, (blocks.foldl slackTurn r).out = r.out ++ out ∧
      List.Forall₂ SlackShows (blocks.filter slackKeeps) out ∧
      ((∀ shown ∈ out, Valid shown) ↔ ∀ block ∈ blocks, Sendable block) := by
  induction blocks generalizing r with
  | nil => exact ⟨[], (List.append_nil _).symm, .nil, by simp⟩
  | cons block blocks ih =>
    rw [List.foldl_cons, List.forall_mem_cons]
    rcases slackTurn_cases r block with
      ⟨hkeeps, hsend, heq⟩ | ⟨hkeeps, shown, parts, heq, hshows, hvalid⟩
    · obtain ⟨out, hout, hshow, hiff⟩ := ih r
      rw [heq, List.filter_cons_of_neg (by simp [hkeeps])]
      exact ⟨out, hout, hshow, by rw [hiff, and_iff_right hsend]⟩
    · obtain ⟨out, hout, hshow, hiff⟩ := ih (r.push shown parts)
      rw [heq, List.filter_cons_of_pos hkeeps]
      refine ⟨shown :: out, ?_, .cons hshows hshow, ?_⟩
      · rw [hout, SlackRich.push, List.append_assoc, List.singleton_append]
      · rw [List.forall_mem_cons, hiff, hvalid]

/-- **On Slack** the blocks are shown, if the platform takes them. -/
theorem renderSlack_shows {caps : ChannelCapabilities} {content : ChannelMessageContent}
    {shown : List RichBlock} (h : RenderedAs caps content shown) :
    (∀ payload, renderSlack caps content = .ok payload → ShownOnSlack shown payload) ∧
      ((∃ payload, renderSlack caps content = .ok payload) ↔ ∀ block ∈ shown, Sendable block) := by
  rcases h with h | ⟨text, rfl, h⟩
  · obtain ⟨out, hout, hshows, hvalid⟩ := slackRich_shows shown {}
    rw [renderSlack, h]
    dsimp only
    rw [hout, List.nil_append, ← hvalid, ← validateEach_ok validateBlock_ok 0 out]
    change _ ∧ ((∃ payload, (validateBlockKit out >>= fun _ => _) = Except.ok payload) ↔
      validateBlockKit out = .ok ())
    cases validateBlockKit out with
    | error err => exact ⟨fun _ h => (by cases h), by simp [bind, Except.bind]⟩
    | ok u => exact ⟨fun _ h => Except.ok.inj h ▸ .rich hshows, fun _ => rfl, fun _ => ⟨_, rfl⟩⟩
  · rw [renderSlack, h]
    refine ⟨fun _ h => Except.ok.inj h ▸ .text, fun _ => ?_, fun _ => ⟨_, rfl⟩⟩
    exact fun block hblock => List.mem_singleton.mp hblock ▸ trivial

end Declaragent.Channels

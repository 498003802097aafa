import Declaragent.Library.Markup
import Declaragent.Library.Weaving

/-!
# Channels — rich messages

A message of blocks, and what becomes of the blocks that a platform does not have: they are one
paragraph behind the others.

* `Holds`: a text has given texts once and in order, and besides them only formatting.
* `degraded`: the supported blocks are left, and the paragraph holds the texts of the others.
-/

namespace Declaragent.Channels
open RegExp (CodeUnit)
open Markup (units decimal)

/-- A text of the language: its code units. -/
abbrev Text := List CodeUnit

inductive ButtonStyle where
  | primary | secondary | danger
  deriving DecidableEq

structure Button where
  id : Text
  label : Text
  style : Option ButtonStyle
  url : Option Text
  deriving DecidableEq

inductive RichBlock where
  | heading (text : Text)
  | paragraph (text : Text)
  | code (text : Text) (lang : Option Text)
  | bulletedList (items : List Text)
  | buttonRow (buttons : List Button)
  | divider
  | image (url : Text) (alt : Option Text)
  | context (text : Text)

structure FileRef where
  name : Option Text
  mimeType : Option Text
  url : Option Text
  path : Option Text

inductive ChannelMessageContent where
  | text (text : Text)
  | rich (blocks : List RichBlock)
  | template (name : Text) (params : List (Text × Text)) (language : Option Text)
  | file (file : FileRef) (caption : Option Text)
  | voice (audio : FileRef) (durationSec : Option Nat)

/-- A file of a payload. -/
structure FilePart where
  name : Text
  url : Option Text
  path : Option Text

/-- What the renderers read of the capabilities of a channel. -/
structure ChannelCapabilities where
  supportsButtons : Bool
  supportsFileUpload : Bool

/-- `parts.join(separator)`. -/
def join (separator : String) (parts : List Text) : Text := (units separator).intercalate parts

/-- `parts.join(separator)`, where there are parts. -/
def joinSome (separator : String) (parts : List Text) : Option Text :=
  if parts = [] then none else some (join separator parts)

/-- `` `${lang}` `` where there is one that is not empty. -/
def truthyText (text : Option Text) : Option Text := text.filter (· ≠ [])

/-- Code between fences, with its language. -/
def fenced (lang text : Text) : Text :=
  units "```" ++ lang ++ units "\n" ++ text ++ units "\n```"

/-- `items.map((item) => • item).join('\n')`. -/
def bulleted (items : List Text) : Text := join "\n" (items.map (units "• " ++ ·))

def numberedButton (i : Nat) (btn : Button) : Text :=
  units "(" ++ decimal (i + 1) ++ units ") " ++ btn.label ++
    match truthyText btn.url with
    | some url => units " — " ++ url
    | none => []

def blockToFallbackText : RichBlock → Text
  | .heading text => units "*" ++ text ++ units "*"
  | .paragraph text => text
  | .code text lang => fenced ((truthyText lang).getD []) text
  | .bulletedList items => bulleted items
  | .buttonRow buttons => join "\n" (buttons.mapIdx numberedButton)
  | .divider => units "—"
  | .image url alt =>
    match truthyText alt with
    | some alt => units "[image: " ++ alt ++ units "] " ++ url
    | none => units "[image] " ++ url
  | .context text => units "_" ++ text ++ units "_"

def isBlockSupported (caps : ChannelCapabilities) : RichBlock → Bool
  | .buttonRow _ => caps.supportsButtons
  | .image _ _ => caps.supportsFileUpload
  | _ => true

/-- The texts of the blocks that are not supported. -/
def fallbackTexts (caps : ChannelCapabilities) (blocks : List RichBlock) : List Text :=
  (blocks.filter fun block => !isBlockSupported caps block).map blockToFallbackText

def supportedBlocks (caps : ChannelCapabilities) (blocks : List RichBlock) : List RichBlock :=
  blocks.filter (isBlockSupported caps)

def capabilitiesAwareRender (caps : ChannelCapabilities) :
    ChannelMessageContent → ChannelMessageContent
  | .rich blocks =>
    let supported := supportedBlocks caps blocks
    let fallback := fallbackTexts caps blocks
    if supported = [] then .text (join "\n\n" fallback)
    else if fallback = [] then .rich supported
    else .rich (supported ++ [.paragraph (join "\n\n" fallback)])
  | content => content

/-! ### Texts among formatting -/

def words : List String :=
  ["*", "**", "_", "```", "\n", "\n```", "\n\n", "• ", "—", " — ", " · ", " ", "(", ") ", "[image: ",
    "[image] ", "] "]

/-- What the renderers put around the texts. -/
def formatting : List Text :=
  words.map units ++ (List.range 10).map fun digit => [UInt16.ofNat (48 + digit)]

/-- The text holds the texts once and in order, and besides them nothing but formatting. -/
abbrev Holds (texts : List Text) (out : Text) : Prop := Woven formatting texts out

theorem mem_formatting {word : String} (h : word ∈ words) : units word ∈ formatting :=
  List.mem_append_left _ (List.mem_map_of_mem h)

theorem holds_word (word : String) (h : word ∈ words) : Holds [] (units word) :=
  .of_word (mem_formatting h)

/-- A text behind a word. -/
theorem holds_behind (word : String) (h : word ∈ words) {texts : List Text} {out : Text}
    (hout : Holds texts out) : Holds texts (units word ++ out) :=
  (holds_word word h).append hout

/-- A text before a word. -/
theorem holds_before {texts : List Text} {out : Text} (hout : Holds texts out) (word : String)
    (h : word ∈ words) : Holds texts (out ++ units word) := by
  have hword := hout.append (holds_word word h)
  rwa [List.append_nil] at hword

theorem holds_join {separator : String} (hsep : separator ∈ words) {ι : Type}
    (texts : ι → List Text) (part : ι → Text) (h : ∀ x, Holds (texts x) (part x)) (xs : List ι) :
    Holds (xs.flatMap texts) (join separator (xs.map part)) := by
  have hsome : ∀ x out, some (part x) = some out → Holds (texts x) out :=
    fun x out hout => Option.some.inj hout ▸ h x
  have hnone : ∀ x, some (part x) = none → texts x = [] := fun x hx => (by cases hx)
  have hjoined := Woven.joined (mem_formatting hsep) hsome hnone xs
  rwa [List.filterMap_eq_map'] at hjoined

/-- What is numbered. -/
theorem holds_numbered {separator : String} (hsep : separator ∈ words) {ι : Type}
    (texts : ι → List Text) (part : Nat → ι → Text) (h : ∀ i x, Holds (texts x) (part i x))
    (xs : List ι) : Holds (xs.flatMap texts) (join separator (xs.mapIdx part)) := by
  have hjoined := holds_join hsep (fun x : ι × Nat => texts x.1) (fun x => part x.2 x.1)
    (fun x => h x.2 x.1) xs.zipIdx
  have htexts : xs.zipIdx.flatMap (fun x => texts x.1) = xs.flatMap texts := by
    conv_rhs => rw [← List.zipIdx_map_fst 0 xs, List.flatMap_map]
  rw [htexts] at hjoined
  rwa [List.mapIdx_eq_zipIdx_map]

/-- A digit is one of the words. -/
theorem digit_mem {c : Char} (h : c.isDigit = true) : [RegExp.unit c] ∈ formatting := by
  have hbounds : 48 ≤ c.toNat ∧ c.toNat ≤ 57 := Char.isDigit_iff_toNat.mp h
  refine List.mem_append_right _ (List.mem_map.mpr ⟨c.toNat - 48, ?_, ?_⟩)
  · exact List.mem_range.mpr (by omega)
  · have heq : 48 + (c.toNat - 48) = c.toNat := by omega
    rw [heq, RegExp.unit]

theorem holds_decimal (n : Nat) : Holds [] (decimal n) := by
  have hdigits : ∀ c ∈ Nat.toDigits 10 n, c.isDigit = true := fun c hc =>
    Nat.isDigit_of_mem_toDigits (by decide) (by decide) hc
  rw [decimal]
  generalize Nat.toDigits 10 n = chars at hdigits
  induction chars with
  | nil => exact .nil
  | cons c chars ih =>
    have hchars := ih fun d hd => hdigits d (List.mem_cons_of_mem c hd)
    exact .word (digit_mem (hdigits c List.mem_cons_self)) hchars


theorem holds_fenced (lang text : Text) : Holds [lang, text] (fenced lang text) := by
  have hlang := holds_behind "```" (by simp [words]) (.single lang)
  have htext := (holds_before hlang "\n" (by simp [words])).append (.single text)
  exact holds_before htext "\n```" (by simp [words])

theorem holds_bulleted (items : List Text) : Holds items (bulleted items) := by
  have hitem : ∀ item, Holds [item] (units "• " ++ item) := fun item =>
    holds_behind "• " (by simp [words]) (.single item)
  have hitems := holds_join (by simp [words] : "\n" ∈ words) _ _ hitem items
  rwa [List.flatMap_singleton'] at hitems

/-! ### The blocks that a platform does not have -/

/-- The texts of a block where it is a paragraph; of a button, what it says and where it leads. -/
def fallbackPieces : RichBlock → List Text
  | .heading text | .paragraph text | .context text => [text]
  | .code text lang => [(truthyText lang).getD [], text]
  | .bulletedList items => items
  | .buttonRow buttons => buttons.flatMap fun btn => btn.label :: (truthyText btn.url).toList
  | .divider => []
  | .image url alt => (truthyText alt).toList ++ [url]

theorem holds_numberedButton (i : Nat) (btn : Button) :
    Holds (btn.label :: (truthyText btn.url).toList) (numberedButton i btn) := by
  have hnumber := holds_behind "(" (by simp [words]) (holds_decimal (i + 1))
  have hlabel := (holds_before hnumber ") " (by simp [words])).append (.single btn.label)
  rw [numberedButton]
  cases truthyText btn.url with
  | none =>
    have hout := hlabel.append Woven.nil
    exact hout
  | some url => exact hlabel.append (holds_behind " — " (by simp [words]) (.single url))

theorem holds_fallback (block : RichBlock) :
    Holds (fallbackPieces block) (blockToFallbackText block) := by
  cases block with
  | heading text =>
    exact holds_before (holds_behind "*" (by simp [words]) (.single text)) "*" (by simp [words])
  | paragraph text => exact .single text
  | code text lang => exact holds_fenced _ text
  | bulletedList items => exact holds_bulleted items
  | buttonRow buttons => exact holds_numbered (by simp [words]) _ _ holds_numberedButton buttons
  | divider => exact holds_word "—" (by simp [words])
  | image url alt =>
    rw [fallbackPieces, blockToFallbackText]
    cases truthyText alt with
    | none => exact holds_behind "[image] " (by simp [words]) (.single url)
    | some alt =>
      have halt := holds_behind "[image: " (by simp [words]) (.single alt)
      exact (holds_before halt "] " (by simp [words])).append (.single url)
  | context text =>
    exact holds_before (holds_behind "_" (by simp [words]) (.single text)) "_" (by simp [words])

/-- The blocks that a channel shows of the given ones: those that it supports and, where there are
others, a paragraph that holds their texts. -/
inductive Degraded (caps : ChannelCapabilities) (blocks : List RichBlock) : List RichBlock → Prop where
  | whole : (∀ block ∈ blocks, isBlockSupported caps block = true) → Degraded caps blocks blocks
  | tail {text : Text} :
      Holds ((blocks.filter fun block => !isBlockSupported caps block).flatMap fallbackPieces) text →
      Degraded caps blocks (supportedBlocks caps blocks ++ [.paragraph text])

/-- The content is rendered as the blocks, or as the text of the one paragraph that they are. -/
def RenderedAs (caps : ChannelCapabilities) (content : ChannelMessageContent)
    (shown : List RichBlock) : Prop :=
  capabilitiesAwareRender caps content = .rich shown ∨
    ∃ text, shown = [.paragraph text] ∧ capabilitiesAwareRender caps content = .text text

/-- **What degradation leaves** of a message. -/
theorem degraded (caps : ChannelCapabilities) (blocks : List RichBlock) :
    ∃ shown, Degraded caps blocks shown ∧ RenderedAs caps (.rich blocks) shown := by
  have htail := holds_join (by simp [words] : "\n\n" ∈ words) _ _ holds_fallback
    (blocks.filter fun block => !isBlockSupported caps block)
  simp only [RenderedAs, capabilitiesAwareRender]
  by_cases hsupported : supportedBlocks caps blocks = []
  · rw [if_pos hsupported]
    have hshown := Degraded.tail htail
    rw [hsupported] at hshown
    exact ⟨_, hshown, .inr ⟨_, rfl, rfl⟩⟩
  · rw [if_neg hsupported]
    by_cases hfallback : fallbackTexts caps blocks = []
    · have hall : ∀ block ∈ blocks, isBlockSupported caps block = true := by
        intro block hblock
        rw [fallbackTexts, List.map_eq_nil_iff] at hfallback
        simpa using List.filter_eq_nil_iff.mp hfallback block hblock
      rw [if_pos hfallback, supportedBlocks, List.filter_eq_self.mpr hall]
      exact ⟨_, .whole hall, .inl rfl⟩
    · rw [if_neg hfallback]
      exact ⟨_, .tail htail, .inl rfl⟩

/-! ### Slots -/

def headingText : RichBlock → Option Text
  | .heading text => some text
  | _ => none

def imageUrl : RichBlock → Option Text
  | .image url _ => some url
  | _ => none

def contextText : RichBlock → Option Text
  | .context text => some text
  | _ => none

def blockButtons : RichBlock → List Button
  | .buttonRow buttons => buttons
  | _ => []

/-- A slot that is free takes what the block has for it. -/
def slotIn (slot : RichBlock → Option Text) (taken : Option Text) (block : RichBlock) : Bool :=
  (slot block).isSome && taken.isNone

/-- The blocks without the first one for the slot, if it is free. -/
def withoutSlot (slot : RichBlock → Option Text) : Option Text → List RichBlock → List RichBlock
  | none, blocks => blocks.eraseP fun block => (slot block).isSome
  | some _, blocks => blocks

@[simp] theorem withoutSlot_nil (slot : RichBlock → Option Text) (taken : Option Text) :
    withoutSlot slot taken [] = [] := by
  cases taken <;> rfl

theorem filterMap_withoutSlot_cons (slot part : RichBlock → Option Text) (taken : Option Text)
    (block : RichBlock) (blocks : List RichBlock) :
    (withoutSlot slot taken (block :: blocks)).filterMap part =
      (if slotIn slot taken block then [] else (part block).toList) ++
        (withoutSlot slot (taken.or (slot block)) blocks).filterMap part := by
  cases taken with
  | some taken => cases hpart : part block <;> simp [withoutSlot, slotIn, hpart]
  | none =>
    cases hslot : slot block with
    | some text => simp [withoutSlot, slotIn, hslot]
    | none =>
      cases hpart : part block <;>
        simp [withoutSlot, slotIn, hslot, hpart]

theorem head?_filterMap_cons (slot : RichBlock → Option Text) (block : RichBlock)
    (blocks : List RichBlock) : ((block :: blocks).filterMap slot).head? =
      (slot block).or (blocks.filterMap slot).head? := by
  cases hslot : slot block <;> simp [hslot]

theorem joinSome_getD (separator : String) (parts : List Text) :
    (joinSome separator parts).getD [] = join separator parts := by
  rw [joinSome]
  split
  · rename_i hnil
    rw [hnil]
    rfl
  · rfl

end Declaragent.Channels

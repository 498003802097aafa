import Declaragent.Channels.ChatEvents
import Declaragent.Library.Escaping

/-!
# Channels — session ids

The id of a session is made of the ids of the platform, which may hold anything: a colon and a
backslash are escaped in each of them.

* `sessionId_eq_iff`: two ids are the same for the same function and the same arguments only, where
  no thread is the thread `main`.
-/

namespace Declaragent.Channels
open Escaping

/-- The id of a user's session. -/
def userSessionId (channelId platformUserId : String) : String :=
  ":".intercalate ["chat-user", escapeComponent channelId, escapeComponent platformUserId]

/-- The id of a session for one message. -/
def ephemeralSessionId (ref : ConversationRef) (uniqueSuffix : String) : String :=
  ":".intercalate [conversationSessionId ref, escapeComponent uniqueSuffix]

/-- A call of one of the three functions. -/
inductive SessionIdCall where
  | conversation (ref : ConversationRef)
  | user (channelId platformUserId : String)
  | ephemeral (ref : ConversationRef) (uniqueSuffix : String)

namespace SessionIdCall

def id : SessionIdCall → String
  | .conversation ref => conversationSessionId ref
  | .user channelId platformUserId => userSessionId channelId platformUserId
  | .ephemeral ref uniqueSuffix => ephemeralSessionId ref uniqueSuffix

/-- The call, with the thread `main` where there is none. -/
def inThread : SessionIdCall → SessionIdCall
  | .conversation ref => .conversation { ref with threadId := some (ref.threadId.getD "main") }
  | .user channelId platformUserId => .user channelId platformUserId
  | .ephemeral ref uniqueSuffix =>
    .ephemeral { ref with threadId := some (ref.threadId.getD "main") } uniqueSuffix

/-- What the id is joined of. -/
def parts : SessionIdCall → List String
  | .conversation ref =>
    ["chat", ref.channelId, ref.conversationId, ref.threadId.getD "main"]
  | .user channelId platformUserId => ["chat-user", channelId, platformUserId]
  | .ephemeral ref uniqueSuffix =>
    ["chat", ref.channelId, ref.conversationId, ref.threadId.getD "main", uniqueSuffix]

end SessionIdCall

theorem toList_escapeComponent (component : String) :
    (escapeComponent component).toList = escape '\\' ':' component.toList := by
  rw [escapeComponent, String.toList_ofList, escape]
  congr 1
  funext c
  by_cases hesc : c = '\\'
  · simp [hesc]
  · by_cases hsep : c = ':'
    · simp [hsep]
    · simp [hesc, hsep]

/-- The id joins its parts. -/
theorem toList_id (call : SessionIdCall) :
    call.id.toList = joined '\\' ':' (call.parts.map String.toList) := by
  cases call with
  | conversation ref =>
    simp only [SessionIdCall.id, SessionIdCall.parts, conversationSessionId, joined,
      String.toList_intercalate, List.map_cons, List.map_nil, toList_escapeComponent]
    rfl
  | user channelId platformUserId =>
    simp only [SessionIdCall.id, SessionIdCall.parts, userSessionId, joined,
      String.toList_intercalate, List.map_cons, List.map_nil, toList_escapeComponent]
    rfl
  | ephemeral ref uniqueSuffix =>
    simp only [SessionIdCall.id, SessionIdCall.parts, ephemeralSessionId, conversationSessionId,
      joined, String.toList_intercalate, List.map_cons, List.map_nil, toList_escapeComponent]
    simp [List.intercalate]
    rfl

theorem parts_ne_nil (call : SessionIdCall) : call.parts.map String.toList ≠ [] := by
  cases call <;> simp [SessionIdCall.parts]

/-- The parts tell the calls apart. -/
theorem inThread_eq_iff (call call' : SessionIdCall) :
    call.inThread = call'.inThread ↔ call.parts = call'.parts := by
  cases call <;> cases call' <;> simp [SessionIdCall.inThread, SessionIdCall.parts, and_assoc]

/-- **Session ids do not collide.** -/
theorem sessionId_eq_iff (call call' : SessionIdCall) :
    call.id = call'.id ↔ call.inThread = call'.inThread := by
  rw [inThread_eq_iff]
  constructor
  · intro hid
    have hjoined : joined '\\' ':' (call.parts.map String.toList) =
        joined '\\' ':' (call'.parts.map String.toList) := by
      rw [← toList_id, ← toList_id, hid]
    have hparts := joined_injective (by decide) (parts_ne_nil call) (parts_ne_nil call') hjoined
    exact List.map_injective_iff.mpr (fun _ _ => String.toList_inj.mp) hparts
  · intro hparts
    refine String.toList_inj.mp ?_
    rw [toList_id, toList_id, hparts]

end Declaragent.Channels

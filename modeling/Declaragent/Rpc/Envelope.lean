import Declaragent.Library.Json

/-!
# Rpc — the envelope

The message exchanged between agents, over payloads of any type `P`, and the body a response
carries.  An address is `agent://…` or `<transport>://…`, kept as its text.
-/

namespace Declaragent.Rpc
open JsonText

/-- The authenticator of an envelope. -/
inductive RpcAuth where
  | internal
  | hmac (keyId signature : String)
  | oidc (token : String) (keyId : Option String)
  | oauth2Client (token : String) (scope : Option String)
  deriving DecidableEq

/-- `auth.kind`. -/
def RpcAuth.kind : RpcAuth → String
  | .internal => "internal"
  | .hmac .. => "hmac"
  | .oidc .. => "oidc"
  | .oauth2Client .. => "oauth2-client"

inductive EnvelopeKind where
  | request | response | event
  deriving DecidableEq

/-- An envelope of version 1. -/
structure AgentRpcEnvelope (P : Type) where
  kind : EnvelopeKind
  messageId : String
  correlationId : String
  causedBy : Option String := none
  «from» : String
  «to» : String
  capability : String
  replyTo : Option String := none
  deadline : Option Int := none
  tenantId : Option String := none
  headers : Option (List (String × String)) := none
  payload : P
  auth : Option RpcAuth := none

/-- The error body of a response. -/
structure RpcError where
  code : String
  message : String
  details : Option Json := none

def RpcError.toJson (e : RpcError) : Json :=
  .obj ([("code", .str e.code), ("message", .str e.message)] ++
    e.details.toList.map fun d => ("details", d))

/-- What a capability answers. -/
inductive RpcRespondResult where
  | ok (data : Json)
  | error (error : RpcError)

/-- The payload of the response. -/
def RpcRespondResult.payload : RpcRespondResult → Json
  | .ok data => .obj [("ok", .bool true), ("data", data)]
  | .error e => .obj [("ok", .bool false), ("error", e.toJson)]

/-- The hook that answers a request: no reply address, no response. -/
def createRespondHook (request : AgentRpcEnvelope Json) (selfAgent : String)
    (messageId : String) (auth : RpcAuth) (result : RpcRespondResult) :
    Option (AgentRpcEnvelope Json) :=
  match request.replyTo with
  | none | some "" => none
  | some _ => some
      { kind := .response
        messageId := messageId
        correlationId := request.correlationId
        causedBy := some request.messageId
        «from» := selfAgent
        «to» := request.from
        capability := request.capability
        payload := result.payload
        tenantId := request.tenantId
        auth := some auth }

theorem createRespondHook_spec {request envelope : AgentRpcEnvelope Json}
    {selfAgent messageId : String} {auth : RpcAuth} {result : RpcRespondResult}
    (h : createRespondHook request selfAgent messageId auth result = some envelope) :
    envelope.correlationId = request.correlationId ∧ request.replyTo.isSome := by
  unfold createRespondHook at h
  split at h
  · cases h
  · cases h
  · rename_i hr
    cases h
    exact ⟨rfl, by rw [hr]; rfl⟩

end Declaragent.Rpc

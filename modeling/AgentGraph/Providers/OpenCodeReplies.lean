import AgentGraph.Domain.Json
import AgentGraph.Models.Contracts

/-! # The replies of an OpenCode server

`OpenCodeBridgeProvider` reads two replies, and tells exceptions apart by the clauses of its
`try`. Bodies are arbitrary JSON or none. `str` and `lower`, which depend on the `repr` of
Python values and on the Unicode tables, are those of the host.
-/
set_option autoImplicit false
namespace AgentGraph.OpenCode
open Models

structure Host where
  str : Json → String
  lower : String → String

/-- What the client or the decoding of a body may raise. -/
inductive Failure
  /-- `httpx.TimeoutException`. -/
  | timeout
  /-- Any other `httpx.HTTPError`. -/
  | http
  /-- `KeyError`, `TypeError` or `ValueError`, the encoding errors of Python among them. -/
  | value
  /-- Outside of these, such as `httpx.InvalidURL` or `RecursionError`. -/
  | other
deriving DecidableEq

inductive Exc
  | cancelled
  | router (error : ModelRouterError)
  | failure (failure : Failure)
deriving DecidableEq

/-- A reply and what `json()` gives on it. -/
structure Response where
  status : ℕ
  json : Except Failure Json

def routerError (code : ModelErrorCode) (message : String) : Exc := .router ⟨code,message⟩

/-- `Response.raise_for_status`. -/
def Response.raiseForStatus (response : Response) : Except Exc Unit :=
  if 200 ≤ response.status ∧ response.status < 300 then .ok () else .error (.failure .http)

/-- `_raise_status`. -/
def Response.raiseStatus (response : Response) : Except Exc Unit :=
  if response.status = 401 then .error (routerError .authenticationFailed "OpenCode authentication failed")
  else if response.status = 404 then .error (routerError .modelNotFound "OpenCode model was not found")
  else if response.status = 429 then .error (routerError .rateLimited "OpenCode rate limit exceeded")
  else response.raiseForStatus

def Response.decode (response : Response) : Except Exc Json := response.json.mapError .failure

def valueError {α : Type} : Except Exc α := .error (.failure .value)

/-- `value[key]`. -/
def subscript (value : Json) (key : String) : Except Exc Json :=
  match value with
  | .obj fields => (fields.lookup key).elim valueError .ok
  | _ => valueError

/-- The reply to `POST /session`. -/
def Response.sessionId (response : Response) : Except Exc Json := do
  response.raiseStatus
  subscript (← response.decode) "id"

/-- `bool(value)`. -/
def truthy : Json → Bool
  | .null => false
  | .bool b => b
  | .int n => n ≠ 0
  | .float x => x ≠ .finite 0
  | .str s => s ≠ ""
  | .arr items => !items.isEmpty
  | .obj fields => !fields.isEmpty

/-- `value if isinstance(value, dict) else \x7b\x7d`. -/
def dictOrEmpty (value : Json) : JsonObject := value.dict?.getD []

def unhashable : Json → Bool
  | .arr _ | .obj _ => true
  | _ => false

def occursIn (term text : String) : Bool := decide (term.toList <:+: text.toList)

/-- `_raise_message_error`. -/
def messageError (host : Host) (error : Json) : Exc :=
  let errorData := dictOrEmpty error
  let nestedData := dictOrEmpty (errorData.get "data")
  let statusCode := if truthy (errorData.get "statusCode") then errorData.get "statusCode" else nestedData.get "statusCode"
  let name := host.lower (host.str (errorData.getD "name" (.str "")))
  let text := host.lower (name ++ " " ++ host.str error)
  let raised (code : ModelErrorCode) := routerError code "OpenCode provider request failed"
  -- a list or a dict cannot be looked up in a set
  if unhashable statusCode then .failure .value
  else if statusCode.equalsInt 401 || statusCode.equalsInt 403 || occursIn "auth" text || occursIn "unauthorized" text then
    raised .authenticationFailed
  else if statusCode.equalsInt 429 || occursIn "rate" text || occursIn "quota" text then raised .rateLimited
  else if statusCode.equalsInt 404 || (occursIn "model" text && occursIn "not" text) then raised .modelNotFound
  else if occursIn "timeout" text then raised .timeout
  else if occursIn "abort" text || occursIn "cancel" text then raised .cancelled
  else raised .providerUnavailable

/-- The parts of a message that the response is built from. -/
structure Message where
  content : String
  info : JsonObject
  tokens : JsonObject

/-- The text of a part of the message. -/
def partText (part : JsonObject) : String :=
  if (part.get "type").equalsStr "text" then (part.get "text").str?.getD "" else ""

/-- The reply to `POST /session/\x7bid\x7d/message`, as far as the `try` reads it. -/
def Response.message (host : Host) (response : Response) : Except Exc Message := do
  response.raiseStatus
  let payload ← response.decode
  let info ← subscript payload "info"
  let parts ← subscript payload "parts"
  match info.dict?, parts.list? with
  | some info, some parts =>
    match parts.mapM Json.dict? with
    | none => valueError
    | some parts =>
      if truthy (info.get "error") then .error (messageError host (info.get "error"))
      else
        let content := String.join (parts.map partText)
        if content = "" then valueError
        else
          match (info.getD "tokens" (.obj [])).dict? with
          | none => valueError
          | some tokens => .ok ⟨content,info,tokens⟩
  | _, _ => valueError

/-- `optional_string`. -/
def optionalString : Json → Except ModelRouterError (Option String)
  | .null => .ok none
  | .str s => if 500 < s.length then .error ⟨.invalidResponse,"Provider returned invalid metadata"⟩ else .ok (some s)
  | _ => .error ⟨.invalidResponse,"Provider returned invalid metadata"⟩

/-- `optional_non_negative_int`. -/
def optionalNonNegativeInt : Json → Except ModelRouterError (Option ℕ)
  | .null => .ok none
  | .int n => if n < 0 then .error ⟨.invalidResponse,"Provider returned invalid usage metadata"⟩ else .ok (some n.toNat)
  | _ => .error ⟨.invalidResponse,"Provider returned invalid usage metadata"⟩

/-- `optional_string(value) or default`. -/
def stringOr (value : Json) (default : String) : Except ModelRouterError String := do
  let text ← optionalString value
  return (text.filter (· ≠ "")).getD default

/-- The response that `complete` returns behind its `try`. -/
def Message.response (message : Message) (providerId modelId : String) (latencyMs : ℕ) :
    Except ModelRouterError Models.ModelResponse := do
  let provider ← stringOr (message.info.get "providerID") providerId
  let model ← stringOr (message.info.get "modelID") modelId
  let finish ← optionalString (message.info.get "finish")
  let input ← optionalNonNegativeInt (message.tokens.get "input")
  let output ← optionalNonNegativeInt (message.tokens.get "output")
  let total ← optionalNonNegativeInt (message.tokens.get "total")
  return ⟨message.content,"opencode",provider ++ "/" ++ model,finish,⟨input,output,total⟩,some latencyMs⟩

end AgentGraph.OpenCode

import Vetting.Core.Job
import Vetting.Http.Status
import Vetting.Service.Error

/-!
The envelopes of the services' answers, and how a status and a body are classified. Every envelope
tells whether the service succeeded and carries a message. A status of 400 or more, or an envelope
that tells of failure, is a rejection; any other envelope is the answer; what cannot be decoded
under a status below 400 is an error of its own.
-/

namespace Vetting

open Text (Bytes)
open Wire

structure CoreAnswer (α : Type) where
  success : Bool
  data : Option α
  message : String
  pages : Option Meta
  status : UInt16

structure CatalogAnswer where
  success : Bool
  data : Option Json
  input : Json
  message : String
  pricingStrategy : String
  transactionId : String
  datetime : String
  status : UInt16
  deriving Inhabited

structure ScoringAnswer where
  success : Bool
  data : Option Json
  plainMessage : String
  errorMessage : Option String
  status : UInt16
  deriving Inhabited

/-- The scoring service puts the useful text into the error message on failures. -/
def ScoringAnswer.message (a : ScoringAnswer) : String :=
  match a.errorMessage with
  | some m => if m.isEmpty then a.plainMessage else m
  | none => a.plainMessage

instance {α : Type} [Form α] : Form (CoreAnswer α) where
  shape := .record "CoreEnvelope" (.req "success" flag (.req "data" (.option (Form.shape α))
    (.opt "message" text (.maybe "meta" (Form.shape Meta) .nil))))
  ofVal := fun (success, data, message, pages, ()) =>
    ⟨success, Option.map Form.ofVal data, message, Option.map Form.ofVal pages, 0⟩
  toVal a := (a.success, a.data.map Form.toVal, a.message, a.pages.map Form.toVal, ())

instance : Form CatalogAnswer where
  shape := .record "CatalogEnvelope" (.req "success" flag (.req "data" (.option .any)
    (.opt "input" .any (.opt "message" text (.opt "pricing_strategy" text
    (.opt "transaction_id" text (.opt "datetime" text .nil)))))))
  ofVal := fun (success, data, input, message, pricingStrategy, transactionId, datetime, ()) =>
    ⟨success, data, input, message, pricingStrategy, transactionId, datetime, 0⟩
  toVal a := (a.success, a.data, a.input, a.message, a.pricingStrategy, a.transactionId,
    a.datetime, ())

instance : Form ScoringAnswer where
  shape := .record "ScoringEnvelope" (.req "success" flag (.req "data" (.option .any)
    (.opt "message" text (.maybe "error_message" text .nil))))
  ofVal := fun (success, data, message, errorMessage, ()) =>
    ⟨success, data, message, errorMessage, 0⟩
  toVal a := (a.success, a.data, a.plainMessage, a.errorMessage, ())

/-- What the classification needs to know of an envelope. -/
class Envelope (ε : Type) extends Form ε where
  succeeded : ε → Bool
  message : ε → String
  withStatus : UInt16 → ε → ε
  /-- Whether the body of a rejection is kept. -/
  keepsBody : Bool

instance {α : Type} [Form α] : Envelope (CoreAnswer α) where
  succeeded a := a.success
  message a := a.message
  withStatus status a := { a with status }
  keepsBody := false

instance : Envelope CatalogAnswer where
  succeeded a := a.success
  message a := a.message
  withStatus status a := { a with status }
  keepsBody := true

instance : Envelope ScoringAnswer where
  succeeded a := a.success
  message a := a.message
  withStatus status a := { a with status }
  keepsBody := false

namespace Envelope

/-- The message for a status whose answer carries none. -/
def fallbackMessage (status : UInt16) : String :=
  (Http.phrase? status).getD ("upstream responded with status " ++ toString status.toNat)

/-- How many bytes of a body are shown in a message. -/
def shownBytes : Nat := 512

def showBody (body : Bytes) : String :=
  Text.lossy (body.take shownBytes) ++ (if body.length > shownBytes then "..." else "")

def isAsciiBlank (b : UInt8) : Bool :=
  b = 0x20 || b = 0x09 || b = 0x0A || b = 0x0C || b = 0x0D

def isFailure (status : UInt16) : Bool := 400 ≤ status

/-- The rejection that a decoded envelope tells of. -/
def rejection {ε : Type} [Envelope ε] (status : UInt16) (body : Bytes) (e : ε) : Rejection :=
  { status
    message := if (message e).isEmpty then fallbackMessage status else message e
    body := if keepsBody ε then (Json.Reader.value body).toOption else none }

/-- Decodes and classifies an answer. -/
def parse (ε : Type) [Envelope ε] (status : UInt16) (body : Bytes) : Except ServiceError ε :=
  if body.all isAsciiBlank then
    if isFailure status then .error (.rejected ⟨status, fallbackMessage status, none⟩)
    else .error (.undecodable ("empty response body with status " ++ Http.describeStatus status))
  else
    match Form.ofText ε body with
    | .error f =>
      if isFailure status then .error (.rejected ⟨status, fallbackMessage status, none⟩)
      else .error (.undecodable (f.message ++ "; body: " ++ showBody body))
    | .ok e =>
      if isFailure status || !succeeded e then .error (.rejected (rejection status body e))
      else .ok (withStatus status e)

end Envelope

/-- The data of an answer, which should be there. -/
def CoreAnswer.payload {α : Type} (a : CoreAnswer α) : Except ServiceError α :=
  match a.data with
  | some d => .ok d
  | none => .error (.undecodable "successful response without data")

end Vetting

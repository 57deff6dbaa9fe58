import Vetting.Http.Message
import Vetting.Service.Error
import Vetting.Upload

/-!
Refusals: what the desk answers to a client whose request it does not carry out. Each kind has one
HTTP status. Failures of a service become refusals of the kind that their status tells.
-/

namespace Vetting

inductive Refusal.Kind where
  | badRequest
  | unauthorized
  | forbidden
  | notFound
  | conflict
  | unprocessable
  | tooMany
  | internal
  | badGateway
  | serviceUnavailable
  | gatewayTimeout
  | unknown
  deriving DecidableEq, Repr

structure Refusal where
  kind : Refusal.Kind
  message : String
  deriving DecidableEq, Repr

namespace Refusal

/-- The status with which a data partner tells that it cannot serve requests. -/
def partnerStatus : UInt16 := 512

def Kind.status : Kind → UInt16
  | .badRequest => 400
  | .unauthorized => 401
  | .forbidden => 403
  | .notFound => 404
  | .conflict => 409
  | .unprocessable => 422
  | .tooMany => 429
  | .internal => 500
  | .badGateway => 502
  | .serviceUnavailable => 503
  | .gatewayTimeout => 504
  | .unknown => partnerStatus

def status (r : Refusal) : UInt16 := r.kind.status

/-- The kind that a service's status is passed on as. A status without a kind of its own tells of
a fault behind the desk. -/
def kindOf (status : UInt16) : Kind :=
  if status = 400 then .badRequest
  else if status = 401 then .unauthorized
  else if status = 403 then .forbidden
  else if status = 404 then .notFound
  else if status = 409 then .conflict
  else if status = 422 then .unprocessable
  else if status = 429 then .tooMany
  else if status = 503 then .serviceUnavailable
  else if status = 504 then .gatewayTimeout
  else if status = partnerStatus then .unknown
  else .badGateway

def ofRejection (r : Rejection) : Refusal :=
  ⟨kindOf r.status,
    if r.status = partnerStatus then "The data partner service is currently unavailable."
    else r.message⟩

def ofService : ServiceError → Refusal
  | .rejected r => ofRejection r
  | .timedOut s => ⟨.gatewayTimeout, "request to " ++ s.name ++ " timed out"⟩
  | .unreachable s _ => ⟨.badGateway, s.name ++ " is unreachable"⟩
  | .undecodable _ => ⟨.badGateway, "upstream returned an invalid response"⟩
  | .badAddress detail => ⟨.internal, detail⟩

/-- Whether `part` occurs in a text. -/
def occurs (part : List Char) : List Char → Bool
  | [] => part.isEmpty
  | c :: cs => part.isPrefixOf (c :: cs) || occurs part cs

/-- The refusal for a login that the core service rejected. -/
def ofLogin (e : ServiceError) : Refusal :=
  match e with
  | .rejected r =>
    if r.status = 401 then
      if occurs "not Active".toList r.message.toList then
        ⟨.unauthorized, "your account is not active"⟩
      else ⟨.unauthorized, "email or password is incorrect"⟩
    else ofService e
  | _ => ofService e

/-- The refusal for a change of password that the core service rejected. -/
def ofPasswordChange (e : ServiceError) : Refusal :=
  match e with
  | .rejected r =>
    if occurs "hashedPassword is not the hash of the given password".toList r.message.toList then
      ⟨.badRequest, "current password is wrong"⟩
    else ofService e
  | _ => ofService e

def ofUpload (f : Upload.Fault) : Refusal := ⟨.badRequest, f.message⟩

def response (r : Refusal) : Http.Response := .failure r.status r.message

end Refusal

end Vetting

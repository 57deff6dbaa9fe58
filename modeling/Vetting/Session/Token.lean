import Vetting.Digest.Hmac
import Vetting.Session.Identity
import Vetting.Text.Base64

/-!
Signed tokens. A token has three parts between dots: a header, the claims, and a keyed hash of the
two. It is accepted if the header names the one known algorithm, the hash is right, all claims are
there, the token has not expired, and it is not meant for an audience of its own.
-/

namespace Vetting

open Text (Bytes utf8)
open Wire

structure Claims where
  identity : Identity
  /-- The end of the token's life, in seconds. -/
  expiry : UInt64
  deriving DecidableEq, Repr

instance : Form Claims where
  shape := .record "Claims" (.req "company_id" word64 (.req "member_id" word64
    (.req "role_id" word64 (.req "tier_level" word64 (.req "quota_type" text
    (.req "api_key" text (.req "exp" word64 .nil)))))))
  ofVal := fun (company, member, role, tier, quotaType, apiKey, expiry, ()) =>
    ⟨⟨company, member, role, tier, quotaType, apiKey⟩, expiry⟩
  toVal c := (c.identity.company, c.identity.member, c.identity.role, c.identity.tier,
    c.identity.quotaType, c.identity.apiKey, c.expiry, ())

namespace Token

/-- For how many seconds an expired token is still accepted. -/
def leeway : Nat := 60

/-- The members of a header that are texts, or null. -/
def textMembers : List String :=
  ["typ", "cty", "jku", "kid", "x5u", "x5t", "x5t#S256", "enc", "zip", "url", "nonce"]

/-- The members of a header that are lists of texts, or null. -/
def listMembers : List String := ["x5c", "crit"]

/-- The members of a header that have a meaning. -/
def headerShape : Shape :=
  let texts := textMembers.foldr (fun key rest => .maybe key text rest) (.maybe "jwk" .any .nil)
  let lists := listMembers.foldr (fun key rest => .maybe key (.list text) rest) texts
  .record "Header" (.req "alg" .any lists)

def isText : Json → Bool
  | .str _ => true
  | _ => false

/-- Members of a header without a meaning are texts. -/
def unknownAreTexts (members : List (String × Json)) : Bool :=
  members.all fun (key, v) =>
    "alg" = key || "jwk" = key || textMembers.contains key || listMembers.contains key || isText v

/-- Whether an algorithm is the keyed hash of this module. -/
def isKnownAlgorithm : Json → Bool
  | .str name => name = "HS256"
  | .obj [(name, .null)] => name = "HS256"
  | _ => false

def acceptsHeader (header : Bytes) : Bool :=
  match headerShape.ofText header, Json.Reader.value header with
  | .ok _, .ok (.obj members) =>
    unknownAreTexts members && (members.lookup "alg").any isKnownAlgorithm
  | _, _ => false

/-- The claims whose meaning is the same in all tokens; only the audience is looked at. -/
abbrev registeredShape : Shape :=
  .record "Registered" (.maybe "exp" .any (.maybe "nbf" .any (.maybe "sub" .any
    (.maybe "iss" .any (.maybe "aud" .any .nil)))))

/-- Whether an audience is well-formed: a text, or a list of texts. -/
def isAudience : Option Json → Bool
  | some (.str _) => true
  | some (.arr items) => items.all isText
  | _ => false

def isEmptyOrPlain : Option Json → Bool
  | some (.arr items) => items.isEmpty
  | some (.obj members) => members.isEmpty
  | _ => true

def isPlain : Option Json → Bool
  | some (.arr _) => false
  | some (.obj _) => false
  | _ => true

/-- A token must not be meant for an audience; a time from which it is valid is not looked at, but
like the subject it is a single value. -/
def acceptsRegistered (claims : Bytes) : Bool :=
  match registeredShape.ofText claims with
  | .ok (_, notBefore, subject, _, audience, ()) =>
    isEmptyOrPlain notBefore && isPlain subject && !isAudience audience
  | .error _ => false

def hasExpired (now : Nat) (c : Claims) : Bool := c.expiry.toNat + leeway < now

/-- The claims of a payload that is accepted at a time. -/
def claims? (now : Nat) (payload : Bytes) : Option Claims :=
  match Form.ofText Claims payload with
  | .error _ => none
  | .ok c => if acceptsRegistered payload && !hasExpired now c then some c else none

/-- The parts of a text between dots. -/
def parts (cs : List Char) : List (List Char) := cs.splitOn '.'

/-- Whether `signature` is the keyed hash of header and payload. -/
def isSigned (secret : Bytes) (header payload : List Char) (signature : Bytes) : Bool :=
  Digest.hmac secret (utf8 (String.ofList (header ++ '.' :: payload))) = signature

/-- The identity that a token tells, if it is accepted at a time. -/
def verify? (secret : Bytes) (now : Nat) (token : String) : Option Identity :=
  match parts token.toList with
  | [header, payload, signature] => do
    let h ← Text.Base64.decode? header
    let p ← Text.Base64.decode? payload
    let s ← Text.Base64.decode? signature
    if acceptsHeader h && isSigned secret header payload s then
      (claims? now p).map (·.identity)
    else none
  | _ => none

end Token

end Vetting

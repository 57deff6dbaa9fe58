import Vetting.Text.Digits

/-!
The fields of a submission and the values they accept: a name or loan number is any text that is
not empty, tax and identity numbers have fixed numbers of ASCII digits, and phone numbers are
Indonesian mobile numbers.
-/

namespace Vetting

inductive Field where
  | name
  | nik
  | phoneNumber
  | npwp
  | npwpOrNik
  | loanNo
  deriving DecidableEq, Repr

namespace Field

def all : List Field := [.name, .nik, .phoneNumber, .npwp, .npwpOrNik, .loanNo]

/-- The field's name in submissions and answers. -/
def key : Field → String
  | .name => "name"
  | .nik => "nik"
  | .phoneNumber => "phone_number"
  | .npwp => "npwp"
  | .npwpOrNik => "npwp_or_nik"
  | .loanNo => "loan_no"

def ofKey? (key : String) : Option Field := all.find? fun f => f.key = key

/-- Exactly `n` ASCII digits. -/
def isDigits (n : Nat) (cs : List Char) : Bool := cs.length = n && cs.all Text.isDigit

/-- What follows the country or trunk code of a mobile number: an eight, a digit other than zero
and 6 to 11 more digits. -/
def isSubscriberNumber : List Char → Bool
  | '8' :: d :: rest =>
    '1' ≤ d && d ≤ '9' && 6 ≤ rest.length && rest.length ≤ 11 && rest.all Text.isDigit
  | _ => false

def isPhoneNumber : List Char → Bool
  | '+' :: '6' :: '2' :: rest => isSubscriberNumber rest
  | '6' :: '2' :: rest => isSubscriberNumber rest
  | '0' :: rest => isSubscriberNumber rest
  | _ => false

/-- Whether a value that is not empty is one of the field's. -/
def accepts (f : Field) (value : List Char) : Bool :=
  match f with
  | .name => true
  | .loanNo => true
  | .nik => isDigits 16 value
  | .npwp => isDigits 15 value || isDigits 16 value
  | .npwpOrNik => isDigits 15 value || isDigits 16 value
  | .phoneNumber => isPhoneNumber value

end Field

/-- What is wrong with the value of a field. -/
inductive Complaint where
  | missing (f : Field)
  | malformed (f : Field)
  deriving DecidableEq, Repr

def Complaint.message : Complaint → String
  | .missing f => f.key ++ " is required"
  | .malformed .nik => Field.nik.key ++ " must be 16 digits"
  | .malformed .npwp => Field.npwp.key ++ " must be 15 or 16 digits"
  | .malformed .npwpOrNik => Field.npwpOrNik.key ++ " must be 15 or 16 digits"
  | .malformed f => f.key ++ " is not valid"

def Field.check (f : Field) (value : String) : Option Complaint :=
  if value.isEmpty then some (.missing f)
  else if f.accepts value.toList then none
  else some (.malformed f)

end Vetting

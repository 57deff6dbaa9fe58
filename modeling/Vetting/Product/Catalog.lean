import Vetting.Product.Field

/-!
The products of the desk. Each has a name in addresses, the header its uploads must have, the
fields of a submission in the order of that header's columns, the partner and path that answer it,
and the letters its transaction ids start with.
-/

namespace Vetting

/-- The days that a check for several loans looks back. -/
inductive LoanWindow where
  | week
  | month
  | quarter
  deriving DecidableEq, Repr

def LoanWindow.days : LoanWindow → Nat
  | .week => 7
  | .month => 30
  | .quarter => 90

/-- The services the desk calls. -/
inductive Service where
  | core
  | catalog
  | scoring
  deriving DecidableEq, Repr

def Service.name : Service → String
  | .core => "core"
  | .catalog => "product_catalog"
  | .scoring => "scoring"

/-- Where a product is answered: the partner and the path there. -/
inductive Route where
  | catalog (path : String)
  | scoring (path : String)
  deriving DecidableEq, Repr

namespace Route

def path : Route → String
  | .catalog p => p
  | .scoring p => p

def service : Route → Service
  | .catalog _ => .catalog
  | .scoring _ => .scoring

end Route

inductive Product where
  | phoneLiveStatus
  | npwpVerification
  | loanRecords
  | multipleLoans (window : LoanWindow)
  | taxCompliance
  | taxScore
  | taxVerification
  | retailScore
  deriving DecidableEq, Repr

namespace Product

def all : List Product :=
  [.phoneLiveStatus, .npwpVerification, .loanRecords, .multipleLoans .week,
    .multipleLoans .month, .multipleLoans .quarter, .taxCompliance, .taxScore, .taxVerification,
    .retailScore]

theorem mem_all (p : Product) : p ∈ all := by
  cases p with
  | multipleLoans w => cases w <;> decide
  | _ => decide

/-- The product's name in addresses. -/
def slug : Product → String
  | .phoneLiveStatus => "IDENTITY_phone_live_status"
  | .npwpVerification => "IDENTITY_npwp_verification"
  | .loanRecords => "COMPLIANCE_loan_record_checker"
  | .multipleLoans w => "COMPLIANCE_" ++ toString w.days ++ "d_multiple_loan"
  | .taxCompliance => "INCOMETAX_tax_compliance_status"
  | .taxScore => "INCOMETAX_tax_score"
  | .taxVerification => "INCOMETAX_tax_verification_detail"
  | .retailScore => "GEN_RETAIL_v3"

def ofSlug? (slug : String) : Option Product := all.find? fun p => p.slug = slug

/-- The names that the columns of an upload must have, in order. -/
def header : Product → List String
  | .phoneLiveStatus => ["Phone Number"]
  | .npwpVerification => ["NPWP"]
  | .loanRecords => ["Name", "NIK", "Phone Number"]
  | .multipleLoans _ => ["NIK", "Phone Number"]
  | .taxCompliance => ["NPWP"]
  | .taxScore => ["NPWP"]
  | .taxVerification => ["NPWP/NIK"]
  | .retailScore => ["loan_no", "name", "nik", "phone_number"]

def fields : Product → List Field
  | .phoneLiveStatus => [.phoneNumber]
  | .npwpVerification => [.npwp]
  | .loanRecords => [.name, .nik, .phoneNumber]
  | .multipleLoans _ => [.nik, .phoneNumber]
  | .taxCompliance => [.npwp]
  | .taxScore => [.npwp]
  | .taxVerification => [.npwpOrNik]
  | .retailScore => [.loanNo, .name, .nik, .phoneNumber]

theorem length_header (p : Product) : p.header.length = p.fields.length := by
  cases p <;> rfl

def route : Product → Route
  | .phoneLiveStatus => .catalog "/product/identity/phone-live-status"
  | .npwpVerification => .catalog "/product/identity/npwp-verification"
  | .loanRecords => .catalog "/product/compliance/loan-record-checker"
  | .multipleLoans w =>
    .catalog ("/product/compliance/multiple-loan/" ++ toString w.days ++ "-days")
  | .taxCompliance => .catalog "/product/incometax/tax-compliance-status"
  | .taxScore => .catalog "/product/incometax/tax-score"
  | .taxVerification => .catalog "/product/incometax/tax-verification-detail"
  | .retailScore => .scoring "/api/score/genretail/v3"

/-- The letters that the product's own transaction ids start with. -/
def letters : Product → String
  | .phoneLiveStatus => "PLS"
  | .npwpVerification => "NPV"
  | .loanRecords => "LRC"
  | .multipleLoans w => "ML" ++ toString w.days
  | .taxCompliance => "TCS"
  | .taxScore => "TSC"
  | .taxVerification => "TVD"
  | .retailScore => "GRV3"

/-- Scores are given against the tenant's grades. -/
def requiresGrading (p : Product) : Bool := p = .retailScore

/-- The scoring partner writes no transaction log, so the desk logs its successes. -/
def logsOwnSuccess (p : Product) : Bool := p.route.service = .scoring

end Product

end Vetting

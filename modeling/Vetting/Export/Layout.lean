import Vetting.Core.JobDetail
import Vetting.Json.Printer
import Vetting.Product.Catalog
import Vetting.Text.Blank

/-!
The columns of exported tables, and the cells in them. Columns of the submission are taken from the
raw submission or from the masked one in the partner's log; a masked column without such an entry
is empty.
-/

namespace Vetting

/-- The value of a field in a listed submission. -/
def DetailInput.value (d : DetailInput) : Field → Option String
  | .name => d.name
  | .nik => d.nik
  | .phoneNumber => d.phoneNumber
  | .npwp => d.npwp
  | .npwpOrNik => d.npwpOrNik
  | .loanNo => d.loanNo

namespace Export

/-- A part of the answer. -/
inductive DataColumn where
  | name
  | address
  | remarks
  | status
  | queryCount
  | score
  | npwpVerification
  | taxCompliance
  | subscriberStatus
  | deviceStatus
  | operator
  | phoneType
  | probability
  | grade
  deriving DecidableEq, Repr

inductive Column where
  | input (f : Field)
  | data (d : DataColumn)
  | dateCreated
  | status
  | description
  deriving DecidableEq, Repr

structure Layout where
  /-- What the names of exported files start with. -/
  baseName : String
  columns : List (String × Column)
  deriving DecidableEq, Repr

/-- The layout of a product's exports, if it has any. -/
def layout? : Product → Option Layout
  | .loanRecords => some ⟨"loan_record_checker",
      [("Name", .input .name), ("NIK", .input .nik), ("Phone", .input .phoneNumber),
        ("Remarks", .data .remarks), ("Data Status", .data .status), ("Status", .status),
        ("Description", .description)]⟩
  | .multipleLoans w => some ⟨"multiple_loan_" ++ toString w.days ++ "_days",
      [("NIK", .input .nik), ("Phone", .input .phoneNumber), ("Query Count", .data .queryCount),
        ("Status", .status), ("Description", .description)]⟩
  | .taxCompliance => some ⟨"tax_compliance_status",
      [("NPWP", .input .npwp), ("Name", .data .name), ("Address", .data .address),
        ("Data Status", .data .status), ("Status", .status), ("Description", .description)]⟩
  | .taxScore => some ⟨"tax_score",
      [("NPWP", .input .npwp), ("Name", .data .name), ("Address", .data .address),
        ("Data Status", .data .status), ("Score", .data .score), ("Status", .status),
        ("Description", .description)]⟩
  | .taxVerification => some ⟨"tax_verification_detail",
      [("Name", .data .name), ("Address", .data .address), ("NPWP/NIK", .input .npwpOrNik),
        ("NPWP Verification", .data .npwpVerification), ("Data Status", .data .status),
        ("Tax Compliance", .data .taxCompliance), ("Status", .status),
        ("Description", .description)]⟩
  | .phoneLiveStatus => some ⟨"phone_live_status",
      [("Phone Number", .input .phoneNumber), ("Subscriber Status", .data .subscriberStatus),
        ("Device Status", .data .deviceStatus), ("Operator", .data .operator),
        ("Phone Type", .data .phoneType), ("Status", .status), ("Description", .description)]⟩
  | .retailScore => some ⟨"gen_retail_v3",
      [("Date Created", .dateCreated), ("Name", .input .name), ("Loan Id", .input .loanNo),
        ("NIK", .input .nik), ("Phone", .input .phoneNumber), ("Probability", .data .probability),
        ("Grade", .data .grade), ("Description", .description)]⟩
  | .npwpVerification => none

/-- The header of a table, with a column for the date in front if it is `dated`. -/
def Layout.header (l : Layout) (dated : Bool) : List String :=
  (if dated then ["Date"] else []) ++ l.columns.map (·.1)

/-- A JSON value as a cell: texts stand for themselves and null is empty. -/
def jsonCell : Json → String
  | .null => ""
  | .str s => s
  | j => j.render

/-- What stands before and after the first comma; without a comma the second part is empty. -/
def splitComma (s : String) : String × String :=
  let cs := s.toList
  (Text.trim (String.ofList (cs.takeWhile (· ≠ ','))),
    Text.trim (String.ofList ((cs.dropWhile (· ≠ ',')).drop 1)))

def dataCell (d : DetailData) : DataColumn → String
  | .name => d.name.getD ""
  | .address => d.address.getD ""
  | .remarks => d.remarks.getD ""
  | .status => d.status.getD ""
  | .queryCount => (d.queryCount.map jsonCell).getD ""
  | .score => (d.score.map jsonCell).getD ""
  | .npwpVerification => d.npwpVerification.getD ""
  | .taxCompliance => d.taxCompliance.getD ""
  | .subscriberStatus => (d.liveStatus.map fun s => (splitComma s).1).getD ""
  | .deviceStatus => (d.liveStatus.map fun s => (splitComma s).2).getD ""
  | .operator => d.operator.getD ""
  | .phoneType => d.phoneType.getD ""
  | .probability => (d.probabilityToDefault.map jsonCell).getD ""
  | .grade => d.grade.getD ""

def dateCell (i : Option Instant) : String := (i.map Instant.renderPlain).getD ""

/-- The submission that a row's cells are taken from. -/
def shownInput (masked : Bool) (row : JobDetail) : Option DetailInput :=
  if masked then row.snapshot.map (·.input) else some row.input

def cell (masked : Bool) (row : JobDetail) : Column → String
  | .input f => ((shownInput masked row).bind (·.value f)).getD ""
  | .data d => (row.data.map fun x => dataCell x d).getD ""
  | .dateCreated => dateCell row.createdAt
  | .status => row.status
  | .description => row.message.getD ""

def Layout.row (l : Layout) (masked dated : Bool) (r : JobDetail) : List String :=
  (if dated then [dateCell r.createdAt] else []) ++ l.columns.map fun c => cell masked r c.2

/-- The whole table. -/
def Layout.table (l : Layout) (masked dated : Bool) (rows : List JobDetail) : List (List String) :=
  l.header dated :: rows.map (l.row masked dated)

/-- Every row has a cell for each name in the header. -/
theorem Layout.length_row (l : Layout) (masked dated : Bool) (r : JobDetail) :
    (l.row masked dated r).length = (l.header dated).length := by
  cases dated <;> simp [Layout.row, Layout.header]

theorem Layout.length_of_mem_table {l : Layout} {masked dated : Bool} {rows : List JobDetail}
    {r : List String} (h : r ∈ l.table masked dated rows) : r.length = (l.header dated).length := by
  rcases List.mem_cons.mp h with rfl | h
  · rfl
  · obtain ⟨d, _, rfl⟩ := List.mem_map.mp h
    exact l.length_row masked dated d

end Export

end Vetting

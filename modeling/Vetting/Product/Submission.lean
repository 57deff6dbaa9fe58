import Vetting.Json.Printer
import Vetting.Product.Catalog
import Vetting.Text.Blank

/-!
What is sent to a product: one value for each of its fields, without blanks at the ends. A
submission comes from a row of an upload, by position, or from a JSON object, by name. Missing
values are empty, and every other rule is left to `Submission.check`.
-/

namespace Vetting

structure Submission where
  product : Product
  /-- The values of the product's fields, in the order of the fields. -/
  values : List String
  deriving DecidableEq, Repr

namespace Submission

/-- The submission of a row; cells beyond the fields are ignored. -/
def ofRow (p : Product) (row : List String) : Submission :=
  ⟨p, p.fields.zipIdx.map fun (_, i) => Text.trim (row[i]?.getD "")⟩

/-- The value of a member of a JSON body. Numbers stand for the text they are written as. -/
def valueOf (body : Json) (f : Field) : String :=
  match body.member? f.key with
  | some (.str s) => Text.trim s
  | some (.num n) => n.render
  | _ => ""

/-- The submission of a JSON body, which should be an object. -/
def ofJson (p : Product) (body : Json) : Submission :=
  ⟨p, p.fields.map (valueOf body)⟩

/-- The fields with their values. -/
def entries (s : Submission) : List (Field × String) := s.product.fields.zip s.values

/-- The complaint about the first field whose value it does not accept. -/
def check (s : Submission) : Option Complaint :=
  s.entries.findSome? fun (f, v) => f.check v

def toJson (s : Submission) : Json :=
  Json.object (s.entries.map fun (f, v) => (f.key, .str v))

end Submission

end Vetting

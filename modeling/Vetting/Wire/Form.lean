import Vetting.Wire.Decode
import Vetting.Wire.Reader

/-!
Types that travel: each is another view of the values of one shape.
-/

namespace Vetting.Wire

class Form (α : Type) where
  shape : Shape
  ofVal : shape.Val → α
  toVal : α → shape.Val

namespace Form

variable {α : Type} [Form α]

/-- Decodes a JSON value. -/
def decode (α : Type) [Form α] (j : Json) : Except Mismatch α :=
  ((shape α).ofJson j).map ofVal

/-- Decodes a JSON text. -/
def ofText (α : Type) [Form α] (b : Text.Bytes) : Except Fault α :=
  ((shape α).ofText b).map ofVal

/-- The written form. -/
def encode (a : α) : Json := (shape α).toJson (toVal a)

end Form

instance : Form Json := ⟨.any, id, id⟩

instance : Form JobStatus := ⟨.status, id, id⟩

instance {α : Type} [Form α] : Form (List α) :=
  ⟨.list (Form.shape α), List.map Form.ofVal, List.map Form.toVal⟩

instance {α : Type} [Form α] : Form (Option α) :=
  ⟨.option (Form.shape α), Option.map Form.ofVal, Option.map Form.toVal⟩

abbrev flag : Shape := .leaf .flag

abbrev text : Shape := .leaf .text

abbrev word16 : Shape := .leaf .word16

abbrev word64 : Shape := .leaf .word64

abbrev int64 : Shape := .leaf .int64

abbrev double : Shape := .leaf .double

abbrev instant : Shape := .leaf .instant

end Vetting.Wire

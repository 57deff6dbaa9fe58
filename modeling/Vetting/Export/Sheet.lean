import Vetting.Csv.Sink
import Vetting.Desk.Task
import Vetting.Export.Layout
import Vetting.Session.Identity

/-!
Exports: the results of one job, or of all jobs between two dates, as a table of comma separated
values.
-/

namespace Vetting.Export

open Text (Bytes)

inductive Target where
  | job (id : UInt64)
  | dates (first last : String)
  deriving DecidableEq, Repr

structure Sheet where
  fileName : String
  body : Bytes
  deriving DecidableEq, Repr

/-- The name of the exported file. -/
def Layout.fileName (l : Layout) : Target → String
  | .job id => l.baseName ++ "_id_" ++ toString id.toNat ++ ".csv"
  | .dates first last =>
    if first = last then l.baseName ++ "_" ++ first ++ ".csv"
    else l.baseName ++ "_" ++ first ++ "_until_" ++ last ++ ".csv"

def unsupported : Refusal := ⟨.badRequest, "unsupported product"⟩

/-- The refusal when the sink does not take all of a table. -/
def unwritten (cause : String) : Refusal := ⟨.internal, "could not write export: " ++ cause⟩

/-- Hands a table over to a sink. -/
def Layout.deliver (l : Layout) (masked dated : Bool) (rows : List JobDetail) (room : Option Nat) :
    Csv.Delivery :=
  Csv.deliver room (Csv.blocks (Csv.rowsAtoms (l.table masked dated rows)))

/-- Writes a table to a sink that is full after so many bytes, if ever. -/
def write (p : Product) (masked dated : Bool) (rows : List JobDetail) (room : Option Nat) :
    Except Refusal Bytes :=
  match layout? p with
  | none => .error unsupported
  | some l =>
    match Csv.uneven? (l.table masked dated rows) with
    | some u => .error (unwritten u.message)
    | none =>
      let d := l.deliver masked dated rows room
      if d.complete then .ok d.taken else .error (unwritten "disk full")

/-- Tables of exports are even. -/
theorem Layout.uneven?_table (l : Layout) (masked dated : Bool) (rows : List JobDetail) :
    Csv.uneven? (l.table masked dated rows) = none :=
  Csv.uneven?_eq_none fun _ hr => Layout.length_of_mem_table hr

/-- The page size that stands for everything. -/
def everything : Option Int64 := some (-1)

/-- Reads the rows of a target and exports them. -/
def export_ (i : Identity) (p : Product) (target : Target) (masked : Bool) :
    Task (Except Refusal Sheet) :=
  match layout? p with
  | none => .done (.error unsupported)
  | some l =>
    let finish (dated : Bool) (data : Option (List JobDetail)) : Except Refusal Sheet :=
      (write p masked dated (data.getD []) none).map fun body => ⟨l.fileName target, body⟩
    match target with
    | .job id =>
      .call (.jobDetails i.scope p.slug id ⟨none, everything, none⟩) fun
        | .error e => .done (.error (.ofService e))
        | .ok a => .done (finish false (CoreAnswer.data a))
    | .dates first last =>
      .call (.jobsSummary i.scope p.slug ⟨first, last, everything⟩) fun
        | .error e => .done (.error (.ofService e))
        | .ok a => .done (finish true (CoreAnswer.data a))

end Vetting.Export

import Mathlib.Data.List.Forall2
import Vetting.Export.Sheet

/-! # What exports show of submissions

A masked export is made from the masked submissions in the partner's log alone, and any other export
from the raw ones alone: two lists of rows that differ only in the other of the two are exported as
the same bytes, or fail alike, into any sink. `Alike` says that two rows agree on what an export can
show; then their cells are the same, and so are the tables and what a sink takes of them. -/

namespace Vetting.Export

/-- Two rows agree on the status, the message, the data, the time and what `part` gives of them. -/
structure Agree {γ : Type} (part : JobDetail → γ) (a b : JobDetail) : Prop where
  status : a.status = b.status
  message : a.message = b.message
  data : a.data = b.data
  createdAt : a.createdAt = b.createdAt
  part : part a = part b

/-- Two rows agree on all that an export can show. -/
abbrev Alike (masked : Bool) (a b : JobDetail) : Prop := Agree (shownInput masked) a b

variable {masked : Bool} {a b : JobDetail} {rows rows' : List JobDetail}

theorem Agree.alike_masked (h : Agree (·.snapshot) a b) : Alike true a b :=
  { h with part := by simp [shownInput, h.part] }

theorem Agree.alike_unmasked (h : Agree (·.input) a b) : Alike false a b :=
  { h with part := by simp [shownInput, h.part] }

/-- **A cell shows nothing else**, in whatever column. -/
theorem Agree.cell_eq (h : Alike masked a b) (c : Column) : cell masked a c = cell masked b c := by
  cases c with
  | input f => simp [cell, h.part]
  | data d => simp [cell, h.data]
  | dateCreated => simp [cell, h.createdAt]
  | status => simp [cell, h.status]
  | description => simp [cell, h.message]

theorem Agree.row_eq (h : Alike masked a b) (l : Layout) (dated : Bool) :
    l.row masked dated a = l.row masked dated b := by
  simp [Layout.row, h.createdAt, h.cell_eq]

theorem table_eq (l : Layout) (dated : Bool) (h : List.Forall₂ (Alike masked) rows rows') :
    l.table masked dated rows = l.table masked dated rows' := by
  have hrows : rows.map (l.row masked dated) = rows'.map (l.row masked dated) := by
    induction h with
    | nil => rfl
    | cons hab _ ih => rw [List.map_cons, List.map_cons, hab.row_eq l dated, ih]
  rw [Layout.table, Layout.table, hrows]

theorem deliver_eq (l : Layout) (dated : Bool) (h : List.Forall₂ (Alike masked) rows rows')
    (room : Option Nat) : l.deliver masked dated rows room = l.deliver masked dated rows' room := by
  rw [Layout.deliver, Layout.deliver, table_eq l dated h]

theorem write_eq (p : Product) (dated : Bool) (h : List.Forall₂ (Alike masked) rows rows')
    (room : Option Nat) : write p masked dated rows room = write p masked dated rows' room := by
  simp only [write, deliver_eq _ dated h, Layout.uneven?_table]

theorem write_unlimited {p : Product} {l : Layout} (hl : layout? p = some l) (masked dated : Bool)
    (rows : List JobDetail) :
    write p masked dated rows none = .ok (Csv.writeRows (l.table masked dated rows)) := by
  simp [write, hl, Layout.uneven?_table, Layout.deliver, Csv.writeRows]

theorem row_input_cell (l : Layout) (masked dated : Bool) (row : JobDetail) {k : Nat} {name : String}
    {f : Field} (hk : l.columns[k]? = some (name, .input f)) :
    (l.row masked dated row)[k + dated.toNat]? =
      some (((shownInput masked row).bind (·.value f)).getD "") := by
  cases dated <;> simp [Layout.row, hk, cell]

/-- **A masked export tells nothing of raw submissions**, and an export that is not masked nothing
of the partner's entries. Lists of rows that agree on the rest are written as the same bytes, and
into a sink with room for any number of bytes the whole table is written. A masked row shows the
fields of the partner's entry, and nothing in their place where there is no entry. -/
theorem masked_hides_input {p : Product} {l : Layout} (hl : layout? p = some l) (dated : Bool) :
    (∀ rows rows' room, List.Forall₂ (Agree (·.snapshot)) rows rows' →
      l.deliver true dated rows room = l.deliver true dated rows' room ∧
      write p true dated rows room = write p true dated rows' room) ∧
    (∀ rows rows' room, List.Forall₂ (Agree (·.input)) rows rows' →
      l.deliver false dated rows room = l.deliver false dated rows' room ∧
      write p false dated rows room = write p false dated rows' room) ∧
    (∀ masked rows,
      write p masked dated rows none = .ok (Csv.writeRows (l.table masked dated rows))) ∧
    (∀ (row : JobDetail) k name f, l.columns[k]? = some (name, .input f) →
      (l.row true dated row)[k + dated.toNat]? =
        some ((row.snapshot.bind fun s => s.input.value f).getD "") ∧
      (row.snapshot = none → (l.row true dated row)[k + dated.toNat]? = some "")) := by
  refine ⟨?_, ?_, fun masked rows => write_unlimited hl masked dated rows, ?_⟩
  · intro rows rows' room h
    have halike := h.imp fun _ _ hab => hab.alike_masked
    exact ⟨deliver_eq l dated halike room, write_eq p dated halike room⟩
  · intro rows rows' room h
    have halike := h.imp fun _ _ hab => hab.alike_unmasked
    exact ⟨deliver_eq l dated halike room, write_eq p dated halike room⟩
  · intro row k name f hk
    have hcell := row_input_cell l true dated row hk
    constructor
    · rw [hcell, shownInput]
      cases row.snapshot <;> rfl
    · intro hnone
      rw [hcell]
      simp [shownInput, hnone]

/-- A loan record that the partner's log shows without its name. -/
def loanRecord (name nik : String) : JobDetail where
  jobId := 7
  transactionId := "TRX-1"
  status := "success"
  message := none
  input := { (default : DetailInput) with name := some name, nik := some nik }
  data := none
  snapshot := some ⟨{ (default : DetailInput) with nik := some "31**************" }, none⟩
  createdAt := none

/-- The loan records of two people are one masked export, and two that are not masked. -/
theorem loan_records_masked :
    write .loanRecords true true [loanRecord "Ana" "3174000000000001"] none =
        write .loanRecords true true [loanRecord "Budi" "3174000000000002"] none ∧
      write .loanRecords false true [loanRecord "Ana" "3174000000000001"] none ≠
        write .loanRecords false true [loanRecord "Budi" "3174000000000002"] none := by
  obtain ⟨hmasked, _⟩ := masked_hides_input (p := .loanRecords) rfl true
  have hagree : Agree (·.snapshot) (loanRecord "Ana" "3174000000000001")
      (loanRecord "Budi" "3174000000000002") := ⟨rfl, rfl, rfl, rfl, rfl⟩
  exact ⟨(hmasked _ _ none (.cons hagree .nil)).2, by decide +kernel⟩

end Vetting.Export

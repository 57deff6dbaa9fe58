import Vetting.Export.Sheet
import Vetting.Proofs.MaskedExport
import Vetting.Proofs.UploadForms

/-! # Exports can be read back

Whatever texts stand in the cells of an export, its table can be read back from it as an upload can
be: with the header of the layout, and one row for each row of the job, cell by cell. So no text in
a cell is taken for a separator, and no cell is lost or gets into another row or column. -/

namespace Vetting.Export

open Text (Bytes)

theorem header_eq_cons {p : Product} {l : Layout} (hl : layout? p = some l) (dated : Bool) :
    ∃ name names, l.header dated = name :: names ∧ Csv.isMarked name = false := by
  cases dated with
  | true => exact ⟨"Date", l.columns.map (·.1), rfl, by decide⟩
  | false =>
    cases p with
    | npwpVerification => cases hl
    | _ =>
      cases hl
      exact ⟨_, _, rfl, by decide⟩

/-- **An export can be read back whole**, whatever stands in its cells: the records of its table
have as many cells as its header, a sink that never fills up takes them all, and reading what it
took gives the header and the rows as they were, in order. -/
theorem export_read_back {p : Product} {l : Layout} (hl : layout? p = some l)
    (masked dated : Bool) (rows : List JobDetail) :
    (∀ r ∈ l.table masked dated rows, r.length = (l.header dated).length) ∧
      ∃ bytes, write p masked dated rows none = .ok bytes ∧
        Upload.read bytes (l.header dated) = .ok (l.header dated :: rows.map fun r =>
          (if dated then [dateCell r.createdAt] else []) ++
            l.columns.map fun c => cell masked r c.2) := by
  obtain ⟨name, names, hheader, hmark⟩ := header_eq_cons hl dated
  have hlength : ∀ r ∈ l.table masked dated rows, r.length = (l.header dated).length :=
    fun _ hr => Layout.length_of_mem_table hr
  have hne : ∀ r ∈ l.table masked dated rows, r ≠ [] := by
    intro r hr hnil
    have hlen := hlength r hr
    rw [hnil, hheader] at hlen
    cases hlen
  have hwritten := Csv.written_writeRows hne
  refine ⟨hlength, _, write_unlimited hl masked dated rows, ?_⟩
  rw [Layout.table, hheader] at hwritten ⊢
  have hprefix : (name :: names).isPrefixOf (name :: names) = true :=
    List.isPrefixOf_iff_prefix.mpr (List.prefix_refl _)
  rw [Upload.read_of_written hmark hwritten (name :: names), if_pos hprefix]
  rfl

/-- A score of a person whose name and address hold separators, quotes and line ends. -/
def awkwardScore : JobDetail where
  jobId := 42
  transactionId := "P-1"
  status := "success"
  message := some ""
  input := { (default : DetailInput) with npwp := some "012345678901234" }
  data := some { (default : DetailData) with
    name := some "Budi, \"Bud\"", address := some "Jl. Mawar 1\r\nJakarta\n"
    score := some (.arr [.str "a,b", .null]) }
  snapshot := none
  createdAt := none

/-- An export of awkward scores, masked or not, is read back as two rows with all their cells. -/
theorem awkward_scores_read_back : ∃ bytes,
    write .taxScore false true [awkwardScore, awkwardScore] none = .ok bytes ∧
      Upload.read bytes ["Date", "NPWP", "Name", "Address", "Data Status", "Score", "Status",
          "Description"] =
        .ok [["Date", "NPWP", "Name", "Address", "Data Status", "Score", "Status", "Description"],
          ["", "012345678901234", "Budi, \"Bud\"", "Jl. Mawar 1\r\nJakarta\n", "",
            "[\"a,b\",null]", "success", ""],
          ["", "012345678901234", "Budi, \"Bud\"", "Jl. Mawar 1\r\nJakarta\n", "",
            "[\"a,b\",null]", "success", ""]] :=
  (export_read_back (p := .taxScore) rfl false true [awkwardScore, awkwardScore]).2

end Vetting.Export

import Vetting.Proofs.WrittenTable
import Vetting.Upload

/-! # Uploads in any form

Tenants write their uploads with programs of many kinds. Which form of its table an upload has does
not matter: its rows are read as they are, whatever their lengths, and it is refused for its header
just if its first row does not start with the expected names. -/

namespace Vetting.Upload

open Text (Bytes utf8)

theorem read_of_written {cell : String} {cells : List String} {rest : List (List String)}
    {data : Bytes} (hcell : Csv.isMarked cell = false)
    (hw : Csv.Written ((cell :: cells) :: rest) data) (header : List String) :
    read data header = if header.isPrefixOf (cell :: cells) then .ok ((cell :: cells) :: rest)
      else .error .wrongHeader := by
  unfold read
  rw [Csv.rows_of_written hcell hw]

/-- **An upload is read back whole, however it is written**: every form of a table is read as that
table if its first row starts with the header, and refused for its header if not. A table whose
first cell starts with a byte order mark of its own is left out, since that mark is ignored. -/
theorem read_written {cell : String} {cells : List String} {rest : List (List String)}
    {data : Bytes} (hcell : Csv.isMarked cell = false)
    (hw : Csv.Written ((cell :: cells) :: rest) data) (header : List String) :
    (header <+: cell :: cells → read data header = .ok ((cell :: cells) :: rest)) ∧
      (¬ header <+: cell :: cells → read data header = .error .wrongHeader) := by
  have hread := read_of_written hcell hw header
  constructor
  · intro h
    rw [hread, if_pos (List.isPrefixOf_iff_prefix.mpr h)]
  · intro h
    rw [hread, if_neg (fun hp => h (List.isPrefixOf_iff_prefix.mp hp))]

/-- Rows of several lengths, one of them a single empty cell. -/
def raggedTable : List (List String) :=
  [["NIK", "Phone, home", "Note"], ["1"], [""], ["say \"hi\"", "two\r\nlines"]]

/-- A form of `raggedTable` with a byte order mark, line ends of every kind, empty lines, quotes
where none are needed, and no end of the last line. -/
def raggedData : Bytes := Csv.byteOrderMark ++
  utf8 "NIK,\"Phone, home\",\"Note\"\r\n\r\n1\r\"\"\n\n\"say \"\"hi\"\"\",\"two\r\nlines\""

theorem written_raggedData : Csv.Written raggedTable raggedData := by
  have header : Csv.RecordForm [utf8 "NIK", utf8 "Phone, home", utf8 "Note"]
      (utf8 "NIK,\"Phone, home\",\"Note\"") :=
    ⟨.cons (.bare (by decide)) (.cons .quoted (.last .quoted)), by decide⟩
  have single : Csv.RecordForm [utf8 "1"] (utf8 "1") := ⟨.last (.bare (by decide)), by decide⟩
  have empty : Csv.RecordForm [utf8 ""] (utf8 "\"\"") := ⟨.last .quoted, by decide⟩
  have last : Csv.RecordForm [utf8 "say \"hi\"", utf8 "two\r\nlines"]
      (utf8 "\"say \"\"hi\"\"\",\"two\r\nlines\"") := ⟨.cons .quoted (.last .quoted), by decide⟩
  exact .marked .nil (.cons header .crlf (.cons .crlf .nil) (.cons single .cr .nil
    (.cons empty .lf (.cons .lf .nil) (.last last))))

/-- `raggedData` is read as `raggedTable`, but not with a header that differs in case. -/
theorem ragged_upload_read : read raggedData ["NIK", "Phone, home"] = .ok raggedTable ∧
    read raggedData ["nik"] = .error .wrongHeader := by
  have hmark : Csv.isMarked "NIK" = false := by decide
  exact ⟨(read_written hmark written_raggedData _).1 (by decide),
    (read_written hmark written_raggedData _).2 (by decide)⟩

end Vetting.Upload

import Vetting.Csv.Reader
import Vetting.Text.Utf8

/-!
Uploads of many submissions as a table. The name and size are checked first; then the table is
read, and its first row must start with the expected column names. Rows may have any length.
-/

namespace Vetting.Upload

open Text (Bytes utf8)

inductive Fault where
  | wrongExtension
  | tooLarge (limit : Nat)
  | empty
  | wrongHeader
  | noDataRows
  | malformed (f : Csv.Fault)
  deriving DecidableEq, Repr

def Fault.message : Fault → String
  | .wrongExtension => "file must be a .csv file"
  | .tooLarge limit => "file exceeds the maximum size of " ++ toString limit ++ " bytes"
  | .empty => "csv file is empty"
  | .wrongHeader => "header template is not valid"
  | .noDataRows => "csv file has no data rows"
  | .malformed f => "could not read csv: " ++ f.message

/-- What follows the last dot of a file name. -/
def extension? (name : String) : Option (List Char) :=
  if '.' ∈ name.toList then some (name.toList.reverse.takeWhile (· ≠ '.')).reverse else none

def isCsvName (name : String) : Bool :=
  (extension? name).any fun e => Text.eqIgnoringCase (utf8 (String.ofList e)) (utf8 "csv")

/-- Checks a file's name and size before it is read. -/
def check (name : String) (size limit : Nat) : Except Fault Unit :=
  if !isCsvName name then .error .wrongExtension
  else if size > limit then .error (.tooLarge limit)
  else .ok ()

/-- The rows of a table, its header among them. -/
def read (data : Bytes) (header : List String) : Except Fault (List (List String)) :=
  match Csv.rows (Csv.dropMark data) with
  | .error f => .error (.malformed f)
  | .ok [] => .error .empty
  | .ok (first :: rest) =>
    if header.isPrefixOf first then .ok (first :: rest) else .error .wrongHeader

/-- A table that can be read has a header. -/
theorem read_eq_cons {data : Bytes} {header : List String} {table : List (List String)}
    (h : read data header = .ok table) : ∃ first rest, table = first :: rest := by
  unfold read at h
  split at h
  · cases h
  · cases h
  · split at h <;> cases h
    exact ⟨_, _, rfl⟩

/-- A table has no more rows than its upload has bytes. -/
theorem length_read_le {data : Bytes} {header : List String} {table : List (List String)}
    (h : read data header = .ok table) : table.length ≤ data.length := by
  unfold read at h
  split at h
  · cases h
  · cases h
  · next first rest hrows =>
    split at h <;> cases h
    exact Nat.le_trans (Csv.length_rows_le hrows) (Csv.length_dropMark_le data)

end Vetting.Upload

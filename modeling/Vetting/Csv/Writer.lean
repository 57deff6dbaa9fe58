import Vetting.Csv.Reader

/-!
Writing comma separated values. A cell is quoted, with its quotes doubled, when it holds a quote, a
comma or a line end, and written as it is otherwise. Every record ends with a line feed. A record
of one empty cell is written as two quotes, because a line without anything is no record. A table
whose records differ in their number of cells is refused.

What is written is a sequence of atoms: single bytes, and pairs of quotes that stay together.
-/

namespace Vetting.Csv

open Text (Bytes utf8)

def needsQuotes (cell : Bytes) : Bool :=
  cell.any fun b => b = quote || b = comma || isLineEnd b

/-- The atoms of a cell between its quotes. -/
def quotedAtoms (cell : Bytes) : List Bytes :=
  cell.map fun b => if b = quote then [quote, quote] else [b]

def cellAtoms (cell : Bytes) : List Bytes :=
  if needsQuotes cell then [quote] :: quotedAtoms cell ++ [[quote]] else cell.map fun b => [b]

/-- The cells with commas between them. -/
def cellsAtoms : List Bytes → List Bytes
  | [] => []
  | [c] => cellAtoms c
  | c :: d :: cs => cellAtoms c ++ [comma] :: cellsAtoms (d :: cs)

def recordAtoms (cells : List Bytes) : List Bytes :=
  (if cells = [[]] then [[quote, quote]] else cellsAtoms cells) ++ [[lf]]

def rowsAtoms (rows : List (List String)) : List Bytes :=
  rows.flatMap fun row => recordAtoms (row.map utf8)

/-- The written form of a table. -/
def writeRows (rows : List (List String)) : Bytes := (rowsAtoms rows).flatten

/-- A record with another number of cells than the record before it. -/
structure Uneven where
  before : Nat
  found : Nat
  deriving DecidableEq, Repr

def Uneven.message (u : Uneven) : String :=
  "CSV error: found record with " ++ toString u.found ++
    " fields, but the previous record has " ++ toString u.before ++ " fields"

/-- The first uneven record of a table, if it has one. -/
def uneven? : List (List String) → Option Uneven
  | r :: s :: rest =>
    if s.length = r.length then uneven? (s :: rest) else some ⟨r.length, s.length⟩
  | _ => none

/-- A table is even if all its records have so many cells. -/
theorem uneven?_eq_none {rows : List (List String)} {n : Nat} (h : ∀ r ∈ rows, r.length = n) :
    uneven? rows = none := by
  induction rows with
  | nil => rfl
  | cons r rest ih =>
    cases rest with
    | nil => rfl
    | cons s rest =>
      have hlen : s.length = r.length := (h s (by simp)).trans (h r (by simp)).symm
      rw [uneven?, if_pos hlen]
      exact ih fun t ht => h t (List.mem_cons_of_mem r ht)

end Vetting.Csv

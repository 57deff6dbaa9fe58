import Vetting.Text.Utf8

/-!
Reading comma separated values. A record ends at a line feed or a carriage return, and empty lines
are no records. A quote opens a quoted part only at the start of a cell; inside it two quotes are
one, and what follows the closing quote belongs to the cell. A quoted part left open runs to the
end of the data. One byte order mark in front is ignored.
-/

namespace Vetting.Csv

open Text (Bytes ofUtf8? validLength)

def comma : UInt8 := 0x2C

def quote : UInt8 := 0x22

def lf : UInt8 := 0x0A

def cr : UInt8 := 0x0D

def isLineEnd (b : UInt8) : Bool := b = lf || b = cr

def byteOrderMark : Bytes := [0xEF, 0xBB, 0xBF]

/-- Data without the byte order mark it may start with. -/
def dropMark (b : Bytes) : Bytes := if byteOrderMark.isPrefixOf b then b.drop 3 else b

theorem length_dropMark_le (b : Bytes) : (dropMark b).length ≤ b.length := by
  unfold dropMark
  split <;> simp

/-- Where a record starts: its number and line, and the bytes before it. A record starts where the
one before it ended, so empty lines in between count to it. -/
structure Mark where
  record : Nat
  line : Nat
  byte : Nat
  deriving DecidableEq, Repr

structure Record where
  cells : List Bytes
  mark : Mark
  deriving DecidableEq, Repr

inductive Mode where
  /-- Before a record. -/
  | recordStart
  /-- Before a cell. -/
  | cellStart
  | bare
  | quoted
  /-- After a quote inside a quoted part. -/
  | quoteSeen
  deriving DecidableEq, Repr

structure State where
  mode : Mode
  /-- The bytes of the current cell, the last one first. -/
  cell : Bytes
  /-- The finished cells of the current record, the last one first. -/
  cells : List Bytes
  mark : Mark
  line : Nat
  byte : Nat

namespace State

def initial (skipped : Nat) : State := ⟨.recordStart, [], [], ⟨0, 1, 0⟩, 1, skipped⟩

def advance (s : State) (b : UInt8) : State :=
  { s with line := if b = lf then s.line + 1 else s.line, byte := s.byte + 1 }

/-- The record that ends here. -/
def record (s : State) : Record := ⟨(s.cell.reverse :: s.cells).reverse, s.mark⟩

/-- The state after the record that ends with the byte `b`. -/
def restart (s : State) (b : UInt8) : State :=
  let s := s.advance b
  { s with mode := .recordStart, cell := [], cells := [],
           mark := ⟨s.mark.record + 1, s.line, s.byte⟩ }

def nextCell (s : State) : State :=
  { s with mode := .cellStart, cell := [], cells := s.cell.reverse :: s.cells }

def take (s : State) (mode : Mode) (b : UInt8) : State :=
  { s with mode := mode, cell := b :: s.cell }

/-- One byte outside a quoted part: a separator, the end of the record, or part of the cell. -/
def plain (s : State) (b : UInt8) : State × Option Record :=
  if b = comma then (s.nextCell.advance b, none)
  else if isLineEnd b then (s.restart b, some s.record)
  else ((s.take .bare b).advance b, none)

def open_ (s : State) (b : UInt8) : State × Option Record :=
  if b = quote then ({ s with mode := .quoted }.advance b, none) else s.plain b

def step (s : State) (b : UInt8) : State × Option Record :=
  match s.mode with
  | .recordStart => if isLineEnd b then (s.advance b, none) else s.open_ b
  | .cellStart => s.open_ b
  | .bare => s.plain b
  | .quoted =>
    if b = quote then ({ s with mode := .quoteSeen }.advance b, none)
    else ((s.take .quoted b).advance b, none)
  | .quoteSeen =>
    if b = quote then ((s.take .quoted b).advance b, none) else s.plain b

end State

def recordsFrom (s : State) : Bytes → List Record
  | [] => if s.mode = .recordStart then [] else [s.record]
  | b :: rest =>
    match s.step b with
    | (s, none) => recordsFrom s rest
    | (s, some r) => r :: recordsFrom s rest

def records (b : Bytes) : List Record :=
  let rest := dropMark b
  recordsFrom (State.initial (b.length - rest.length)) rest

/-- A byte that ends a record is followed by the start of one. -/
theorem State.step_record {s s' : State} {b : UInt8} {r : Record} (h : s.step b = (s', some r)) :
    s'.mode = .recordStart ∧ s.mode ≠ .recordStart := by
  have hplain : s.plain b = (s', some r) → s'.mode = .recordStart ∧ isLineEnd b = true := by
    intro h
    unfold State.plain at h
    split at h
    · cases h
    · split at h <;> cases h
      exact ⟨rfl, ‹_›⟩
  have hopen : s.open_ b = (s', some r) → s'.mode = .recordStart ∧ isLineEnd b = true := by
    intro h
    unfold State.open_ at h
    split at h
    · cases h
    · exact hplain h
  unfold State.step at h
  split at h
  · split at h
    · cases h
    · exact absurd (hopen h).2 ‹_›
  · exact ⟨(hopen h).1, by simp [*]⟩
  · exact ⟨(hplain h).1, by simp [*]⟩
  · split at h <;> cases h
  · split at h
    · cases h
    · exact ⟨(hplain h).1, by simp [*]⟩

/-- Every record but a last one without a line end takes at least one byte. -/
theorem length_recordsFrom_le (s : State) (b : Bytes) :
    (recordsFrom s b).length ≤ b.length + if s.mode = .recordStart then 0 else 1 := by
  induction b generalizing s with
  | nil =>
    unfold recordsFrom
    split <;> simp
  | cons b rest ih =>
    unfold recordsFrom
    split
    · next s' _ =>
      have hrest := ih s'
      simp only [List.length_cons]
      split at hrest <;> omega
    · next s' r hstep =>
      obtain ⟨hstart, hin⟩ := State.step_record hstep
      have hrest := ih s'
      simp only [List.length_cons, hstart, hin, if_true, if_false] at hrest ⊢
      omega

/-- A cell that is no text: the record, the cell's number and where in the cell. -/
structure Fault where
  mark : Mark
  cell : Nat
  offset : Nat
  deriving DecidableEq, Repr

def Fault.message (f : Fault) : String :=
  "CSV parse error: record " ++ toString f.mark.record ++ " (line " ++ toString f.mark.line ++
    ", field: " ++ toString f.cell ++ ", byte: " ++ toString f.mark.byte ++
    "): invalid utf-8: invalid UTF-8 in field " ++ toString f.cell ++ " near byte index " ++
    toString f.offset

/-- The cells as texts, numbered from `i`. -/
def cellTexts (mark : Mark) (i : Nat) : List Bytes → Except Fault (List String)
  | [] => .ok []
  | c :: cs =>
    match ofUtf8? c with
    | some s => (cellTexts mark (i + 1) cs).map (s :: ·)
    | none => .error ⟨mark, i, validLength c⟩

/-- The rows of a table of texts. The first cell that is no text refuses the whole. -/
def rows (b : Bytes) : Except Fault (List (List String)) :=
  (records b).mapM fun r => cellTexts r.mark 0 r.cells

theorem length_of_mapM_ok {f : Record → Except Fault (List String)} {l : List Record}
    {rs : List (List String)} (h : l.mapM f = .ok rs) : rs.length = l.length := by
  induction l generalizing rs with
  | nil =>
    cases h
    rfl
  | cons r l ih =>
    rw [List.mapM_cons] at h
    cases hr : f r with
    | error e => simp [hr, bind, Except.bind] at h
    | ok row =>
      cases hl : l.mapM f with
      | error e => simp [hr, hl, bind, Except.bind] at h
      | ok rest =>
        simp only [hr, hl, bind, Except.bind, pure, Except.pure, Except.ok.injEq] at h
        rw [← h, List.length_cons, List.length_cons, ih hl]

/-- A table has no more rows than bytes. -/
theorem length_rows_le {b : Bytes} {rs : List (List String)} (h : rows b = .ok rs) :
    rs.length ≤ b.length := by
  have hrec : (records b).length ≤ (dropMark b).length :=
    length_recordsFrom_le (State.initial (b.length - (dropMark b).length)) (dropMark b)
  have hdrop := length_dropMark_le b
  have hrows := length_of_mapM_ok h
  omega

end Vetting.Csv

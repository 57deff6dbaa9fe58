import Vetting.Csv.Writer

/-! # The ways to write a table

One table can be written in many ways: a cell may be quoted though it need not be, a record may end
with either line end or both, the last record may lack its end, empty lines may stand between
records, and a byte order mark may stand in front. `Written` says that data are a table written in
one of these ways. Main statements: the reader gets the table back from each of them, and the writer
writes tables in one of them. -/

namespace Vetting

namespace Text

/-- Bytes that start with the forms of two characters start with those of one. -/
theorem eq_of_utf8EncodeChar_append {c d : Char} {a b : Bytes}
    (h : String.utf8EncodeChar c ++ a = String.utf8EncodeChar d ++ b) : c = d := by
  have hc := ByteArray.utf8DecodeChar?_utf8EncodeChar_append (b := a.toByteArray) (c := c)
  have hd := ByteArray.utf8DecodeChar?_utf8EncodeChar_append (b := b.toByteArray) (c := d)
  have hsame : (String.utf8EncodeChar c).toByteArray ++ a.toByteArray =
      (String.utf8EncodeChar d).toByteArray ++ b.toByteArray := by
    rw [← List.toByteArray_append, ← List.toByteArray_append, h]
  rw [hsame, hd] at hc
  exact (Option.some.inj hc).symm

end Text

namespace Csv

open Text (Bytes utf8 ofUtf8? ofUtf8?_utf8 utf8_ofList_cons eq_of_utf8EncodeChar_append)

/-! ## Ways of writing -/

/-- A cell with its quotes doubled. -/
def doubled (c : Bytes) : Bytes := c.flatMap fun b => if b = quote then [quote, quote] else [b]

/-- The ways to write a cell. -/
inductive CellForm (c : Bytes) : Bytes → Prop where
  | bare : needsQuotes c = false → CellForm c c
  | quoted : CellForm c (quote :: (doubled c ++ [quote]))

/-- The ways to write cells with commas between them. -/
inductive CellsForm : List Bytes → Bytes → Prop where
  | last {c w} : CellForm c w → CellsForm [c] w
  | cons {c w cs v} : CellForm c w → CellsForm cs v → CellsForm (c :: cs) (w ++ comma :: v)

/-- The ways to write a record. A line without anything is none of them. -/
def RecordForm (cells : List Bytes) (w : Bytes) : Prop := CellsForm cells w ∧ w ≠ []

inductive LineEnd : Bytes → Prop where
  | lf : LineEnd [lf]
  | cr : LineEnd [cr]
  | crlf : LineEnd [cr, lf]

/-- Any number of empty lines. -/
inductive EmptyLines : Bytes → Prop where
  | nil : EmptyLines []
  | cons {e b} : LineEnd e → EmptyLines b → EmptyLines (e ++ b)

/-- The ways to write records behind each other. -/
inductive RecordsForm : List (List Bytes) → Bytes → Prop where
  | nil : RecordsForm [] []
  | last {r w} : RecordForm r w → RecordsForm [r] w
  | cons {r w e b rs v} : RecordForm r w → LineEnd e → EmptyLines b → RecordsForm rs v →
      RecordsForm (r :: rs) (w ++ (e ++ (b ++ v)))

/-- The ways to write a table. -/
inductive Written (table : List (List String)) : Bytes → Prop where
  | plain {b w} : EmptyLines b → RecordsForm (table.map (·.map utf8)) w → Written table (b ++ w)
  | marked {b w} : EmptyLines b → RecordsForm (table.map (·.map utf8)) w →
      Written table (byteOrderMark ++ (b ++ w))

/-! ## Single bytes -/

/-- A byte that stands for itself in a bare cell. -/
def Ordinary (b : UInt8) : Prop := b ≠ quote ∧ b ≠ comma ∧ isLineEnd b = false

theorem needsQuotes_eq_false {c : Bytes} : needsQuotes c = false ↔ ∀ b ∈ c, Ordinary b := by
  simp [needsQuotes, Ordinary, and_assoc]

namespace State

variable {s t u : State} {c w v : Bytes} {cs ds : List Bytes} {b : UInt8}

theorem step_ordinary (hb : Ordinary b) (hq : s.mode ≠ .quoted) (hs : s.mode ≠ .quoteSeen) :
    s.step b = ((s.take .bare b).advance b, none) := by
  obtain ⟨hquote, hcomma, hend⟩ := hb
  cases hm : s.mode with
  | recordStart => simp [step, hm, open_, plain, hquote, hcomma, hend]
  | cellStart => simp [step, hm, open_, plain, hquote, hcomma, hend]
  | bare => simp [step, hm, plain, hcomma, hend]
  | quoted => exact absurd hm hq
  | quoteSeen => exact absurd hm hs

theorem step_comma (hq : s.mode ≠ .quoted) : s.step comma = (s.nextCell.advance comma, none) := by
  have hquote : comma ≠ quote := by decide
  have hend : isLineEnd comma = false := by decide
  cases hm : s.mode with
  | recordStart => simp [step, hm, open_, plain, hquote, hend]
  | cellStart => simp [step, hm, open_, plain, hquote]
  | bare => simp [step, hm, plain]
  | quoted => exact absurd hm hq
  | quoteSeen => simp [step, hm, plain, hquote]

/-- A line end outside of quotes ends the record that has begun. -/
theorem step_lineEnd (hb : isLineEnd b = true) (hq : s.mode ≠ .quoted)
    (hr : s.mode ≠ .recordStart) : s.step b = (s.restart b, some s.record) := by
  have hquote : b ≠ quote := by
    rintro rfl
    exact absurd hb (by decide)
  have hcomma : b ≠ comma := by
    rintro rfl
    exact absurd hb (by decide)
  cases hm : s.mode with
  | recordStart => exact absurd hm hr
  | cellStart => simp [step, hm, open_, plain, hquote, hcomma, hb]
  | bare => simp [step, hm, plain, hcomma, hb]
  | quoted => exact absurd hm hq
  | quoteSeen => simp [step, hm, plain, hquote, hcomma, hb]

/-! ## Cells and records -/

/-- Reading `w` takes the reader from `s` to `t`, and no record ends on the way. -/
def Passes (s : State) (w : Bytes) (t : State) : Prop :=
  ∀ rest, recordsFrom s (w ++ rest) = recordsFrom t rest

theorem passes_nil (s : State) : Passes s [] s := fun _ => rfl

theorem passes_of_step (h : s.step b = (t, none)) : Passes s [b] t := by
  intro rest
  simp [recordsFrom, h]

theorem Passes.trans (hst : Passes s w t) (htu : Passes t v u) : Passes s (w ++ v) u := by
  intro rest
  rw [List.append_assoc, hst, htu]

structure Fresh (s : State) : Prop where
  mode : s.mode = .recordStart
  cell : s.cell = []
  cells : s.cells = []

/-- Before a cell, with the cells `cs` of its record read. -/
structure BeforeCell (s : State) (cs : List Bytes) : Prop where
  mode : s.mode = .recordStart ∨ s.mode = .cellStart
  cell : s.cell = []
  cells : s.cells = cs.reverse

/-- At the end of a cell of a record of which `cs` have been read by then. -/
structure AfterCell (s : State) (cs : List Bytes) : Prop where
  mode : s.mode ≠ .quoted
  cells : s.record.cells = cs

theorem Fresh.beforeCell (h : Fresh s) : BeforeCell s [] := ⟨.inl h.mode, h.cell, h.cells⟩

theorem fresh_restart (s : State) (b : UInt8) : Fresh (s.restart b) := ⟨rfl, rfl, rfl⟩

theorem afterCell_of_eq (hm : s.mode ≠ .quoted) (hcell : s.cell = c.reverse)
    (hcells : s.cells = cs.reverse) : AfterCell s (cs ++ [c]) :=
  ⟨hm, by simp [record, hcell, hcells]⟩

theorem AfterCell.next (h : AfterCell s cs) : BeforeCell (s.nextCell.advance comma) cs where
  mode := .inr rfl
  cell := rfl
  cells := by simp [← h.cells, record, nextCell, advance]

theorem passes_bare (hs : s.mode = .bare) (hc : ∀ b ∈ c, Ordinary b) :
    ∃ t, Passes s c t ∧ t.mode = .bare ∧ t.cell = c.reverse ++ s.cell ∧ t.cells = s.cells := by
  induction c generalizing s with
  | nil => exact ⟨s, passes_nil s, hs, rfl, rfl⟩
  | cons b c ih =>
    have hstep := step_ordinary (s := s) (hc b (by simp)) (by simp [hs]) (by simp [hs])
    obtain ⟨t, ht, hmode, hcell, hcells⟩ :=
      ih (s := (s.take .bare b).advance b) rfl fun x hx => hc x (List.mem_cons_of_mem b hx)
    exact ⟨t, (passes_of_step hstep).trans ht, hmode, by simp [hcell, take, advance], hcells⟩

theorem passes_doubled (c : Bytes) (hs : s.mode = .quoted) :
    ∃ t, Passes s (doubled c) t ∧ t.mode = .quoted ∧ t.cell = c.reverse ++ s.cell ∧
      t.cells = s.cells := by
  induction c generalizing s with
  | nil => exact ⟨s, passes_nil s, hs, rfl, rfl⟩
  | cons b c ih =>
    have hfirst : ∃ t, Passes s (if b = quote then [quote, quote] else [b]) t ∧
        t.mode = .quoted ∧ t.cell = b :: s.cell ∧ t.cells = s.cells := by
      by_cases hb : b = quote
      · subst hb
        have hseen : s.step quote = ({ s with mode := .quoteSeen }.advance quote, none) := by
          simp [step, hs]
        have htaken : ({ s with mode := .quoteSeen }.advance quote).step quote =
            ((({ s with mode := .quoteSeen }.advance quote).take .quoted quote).advance quote,
              none) := by
          simp [step, advance]
        exact ⟨_, (passes_of_step hseen).trans (passes_of_step htaken), rfl, rfl, rfl⟩
      · have htaken : s.step b = ((s.take .quoted b).advance b, none) := by simp [step, hs, hb]
        rw [if_neg hb]
        exact ⟨(s.take .quoted b).advance b, passes_of_step htaken, rfl, rfl, rfl⟩
    obtain ⟨t, ht, hmode, hcell, hcells⟩ := hfirst
    obtain ⟨u, hu, humode, hucell, hucells⟩ := ih hmode
    exact ⟨u, ht.trans hu, humode, by simp [hucell, hcell], hucells.trans hcells⟩

/-- **A cell is read from either of its forms.** Only a form without anything leaves the reader at
the start of a record. -/
theorem passes_cell (hw : CellForm c w) (hs : BeforeCell s cs) :
    ∃ t, Passes s w t ∧ AfterCell t (cs ++ [c]) ∧
      (t.mode = .recordStart → s.mode = .recordStart ∧ w = []) := by
  have hquoted : s.mode ≠ .quoted := by rcases hs.mode with h | h <;> simp [h]
  have hseen : s.mode ≠ .quoteSeen := by rcases hs.mode with h | h <;> simp [h]
  cases hw with
  | bare hc =>
    have hc := needsQuotes_eq_false.mp hc
    cases c with
    | nil => exact ⟨s, passes_nil s, afterCell_of_eq hquoted hs.cell hs.cells, fun h => ⟨h, rfl⟩⟩
    | cons b c =>
      have hstep := step_ordinary (hc b (by simp)) hquoted hseen
      obtain ⟨t, ht, hmode, hcell, hcells⟩ := passes_bare (s := (s.take .bare b).advance b) rfl
        fun x hx => hc x (List.mem_cons_of_mem b hx)
      refine ⟨t, (passes_of_step hstep).trans ht, afterCell_of_eq (by simp [hmode]) ?_ ?_, ?_⟩
      · simp [hcell, take, advance, hs.cell]
      · rw [hcells]
        exact hs.cells
      · simp [hmode]
  | quoted =>
    have hopen : s.step quote = ({ s with mode := .quoted }.advance quote, none) := by
      have hend : isLineEnd quote = false := by decide
      rcases hs.mode with hm | hm <;> simp [step, hm, open_, hend]
    obtain ⟨t, ht, hmode, hcell, hcells⟩ :=
      passes_doubled (s := { s with mode := .quoted }.advance quote) c rfl
    have hclose : t.step quote = ({ t with mode := .quoteSeen }.advance quote, none) := by
      simp [step, hmode]
    refine ⟨_, (passes_of_step hopen).trans (ht.trans (passes_of_step hclose)),
      afterCell_of_eq nofun ?_ ?_, nofun⟩
    · simp [advance, hcell, hs.cell]
    · simp [advance, hcells, hs.cells]

theorem passes_cells (hw : CellsForm ds w) (hs : BeforeCell s cs) :
    ∃ t, Passes s w t ∧ AfterCell t (cs ++ ds) ∧
      (t.mode = .recordStart → s.mode = .recordStart ∧ w = []) := by
  induction hw generalizing s cs with
  | last hc => exact passes_cell hc hs
  | @cons c w ds v hc _ ih =>
    obtain ⟨t, ht, hafter, _⟩ := passes_cell hc hs
    obtain ⟨u, hu, huafter, hstart⟩ := ih hafter.next
    refine ⟨u, ?_, by simpa using huafter, ?_⟩
    · exact ht.trans ((passes_of_step (step_comma hafter.mode)).trans hu)
    · intro h
      cases (hstart h).1

/-- **A record is read from any of its forms.** -/
theorem passes_record (hw : RecordForm ds w) (hs : Fresh s) :
    ∃ t, Passes s w t ∧ AfterCell t ds ∧ t.mode ≠ .recordStart := by
  obtain ⟨t, ht, hafter, hstart⟩ := passes_cells hw.1 hs.beforeCell
  exact ⟨t, ht, by simpa using hafter, fun h => hw.2 (hstart h).2⟩

/-! ## Lines -/

theorem passes_lineEnd_byte (hb : isLineEnd b = true) (hs : Fresh s) :
    ∃ t, Passes s [b] t ∧ Fresh t := by
  have hstep : s.step b = (s.advance b, none) := by simp [step, hs.mode, hb]
  exact ⟨_, passes_of_step hstep, hs.mode, hs.cell, hs.cells⟩

theorem passes_lineEnd (he : LineEnd w) (hs : Fresh s) : ∃ t, Passes s w t ∧ Fresh t := by
  cases he with
  | lf => exact passes_lineEnd_byte rfl hs
  | cr => exact passes_lineEnd_byte rfl hs
  | crlf =>
    obtain ⟨t, ht, hfresh⟩ := passes_lineEnd_byte (b := cr) rfl hs
    obtain ⟨u, hu, hfresh'⟩ := passes_lineEnd_byte (b := lf) rfl hfresh
    exact ⟨u, ht.trans hu, hfresh'⟩

theorem passes_emptyLines (hw : EmptyLines w) (hs : Fresh s) : ∃ t, Passes s w t ∧ Fresh t := by
  induction hw generalizing s with
  | nil => exact ⟨s, passes_nil s, hs⟩
  | cons he _ ih =>
    obtain ⟨t, ht, hfresh⟩ := passes_lineEnd he hs
    obtain ⟨u, hu, hfresh'⟩ := ih hfresh
    exact ⟨u, ht.trans hu, hfresh'⟩

/-- A line end of any kind ends one record, and no second one. -/
theorem recordsFrom_lineEnd (he : LineEnd w) (hs : AfterCell s ds) (hr : s.mode ≠ .recordStart) :
    ∃ t, Fresh t ∧ ∀ rest, recordsFrom s (w ++ rest) = s.record :: recordsFrom t rest := by
  have first {b : UInt8} (hb : isLineEnd b = true) (rest : Bytes) :
      recordsFrom s (b :: rest) = s.record :: recordsFrom (s.restart b) rest := by
    rw [recordsFrom, step_lineEnd hb hs.mode hr]
  cases he with
  | lf => exact ⟨_, fresh_restart s lf, first rfl⟩
  | cr => exact ⟨_, fresh_restart s cr, first rfl⟩
  | crlf =>
    obtain ⟨t, ht, hfresh⟩ := passes_lineEnd_byte (b := lf) rfl (fresh_restart s cr)
    refine ⟨t, hfresh, fun rest => ?_⟩
    rw [← ht]
    exact first rfl (lf :: rest)

end State

open State

/-- **Records are read from any of their forms**, none of them split, merged or lost. -/
theorem cells_recordsFrom {rs : List (List Bytes)} {w : Bytes} {s : State} (hw : RecordsForm rs w)
    (hs : Fresh s) : (recordsFrom s w).map Record.cells = rs := by
  induction hw generalizing s with
  | nil => simp [recordsFrom, hs.mode]
  | @last r w hr =>
    obtain ⟨t, ht, hafter, hstart⟩ := passes_record hr hs
    have hrec : recordsFrom s w = recordsFrom t [] := by simpa using ht []
    rw [hrec, recordsFrom, if_neg hstart]
    simp [hafter.cells]
  | @cons r w e b rs v hr he hb _ ih =>
    obtain ⟨t, ht, hafter, hstart⟩ := passes_record hr hs
    obtain ⟨u, hu, hend⟩ := recordsFrom_lineEnd he hafter hstart
    obtain ⟨x, hx, hfresh⟩ := passes_emptyLines hb hu
    rw [ht, hend, hx, List.map_cons, hafter.cells, ih hfresh]

/-! ## Texts -/

theorem cellTexts_utf8 (m : Mark) (i : Nat) (row : List String) :
    cellTexts m i (row.map utf8) = .ok row := by
  induction row generalizing i with
  | nil => rfl
  | cons c row ih => simp [cellTexts, ofUtf8?_utf8, ih, Except.map]

theorem mapM_cellTexts {l : List Record} {table : List (List String)}
    (h : l.map Record.cells = table.map (·.map utf8)) :
    l.mapM (fun r => cellTexts r.mark 0 r.cells) = .ok table := by
  induction l generalizing table with
  | nil =>
    cases table with
    | nil => rfl
    | cons row table => cases h
  | cons r l ih =>
    cases table with
    | nil => cases h
    | cons row table =>
      obtain ⟨hr, hl⟩ := List.cons.inj h
      rw [List.mapM_cons, hr, cellTexts_utf8, ih hl]
      rfl

/-- Whether a text starts with the character of the byte order mark. -/
def isMarked (s : String) : Bool := s.toList.head? = some '\uFEFF'

theorem isMarked_of_utf8 {s : String} {w : Bytes} (hne : utf8 s ≠ [])
    (h : byteOrderMark <+: utf8 s ++ w) : isMarked s = true := by
  obtain ⟨v, hv⟩ := h
  rw [← String.ofList_toList (s := s)] at hv hne
  cases hs : s.toList with
  | nil =>
    rw [hs] at hne
    exact absurd rfl hne
  | cons c cs =>
    rw [hs, utf8_ofList_cons, List.append_assoc] at hv
    have hc : '\uFEFF' = c := eq_of_utf8EncodeChar_append hv
    simp [isMarked, hs, ← hc]

theorem unmarked_record {cell : String} {cs : List Bytes} {w : Bytes} (hcell : isMarked cell = false)
    (hw : RecordForm (utf8 cell :: cs) w) (rest : Bytes) : ¬ byteOrderMark <+: w ++ rest := by
  have bare {v : Bytes} (hv : ∀ b ∈ v.head?, b ≠ 0xEF) : ¬ byteOrderMark <+: utf8 cell ++ v := by
    intro h
    by_cases hnil : utf8 cell = []
    · rw [hnil] at h
      cases v with
      | nil => cases List.prefix_nil.mp h
      | cons b v => exact hv b rfl (List.cons_prefix_cons.mp h).1.symm
    · rw [isMarked_of_utf8 hnil h] at hcell
      cases hcell
  have quoted {v : Bytes} : ¬ byteOrderMark <+: quote :: v := by
    intro h
    exact absurd (List.cons_prefix_cons.mp h).1 (by decide)
  obtain ⟨hw, hne⟩ := hw
  cases hw with
  | last hc =>
    cases hc with
    | bare hc =>
      intro h
      rw [isMarked_of_utf8 hne h] at hcell
      cases hcell
    | quoted => exact quoted
  | cons hc hcs =>
    rw [List.append_assoc]
    cases hc with
    | bare hc =>
      apply bare
      simp only [List.cons_append, List.head?_cons, Option.mem_def, Option.some.injEq]
      rintro b rfl
      decide
    | quoted => exact quoted

theorem unmarked_records {cell : String} {cs : List Bytes} {rs : List (List Bytes)}
    {w : Bytes} (hcell : isMarked cell = false) (hw : RecordsForm ((utf8 cell :: cs) :: rs) w) :
    ¬ byteOrderMark <+: w := by
  cases hw with
  | last hr => simpa using unmarked_record hcell hr []
  | cons hr => exact unmarked_record hcell hr _

theorem unmarked_emptyLines {b w : Bytes} (hb : EmptyLines b)
    (hw : ¬ byteOrderMark <+: w) : ¬ byteOrderMark <+: b ++ w := by
  cases hb with
  | nil => exact hw
  | cons he =>
    intro h
    cases he <;> exact absurd (List.cons_prefix_cons.mp h).1 (by decide)

theorem dropMark_unmarked {b : Bytes} (h : ¬ byteOrderMark <+: b) : dropMark b = b := by
  rw [dropMark, if_neg (by simpa [List.isPrefixOf_iff_prefix] using h)]

theorem dropMark_mark (b : Bytes) : dropMark (byteOrderMark ++ b) = b := by
  rw [dropMark, if_pos (by simp [List.isPrefixOf_iff_prefix])]
  rfl

/-- **A table is read from any of its forms**, unless its first cell looks like a byte order mark. -/
theorem rows_of_written {cell : String} {cells : List String} {rest : List (List String)}
    {data : Bytes} (hcell : isMarked cell = false) (hw : Written ((cell :: cells) :: rest) data) :
    rows (dropMark data) = .ok ((cell :: cells) :: rest) := by
  have unmarked {b w : Bytes} (hb : EmptyLines b)
      (hw : RecordsForm (((cell :: cells) :: rest).map (·.map utf8)) w) :
      ¬ byteOrderMark <+: b ++ w := by
    have hrecords := unmarked_records hcell hw
    exact unmarked_emptyLines hb hrecords
  have read {b w : Bytes} (hb : EmptyLines b)
      (hw : RecordsForm (((cell :: cells) :: rest).map (·.map utf8)) w) :
      rows (b ++ w) = .ok ((cell :: cells) :: rest) := by
    obtain ⟨s, hs, hfresh⟩ := passes_emptyLines hb
      (s := initial ((b ++ w).length - (b ++ w).length)) ⟨rfl, rfl, rfl⟩
    rw [rows, records, dropMark_unmarked (unmarked hb hw), hs]
    exact mapM_cellTexts (cells_recordsFrom hw hfresh)
  cases hw with
  | plain hb hw =>
    rw [dropMark_unmarked (unmarked hb hw)]
    exact read hb hw
  | marked hb hw =>
    rw [dropMark_mark]
    exact read hb hw

/-! ## The writer's form -/

theorem flatten_quotedAtoms (c : Bytes) : (quotedAtoms c).flatten = doubled c := by
  rw [quotedAtoms, ← List.flatMap_def, doubled]

theorem cellForm_cellAtoms (c : Bytes) : CellForm c (cellAtoms c).flatten := by
  unfold cellAtoms
  cases hc : needsQuotes c with
  | true =>
    rw [if_pos rfl]
    simpa [flatten_quotedAtoms] using CellForm.quoted (c := c)
  | false =>
    have hplain : (c.map fun b => [b]).flatten = c := by
      rw [← List.flatMap_def, List.flatMap_singleton']
    rw [if_neg (by simp), hplain]
    exact .bare hc

theorem cellsForm_cellsAtoms {cells : List Bytes} (h : cells ≠ []) :
    CellsForm cells (cellsAtoms cells).flatten := by
  induction cells with
  | nil => exact absurd rfl h
  | cons c cells ih =>
    cases cells with
    | nil => exact .last (cellForm_cellAtoms c)
    | cons d cells =>
      simpa [cellsAtoms] using CellsForm.cons (cellForm_cellAtoms c) (ih (by simp))

/-- A record of one empty cell is written as a pair of quotes, any other as its cells. -/
theorem recordForm_recordAtoms {cells : List Bytes} (h : cells ≠ []) :
    ∃ w, RecordForm cells w ∧ (recordAtoms cells).flatten = w ++ [lf] := by
  unfold recordAtoms
  by_cases hempty : cells = [[]]
  · subst hempty
    exact ⟨[quote, quote], ⟨.last .quoted, by simp⟩, rfl⟩
  · refine ⟨(cellsAtoms cells).flatten, ⟨cellsForm_cellsAtoms h, ?_⟩, by simp [hempty]⟩
    intro hnil
    have hform := cellsForm_cellsAtoms h
    rw [hnil] at hform
    generalize hw : ([] : Bytes) = w at hform
    cases hform with
    | last hc =>
      cases hc with
      | bare => exact hempty (by rw [hw])
      | quoted => cases hw
    | cons => simp at hw

/-- **The writer writes a table in one of its forms.** -/
theorem written_writeRows {rows : List (List String)} (h : ∀ r ∈ rows, r ≠ []) :
    Written rows (writeRows rows) := by
  have hrecords : RecordsForm (rows.map (·.map utf8)) (writeRows rows) := by
    induction rows with
    | nil => exact .nil
    | cons r rows ih =>
      have hr : r.map utf8 ≠ [] := by simpa using h r List.mem_cons_self
      obtain ⟨w, hw, hflat⟩ := recordForm_recordAtoms hr
      have hrest := ih fun s hs => h s (List.mem_cons_of_mem r hs)
      have hwrite : writeRows (r :: rows) = w ++ ([lf] ++ ([] ++ writeRows rows)) := by
        simp [writeRows, rowsAtoms, hflat]
      rw [hwrite]
      exact .cons hw .lf .nil hrest
  exact .plain .nil hrecords

end Csv

end Vetting

import Vetting.Proofs.ExportReadBack

/-! # Exports into a sink that fills up

A sink takes the blocks of an export one by one, each whole or not at all, until one does not fit.
That one is offered once more when the writer is let go, and is turned down again. So a sink never
holds anything but the front of an export, and an export is reported as written just if the sink
took all of it: a block that is refused is never forgotten, wherever it stands and however little of
it was too much. -/

namespace Vetting.Csv

open Text (Bytes)

/-- What a sink holds, and how many bytes it has room for in all. -/
structure Sink where
  room : Nat
  held : Bytes
  deriving DecidableEq, Repr

namespace Sink

variable {s : Sink} {b : Bytes} {bs : List Bytes}

def empty (room : Nat) : Sink := ⟨room, []⟩

def Fits (s : Sink) (b : Bytes) : Prop := s.held.length + b.length ≤ s.room

instance (s : Sink) (b : Bytes) : Decidable (s.Fits b) := by unfold Fits; infer_instance

/-- What becomes of a sink to which a block is offered. -/
def offer (s : Sink) (b : Bytes) : Sink := if s.Fits b then { s with held := s.held ++ b } else s

/-- Offers blocks in turn, and tells whether all were taken. The first that is refused is the last
one offered, once more when the writer is let go. -/
def offerAll (s : Sink) : List Bytes → Sink × Bool
  | [] => (s, true)
  | b :: bs => if s.Fits b then (s.offer b).offerAll bs else ((s.offer b).offer b, false)

theorem offer_of_fits (h : s.Fits b) : s.offer b = ⟨s.room, s.held ++ b⟩ := if_pos h

theorem offer_of_not_fits (h : ¬ s.Fits b) : s.offer b = s := if_neg h

theorem length_offer_le (h : s.Fits b) : (s.offer b).held.length ≤ (s.offer b).room := by
  rw [offer_of_fits h, List.length_append]
  exact h

theorem offerAll_of_fits (h : s.Fits b) : s.offerAll (b :: bs) = (s.offer b).offerAll bs :=
  if_pos h

theorem offerAll_of_not_fits (h : ¬ s.Fits b) : s.offerAll (b :: bs) = (s, false) := by
  rw [offerAll, if_neg h, offer_of_not_fits h, offer_of_not_fits h]

/-- How a sink that was offered `bytes`, and the word on whether it took all of them, stand to the
sink as it was before. -/
structure Took (s : Sink) (bytes : Bytes) (t : Sink × Bool) : Prop where
  front : t.1.held <+: s.held ++ bytes
  within : t.1.held.length ≤ s.room
  all_iff : t.2 = true ↔ s.held.length + bytes.length ≤ s.room
  all_held : t.2 = true → t.1.held = s.held ++ bytes

theorem Took.of_offer {bytes : Bytes} {t : Sink × Bool} (hb : s.Fits b)
    (h : (s.offer b).Took bytes t) : s.Took (b ++ bytes) t := by
  rw [offer_of_fits hb] at h
  constructor
  · simpa using h.front
  · exact h.within
  · simpa [Nat.add_assoc] using h.all_iff
  · simpa using h.all_held

/-- **A sink holds the front of what it was offered**, behind what it held before, never more than
it has room for, and all of it just if there was room for all of it. -/
theorem took_offerAll (bs : List Bytes) (hroom : s.held.length ≤ s.room) :
    s.Took bs.flatten (s.offerAll bs) := by
  induction bs generalizing s with
  | nil => exact ⟨by simp [offerAll], hroom, by simpa [offerAll] using hroom, by simp [offerAll]⟩
  | cons b bs ih =>
    rw [List.flatten_cons]
    by_cases hb : s.Fits b
    · rw [offerAll_of_fits hb]
      exact (ih (length_offer_le hb)).of_offer hb
    · have hmore : ¬ s.held.length + (b ++ bs.flatten).length ≤ s.room := by
        rw [List.length_append]
        unfold Fits at hb
        omega
      rw [offerAll_of_not_fits hb]
      exact ⟨List.prefix_append _ _, hroom, iff_of_false Bool.false_ne_true hmore,
        fun h => by cases h⟩

theorem offerAll_eq_deliver (bs : List Bytes) (hroom : s.held.length ≤ s.room) :
    s.offerAll bs = (⟨s.room, s.held ++ (deliver (some (s.room - s.held.length)) bs).taken⟩,
      (deliver (some (s.room - s.held.length)) bs).complete) := by
  induction bs generalizing s with
  | nil => simp [offerAll, deliver]
  | cons b bs ih =>
    by_cases hb : s.Fits b
    · have hleft : ¬ s.room - s.held.length < b.length := by
        unfold Fits at hb
        omega
      rw [offerAll_of_fits hb, ih (length_offer_le hb)]
      simp [offer_of_fits hb, deliver, hleft, Nat.sub_add_eq]
    · have hleft : s.room - s.held.length < b.length := by
        unfold Fits at hb
        omega
      rw [offerAll_of_not_fits hb]
      simp [deliver, hleft]

end Sink

end Vetting.Csv

namespace Vetting.Export

open Csv (Sink)

/-- A sink with room for so many bytes, after a table was handed over to it block by block, and
whether it took all of it. -/
def Layout.offered (l : Layout) (masked dated : Bool) (rows : List JobDetail) (room : Nat) :
    Sink × Bool :=
  (Sink.empty room).offerAll (Csv.blocks (Csv.rowsAtoms (l.table masked dated rows)))

theorem offered_eq_deliver (l : Layout) (masked dated : Bool) (rows : List JobDetail) (room : Nat) :
    l.offered masked dated rows room =
      (⟨room, (l.deliver masked dated rows (some room)).taken⟩,
        (l.deliver masked dated rows (some room)).complete) :=
  Sink.offerAll_eq_deliver _ (Nat.zero_le room)

/-- What is told of an export is what became of the offers. -/
theorem write_of_offered {p : Product} {l : Layout} (hl : layout? p = some l)
    (masked dated : Bool) (rows : List JobDetail) (room : Nat) :
    write p masked dated rows (some room) =
      if (l.offered masked dated rows room).2 then .ok (l.offered masked dated rows room).1.held
      else .error (unwritten "disk full") := by
  simp only [write, hl, Layout.uneven?_table, offered_eq_deliver]

theorem took_offered (l : Layout) (masked dated : Bool) (rows : List JobDetail) (room : Nat) :
    (Sink.empty room).Took (Csv.writeRows (l.table masked dated rows))
      (l.offered masked dated rows room) := by
  rw [Csv.writeRows, ← Csv.flatten_blocks]
  exact Sink.took_offerAll _ (Nat.zero_le room)

/-- **An export is reported as written just if its sink took all of it.** Let `whole` be what a sink
that never fills up takes. A sink with room for `room` bytes in all holds exactly `whole` after a
success, which comes just if `whole` is no longer than that. Otherwise the failure is reported, and
the sink holds the front of `whole`, though not all of it. -/
theorem written_just_if_taken {p : Product} {l : Layout} (hl : layout? p = some l)
    (masked dated : Bool) (rows : List JobDetail) (room : Nat) :
    ∃ whole held, write p masked dated rows none = .ok whole ∧
      (l.offered masked dated rows room).1.held = held ∧
      ((∃ bytes, write p masked dated rows (some room) = .ok bytes) ↔ whole.length ≤ room) ∧
      (whole.length ≤ room → write p masked dated rows (some room) = .ok held ∧ held = whole) ∧
      (room < whole.length →
        (∃ cause, write p masked dated rows (some room) =
          .error ⟨.internal, "could not write export: " ++ cause⟩) ∧
        held <+: whole ∧ held ≠ whole) := by
  have hwrite := write_of_offered hl masked dated rows room
  have htook := took_offered l masked dated rows room
  have hiff := htook.all_iff
  simp only [Sink.empty, List.length_nil, Nat.zero_add] at hiff
  refine ⟨_, _, write_unlimited hl masked dated rows, rfl, ?_, ?_, ?_⟩
  · rw [hwrite, ← hiff]
    split <;> simp [*]
  · intro hfits
    exact ⟨hwrite.trans (if_pos (hiff.mpr hfits)), htook.all_held (hiff.mpr hfits)⟩
  · intro hlong
    have hrefused := fun h => Nat.not_le.mpr hlong (hiff.mp h)
    refine ⟨⟨"disk full", hwrite.trans (if_neg hrefused)⟩, htook.front, fun heq => ?_⟩
    have hwithin := htook.within
    rw [heq] at hwithin
    exact Nat.not_le.mpr hlong hwithin

/-- An export of two awkward scores takes 228 bytes: a sink with room for one byte less is reported
as full, and one with room for as many takes all of it. -/
theorem awkward_scores_cut_short :
    (∃ cause, write .taxScore false true [awkwardScore, awkwardScore] (some 227) =
        .error ⟨.internal, "could not write export: " ++ cause⟩) ∧
      ∃ bytes, write .taxScore false true [awkwardScore, awkwardScore] (some 228) = .ok bytes ∧
        bytes.length = 228 := by
  have hlength : ∀ whole, write .taxScore false true [awkwardScore, awkwardScore] none = .ok whole →
      whole.length = 228 := by
    rw [write_unlimited (p := .taxScore) rfl]
    rintro _ ⟨⟩
    decide +kernel
  obtain ⟨whole, held, hwhole, -, -, -, hshort⟩ :=
    written_just_if_taken (p := .taxScore) rfl false true [awkwardScore, awkwardScore] 227
  obtain ⟨whole', held', hwhole', -, -, henough, -⟩ :=
    written_just_if_taken (p := .taxScore) rfl false true [awkwardScore, awkwardScore] 228
  have hlen := hlength whole hwhole
  have hlen' := hlength whole' hwhole'
  obtain ⟨hok, rfl⟩ := henough (by omega)
  exact ⟨(hshort (by omega)).1, held', hok, hlen'⟩

end Vetting.Export

import Vetting.Json.Numeral
import Vetting.Json.Quoted

/-! # Passing over strings and numbers

Strings and numbers are passed over without being decoded: an escape is only checked for its form,
and a number's size is not looked at. Where reading gets through too, both stop at the same
place. -/

namespace Vetting

/-- Both steps of a computation that comes to a result have results. -/
theorem ok_of_bind {ε α β : Type} {x : Except ε α} {f : α → Except ε β} {b : β}
    (h : (x >>= f) = .ok b) : ∃ a, x = .ok a ∧ f a = .ok b := by
  cases x with
  | error e => cases h
  | ok a => exact ⟨a, rfl, h⟩

namespace Json

namespace Cursor

theorem skipWhileFrom_idem (p : UInt8 → Bool) (b : Text.Bytes) (place : Position) :
    skipWhileFrom p (skipWhileFrom p b place).rest (skipWhileFrom p b place).place =
      skipWhileFrom p b place := by
  induction b generalizing place with
  | nil => rfl
  | cons x rest ih =>
    by_cases hx : p x = true
    · simpa [skipWhileFrom, hx] using ih _
    · simp [skipWhileFrom, hx]

@[simp] theorem skipSpace_skipSpace (c : Cursor) : c.skipSpace.skipSpace = c.skipSpace :=
  skipWhileFrom_idem isSpace c.rest c.place

end Cursor

/-! ## Strings -/

namespace Quoted

/-- Passing over an escape by its number. -/
theorem passBody_of_unicode {bound : Text.Bytes} {c c₁ : Cursor} (hback : c.peek = some 0x5C)
    (hu : c.skip.peek = some 0x75) (hpass : passBody bound c = .ok c₁) :
    ∃ n c' bound', fourHex c.skip.skip = .ok (n, c') ∧ passBody bound' c' = .ok c₁ := by
  cases bound with
  | nil => cases hpass
  | cons x bound =>
    simp only [passBody, hback, hu] at hpass
    obtain ⟨⟨n, c'⟩, hhex, hpass⟩ := ok_of_bind hpass
    exact ⟨n, c', bound, hhex, hpass⟩

/-- The escapes of a string are passed over one by one, where reading takes the two halves of a
character together. -/
theorem passBody_of_escape {bound : Text.Bytes} {c c' c₁ : Cursor} {bytes : Text.Bytes}
    (hback : c.peek = some 0x5C) (hpass : passBody bound c = .ok c₁)
    (hread : escape c.skip = .ok (bytes, c')) : ∃ bound', passBody bound' c' = .ok c₁ := by
  unfold escape at hread
  split at hread
  · cases hread
  · next hu =>
    obtain ⟨n, c₂, bound₂, hhex, hpass⟩ := passBody_of_unicode hback hu hpass
    unfold unicodeEscape at hread
    obtain ⟨⟨n', c₂'⟩, hhex', hread⟩ := ok_of_bind hread
    cases hhex.symm.trans hhex'
    simp only at hread
    split at hread
    · cases hread
    · split at hread
      · -- the second half of a character
        split at hread
        · cases hread
        · next hback' =>
          split at hread
          · cases hread
          · next hu' =>
            obtain ⟨m, c₃, bound₃, hhex₃, hpass⟩ := passBody_of_unicode hback' hu' hpass
            obtain ⟨⟨m', c₃'⟩, hhex₃', hread⟩ := ok_of_bind hread
            cases hhex₃.symm.trans hhex₃'
            simp only at hread
            split at hread
            · obtain ⟨_, rfl⟩ := Prod.mk.inj (Except.ok.inj hread)
              exact ⟨bound₃, hpass⟩
            · cases hread
          · cases hread
        · cases hread
      · cases hread
        exact ⟨bound₂, hpass⟩
  · next b hb hnu =>
    cases bound with
    | nil => cases hpass
    | cons x bound =>
      split at hread
      · next e hletter =>
        cases hread
        refine ⟨bound, ?_⟩
        simp only [passBody, hback] at hpass
        split at hpass
        · next hquote => cases hquote
        · rw [if_pos trivial] at hpass
          split at hpass
          · next hnone => cases hnu.symm.trans hnone
          · next hu => exact absurd (Option.some.inj (hnu.symm.trans hu)) hb
          · next e' he =>
            cases hnu.symm.trans he
            simpa [hletter] using hpass
      · cases hread

theorem body_end {bound bound' acc : Text.Bytes} {c c₁ c₂ : Cursor} {s : String}
    (hpass : passBody bound' c = .ok c₁) (hread : body bound acc c = .ok (s, c₂)) : c₁ = c₂ := by
  induction bound generalizing acc bound' c with
  | nil => cases hread
  | cons x bound ih =>
    unfold body at hread
    split at hread
    · cases hread
    · next b hb =>
      split at hread
      · -- the closing quote
        next hquote =>
        cases bound' with
        | nil => cases hpass
        | cons y bound' =>
          simp only [passBody, hb, hquote, if_true, Except.ok.injEq] at hpass
          split at hread <;> cases hread
          exact hpass.symm
      · next hquote =>
        split at hread
        · next hback =>
          obtain ⟨⟨bytes, c'⟩, hesc, hread⟩ := ok_of_bind hread
          obtain ⟨_, hpass⟩ := passBody_of_escape (hback ▸ hb) hpass hesc
          exact ih hpass hread
        · next hback =>
          split at hread
          · cases hread
          · next hctrl =>
            cases bound' with
            | nil => cases hpass
            | cons y bound' =>
              simp only [passBody, hb, hquote, hback, hctrl, if_false] at hpass
              exact ih hpass hread

/-- Passing over a string ends where reading it ends. -/
theorem pass_end {c c₁ c₂ : Cursor} {s : String} (hpass : pass c = .ok c₁)
    (hread : read c = .ok (s, c₂)) : c₁ = c₂ := body_end hpass hread

end Quoted

/-! ## Numbers -/

namespace Numeral

variable {negative : Bool} {significand : Nat} {shift : Int} {n : Number} {c c₁ c₂ : Cursor}

/-- The digits of an exponent end where digits end, whether or not they are all taken in. -/
theorem exponentDigits_end {e : Nat} {x : Except Cursor (Nat × Cursor)}
    (h : exponentDigits c.rest e c = x) :
    (∀ e' c', x = .ok (e', c') → c' = c.digits.2) ∧
      ∀ c', x = .error c' → c'.digits.2 = c.digits.2 := by
  subst h
  obtain ⟨rest, place⟩ := c
  induction rest generalizing e place with
  | nil => exact ⟨fun e' c' h => by cases h; rfl, nofun⟩
  | cons b rest ih =>
    have hpeek : (Cursor.mk (b :: rest) place).peek = some b := rfl
    simp only [exponentDigits, hpeek]
    by_cases hb : Cursor.isDigit b = true
    · have hdigits : (Cursor.mk (b :: rest) place).digits.2 =
          (Cursor.mk rest (Cursor.after b place)).digits.2 := by
        simp [Cursor.digits, Cursor.skipWhileFrom, hb]
      rw [hdigits]
      simp only [hb, if_true]
      split
      · exact ih _
      · exact ⟨nofun, fun c' h => by cases h; rfl⟩
    · simp only [hb]
      refine ⟨fun e' c' h => ?_, nofun⟩
      cases h
      simp [Cursor.digits, Cursor.skipWhileFrom, hb]

theorem finish_end (h : finish negative significand shift c = .ok (n, c₂)) : c₂ = c := by
  unfold finish at h
  split at h <;> cases h
  rfl

theorem exponentPart_end (h : exponentPart negative significand shift c = .ok (n, c₂))
    (hpass : passExponent c = .ok c₁) : c₁ = c₂ := by
  unfold exponentPart at h
  unfold passExponent at hpass
  obtain ⟨down, c'⟩ := exponentSign c.skip
  simp only at h hpass
  split at hpass
  · next hdigit =>
    cases hpass
    split at h
    · cases h
    · split at h
      · split at h
        · next e c₃ hdigits =>
          rw [finish_end h]
          exact ((exponentDigits_end hdigits).1 e c₃ rfl).symm
        · next c₃ hstop =>
          split at h <;> cases h
          exact ((exponentDigits_end hstop).2 c₃ rfl).symm
      · cases h
  · cases hpass

theorem passTail_of_plain (h65 : c.peek ≠ some 0x65) (h45 : c.peek ≠ some 0x45) :
    passTail c = .ok c := by
  unfold passTail
  split
  · next he => exact absurd he h65
  · next he => exact absurd he h45
  · rfl

theorem tail_end (h : tail negative significand shift c = .ok (n, c₂))
    (hpass : passTail c = .ok c₁) : c₁ = c₂ := by
  unfold tail at h
  split at h
  · next he => exact exponentPart_end h (by simpa [passTail, he] using hpass)
  · next he => exact exponentPart_end h (by simpa [passTail, he] using hpass)
  · next h65 h45 =>
    rw [passTail_of_plain h65 h45] at hpass
    cases hpass
    exact (finish_end h).symm

theorem fraction_end (h : fraction negative significand shift c = .ok (n, c₂))
    (hpass : passTail c.skip.digits.2 = .ok c₁) : c₁ = c₂ := by
  unfold fraction at h
  simp only at h
  split at h
  · cases h
  · exact tail_end h hpass

/-- Passing over a number ends where reading it ends. -/
theorem pass_end (hpass : pass c = .ok c₁) (hread : read negative c = .ok (n, c₂)) : c₁ = c₂ := by
  unfold read at hread
  unfold pass at hpass
  split at hread
  · cases hread
  · next b hb =>
    simp only [hb] at hpass
    split at hread
    · cases hread
    · next hzero =>
      rw [if_neg hzero] at hpass
      split at hread
      · next hdigit =>
        rw [if_pos hdigit] at hpass
        simp only at hread hpass
        split at hread
        · next hdot =>
          simp only [hdot] at hpass
          split at hpass
          · exact fraction_end hread hpass
          · cases hpass
        · next he =>
          simp only [passTail, he] at hpass
          exact exponentPart_end hread hpass
        · next he =>
          simp only [passTail, he] at hpass
          exact exponentPart_end hread hpass
        · next hdot h65 h45 =>
          have hpass : passTail c.digits.2 = .ok c₁ := by
            split at hpass
            · next h => exact absurd h hdot
            · exact hpass
          have hend : c₂ = c.digits.2 := by
            split at hread
            · cases hread
              rfl
            · exact finish_end hread
          rw [passTail_of_plain h65 h45] at hpass
          cases hpass
          exact hend.symm
      · cases hread

end Numeral

end Json

end Vetting

/-!
Unicode white space and trimming. Removing the blanks at both ends is done once and for all:
a second trimming changes nothing.
-/

namespace Vetting.Text

/-- The characters with the property White_Space. -/
def isBlank (c : Char) : Bool :=
  let n := c.toNat
  (0x09 ≤ n && n ≤ 0x0D) || n == 0x20 || n == 0x85 || n == 0xA0 || n == 0x1680 ||
    (0x2000 ≤ n && n ≤ 0x200A) || n == 0x2028 || n == 0x2029 || n == 0x202F || n == 0x205F ||
    n == 0x3000

theorem isBlank_of_isWhitespace {c : Char} (h : c.isWhitespace = true) : isBlank c = true := by
  simp only [Char.isWhitespace, Bool.or_eq_true, decide_eq_true_eq] at h
  rcases h with ((rfl | rfl) | rfl) | rfl <;> decide

def trimChars (cs : List Char) : List Char :=
  ((cs.dropWhile isBlank).reverse.dropWhile isBlank).reverse

/-- Does the text, if it has characters, start with one that is not blank? -/
def startsSolid (cs : List Char) : Bool := cs.head?.all fun c => !isBlank c

theorem startsSolid_dropWhile (cs : List Char) : startsSolid (cs.dropWhile isBlank) = true := by
  have h := List.head?_dropWhile_not isBlank cs
  unfold startsSolid
  cases hd : (cs.dropWhile isBlank).head? <;> simp_all

theorem dropWhile_of_startsSolid {cs : List Char} (h : startsSolid cs = true) :
    cs.dropWhile isBlank = cs := by
  cases cs with
  | nil => rfl
  | cons c cs => simp_all [startsSolid]

/-- Blanks taken off the end leave the start as it is. -/
theorem startsSolid_reverse {cs : List Char} (h : startsSolid cs = true) :
    startsSolid (cs.reverse.dropWhile isBlank).reverse = true := by
  have parts : cs = (cs.reverse.dropWhile isBlank).reverse ++
      (cs.reverse.takeWhile isBlank).reverse := by
    rw [← List.reverse_append, List.takeWhile_append_dropWhile, List.reverse_reverse]
  cases hd : (cs.reverse.dropWhile isBlank).reverse with
  | nil => rfl
  | cons c ds =>
    rw [parts, hd] at h
    exact h

theorem trimChars_trimChars (cs : List Char) : trimChars (trimChars cs) = trimChars cs := by
  unfold trimChars
  rw [dropWhile_of_startsSolid (startsSolid_reverse (startsSolid_dropWhile cs)),
    List.reverse_reverse, dropWhile_of_startsSolid (startsSolid_dropWhile _)]

/-- `ds` is what is left of `cs` without the blanks at its ends. -/
structure IsTrimmed (cs ds : List Char) : Prop where
  between : ∃ before after, cs = before ++ (ds ++ after) ∧
    (∀ c ∈ before, isBlank c = true) ∧ ∀ c ∈ after, isBlank c = true
  starts : ∀ c ∈ ds.head?, isBlank c = false
  ends : ∀ c ∈ ds.getLast?, isBlank c = false

theorem startsSolid_iff {cs : List Char} :
    startsSolid cs = true ↔ ∀ c ∈ cs.head?, isBlank c = false := by
  cases cs <;> simp [startsSolid]

/-- Blanks are dropped up to a text that does not start with one. -/
theorem dropWhile_isBlank_append {before ds : List Char} (hbefore : ∀ c ∈ before, isBlank c = true)
    (hds : startsSolid ds = true) : (before ++ ds).dropWhile isBlank = ds := by
  rw [List.dropWhile_append_of_pos hbefore, dropWhile_of_startsSolid hds]

theorem isBlank_of_mem_takeWhile {cs : List Char} {c : Char} (hc : c ∈ cs.takeWhile isBlank) :
    isBlank c = true :=
  List.all_eq_true.mp List.all_takeWhile c hc

/-- Trimming takes away the blanks at the ends and nothing else. -/
theorem trimChars_eq_iff {cs ds : List Char} : trimChars cs = ds ↔ IsTrimmed cs ds := by
  constructor
  · rintro rfl
    refine ⟨⟨cs.takeWhile isBlank, ((cs.dropWhile isBlank).reverse.takeWhile isBlank).reverse,
      ?_, fun c hc => isBlank_of_mem_takeWhile hc,
      fun c hc => isBlank_of_mem_takeWhile (List.mem_reverse.mp hc)⟩, ?_, ?_⟩
    · rw [trimChars, ← List.reverse_append, List.takeWhile_append_dropWhile, List.reverse_reverse,
        List.takeWhile_append_dropWhile]
    · exact startsSolid_iff.mp (startsSolid_reverse (startsSolid_dropWhile cs))
    · rw [trimChars, List.getLast?_reverse]
      exact startsSolid_iff.mp (startsSolid_dropWhile _)
  · rintro ⟨⟨before, after, rfl, hbefore, hafter⟩, hstarts, hends⟩
    cases ds with
    | nil =>
      have hblank : ∀ c ∈ before ++ after, isBlank c = true := by
        simpa [or_imp, forall_and] using And.intro hbefore hafter
      have hnone : ((before ++ after) ++ []).dropWhile isBlank = [] :=
        dropWhile_isBlank_append hblank rfl
      rw [List.append_nil] at hnone
      simp [trimChars, hnone]
    | cons d ds =>
      have hfront : startsSolid (d :: ds ++ after) = true := startsSolid_iff.mpr hstarts
      have hback : (d :: ds ++ after).reverse.dropWhile isBlank = (d :: ds).reverse := by
        rw [List.reverse_append]
        refine dropWhile_isBlank_append (fun c hc => hafter c (List.mem_reverse.mp hc)) ?_
        rwa [startsSolid_iff, List.head?_reverse]
      rw [trimChars, dropWhile_isBlank_append hbefore hfront, hback, List.reverse_reverse]

/-- The text without the blanks at its ends. -/
def trim (s : String) : String := String.ofList (trimChars s.toList)

theorem trim_eq_iff {s t : String} : trim s = t ↔ IsTrimmed s.toList t.toList := by
  rw [← trimChars_eq_iff, ← String.toList_inj, trim, String.toList_ofList]

theorem trim_trim (s : String) : trim (trim s) = trim s := by
  simp [trim, trimChars_trimChars]

end Vetting.Text

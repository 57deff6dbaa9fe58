import Vetting.Proofs.RowCourse
import Vetting.Proofs.TransactionIds

/-! # The form of submissions

A submission comes from the cells of a row or from a JSON body. Either way its values stand in the
order of its product's fields and have no blanks at their ends, since cells and texts are trimmed
and numbers are written without blanks. A submission in this form is what its JSON is brought back
to, so what is sent to a product and what is logged tell the same submission. -/

namespace Vetting

/-! ## Texts without blanks -/

namespace Text

/-- No character of the text is blank. -/
def IsSolid (s : String) : Prop := ∀ c ∈ s.toList, isBlank c = false

-- Given by hand: there are finitely many characters, and a search could go through all of them.
instance (s : String) : Decidable (IsSolid s) :=
  List.decidableBAll (fun c => isBlank c = false) s.toList

theorem IsSolid.append {s t : String} (hs : IsSolid s) (ht : IsSolid t) : IsSolid (s ++ t) := by
  intro c hc
  rw [String.toList_append] at hc
  exact (List.mem_append.mp hc).elim (hs c) (ht c)

theorem isSolid_ofList {cs : List Char} :
    IsSolid (String.ofList cs) ↔ ∀ c ∈ cs, isBlank c = false := by
  simp [IsSolid]

theorem isBlank_of_isDigit {c : Char} (h : c.isDigit = true) : isBlank c = false := by
  simp only [Char.isDigit, Bool.and_eq_true, decide_eq_true_eq, ge_iff_le, UInt32.le_iff_toNat_le,
    Char.toNat_val] at h
  have hbounds : 48 ≤ c.toNat ∧ c.toNat ≤ 57 := h
  simp only [isBlank, Bool.or_eq_false_iff, Bool.and_eq_false_iff, decide_eq_false_iff_not,
    beq_eq_false_iff_ne]
  omega

theorem isSolid_toString (n : Nat) : IsSolid (toString n) :=
  fun _ hc => isBlank_of_isDigit (isDigit_of_mem_toString hc)

theorem trim_of_isSolid {s : String} (h : IsSolid s) : trim s = s := by
  have hstarts {cs : List Char} (hcs : ∀ c ∈ cs, isBlank c = false) : startsSolid cs = true := by
    cases cs with
    | nil => rfl
    | cons c cs => simp [startsSolid, hcs c List.mem_cons_self]
  have hback : ∀ c ∈ s.toList.reverse, isBlank c = false := fun c hc => h c (List.mem_reverse.mp hc)
  rw [trim, trimChars, dropWhile_of_startsSolid (hstarts h),
    dropWhile_of_startsSolid (hstarts hback), List.reverse_reverse, String.ofList_toList]

end Text

open Text (IsSolid isSolid_ofList isSolid_toString)

/-- A double is written in digits, with a sign, a point and an exponent at most. -/
theorem Double.isSolid_render (d : Double) : IsSolid d.render := by
  have hsign : IsSolid (if d.neg then "-" else "") := by
    split <;> decide
  have hzeros (n : Nat) : IsSolid (String.ofList (List.replicate n '0')) :=
    isSolid_ofList.mpr fun c hc => List.eq_of_mem_replicate hc ▸ rfl
  have hdigits : ∀ c ∈ (toString d.shortest.digits).toList, Text.isBlank c = false :=
    isSolid_toString _
  have hpart {cs : List Char} (h : cs.Sublist (toString d.shortest.digits).toList) :
      IsSolid (String.ofList cs) := isSolid_ofList.mpr fun c hc => hdigits c (h.subset hc)
  unfold Double.render
  dsimp only
  split
  · exact hsign.append (by decide : IsSolid "0.0")
  · split
    · split
      · exact ((hsign.append (by decide)).append (hzeros _)).append (hpart (List.Sublist.refl _))
      · split
        · exact ((hsign.append (hpart (List.Sublist.refl _))).append (hzeros _)).append (by decide)
        · exact ((hsign.append (hpart (List.take_sublist ..))).append (by decide)).append
            (hpart (List.drop_sublist ..))
    · have hexponent : IsSolid (if d.shortest.exponent < 0
          then "-" ++ toString d.shortest.exponent.natAbs
          else "+" ++ toString d.shortest.exponent.natAbs) := by
        split
        · exact IsSolid.append (by decide) (isSolid_toString _)
        · exact IsSolid.append (by decide) (isSolid_toString _)
      refine ((hsign.append ?_).append (by decide)).append hexponent
      generalize (toString d.shortest.digits).toList = ds at hdigits
      split
      · decide
      · exact isSolid_ofList.mpr hdigits
      · next c rest =>
        refine isSolid_ofList.mpr fun x hx => ?_
        simp only [List.mem_cons] at hx
        rcases hx with rfl | rfl | hx
        · exact hdigits _ List.mem_cons_self
        · rfl
        · exact hdigits _ (List.mem_cons_of_mem _ hx)

/-- No number is written with blanks. -/
theorem Json.Number.isSolid_render (n : Json.Number) : IsSolid n.render := by
  cases n with
  | double d => exact d.isSolid_render
  | int i =>
    cases i with
    | ofNat n => exact isSolid_toString n
    | negSucc n => exact (by decide : IsSolid "-").append (isSolid_toString (n + 1))

/-! ## Members of objects -/

namespace Json

theorem lookup_cons_eq_ite (key k : String) (v : Json) (ms : List (String × Json)) :
    ((k, v) :: ms).lookup key = if key = k then some v else ms.lookup key := by
  by_cases h : key = k
  · subst h
    simp
  · rw [List.lookup_cons, beq_false_of_ne h, if_neg h]

theorem lookup_putMember (key k : String) (v : Json) (ms : List (String × Json)) :
    (putMember k v ms).lookup key = if key = k then some v else ms.lookup key := by
  induction ms with
  | nil => exact lookup_cons_eq_ite key k v []
  | cons m ms ih =>
    obtain ⟨l, w⟩ := m
    unfold putMember
    split
    · rw [lookup_cons_eq_ite]
    · split
      · next heq =>
        subst heq
        simp only [lookup_cons_eq_ite]
        split <;> rfl
      · next hne =>
        simp only [lookup_cons_eq_ite, ih]
        split
        · next hl =>
          subst hl
          rw [if_neg (Ne.symm hne)]
        · rfl

/-- A member of an object whose keys are apart is the one that was given for its key. -/
theorem member?_object {ms : List (String × Json)} (h : (ms.map Prod.fst).Nodup) (key : String) :
    (object ms).member? key = ms.lookup key := by
  -- What is given later is put over what is there, so the members to come are looked up first.
  suffices hall : ∀ ns, (ms.foldl (fun ns m => putMember m.1 m.2 ns) ns).lookup key =
      (ms.lookup key).or (ns.lookup key) by
    simpa [object, member?] using hall []
  induction ms with
  | nil => simp
  | cons m ms ih =>
    obtain ⟨k, v⟩ := m
    intro ns
    obtain ⟨hk, hms⟩ := List.nodup_cons.mp h
    rw [List.foldl_cons, ih hms, lookup_putMember, lookup_cons_eq_ite]
    split
    · next heq =>
      have hnone : ms.lookup key = none := by
        rw [List.lookup_eq_none_iff]
        rintro ⟨l, w⟩ hm
        have hl : l ∈ ms.map Prod.fst := List.mem_map_of_mem hm
        simpa using fun hkl : key = l => hk (heq ▸ hkl ▸ hl)
      rw [hnone]
      rfl
    · rfl

theorem keys_zip_sublist (ks : List String) (vs : List Json) :
    ((ks.zip vs).map Prod.fst).Sublist ks := by
  induction ks generalizing vs with
  | nil => simp
  | cons k ks ih =>
    cases vs with
    | nil => simp
    | cons v vs => simpa using ih vs

/-- Keys that are apart are looked up by their places. -/
theorem lookup_zip {ks : List String} {vs : List Json} (h : ks.Nodup) {i : Nat} {k : String}
    (hk : ks[i]? = some k) : (ks.zip vs).lookup k = vs[i]? := by
  induction ks generalizing vs i with
  | nil => cases hk
  | cons l ks ih =>
    obtain ⟨hl, hks⟩ := List.nodup_cons.mp h
    cases vs with
    | nil => simp
    | cons v vs =>
      rw [List.zip_cons_cons, lookup_cons_eq_ite]
      cases i with
      | zero =>
        rw [List.getElem?_cons_zero, Option.some.injEq] at hk
        rw [if_pos hk.symm]
        rfl
      | succ i =>
        rw [List.getElem?_cons_succ] at hk
        rw [if_neg fun heq : k = l => hl (heq ▸ List.mem_of_getElem? hk), ih hks hk]
        rfl

end Json

/-! ## Rows and bodies -/

/-- The JSON body that says what a row says: each cell stands under the key of the field at its
place. -/
def Submission.bodyOf (p : Product) (row : List String) : Json :=
  Json.object ((p.fields.map Field.key).zip (row.map .str))

theorem Product.nodup_keys (p : Product) : (p.fields.map Field.key).Nodup := by
  cases p with
  | multipleLoans w => exact (by decide : ["nik", "phone_number"].Nodup)
  | _ => decide

namespace Submission

variable {p : Product} {s : Submission}

theorem member?_bodyOf {i : Nat} {f : Field} (hf : p.fields[i]? = some f) (row : List String) :
    (bodyOf p row).member? f.key = row[i]?.map .str := by
  have hkey : (p.fields.map Field.key)[i]? = some f.key := by simp [hf]
  have hnodup : (((p.fields.map Field.key).zip (row.map Json.str)).map Prod.fst).Nodup :=
    p.nodup_keys.sublist (Json.keys_zip_sublist ..)
  rw [bodyOf, Json.member?_object hnodup, Json.lookup_zip p.nodup_keys hkey, List.getElem?_map]

theorem ofJson_bodyOf (p : Product) (row : List String) :
    ofJson p (bodyOf p row) = ofRow p row := by
  have hvalue {i : Nat} {f : Field} (hf : p.fields[i]? = some f) :
      valueOf (bodyOf p row) f = Text.trim (row[i]?.getD "") := by
    rw [valueOf, member?_bodyOf hf]
    cases row[i]? <;> rfl
  rw [ofJson, ofRow]
  congr 1
  apply List.ext_getElem?
  intro i
  rw [List.getElem?_map, List.getElem?_map, List.getElem?_zipIdx]
  cases hf : p.fields[i]? with
  | none => rfl
  | some f => simp [hvalue hf]

/-- A submission as it is built: one value for each field, without blanks at the ends. -/
structure InForm (p : Product) (s : Submission) : Prop where
  product_eq : s.product = p
  length_eq : s.values.length = p.fields.length
  trimmed : ∀ v ∈ s.values, Text.trim v = v

theorem inForm_ofRow (p : Product) (row : List String) : InForm p (ofRow p row) where
  product_eq := rfl
  length_eq := by simp [ofRow]
  trimmed := by
    intro v hv
    obtain ⟨_, _, rfl⟩ := List.mem_map.mp hv
    exact Text.trim_trim _

theorem inForm_ofJson (p : Product) (body : Json) : InForm p (ofJson p body) where
  product_eq := rfl
  length_eq := by simp [ofJson]
  trimmed := by
    intro v hv
    obtain ⟨f, _, rfl⟩ := List.mem_map.mp hv
    unfold valueOf
    split
    · exact Text.trim_trim _
    · exact Text.trim_of_isSolid (Json.Number.isSolid_render _)
    · rfl

namespace InForm

/-- The fields of a submission are those of its product, in order. -/
theorem map_entries (h : InForm p s) : s.entries.map Prod.fst = p.fields := by
  rw [entries, h.product_eq, List.map_fst_zip (Nat.le_of_eq h.length_eq.symm)]

theorem ofRow_values (h : InForm p s) : ofRow p s.values = s := by
  have hvalues : (ofRow p s.values).values = s.values := by
    apply List.ext_getElem?
    intro i
    rw [ofRow, List.getElem?_map, List.getElem?_zipIdx]
    cases hf : p.fields[i]? with
    | none =>
      have hi : s.values.length ≤ i := h.length_eq ▸ List.getElem?_eq_none_iff.mp hf
      rw [List.getElem?_eq_none hi]
      rfl
    | some f =>
      have hi : i < s.values.length := h.length_eq ▸ (List.getElem?_eq_some_iff.mp hf).1
      simp [List.getElem?_eq_getElem hi, h.trimmed _ (List.getElem_mem hi)]
  obtain ⟨q, vs⟩ := s
  cases h.product_eq
  exact congrArg (Submission.mk _) hvalues

theorem toJson_eq (h : InForm p s) : s.toJson = bodyOf p s.values := by
  rw [toJson, entries, bodyOf, List.zip_map, h.product_eq]
  rfl

/-- **A submission in form is rebuilt from its JSON.** -/
theorem ofJson_toJson (h : InForm p s) : ofJson p s.toJson = s := by
  rw [h.toJson_eq, ofJson_bodyOf, h.ofRow_values]

end InForm

/-- The submissions that are built for a product. -/
inductive Built (p : Product) : Submission → Prop where
  | row (row : List String) : Built p (ofRow p row)
  | json (body : Json) : Built p (ofJson p body)

theorem Built.inForm (h : Built p s) : InForm p s := by
  cases h with
  | row row => exact inForm_ofRow p row
  | json body => exact inForm_ofJson p body

end Submission

/-- The submission that a call passes on, as JSON. -/
def Call.passedOn? : Call → Option Json
  | .ask _ _ body => some body
  | .writeLog e => some e.input
  | _ => none

/-- What a row sends to its product, and what it logs, is its submission. -/
theorem Row.eq_toJson_of_passedOn {b : Brief} {s : Submission} {A : List Act}
    {st : Strand Row.Result} {c : Call} {body : Json} (h : Course (Row.handle b s) A st)
    (hc : c ∈ callsOf A) (hbody : c.passedOn? = some body) : body = s.toJson := by
  have hprogress := Row.progress_of_course h
  have hentry {r : Logbook.Remark} (he : Row.Entered b s r c) : body = s.toJson := by
    obtain ⟨e, ⟨_, _, _, rfl⟩, rfl⟩ := he
    exact (Option.some.inj hbody).symm
  rw [← callsOf_visible] at hc
  rcases hprogress.mem_callsOf hc with rfl | rfl | hlog
  · exact (Option.some.inj hbody).symm
  · cases hbody
  · cases hprogress.due hc hlog with
    | refused _ he => exact hentry he
    | failed _ _ he => exact hentry he
    | succeeded _ _ hr =>
      unfold Row.Recorded at hr
      split at hr
      · rw [hr] at hbody
        cases hbody
      · exact hentry hr

namespace Submission

/-- **A row and a body are brought into one form, and the form is kept.** A row comes to the
submission that the object of its cells comes to. A submission of either origin has the fields of
its product, in their order, and is rebuilt from its JSON; so whatever its row sends to the product
or logs is brought back to it, and to the same verdict. -/
theorem form_kept (p : Product) :
    (∀ row, ofRow p row = ofJson p (bodyOf p row)) ∧
    ∀ s, Built p s →
      s.entries.map (·.1.key) = p.fields.map Field.key ∧
      ofJson p s.toJson = s ∧
      ∀ b A st c body, Course (Row.handle b s) A st → c ∈ callsOf A → c.passedOn? = some body →
        ofJson p body = s ∧ (ofJson p body).check = s.check := by
  refine ⟨fun row => (ofJson_bodyOf p row).symm, ?_⟩
  intro s hs
  have hform := hs.inForm
  have hrebuilt := hform.ofJson_toJson
  refine ⟨?_, hrebuilt, ?_⟩
  · rw [← hform.map_entries, List.map_map]
    rfl
  · intro b A st c body h hc hbody
    rw [Row.eq_toJson_of_passedOn h hc hbody, hrebuilt]
    exact ⟨rfl, rfl⟩

/-- A body with a number among its members, one that is no text and one that is missing. -/
def mixedBody : Json :=
  .obj [("loan_no", .str " L-1 "), ("name", .null), ("nik", .num (.int 1234567890123456))]

/-- What is logged of `mixedBody` is brought back to its submission, and again lacks a name. -/
theorem mixed_body_kept : ∃ s A st e, Built .retailScore s ∧
    s.values = ["L-1", "", "1234567890123456", ""] ∧
    Course (Row.handle ⟨.retailScore, 1, 1, 5, 9, 4, 2, "key-1"⟩ s) A st ∧
    .writeLog e ∈ callsOf A ∧ ofJson .retailScore e.input = s ∧
    (ofJson .retailScore e.input).check = some (.missing .name) := by
  have hcheck : (ofJson .retailScore mixedBody).check = some (.missing .name) := by decide +kernel
  have hcourse : ∃ A st e, Course (Row.handle ⟨.retailScore, 1, 1, 5, 9, 4, 2, "key-1"⟩
      (ofJson .retailScore mixedBody)) A st ∧ .writeLog e ∈ callsOf A := by
    unfold Row.handle
    rw [hcheck]
    exact ⟨_, _, _, .clock default (.fresh 1 (.clock default (.clock default (.waiting _ _)))),
      List.mem_cons_self⟩
  obtain ⟨A, st, e, h, he⟩ := hcourse
  obtain ⟨hsame, hverdict⟩ :=
    ((form_kept .retailScore).2 _ (.json mixedBody)).2.2 _ A st _ e.input h he rfl
  exact ⟨_, A, st, e, .json mixedBody, by decide +kernel, h, he, hsame, hverdict.trans hcheck⟩

end Submission

end Vetting

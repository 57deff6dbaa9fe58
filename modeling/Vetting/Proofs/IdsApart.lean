import Mathlib.Data.List.Perm.Subperm
import Vetting.Proofs.ShiftHistory

/-! # Transaction ids never collide

All strands draw from one sequence, so no number is drawn twice while there are numbers left; and
whatever a strand writes or gives out has a number that this strand drew for it. So all ids differ,
in whatever order the matters of a shift go on, which products they are for and what the clock
shows: an id can be told from its number alone. -/

namespace Vetting

open Bulk (Who Dispatch Plan)
open Logbook (IsId numberOf lettersOf parts)

/-! ## Who has what -/

section Parts

variable {ω ν μ : Type} [DecidableEq ω]

def part (w : ω) (L : List (ω × ν)) : List ν :=
  L.filterMap fun x => if x.1 = w then some x.2 else none

theorem mem_part {w : ω} {n : ν} {L : List (ω × ν)} : n ∈ part w L ↔ (w, n) ∈ L := by
  simp only [part, List.mem_filterMap, Option.ite_none_right_eq_some, Option.some.injEq]
  constructor
  · rintro ⟨_, hx, rfl, rfl⟩
    exact hx
  · intro h
    exact ⟨_, h, rfl, rfl⟩

theorem part_map (w : ω) (f : ν → μ) (L : List (ω × ν)) :
    part w (L.map fun x => (x.1, f x.2)) = (part w L).map f := by
  induction L with
  | nil => rfl
  | cons x L ih =>
    by_cases hx : x.1 = w
    · simpa [part, hx] using ih
    · simpa [part, hx] using ih

theorem count_part [DecidableEq ν] (w : ω) (n : ν) (L : List (ω × ν)) :
    L.count (w, n) = (part w L).count n := by
  induction L with
  | nil => rfl
  | cons x L ih =>
    obtain ⟨v, m⟩ := x
    by_cases hv : v = w
    · subst hv
      have hpart : part v ((v, m) :: L) = m :: part v L := by simp [part]
      rw [hpart, List.count_cons, List.count_cons, ih]
      simp
    · have hpart : part w ((v, m) :: L) = part w L := by simp [part, hv]
      rw [hpart, List.count_cons, ih]
      simp [hv]

/-- If what each has is a part of what it drew, and nothing was drawn twice, nothing is had
twice. -/
theorem nodup_of_parts [DecidableEq ν] {E D : List (ω × ν)}
    (h : ∀ w, (part w E).Sublist (part w D)) (hD : (D.map Prod.snd).Nodup) :
    (E.map Prod.snd).Nodup := by
  have hsub : E.Subperm D := by
    rw [List.subperm_ext_iff]
    rintro ⟨w, n⟩ _
    rw [count_part, count_part]
    exact (h w).count_le n
  obtain ⟨L, hperm, hsub⟩ := List.subperm_iff.mp hsub
  have hL : (L.map Prod.snd).Nodup := (hperm.map Prod.snd).nodup_iff.mpr hD
  exact (hsub.map Prod.snd).nodup hL

end Parts

/-! ## What a strand draws it writes once -/

variable {C : Instant → Prop}

/-- The ids written have numbers that were drawn, each of them once, and tell times in `C`. -/
def Spends (C : Instant → Prop) (A : List Act) : Prop :=
  ((entered A).map numberOf).Sublist (drawn A) ∧ ∀ id ∈ entered A, IsId C id

theorem Spends.nil : Spends C [] := by simp [Spends]

theorem Spends.append {A B : List Act} (hA : Spends C A) (hB : Spends C B) : Spends C (A ++ B) := by
  refine ⟨by simpa using hA.1.append hB.1, ?_⟩
  intro id hid
  rw [entered_append] at hid
  exact (List.mem_append.mp hid).elim (hA.2 id) (hB.2 id)

theorem Course.spent {α : Type} {t : Task α} {A : List Act} {s : Strand α} (h : Course t A s)
    (ht : t.Enters C []) (hread : ∀ i, .read i ∈ A → C i) : Spends C A := by
  simpa [Spends] using h.spends ht hread

namespace Bulk

theorem History.spends_solo {A : List Act} (h : Spends C A) (w : Who) :
    Spends C ((History.solo .main A).of w) := by
  cases w with
  | main => rwa [History.of_solo_self]
  | row i =>
    rw [History.of_main_row]
    exact .nil

theorem Run.Account.spends {plan : Plan} {A B : List Act} {R : History} {r : Run}
    (h : Account plan A R B r)
    (hread : ∀ i, .read i ∈ (History.solo Who.main A ++ R ++ .solo .main B).acts → C i) (w : Who) :
    Spends C ((History.solo Who.main A ++ R ++ .solo .main B).of w) := by
  have hmem {i : Instant} {X : List Act} (hX : ∀ a ∈ X,
      a ∈ (History.solo Who.main A ++ R ++ .solo .main B).acts) (hi : .read i ∈ X) : C i :=
    hread i (hX _ hi)
  have hR (w : Who) : Spends C (R.of w) := by
    by_cases hw : ∃ i < r.rows.length, w = .row i
    · obtain ⟨i, hi, rfl⟩ := hw
      refine (h.course (List.getElem?_eq_getElem hi)).spent (Row.handle_enters _ _ _) fun j hj => ?_
      exact hmem (fun a ha => by simp [History.mem_acts_of_mem_of ha]) hj
    · have hnil : R.of w = [] := by
        apply History.of_eq_nil
        rintro x hx rfl
        exact hw (h.started x hx)
      rw [hnil]
      exact .nil
  have hA : Spends C A := by
    obtain ⟨s, hc⟩ := h.course_opening
    exact hc.spent (Tracking.start_enters _ _) fun j hj => hmem (fun a ha => by simp [ha]) hj
  have hB : Spends C B := by
    obtain ⟨s, hc⟩ := h.course_closing
    exact hc.spent (Tracking.attempt_enters _ _ _) fun j hj => hmem (fun a ha => by simp [ha]) hj
  rw [History.of_append, History.of_append]
  exact ((History.spends_solo hA w).append (hR w)).append (History.spends_solo hB w)

/-- **Every strand of an upload spends numbers that it drew itself**, each of them once. -/
theorem Dispatch.Ledger.spends {t : Task (Except Refusal Plan)} {H : History} {d : Dispatch}
    (h : Ledger t H d) (ht : t.Enters C []) (hread : ∀ i, .read i ∈ H.acts → C i) (w : Who) :
    Spends C (H.of w) := by
  have solo {A : List Act} {s : Strand (Except Refusal Plan)} (hc : Course t A s)
      (hread : ∀ i, .read i ∈ A → C i) : Spends C ((History.solo .main A).of w) :=
    History.spends_solo (hc.spent ht hread) w
  cases h with
  | preparing _ hc => exact solo hc (by simpa using hread)
  | refused hc => exact solo hc (by simpa using hread)
  | stopped hc => exact solo hc (by simpa using hread)
  | running hc hacc =>
    rw [History.acts_append, History.acts_solo] at hread
    rw [History.of_append]
    exact (solo hc fun i hi => hread i (List.mem_append_left _ hi)).append
      (hacc.spends (fun i hi => hread i (List.mem_append_right _ hi)) w)

end Bulk

namespace Matter

/-- **Every strand of a matter spends numbers that it drew itself**, and so does a request for an
id, whose strand writes nothing. -/
theorem Account.spends {o : Order} {K : Bulk.History} {m : Matter} (h : Account o K m)
    (hread : ∀ i, .read i ∈ K.acts → C i) :
    (∀ w, Spends C (K.of w)) ∧ ∀ id, m.returned? = some id →
      numberOf id ∈ drawn (K.of .main) ∧ IsId C id ∧ ∀ w, entered (K.of w) = [] := by
  cases h with
  | upload hd => exact ⟨hd.spends (Plan.prepare_enters ..) hread, nofun⟩
  | @single i p body A t ht =>
    refine ⟨fun w => Bulk.History.spends_solo ?_ w, nofun⟩
    exact ht.course.spent (Single.execute_enters i p body []) (by simpa using hread)
  | @id p A t ht =>
    obtain ⟨hnone, hend⟩ := Logbook.course_nextId ht.course
    refine ⟨fun w => Bulk.History.spends_solo (by simp [Spends, hnone]) w, ?_⟩
    intro id hid
    obtain ⟨s, sh⟩ := t
    cases s with
    | ended s =>
      cases hid
      obtain ⟨n, now, rfl, rfl⟩ := hend id rfl
      refine ⟨?_, ⟨p, now, n, hread now (by simp), rfl⟩, ?_⟩
      · simp [drawn, Logbook.numberOf_transactionId]
      · intro w
        cases w with
        | main => rwa [Vetting.History.of_solo_self]
        | row i => rw [Bulk.History.of_main_row]; rfl
    | ready | waiting | crashed => cases hid

end Matter

/-! ## No two ids are equal -/

namespace History

variable {ι ν : Type}

/-- The numbers drawn, with the strand that drew each. -/
abbrev draws (H : History ι) : List (ι × Nat) :=
  H.owned fun
    | .drew n => some n.toNat
    | _ => none

/-- The ids written, with the strand that wrote each. -/
abbrev entries (H : History ι) : List (ι × String) :=
  H.owned fun a => a.call?.bind Call.enters?

theorem map_draws (H : History ι) : H.draws.map Prod.snd = drawn H.acts := H.map_snd_owned _

theorem map_entries (H : History ι) : H.entries.map Prod.snd = entered H.acts := H.map_snd_owned _

variable [DecidableEq ι]

theorem part_owned (H : History ι) (f : Act → Option ν) (w : ι) :
    part w (H.owned f) = (H.of w).filterMap f := by
  induction H with
  | nil => rfl
  | cons x H ih =>
    obtain ⟨v, a⟩ := x
    cases ha : f a <;> by_cases hv : v = w <;> simp_all [part, owned, of]

theorem part_draws (H : History ι) (w : ι) : part w H.draws = drawn (H.of w) := H.part_owned _ w

theorem part_entries (H : History ι) (w : ι) : part w H.entries = entered (H.of w) :=
  H.part_owned _ w

end History

namespace Shift

variable {H : History} {s : Shift}

namespace Account

theorem nodup_drawn (h : Account H s) (hfew : (drawn H.acts).length < 2 ^ 64 - 1) :
    (drawn H.acts).Nodup := by
  have hsmall : (List.range' 1 (drawn H.acts).length).map (· % 2 ^ 64) =
      List.range' 1 (drawn H.acts).length := by
    apply List.map_congr_left ?_ |>.trans (List.map_id _)
    intro n hn
    rw [List.mem_range'_1] at hn
    exact Nat.mod_eq_of_lt (by omega)
  rw [h.drawn_eq, hsmall]
  exact List.nodup_range'

theorem owner_eq (h : Account H s) (hfew : (drawn H.acts).length < 2 ^ 64 - 1) {n : Nat}
    {v w : Nat × Who} (hv : n ∈ drawn (H.of v)) (hw : n ∈ drawn (H.of w)) : v = w := by
  rw [← History.part_draws, mem_part] at hv hw
  have hnodup : (H.draws.map Prod.snd).Nodup := H.map_draws ▸ h.nodup_drawn hfew
  exact congrArg Prod.fst (List.inj_on_of_nodup_map hnodup hv hw rfl)

/-- What is known of the matters of a shift, each of its ids telling a time that the clock
showed. -/
theorem spends (h : Account H s) {k : Nat} {m : Matter} (hm : s.matters[k]? = some m) :
    (∀ w, Spends (fun i => .read i ∈ H.acts) (H.of (k, w))) ∧
      ∀ id, m.returned? = some id → numberOf id ∈ drawn (H.of (k, .main)) ∧
        IsId (fun i => .read i ∈ H.acts) id ∧ ∀ w, entered (H.of (k, w)) = [] := by
  obtain ⟨o, hacc⟩ := h.matter hm
  simpa only [History.of_at] using hacc.spends fun i hi => History.mem_acts_of_at hi

theorem spends_of (h : Account H s) (w : Nat × Who) :
    Spends (fun i => .read i ∈ H.acts) (H.of w) := by
  cases hm : s.matters[w.1]? with
  | some m => exact (h.spends hm).1 w.2
  | none =>
    have hnil : H.of w = [] := by
      apply History.of_eq_nil
      rintro x hx rfl
      exact Nat.not_lt.mpr (List.getElem?_eq_none_iff.mp hm) (h.started x hx)
    rw [hnil]
    exact .nil

theorem nodup_entered (h : Account H s) (hfew : (drawn H.acts).length < 2 ^ 64 - 1) :
    ((entered H.acts).map numberOf).Nodup := by
  have hparts : ∀ w : Nat × Who,
      (part w (H.entries.map fun x => (x.1, numberOf x.2))).Sublist (part w H.draws) := by
    intro w
    rw [part_map, History.part_entries, History.part_draws]
    exact (h.spends_of w).1
  have hnodup := nodup_of_parts hparts (H.map_draws ▸ h.nodup_drawn hfew)
  rw [← History.map_entries]
  simpa [List.map_map, Function.comp_def] using hnodup

theorem exists_of_mem_returned {id : String} (hid : id ∈ s.returned) :
    ∃ (k : Nat) (m : Matter), s.matters[k]? = some m ∧ m.returned? = some id := by
  obtain ⟨m, hm, hret⟩ := List.mem_filterMap.mp hid
  obtain ⟨k, hk⟩ := List.getElem?_of_mem hm
  exact ⟨k, m, hk, hret⟩

theorem nodup_returned (h : Account H s) (hfew : (drawn H.acts).length < 2 ^ 64 - 1) :
    (s.returned.map numberOf).Nodup := by
  rw [returned, List.map_filterMap, List.Nodup, List.pairwise_filterMap, List.pairwise_iff_getElem]
  rintro j k hj hk hlt n hn n' hn' rfl
  obtain ⟨id, hid, rfl⟩ := Option.map_eq_some_iff.mp hn
  obtain ⟨id', hid', heq⟩ := Option.map_eq_some_iff.mp hn'
  obtain ⟨hmem, -, -⟩ := (h.spends (List.getElem?_eq_getElem hj)).2 id hid
  obtain ⟨hmem', -, -⟩ := (h.spends (List.getElem?_eq_getElem hk)).2 id' hid'
  rw [heq] at hmem'
  have := congrArg Prod.fst (h.owner_eq hfew hmem hmem')
  omega

theorem exists_of_mem_entered {id : String} (hid : id ∈ entered H.acts) :
    ∃ w, id ∈ entered (H.of w) := by
  rw [← History.map_entries] at hid
  obtain ⟨⟨w, id⟩, hx, rfl⟩ := List.mem_map.mp hid
  refine ⟨w, ?_⟩
  rw [← History.part_entries]
  exact mem_part.mpr hx

theorem number_ne (h : Account H s) (hfew : (drawn H.acts).length < 2 ^ 64 - 1) {id id' : String}
    (hid : id ∈ entered H.acts) (hid' : id' ∈ s.returned) : numberOf id ≠ numberOf id' := by
  obtain ⟨w, hmem⟩ := exists_of_mem_entered hid
  obtain ⟨j, m, hm, hret⟩ := exists_of_mem_returned hid'
  obtain ⟨hdrawn, -, hnone⟩ := (h.spends hm).2 id' hret
  intro heq
  have hown : numberOf id ∈ drawn (H.of w) := (h.spends_of w).1.subset (List.mem_map_of_mem hmem)
  rw [heq] at hown
  cases h.owner_eq hfew hown hdrawn
  rw [hnone] at hmem
  cases hmem

/-- An id that was written or given out tells a time that the clock showed and has a number that was
drawn. -/
theorem isId (h : Account H s) {id : String} (hid : id ∈ entered H.acts ++ s.returned) :
    IsId (fun i => .read i ∈ H.acts) id ∧ numberOf id ∈ drawn H.acts := by
  have hsub {n : Nat} {w : Nat × Who} (hn : n ∈ drawn (H.of w)) : n ∈ drawn H.acts := by
    rw [← History.part_draws, mem_part] at hn
    rw [← History.map_draws]
    exact List.mem_map_of_mem hn
  rcases List.mem_append.mp hid with hid | hid
  · obtain ⟨w, hmem⟩ := exists_of_mem_entered hid
    obtain ⟨hspent, hall⟩ := h.spends_of w
    exact ⟨hall id hmem, hsub (hspent.subset (List.mem_map_of_mem hmem))⟩
  · obtain ⟨k, m, hm, hret⟩ := exists_of_mem_returned hid
    obtain ⟨hdrawn, hisId, -⟩ := (h.spends hm).2 id hret
    exact ⟨hisId, hsub hdrawn⟩

end Account

/-- **Transaction ids never collide** while there are numbers left. Whatever is under way, in
whatever order it goes on and whatever the clock shows, the ids that are written to the log or given
out are distinct, and so are those made with the numbers drawn, for whichever products and at
whichever times they are made. Each tells a time that the clock showed and a number that was drawn;
an id of a year of four digits has three parts, and any id tells its letters and its number. -/
theorem ids_never_collide {es : List Event} {s : Shift} (h : opened.steps? es = some s)
    (hfew : (drawn (opened.history es).acts).length < 2 ^ 64 - 1) :
    (entered (opened.history es).acts ++ s.returned).Nodup ∧
    (∀ made : List (Product × Instant × UInt64),
      made.map (·.2.2.toNat) = drawn (opened.history es).acts →
      (made.map fun x => Logbook.transactionId x.1.letters x.2.1 x.2.2).Nodup) ∧
    (∀ id ∈ entered (opened.history es).acts ++ s.returned,
      ∃ (p : Product) (now : Instant) (n : UInt64), id = Logbook.transactionId p.letters now n ∧
        .read now ∈ (opened.history es).acts ∧ n.toNat ∈ drawn (opened.history es).acts) ∧
    ∀ (p : Product) (now : Instant) (n : UInt64),
      lettersOf (Logbook.transactionId p.letters now n) = p.letters ∧
      numberOf (Logbook.transactionId p.letters now n) = n.toNat ∧
      (now.FourDigitYear → Text.HasDigits 14 (Logbook.digits now) ∧
        parts (Logbook.transactionId p.letters now n) =
          [p.letters, Logbook.digits now, toString n.toNat]) := by
  have hacc := account_of_steps h
  refine ⟨?_, ?_, ?_, ?_⟩
  · apply List.Nodup.of_map numberOf
    rw [List.map_append, List.nodup_append]
    refine ⟨hacc.nodup_entered hfew, hacc.nodup_returned hfew, ?_⟩
    rintro n hn n' hn'
    obtain ⟨id, hid, rfl⟩ := List.mem_map.mp hn
    obtain ⟨id', hid', rfl⟩ := List.mem_map.mp hn'
    exact hacc.number_ne hfew hid hid'
  · intro made hmade
    apply List.Nodup.of_map numberOf
    rw [List.map_map]
    simp only [Function.comp_def, Logbook.numberOf_transactionId]
    rw [hmade]
    exact hacc.nodup_drawn hfew
  · intro id hid
    obtain ⟨⟨p, now, n, hread, rfl⟩, hdrawn⟩ := hacc.isId hid
    rw [Logbook.numberOf_transactionId] at hdrawn
    exact ⟨p, now, n, rfl, hread, hdrawn⟩
  · intro p now n
    have hp := Logbook.dash_not_mem_letters p
    exact ⟨Logbook.lettersOf_transactionId hp now n, Logbook.numberOf_transactionId _ now n,
      fun hnow => ⟨Logbook.hasDigits_digits hnow, Logbook.parts_transactionId hp hnow n⟩⟩

/-- Services that know a subscription and create jobs. -/
def jobCreating : (c : Call) → c.Outcome
  | .subscription .. => .ok (⟨3, 4, default⟩ : Subscription)
  | .createJob r => .ok (⟨1, r.member, r.company⟩ : JobRef)
  | _ => .error (.timedOut .core)

/-- An id is asked for; before it is given out, the row of an upload is refused and its entry
written, and then the clock goes back to its beginning. -/
def interleaved : List Event :=
  let late : Instant := ⟨1704067200, 0⟩
  let upload (e : Bulk.Event) : Event := .go 1 (.upload (.run e))
  let main := upload (.move .main late)
  let reply := upload (.reply .main jobCreating)
  let row := upload (.move (.row 0) late)
  let id := Event.go 0 (.errand (.move default))
  [.take (.id .npwpVerification) 0,
    .take (.upload ⟨9, 5, 0, 0, "0", "key-1"⟩ .phoneLiveStatus ⟨100, 1000, none⟩
      (Text.utf8 "Phone Number\nnope\n")) 0,
    main, reply, main, reply, main, main, main, main, reply, main, main, main, main,
    row, id, row, row, row, row, id, id]

/-- The two ids of `interleaved` differ, though times and numbers are in opposite order. -/
theorem interleaved_ids_apart : ∃ s, opened.steps? interleaved = some s ∧
    drawn (opened.history interleaved).acts = [1, 2] ∧
    entered (opened.history interleaved).acts ++ s.returned =
      ["PLS-20240101000000-2", "NPV-19700101000000-1"] ∧
    (entered (opened.history interleaved).acts ++ s.returned).Nodup := by
  have hdrawn : drawn (opened.history interleaved).acts = [1, 2] := by decide +kernel
  refine ⟨_, rfl, hdrawn, by decide +kernel, ?_⟩
  exact (@ids_never_collide interleaved _ rfl (by rw [hdrawn]; decide)).1

end Shift

end Vetting

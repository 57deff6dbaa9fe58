import Vetting.Proofs.TaskReplies

/-! # What is checked before a job is created

`Admitted` tells when an upload passes all its checks, and `Blocked` which of them is the first to
fail; every upload is one or the other. The checks come to an end that says so, and the job is
created by the one call after them. -/

namespace Vetting

def Call.createsJob : Call → Bool
  | .createJob _ => true
  | _ => false

namespace Bulk

variable {core : Replies} {i : Identity} {p : Product} {pace : Pace} {csv : Text.Bytes}
  {sub : Subscription} {rows : List (List String)}

/-! ## The checks -/

/-- The upload can be read; below a header there are the data rows `rows`, and there are some. -/
def Tabled (p : Product) (csv : Text.Bytes) (rows : List (List String)) : Prop :=
  rows ≠ [] ∧ ∃ header, Upload.read csv p.header = .ok (header :: rows)

abbrev quotaQuestion (i : Identity) (s : Subscription) : QuotaQuery :=
  ⟨i.member, i.company, s.id, i.quotaType⟩

/-- A metered tenant has quota left for `n` rows. -/
def Covered (core : Replies) (i : Identity) (s : Subscription) (n : Nat) : Prop :=
  i.quotaType ≠ "0" →
    ∃ left : Int64, core (.quota (quotaQuestion i s)) = .ok left ∧ (n : Int) ≤ left.toInt

/-- Where scores are given there are grades. -/
def Graded (core : Replies) (i : Identity) (p : Product) : Prop :=
  p.requiresGrading = true →
    ∃ grades : List Grade, core (.grades i.company) = .ok grades ∧ grades ≠ []

/-- All checks of the upload are passed: it has the rows `rows` and is made on the subscription
`sub`. -/
structure Admitted (core : Replies) (i : Identity) (p : Product) (csv : Text.Bytes)
    (sub : Subscription) (rows : List (List String)) : Prop where
  subscribed : core (.subscription i.company p.slug) = .ok sub
  tabled : Tabled p csv rows
  covered : Covered core i sub rows.length
  graded : Graded core i p

/-- A check of the upload fails, those before it are passed, and the refusal is `r`. -/
inductive Blocked (core : Replies) (i : Identity) (p : Product) (csv : Text.Bytes) :
    Refusal → Prop where
  | unsubscribed {e : ServiceError} :
      core (.subscription i.company p.slug) = .error e → e.status? = some 404 →
      Blocked core i p csv ⟨.notFound, "subscription not found"⟩
  | subscription {e : ServiceError} :
      core (.subscription i.company p.slug) = .error e → e.status? ≠ some 404 →
      Blocked core i p csv (.ofService e)
  | unreadable {sub : Subscription} {f : Upload.Fault} :
      core (.subscription i.company p.slug) = .ok sub → Upload.read csv p.header = .error f →
      Blocked core i p csv (.ofUpload f)
  | noDataRows {sub : Subscription} {header : List String} :
      core (.subscription i.company p.slug) = .ok sub → Upload.read csv p.header = .ok [header] →
      Blocked core i p csv (.ofUpload .noDataRows)
  | quota {sub : Subscription} {rows : List (List String)} {e : ServiceError} :
      core (.subscription i.company p.slug) = .ok sub → Tabled p csv rows → i.quotaType ≠ "0" →
      core (.quota (quotaQuestion i sub)) = .error e →
      Blocked core i p csv (.ofService e)
  | overQuota {sub : Subscription} {rows : List (List String)} {left : Int64} :
      core (.subscription i.company p.slug) = .ok sub → Tabled p csv rows → i.quotaType ≠ "0" →
      core (.quota (quotaQuestion i sub)) = .ok left → left.toInt < rows.length →
      Blocked core i p csv ⟨.forbidden, "quota exceeded"⟩
  | grades {sub : Subscription} {rows : List (List String)} {e : ServiceError} :
      core (.subscription i.company p.slug) = .ok sub → Tabled p csv rows →
      Covered core i sub rows.length → p.requiresGrading = true →
      core (.grades i.company) = .error e → Blocked core i p csv (.ofService e)
  | ungraded {sub : Subscription} {rows : List (List String)} :
      core (.subscription i.company p.slug) = .ok sub → Tabled p csv rows →
      Covered core i sub rows.length → p.requiresGrading = true →
      core (.grades i.company) = .ok ([] : List Grade) →
      Blocked core i p csv ⟨.badRequest, "grading is not configured"⟩

theorem Admitted.toNat_total (h : Admitted core i p csv sub rows)
    (hlen : csv.length < UInt64.size) :
    (jobRequest i sub rows.length).total.toNat = rows.length := by
  obtain ⟨_, header, hread⟩ := h.tabled
  have hle := Upload.length_read_le hread
  rw [List.length_cons] at hle
  exact UInt64.toNat_ofNat_of_lt' (by omega)

/-- **Every upload is admitted or blocked.** -/
theorem admitted_or_blocked (core : Replies) (i : Identity) (p : Product) (csv : Text.Bytes) :
    (∃ sub rows, Admitted core i p csv sub rows) ∨ ∃ r, Blocked core i p csv r := by
  cases hsub : core (.subscription i.company p.slug) with
  | error e =>
    by_cases h404 : e.status? = some 404
    · exact .inr ⟨_, .unsubscribed hsub h404⟩
    · exact .inr ⟨_, .subscription hsub h404⟩
  | ok sub =>
  cases hread : Upload.read csv p.header with
  | error f => exact .inr ⟨_, .unreadable hsub hread⟩
  | ok table =>
  obtain ⟨header, rows, rfl⟩ : ∃ header rows, table = header :: rows := Upload.read_eq_cons hread
  cases hrows : rows with
  | nil => exact .inr ⟨_, .noDataRows hsub (hrows ▸ hread)⟩
  | cons row rest =>
  have htab : Tabled p csv rows := ⟨by simp [hrows], header, hread⟩
  by_cases hcov : Covered core i sub rows.length
  · by_cases hgraded : Graded core i p
    · exact .inl ⟨sub, rows, hsub, htab, hcov, hgraded⟩
    · obtain ⟨hreq, hnone⟩ := Classical.not_imp.mp hgraded
      cases hgs : core (.grades i.company) with
      | error e => exact .inr ⟨_, .grades hsub htab hcov hreq hgs⟩
      | ok gs =>
        cases gs with
        | nil => exact .inr ⟨_, .ungraded hsub htab hcov hreq hgs⟩
        | cons g gs => exact absurd ⟨_, hgs, List.cons_ne_nil g gs⟩ hnone
  · obtain ⟨hmet, hnone⟩ := Classical.not_imp.mp hcov
    cases hleft : core (.quota (quotaQuestion i sub)) with
    | error e => exact .inr ⟨_, .quota hsub htab hmet hleft⟩
    | ok left =>
      by_cases hlt : Int64.toInt left < rows.length
      · exact .inr ⟨_, .overQuota hsub htab hmet hleft hlt⟩
      · exact absurd ⟨left, hleft, Int.not_lt.mp hlt⟩ hnone

theorem Blocked.not_admitted {r : Refusal} (h : Blocked core i p csv r) :
    ¬ Admitted core i p csv sub rows := by
  intro hadm
  have hsub := hadm.subscribed
  obtain ⟨hne, header, hread⟩ := hadm.tabled
  have htab {rows' : List (List String)} (htab' : Tabled p csv rows') : rows' = rows := by
    obtain ⟨_, header', hread'⟩ := htab'
    cases hread'.symm.trans hread
    rfl
  cases h with
  | unsubscribed hsub' _ => cases hsub'.symm.trans hsub
  | subscription hsub' _ => cases hsub'.symm.trans hsub
  | unreadable _ hread' => cases hread'.symm.trans hread
  | noDataRows _ hread' =>
    cases hread'.symm.trans hread
    exact hne rfl
  | quota hsub' _ hmet hquota =>
    cases hsub'.symm.trans hsub
    obtain ⟨left, hleft, _⟩ := hadm.covered hmet
    cases hquota.symm.trans hleft
  | overQuota hsub' htab' hmet hquota hlt =>
    cases hsub'.symm.trans hsub
    obtain ⟨left, hleft, hle⟩ := hadm.covered hmet
    cases hquota.symm.trans hleft
    rw [htab htab'] at hlt
    omega
  | grades _ _ _ hreq hgs =>
    obtain ⟨_, hgs', _⟩ := hadm.graded hreq
    cases hgs.symm.trans hgs'
  | ungraded _ _ _ hreq hgs =>
    obtain ⟨_, hgs', hgrades⟩ := hadm.graded hreq
    cases hgs.symm.trans hgs'
    exact hgrades rfl

/-- What the checks of an upload find: the subscription and the data rows. -/
def checks (i : Identity) (p : Product) (csv : Text.Bytes) :
    Task (Except Refusal (Subscription × List (List String))) :=
  (Admission.subscription i p).require fun sub =>
  match Plan.dataRows p csv with
  | .error f => .done (.error (.ofUpload f))
  | .ok rows =>
    (Plan.quota i sub rows.length).require fun _ =>
    (Admission.grading i p).require fun _ => .done (.ok (sub, rows))

abbrev planFor (i : Identity) (p : Product) (pace : Pace) (s : Subscription)
    (rows : List (List String)) (job : JobRef) : Plan :=
  ⟨Admission.brief i p s job (.ofNat rows.length), rows.map (Submission.ofRow p), pace⟩

theorem Plan.prepare_eq (i : Identity) (p : Product) (pace : Pace) (csv : Text.Bytes) :
    prepare i p pace csv = (checks i p csv).require fun (sub, rows) =>
      (Admission.createJob i sub (.ofNat rows.length)).require fun job =>
      .count (.jobCreated p) (.done (.ok (planFor i p pace sub rows job))) := by
  unfold prepare checks
  rw [Task.require_assoc]
  congr 1
  funext sub
  cases dataRows p csv with
  | error f => rfl
  | ok rows =>
    simp only [Task.require_assoc]
    rfl

theorem checks_asks {P : Call → Prop} (hsub : P (.subscription i.company p.slug))
    (hquota : ∀ sub n, (Plan.quota i sub n).Asks P) (hgrades : P (.grades i.company)) :
    (checks i p csv).Asks P := by
  refine Task.Asks.require ⟨hsub, fun _ => trivial⟩ fun sub => ?_
  split
  · trivial
  · exact (hquota ..).require fun _ => (grading_asks P hgrades p).require fun _ => trivial

theorem checks_admission (i : Identity) (p : Product) (csv : Text.Bytes) :
    (checks i p csv).Asks (·.isAdmission = true) :=
  checks_asks rfl (Plan.quota_asks i) rfl

theorem checks_unmetered (hmet : i.quotaType = "0") :
    (checks i p csv).Asks (fun c => ∀ q, c ≠ .quota q) := by
  refine checks_asks nofun (fun sub n => ?_) nofun
  simp [Plan.quota, Identity.isMetered_eq_false_iff.mpr hmet, Task.Asks]

/-! ## What the checks come to -/

theorem dataRows_of_tabled (h : Tabled p csv rows) : Plan.dataRows p csv = .ok rows := by
  obtain ⟨hne, header, hread⟩ := h
  simp [Plan.dataRows, hread, hne]

theorem Covered.comesTo {n : Nat} (h : Covered core i sub n) :
    (Plan.quota i sub n).ComesTo core (.ok ()) := by
  unfold Plan.quota
  split
  · next hmet =>
    obtain ⟨left, hleft, hle⟩ := h (Identity.isMetered_iff.mp hmet)
    refine .call hleft ?_
    simp only [Int.not_lt.mpr hle, if_false]
    exact .done _
  · exact .done _

theorem Graded.comesTo (h : Graded core i p) :
    (Admission.grading i p).ComesTo core (.ok ()) := by
  unfold Admission.grading
  split
  · next hreq =>
    obtain ⟨gs, hgs, hne⟩ := h hreq
    refine .call hgs ?_
    simp only [List.isEmpty_iff, hne, if_false]
    exact .done _
  · exact .done _

section Checks

variable {x : Except Refusal (Subscription × List (List String))} {r : Refusal} {e : ServiceError}

/-- A check of the upload's table or a later one decides if the tenant subscribes. -/
theorem checks_of_subscribed (hsub : core (.subscription i.company p.slug) = .ok sub)
    (h : Task.ComesTo core (match Plan.dataRows p csv with
      | .error f => .done (.error (.ofUpload f))
      | .ok rows =>
        (Plan.quota i sub rows.length).require fun _ =>
        (Admission.grading i p).require fun _ => .done (.ok (sub, rows))) x) :
    (checks i p csv).ComesTo core x := by
  have hcall : (Admission.subscription i p).ComesTo core (.ok sub) := .call hsub (.done _)
  exact hcall.require_ok h

theorem checks_of_unsubscribed (hsub : core (.subscription i.company p.slug) = .error e) :
    (checks i p csv).ComesTo core (.error (Admission.noSubscription e)) := by
  have hcall : (Admission.subscription i p).ComesTo core (.error (Admission.noSubscription e)) :=
    .call hsub (.done _)
  exact hcall.require_error

theorem checks_of_quota (hsub : core (.subscription i.company p.slug) = .ok sub)
    (htab : Tabled p csv rows) (h : (Plan.quota i sub rows.length).ComesTo core (.error r)) :
    (checks i p csv).ComesTo core (.error r) := by
  refine checks_of_subscribed hsub ?_
  rw [dataRows_of_tabled htab]
  exact h.require_error

theorem checks_of_grading (hsub : core (.subscription i.company p.slug) = .ok sub)
    (htab : Tabled p csv rows) (hcov : Covered core i sub rows.length)
    (h : (Admission.grading i p).ComesTo core (.error r)) :
    (checks i p csv).ComesTo core (.error r) := by
  refine checks_of_subscribed hsub ?_
  rw [dataRows_of_tabled htab]
  exact hcov.comesTo.require_ok h.require_error

theorem Admitted.comesTo (h : Admitted core i p csv sub rows) :
    (checks i p csv).ComesTo core (.ok (sub, rows)) := by
  refine checks_of_subscribed h.subscribed ?_
  rw [dataRows_of_tabled h.tabled]
  exact h.covered.comesTo.require_ok (h.graded.comesTo.require_ok (.done _))

theorem Blocked.comesTo (h : Blocked core i p csv r) :
    (checks i p csv).ComesTo core (.error r) := by
  cases h with
  | unsubscribed hsub h404 =>
    have hcheck : (checks i p csv).ComesTo core _ := checks_of_unsubscribed hsub
    rwa [Admission.noSubscription, if_pos h404] at hcheck
  | subscription hsub hother =>
    have hcheck : (checks i p csv).ComesTo core _ := checks_of_unsubscribed hsub
    rwa [Admission.noSubscription, if_neg hother] at hcheck
  | unreadable hsub hread =>
    refine checks_of_subscribed hsub ?_
    simp only [Plan.dataRows, hread]
    exact .done _
  | noDataRows hsub hread =>
    refine checks_of_subscribed hsub ?_
    simp only [Plan.dataRows, hread]
    exact .done _
  | quota hsub htab hmet hquota =>
    refine checks_of_quota hsub htab ?_
    rw [Plan.quota, if_pos (Identity.isMetered_iff.mpr hmet)]
    exact .call hquota (.done _)
  | overQuota hsub htab hmet hquota hlt =>
    refine checks_of_quota hsub htab ?_
    rw [Plan.quota, if_pos (Identity.isMetered_iff.mpr hmet)]
    refine .call hquota ?_
    simp only [hlt, if_true]
    exact .done _
  | grades hsub htab hcov hreq hgs =>
    refine checks_of_grading hsub htab hcov ?_
    rw [Admission.grading, if_pos hreq]
    exact .call hgs (.done _)
  | ungraded hsub htab hcov hreq hgs =>
    refine checks_of_grading hsub htab hcov ?_
    rw [Admission.grading, if_pos hreq]
    exact .call hgs (.done _)

end Checks

/-! ## The creation of the job -/

/-- The upload is refused with `r`: a check fails, or the job cannot be created. -/
inductive Refused (core : Replies) (i : Identity) (p : Product) (csv : Text.Bytes) :
    Refusal → Prop where
  | blocked {r : Refusal} : Blocked core i p csv r → Refused core i p csv r
  | uncreated {sub : Subscription} {rows : List (List String)} {e : ServiceError} :
      Admitted core i p csv sub rows →
      core (.createJob (jobRequest i sub rows.length)) = .error e →
      Refused core i p csv (.ofService e)

/-- The calls `cs` are those of checks. -/
structure Checking (i : Identity) (cs : List Call) : Prop where
  admission : ∀ c ∈ cs, c.isAdmission = true
  unmetered : i.quotaType = "0" → ∀ q, .quota q ∉ cs

theorem Checking.countP_createsJob {cs : List Call} (h : Checking i cs) :
    cs.countP Call.createsJob = 0 := by
  rw [List.countP_eq_zero]
  intro c hc
  have hadm := h.admission c hc
  cases c <;> simp_all [Call.isAdmission, Call.createsJob]

theorem checking_of_yields {cs : List Call} {x : Except Refusal (Subscription × List (List String))}
    (h : (checks i p csv).Yields core cs x) : Checking i cs :=
  ⟨h.asks (checks_admission i p csv),
    fun hmet q hmem => h.asks (checks_unmetered hmet) _ hmem q rfl⟩

theorem Blocked.prepare {r : Refusal} (h : Blocked core i p csv r) (pace : Pace) :
    ∃ cs, Checking i cs ∧ (Plan.prepare i p pace csv).Yields core cs (.error r) := by
  obtain ⟨cs, hcs⟩ := h.comesTo
  refine ⟨cs, checking_of_yields hcs, ?_⟩
  rw [Plan.prepare_eq]
  exact hcs.require_error

theorem Admitted.prepare (h : Admitted core i p csv sub rows) (pace : Pace) :
    ∃ cs, Checking i cs ∧ (Plan.prepare i p pace csv).Yields core
      (cs ++ [.createJob (jobRequest i sub rows.length)])
      (((core (.createJob (jobRequest i sub rows.length))).mapError Refusal.ofService).map
        (planFor i p pace sub rows)) := by
  obtain ⟨cs, hcs⟩ := h.comesTo
  have hcall : (Admission.createJob i sub (.ofNat rows.length)).Yields core
      [.createJob (jobRequest i sub rows.length)]
      ((core (.createJob (jobRequest i sub rows.length))).mapError .ofService) := .call (.done _)
  refine ⟨cs, checking_of_yields hcs, ?_⟩
  rw [Plan.prepare_eq]
  cases hjob : core (.createJob (jobRequest i sub rows.length)) with
  | error e =>
    rw [hjob] at hcall
    exact hcs.require_ok hcall.require_error
  | ok job =>
    rw [hjob] at hcall
    exact hcs.require_ok (hcall.require_ok (.count (.done _)))

theorem Plan.prepare_asks (i : Identity) (p : Product) (pace : Pace) (csv : Text.Bytes) :
    (prepare i p pace csv).Asks (·.isRun = false) := by
  rw [prepare_eq]
  refine Task.Asks.require ?_ fun (sub, rows) => ?_
  · refine checks_asks rfl (fun sub n => ?_) rfl
    unfold quota
    split
    · refine ⟨rfl, fun o => ?_⟩
      cases o <;> trivial
    · trivial
  · exact Task.Asks.require ⟨rfl, fun _ => trivial⟩ fun _ => trivial

section Course

variable {A : List Act} {s : Strand (Except Refusal Plan)}

/-- The calls of a preparation are checks, and then the creation of the job if it is admitted. -/
theorem callsOf_prepare (hc : Course (Plan.prepare i p pace csv) A s) (hA : Follows core A) :
    ∃ cs last, Checking i cs ∧ callsOf A <+: cs ++ last ∧
      (last = [] ∨ ∃ sub rows, Admitted core i p csv sub rows ∧
        last = [.createJob (jobRequest i sub rows.length)]) := by
  rcases admitted_or_blocked core i p csv with ⟨sub, rows, hadm⟩ | ⟨r, hblock⟩
  · obtain ⟨cs, hcs, hyields⟩ := hadm.prepare pace
    exact ⟨cs, _, hcs, (hyields.course hc hA).1, .inr ⟨sub, rows, hadm, rfl⟩⟩
  · obtain ⟨cs, hcs, hyields⟩ := hblock.prepare pace
    exact ⟨cs, [], hcs, by simpa using (hyields.course hc hA).1, .inl rfl⟩

theorem Admitted.created (h : Admitted core i p csv sub rows)
    (hc : Course (Plan.prepare i p pace csv) A s) (hA : Follows core A) {x : Except Refusal Plan}
    (hx : s = .ended x) : .createJob (jobRequest i sub rows.length) ∈ callsOf A := by
  obtain ⟨cs, _, hyields⟩ := h.prepare pace
  obtain ⟨_, hcalls⟩ := (hyields.course hc hA).2 x hx
  simp [hcalls]

theorem Refused.ended {r : Refusal} (h : Refused core i p csv r)
    (hc : Course (Plan.prepare i p pace csv) A s) (hA : Follows core A) {x : Except Refusal Plan}
    (hx : s = .ended x) : x = .error r := by
  cases h with
  | blocked hblock =>
    obtain ⟨cs, _, hyields⟩ := hblock.prepare pace
    exact ((hyields.course hc hA).2 x hx).1
  | uncreated hadm hjob =>
    obtain ⟨cs, _, hyields⟩ := hadm.prepare pace
    rw [hjob] at hyields
    exact ((hyields.course hc hA).2 x hx).1

end Course

theorem refused_or_created (core : Replies) (i : Identity) (p : Product) (csv : Text.Bytes) :
    (∃ r, Refused core i p csv r) ∨ ∃ sub rows job, Admitted core i p csv sub rows ∧
      core (.createJob (jobRequest i sub rows.length)) = .ok job := by
  rcases admitted_or_blocked core i p csv with ⟨sub, rows, hadm⟩ | ⟨r, hblock⟩
  · cases hjob : core (.createJob (jobRequest i sub rows.length)) with
    | error e => exact .inl ⟨_, .uncreated hadm hjob⟩
    | ok job => exact .inr ⟨sub, rows, job, hadm, hjob⟩
  · exact .inl ⟨r, .blocked hblock⟩

end Bulk

end Vetting

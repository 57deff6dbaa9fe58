import Vetting.Proofs.SessionBound
import Vetting.Proofs.TaskReplies
import Vetting.Proofs.WrittenDates

/-! # Exports between two dates

A signed-in request for an export between two dates asks the core for the results if both dates are
given and the text of the first one is not ordered behind the text of the last one; every other such
request is refused. Where the dates are written alike, this is the order of the calendar. -/

namespace Vetting.Api

open Http (Request Response)
open Http.Query (Kind Values)
open Text (utf8)

namespace Work

/-- The work makes this call and no other one, whatever the reply. -/
inductive AsksFor (c : Call) : Work → Prop where
  | task {t : Task Response} (h : ∀ core, ∃ response, t.Yields core [c] response) :
      AsksFor c (.task t)

/-- The work is a response with this status, and nothing is asked for. -/
inductive IsRefused (status : UInt16) : Work → Prop where
  | answered {r : Response} (h : r.status = status) : IsRefused status (.answered r)

variable {w : Work} {c : Call} {status : UInt16} {f : Response → Response}

theorem AsksFor.map (h : w.AsksFor c) (f : Response → Response) : (w.map f).AsksFor c := by
  cases h with
  | task h =>
    refine .task fun core => ?_
    obtain ⟨response, hyields⟩ := h core
    exact ⟨f response, hyields.bind (.done _)⟩

theorem IsRefused.map (h : w.IsRefused status) (hf : ∀ r, (f r).status = r.status) :
    (w.map f).IsRefused status := by
  cases h with
  | answered h => exact .answered ((hf _).trans h)

theorem IsRefused.not_asksFor (h : w.IsRefused status) : ¬ w.AsksFor c := by
  cases h with
  | answered => nofun

end Work

/-- What the query of a request for a range may tell. -/
def rangeFields : List (String × Kind) :=
  [("start_date", .text), ("end_date", .text), ("masked", .flag)]

/-- Both ends of a range are given, and are texts of dates. -/
structure Ends (vs : Values) (first last : String) (d e : Date) : Prop where
  start_date : vs.text? "start_date" = some first
  end_date : vs.text? "end_date" = some last
  first : Date.ofText? first = some d
  last : Date.ofText? last = some e

variable {vs : Values} {key text first last : String} {d e : Date} {ref : Refusal} {r : Request}

theorem dayOf_of_date (htext : vs.text? key = some text) (hdate : Date.ofText? text = some d) :
    dayOf vs key = .ok text := by
  have hne : text.isEmpty = false := by
    by_contra hempty
    rw [Bool.not_eq_false, String.isEmpty_iff] at hempty
    rw [hempty] at hdate
    cases hdate
  simp [dayOf, htext, hdate, hne]

theorem date_of_dayOf (h : dayOf vs key = .ok text) :
    vs.text? key = some text ∧ ∃ d, Date.ofText? text = some d := by
  unfold dayOf at h
  split at h
  · cases h
  · next htext =>
    split at h
    · cases h
    · split at h
      · cases h
      · next hdate =>
        cases h
        exact ⟨htext, Option.ne_none_iff_exists'.mp (by simpa using hdate)⟩

theorem kind_of_dayOf (h : dayOf vs key = .error ref) : ref.kind = .badRequest := by
  unfold dayOf at h
  split at h
  · cases h
    rfl
  · split at h
    · cases h
      rfl
    · split at h <;> cases h
      rfl

/-- A query that cannot be read names no range. -/
theorem rangeOf_of_unread (hq : queryOf rangeFields r = .error ref) :
    rangeOf r = .error ref ∧ ref.kind = .badRequest := by
  constructor
  · unfold rangeFields at hq
    simp only [rangeOf, hq, bind, Except.bind]
  · unfold queryOf at hq
    cases hread : Http.Query.read rangeFields r.query with
    | error f =>
      rw [hread] at hq
      cases hq
      rfl
    | ok vs =>
      rw [hread] at hq
      cases hq

/-- A range has two ends. -/
theorem rangeOf_of_not_ends (hq : queryOf rangeFields r = .ok vs)
    (h : ¬ ∃ first last d e, Ends vs first last d e) :
    ∃ ref, rangeOf r = .error ref ∧ ref.kind = .badRequest := by
  unfold rangeFields at hq
  cases hfirst : dayOf vs "start_date" with
  | error ref =>
    refine ⟨ref, ?_, kind_of_dayOf hfirst⟩
    simp only [rangeOf, hq, hfirst, bind, Except.bind]
  | ok first =>
    cases hlast : dayOf vs "end_date" with
    | error ref =>
      refine ⟨ref, ?_, kind_of_dayOf hlast⟩
      simp only [rangeOf, hq, hfirst, hlast, bind, Except.bind]
    | ok last =>
      obtain ⟨hstart, d, hd⟩ := date_of_dayOf hfirst
      obtain ⟨hend, e, he⟩ := date_of_dayOf hlast
      exact absurd ⟨first, last, d, e, hstart, hend, hd, he⟩ h

/-- Days are compared as they are written. -/
theorem rangeOf_of_ends (hq : queryOf rangeFields r = .ok vs) (h : Ends vs first last d e) :
    rangeOf r = if last < first then .error (badRequest "start_date must not be after end_date")
      else .ok ⟨first, last, vs.flag "masked"⟩ := by
  have hfirst := dayOf_of_date h.start_date h.first
  have hlast := dayOf_of_date h.end_date h.last
  unfold rangeFields at hq
  simp only [rangeOf, hq, hfirst, hlast, bind, Except.bind, pure, throw]
  split <;> rfl

def resultsBetween (i : Identity) (p : Product) (first last : String) : Call :=
  .jobsSummary ⟨i.member, i.company, i.tier⟩ p.slug ⟨first, last, Export.everything⟩

theorem yields_export {p : Product} {l : Export.Layout} (core : Replies) (i : Identity)
    (hl : Export.layout? p = some l) (first last : String) (masked : Bool) :
    ∃ x, (Export.export_ i p (.dates first last) masked).Yields core
      [resultsBetween i p first last] x := by
  simp only [Export.export_, hl]
  cases hreply : core (.jobsSummary i.scope p.slug ⟨first, last, Export.everything⟩) with
  | error err => exact ⟨_, .call (by rw [hreply]; exact .done _)⟩
  | ok a => exact ⟨_, .call (by rw [hreply]; exact .done _)⟩

/-- A request for an export between two dates: it is signed in as `i`, and `p` has exports. -/
structure RangeWanted (s : Settings) (now : Nat) (r : Request) (i : Identity) (p : Product) :
    Prop where
  method : r.method ∈ Endpoint.exportSummary.methods
  path : ∃ params names, route? r.path = some (.exportSummary, params) ∧
    decodeParams params = .ok names ∧ productOf names = .ok p
  session : s.sessions.verify now r.headers = .ok i
  layout : (Export.layout? p).isSome

namespace RangeWanted

variable {s : Settings} {now : Nat} {i : Identity} {p : Product}

theorem handle_eq (h : RangeWanted s now r i p) :
    handle s now r =
      let work := withInput (rangeOf r) fun range =>
        export_ i p (.dates range.first range.last) range.masked
      if r.method = "HEAD" then work.map .withoutBody else work := by
  obtain ⟨params, names, hroute, hparams, hproduct⟩ := h.path
  simp only [handle, hroute, if_pos h.method, enter, h.session, withInput, hparams, hproduct, serve]
  rfl

theorem refused (h : RangeWanted s now r i p) (hr : rangeOf r = .error ref)
    (hkind : ref.kind = .badRequest) : (handle s now r).IsRefused 400 := by
  have hstatus : (Work.answered ref.response).IsRefused 400 := by
    refine .answered ?_
    show ref.kind.status = 400
    rw [hkind]
    rfl
  rw [h.handle_eq, hr]
  dsimp only [withInput]
  split
  · exact hstatus.map fun _ => rfl
  · exact hstatus

theorem asksFor (h : RangeWanted s now r i p) {range : Range} (hr : rangeOf r = .ok range) :
    (handle s now r).AsksFor (resultsBetween i p range.first range.last) := by
  have hasks : (export_ i p (.dates range.first range.last) range.masked).AsksFor
      (resultsBetween i p range.first range.last) := by
    obtain ⟨l, hl⟩ := Option.isSome_iff_exists.mp h.layout
    refine .task fun core => ?_
    obtain ⟨x, hx⟩ := yields_export core i hl range.first range.last range.masked
    exact ⟨answer attachment x, hx.bind (.done _)⟩
  rw [h.handle_eq, hr]
  dsimp only [withInput]
  split
  · exact hasks.map _
  · exact hasks

end RangeWanted

/-- **Exports between two dates are let through by the texts of the dates.** If the query of a
request can be read, the core is asked for the results exactly when both dates are given and the
text of the first one is not ordered behind the text of the last one; in every other case the
request is refused with 400 and nothing is asked for. So for dates that are written alike, as all
those with four, two and two digits are, the core is asked for the results unless the last date
comes before the first one in the calendar. -/
theorem range_exports_gated {s : Settings} {now : Nat} {i : Identity} {p : Product}
    (h : RangeWanted s now r i p) :
    (∀ ref, queryOf rangeFields r = .error ref → (handle s now r).IsRefused 400) ∧
    ∀ vs, queryOf rangeFields r = .ok vs →
      ((¬ ∃ first last d e, Ends vs first last d e) → (handle s now r).IsRefused 400) ∧
      ∀ first last d e, Ends vs first last d e →
        ((handle s now r).AsksFor (resultsBetween i p first last) ↔ ¬ last < first) ∧
        ((handle s now r).IsRefused 400 ↔ last < first) ∧
        (Date.WrittenAlike first last →
          ((handle s now r).AsksFor (resultsBetween i p first last) ↔ ¬ e.Before d) ∧
          ((handle s now r).IsRefused 400 ↔ e.Before d)) := by
  refine ⟨?_, ?_⟩
  · intro ref hq
    obtain ⟨hr, hkind⟩ := rangeOf_of_unread hq
    exact h.refused hr hkind
  intro vs hq
  refine ⟨?_, ?_⟩
  · intro hnone
    obtain ⟨ref, hr, hkind⟩ := rangeOf_of_not_ends hq hnone
    exact h.refused hr hkind
  intro first last d e hends
  have hr := rangeOf_of_ends hq hends
  have hrefuses (hlt : last < first) : (handle s now r).IsRefused 400 := by
    rw [if_pos hlt] at hr
    exact h.refused hr rfl
  have hcalls (hge : ¬ last < first) : (handle s now r).AsksFor (resultsBetween i p first last) := by
    rw [if_neg hge] at hr
    exact h.asksFor hr
  have hrefused : (handle s now r).IsRefused 400 ↔ last < first := by
    refine ⟨?_, hrefuses⟩
    intro href
    by_contra hge
    exact href.not_asksFor (hcalls hge)
  have hasks : (handle s now r).AsksFor (resultsBetween i p first last) ↔ ¬ last < first := by
    refine ⟨?_, hcalls⟩
    intro hcall hlt
    exact (hrefuses hlt).not_asksFor hcall
  refine ⟨hasks, hrefused, ?_⟩
  intro halike
  have hbefore : last < first ↔ e.Before d :=
    halike.symm.lt_iff_before hends.last hends.first
  exact ⟨hasks.trans (not_congr hbefore), hrefused.trans hbefore⟩

/-- The member's request for an export of the phones that were looked at between two dates. -/
def phonesBetween (first last : String) : Request :=
  { jobsWanted with
    target := utf8 ("/api/products/IDENTITY_phone_live_status/jobs-summary/export?start_date=" ++
      first ++ "&end_date=" ++ last) }

theorem rangeWanted_phonesBetween {first last : String}
    (hroute : route? (phonesBetween first last).path =
      some (.exportSummary, [("slug", utf8 "IDENTITY_phone_live_status")])) :
    RangeWanted desk 0 (phonesBetween first last) signedIn .phoneLiveStatus where
  method := List.mem_cons_self
  path := ⟨_, [("slug", "IDENTITY_phone_live_status")], hroute, rfl, rfl⟩
  session := verify_jobsWanted
  layout := rfl

theorem week_of_phones_exported :
    RangeWanted desk 0 (phonesBetween "2024-01-05" "2024-01-10") signedIn .phoneLiveStatus ∧
    (handle desk 0 (phonesBetween "2024-01-05" "2024-01-10")).AsksFor
      (resultsBetween signedIn .phoneLiveStatus "2024-01-05" "2024-01-10") := by
  have hwanted : RangeWanted desk 0 (phonesBetween "2024-01-05" "2024-01-10") signedIn
      .phoneLiveStatus := rangeWanted_phonesBetween (by decide +kernel)
  have hq : queryOf rangeFields (phonesBetween "2024-01-05" "2024-01-10") =
      .ok [("start_date", .text "2024-01-05"), ("end_date", .text "2024-01-10")] := by
    decide +kernel
  have hends : Ends [("start_date", .text "2024-01-05"), ("end_date", .text "2024-01-10")]
      "2024-01-05" "2024-01-10" ⟨2024, 1, 5⟩ ⟨2024, 1, 10⟩ :=
    ⟨rfl, rfl, by decide +kernel, by decide +kernel⟩
  obtain ⟨hasks, -, -⟩ := ((range_exports_gated hwanted).2 _ hq).2 _ _ _ _ hends
  exact ⟨hwanted, hasks.mpr (by decide +kernel)⟩

/-- The last day of September, written with one digit for the month, is let through as the end of a
range that starts in October: the core is asked for the results of a range of dates that ends before
it starts. -/
theorem inverted_range_exported :
    RangeWanted desk 0 (phonesBetween "2024-10-01" "2024-9-30") signedIn .phoneLiveStatus ∧
    Date.ofText? "2024-10-01" = some ⟨2024, 10, 1⟩ ∧
    Date.ofText? "2024-9-30" = some ⟨2024, 9, 30⟩ ∧
    Date.Before ⟨2024, 9, 30⟩ ⟨2024, 10, 1⟩ ∧
    (handle desk 0 (phonesBetween "2024-10-01" "2024-9-30")).AsksFor
      (resultsBetween signedIn .phoneLiveStatus "2024-10-01" "2024-9-30") := by
  have hwanted : RangeWanted desk 0 (phonesBetween "2024-10-01" "2024-9-30") signedIn
      .phoneLiveStatus := rangeWanted_phonesBetween (by decide +kernel)
  have hrange : rangeOf (phonesBetween "2024-10-01" "2024-9-30") =
      .ok ⟨"2024-10-01", "2024-9-30", false⟩ := by decide +kernel
  exact ⟨hwanted, by decide +kernel, by decide +kernel, by decide, hwanted.asksFor hrange⟩

end Vetting.Api

import Vetting.Api.Handler
import Vetting.Proofs.Confined

/-! # Requests are bound to their session

What a request leads to is decided by its session first of all: without one the request is answered
at once and nothing is asked of any service; with one, all that is done is confined to the session's
identity. The identity is told by the headers alone, so requests with the same headers are never
served on behalf of different identities. -/

namespace Vetting

open Bulk (Dispatch)

/-- A token tells one identity, whenever it is looked at. -/
theorem Token.verify?_eq {secret : Text.Bytes} {now now' : Nat} {token : String} {i i' : Identity}
    (h : verify? secret now token = some i) (h' : verify? secret now' token = some i') :
    i = i' := by
  have hclaims {now : Nat} {p : Text.Bytes} {c : Claims} (hc : claims? now p = some c) :
      Wire.Form.ofText Claims p = .ok c := by
    unfold claims? at hc
    split at hc
    · cases hc
    · next c' heq =>
      split at hc
      · cases hc
        exact heq
      · cases hc
  unfold verify? at h h'
  split at h
  · next header payload signature hparts =>
    rw [hparts] at h'
    simp only [bind, Option.bind_eq_some_iff] at h h'
    obtain ⟨hd, hhd, p, hp, sg, hsg, h⟩ := h
    obtain ⟨hd', hhd', p', hp', sg', hsg', h'⟩ := h'
    cases hp.symm.trans hp'
    split at h
    · split at h'
      · obtain ⟨c, hc, rfl⟩ := Option.map_eq_some_iff.mp h
        obtain ⟨c', hc', rfl⟩ := Option.map_eq_some_iff.mp h'
        cases (hclaims hc).symm.trans (hclaims hc')
        rfl
      · cases h'
    · cases h
  · cases h

namespace Session.Verifier

variable {v : Verifier} {now now' : Nat} {hs : Http.Headers} {i i' : Identity}

theorem verify_eq_ok : v.verify now hs = .ok i ↔
    (v.token? hs).bind (Token.verify? (Text.utf8 v.secret) now) = some i := by
  unfold verify
  split
  · next j hj => simp [hj]
  · next hnone => simp [hnone]

theorem verify_eq_error {r : Refusal} (h : v.verify now hs = .error r) : r = unauthorized := by
  unfold verify at h
  split at h <;> cases h
  rfl

theorem identity_eq (h : v.verify now hs = .ok i) (h' : v.verify now' hs = .ok i') : i = i' := by
  obtain ⟨token, htoken, hi⟩ := Option.bind_eq_some_iff.mp (verify_eq_ok.mp h)
  obtain ⟨token', htoken', hi'⟩ := Option.bind_eq_some_iff.mp (verify_eq_ok.mp h')
  cases htoken.symm.trans htoken'
  exact Token.verify?_eq hi hi'

end Session.Verifier

namespace Api

open Http (Request Response)
open Text (utf8)

/-- What may be done for a request that leads to `work`. -/
inductive Work.Does : Work → Bulk.History → Prop where
  | answered (r : Response) : Does (.answered r) []
  | task {t : Task Response} {A e} : Errand.Goes t A e → Does (.task t) (.solo .main A)
  | upload {t H d} : Dispatch.Goes t H d → Does (.upload t) H

/-- Whatever is done is confined to `i`. -/
def Work.IsConfined (i : Identity) : Work → Prop
  | .answered _ => True
  | .task t => ∀ A s, Course t A s → Confined i (.solo .main A)
  | .upload t => ∀ H d, Dispatch.Ledger t H d → Confined i H

namespace Work

variable {w : Work} {i : Identity}

theorem IsConfined.does (h : w.IsConfined i) {H : Bulk.History} (hH : w.Does H) : Confined i H := by
  cases hH with
  | answered => exact .nothing i
  | task hgoes => exact h _ _ hgoes.account.course
  | upload hgoes => exact h _ _ hgoes.ledger

theorem IsConfined.map (h : w.IsConfined i) (f : Response → Response) :
    (w.map f).IsConfined i := by
  cases w with
  | answered => trivial
  | task t =>
    intro A s hc
    obtain ⟨s', hc'⟩ := hc.of_map
    exact h A s' hc'
  | upload t => exact h

theorem isConfined_of_asks {t : Task Response} (ht : t.Asks (·.Prepares i))
    (hone : t.Asks (·.createsJob = false)) : (Work.task t).IsConfined i :=
  fun _ _ hc => hc.confined ht hone

end Work

variable {i : Identity}

theorem withInput_isConfined {α : Type} {a : Except Refusal α} {f : α → Work}
    (h : ∀ x, a = .ok x → (f x).IsConfined i) : (withInput a f).IsConfined i := by
  cases ha : a with
  | error r => trivial
  | ok x => exact h x ha

theorem passOn_isConfined (c : Call) (hc : c.Prepares i) (hone : c.createsJob = false)
    (render : c.Reply → Response) : (passOn c render).IsConfined i := by
  refine Work.isConfined_of_asks (Task.Asks.bind ⟨hc, fun _ => trivial⟩ fun _ => trivial) ?_
  exact Task.Asks.bind ⟨hone, fun _ => trivial⟩ fun _ => trivial

theorem export_isConfined (p : Product) (target : Export.Target) (masked : Bool) :
    (export_ i p target masked).IsConfined i := by
  have hasks {P : Call → Prop} (hjob : ∀ slug id f, P (.jobDetails i.scope slug id f))
      (hdates : ∀ slug f, P (.jobsSummary i.scope slug f)) :
      (Export.export_ i p target masked).Asks P := by
    unfold Export.export_
    split
    · trivial
    · cases target with
      | job id =>
        refine ⟨hjob _ _ _, fun o => ?_⟩
        cases o <;> trivial
      | dates first last =>
        refine ⟨hdates _ _, fun o => ?_⟩
        cases o <;> trivial
  refine Work.isConfined_of_asks (Task.Asks.bind (hasks ?_ ?_) fun _ => trivial)
    (Task.Asks.bind (hasks ?_ ?_) fun _ => trivial)
  · exact fun _ _ _ => ⟨⟨rfl, rfl, rfl⟩, rfl⟩
  · exact fun _ _ => ⟨⟨rfl, rfl, rfl⟩, rfl⟩
  · exact fun _ _ _ => rfl
  · exact fun _ _ => rfl

/-- **Every endpoint's work is confined to the identity it is done for.** -/
theorem serve_isConfined (s : Settings) (e : Endpoint) (p : Product)
    (params : List (String × String)) (r : Request) : (serve s e i p params r).IsConfined i := by
  cases e with
  | bulk =>
    refine withInput_isConfined fun file _ => withInput_isConfined fun _ _ => ?_
    exact fun H d hledger => hledger.confined
  | single =>
    refine withInput_isConfined fun body _ => ?_
    intro A st hc
    obtain ⟨st', hc'⟩ := hc.of_map
    exact Single.confined hc'
  | listJobs =>
    refine withInput_isConfined fun f _ => ?_
    exact passOn_isConfined (.listJobs i.scope p.slug f) ⟨⟨rfl, rfl, rfl⟩, rfl⟩ rfl _
  | jobDetails =>
    refine withInput_isConfined fun job _ => withInput_isConfined fun f _ => ?_
    exact passOn_isConfined (.jobDetails i.scope p.slug job f) ⟨⟨rfl, rfl, rfl⟩, rfl⟩ rfl _
  | exportJob =>
    exact withInput_isConfined fun job _ => withInput_isConfined fun masked _ =>
      export_isConfined _ _ _
  | exportSummary => exact withInput_isConfined fun range _ => export_isConfined _ _ _

theorem enter_isConfined (s : Settings) (now : Nat) (e : Endpoint)
    (params : List (String × Text.Bytes)) (r : Request)
    (h : ∀ j, s.sessions.verify now r.headers = .ok j → j = i) :
    (enter s now e params r).IsConfined i := by
  refine withInput_isConfined fun j hj => ?_
  cases h j hj
  split
  · trivial
  · split
    · trivial
    · exact withInput_isConfined fun p _ => serve_isConfined s e p _ r

theorem handle_isConfined (s : Settings) (now : Nat) (r : Request)
    (h : ∀ j, s.sessions.verify now r.headers = .ok j → j = i) :
    (handle s now r).IsConfined i := by
  have hhead {w : Work} (hw : w.IsConfined i) :
      (if r.method = "HEAD" then w.map .withoutBody else w).IsConfined i := by
    split
    · exact hw.map _
    · exact hw
  unfold handle
  refine hhead ?_
  split
  · trivial
  · split
    · exact enter_isConfined s now _ _ r h
    · trivial

/-- The response to a request without a session. -/
def unauthorized (r : Request) : Response :=
  let response := Response.failure 401 "invalid or missing session token"
  if r.method = "HEAD" then response.withoutBody else response

theorem handle_of_unverified {s : Settings} {now : Nat} {r : Request} {ref : Refusal}
    (h : s.sessions.verify now r.headers = .error ref) :
    (∃ response, handle s now r = .answered response) ∧
      ∀ e params, route? r.path = some (e, params) → r.method ∈ e.methods →
        handle s now r = .answered (unauthorized r) := by
  have henter (e : Endpoint) (params : List (String × Text.Bytes)) :
      enter s now e params r = .answered (.failure 401 "invalid or missing session token") := by
    simp only [enter, h, withInput]
    rw [Session.Verifier.verify_eq_error h]
    rfl
  constructor
  · simp only [handle, henter]
    cases route? r.path with
    | none => split <;> exact ⟨_, rfl⟩
    | some x =>
      dsimp only
      split <;> split <;> exact ⟨_, rfl⟩
  · intro e params hroute hmethod
    simp only [handle, hroute, hmethod, if_true, henter, unauthorized]
    split <;> rfl

/-- **Every effect is bound to the session.** A request to an endpoint whose headers show no valid
session is answered with 401 and its fixed message, and no request without a session leads to any
call. What is done for a request with a session is confined to its identity, and so is what is done
for any other request with the same headers, whenever it comes and whatever it asks for. -/
theorem effects_bound_to_session (s : Settings) (now : Nat) (r : Request) :
    (∀ ref, s.sessions.verify now r.headers = .error ref →
      (∀ e params, route? r.path = some (e, params) → r.method ∈ e.methods →
        handle s now r = .answered (unauthorized r)) ∧
      ∀ H, (handle s now r).Does H → H = []) ∧
    ∀ i, s.sessions.verify now r.headers = .ok i →
      (∀ H, (handle s now r).Does H → Confined i H) ∧
      ∀ (now' : Nat) (r' : Request), r'.headers = r.headers →
        (∀ i', s.sessions.verify now' r'.headers = .ok i' → i' = i) ∧
        ∀ H, (handle s now' r').Does H → Confined i H := by
  constructor
  · intro ref href
    obtain ⟨⟨response, hanswered⟩, hendpoint⟩ := handle_of_unverified href
    refine ⟨hendpoint, ?_⟩
    intro H hH
    rw [hanswered] at hH
    cases hH
    rfl
  · intro i hi
    have hsame {now' : Nat} {r' : Request} (hr : r'.headers = r.headers) (i' : Identity)
        (hi' : s.sessions.verify now' r'.headers = .ok i') : i' = i :=
      Session.Verifier.identity_eq (hr ▸ hi') hi
    have hconfined {now' : Nat} {r' : Request} (hr : r'.headers = r.headers) {H : Bulk.History}
        (hH : (handle s now' r').Does H) : Confined i H :=
      (handle_isConfined s now' r' (hsame hr)).does hH
    exact ⟨fun H hH => hconfined rfl hH, fun now' r' hr => ⟨hsame hr, fun H hH => hconfined hr hH⟩⟩

/-- A member who has signed in. -/
def signedIn : Identity := ⟨9, 5, 0, 0, "0", "k"⟩

/-- An interface whose secret is "s". -/
def desk : Settings := ⟨⟨"s", "session"⟩, ⟨100, 1000, none⟩, 1000⟩

/-- The member's request for a list of jobs. -/
def jobsWanted : Request where
  method := "GET"
  target := utf8 "/api/products/IDENTITY_phone_live_status/jobs"
  headers := [("cookie", utf8 ("session=eyJhbGciOiJIUzI1NiJ9.eyJjb21wYW55X2lkIjo5LCJtZW1iZXJfaWQiOj"
    ++ "UsInJvbGVfaWQiOjAsInRpZXJfbGV2ZWwiOjAsInF1b3RhX3R5cGUiOiIwIiwiYXBpX2tleSI6ImsiLCJleHAiOjEw"
    ++ "MH0.Of8fih-Gz8jByDocIrW1-uOOwNZxinotfqa8EtHqII0"))]
  body := []

/-- The call that is made for it. -/
def phoneJobs : Call :=
  .listJobs ⟨5, 9, 0⟩ Product.phoneLiveStatus.slug ⟨none, none, none, none⟩

theorem verify_jobsWanted : desk.sessions.verify 0 jobsWanted.headers = .ok signedIn := by
  rw [Session.Verifier.verify_eq_ok]
  decide +kernel

theorem enter_jobsWanted : enter desk 0 .listJobs [("slug", utf8 "IDENTITY_phone_live_status")]
    jobsWanted = passOn phoneJobs listing := by
  have hparams : decodeParams [("slug", utf8 "IDENTITY_phone_live_status")] =
      .ok [("slug", "IDENTITY_phone_live_status")] := rfl
  rw [enter, verify_jobsWanted, withInput, hparams]
  rfl

theorem handle_jobsWanted : handle desk 0 jobsWanted = passOn phoneJobs listing := by
  have hroute : route? jobsWanted.path =
      some (.listJobs, [("slug", utf8 "IDENTITY_phone_live_status")]) := by decide +kernel
  have hmethod : jobsWanted.method ∈ Endpoint.listJobs.methods := by decide
  have hget : jobsWanted.method ≠ "HEAD" := by decide
  simp only [handle, hroute, if_pos hmethod, if_neg hget, enter_jobsWanted]

theorem phone_jobs_listed_for_signedIn :
    desk.sessions.verify 0 jobsWanted.headers = .ok signedIn ∧
    (handle desk 0 jobsWanted).Does [(.main, .called phoneJobs)] ∧
    Confined signedIn [(.main, .called phoneJobs)] := by
  have hdoes : (handle desk 0 jobsWanted).Does [(.main, .called phoneJobs)] := by
    rw [handle_jobsWanted]
    exact .task (@Errand.goes_of_steps _ _ _ 0 [.move ⟨0, 0⟩] rfl)
  exact ⟨verify_jobsWanted, hdoes,
    ((effects_bound_to_session desk 0 jobsWanted).2 _ verify_jobsWanted).1 _ hdoes⟩

end Api

end Vetting

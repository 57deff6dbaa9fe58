import Vetting.Rehearsal.Journal
import Vetting.Url.Parser

/-!
Scripted services. For each kind of call there is a list of rules; the first one that fits a call's
arguments and is not used up tells how long the reply takes and what it is. A call without a rule,
or whose rule leaves the reply open, is answered as a plain service would.
-/

namespace Vetting.Rehearsal

open Wire (Form)

/-- How a call is answered. -/
inductive Reply where
  | succeed (reply value : Json)
  | fail (e : ServiceError)
  | crash
  | plain

structure Rule where
  condition : Json
  times : Option Nat
  delay : Nat
  reply : Reply
  used : Nat

structure Stage where
  rules : List (String × List Rule)
  /-- Jobs created by plain replies. -/
  jobs : Nat
  /-- The jobs of the successful log entries. -/
  logged : List UInt64
  confirmed : Nat

mutual

/-- Whether a value has at least the parts of a condition. -/
def covers : Json → Json → Bool
  | .obj wanted, j => coversAll wanted j
  | a, b => a == b

def coversAll : List (String × Json) → Json → Bool
  | [], .obj _ => true
  | [], _ => false
  | (key, a) :: rest, j =>
    (match j.member? key with
      | some b => covers a b
      | none => false) && coversAll rest j

end

def natOf (d : Nat) (j : Option Json) : Nat := ((j.bind Json.int?).getD d).toNat

def textOf (j : Option Json) : String := (j.bind Json.str?).getD ""

def serviceOf (name : String) : Service :=
  ([Service.core, .catalog, .scoring].find? fun s => s.name = name).getD .core

/-- A scripted failure. -/
def failureOf (j : Json) : ServiceError :=
  match j with
  | .obj (("external", e) :: _) =>
    .rejected ⟨UInt16.ofNat (natOf 0 (e.member? "status")), textOf (e.member? "message"),
      e.member? "body"⟩
  | .obj (("timeout", s) :: _) => .timedOut (serviceOf (textOf (some s)))
  | .obj (("transport", s) :: _) => .unreachable (serviceOf (textOf (some s))) "builder error"
  | .obj (("invalid_url", s) :: _) =>
    .badAddress (match Url.parse (textOf (some s)) with
      | .error f => f.message
      | .ok _ => "")
  | j => .undecodable (textOf (j.member? "parse"))

def replyOf (j : Json) : Reply :=
  match j.member? "ok", j.member? "err", j.member? "panic" with
  | some v, _, _ => .succeed j v
  | _, some e, _ => .fail (failureOf e)
  | _, _, some _ => .crash
  | _, _, _ => .plain

def ruleOf (j : Json) : Rule where
  condition := (j.member? "when").getD (.obj [])
  times := ((j.member? "times").bind Json.int?).map Int.toNat
  delay := natOf 0 (j.member? "delay_ms")
  reply := replyOf ((j.member? "reply").getD .null)
  used := 0

/-- The stage for scripts of the core service and of the products. -/
def stageOf (core products : Json) : Stage where
  rules := ("product", (products.arr?.getD []).map ruleOf) ::
    (match core with
      | .obj members => members.map fun (name, rules) => (name, (rules.arr?.getD []).map ruleOf)
      | _ => [])
  jobs := 0
  logged := []
  confirmed := 0

/-- The first rule that fits, with its use noted. -/
def takeRule (args : Json) : List Rule → Option (Rule × List Rule)
  | [] => none
  | r :: rest =>
    if covers r.condition args && (r.times.all fun n => r.used < n) then
      some (r, { r with used := r.used + 1 } :: rest)
    else (takeRule args rest).map fun (found, rest) => (found, r :: rest)

/-- How the stage answers a call: the delay and the reply. -/
def Stage.take (s : Stage) (c : Call) : Nat × Reply × Stage :=
  let name := callName c
  match takeRule (callArgs c) ((s.rules.lookup name).getD []) with
  | none => (0, .plain, s)
  | some (r, rules) =>
    (r.delay, r.reply, { s with
      rules := s.rules.map fun (n, rs) => if n = name then (n, rules) else (n, rs) })

def decoded (α : Type) [Form α] (d : α) (j : Json) : α := ((Form.decode α j).toOption).getD d

def wordOf (j : Json) : UInt64 := UInt64.ofNat ((j.int?).getD 0).toNat

def plainCatalog (body : Json) : CatalogAnswer where
  success := true
  data := some (Json.object [("status", .str "VALID")])
  input := Json.object []
  message := "succeed"
  pricingStrategy := "PAY"
  transactionId := "TRX-" ++ valuesKey body
  datetime := "2024-01-01 00:00:00"
  status := 200

def plainScoring : ScoringAnswer where
  success := true
  data := some (Json.object [("probability_to_default",
    .num (.double ((Double.ofRatio? false 12 100).getD (Double.zero false)))),
    ("grade", .str "A")])
  plainMessage := "ok"
  errorMessage := none
  status := 200

def plainListing {α : Type} : CoreAnswer (List α) := ⟨true, some [], "ok", none, 200⟩

/-- The reply of a plain service. -/
def Stage.plain (s : Stage) : (c : Call) → c.Outcome
  | .subscription _ slug => .ok (⟨31, 4, ⟨2, slug, slug⟩⟩ : Subscription)
  | .quota _ => .ok (0 : Int64)
  | .grades _ => .ok ([] : List Grade)
  | .createJob r => .ok (⟨UInt64.ofNat (s.jobs + 1), r.member, r.company⟩ : JobRef)
  | .updateJob .. => .ok ()
  | .processedCount job => .ok (UInt64.ofNat ((s.logged.filter (· = job)).length + s.confirmed))
  | .writeLog _ => .ok ()
  | .confirmLog _ => .ok ()
  | .listJobs .. => .ok plainListing
  | .jobDetails .. => .error (.rejected ⟨404, "job not found", none⟩)
  | .jobsSummary .. => .ok plainListing
  | .ask route _ body =>
    match route with
    | .catalog _ => .ok (.catalog (plainCatalog body))
    | .scoring _ => .ok (.scoring plainScoring)

/-- A scripted answer of a partner. -/
def partnerAnswer (route : Route) (reply value : Json) : PartnerAnswer :=
  let status := UInt16.ofNat (natOf 200 (reply.member? "status_code"))
  let asScoring : Bool := match (reply.member? "as").bind Json.str? with
    | some kind => kind = "scoring"
    | none => route.service = .scoring
  if asScoring then .scoring { decoded ScoringAnswer default value with status }
  else .catalog { decoded CatalogAnswer default value with status }

/-- The outcome of a call under a reply. -/
def Stage.outcome (s : Stage) (r : Reply) (c : Call) : c.Outcome :=
  match r with
  | .fail e => .error e
  | .crash => s.plain c
  | .plain => s.plain c
  | .succeed reply v =>
    match c with
    | .subscription .. => .ok (decoded Subscription default v)
    | .quota _ => .ok (Int64.ofInt ((v.int?).getD 0))
    | .grades _ => .ok (decoded (List Grade) [] v)
    | .createJob r => .ok (decoded JobRef ⟨0, r.member, r.company⟩ v)
    | .updateJob .. => .ok ()
    | .processedCount _ => .ok (wordOf v)
    | .writeLog _ => .ok ()
    | .confirmLog _ => .ok ()
    | .listJobs .. => .ok (decoded (CoreAnswer (List Job)) plainListing v)
    | .jobDetails .. => .ok (decoded (CoreAnswer (List JobDetail)) plainListing v)
    | .jobsSummary .. => .ok (decoded (CoreAnswer (List JobDetail)) plainListing v)
    | .ask route _ _ => .ok (partnerAnswer route reply v)

/-- The stage after a call has been answered. -/
def Stage.absorb (s : Stage) (r : Reply) (c : Call) : Stage :=
  match r, c with
  | .plain, .createJob _ => { s with jobs := s.jobs + 1 }
  | .fail _, _ => s
  | .crash, _ => s
  | _, .writeLog e => if e.success then { s with logged := e.jobId :: s.logged } else s
  | _, .confirmLog _ => { s with confirmed := s.confirmed + 1 }
  | _, _ => s

end Vetting.Rehearsal

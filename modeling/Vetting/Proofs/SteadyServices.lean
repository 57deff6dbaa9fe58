import Vetting.Desk.Single
import Vetting.Proofs.TaskReplies

/-! # Services that go by what they were asked

What services reply may hang on all that they were asked so far, but not on the ids and the times
that the desk itself put into its calls: these are never the same twice. Tasks are alike if they
make the same calls but for such ids and times as long as they are replied to alike, whatever
numbers and times they are given. What alike tasks do under the same services comes to the same
calls. -/

namespace Vetting

def JobUpdate.forget (u : JobUpdate) : JobUpdate := { u with endAt := u.endAt.map fun _ => default }

def LogEntry.forget (e : LogEntry) : LogEntry :=
  { e with transactionId := "", requestTime := default, responseTime := default }

/-- The call without the ids and the times of the desk's own. -/
def Call.forget : Call → Call
  | .updateJob job u => .updateJob job u.forget
  | .writeLog e => .writeLog e.forget
  | c => c

/-- Calls that differ only in what is forgotten of them. -/
theorem Call.forget_eq {c c' : Call} (h : c.forget = c'.forget) : c = c' ∨
    (∃ e e', c = .writeLog e ∧ c' = .writeLog e') ∨
    ∃ job u u', c = .updateJob job u ∧ c' = .updateJob job u' ∧
      u.endAt.isSome = u'.endAt.isSome := by
  cases c with
  | updateJob job u =>
    cases c' with
    | updateJob job' u' =>
      obtain ⟨rfl, hu⟩ := Call.updateJob.inj h
      have hend : u.forget.endAt.isSome = u'.forget.endAt.isSome := by rw [hu]
      exact .inr (.inr ⟨job, u, u', rfl, rfl, by simpa [JobUpdate.forget] using hend⟩)
    | _ => cases h
  | writeLog e =>
    cases c' with
    | writeLog e' => exact .inr (.inl ⟨e, e', rfl, rfl⟩)
    | _ => cases h
  | _ => cases c' <;> first | exact .inl h | cases h

/-- How calls are replied to, by all that was called so far. -/
structure Services where
  reply : List Call → Replies
  steady : ∀ {past past' : List Call} {c c' : Call}, past.map Call.forget = past'.map Call.forget →
    c.forget = c'.forget → HEq (reply past c) (reply past' c')

/-- After the calls `past`, the acts are served: every reply is the services' own, and nothing
crashes. -/
def Services.Serve (S : Services) : List Call → List Act → Prop
  | _, [] => True
  | past, .called c :: A => S.Serve (past ++ [c]) A
  | past, .answered c o :: A => o = S.reply past c ∧ S.Serve past A
  | _, .crashed _ :: _ => False
  | past, _ :: A => S.Serve past A

namespace Services

variable {S : Services} {past : List Call} {A B : List Act}

theorem serve_append :
    S.Serve past (A ++ B) ↔ S.Serve past A ∧ S.Serve (past ++ callsOf A) B := by
  induction A generalizing past with
  | nil => simp [Serve, callsOf]
  | cons a A ih => cases a <;> simp [Serve, ih, and_assoc, Act.call?]

theorem Serve.calm (h : S.Serve past A) : ∀ a ∈ A, a.isCrash = false := by
  induction A generalizing past with
  | nil => simp
  | cons a A ih =>
    intro x hx
    cases a with
    | crashed => exact h.elim
    | answered c o =>
      rcases List.mem_cons.mp hx with rfl | hx
      · rfl
      · exact ih h.2 x hx
    | called | drew | read | tripped | looked | counted =>
      rcases List.mem_cons.mp hx with rfl | hx
      · rfl
      · exact ih h x hx

end Services

variable {α β γ δ : Type}

/-- The two tasks make the same calls but for the ids and the times of the desk's own, and end with
results in `Q`, as long as they are replied to alike and find the latch alike. -/
inductive Task.Alike (Q : α → β → Prop) : Task α → Task β → Prop where
  | done {a b} : Q a b → Alike Q (.done a) (.done b)
  | call {c c' next next'} : c.forget = c'.forget →
      (∀ o o', HEq o o' → Alike Q (next o) (next' o')) → Alike Q (.call c next) (.call c' next')
  | fresh {next next'} :
      (∀ n n', Alike Q (next n) (next' n')) → Alike Q (.fresh next) (.fresh next')
  | clock {next next'} :
      (∀ i i', Alike Q (next i) (next' i')) → Alike Q (.clock next) (.clock next')
  | trip {next next'} : (∀ b, Alike Q (next b) (next' b)) → Alike Q (.trip next) (.trip next')
  | latched {next next'} : (∀ b, Alike Q (next b) (next' b)) →
      Alike Q (.latched next) (.latched next')
  /-- What is counted is nobody else's business. -/
  | countLeft {m t t'} : Alike Q t t' → Alike Q (.count m t) t'
  | countRight {m t t'} : Alike Q t t' → Alike Q t (.count m t')

namespace Task.Alike

variable {Q : α → β → Prop} {t : Task α} {t' : Task β}

theorem ask {c : Call} {next : c.Outcome → Task α} {next' : c.Outcome → Task β}
    (h : ∀ o, Alike Q (next o) (next' o)) : Alike Q (.call c next) (.call c next') :=
  .call rfl fun o _ ho => by
    cases ho
    exact h o

theorem bind {R : γ → δ → Prop} {f : α → Task γ} {f' : β → Task δ} (h : Alike Q t t')
    (hf : ∀ a b, Q a b → Alike R (f a) (f' b)) : Alike R (t.bind f) (t'.bind f') := by
  induction h with
  | done hab => exact hf _ _ hab
  | call hc _ ih => exact .call hc ih
  | fresh _ ih => exact .fresh ih
  | clock _ ih => exact .clock ih
  | trip _ ih => exact .trip ih
  | latched _ ih => exact .latched ih
  | countLeft _ ih => exact .countLeft ih
  | countRight _ ih => exact .countRight ih

theorem require {R : Except Refusal γ → Except Refusal δ → Prop} {t : Task (Except Refusal α)}
    {f : α → Task (Except Refusal γ)} {f' : α → Task (Except Refusal δ)} (h : Alike Eq t t)
    (herror : ∀ r, R (.error r) (.error r)) (hf : ∀ a, Alike R (f a) (f' a)) :
    Alike R (t.require f) (t.require f') := by
  refine h.bind ?_
  rintro x _ rfl
  cases x with
  | error r => exact .done (herror r)
  | ok a => exact hf a

/-- **Alike tasks make the same calls under the same services**: what one of them has called is the
beginning of what the other one has called at its end, and all of it at its own end. -/
theorem calls_prefix {S : Services} {past past' : List Call} {A B : List Act} {s : Strand α} {b : β}
    {latch : Bool} (h : Alike Q t t') (hpast : past.map Call.forget = past'.map Call.forget)
    (hA : Course t A s) (hB : Course t' B (.ended b)) (hSA : S.Serve past A)
    (hSB : S.Serve past' B) (hlA : Agrees latch A) (hlB : Agrees latch B) :
    (callsOf A).map Call.forget <+: (callsOf B).map Call.forget ∧
      ∀ a, s = .ended a → Q a b ∧ (callsOf A).map Call.forget = (callsOf B).map Call.forget := by
  induction h generalizing past past' A B latch with
  | done hab =>
    obtain ⟨rfl, hs⟩ := hA.of_done
    obtain ⟨rfl, hb⟩ := hB.of_done
    cases hb.eq_of_ended
    refine ⟨List.nil_prefix, ?_⟩
    rintro a rfl
    cases hs.eq_of_ended
    exact ⟨hab, rfl⟩
  | @call c c' next next' hc _ ih =>
    cases hB with | call o' hB =>
    have hpast' : (past ++ [c]).map Call.forget = (past' ++ [c']).map Call.forget := by
      simp [hpast, hc]
    cases hA with
    | rest => exact ⟨List.nil_prefix, fun _ h => by cases h⟩
    | waiting => exact ⟨List.cons_prefix_cons.mpr ⟨hc, List.nil_prefix⟩, fun _ h => by cases h⟩
    | crashed => exact ⟨List.cons_prefix_cons.mpr ⟨hc, List.nil_prefix⟩, fun _ h => by cases h⟩
    | call o hA =>
      have ho : HEq o o' := by
        rw [hSA.1, hSB.1]
        exact S.steady hpast' hc
      simpa [Act.call?, hc] using ih o o' ho hpast' hA hB hSA.2 hSB.2 hlA hlB
  | fresh _ ih =>
    cases hB with | fresh n' hB =>
    cases hA with
    | rest => exact ⟨List.nil_prefix, fun _ h => by cases h⟩
    | fresh n hA => simpa [Act.call?] using ih n n' hpast hA hB hSA hSB hlA hlB
  | clock _ ih =>
    cases hB with | clock i' hB =>
    cases hA with
    | rest => exact ⟨List.nil_prefix, fun _ h => by cases h⟩
    | clock i hA => simpa [Act.call?] using ih i i' hpast hA hB hSA hSB hlA hlB
  | trip _ ih =>
    cases hB with | trip before' hB =>
    cases hA with
    | rest => exact ⟨List.nil_prefix, fun _ h => by cases h⟩
    | trip before hA =>
      obtain ⟨rfl, hlA⟩ := hlA
      obtain ⟨rfl, hlB⟩ := hlB
      simpa [Act.call?] using ih _ hpast hA hB hSA hSB hlA hlB
  | latched _ ih =>
    cases hB with | latched before' hB =>
    cases hA with
    | rest => exact ⟨List.nil_prefix, fun _ h => by cases h⟩
    | latched before hA =>
      obtain ⟨rfl, hlA⟩ := hlA
      obtain ⟨rfl, hlB⟩ := hlB
      simpa [Act.call?] using ih _ hpast hA hB hSA hSB hlA hlB
  | countLeft _ ih =>
    cases hA with
    | rest => exact ⟨List.nil_prefix, fun _ h => by cases h⟩
    | count hA => simpa [Act.call?] using ih hpast hA hB hSA hSB hlA hlB
  | countRight _ ih =>
    cases hB with | count hB =>
    simpa [Act.call?] using ih hpast hA hB hSA hSB hlA hlB

end Task.Alike

/-- Every task has a course to its end that is served and finds the latch as it left it. -/
theorem Task.exists_served (S : Services) (t : Task α) (past : List Call) (latch : Bool) :
    ∃ A a, Course t A (.ended a) ∧ S.Serve past A ∧ Agrees latch A := by
  induction t generalizing past latch with
  | done a => exact ⟨[], a, .ended a, trivial, trivial⟩
  | call c next ih =>
    obtain ⟨A, a, hA, hS, hl⟩ := ih (S.reply (past ++ [c]) c) (past ++ [c]) latch
    exact ⟨_, a, .call _ hA, ⟨rfl, hS⟩, hl⟩
  | fresh next ih =>
    obtain ⟨A, a, hA, hS, hl⟩ := ih 0 past latch
    exact ⟨_, a, .fresh 0 hA, hS, hl⟩
  | clock next ih =>
    obtain ⟨A, a, hA, hS, hl⟩ := ih default past latch
    exact ⟨_, a, .clock default hA, hS, hl⟩
  | trip next ih =>
    obtain ⟨A, a, hA, hS, hl⟩ := ih latch past true
    exact ⟨_, a, .trip latch hA, hS, rfl, hl⟩
  | latched next ih =>
    obtain ⟨A, a, hA, hS, hl⟩ := ih latch past latch
    exact ⟨_, a, .latched latch hA, hS, rfl, hl⟩
  | count m next ih =>
    obtain ⟨A, a, hA, hS, hl⟩ := ih past latch
    exact ⟨_, a, .count hA, hS, hl⟩

/-! ## The tasks of the desk -/

namespace Admission

theorem subscription_alike (i : Identity) (p : Product) :
    (subscription i p).Alike Eq (subscription i p) := .ask fun _ => .done rfl

theorem grading_alike (i : Identity) (p : Product) :
    (grading i p).Alike Eq (grading i p) := by
  unfold grading
  split
  · refine .ask fun o => ?_
    cases o <;> exact .done rfl
  · exact .done rfl

theorem createJob_alike (i : Identity) (s : Subscription) (total : UInt64) :
    (createJob i s total).Alike Eq (createJob i s total) := .ask fun _ => .done rfl

end Admission

namespace Tracking

theorem start_alike (job : UInt64) : (start job).Alike Eq (start job) := .ask fun _ => .done rfl

theorem fail_alike (job : UInt64) : (fail job).Alike Eq (fail job) := by
  refine .trip fun before => ?_
  cases before
  · exact .ask fun _ => .done rfl
  · exact .done rfl

theorem attempt_alike (job total : UInt64) :
    (attempt job total).Alike (fun _ _ => True) (attempt job total) := by
  refine .ask fun o => ?_
  cases o with
  | error e => exact .done trivial
  | ok n =>
    refine .latched fun latch => .clock fun time time' => .call rfl fun o o' ho => ?_
    cases ho
    cases o with
    | error e => exact .done trivial
    | ok u => exact .countLeft (.countRight (.done trivial))

end Tracking

section Handling

variable (b : Brief) (s : Submission)

theorem Logbook.entry_alike (r : Remark) (time time' : Instant) :
    (entry b s r time).Alike (fun e e' => e.forget = e'.forget) (entry b s r time') :=
  .fresh fun _ _ => .clock fun _ _ => .clock fun _ _ => .done rfl

namespace Row

theorem log_alike (r : Logbook.Remark) (time time' : Instant) (k : String → Outcome) :
    (log b s r time k).Alike (fun _ _ => True) (log b s r time' k) := by
  refine (Logbook.entry_alike b s r time time').bind fun e e' he => ?_
  exact .call (congrArg Call.writeLog he) fun _ _ _ => .done trivial

theorem recordSuccess_alike (a : PartnerAnswer) (time time' : Instant) :
    (recordSuccess b s a time).Alike (fun _ _ => True) (recordSuccess b s a time') := by
  simp only [recordSuccess]
  split
  · exact .ask fun _ => .done trivial
  · exact log_alike b s _ time time' _

theorem handle_alike : (handle b s).Alike (fun _ _ => True) (handle b s) := by
  unfold handle
  split
  · exact .clock fun time time' => log_alike b s _ time time' _
  · refine .clock fun time time' => .ask fun o => ?_
    cases o with
    | ok a => exact recordSuccess_alike b s a time time'
    | error e => exact (Tracking.fail_alike b.job).bind fun _ _ _ => log_alike b s _ time time' _

end Row

/-- **The run of a single submission is like itself**, whatever numbers and times it is given. -/
theorem Single.run_alike : (run b s).Alike (fun _ _ => True) (run b s) :=
  (Tracking.start_alike b.job).bind fun _ _ _ => (Row.handle_alike b s).bind fun _ _ _ =>
    (Tracking.attempt_alike b.job b.total).bind fun _ _ _ => .done trivial

end Handling

end Vetting

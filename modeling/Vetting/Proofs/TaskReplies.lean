import Vetting.Proofs.TaskCalls

/-! # Tasks under given replies

A task that draws no number and looks at neither the clock nor the latch is a program of the
replies: they alone determine its calls and its end. `Task.Yields` says what they are, and every
course of the task that follows the replies makes these calls and comes to this end. -/

namespace Vetting

/-- How calls are replied to. -/
abbrev Replies := (c : Call) → c.Outcome

/-- The replies among acts are those of `core`. -/
def Follows (core : Replies) (A : List Act) : Prop :=
  ∀ (c : Call) (o : c.Outcome), .answered c o ∈ A → o = core c

variable {α β : Type} {core : Replies}

/-- Under the replies `core` the task makes the calls `cs` and ends with `a`, and nothing else that
it meets matters. -/
inductive Task.Yields (core : Replies) : Task α → List Call → α → Prop where
  | done (a : α) : Yields core (.done a) [] a
  | call {c : Call} {next : c.Outcome → Task α} {cs : List Call} {a : α} :
      Yields core (next (core c)) cs a → Yields core (.call c next) (c :: cs) a
  | count {m : Metric} {next : Task α} {cs : List Call} {a : α} :
      Yields core next cs a → Yields core (.count m next) cs a

namespace Task.Yields

variable {t : Task α} {cs : List Call} {a b : α}

theorem bind {f : α → Task β} {cs' : List Call} {b : β} (h : t.Yields core cs a)
    (hf : (f a).Yields core cs' b) : (t.bind f).Yields core (cs ++ cs') b := by
  induction h with
  | done => exact hf
  | call _ ih => exact .call (ih hf)
  | count _ ih => exact .count (ih hf)

theorem require_ok {t : Task (Except Refusal α)} {f : α → Task (Except Refusal β)}
    {cs' : List Call} {x : Except Refusal β} (h : t.Yields core cs (.ok a))
    (hf : (f a).Yields core cs' x) : (t.require f).Yields core (cs ++ cs') x := h.bind hf

theorem require_error {t : Task (Except Refusal α)} {f : α → Task (Except Refusal β)} {r : Refusal}
    (h : t.Yields core cs (.error r)) : (t.require f).Yields core cs (.error r) := by
  have hend : (t.require f).Yields core (cs ++ []) (.error r) := h.bind (.done (Except.error r))
  rwa [List.append_nil] at hend

/-- The calls are of those that the task may make. -/
theorem asks {P : Call → Prop} (h : t.Yields core cs a) (ht : t.Asks P) : ∀ c ∈ cs, P c := by
  induction h with
  | done => simp
  | call _ ih =>
    intro c hc
    rcases List.mem_cons.mp hc with rfl | hc
    · exact ht.1
    · exact ih (ht.2 _) c hc
  | count _ ih => exact ih ht

/-- **A course that follows the replies makes those calls**: as many of them as it has come to, and
if it has ended, all of them, with that end. -/
theorem course {A : List Act} {s : Strand α} (h : t.Yields core cs b) (hc : Course t A s)
    (hA : Follows core A) : callsOf A <+: cs ∧ ∀ a, s = .ended a → a = b ∧ callsOf A = cs := by
  induction h generalizing A with
  | done b =>
    obtain ⟨rfl, hs⟩ := hc.of_done
    refine ⟨List.nil_prefix, ?_⟩
    rintro a rfl
    exact ⟨hs.eq_of_ended, rfl⟩
  | @call c next cs b h ih =>
    cases hc with
    | rest => exact ⟨List.nil_prefix, nofun⟩
    | waiting => exact ⟨⟨cs, rfl⟩, nofun⟩
    | crashed => exact ⟨⟨cs, rfl⟩, nofun⟩
    | call o hc =>
      cases hA c o (by simp)
      obtain ⟨hpre, hend⟩ := ih hc fun c' o' hmem => hA c' o' (by simp [hmem])
      have hcalls {B : List Act} : callsOf (.called c :: .answered c (core c) :: B) =
          c :: callsOf B := rfl
      rw [hcalls]
      refine ⟨List.cons_prefix_cons.mpr ⟨rfl, hpre⟩, ?_⟩
      intro a hs
      obtain ⟨rfl, heq⟩ := hend a hs
      exact ⟨rfl, by rw [heq]⟩
  | count h ih =>
    cases hc with
    | rest => exact ⟨List.nil_prefix, nofun⟩
    | count hc =>
      have hcourse := ih hc fun c' o' hmem => hA c' o' (List.mem_cons_of_mem _ hmem)
      simpa [Act.call?] using hcourse

end Task.Yields

/-- Under the replies `core` the task comes to `a`. -/
def Task.ComesTo (core : Replies) (t : Task α) (a : α) : Prop := ∃ cs, t.Yields core cs a

namespace Task.ComesTo

theorem done (a : α) : (Task.done a).ComesTo core a := ⟨[], .done a⟩

theorem call {c : Call} {next : c.Outcome → Task α} {o : c.Outcome} {a : α} (hc : core c = o)
    (h : (next o).ComesTo core a) : (Task.call c next).ComesTo core a := by
  subst hc
  obtain ⟨cs, h⟩ := h
  exact ⟨c :: cs, .call h⟩

theorem require_ok {t : Task (Except Refusal α)} {f : α → Task (Except Refusal β)} {a : α}
    {x : Except Refusal β} (h : t.ComesTo core (.ok a)) (hf : (f a).ComesTo core x) :
    (t.require f).ComesTo core x := by
  obtain ⟨cs, h⟩ := h
  obtain ⟨cs', hf⟩ := hf
  exact ⟨cs ++ cs', h.require_ok hf⟩

theorem require_error {t : Task (Except Refusal α)} {f : α → Task (Except Refusal β)} {r : Refusal}
    (h : t.ComesTo core (.error r)) : (t.require f).ComesTo core (.error r) := by
  obtain ⟨cs, h⟩ := h
  exact ⟨cs, h.require_error⟩

end Task.ComesTo

theorem Task.require_assoc {γ : Type} (t : Task (Except Refusal α))
    (f : α → Task (Except Refusal β)) (g : β → Task (Except Refusal γ)) :
    (t.require f).require g = t.require fun a => (f a).require g := by
  unfold Task.require
  rw [bind_assoc]
  congr 1
  funext x
  cases x <;> rfl

theorem Task.Asks.bind {P : Call → Prop} {t : Task α} {f : α → Task β} (h : t.Asks P)
    (hf : ∀ a, (f a).Asks P) : (t.bind f).Asks P := by
  induction t with
  | done a => exact hf a
  | call c next ih => exact ⟨h.1, fun o => ih o (h.2 o)⟩
  | fresh next ih => exact fun n => ih n (h n)
  | clock next ih => exact fun i => ih i (h i)
  | trip next ih => exact fun b => ih b (h b)
  | latched next ih => exact fun b => ih b (h b)
  | count m next ih => exact ih h

theorem Task.Asks.mono {P Q : Call → Prop} {t : Task α} (h : t.Asks P) (hPQ : ∀ c, P c → Q c) :
    t.Asks Q := by
  induction t with
  | done a => trivial
  | call c next ih => exact ⟨hPQ c h.1, fun o => ih o (h.2 o)⟩
  | fresh next ih => exact fun n => ih n (h n)
  | clock next ih => exact fun i => ih i (h i)
  | trip next ih => exact fun b => ih b (h b)
  | latched next ih => exact fun b => ih b (h b)
  | count m next ih => exact ih h

theorem Task.Asks.require {P : Call → Prop} {t : Task (Except Refusal α)}
    {f : α → Task (Except Refusal β)} (h : t.Asks P) (hf : ∀ a, (f a).Asks P) :
    (t.require f).Asks P := by
  refine h.bind fun x => ?_
  cases x with
  | error r => trivial
  | ok a => exact hf a

end Vetting

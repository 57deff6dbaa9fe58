import Vetting.Proofs.DispatchAccount
import Vetting.Proofs.ErrandCourse
import Vetting.Proofs.RunTotals
import Vetting.Proofs.TaskReplies
import Vetting.Proofs.TransactionIds
import Vetting.Proofs.UploadChecks
import Vetting.Desk.Single

/-! # Numbers drawn and numbers written

A strand that writes an entry of the log has drawn a sequence number for it before, and spends it on
this entry alone. `Task.Enters C held` says so of a task: whatever it meets, the ids it writes carry
numbers that it holds or draws, each of them once, and tell a time in `C` if its clock shows only
such times. In a course of the task the numbers written are then a sublist of the numbers drawn. -/

namespace Vetting

/-- The transaction id that a call writes to the log. -/
def Call.enters? : Call → Option String
  | .writeLog e => some e.transactionId
  | _ => none

/-- The numbers drawn. -/
def drawn (A : List Act) : List Nat :=
  A.filterMap fun
    | .drew n => some n.toNat
    | _ => none

/-- The transaction ids written to the log. -/
def entered (A : List Act) : List String := A.filterMap fun a => a.call?.bind Call.enters?

@[simp] theorem drawn_nil : drawn [] = [] := rfl

@[simp] theorem drawn_append (A B : List Act) : drawn (A ++ B) = drawn A ++ drawn B :=
  List.filterMap_append

@[simp] theorem entered_nil : entered [] = [] := rfl

@[simp] theorem entered_append (A B : List Act) : entered (A ++ B) = entered A ++ entered B :=
  List.filterMap_append

theorem entered_called (c : Call) (A : List Act) :
    entered (.called c :: A) = c.enters?.toList ++ entered A := by
  cases h : c.enters? <;> simp [entered, Act.call?, h]

/-- The id is that of a product, with a time in `C`. -/
def Logbook.IsId (C : Instant → Prop) (id : String) : Prop :=
  ∃ (p : Product) (now : Instant) (n : UInt64), C now ∧ id = transactionId p.letters now n

open Logbook (IsId numberOf)

variable {α β : Type} {C : Instant → Prop}

/-- The task writes ids of times in `C` to the log, with numbers of `held` and such as it draws,
each of them once. -/
def Task.Enters (C : Instant → Prop) : Task α → List Nat → Prop
  | .done _, _ => True
  | .call c next, held => (∀ id, c.enters? = some id → IsId C id) ∧
      ∃ left, ((c.enters?.map numberOf).toList ++ left).Sublist held ∧ ∀ o, (next o).Enters C left
  | .fresh next, held => ∀ n, (next n).Enters C (held ++ [n.toNat])
  | .clock next, held => ∀ i, C i → (next i).Enters C held
  | .trip next, held => ∀ b, (next b).Enters C held
  | .latched next, held => ∀ b, (next b).Enters C held
  | .count _ next, held => next.Enters C held

namespace Task.Enters

variable {t : Task α} {held : List Nat}

theorem bind {f : α → Task β} (h : t.Enters C held) (hf : ∀ a left, (f a).Enters C left) :
    (t.bind f).Enters C held := by
  induction t generalizing held with
  | done a => exact hf a held
  | call c next ih =>
    obtain ⟨hid, left, hsub, hnext⟩ := h
    exact ⟨hid, left, hsub, fun o => ih o (hnext o)⟩
  | fresh next ih => exact fun n => ih n (h n)
  | clock next ih => exact fun i hi => ih i (h i hi)
  | trip next ih => exact fun b => ih b (h b)
  | latched next ih => exact fun b => ih b (h b)
  | count m next ih => exact ih h

theorem require {t : Task (Except Refusal α)} {f : α → Task (Except Refusal β)}
    (h : t.Enters C held) (hf : ∀ a left, (f a).Enters C left) : (t.require f).Enters C held := by
  refine h.bind fun x left => ?_
  cases x with
  | error r => trivial
  | ok a => exact hf a left

/-- A call that writes no entry spends no number. -/
theorem call {c : Call} {next : c.Outcome → Task α} (hc : c.enters? = none)
    (hnext : ∀ o, (next o).Enters C held) : (Task.call c next).Enters C held := by
  refine ⟨fun id hid => ?_, held, by simp [hc], hnext⟩
  rw [hc] at hid
  cases hid

/-- A task that makes no log call spends no number. -/
theorem of_asks (h : t.Asks (·.enters? = none)) (held : List Nat) : t.Enters C held := by
  induction t generalizing held with
  | done a => trivial
  | call c next ih => exact .call h.1 fun o => ih o (h.2 o) held
  | fresh next ih => exact fun n => ih n (h n) _
  | clock next ih => exact fun i _ => ih i (h i) held
  | trip next ih => exact fun b => ih b (h b) held
  | latched next ih => exact fun b => ih b (h b) held
  | count m next ih => exact ih h held

end Task.Enters

/-- **The numbers that a course writes are numbers that it held or drew**, each of them once and in
this order, and its ids tell times in `C` if its clock showed only such times. -/
theorem Course.spends {t : Task α} {A : List Act} {s : Strand α} {held : List Nat}
    (h : Course t A s) (ht : t.Enters C held) (hread : ∀ i, .read i ∈ A → C i) :
    ((entered A).map numberOf).Sublist (held ++ drawn A) ∧ ∀ id ∈ entered A, IsId C id := by
  -- what one call writes, and the acts after it
  have hcall {c : Call} {left held : List Nat} {A : List Act}
      (hid : ∀ id, c.enters? = some id → IsId C id)
      (hsub : ((c.enters?.map numberOf).toList ++ left).Sublist held)
      (hA : ((entered A).map numberOf).Sublist (left ++ drawn A) ∧ ∀ id ∈ entered A, IsId C id) :
      ((c.enters?.toList ++ entered A).map numberOf).Sublist (held ++ drawn A) ∧
        ∀ id ∈ c.enters?.toList ++ entered A, IsId C id := by
    have hmap : (c.enters?.map numberOf).toList = c.enters?.toList.map numberOf := by
      cases c.enters? <;> rfl
    rw [hmap] at hsub
    refine ⟨?_, ?_⟩
    · rw [List.map_append]
      refine (((List.Sublist.refl _).append hA.1).trans ?_)
      rw [← List.append_assoc]
      exact hsub.append (List.Sublist.refl _)
    · intro id hmem
      rcases List.mem_append.mp hmem with hmem | hmem
      · exact hid id (by simpa using hmem)
      · exact hA.2 id hmem
  have hnil (left : List Nat) : (List.map numberOf (entered [])).Sublist (left ++ drawn []) ∧
      ∀ id ∈ entered [], IsId C id := by simp
  induction h generalizing held with
  | rest | ended => exact hnil held
  | waiting c next =>
    obtain ⟨hid, left, hsub, _⟩ := ht
    rw [entered_called]
    exact hcall hid hsub (hnil left)
  | crashed c next =>
    obtain ⟨hid, left, hsub, _⟩ := ht
    rw [entered_called]
    exact hcall hid hsub (hnil left)
  | @call c next A s o _ ih =>
    obtain ⟨hid, left, hsub, hnext⟩ := ht
    rw [entered_called]
    exact hcall hid hsub (ih (hnext o) fun i hi => hread i (by simp [hi]))
  | @fresh next A s n _ ih =>
    have hrest := ih (ht n) fun i hi => hread i (by simp [hi])
    rwa [List.append_assoc] at hrest
  | clock i _ ih =>
    exact ih (ht i (hread i List.mem_cons_self)) fun j hj => hread j (by simp [hj])
  | trip b _ ih => exact ih (ht b) fun i hi => hread i (by simp [hi])
  | latched b _ ih => exact ih (ht b) fun i hi => hread i (by simp [hi])
  | count _ ih => exact ih ht fun i hi => hread i (by simp [hi])

/-! ## The tasks of the desk -/

namespace Logbook

/-- A request for an id writes nothing, and ends with an id whose number was drawn for it. -/
theorem course_nextId {letters : String} {A : List Act} {s : Strand String}
    (h : Course (nextId letters) A s) : entered A = [] ∧
      ∀ id, s = .ended id →
        ∃ n now, A = [.drew n, .read now] ∧ id = transactionId letters now n := by
  cases h with
  | rest => exact ⟨rfl, nofun⟩
  | fresh n h =>
    cases h with
    | rest => exact ⟨rfl, nofun⟩
    | clock now h =>
      obtain ⟨rfl, hend⟩ := h.of_done
      refine ⟨rfl, ?_⟩
      rintro id rfl
      exact ⟨n, now, rfl, hend.eq_of_ended⟩

end Logbook

namespace Tracking

theorem start_enters (job : UInt64) (held : List Nat) : (start job).Enters C held :=
  .call rfl fun _ => trivial

theorem fail_enters (job : UInt64) (held : List Nat) : (fail job).Enters C held := by
  intro before
  cases before with
  | true => trivial
  | false => exact .call rfl fun _ => trivial

theorem attempt_enters (job total : UInt64) (held : List Nat) :
    (attempt job total).Enters C held := by
  refine .call rfl fun o => ?_
  cases o with
  | error e => trivial
  | ok n =>
    refine fun _ _ _ => .call rfl fun o => ?_
    cases o <;> trivial

end Tracking

namespace Row

/-- An entry is written with the number that was drawn for it. -/
theorem log_enters (b : Brief) (s : Submission) (r : Logbook.Remark) (time : Instant)
    (k : String → Outcome) (held : List Nat) : (log b s r time k).Enters C held := by
  intro n now hnow _ _
  refine ⟨?_, [], ?_, fun _ => trivial⟩
  · rintro id hid
    cases hid
    exact ⟨b.product, now, n, hnow, rfl⟩
  · rw [show Call.enters? _ = some (Logbook.transactionId b.product.letters now n) from rfl]
    simp [Logbook.numberOf_transactionId]

theorem recordSuccess_enters (b : Brief) (s : Submission) (a : PartnerAnswer) (time : Instant)
    (held : List Nat) : (recordSuccess b s a time).Enters C held := by
  simp only [recordSuccess]
  split
  · exact .call rfl fun _ => trivial
  · exact log_enters b s _ time _ held

theorem handle_enters (b : Brief) (s : Submission) (held : List Nat) :
    (handle b s).Enters C held := by
  unfold handle
  split
  · exact fun time _ => log_enters b s _ time _ held
  · refine fun time _ => .call rfl fun o => ?_
    cases o with
    | ok a => exact recordSuccess_enters b s a time held
    | error e =>
      exact (Tracking.fail_enters b.job held).bind fun _ left => log_enters b s _ time _ left

end Row

theorem Bulk.Plan.prepare_enters (i : Identity) (p : Product) (pace : Bulk.Pace)
    (csv : Text.Bytes) (held : List Nat) : (Bulk.Plan.prepare i p pace csv).Enters C held := by
  refine .of_asks ((Bulk.Plan.prepare_asks i p pace csv).mono fun c hc => ?_) held
  cases c <;> first | rfl | cases hc

theorem Single.execute_enters (i : Identity) (p : Product) (body : Json) (held : List Nat) :
    (execute i p body).Enters C held := by
  have hrun (b : Brief) (s : Submission) (left : List Nat) : (run b s).Enters C left :=
    (Tracking.start_enters b.job left).bind fun _ left =>
      (Row.handle_enters b s left).bind fun _ left =>
        (Tracking.attempt_enters b.job b.total left).bind fun _ _ => trivial
  refine .require (.call rfl fun _ => trivial) fun sub left => ?_
  dsimp only
  split
  · trivial
  · refine .require (.of_asks (Bulk.grading_asks (·.enters? = none) rfl p) left) fun _ left => ?_
    exact .require (.call rfl fun _ => trivial) fun job left => hrun _ _ left

end Vetting

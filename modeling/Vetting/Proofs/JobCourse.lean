import Vetting.Desk.Tracking
import Vetting.Proofs.Course

/-! # What is done for a job as a whole

A job is opened by one write before its rows. It is closed after them: the count of processed
entries is read, the latch is looked at, and one more write carries the count and the status.
`Tracking.Closing` says how far the closing may have come, what others have seen of it by then, and
what it ends with. -/

namespace Vetting

/-- The strand ends with `a`, or has nothing left to do but to end so. -/
def Strand.Ends {α : Type} (a : α) (st : Strand α) : Prop :=
  st = .ready (.done a) ∨ st = .ended a

theorem Strand.Ends.eq_of_ended {α : Type} {a b : α} (h : (Strand.ended b).Ends a) : b = a := by
  rcases h with h | h
  · cases h
  · cases h; rfl

theorem Course.of_done {α : Type} {a : α} {A : List Act} {st : Strand α}
    (h : Course (.done a) A st) : A = [] ∧ st.Ends a := by
  cases h with
  | rest => exact ⟨rfl, .inl rfl⟩
  | ended => exact ⟨rfl, .inr rfl⟩

namespace Tracking

abbrev opening (job : UInt64) : Call := .updateJob job ⟨none, .inProgress, none⟩

def finalStatus (latch : Bool) : JobStatus := if latch then .failed else .done

/-- The write that closes a job of `total` rows, `n` of them counted as processed. -/
abbrev closing (job total n : UInt64) (latch : Bool) (time : Instant) : Call :=
  .updateJob job ⟨some (min n total), finalStatus latch, some time⟩

/-- How far the closing of a job may have come, and what others have seen of it by then. -/
inductive Closing (job total : UInt64) : List Act → Strand (Except ServiceError Final) → Prop where
  | unread {st} : st.isOver = false → Closing job total [] st
  | reading {st} : st.isOver = false → Closing job total [.called (.processedCount job)] st
  | readLost :
      Closing job total [.called (.processedCount job), .crashed (.processedCount job)] .crashed
  | unreadable {st} (e : ServiceError) : st.Ends (.error e) →
      Closing job total
        [.called (.processedCount job), .answered (.processedCount job) (.error e)] st
  | read {st} (n : UInt64) : st.isOver = false →
      Closing job total [.called (.processedCount job), .answered (.processedCount job) (.ok n)] st
  | looked {st} (n : UInt64) (latch : Bool) : st.isOver = false →
      Closing job total [.called (.processedCount job), .answered (.processedCount job) (.ok n),
        .looked latch] st
  | writing {st} (n : UInt64) (latch : Bool) (time : Instant) : st.isOver = false →
      Closing job total [.called (.processedCount job), .answered (.processedCount job) (.ok n),
        .looked latch, .called (closing job total n latch time)] st
  | writeLost (n : UInt64) (latch : Bool) (time : Instant) :
      Closing job total [.called (.processedCount job), .answered (.processedCount job) (.ok n),
        .looked latch, .called (closing job total n latch time),
        .crashed (closing job total n latch time)] .crashed
  | unwritten {st} (n : UInt64) (latch : Bool) (time : Instant) (e : ServiceError) :
      st.Ends (.error e) →
      Closing job total [.called (.processedCount job), .answered (.processedCount job) (.ok n),
        .looked latch, .called (closing job total n latch time),
        .answered (closing job total n latch time) (.error e)] st
  | written (n : UInt64) (latch : Bool) (time : Instant) :
      Closing job total [.called (.processedCount job), .answered (.processedCount job) (.ok n),
        .looked latch, .called (closing job total n latch time),
        .answered (closing job total n latch time) (.ok ())]
        (.ready (.count (.jobFinalized (finalStatus latch))
          (.done (.ok ⟨job, total, finalStatus latch, min n total, time⟩))))
  | closed {st} (n : UInt64) (latch : Bool) (time : Instant) :
      st.Ends (.ok ⟨job, total, finalStatus latch, min n total, time⟩) →
      Closing job total [.called (.processedCount job), .answered (.processedCount job) (.ok n),
        .looked latch, .called (closing job total n latch time),
        .answered (closing job total n latch time) (.ok ()),
        .counted (.jobFinalized (finalStatus latch))] st

/-- **What the closing of a job may have done** after any part of its course. -/
theorem closing_of_course {job total : UInt64} {A : List Act}
    {st : Strand (Except ServiceError Final)} (h : Course (attempt job total) A st) :
    Closing job total (visible A) st := by
  cases h with
  | rest => exact .unread rfl
  | waiting => exact .reading rfl
  | crashed => exact .readLost
  | call o h =>
    cases o with
    | error e =>
      obtain ⟨rfl, he⟩ := h.of_done
      exact .unreadable e he
    | ok n =>
      cases h with
      | rest => exact .read n rfl
      | latched latch h =>
        cases h with
        | rest => exact .looked n latch rfl
        | clock time h =>
          cases h with
          | rest => exact .looked n latch rfl
          | waiting => exact .writing n latch time rfl
          | crashed => exact .writeLost n latch time
          | call o h =>
            cases o with
            | error e =>
              obtain ⟨rfl, he⟩ := h.of_done
              exact .unwritten n latch time e he
            | ok u =>
              cases h with
              | rest => exact .written n latch time
              | count h =>
                obtain ⟨rfl, he⟩ := h.of_done
                exact .closed n latch time he

/-- **How the closing of a job ends**: with the failure of one of its two calls, or with the job as
it was written. -/
inductive Closed (job total : UInt64) : List Act → Except ServiceError Final → Prop where
  | unreadable (e : ServiceError) : Closed job total
      [.called (.processedCount job), .answered (.processedCount job) (.error e)] (.error e)
  | unwritten (n : UInt64) (latch : Bool) (time : Instant) (e : ServiceError) : Closed job total
      [.called (.processedCount job), .answered (.processedCount job) (.ok n), .looked latch,
        .called (closing job total n latch time),
        .answered (closing job total n latch time) (.error e)] (.error e)
  | written (n : UInt64) (latch : Bool) (time : Instant) : Closed job total
      [.called (.processedCount job), .answered (.processedCount job) (.ok n), .looked latch,
        .called (closing job total n latch time), .answered (closing job total n latch time) (.ok ()),
        .counted (.jobFinalized (finalStatus latch))]
      (.ok ⟨job, total, finalStatus latch, min n total, time⟩)

theorem Closing.of_ended {job total : UInt64} {V : List Act} {f : Except ServiceError Final}
    (h : Closing job total V (.ended f)) : Closed job total V f := by
  cases h with
  | unreadable e he => rw [he.eq_of_ended]; exact .unreadable e
  | unwritten n latch time e he => rw [he.eq_of_ended]; exact .unwritten n latch time e
  | closed n latch time he => rw [he.eq_of_ended]; exact .written n latch time
  | unread hn | reading hn | read _ hn | looked _ _ hn | writing _ _ _ hn => cases hn

theorem callsOf_start {job : UInt64} {A : List Act} {st : Strand (Except ServiceError Unit)}
    (h : Course (start job) A st) :
    (A = [] ∧ st.isOver = false) ∨ callsOf A = [opening job] := by
  cases h with
  | rest => exact .inl ⟨rfl, rfl⟩
  | waiting => exact .inr rfl
  | crashed => exact .inr rfl
  | call o h =>
    obtain ⟨rfl, _⟩ := h.of_done
    exact .inr rfl

theorem Closing.callsOf_eq {job total : UInt64} {V : List Act} {st : Strand (Except ServiceError Final)}
    (h : Closing job total V st) : callsOf V = [] ∨ callsOf V = [.processedCount job] ∨
      ∃ n latch time, callsOf V = [.processedCount job, closing job total n latch time] := by
  cases h with
  | unread => exact .inl rfl
  | reading => exact .inr (.inl rfl)
  | readLost => exact .inr (.inl rfl)
  | unreadable => exact .inr (.inl rfl)
  | read => exact .inr (.inl rfl)
  | looked => exact .inr (.inl rfl)
  | writing n latch time => exact .inr (.inr ⟨n, latch, time, rfl⟩)
  | writeLost n latch time => exact .inr (.inr ⟨n, latch, time, rfl⟩)
  | unwritten n latch time => exact .inr (.inr ⟨n, latch, time, rfl⟩)
  | written n latch time => exact .inr (.inr ⟨n, latch, time, rfl⟩)
  | closed n latch time => exact .inr (.inr ⟨n, latch, time, rfl⟩)

theorem callsOf_attempt {job total : UInt64} {A : List Act}
    {st : Strand (Except ServiceError Final)} (h : Course (attempt job total) A st) :
    callsOf A = [] ∨ callsOf A = [.processedCount job] ∨
      ∃ n latch time, callsOf A = [.processedCount job, closing job total n latch time] := by
  rw [← callsOf_visible]
  exact (closing_of_course h).callsOf_eq

/-- The write that closes a job comes after the count was read, and is the last call. -/
theorem Closing.split {job total : UInt64} {V V₁ V₂ : List Act}
    {st : Strand (Except ServiceError Final)} {j : UInt64} {u : JobUpdate}
    (h : Closing job total V st) (hV : V = V₁ ++ .called (.updateJob j u) :: V₂) :
    (∃ n, .answered (.processedCount job) (.ok n) ∈ V₁ ∧ u.successCount = some (min n total)) ∧
      callsOf V₂ = [] := by
  have late {n : UInt64} {latch : Bool} {time : Instant} {W : List Act} (hW : callsOf W = [])
      (hV : [.called (.processedCount job), .answered (.processedCount job) (.ok n), .looked latch] ++
        .called (closing job total n latch time) :: W = V₁ ++ .called (.updateJob j u) :: V₂) :
      (∃ n, .answered (.processedCount job) (.ok n) ∈ V₁ ∧ u.successCount = some (min n total)) ∧
        callsOf V₂ = [] := by
    obtain ⟨M, rfl, hM⟩ := exists_of_append_eq hV (by simp)
    cases M with
    | nil =>
      cases hM
      exact ⟨⟨n, by simp, rfl⟩, hW⟩
    | cons m M =>
      cases hM
      simp [Act.call?] at hW
  have hmem : Act.called (.updateJob j u) ∈ V := by rw [hV]; simp
  cases h with
  | unread | reading | readLost | unreadable | read | looked => simp at hmem
  | writing => exact late rfl hV
  | writeLost => exact late rfl hV
  | unwritten => exact late rfl hV
  | written => exact late rfl hV
  | closed => exact late rfl hV

end Tracking

end Vetting

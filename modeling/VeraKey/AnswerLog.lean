/-
The answers to one question: any number that are not final, at most one that is, and
nothing after it.
-/
import Mathlib

universe u

/-- What was answered, in order, where a final answer ends it. -/
structure AnswerLog (α : Type u) (final : α → Bool) where
  answered : Bool
  posted : List α
  answered_iff : answered = true ↔ ∃ answer ∈ posted, final answer = true
  before_last : ∀ answer ∈ posted.dropLast, final answer = false

namespace AnswerLog

variable {α : Type u} {final : α → Bool}

def empty : AnswerLog α final where
  answered := false
  posted := []
  answered_iff := by simp
  before_last := nofun

/-- An answer, which is dropped once a final one was posted. -/
def post (log : AnswerLog α final) (answer : α) : AnswerLog α final :=
  if hanswered : log.answered = true then log
  else
    have hnone : ∀ before ∈ log.posted, final before = false := by
      intro before hbefore
      by_contra hfinal
      exact hanswered (log.answered_iff.mpr ⟨before, hbefore, Bool.not_eq_false _ ▸ hfinal⟩)
    { answered := final answer
      posted := log.posted ++ [answer]
      answered_iff := by
        constructor
        · intro hfinal
          exact ⟨answer, List.mem_append_right _ (List.mem_singleton_self _), hfinal⟩
        · rintro ⟨before, hbefore, hfinal⟩
          rcases List.mem_append.mp hbefore with hbefore | hbefore
          · rw [hnone before hbefore] at hfinal
            contradiction
          · rwa [List.mem_singleton.mp hbefore] at hfinal
      before_last := by
        rw [List.dropLast_concat]
        exact hnone }

variable {log : AnswerLog α final} {answer : α}

theorem post_of_answered (hanswered : log.answered = true) : log.post answer = log :=
  dif_pos hanswered

theorem answered_post (hanswered : log.answered = false) :
    (log.post answer).answered = final answer := by
  rw [post, dif_neg (by simp [hanswered])]

theorem posted_post (hanswered : log.answered = false) :
    (log.post answer).posted = log.posted ++ [answer] := by
  rw [post, dif_neg (by simp [hanswered])]

/-- Every answer of the log after one more is an old one or this one. -/
theorem mem_post {other : α} (hother : other ∈ (log.post answer).posted) :
    other ∈ log.posted ∨ log.answered = false ∧ other = answer := by
  cases hanswered : log.answered with
  | true =>
      rw [post_of_answered hanswered] at hother
      exact .inl hother
  | false =>
      rw [posted_post hanswered] at hother
      rcases List.mem_append.mp hother with hbefore | hnew
      · exact .inl hbefore
      · exact .inr ⟨rfl, List.mem_singleton.mp hnew⟩

/-- Nothing comes after a final answer. -/
theorem eq_nil_of_final {before rest : List α} (hposted : log.posted = before ++ answer :: rest)
    (hfinal : final answer = true) : rest = [] := by
  cases rest with
  | nil => rfl
  | cons next rest =>
      have hlast : answer ∈ log.posted.dropLast := by
        rw [hposted, List.dropLast_append_cons, List.dropLast_cons₂]
        exact List.mem_append_right _ List.mem_cons_self
      rw [log.before_last answer hlast] at hfinal
      contradiction

/-- At most one answer is final. -/
theorem countP_final_le (log : AnswerLog α final) : log.posted.countP final ≤ 1 := by
  rcases List.eq_nil_or_concat log.posted with hnil | ⟨before, last, hposted⟩
  · rw [hnil]
    exact Nat.zero_le 1
  · have hbefore := log.before_last
    rw [List.concat_eq_append] at hposted
    rw [hposted, List.dropLast_concat] at hbefore
    rw [hposted, List.countP_append, List.countP_eq_zero.mpr (by simpa using hbefore), Nat.zero_add]
    exact List.countP_le_length

/-- Where every answer is final there is at most one. -/
theorem length_le_one (hfinal : ∀ answer, final answer = true) (log : AnswerLog α final) :
    log.posted.length ≤ 1 := by
  have hlast : log.posted.dropLast = [] := by
    rw [List.eq_nil_iff_forall_not_mem]
    intro answer hanswer
    have hnot := log.before_last answer hanswer
    rw [hfinal answer] at hnot
    contradiction
  have hlength := congrArg List.length hlast
  rw [List.length_dropLast, List.length_nil] at hlength
  exact Nat.sub_eq_zero_iff_le.mp hlength

theorem answered_eq_false_iff (hfinal : ∀ answer, final answer = true) :
    log.answered = false ↔ log.posted = [] := by
  rw [← Bool.not_eq_true, log.answered_iff, List.eq_nil_iff_forall_not_mem]
  constructor
  · intro hnone answer hanswer
    exact hnone ⟨answer, hanswer, hfinal answer⟩
  · rintro hnil ⟨answer, hanswer, -⟩
    exact hnil answer hanswer

end AnswerLog

/-
Every call has its turn, as long as microtasks run and jobs end, and its promise settles with
what its own job ended with.
-/
import VeraKey.LeadsTo
import VeraKey.MutexTurns

namespace VeraKey

namespace Relay

universe u v

namespace TurnStage

variable {α : Type u} {ε : Type v}

/-- The turn's job has begun and not ended. -/
def working : TurnStage α ε → Bool
  | body | returned | awaited => true
  | _ => false

def isFree : TurnStage α ε → Bool
  | free _ => true
  | _ => false

def isSettled : TurnStage α ε → Bool
  | settled _ => true
  | _ => false

def isFollowed : TurnStage α ε → Bool
  | followed _ => true
  | _ => false

def isReleased : TurnStage α ε → Bool
  | released _ => true
  | _ => false

variable {stage : TurnStage α ε}

theorem not_working_of_isFree (hstage : stage.isFree = true) : stage.working = false := by
  cases stage <;> first | rfl | contradiction

theorem not_working_of_isSettled (hstage : stage.isSettled = true) : stage.working = false := by
  cases stage <;> first | rfl | contradiction

theorem not_working_of_isFollowed (hstage : stage.isFollowed = true) :
    stage.working = false := by
  cases stage <;> first | rfl | contradiction

theorem not_working_of_isReleased (hstage : stage.isReleased = true) :
    stage.working = false := by
  cases stage <;> first | rfl | contradiction

end TurnStage

namespace Turns

variable {α : Type u} {ε : Type v} {turns : Turns α ε} {events : ℕ → MutexEvent α ε}
variable {event : MutexEvent α ε} {call n : ℕ} {outcome : Outcome α ε}

/-- One job after the other, each begun once, in the order of the calls. -/
theorem marks_serial (turns : Turns α ε) : ∃ outcomes, turns.marks = serial outcomes ∨
    turns.marks = serial outcomes ++ [.began outcomes.length] := by
  obtain ⟨calls, done, stage⟩ := turns
  cases stage with
  | free tail => exact ⟨done, .inl (List.append_nil _)⟩
  | released outcome => exact ⟨done, .inl (List.append_nil _)⟩
  | body => exact ⟨done, .inr rfl⟩
  | returned => exact ⟨done, .inr rfl⟩
  | awaited => exact ⟨done, .inr rfl⟩
  | settled outcome => exact ⟨done ++ [outcome], .inl (serial_append done outcome).symm⟩
  | followed outcome => exact ⟨done ++ [outcome], .inl (serial_append done outcome).symm⟩

theorem ended_mem_marks (hdone : turns.done[call]? = some outcome) :
    .ended call outcome ∈ turns.marks :=
  List.mem_append_left _ (mem_serial hdone)

theorem lt_of_ended (hended : .ended call outcome ∈ turns.marks) :
    call < turns.turn ∨ call = turns.turn ∧
      (turns.stage = .settled outcome ∨ turns.stage = .followed outcome) := by
  rcases List.mem_append.mp hended with hdone | hlast
  · obtain ⟨⟨outcome', call'⟩, hmem, hmark⟩ := List.mem_flatMap.mp hdone
    have hcall : call' = call := by simp_all
    obtain ⟨hlt, -⟩ := List.getElem?_eq_some_iff.mp (List.mem_zipIdx_iff_getElem?.mp hmem)
    exact .inl (hcall ▸ hlt)
  · obtain ⟨calls, done, stage⟩ := turns
    cases stage <;> simp_all

theorem calls_next (turns : Turns α ε) (event : MutexEvent α ε) :
    turns.calls ≤ (turns.next event).calls := by
  obtain ⟨calls, done, stage⟩ := turns
  cases event with
  | run => exact Nat.le_succ calls
  | tick =>
      cases stage with
      | free tail =>
          change calls ≤ (ite _ _ _ : Turns α ε).calls
          split <;> exact le_rfl
      | _ => exact le_rfl
  | returns => cases stage <;> exact le_rfl
  | throws error => cases stage <;> exact le_rfl
  | settles call outcome =>
      change calls ≤ (ite _ _ _ : Turns α ε).calls
      split
      · cases stage <;> exact le_rfl
      · exact le_rfl

theorem calls_mono (events : ℕ → MutexEvent α ε) :
    Monotone fun n => (after events n).calls :=
  monotone_nat_of_le_succ fun n => calls_next (after events n) (events n)

/-- The call has the turn, at a stage of that kind. -/
def Waits (turns : Turns α ε) (call : ℕ) (kind : TurnStage α ε → Bool) : Prop :=
  turns.turn = call ∧ call < turns.calls ∧ kind turns.stage = true

theorem next_of_not_working (hnot : turns.stage.working = false) (hevent : event ≠ .tick) :
    (turns.next event).turn = turns.turn ∧ (turns.next event).stage = turns.stage := by
  obtain ⟨calls, done, stage⟩ := turns
  cases event with
  | run => exact ⟨rfl, rfl⟩
  | tick => contradiction
  | returns => cases stage <;> first | exact ⟨rfl, rfl⟩ | contradiction
  | throws error => cases stage <;> first | exact ⟨rfl, rfl⟩ | contradiction
  | settles call outcome =>
      rw [next, settles]
      split
      · cases stage <;> first | exact ⟨rfl, rfl⟩ | contradiction
      · exact ⟨rfl, rfl⟩

/-- What only a microtask can end, one ends. -/
theorem waits_leadsTo (kind : TurnStage α ε → Bool) (q : Turns α ε → Prop)
    (hticks : Recurs fun n => events n = .tick)
    (hkind : ∀ stage, kind stage = true → stage.working = false)
    (htick : ∀ turns, Waits turns call kind → q turns.tick) :
    LeadsTo (fun n => Waits (after events n) call kind) fun n => q (after events n) := by
  apply LeadsTo.of_recurs hticks
  · rintro n ⟨hturn, hcalled, hstage⟩ hevent
    obtain ⟨hturn', hstage'⟩ := next_of_not_working (hkind _ hstage) hevent
    refine ⟨hturn'.trans hturn, ?_, ?_⟩
    · exact hcalled.trans_le (calls_next _ _)
    · change kind ((after events n).next (events n)).stage = true
      rw [hstage']
      exact hstage
  · intro n hwaits hevent
    change q ((after events n).next (events n))
    rw [hevent]
    exact htick _ hwaits

theorem tick_released (hwaits : Waits turns call TurnStage.isReleased) :
    Waits turns.tick call TurnStage.isFree := by
  obtain ⟨calls, done, stage⟩ := turns
  obtain ⟨hturn, hcalled, hstage⟩ := hwaits
  cases stage <;> first | exact ⟨hturn, hcalled, rfl⟩ | contradiction

theorem tick_free (hwaits : Waits turns call TurnStage.isFree) :
    Waits turns.tick call TurnStage.working := by
  obtain ⟨calls, done, stage⟩ := turns
  obtain ⟨rfl, hcalled, hstage⟩ := hwaits
  cases stage with
  | free tail =>
      have hbody : Turns.tick ⟨calls, done, .free tail⟩ = ⟨calls, done, .body⟩ := if_pos hcalled
      rw [hbody]
      exact ⟨rfl, hcalled, rfl⟩
  | _ => contradiction

theorem tick_settled (hwaits : Waits turns call TurnStage.isSettled) :
    Waits turns.tick call TurnStage.isFollowed := by
  obtain ⟨calls, done, stage⟩ := turns
  obtain ⟨hturn, hcalled, hstage⟩ := hwaits
  cases stage <;> first | exact ⟨hturn, hcalled, rfl⟩ | contradiction

theorem tick_followed (hwaits : Waits turns call TurnStage.isFollowed) :
    call < turns.tick.turn := by
  obtain ⟨calls, done, stage⟩ := turns
  obtain ⟨rfl, hcalled, hstage⟩ := hwaits
  cases stage with
  | followed outcome =>
      change done.length < (done ++ [outcome]).length
      rw [List.length_append]
      exact Nat.lt_succ_self done.length
  | _ => contradiction

theorem began_mem_marks (hwaits : Waits turns call TurnStage.working) :
    .began call ∈ turns.marks := by
  obtain ⟨calls, done, stage⟩ := turns
  obtain ⟨rfl, hcalled, hstage⟩ := hwaits
  cases stage <;> first | exact List.mem_append_right _ List.mem_cons_self | contradiction

/-- The stages follow one another until the turn is over. -/
theorem turn_ends (hticks : Recurs fun n => events n = .tick)
    (hjobs : ∀ call, LeadsTo (fun n => .began call ∈ (after events n).marks)
      fun n => ∃ outcome, .ended call outcome ∈ (after events n).marks) (call : ℕ) :
    LeadsTo (fun n => (after events n).turn = call ∧ call < (after events n).calls)
      fun n => call < (after events n).turn := by
  have hfollowed : LeadsTo (fun n => Waits (after events n) call TurnStage.isFollowed)
      fun n => call < (after events n).turn :=
    waits_leadsTo TurnStage.isFollowed (fun turns => call < turns.turn) hticks
      (fun _ => TurnStage.not_working_of_isFollowed) fun _ => tick_followed
  have hsettled : LeadsTo (fun n => Waits (after events n) call TurnStage.isSettled)
      fun n => call < (after events n).turn :=
    (waits_leadsTo TurnStage.isSettled (fun turns => Waits turns call TurnStage.isFollowed) hticks
      (fun _ => TurnStage.not_working_of_isSettled) fun _ => tick_settled).chain hfollowed
  have hworking : LeadsTo (fun n => Waits (after events n) call TurnStage.working)
      fun n => call < (after events n).turn := by
    intro n hwaits
    obtain ⟨m, hle, outcome, hended⟩ := hjobs call n (began_mem_marks hwaits)
    have hcalled := hwaits.2.1.trans_le (calls_mono events hle)
    rcases lt_of_ended hended with hlt | ⟨hturn, hstage | hstage⟩
    · exact ⟨m, hle, hlt⟩
    · obtain ⟨last, hlast, hlt⟩ := hsettled m ⟨hturn.symm, hcalled, by rw [hstage]; rfl⟩
      exact ⟨last, hle.trans hlast, hlt⟩
    · obtain ⟨last, hlast, hlt⟩ := hfollowed m ⟨hturn.symm, hcalled, by rw [hstage]; rfl⟩
      exact ⟨last, hle.trans hlast, hlt⟩
  have hfree : LeadsTo (fun n => Waits (after events n) call TurnStage.isFree)
      fun n => call < (after events n).turn :=
    (waits_leadsTo TurnStage.isFree (fun turns => Waits turns call TurnStage.working) hticks
      (fun _ => TurnStage.not_working_of_isFree) fun _ => tick_free).chain hworking
  have hreleased : LeadsTo (fun n => Waits (after events n) call TurnStage.isReleased)
      fun n => call < (after events n).turn :=
    (waits_leadsTo TurnStage.isReleased (fun turns => Waits turns call TurnStage.isFree) hticks
      (fun _ => TurnStage.not_working_of_isReleased) fun _ => tick_released).chain hfree
  rintro n ⟨hturn, hcalled⟩
  cases hstage : (after events n).stage with
  | free tail => exact hfree n ⟨hturn, hcalled, by rw [hstage]; rfl⟩
  | released outcome => exact hreleased n ⟨hturn, hcalled, by rw [hstage]; rfl⟩
  | settled outcome => exact hsettled n ⟨hturn, hcalled, by rw [hstage]; rfl⟩
  | followed outcome => exact hfollowed n ⟨hturn, hcalled, by rw [hstage]; rfl⟩
  | _ => exact hworking n ⟨hturn, hcalled, by rw [hstage]; rfl⟩

/-- Every call has its turn, after the ones before it. -/
theorem turn_comes (hticks : Recurs fun n => events n = .tick)
    (hjobs : ∀ call, LeadsTo (fun n => .began call ∈ (after events n).marks)
      fun n => ∃ outcome, .ended call outcome ∈ (after events n).marks) (call : ℕ) :
    LeadsTo (fun n => call < (after events n).calls)
      fun n => call < (after events n).turn := by
  have hends := turn_ends hticks hjobs
  have hfrom : ∀ call n, call < (after events n).calls → call ≤ (after events n).turn →
      ∃ m, n ≤ m ∧ call < (after events m).turn := by
    intro call n hcalled hreached
    rcases hreached.lt_or_eq with hlt | heq
    · exact ⟨n, le_rfl, hlt⟩
    · exact hends call n ⟨heq.symm, hcalled⟩
  intro n hcalled
  induction call generalizing n with
  | zero => exact hfrom 0 n hcalled (Nat.zero_le _)
  | succ call ih =>
      obtain ⟨m, hle, hreached⟩ := ih n (Nat.lt_of_succ_lt hcalled)
      obtain ⟨last, hlast, hlt⟩ :=
        hfrom (call + 1) m (hcalled.trans_le (calls_mono events hle)) hreached
      exact ⟨last, hle.trans hlast, hlt⟩

end Turns

namespace Mutex

variable {α : Type u} {ε : Type v} {events : ℕ → MutexEvent α ε}

/-- A promise that settled settled with what its own job ended with. -/
theorem ended_of_settled {n call : ℕ} {outcome : Outcome α ε}
    (hsettled : (after events n).promises.promise? (.result call) = some (.settled outcome)) :
    .ended call outcome ∈ (after events n).marks := by
  have hfollows := Follows.after events n
  rw [hfollows.results call, Turns.result?] at hsettled
  rw [hfollows.marks_eq]
  split at hsettled
  · next outcome' hdone =>
      obtain rfl : outcome' = outcome := by simpa using hsettled
      exact Turns.ended_mem_marks hdone
  · split at hsettled
    · simp at hsettled
    · contradiction

/-- Jobs run one after the other, each once, in the order of the calls; what a call returned
settles with what its own job ended with, and does settle, whatever the other jobs end with. -/
theorem jobs_take_turns (events : ℕ → MutexEvent α ε) :
    (∀ n, ∃ outcomes, (after events n).marks = serial outcomes ∨
      (after events n).marks = serial outcomes ++ [.began outcomes.length]) ∧
    (∀ n call outcome,
      (after events n).promises.promise? (.result call) = some (.settled outcome) →
      .ended call outcome ∈ (after events n).marks) ∧
    ((Recurs fun n => events n = .tick) →
      (∀ call, LeadsTo (fun n => .began call ∈ (after events n).marks)
        fun n => ∃ outcome, .ended call outcome ∈ (after events n).marks) →
      ∀ call, LeadsTo (fun n => call < (after events n).calls) fun n => ∃ outcome,
        .ended call outcome ∈ (after events n).marks ∧
        (after events n).promises.promise? (.result call) = some (.settled outcome)) := by
  have hmarks : ∀ n, (after events n).marks = (Turns.after events n).marks :=
    fun n => (Follows.after events n).marks_eq
  refine ⟨?_, fun _ _ _ => ended_of_settled, ?_⟩
  · intro n
    rw [hmarks]
    exact Turns.marks_serial _
  · intro hticks hjobs call n hcalled
    simp only [hmarks] at hjobs
    rw [(Follows.after events n).calls_eq] at hcalled
    obtain ⟨m, hle, hlt⟩ := Turns.turn_comes hticks hjobs call n hcalled
    have hdone := List.getElem?_eq_getElem (show call < (Turns.after events m).done.length from hlt)
    have hsettled := (Follows.after events m).results call
    rw [Follows.result?_of_done hdone] at hsettled
    exact ⟨m, hle, _, ended_of_settled hsettled, hsettled⟩

/-- What has been seen of a job stays seen. -/
theorem mem_marks_next {mutex : Mutex α ε} {mark : JobMark α ε} (hmark : mark ∈ mutex.marks)
    (event : MutexEvent α ε) : mark ∈ (mutex.next event).marks := by
  have hmore : ∀ marks : List (JobMark α ε), mark ∈ mutex.marks ++ marks :=
    fun marks => List.mem_append_left marks hmark
  cases event with
  | run => exact hmark
  | tick =>
      rw [next, tick]
      split
      · next microtask queue hrunning hqueue =>
          rcases microtask with ⟨⟨call⟩ | ⟨call⟩ | ⟨call⟩, outcome⟩ | ⟨call⟩
          · exact hmore _
          · exact hmark
          · exact hmark
          · exact hmark
      · exact hmark
  | returns =>
      rw [next, returns]
      split <;> exact hmark
  | throws error =>
      rw [next, throws]
      split
      · exact hmark
      · exact hmore _
  | settles call outcome =>
      rw [next, settles]
      split
      · exact hmore _
      · exact hmark

/-- Two calls: the first job throws, the second one's promise is fulfilled. -/
def firstThrows : ℕ → MutexEvent ℕ ℕ
  | 0 | 1 => .run
  | 3 => .throws 7
  | 6 => .returns
  | 7 => .settles 1 (.ok (some 5))
  | _ => .tick

theorem firstThrows_settled (n : ℕ) : (after firstThrows (n + 11)).marks =
    [.began 0, .ended 0 (.error 7), .began 1, .ended 1 (.ok (some 5))] := by
  have hlast : ∀ n, after firstThrows (n + 11) = after firstThrows 11 := by
    intro n
    induction n with
    | zero => rfl
    | succ n ih =>
        have htick : firstThrows (n + 11) = .tick := rfl
        have hempty : (after firstThrows 11).promises.queue = [] := rfl
        rw [Nat.succ_add, after_succ, ih, htick]
        exact tick_of_empty hempty
  rw [hlast]
  rfl

theorem second_job_settles : ∃ m outcome,
    .ended 1 outcome ∈ (after firstThrows m).marks ∧
    (after firstThrows m).promises.promise? (.result 1) = some (.settled outcome) := by
  have hticks : Recurs fun n => firstThrows n = .tick :=
    fun n => ⟨n + 8, Nat.le_add_right n 8, rfl⟩
  have hjobs : ∀ call, LeadsTo (fun n => .began call ∈ (after firstThrows n).marks)
      fun n => ∃ outcome, .ended call outcome ∈ (after firstThrows n).marks := by
    intro call n hbegan
    have hlater : .began call ∈ (after firstThrows (n + 11)).marks := by
      have hmono : ∀ wait, .began call ∈ (after firstThrows (n + wait)).marks := by
        intro wait
        induction wait with
        | zero => exact hbegan
        | succ wait ih => exact mem_marks_next ih _
      exact hmono 11
    rw [firstThrows_settled] at hlater
    have hcall : call = 0 ∨ call = 1 := by simpa using hlater
    rcases hcall with rfl | rfl
    · exact ⟨n + 11, Nat.le_add_right n 11, .error 7, by simp [firstThrows_settled]⟩
    · exact ⟨n + 11, Nat.le_add_right n 11, .ok (some 5), by simp [firstThrows_settled]⟩
  obtain ⟨m, -, outcome, hsettled⟩ :=
    (jobs_take_turns firstThrows).2.2 hticks hjobs 1 2 (by decide : 1 < 2)
  exact ⟨m, outcome, hsettled⟩

end Mutex

end Relay

end VeraKey

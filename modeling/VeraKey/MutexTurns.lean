/-
What the lock is for: jobs take turns in the order of the calls, whatever each one ends with.
The chain of promises follows the turns event by event.
-/
import VeraKey.Mutex

namespace VeraKey

namespace Relay

universe u v

/-- How far the turn is: `free` when the promise that the next call waits for has settled, then
from the job's code to the end of its promise, and `released` when its result has settled. -/
inductive TurnStage (α : Type u) (ε : Type v) where
  | free (tail : Outcome α ε)
  | body
  | returned
  | awaited
  | settled (outcome : Outcome α ε)
  | followed (outcome : Outcome α ε)
  | released (outcome : Outcome α ε)

/-- `done` is how the jobs of the earlier turns ended. -/
structure Turns (α : Type u) (ε : Type v) where
  calls : ℕ
  done : List (Outcome α ε)
  stage : TurnStage α ε

/-- The marks of jobs that never overlap: each ends before the next one begins. -/
def serial {α : Type u} {ε : Type v} (outcomes : List (Outcome α ε)) : List (JobMark α ε) :=
  outcomes.zipIdx.flatMap fun (outcome, call) => [.began call, .ended call outcome]

namespace Turns

variable {α : Type u} {ε : Type v}

def fresh : Turns α ε := ⟨0, [], .free (.ok none)⟩

def turn (turns : Turns α ε) : ℕ := turns.done.length

def run (turns : Turns α ε) : Turns α ε := { turns with calls := turns.calls + 1 }

def ends (turns : Turns α ε) (outcome : Outcome α ε) : Turns α ε :=
  { turns with done := turns.done ++ [outcome], stage := .released outcome }

def tick (turns : Turns α ε) : Turns α ε :=
  match turns.stage with
  | .free _ => if turns.turn < turns.calls then { turns with stage := .body } else turns
  | .body => turns
  | .returned => { turns with stage := .awaited }
  | .awaited => turns
  | .settled outcome => { turns with stage := .followed outcome }
  | .followed outcome => turns.ends outcome
  | .released outcome => { turns with stage := .free (Mutex.swallowed outcome) }

def returns (turns : Turns α ε) : Turns α ε :=
  match turns.stage with
  | .body => { turns with stage := .returned }
  | _ => turns

def throws (turns : Turns α ε) (error : ε) : Turns α ε :=
  match turns.stage with
  | .body => turns.ends (.error error)
  | _ => turns

def settles (turns : Turns α ε) (call : ℕ) (outcome : Outcome α ε) : Turns α ε :=
  if call = turns.turn then
    match turns.stage with
    | .returned => { turns with stage := .settled outcome }
    | .awaited => { turns with stage := .followed outcome }
    | _ => turns
  else turns

def next (turns : Turns α ε) : MutexEvent α ε → Turns α ε
  | .run => turns.run
  | .tick => turns.tick
  | .returns => turns.returns
  | .throws error => turns.throws error
  | .settles call outcome => turns.settles call outcome

def after (events : ℕ → MutexEvent α ε) : ℕ → Turns α ε
  | 0 => fresh
  | n + 1 => (after events n).next (events n)

/-! ## What the promises are in a turn -/

/-- The promise that a later call waits for, when there are `calls`. -/
def waiting (calls call : ℕ) : Option (Promise MutexReaction (Outcome α ε)) :=
  if call < calls then some (.pending [.job call])
  else if call = calls then some (.pending [])
  else none

/-- The job of the turn is next in the queue, once it is called. -/
def first (calls turn : ℕ) (tail : Outcome α ε) :
    List (Microtask MutexReaction ℕ (Outcome α ε)) :=
  if turn < calls then [.reaction (.job turn) tail] else []

/-- What a call returned. -/
def result? (turns : Turns α ε) (call : ℕ) : Option (Promise MutexReaction (Outcome α ε)) :=
  match turns.done[call]? with
  | some outcome => some (.settled outcome)
  | none => if call < turns.calls then some (.pending [.swallow call]) else none

/-- What the job of the turn returned. -/
def own? (turns : Turns α ε) : Option (Promise MutexReaction (Outcome α ε)) :=
  match turns.stage with
  | .free _ | .body | .released _ => none
  | .returned => some (.pending [])
  | .awaited => some (.pending [.follow turns.turn])
  | .settled outcome | .followed outcome => some (.settled outcome)

def queue (turns : Turns α ε) : List (Microtask MutexReaction ℕ (Outcome α ε)) :=
  match turns.stage with
  | .free tail => first turns.calls turns.turn tail
  | .body | .awaited => []
  | .returned | .settled _ => [.task turns.turn]
  | .followed outcome => [.reaction (.follow turns.turn) outcome]
  | .released outcome => [.reaction (.swallow (turns.turn - 1)) outcome]

def running (turns : Turns α ε) : Option ℕ :=
  match turns.stage with
  | .body => some turns.turn
  | _ => none

def marks (turns : Turns α ε) : List (JobMark α ε) :=
  serial turns.done ++
    match turns.stage with
    | .free _ | .released _ => []
    | .body | .returned | .awaited => [.began turns.turn]
    | .settled outcome | .followed outcome => [.began turns.turn, .ended turns.turn outcome]

/-- Whether a job has the turn. -/
def busy (turns : Turns α ε) : Bool :=
  match turns.stage with
  | .free _ | .released _ => false
  | _ => true

end Turns

theorem serial_append {α : Type u} {ε : Type v} (outcomes : List (Outcome α ε))
    (outcome : Outcome α ε) : serial (outcomes ++ [outcome]) =
      serial outcomes ++ [.began outcomes.length, .ended outcomes.length outcome] := by
  rw [serial, List.zipIdx_append, List.flatMap_append]
  simp [serial]

theorem mem_serial {α : Type u} {ε : Type v} {outcomes : List (Outcome α ε)} {call : ℕ}
    {outcome : Outcome α ε} (hdone : outcomes[call]? = some outcome) :
    .ended call outcome ∈ serial outcomes := by
  apply List.mem_flatMap.mpr
  refine ⟨(outcome, call), List.mem_zipIdx_iff_getElem?.mpr hdone, ?_⟩
  simp

/-! ## The promises follow the turns -/

/-- The promises of the lock in a turn. -/
structure Follows {α : Type u} {ε : Type v} (mutex : Mutex α ε) (turns : Turns α ε) :
    Prop where
  calls_eq : mutex.calls = turns.calls
  running_eq : mutex.running = turns.running
  marks_eq : mutex.marks = turns.marks
  queue_eq : mutex.promises.queue = turns.queue
  turn_le : turns.turn ≤ turns.calls
  turn_lt : turns.busy = true → turns.turn < turns.calls
  later : ∀ call, turns.turn < call →
    mutex.promises.promise? (.tail call) = Turns.waiting turns.calls call
  free : ∀ tail, turns.stage = .free tail →
    mutex.promises.promise? (.tail turns.turn) = some (.settled tail)
  held : ∀ outcome, turns.stage = .released outcome → 0 < turns.turn ∧
    mutex.promises.promise? (.tail turns.turn) = Turns.waiting turns.calls turns.turn
  results : ∀ call, mutex.promises.promise? (.result call) = turns.result? call
  own : mutex.promises.promise? (.own turns.turn) = turns.own?
  unborn : ∀ call, turns.turn < call → mutex.promises.promise? (.own call) = none
  past : ∀ call, call < turns.turn →
    ∀ reactions, mutex.promises.promise? (.own call) ≠ some (.pending reactions)

namespace Mutex

variable {α : Type u} {ε : Type v} {mutex : Mutex α ε} {call : ℕ} {outcome : Outcome α ε}

theorem promise?_fresh : (fresh : Mutex α ε).promises.promise? (.tail 0) =
    some (.settled (.ok none)) := by
  simp [fresh]

theorem promise?_fresh_of_ne {id : MutexPromise} (hid : id ≠ .tail 0) :
    (fresh : Mutex α ε).promises.promise? id = none := by
  simp [fresh, hid]

theorem promise?_run_own : mutex.run.promises.promise? (.own call) =
    mutex.promises.promise? (.own call) := by
  simp [run]

theorem promise?_run_result_self : mutex.run.promises.promise? (.result mutex.calls) =
    some (.pending [.swallow mutex.calls]) := by
  have hcreated : (((mutex.promises.create (.result mutex.calls)).subscribe (.tail mutex.calls)
      (.job mutex.calls)).create (.tail (mutex.calls + 1))).promise? (.result mutex.calls) =
        some (.pending []) := by
    simp
  exact (Promises.subscribe_pending hcreated).1

theorem promise?_run_result_of_ne (hcall : call ≠ mutex.calls) :
    mutex.run.promises.promise? (.result call) = mutex.promises.promise? (.result call) := by
  simp [run, hcall]

theorem promise?_run_tail_succ :
    mutex.run.promises.promise? (.tail (mutex.calls + 1)) = some (.pending []) := by
  simp [run]

theorem promise?_run_tail_of_ne (hcall : call ≠ mutex.calls) (hnew : call ≠ mutex.calls + 1) :
    mutex.run.promises.promise? (.tail call) = mutex.promises.promise? (.tail call) := by
  simp [run, hcall, hnew]

theorem queue_run : mutex.run.promises.queue =
    ((mutex.promises.create (.result mutex.calls)).subscribe (.tail mutex.calls)
      (.job mutex.calls)).queue := by
  have hcreated : (((mutex.promises.create (.result mutex.calls)).subscribe (.tail mutex.calls)
      (.job mutex.calls)).create (.tail (mutex.calls + 1))).promise? (.result mutex.calls) =
        some (.pending []) := by
    simp
  exact (Promises.subscribe_pending hcreated).2

/-- The job waits for the promise of the call before. -/
theorem run_pending (hpending : mutex.promises.promise? (.tail mutex.calls) =
    some (.pending [])) :
    mutex.run.promises.promise? (.tail mutex.calls) = some (.pending [.job mutex.calls]) ∧
      mutex.run.promises.queue = mutex.promises.queue := by
  have hcreated : (mutex.promises.create (.result mutex.calls)).promise? (.tail mutex.calls) =
      some (.pending []) := (Promises.promise?_create_of_ne (by simp)).trans hpending
  obtain ⟨htail, hqueue⟩ := Promises.subscribe_pending hcreated
  constructor
  · rw [run, Promises.promise?_subscribe_of_ne (by simp),
      Promises.promise?_create_of_ne (by simp)]
    exact htail
  · exact queue_run.trans hqueue

/-- When that promise has settled, the job is next in the queue. -/
theorem run_settled (hsettled : mutex.promises.promise? (.tail mutex.calls) =
    some (.settled outcome)) :
    mutex.run.promises.promise? (.tail mutex.calls) = some (.settled outcome) ∧
      mutex.run.promises.queue =
        mutex.promises.queue ++ [.reaction (.job mutex.calls) outcome] := by
  have hcreated : (mutex.promises.create (.result mutex.calls)).promise? (.tail mutex.calls) =
      some (.settled outcome) := (Promises.promise?_create_of_ne (by simp)).trans hsettled
  obtain ⟨htail, hqueue⟩ := Promises.subscribe_settled hcreated
  constructor
  · rw [run, Promises.promise?_subscribe_of_ne (by simp),
      Promises.promise?_create_of_ne (by simp)]
    exact htail
  · exact queue_run.trans hqueue

theorem tick_eq {microtask : Microtask MutexReaction ℕ (Outcome α ε)}
    {queue : List (Microtask MutexReaction ℕ (Outcome α ε))} (hrunning : mutex.running = none)
    (hqueue : mutex.promises.queue = microtask :: queue) :
    mutex.tick =
      { mutex with promises := { mutex.promises with queue := queue } }.perform microtask := by
  rw [tick, hrunning, hqueue]

theorem tick_of_running (hrunning : mutex.running = some call) : mutex.tick = mutex := by
  rw [tick, hrunning]

theorem tick_of_empty (hqueue : mutex.promises.queue = []) : mutex.tick = mutex := by
  rw [tick, hqueue]
  cases mutex.running <;> rfl

theorem returns_eq (hrunning : mutex.running = some call) : mutex.returns =
    { mutex with
      promises := (mutex.promises.create (.own call)).enqueue (.task call)
      running := none } := by
  rw [returns, hrunning]

theorem throws_eq {error : ε} (hrunning : mutex.running = some call) : mutex.throws error =
    { mutex with
      promises := mutex.promises.settle (.result call) (.error error)
      running := none
      marks := mutex.marks ++ [.ended call (.error error)] } := by
  rw [throws, hrunning]

theorem settles_eq {reactions : List MutexReaction}
    (hpending : mutex.promises.promise? (.own call) = some (.pending reactions)) :
    mutex.settles call outcome =
      { mutex with
        promises := mutex.promises.settle (.own call) outcome
        marks := mutex.marks ++ [.ended call outcome] } := by
  rw [settles, hpending]

theorem settles_of_not_pending
    (hnot : ∀ reactions, mutex.promises.promise? (.own call) ≠ some (.pending reactions)) :
    mutex.settles call outcome = mutex := by
  rw [settles]
  split
  · next reactions hpending => exact absurd hpending (hnot reactions)
  · rfl

end Mutex

namespace Follows

variable {α : Type u} {ε : Type v} {mutex : Mutex α ε} {turns : Turns α ε}
variable {call : ℕ} {outcome : Outcome α ε}

theorem waiting_calls (calls : ℕ) : (Turns.waiting calls calls :
    Option (Promise MutexReaction (Outcome α ε))) = some (.pending []) := by
  rw [Turns.waiting, if_neg (lt_irrefl _), if_pos rfl]

theorem waiting_succ {calls : ℕ} (hne : call ≠ calls) (hnew : call ≠ calls + 1) :
    (Turns.waiting (calls + 1) call : Option (Promise MutexReaction (Outcome α ε))) =
      Turns.waiting calls call := by
  have hlt : call < calls + 1 ↔ call < calls := by omega
  simp only [Turns.waiting, hlt, hne, hnew, if_false]

theorem waiting_called (calls : ℕ) : (Turns.waiting (calls + 1) calls :
    Option (Promise MutexReaction (Outcome α ε))) = some (.pending [.job calls]) :=
  if_pos (Nat.lt_succ_self calls)

/-- A new call waits unless the last turn is over. -/
theorem tail_calls (hfollows : Follows mutex turns) :
    (mutex.promises.promise? (.tail turns.calls) = some (.pending []) ∧
      turns.run.queue = turns.queue) ∨
    ∃ tail, turns.stage = .free tail ∧ turns.turn = turns.calls ∧
      mutex.promises.promise? (.tail turns.calls) = some (.settled tail) := by
  have hfree := hfollows.free
  have hheld := hfollows.held
  have hbusy := hfollows.turn_lt
  rcases hfollows.turn_le.lt_or_eq with hlt | heq
  · refine .inl ⟨(hfollows.later _ hlt).trans (waiting_calls _), ?_⟩
    obtain ⟨calls, done, stage⟩ := turns
    cases stage with
    | free tail => exact (if_pos (Nat.lt_succ_of_lt hlt)).trans (if_pos hlt).symm
    | _ => rfl
  · rw [heq] at hfree hheld
    obtain ⟨calls, done, stage⟩ := turns
    cases stage with
    | free tail => exact .inr ⟨tail, rfl, heq, hfree tail rfl⟩
    | released outcome =>
        exact .inl ⟨(hheld outcome rfl).2.trans (waiting_calls _), rfl⟩
    | _ => exact absurd heq (hbusy rfl).ne

theorem result?_run (hnew : call ≠ turns.calls) :
    turns.run.result? call = turns.result? call := by
  have hlt : call < turns.calls + 1 ↔ call < turns.calls := by omega
  rw [Turns.result?, Turns.result?, Turns.run]
  simp only [hlt]

theorem result?_of_le (hle : turns.turn ≤ call) : turns.result? call =
    if call < turns.calls then some (.pending [.swallow call]) else none := by
  rw [Turns.result?, List.getElem?_eq_none hle]

theorem result_turn (hfollows : Follows mutex turns) (hlt : turns.turn < turns.calls) :
    mutex.promises.promise? (.result turns.turn) = some (.pending [.swallow turns.turn]) := by
  rw [hfollows.results, result?_of_le le_rfl, if_pos hlt]

theorem result?_of_done (hdone : turns.done[call]? = some outcome) :
    turns.result? call = some (.settled outcome) := by
  rw [Turns.result?, hdone]

theorem run (hfollows : Follows mutex turns) : Follows mutex.run turns.run := by
  have hcalls := hfollows.calls_eq
  have hle := hfollows.turn_le
  have hold : ∀ call, call ≠ turns.calls → call ≠ turns.calls + 1 →
      mutex.promises.promise? (.tail call) = Turns.waiting turns.calls call →
      mutex.run.promises.promise? (.tail call) = Turns.waiting (turns.calls + 1) call := by
    intro call hne hnew hwaiting
    rw [waiting_succ hne hnew, ← hwaiting]
    exact Mutex.promise?_run_tail_of_ne (hcalls ▸ hne) (hcalls ▸ hnew)
  have hcalled : mutex.promises.promise? (.tail turns.calls) = some (.pending []) →
      mutex.run.promises.promise? (.tail turns.calls) =
        Turns.waiting (turns.calls + 1) turns.calls := by
    intro hpending
    rw [← hcalls] at hpending ⊢
    rw [waiting_called]
    exact (Mutex.run_pending hpending).1
  have hlast : mutex.run.promises.promise? (.tail (turns.calls + 1)) =
      Turns.waiting (turns.calls + 1) (turns.calls + 1) := by
    rw [waiting_calls, ← hcalls]
    exact Mutex.promise?_run_tail_succ
  constructor
  · exact congrArg (· + 1) hcalls
  · exact hfollows.running_eq
  · exact hfollows.marks_eq
  · rcases hfollows.tail_calls with ⟨hpending, hqueue⟩ | ⟨tail, hstage, hturn, hsettled⟩
    · rw [← hcalls] at hpending
      rw [(Mutex.run_pending hpending).2, hqueue, hfollows.queue_eq]
    · have hbefore : turns.queue = [] := by
        rw [Turns.queue, hstage]
        exact if_neg (Nat.not_lt.mpr hturn.ge)
      have hafter : turns.run.queue = [.reaction (.job turns.calls) tail] := by
        rw [Turns.queue, Turns.run, hstage, ← hturn]
        exact if_pos (Nat.lt_succ_self turns.turn)
      rw [← hcalls] at hsettled hafter
      rw [(Mutex.run_settled hsettled).2, hfollows.queue_eq, hbefore, hafter, List.nil_append]
  · exact hle.trans (Nat.le_succ _)
  · intro hbusy
    exact (hfollows.turn_lt hbusy).trans (Nat.lt_succ_self _)
  · intro call hlt
    by_cases hne : call = turns.calls
    · subst hne
      rcases hfollows.tail_calls with ⟨hpending, -⟩ | ⟨tail, -, hturn, -⟩
      · exact hcalled hpending
      · exact absurd hturn hlt.ne
    · by_cases hnew : call = turns.calls + 1
      · subst hnew
        exact hlast
      · exact hold call hne hnew (hfollows.later call hlt)
  · intro tail hstage
    have hfree := hfollows.free tail hstage
    change mutex.run.promises.promise? (.tail turns.turn) = _
    by_cases hturn : turns.turn = turns.calls
    · rw [hturn, ← hcalls] at hfree ⊢
      exact (Mutex.run_settled hfree).1
    · have hne : turns.turn ≠ turns.calls + 1 := by omega
      rw [Mutex.promise?_run_tail_of_ne (hcalls ▸ hturn) (hcalls ▸ hne)]
      exact hfree
  · intro outcome hstage
    obtain ⟨hpos, hheld⟩ := hfollows.held outcome hstage
    refine ⟨hpos, ?_⟩
    change mutex.run.promises.promise? (.tail turns.turn) =
      Turns.waiting (turns.calls + 1) turns.turn
    by_cases hturn : turns.turn = turns.calls
    · rw [hturn] at hheld ⊢
      exact hcalled (hheld.trans (waiting_calls _))
    · exact hold _ hturn (by omega) hheld
  · intro call
    by_cases hne : call = turns.calls
    · have hrun : turns.run.turn ≤ turns.calls := hle
      have hnew : turns.run.result? turns.calls = some (.pending [.swallow turns.calls]) :=
        (result?_of_le hrun).trans (if_pos (Nat.lt_succ_self _))
      rw [hne, hnew, ← hcalls]
      exact Mutex.promise?_run_result_self
    · rw [result?_run hne, ← hfollows.results call]
      exact Mutex.promise?_run_result_of_ne (hcalls ▸ hne)
  · exact Mutex.promise?_run_own.trans hfollows.own
  · intro call hlt
    exact Mutex.promise?_run_own.trans (hfollows.unborn call hlt)
  · intro call hlt reactions
    rw [Mutex.promise?_run_own]
    exact hfollows.past call hlt reactions

/-- Within a turn, only the promise of its own job changes. -/
theorem restage {mutex' : Mutex α ε} {stage : TurnStage α ε} (hfollows : Follows mutex turns)
    (hlt : turns.turn < turns.calls)
    (hbusy : ({ turns with stage := stage } : Turns α ε).busy = true)
    (htails : ∀ call, mutex'.promises.promise? (.tail call) =
      mutex.promises.promise? (.tail call))
    (hresults : ∀ call, mutex'.promises.promise? (.result call) =
      mutex.promises.promise? (.result call))
    (howns : ∀ call, call ≠ turns.turn →
      mutex'.promises.promise? (.own call) = mutex.promises.promise? (.own call))
    (hcalls : mutex'.calls = mutex.calls)
    (hown : mutex'.promises.promise? (.own turns.turn) =
      ({ turns with stage := stage } : Turns α ε).own?)
    (hrunning : mutex'.running = ({ turns with stage := stage } : Turns α ε).running)
    (hmarks : mutex'.marks = ({ turns with stage := stage } : Turns α ε).marks)
    (hqueue : mutex'.promises.queue = ({ turns with stage := stage } : Turns α ε).queue) :
    Follows mutex' { turns with stage := stage } := by
  constructor
  · exact hcalls.trans hfollows.calls_eq
  · exact hrunning
  · exact hmarks
  · exact hqueue
  · exact hlt.le
  · exact fun _ => hlt
  · intro call hcall
    exact (htails call).trans (hfollows.later call hcall)
  · rintro tail rfl
    contradiction
  · rintro outcome rfl
    contradiction
  · intro call
    exact (hresults call).trans (hfollows.results call)
  · exact hown
  · intro call hcall
    exact (howns call (Nat.ne_of_gt hcall)).trans (hfollows.unborn call hcall)
  · intro call hcall reactions
    rw [howns call (Nat.ne_of_lt hcall)]
    exact hfollows.past call hcall reactions

/-- The result of the turn settles, and the next turn is not free yet. -/
theorem ends {mutex' : Mutex α ε} (hfollows : Follows mutex turns)
    (hlt : turns.turn < turns.calls)
    (hpromises : mutex'.promises.promise? =
      (mutex.promises.settle (.result turns.turn) outcome).promise?)
    (hqueue : mutex'.promises.queue = [.reaction (.swallow turns.turn) outcome])
    (hcalls : mutex'.calls = mutex.calls) (hrunning : mutex'.running = none)
    (hmarks : mutex'.marks =
      serial turns.done ++ [.began turns.turn, .ended turns.turn outcome])
    (hown : ∀ reactions, turns.own? ≠ some (.pending reactions)) :
    Follows mutex' (turns.ends outcome) := by
  have hturn : (turns.ends outcome).turn = turns.turn + 1 := List.length_append
  have hresult := hfollows.result_turn hlt
  constructor
  · exact hcalls.trans hfollows.calls_eq
  · exact hrunning
  · rw [hmarks, Turns.marks]
    exact ((List.append_nil _).trans (serial_append turns.done outcome)).symm
  · rw [hqueue, Turns.queue]
    change _ = [Microtask.reaction (MutexReaction.swallow ((turns.ends outcome).turn - 1)) outcome]
    rw [hturn, Nat.add_sub_cancel]
  · rw [hturn]
    exact hlt
  · intro hbusy
    contradiction
  · intro call hcall
    rw [hturn] at hcall
    rw [hpromises, Promises.promise?_settle_of_ne (by simp)]
    exact hfollows.later call (Nat.lt_of_succ_lt hcall)
  · intro tail hstage
    contradiction
  · intro outcome' hstage
    rw [hturn, hpromises, Promises.promise?_settle_of_ne (by simp)]
    exact ⟨Nat.succ_pos _, hfollows.later _ (Nat.lt_succ_self _)⟩
  · intro call
    rw [hpromises]
    by_cases hcall : call = turns.turn
    · have hdone : (turns.ends outcome).done[call]? = some outcome := by
        rw [hcall]
        exact List.getElem?_concat_length
      rw [result?_of_done hdone, hcall]
      exact (Promises.settle_pending hresult).1
    · rw [Promises.promise?_settle_of_ne (by simp [hcall]), hfollows.results call]
      have hdone : (turns.done ++ [outcome])[call]? = turns.done[call]? := by
        rcases Nat.lt_or_gt_of_ne hcall with hbefore | hafter
        · exact List.getElem?_append_left hbefore
        · rw [List.getElem?_eq_none hafter.le, List.getElem?_eq_none]
          rw [List.length_append]
          exact hafter
      rw [Turns.result?, Turns.result?]
      change _ = match (turns.done ++ [outcome])[call]? with | some outcome => _ | none => _
      rw [hdone]
      rfl
  · rw [hturn, hpromises, Promises.promise?_settle_of_ne (by simp)]
    exact hfollows.unborn _ (Nat.lt_succ_self _)
  · intro call hcall
    rw [hturn] at hcall
    rw [hpromises, Promises.promise?_settle_of_ne (by simp)]
    exact hfollows.unborn call (Nat.lt_of_succ_lt hcall)
  · intro call hcall reactions
    rw [hturn] at hcall
    rw [hpromises, Promises.promise?_settle_of_ne (by simp)]
    rcases Nat.lt_succ_iff_lt_or_eq.mp hcall with hbefore | hlast
    · exact hfollows.past call hbefore reactions
    · rw [hlast, hfollows.own]
      exact hown reactions

/-- The promise that the next call waits for settles, however the last job ended. -/
theorem frees {mutex' : Mutex α ε} (hfollows : Follows mutex turns)
    (hstage : turns.stage = .released outcome)
    (hpromises : mutex'.promises = ({ mutex.promises with queue := [] } :
      Promises MutexPromise MutexReaction ℕ (Outcome α ε)).settle (.tail turns.turn)
        (Mutex.swallowed outcome))
    (hcalls : mutex'.calls = mutex.calls) (hrunning : mutex'.running = none)
    (hmarks : mutex'.marks = turns.marks) :
    Follows mutex' { turns with stage := .free (Mutex.swallowed outcome) } := by
  have hheld : ({ mutex.promises with queue := [] } :
      Promises MutexPromise MutexReaction ℕ (Outcome α ε)).promise? (.tail turns.turn) =
        Turns.waiting turns.calls turns.turn := (hfollows.held outcome hstage).2
  obtain ⟨reactions, hwaiting, hreactions⟩ : ∃ reactions : List MutexReaction,
      (Turns.waiting turns.calls turns.turn : Option (Promise MutexReaction (Outcome α ε))) =
        some (.pending reactions) ∧
      (reactions.map fun reaction => Microtask.reaction reaction (Mutex.swallowed outcome)) =
        Turns.first turns.calls turns.turn (Mutex.swallowed outcome) := by
    rcases hfollows.turn_le.lt_or_eq with hlt | heq
    · exact ⟨_, if_pos hlt, (if_pos hlt).symm⟩
    · rw [heq]
      exact ⟨[], waiting_calls _, (if_neg (lt_irrefl _)).symm⟩
  obtain ⟨hsettled, hwoken⟩ := Promises.settle_pending (hheld.trans hwaiting)
  constructor
  · exact hcalls.trans hfollows.calls_eq
  · exact hrunning
  · rw [hmarks, Turns.marks, hstage]
    rfl
  · rw [hpromises, hwoken, hreactions]
    rfl
  · exact hfollows.turn_le
  · intro hbusy
    contradiction
  · intro call hcall
    have hne : call ≠ turns.turn := Nat.ne_of_gt hcall
    rw [hpromises, Promises.promise?_settle_of_ne (by simpa using hne)]
    exact hfollows.later call hcall
  · rintro tail ⟨⟩
    rw [hpromises]
    exact hsettled
  · intro outcome' hreleased
    contradiction
  · intro call
    rw [hpromises, Promises.promise?_settle_of_ne (by simp)]
    exact hfollows.results call
  · rw [hpromises, Promises.promise?_settle_of_ne (by simp)]
    refine hfollows.own.trans ?_
    rw [Turns.own?, hstage]
    rfl
  · intro call hcall
    rw [hpromises, Promises.promise?_settle_of_ne (by simp)]
    exact hfollows.unborn call hcall
  · intro call hcall
    rw [hpromises, Promises.promise?_settle_of_ne (by simp)]
    exact hfollows.past call hcall

theorem settles (hfollows : Follows mutex turns) :
    Follows (mutex.settles call outcome) (turns.settles call outcome) := by
  have hown := hfollows.own
  have hrunning := hfollows.running_eq
  have hmarks := hfollows.marks_eq
  have hqueue := hfollows.queue_eq
  have hlt := hfollows.turn_lt
  by_cases hcall : call = turns.turn
  · subst hcall
    rw [Turns.settles, if_pos rfl]
    obtain ⟨calls, done, stage⟩ := turns
    cases stage with
    | returned =>
        obtain ⟨hsettled, hwoken⟩ := Promises.settle_pending hown
        rw [Mutex.settles_eq hown]
        apply hfollows.restage (hlt rfl) rfl
        · exact fun call => Promises.promise?_settle_of_ne (by simp)
        · exact fun call => Promises.promise?_settle_of_ne (by simp)
        · exact fun call hcall => Promises.promise?_settle_of_ne (by simpa using hcall)
        · rfl
        · exact hsettled
        · exact hrunning
        · rw [hmarks]
          exact List.append_assoc _ _ _
        · rw [hwoken, hqueue]
          rfl
    | awaited =>
        obtain ⟨hsettled, hwoken⟩ := Promises.settle_pending hown
        rw [Mutex.settles_eq hown]
        apply hfollows.restage (hlt rfl) rfl
        · exact fun call => Promises.promise?_settle_of_ne (by simp)
        · exact fun call => Promises.promise?_settle_of_ne (by simp)
        · exact fun call hcall => Promises.promise?_settle_of_ne (by simpa using hcall)
        · rfl
        · exact hsettled
        · exact hrunning
        · rw [hmarks]
          exact List.append_assoc _ _ _
        · rw [hwoken, hqueue]
          rfl
    | _ =>
        rw [Mutex.settles_of_not_pending (by rw [hown]; exact fun _ => nofun)]
        exact hfollows
  · have hnot : ∀ reactions, mutex.promises.promise? (.own call) ≠ some (.pending reactions) := by
      intro reactions
      rcases Nat.lt_or_gt_of_ne hcall with hbefore | hafter
      · exact hfollows.past call hbefore reactions
      · rw [hfollows.unborn call hafter]
        exact Option.some_ne_none _ |>.symm
    rw [Mutex.settles_of_not_pending hnot, Turns.settles, if_neg hcall]
    exact hfollows

theorem returns (hfollows : Follows mutex turns) : Follows mutex.returns turns.returns := by
  have hrunning := hfollows.running_eq
  have hlt := hfollows.turn_lt
  have hmarks := hfollows.marks_eq
  have hqueue := hfollows.queue_eq
  obtain ⟨calls, done, stage⟩ := turns
  cases stage with
  | body =>
      rw [Mutex.returns_eq hrunning]
      apply hfollows.restage (hlt rfl) rfl
      · exact fun call => by simp
      · exact fun call => by simp
      · exact fun call hcall => Promises.promise?_create_of_ne (by simpa using hcall)
      · rfl
      · exact Promises.promise?_create_self
      · rfl
      · exact hmarks
      · exact congrArg (· ++ [_]) hqueue
  | _ =>
      rw [Mutex.returns, hrunning]
      exact hfollows

theorem throws {error : ε} (hfollows : Follows mutex turns) :
    Follows (mutex.throws error) (turns.throws error) := by
  have hrunning := hfollows.running_eq
  have hlt := hfollows.turn_lt
  have hmarks := hfollows.marks_eq
  have hqueue := hfollows.queue_eq
  have hresult := hfollows.result_turn
  obtain ⟨calls, done, stage⟩ := turns
  cases stage with
  | body =>
      rw [Mutex.throws_eq hrunning]
      apply hfollows.ends (hlt rfl)
      · rfl
      · refine (Promises.settle_pending (hresult (hlt rfl))).2.trans ?_
        rw [hqueue]
        rfl
      · rfl
      · rfl
      · rw [hmarks]
        exact List.append_assoc _ _ _
      · exact fun _ => nofun
  | _ =>
      rw [Mutex.throws, hrunning]
      exact hfollows

theorem tick (hfollows : Follows mutex turns) : Follows mutex.tick turns.tick := by
  have hrunning := hfollows.running_eq
  have hlt := hfollows.turn_lt
  have hmarks := hfollows.marks_eq
  have hqueue := hfollows.queue_eq
  have hown := hfollows.own
  have hresult := hfollows.result_turn
  obtain ⟨calls, done, stage⟩ := turns
  cases stage with
  | free tail =>
      by_cases hcalled : done.length < calls
      · have hfirst : mutex.promises.queue = [.reaction (.job done.length) tail] :=
          hqueue.trans (if_pos hcalled)
        have hbody : Turns.tick ⟨calls, done, .free tail⟩ = ⟨calls, done, .body⟩ :=
          if_pos hcalled
        rw [Mutex.tick_eq hrunning hfirst, hbody]
        apply hfollows.restage hcalled rfl
        · exact fun _ => rfl
        · exact fun _ => rfl
        · exact fun _ _ => rfl
        · rfl
        · exact hown
        · rfl
        · change mutex.marks ++ _ = _
          rw [hmarks]
          exact congrArg (· ++ [_]) (List.append_nil _)
        · rfl
      · have hsame : Turns.tick ⟨calls, done, .free tail⟩ = ⟨calls, done, .free tail⟩ :=
          if_neg hcalled
        rw [Mutex.tick_of_empty (hqueue.trans (if_neg hcalled)), hsame]
        exact hfollows
  | body =>
      rw [Mutex.tick_of_running hrunning]
      exact hfollows
  | returned =>
      rw [Mutex.tick_eq hrunning hqueue]
      have hpending : ({ mutex.promises with queue := [] } :
          Promises MutexPromise MutexReaction ℕ (Outcome α ε)).promise? (.own done.length) =
            some (.pending []) := hown
      obtain ⟨hwaits, hempty⟩ := Promises.subscribe_pending hpending
      apply hfollows.restage (hlt rfl) rfl
      · exact fun call => Promises.promise?_subscribe_of_ne (by simp)
      · exact fun call => Promises.promise?_subscribe_of_ne (by simp)
      · exact fun call hcall => Promises.promise?_subscribe_of_ne (by simpa using hcall)
      · rfl
      · exact hwaits
      · exact hrunning
      · exact hmarks
      · exact hempty
  | awaited =>
      rw [Mutex.tick_of_empty hqueue]
      exact hfollows
  | settled outcome =>
      rw [Mutex.tick_eq hrunning hqueue]
      have hsettled : ({ mutex.promises with queue := [] } :
          Promises MutexPromise MutexReaction ℕ (Outcome α ε)).promise? (.own done.length) =
            some (.settled outcome) := hown
      obtain ⟨hsame, hdue⟩ := Promises.subscribe_settled hsettled
      apply hfollows.restage (hlt rfl) rfl
      · exact fun call => Promises.promise?_subscribe_of_ne (by simp)
      · exact fun call => Promises.promise?_subscribe_of_ne (by simp)
      · exact fun call hcall => Promises.promise?_subscribe_of_ne (by simpa using hcall)
      · rfl
      · exact hsame
      · exact hrunning
      · exact hmarks
      · exact hdue
  | followed outcome =>
      rw [Mutex.tick_eq hrunning hqueue]
      have hswallow : ({ mutex.promises with queue := [] } :
          Promises MutexPromise MutexReaction ℕ (Outcome α ε)).promise?
            (.result done.length) = some (.pending [.swallow done.length]) := hresult (hlt rfl)
      apply hfollows.ends (hlt rfl)
      · rfl
      · exact (Promises.settle_pending hswallow).2
      · rfl
      · exact hrunning
      · exact hmarks
      · exact fun _ => nofun
  | released outcome =>
      obtain ⟨hpos, hheld⟩ := hfollows.held outcome rfl
      obtain ⟨before, hlength⟩ := Nat.exists_eq_succ_of_ne_zero hpos.ne'
      have hswallow : mutex.promises.queue = [.reaction (.swallow before) outcome] := by
        rw [hqueue]
        change [Microtask.reaction (MutexReaction.swallow (done.length - 1)) outcome] = _
        rw [show done.length = before + 1 from hlength, Nat.add_sub_cancel]
      rw [Mutex.tick_eq hrunning hswallow]
      refine hfollows.frees rfl (hlength ▸ rfl) rfl hrunning ?_
      exact hmarks

theorem next (hfollows : Follows mutex turns) (event : MutexEvent α ε) :
    Follows (mutex.next event) (turns.next event) := by
  cases event with
  | run => exact hfollows.run
  | tick => exact hfollows.tick
  | returns => exact hfollows.returns
  | throws error => exact hfollows.throws
  | settles call outcome => exact hfollows.settles

theorem fresh : Follows (Mutex.fresh : Mutex α ε) Turns.fresh := by
  constructor
  · rfl
  · rfl
  · rfl
  · rfl
  · exact le_rfl
  · intro hbusy
    contradiction
  · intro call hcall
    have hlt : 0 < call := hcall
    rw [Mutex.promise?_fresh_of_ne (by simpa using hlt.ne')]
    exact ((if_neg (Nat.not_lt_zero call)).trans (if_neg hlt.ne')).symm
  · rintro tail ⟨⟩
    exact Mutex.promise?_fresh
  · intro outcome hreleased
    contradiction
  · exact fun call => Mutex.promise?_fresh_of_ne (by simp)
  · exact Mutex.promise?_fresh_of_ne (by simp)
  · exact fun call _ => Mutex.promise?_fresh_of_ne (by simp)
  · intro call hcall
    exact absurd hcall (Nat.not_lt_zero call)

/-- The promises follow the turns for good. -/
theorem after (events : ℕ → MutexEvent α ε) (n : ℕ) :
    Follows (Mutex.after events n) (Turns.after events n) := by
  induction n with
  | zero => exact fresh
  | succ n ih => exact ih.next (events n)

end Follows

end Relay

end VeraKey

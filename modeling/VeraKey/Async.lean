/-
Asynchronous functions on shared state.  Between two questions to the outside a function runs
alone; while it waits for a reply any other one may run.
-/
import VeraKey.History
import VeraKey.JobTable
import VeraKey.LeadsTo

/-- An asynchronous function, or what is left of it. -/
inductive Async (σ : Type) (Ask : Type) (Reply : Ask → Type) (ε α : Type)
  | done (result : Except ε α)
  | read (next : σ → Async σ Ask Reply ε α)
  | write (state : σ) (next : Async σ Ask Reply ε α)
  | ask (question : Ask) (next : Reply question → Async σ Ask Reply ε α)

/-- A question and its reply. -/
structure Exchange {Ask : Type} (Reply : Ask → Type) where
  question : Ask
  reply : Reply question

namespace Async

variable {σ Ask : Type} {Reply : Ask → Type} {ε ε' α β : Type}

/-- Goes on with whatever comes of a task. -/
def andThen (task : Async σ Ask Reply ε α) (next : Except ε α → Async σ Ask Reply ε' β) :
    Async σ Ask Reply ε' β :=
  match task with
  | .done result => next result
  | .read rest => .read fun state => (rest state).andThen next
  | .write state rest => .write state (rest.andThen next)
  | .ask question rest => .ask question fun reply => (rest reply).andThen next

instance : Monad (Async σ Ask Reply ε) where
  pure value := .done (.ok value)
  bind task next := task.andThen fun
    | .ok value => next value
    | .error thrown => .done (.error thrown)

instance : MonadExcept ε (Async σ Ask Reply ε) where
  throw thrown := .done (.error thrown)
  tryCatch task handler := task.andThen fun
    | .ok value => .done (.ok value)
    | .error thrown => handler thrown

/-- The shared state now. -/
def get : Async σ Ask Reply ε σ := .read fun state => .done (.ok state)

def set (state : σ) : Async σ Ask Reply ε Unit := .write state (.done (.ok ()))

/-- Waits for a reply. -/
def question (question : Ask) : Async σ Ask Reply ε (Reply question) :=
  .ask question fun reply => .done (.ok reply)

/-- What an answer throws. -/
def lift (result : Except ε α) : Async σ Ask Reply ε α := .done result

/-! ## What a task may ask -/

section Rules

variable (inv : σ → Prop) (may : List (Exchange Reply) → Ask → Prop)

/-- Whatever is replied and whatever the others do, the task leaves the shared state well-formed
whenever it waits, asks only what it may ask after its history, and ends as it should. -/
def Keeps (ends : List (Exchange Reply) → Except ε α → Prop) (history : List (Exchange Reply))
    (state : σ) : Async σ Ask Reply ε α → Prop
  | .done result => inv state ∧ ends history result
  | .read next => (next state).Keeps ends history state
  | .write state next => next.Keeps ends history state
  | .ask question next => inv state ∧ may history question ∧
      ∀ reply state', inv state' → (next reply).Keeps ends (history ++ [⟨question, reply⟩]) state'

variable {inv} {may} {history : List (Exchange Reply)} {state : σ}

/-- A task that follows another one starts where that one ends. -/
theorem Keeps.andThen {middle : List (Exchange Reply) → Except ε α → Prop}
    {ends : List (Exchange Reply) → Except ε' β → Prop} {task : Async σ Ask Reply ε α}
    {next : Except ε α → Async σ Ask Reply ε' β}
    (htask : task.Keeps inv may middle history state)
    (hnext : ∀ history state result, inv state → middle history result →
      (next result).Keeps inv may ends history state) :
    (task.andThen next).Keeps inv may ends history state := by
  induction task generalizing history state with
  | done result => exact hnext history state result htask.1 htask.2
  | read rest ih => exact ih state htask
  | write written rest ih => exact ih htask
  | ask question rest ih =>
      obtain ⟨hinv, hmay, hrest⟩ := htask
      exact ⟨hinv, hmay, fun reply state' hstate' => ih reply (hrest reply state' hstate')⟩

theorem Keeps.mono {ends ends' : List (Exchange Reply) → Except ε α → Prop}
    {task : Async σ Ask Reply ε α} (htask : task.Keeps inv may ends history state)
    (hends : ∀ history result, ends history result → ends' history result) :
    task.Keeps inv may ends' history state := by
  induction task generalizing history state with
  | done result => exact ⟨htask.1, hends history result htask.2⟩
  | read rest ih => exact ih state htask
  | write written rest ih => exact ih htask
  | ask question rest ih =>
      obtain ⟨hinv, hmay, hrest⟩ := htask
      exact ⟨hinv, hmay, fun reply state' hstate' => ih reply (hrest reply state' hstate')⟩

theorem Keeps.bind {middle : List (Exchange Reply) → Except ε α → Prop}
    {ends : List (Exchange Reply) → Except ε β → Prop} {task : Async σ Ask Reply ε α}
    {next : α → Async σ Ask Reply ε β} (htask : task.Keeps inv may middle history state)
    (hnext : ∀ history state value, inv state → middle history (.ok value) →
      (next value).Keeps inv may ends history state)
    (hthrows : ∀ history thrown, middle history (.error thrown) → ends history (.error thrown)) :
    (task >>= next).Keeps inv may ends history state := by
  refine htask.andThen ?_
  intro history state result hstate hmiddle
  cases result with
  | ok value => exact hnext history state value hstate hmiddle
  | error thrown => exact ⟨hstate, hthrows history thrown hmiddle⟩

theorem Keeps.tryCatch {middle ends : List (Exchange Reply) → Except ε α → Prop}
    {task : Async σ Ask Reply ε α} {handler : ε → Async σ Ask Reply ε α}
    (htask : task.Keeps inv may middle history state)
    (hends : ∀ history value, middle history (.ok value) → ends history (.ok value))
    (hhandler : ∀ history state thrown, inv state → middle history (.error thrown) →
      (handler thrown).Keeps inv may ends history state) :
    (tryCatch task handler).Keeps inv may ends history state := by
  refine Keeps.andThen htask ?_
  intro history state result hstate hmiddle
  cases result with
  | ok value => exact ⟨hstate, hends history value hmiddle⟩
  | error thrown => exact hhandler history state thrown hstate hmiddle

theorem Keeps.get {ends : List (Exchange Reply) → Except ε β → Prop}
    {next : σ → Async σ Ask Reply ε β} (hnext : (next state).Keeps inv may ends history state) :
    (Async.get >>= next).Keeps inv may ends history state := hnext

theorem Keeps.question {ends : List (Exchange Reply) → Except ε β → Prop} {asked : Ask}
    {next : Reply asked → Async σ Ask Reply ε β} (hinv : inv state) (hmay : may history asked)
    (hnext : ∀ reply state', inv state' →
      (next reply).Keeps inv may ends (history ++ [⟨asked, reply⟩]) state') :
    (Async.question asked >>= next).Keeps inv may ends history state :=
  ⟨hinv, hmay, hnext⟩

end Rules

/-- Everything in a history was asked when it might be. -/
def Allowed (may : List (Exchange Reply) → Ask → Prop) (history : List (Exchange Reply)) : Prop :=
  ∀ before exchange rest, history = before ++ exchange :: rest → may before exchange.question

theorem allowed_concat {may : List (Exchange Reply) → Ask → Prop}
    {history : List (Exchange Reply)} {question : Ask} (hhistory : Allowed may history)
    (hmay : may history question) (reply : Reply question) :
    Allowed may (history ++ [⟨question, reply⟩]) := by
  intro before exchange rest hsplit
  rcases List.eq_nil_or_concat rest with rfl | ⟨rest, last, rfl⟩
  · obtain ⟨rfl, hlast⟩ := List.append_inj' hsplit rfl
    injection hlast with hlast
    rw [← hlast]
    exact hmay
  · rw [List.concat_eq_append, ← List.cons_append, ← List.append_assoc] at hsplit
    exact hhistory before exchange rest (List.append_inj' hsplit rfl).1

/-! ## Where a task waits -/

/-- A task between two of its turns. -/
inductive Paused (σ Ask : Type) (Reply : Ask → Type) (ε α : Type)
  | waiting (question : Ask) (next : Reply question → Async σ Ask Reply ε α)
  | ended (result : Except ε α)

/-- Runs a task as far as it goes by itself. -/
def turn (state : σ) : Async σ Ask Reply ε α → σ × Paused σ Ask Reply ε α
  | .done result => (state, .ended result)
  | .read next => (next state).turn state
  | .write state next => next.turn state
  | .ask question next => (state, .waiting question next)

/-- What is left of a task keeps to its rules. -/
def Paused.Keeps (inv : σ → Prop) (may : List (Exchange Reply) → Ask → Prop)
    (ends : List (Exchange Reply) → Except ε α → Prop) (history : List (Exchange Reply)) :
    Paused σ Ask Reply ε α → Prop
  | .waiting question next => may history question ∧ ∀ reply state, inv state →
      (next reply).Keeps inv may ends (history ++ [⟨question, reply⟩]) state
  | .ended result => ends history result

theorem keeps_turn {inv : σ → Prop} {may : List (Exchange Reply) → Ask → Prop}
    {ends : List (Exchange Reply) → Except ε α → Prop} {history : List (Exchange Reply)}
    {state : σ} {task : Async σ Ask Reply ε α} (htask : task.Keeps inv may ends history state) :
    inv (task.turn state).1 ∧ (task.turn state).2.Keeps inv may ends history := by
  induction task generalizing state with
  | done result => exact htask
  | read rest ih => exact ih state htask
  | write written rest ih => exact ih htask
  | ask question rest ih => exact htask

end Async

/-! ## Tasks side by side -/

/-- A task that has started: what it was started for, what it has asked, and where it waits. -/
structure AsyncJob (σ Ask : Type) (Reply : Ask → Type) (ε α Call : Type) where
  call : Call
  history : List (Exchange Reply)
  paused : Async.Paused σ Ask Reply ε α

/-- What a task has asked, or asks now, and its history until then. -/
inductive AsyncJob.Asked {σ Ask : Type} {Reply : Ask → Type} {ε α Call : Type}
    (job : AsyncJob σ Ask Reply ε α Call) : List (Exchange Reply) → Ask → Prop
  | answered {before exchange rest} (hhistory : job.history = before ++ exchange :: rest) :
      Asked job before exchange.question
  | waiting {question next} (hpaused : job.paused = .waiting question next) :
      Asked job job.history question

/-- The shared state and the tasks on it. -/
structure AsyncPool (σ Ask : Type) (Reply : Ask → Type) (ε α Call : Type) where
  state : σ
  jobs : JobTable (AsyncJob σ Ask Reply ε α Call)

inductive AsyncEvent {Ask : Type} (Reply : Ask → Type) (Call : Type)
  | start (call : Call)
  /-- What one task waits for comes: to each question it would have its reply. -/
  | replies (number : ℕ) (reply : (question : Ask) → Reply question)

namespace AsyncPool

variable {σ Ask : Type} {Reply : Ask → Type} {ε α Call : Type}
variable (program : Call → Async σ Ask Reply ε α)

/-- The pool after an event. -/
def next (pool : AsyncPool σ Ask Reply ε α Call) :
    AsyncEvent Reply Call → AsyncPool σ Ask Reply ε α Call
  | .start call =>
      let (state, paused) := (program call).turn pool.state
      ⟨state, pool.jobs.start ⟨call, [], paused⟩⟩
  | .replies number reply =>
      match pool.jobs.job? number with
      | some ⟨call, history, .waiting question rest⟩ =>
          let (state, paused) := (rest (reply question)).turn pool.state
          ⟨state, pool.jobs.set number
            ⟨call, history ++ [⟨question, reply question⟩], paused⟩⟩
      | _ => pool

/-- The pool after the first `n` events. -/
def after (start : σ) (events : ℕ → AsyncEvent Reply Call) (n : ℕ) :
    AsyncPool σ Ask Reply ε α Call :=
  History.run (next program) ⟨start, .empty⟩ events n

section Rules

variable {program} {inv : σ → Prop} {may : Call → List (Exchange Reply) → Ask → Prop}
variable {ends : Call → List (Exchange Reply) → Except ε α → Prop}
variable {start : σ} {events : ℕ → AsyncEvent Reply Call}

/-- Every task keeps to its own rules, and the shared state is well-formed. -/
structure Sound (inv : σ → Prop) (may : Call → List (Exchange Reply) → Ask → Prop)
    (ends : Call → List (Exchange Reply) → Except ε α → Prop)
    (pool : AsyncPool σ Ask Reply ε α Call) : Prop where
  state : inv pool.state
  jobs : ∀ number job, pool.jobs.job? number = some job →
    Async.Allowed (may job.call) job.history ∧
      job.paused.Keeps inv (may job.call) (ends job.call) job.history

theorem Sound.may_of_asked {pool : AsyncPool σ Ask Reply ε α Call} {number : ℕ}
    {job : AsyncJob σ Ask Reply ε α Call} {before : List (Exchange Reply)} {question : Ask}
    (hsound : Sound inv may ends pool) (hjob : pool.jobs.job? number = some job)
    (hasked : job.Asked before question) : may job.call before question := by
  obtain ⟨hallowed, hpaused⟩ := hsound.jobs number job hjob
  cases hasked with
  | @answered before exchange rest hhistory => exact hallowed before exchange rest hhistory
  | @waiting question next hwaiting =>
      rw [hwaiting] at hpaused
      exact hpaused.1

theorem Sound.ends_of_ended {pool : AsyncPool σ Ask Reply ε α Call} {number : ℕ}
    {job : AsyncJob σ Ask Reply ε α Call} {result : Except ε α}
    (hsound : Sound inv may ends pool) (hjob : pool.jobs.job? number = some job)
    (hended : job.paused = .ended result) : ends job.call job.history result := by
  obtain ⟨-, hpaused⟩ := hsound.jobs number job hjob
  rw [hended] at hpaused
  exact hpaused

/-- Tasks that keep to their rules alone keep to them side by side. -/
theorem Sound.next {pool : AsyncPool σ Ask Reply ε α Call}
    (hprogram : ∀ call state, inv state →
      (program call).Keeps inv (may call) (ends call) [] state)
    (hsound : Sound inv may ends pool) (event : AsyncEvent Reply Call) :
    Sound inv may ends (pool.next program event) := by
  obtain ⟨hinv, hjobs⟩ := hsound
  cases event with
  | start call =>
      obtain ⟨hstate, hpaused⟩ := Async.keeps_turn (hprogram call pool.state hinv)
      refine ⟨hstate, ?_⟩
      intro number job hjob
      rcases JobTable.job?_start.mp hjob with ⟨-, rfl⟩ | hbefore
      · refine ⟨?_, hpaused⟩
        intro before exchange rest hnil
        simp at hnil
      · exact hjobs number job hbefore
  | replies number reply =>
      rw [AsyncPool.next]
      split
      · rename_i call history question rest hjob
        obtain ⟨hasked, hmay, hrest⟩ := hjobs number _ hjob
        obtain ⟨hstate, hpaused⟩ :=
          Async.keeps_turn (hrest (reply question) pool.state hinv)
        refine ⟨hstate, ?_⟩
        intro other job hother
        by_cases hnumber : other = number
        · subst hnumber
          rw [JobTable.job?_set_self hjob] at hother
          obtain rfl := Option.some.inj hother
          exact ⟨Async.allowed_concat hasked hmay _, hpaused⟩
        · rw [JobTable.job?_set_of_ne hnumber] at hother
          exact hjobs other job hother
      · exact ⟨hinv, hjobs⟩

theorem sound_after
    (hprogram : ∀ call state, inv state →
      (program call).Keeps inv (may call) (ends call) [] state)
    (hstart : inv start) (n : ℕ) : Sound inv may ends (after program start events n) := by
  induction n with
  | zero => exact ⟨hstart, nofun⟩
  | succ n ih => exact ih.next hprogram (events n)

end Rules

/-! ## Every task ends -/

section Ends

variable {program} {start : σ} {events : ℕ → AsyncEvent Reply Call} {n number : ℕ}
variable {job : AsyncJob σ Ask Reply ε α Call}

theorem job?_next_of_ne {pool : AsyncPool σ Ask Reply ε α Call} {event : AsyncEvent Reply Call}
    (hjob : pool.jobs.job? number = some job) (hevent : ∀ reply, event ≠ .replies number reply) :
    (pool.next program event).jobs.job? number = some job := by
  cases event with
  | start call =>
      exact (JobTable.job?_start_of_ne (Nat.ne_of_lt (JobTable.lt_started hjob))).trans hjob
  | replies other reply =>
      have hother : number ≠ other := by
        rintro rfl
        exact hevent reply rfl
      rw [AsyncPool.next]
      split
      · exact (JobTable.job?_set_of_ne hother).trans hjob
      · exact hjob

theorem job?_next_replies {pool : AsyncPool σ Ask Reply ε α Call} {call : Call}
    {history : List (Exchange Reply)} {question : Ask}
    {rest : Reply question → Async σ Ask Reply ε α} {reply : (question : Ask) → Reply question}
    (hjob : pool.jobs.job? number = some ⟨call, history, .waiting question rest⟩) :
    (pool.next program (.replies number reply)).jobs.job? number =
      some ⟨call, history ++ [⟨question, reply question⟩],
        ((rest (reply question)).turn pool.state).2⟩ := by
  rw [AsyncPool.next, hjob]
  exact JobTable.job?_set_self hjob

/-- A task that is always replied to ends. -/
theorem ends_of_recurs (hreplies : Recurs fun n => ∃ reply, events n = .replies number reply)
    (hjob : (after program start events n).jobs.job? number = some job) :
    ∃ m ended result, n ≤ m ∧ (after program start events m).jobs.job? number = some ended ∧
      ended.paused = .ended result := by
  have hends : ∀ (task : Async σ Ask Reply ε α) state n call history,
      (after program start events n).jobs.job? number =
        some ⟨call, history, (task.turn state).2⟩ →
      ∃ m ended result, n ≤ m ∧ (after program start events m).jobs.job? number = some ended ∧
        ended.paused = .ended result := by
    intro task
    induction task with
    | done result =>
        intro state n call history hjob
        exact ⟨n, _, result, le_rfl, hjob, rfl⟩
    | read rest ih =>
        intro state n call history hjob
        exact ih state state n call history hjob
    | write written rest ih =>
        intro state n call history hjob
        exact ih written n call history hjob
    | ask question rest ih =>
        intro state n call history hjob
        have hleads : LeadsTo
            (fun n => (after program start events n).jobs.job? number =
              some ⟨call, history, .waiting question rest⟩)
            (fun n => ∃ reply state history, (after program start events n).jobs.job? number =
              some ⟨call, history, ((rest reply).turn state).2⟩) := by
          refine LeadsTo.of_recurs hreplies ?_ ?_
          · intro n hjob hevent
            exact job?_next_of_ne hjob fun reply hreply => hevent ⟨reply, hreply⟩
          · rintro n hjob ⟨reply, hevent⟩
            refine ⟨reply question, (after program start events n).state,
              history ++ [⟨question, reply question⟩], ?_⟩
            rw [after, History.run, hevent]
            exact job?_next_replies hjob
        obtain ⟨middle, hmiddle, reply, state', history', hjob'⟩ := hleads n hjob
        obtain ⟨m, ended, result, hm, hended⟩ := ih reply state' middle call history' hjob'
        exact ⟨m, ended, result, hmiddle.trans hm, hended⟩
  obtain ⟨call, history, paused⟩ := job
  cases paused with
  | waiting question rest => exact hends (.ask question rest) start n call history hjob
  | ended result => exact hends (.done result) start n call history hjob

end Ends

end AsyncPool

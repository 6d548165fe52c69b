/-
The lock of the relayer: jobs wait for a chain of promises, and each call's link of the chain
swallows how its job ended.
-/
import VeraKey.Promises

namespace VeraKey

namespace Relay

universe u v

/-- What a promise settles with: a value, which may be undefined, or what was thrown. -/
abbrev Outcome (α : Type u) (ε : Type v) := Except ε (Option α)

/-- The promises of one call: the one it waits for, the one it returns, and the one that its
job returns. -/
inductive MutexPromise
  | tail (call : ℕ)
  | result (call : ℕ)
  | own (call : ℕ)
deriving DecidableEq

/-- The reactions of one call: its job, on both handlers, `() => undefined` on the second one,
and the resolving functions of its result. -/
inductive MutexReaction
  | job (call : ℕ)
  | swallow (call : ℕ)
  | follow (call : ℕ)
deriving DecidableEq

/-- What can be seen of a job. -/
inductive JobMark (α : Type u) (ε : Type v) where
  | began (call : ℕ)
  | ended (call : ℕ) (outcome : Outcome α ε)

/-- A call of `run`, a microtask, the end of a job's code, and the end of the promise that it
returned.  Calls come at any time, those of a job's own code among them. -/
inductive MutexEvent (α : Type u) (ε : Type v) where
  | run
  | tick
  | returns
  | throws (error : ε)
  | settles (call : ℕ) (outcome : Outcome α ε)

/-- `running` is the job whose code is on the stack: no microtask runs before it returns. -/
structure Mutex (α : Type u) (ε : Type v) where
  promises : Promises MutexPromise MutexReaction ℕ (Outcome α ε)
  calls : ℕ
  running : Option ℕ
  marks : List (JobMark α ε)

namespace Mutex

variable {α : Type u} {ε : Type v}

def fresh : Mutex α ε where
  promises := ⟨Function.update (fun _ => none) (.tail 0) (some (.settled (.ok none))), []⟩
  calls := 0
  running := none
  marks := []

/-- `tail` is the promise `.tail mutex.calls`. -/
def run (mutex : Mutex α ε) : Mutex α ε :=
  let result := mutex.promises.create (.result mutex.calls)
  let waiting := result.subscribe (.tail mutex.calls) (.job mutex.calls)
  let tail := waiting.create (.tail (mutex.calls + 1))
  { mutex with
    promises := tail.subscribe (.result mutex.calls) (.swallow mutex.calls)
    calls := mutex.calls + 1 }

def swallowed : Outcome α ε → Outcome α ε
  | .ok value => .ok value
  | .error _ => .ok none

def react (mutex : Mutex α ε) : MutexReaction → Outcome α ε → Mutex α ε
  | .job call, _ => { mutex with running := some call, marks := mutex.marks ++ [.began call] }
  | .swallow call, outcome =>
      { mutex with promises := mutex.promises.settle (.tail (call + 1)) (swallowed outcome) }
  | .follow call, outcome =>
      { mutex with promises := mutex.promises.settle (.result call) outcome }

/-- A result that was resolved with the job's promise waits for it, one microtask later. -/
def perform (mutex : Mutex α ε) : Microtask MutexReaction ℕ (Outcome α ε) → Mutex α ε
  | .reaction reaction outcome => mutex.react reaction outcome
  | .task call => { mutex with promises := mutex.promises.subscribe (.own call) (.follow call) }

def tick (mutex : Mutex α ε) : Mutex α ε :=
  match mutex.running, mutex.promises.queue with
  | none, microtask :: queue =>
      { mutex with promises := { mutex.promises with queue := queue } }.perform microtask
  | _, _ => mutex

def returns (mutex : Mutex α ε) : Mutex α ε :=
  match mutex.running with
  | none => mutex
  | some call =>
      { mutex with
        promises := (mutex.promises.create (.own call)).enqueue (.task call)
        running := none }

def throws (mutex : Mutex α ε) (error : ε) : Mutex α ε :=
  match mutex.running with
  | none => mutex
  | some call =>
      { mutex with
        promises := mutex.promises.settle (.result call) (.error error)
        running := none
        marks := mutex.marks ++ [.ended call (.error error)] }

def settles (mutex : Mutex α ε) (call : ℕ) (outcome : Outcome α ε) : Mutex α ε :=
  match mutex.promises.promise? (.own call) with
  | some (.pending _) =>
      { mutex with
        promises := mutex.promises.settle (.own call) outcome
        marks := mutex.marks ++ [.ended call outcome] }
  | _ => mutex

def next (mutex : Mutex α ε) : MutexEvent α ε → Mutex α ε
  | .run => mutex.run
  | .tick => mutex.tick
  | .returns => mutex.returns
  | .throws error => mutex.throws error
  | .settles call outcome => mutex.settles call outcome

def after (events : ℕ → MutexEvent α ε) : ℕ → Mutex α ε
  | 0 => fresh
  | n + 1 => (after events n).next (events n)

theorem after_succ (events : ℕ → MutexEvent α ε) (n : ℕ) :
    after events (n + 1) = (after events n).next (events n) := rfl

end Mutex

end Relay

end VeraKey

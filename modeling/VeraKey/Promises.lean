/-
Promises and the reactions that wait for them.  A promise settles once.  Its reactions then
join a queue of microtasks, which run one at a time in the order in which they joined.
-/
import Mathlib

universe u v w x

inductive Promise (ρ : Type u) (ο : Type v) where
  | pending (reactions : List ρ)
  | settled (outcome : ο)
deriving DecidableEq

/-- What is run next: a reaction to a promise that has settled, or a task of another kind. -/
inductive Microtask (ρ : Type u) (τ : Type w) (ο : Type v) where
  | reaction (reaction : ρ) (outcome : ο)
  | task (task : τ)
deriving DecidableEq

namespace Promise

variable {ρ : Type u} {τ : Type w} {ο : Type v}

def add (reaction : ρ) : Promise ρ ο → Promise ρ ο
  | pending reactions => pending (reactions ++ [reaction])
  | settled outcome => settled outcome

/-- A reaction to a promise that has settled is due at once. -/
def due (reaction : ρ) : Promise ρ ο → List (Microtask ρ τ ο)
  | pending _ => []
  | settled outcome => [.reaction reaction outcome]

def settle (outcome : ο) : Promise ρ ο → Promise ρ ο
  | pending _ => settled outcome
  | settled first => settled first

def woken (outcome : ο) : Promise ρ ο → List (Microtask ρ τ ο)
  | pending reactions => reactions.map fun reaction => .reaction reaction outcome
  | settled _ => []

end Promise

structure Promises (ι : Type x) (ρ : Type u) (τ : Type w) (ο : Type v) where
  promise? : ι → Option (Promise ρ ο)
  queue : List (Microtask ρ τ ο)

namespace Promises

variable {ι : Type x} {ρ : Type u} {τ : Type w} {ο : Type v}

def enqueue (promises : Promises ι ρ τ ο) (microtask : Microtask ρ τ ο) : Promises ι ρ τ ο :=
  { promises with queue := promises.queue ++ [microtask] }

@[simp]
theorem promise?_enqueue {promises : Promises ι ρ τ ο} {microtask : Microtask ρ τ ο} :
    (promises.enqueue microtask).promise? = promises.promise? := rfl

@[simp]
theorem queue_enqueue {promises : Promises ι ρ τ ο} {microtask : Microtask ρ τ ο} :
    (promises.enqueue microtask).queue = promises.queue ++ [microtask] := rfl

variable [DecidableEq ι]

def create (promises : Promises ι ρ τ ο) (id : ι) : Promises ι ρ τ ο :=
  { promises with promise? := Function.update promises.promise? id (some (.pending [])) }

/-- The reaction waits for the promise. -/
def subscribe (promises : Promises ι ρ τ ο) (id : ι) (reaction : ρ) : Promises ι ρ τ ο where
  promise? := Function.update promises.promise? id ((promises.promise? id).map (·.add reaction))
  queue := promises.queue ++ (promises.promise? id).elim [] (·.due reaction)

/-- The promise settles, unless it has. -/
def settle (promises : Promises ι ρ τ ο) (id : ι) (outcome : ο) : Promises ι ρ τ ο where
  promise? :=
    Function.update promises.promise? id ((promises.promise? id).map (·.settle outcome))
  queue := promises.queue ++ (promises.promise? id).elim [] (·.woken outcome)

variable {promises : Promises ι ρ τ ο} {id other : ι} {reaction : ρ} {outcome : ο}
variable {reactions : List ρ}

@[simp]
theorem promise?_create_self : (promises.create id).promise? id = some (.pending []) :=
  Function.update_self id _ _

@[simp]
theorem promise?_create_of_ne (hother : other ≠ id) :
    (promises.create id).promise? other = promises.promise? other :=
  Function.update_of_ne hother _ _

@[simp]
theorem queue_create : (promises.create id).queue = promises.queue := rfl

@[simp]
theorem promise?_subscribe_of_ne (hother : other ≠ id) :
    (promises.subscribe id reaction).promise? other = promises.promise? other :=
  Function.update_of_ne hother _ _

@[simp]
theorem promise?_settle_of_ne (hother : other ≠ id) :
    (promises.settle id outcome).promise? other = promises.promise? other :=
  Function.update_of_ne hother _ _

/-- A promise that has not settled keeps the reaction. -/
theorem subscribe_pending (hpending : promises.promise? id = some (.pending reactions)) :
    (promises.subscribe id reaction).promise? id = some (.pending (reactions ++ [reaction])) ∧
      (promises.subscribe id reaction).queue = promises.queue := by
  constructor
  · apply (Function.update_self id _ _).trans
    rw [hpending]
    rfl
  · rw [subscribe, hpending]
    exact List.append_nil _

/-- One that has settled has it run. -/
theorem subscribe_settled (hsettled : promises.promise? id = some (.settled outcome)) :
    (promises.subscribe id reaction).promise? id = some (.settled outcome) ∧
      (promises.subscribe id reaction).queue =
        promises.queue ++ [.reaction reaction outcome] := by
  constructor
  · apply (Function.update_self id _ _).trans
    rw [hsettled]
    rfl
  · rw [subscribe, hsettled]
    rfl

theorem settle_pending (hpending : promises.promise? id = some (.pending reactions)) :
    (promises.settle id outcome).promise? id = some (.settled outcome) ∧
      (promises.settle id outcome).queue =
        promises.queue ++ reactions.map fun reaction => .reaction reaction outcome := by
  constructor
  · apply (Function.update_self id _ _).trans
    rw [hpending]
    rfl
  · rw [settle, hpending]
    rfl

end Promises

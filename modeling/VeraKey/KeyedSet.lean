/-
Sets kept in one map under hashed keys of (generation, element): moving to the
next generation empties the set without touching the map.  What is needed of
the hash is that no other key collides with one that is written.
-/
import Mathlib

namespace KeyedSet

universe u v w

variable {K : Type u} {E : Type v} {N : Type w}

/-- No other generation or element has the key of `(e, n)`. -/
def InjectiveAt (key : E → N → K) (e : E) (n : N) : Prop :=
  ∀ e' n', key e' n' = key e n → e' = e ∧ n' = n

/-- Membership of `n` in generation `e`. -/
def member (entries : K → Bool) (key : E → N → K) (e : E) (n : N) : Bool :=
  entries (key e n)

/-- `members` are the elements of generation `e`, each once. -/
def Lists (entries : K → Bool) (key : E → N → K) (e : E)
    (members : Finset N) : Prop :=
  ∀ n, n ∈ members ↔ member entries key e n = true

/-- No generation ranked above `rank e` has an entry. -/
def NoneAfter (entries : K → Bool) (key : E → N → K) (rank : E → ℕ) (e : E) : Prop :=
  ∀ e' n, rank e < rank e' → member entries key e' n = false

variable [DecidableEq K] {entries : K → Bool} {key : E → N → K} {e e' : E} {n : N}
  {members : Finset N}

theorem member_update (hkey : InjectiveAt key e n) (value : Bool) (m : N) :
    member (Function.update entries (key e n) value) key e' m = true ↔
      (e' = e ∧ m = n) ∧ value = true ∨
        ¬ (e' = e ∧ m = n) ∧ member entries key e' m = true := by
  unfold member
  by_cases hsame : e' = e ∧ m = n
  · obtain ⟨rfl, rfl⟩ := hsame
    simp
  · rw [Function.update_of_ne fun heq => hsame (hkey e' m heq)]
    simp [hsame]

/-- Adding an element to the current generation. -/
theorem Lists.insert [DecidableEq N] (h : Lists entries key e members)
    (hkey : InjectiveAt key e n) :
    Lists (Function.update entries (key e n) true) key e (insert n members) := by
  intro m
  rw [member_update hkey, Finset.mem_insert, h m]
  by_cases hm : m = n <;> simp [hm]

/-- Removing an element of the current generation. -/
theorem Lists.erase [DecidableEq N] (h : Lists entries key e members)
    (hkey : InjectiveAt key e n) :
    Lists (Function.update entries (key e n) false) key e (members.erase n) := by
  intro m
  rw [member_update hkey, Finset.mem_erase, h m]
  by_cases hm : m = n <;> simp [hm]

/-- The first element of a generation that has no entry yet is alone in it. -/
theorem Lists.singleton (hnone : ∀ m, member entries key e m = false)
    (hkey : InjectiveAt key e n) :
    Lists (Function.update entries (key e n) true) key e {n} := by
  intro m
  rw [member_update hkey, Finset.mem_singleton, hnone m]
  by_cases hm : m = n <;> simp [hm]

variable {rank : E → ℕ}

theorem NoneAfter.update (h : NoneAfter entries key rank e)
    (hkey : InjectiveAt key e n) (value : Bool) :
    NoneAfter (Function.update entries (key e n) value) key rank e := by
  intro e' m hlt
  rw [← Bool.not_eq_true, member_update hkey]
  rintro (⟨⟨rfl, -⟩, -⟩ | ⟨-, hmember⟩)
  · exact lt_irrefl _ hlt
  · exact Bool.false_ne_true ((h e' m hlt).symm.trans hmember)

omit [DecidableEq K] in
theorem NoneAfter.mono (h : NoneAfter entries key rank e) (hle : rank e ≤ rank e') :
    NoneAfter entries key rank e' :=
  fun e'' m hlt => h e'' m (lt_of_le_of_lt hle hlt)

end KeyedSet

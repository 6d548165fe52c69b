/-
Keys reserved by those who work on them: the reserved keys are what the holders hold, and
no two of them hold the same one.
-/
import Mathlib

universe u v

variable {κ : Type u} {ι : Type v}

/-- `reserved` is what is held, by one holder each. -/
structure Reservation (reserved : Finset κ) (holder : ι → Option κ) : Prop where
  held : ∀ key, key ∈ reserved ↔ ∃ i, holder i = some key
  once : ∀ i j key, holder i = some key → holder j = some key → i = j

namespace Reservation

variable {reserved : Finset κ} {holder : ι → Option κ} {i : ι} {key : κ}

theorem empty : Reservation (∅ : Finset κ) fun _ : ι => none where
  held := by simp
  once := nofun

variable [DecidableEq κ] [DecidableEq ι]

/-- A free key is reserved by one who holds nothing. -/
theorem reserve (hreservation : Reservation reserved holder) (hfree : key ∉ reserved)
    (hi : holder i = none) :
    Reservation (insert key reserved) (Function.update holder i (some key)) where
  held := by
    intro other
    rw [Finset.mem_insert, hreservation.held other]
    constructor
    · rintro (rfl | ⟨j, hj⟩)
      · exact ⟨i, Function.update_self i _ holder⟩
      · refine ⟨j, ?_⟩
        rw [Function.update_of_ne, hj]
        rintro rfl
        rw [hi] at hj
        contradiction
    · rintro ⟨j, hj⟩
      by_cases hji : j = i
      · rw [hji, Function.update_self] at hj
        exact .inl (Option.some.inj hj).symm
      · rw [Function.update_of_ne hji] at hj
        exact .inr ⟨j, hj⟩
  once := by
    have hnobody : ∀ j, holder j ≠ some key := by
      intro j hj
      exact hfree ((hreservation.held key).mpr ⟨j, hj⟩)
    intro j k other hj hk
    by_cases hji : j = i <;> by_cases hki : k = i
    · rw [hji, hki]
    · rw [hji, Function.update_self] at hj
      rw [Function.update_of_ne hki, ← hj] at hk
      exact absurd hk (hnobody k)
    · rw [hki, Function.update_self] at hk
      rw [Function.update_of_ne hji, ← hk] at hj
      exact absurd hj (hnobody j)
    · rw [Function.update_of_ne hji] at hj
      rw [Function.update_of_ne hki] at hk
      exact hreservation.once j k other hj hk

/-- A holder gives up its own key, and nobody else's. -/
theorem release (hreservation : Reservation reserved holder) (hi : holder i = some key) :
    Reservation (reserved.erase key) (Function.update holder i none) where
  held := by
    intro other
    rw [Finset.mem_erase, hreservation.held other]
    constructor
    · rintro ⟨hne, j, hj⟩
      refine ⟨j, ?_⟩
      rw [Function.update_of_ne, hj]
      rintro rfl
      exact hne (Option.some.inj (hj.symm.trans hi))
    · rintro ⟨j, hj⟩
      by_cases hji : j = i
      · rw [hji, Function.update_self] at hj
        contradiction
      · rw [Function.update_of_ne hji] at hj
        refine ⟨?_, j, hj⟩
        rintro rfl
        exact hji (hreservation.once j i other hj hi)
  once := by
    intro j k other hj hk
    by_cases hji : j = i
    · rw [hji, Function.update_self] at hj
      contradiction
    · by_cases hki : k = i
      · rw [hki, Function.update_self] at hk
        contradiction
      · rw [Function.update_of_ne hji] at hj
        rw [Function.update_of_ne hki] at hk
        exact hreservation.once j k other hj hk

end Reservation

/-
Tables whose entries stay as first written, until a key is written anew.
-/
import VeraKey.History

namespace Pinned

universe u v

variable {κ : Type u} {ν : Type v}

/-- An entry that replaces what a key has, or one for a key that has none. -/
inductive Write (κ : Type u) (ν : Type v)
  | anew (key : κ) (entry : Option ν)
  | first (key : κ) (entry : ν)

variable [DecidableEq κ]

def next (table : κ → Option ν) : Write κ ν → κ → Option ν
  | .anew key entry => Function.update table key entry
  | .first key entry => Function.update table key ((table key).or (some entry))

/-- Each table is the one before with what was written to it. -/
def Follows (tables : ℕ → κ → Option ν) (writes : ℕ → Option (Write κ ν)) : Prop :=
  ∀ n, tables (n + 1) = (writes n).elim (tables n) (next (tables n))

variable {tables : ℕ → κ → Option ν} {writes : ℕ → Option (Write κ ν)} {key : κ} {entry : ν}

/-- An entry outlives a write, unless the write replaces it by another. -/
theorem next_of_some {table : κ → Option ν} {write : Write κ ν} (hentry : table key = some entry)
    (hanew : ∀ value, write = .anew key value → value = some entry) :
    next table write key = some entry := by
  cases write with
  | anew key' value =>
      by_cases hkey : key = key'
      · subst hkey
        rw [next, Function.update_self]
        exact hanew value rfl
      · rw [next, Function.update_of_ne hkey, hentry]
  | first key' value =>
      by_cases hkey : key = key'
      · subst hkey
        rw [next, Function.update_self, hentry, Option.or_some]
        rfl
      · rw [next, Function.update_of_ne hkey, hentry]

theorem Follows.keeps (hfollows : Follows tables writes) {n m : ℕ} (hnm : n ≤ m)
    (hentry : tables n key = some entry)
    (hanew : ∀ i, n ≤ i → i < m → ∀ value, writes i = some (.anew key value) →
      value = some entry) : tables m key = some entry := by
  induction m, hnm using Nat.le_induction with
  | base => exact hentry
  | succ m hnm ih =>
      have hbefore := ih fun i hni him => hanew i hni (Nat.lt_succ_of_lt him)
      rw [hfollows m]
      cases hwrite : writes m with
      | none => exact hbefore
      | some write =>
          apply next_of_some hbefore
          intro value hvalue
          exact hanew m hnm m.lt_succ_self value (by rw [hwrite, hvalue])

/-- The write that brings an entry. -/
theorem write_of_next {table : κ → Option ν} {write : Write κ ν}
    (hbefore : table key ≠ some entry) (hafter : next table write key = some entry) :
    write = .anew key (some entry) ∨ table key = none ∧ write = .first key entry := by
  cases write with
  | anew key' value =>
      by_cases hkey : key = key'
      · subst hkey
        rw [next, Function.update_self] at hafter
        exact .inl (hafter ▸ rfl)
      · rw [next, Function.update_of_ne hkey] at hafter
        exact absurd hafter hbefore
  | first key' value =>
      by_cases hkey : key = key'
      · subst hkey
        rw [next, Function.update_self] at hafter
        cases hheld : table key with
        | none =>
            rw [hheld, Option.none_or] at hafter
            exact .inr ⟨rfl, Option.some.inj hafter ▸ rfl⟩
        | some held =>
            rw [hheld, Option.some_or] at hafter
            exact absurd (hheld.trans hafter) hbefore
      · rw [next, Function.update_of_ne hkey] at hafter
        exact absurd hafter hbefore

/-- An entry is there from the start, or since the write that brought it. -/
theorem Follows.origin (hfollows : Follows tables writes) {n : ℕ}
    (hentry : tables n key = some entry) :
    tables 0 key = some entry ∨
      ∃ k < n, (∀ m, k < m → m ≤ n → tables m key = some entry) ∧
        (writes k = some (.anew key (some entry)) ∨
          tables k key = none ∧ writes k = some (.first key entry)) := by
  by_cases hstart : tables 0 key = some entry
  · exact .inl hstart
  · obtain ⟨k, -, hkn, hk, hsince⟩ :=
      History.exists_last_rise (p := fun m => tables m key = some entry) n.zero_le hstart hentry
    refine .inr ⟨k, hkn, hsince, ?_⟩
    have hnext := hsince (k + 1) k.lt_succ_self hkn
    rw [hfollows k] at hnext
    cases hwrite : writes k with
    | none =>
        rw [hwrite] at hnext
        exact absurd hnext hk
    | some write =>
        rw [hwrite] at hnext
        rcases write_of_next hk hnext with rfl | ⟨hnone, rfl⟩
        · exact .inl rfl
        · exact .inr ⟨hnone, rfl⟩

end Pinned

/-
Stores of claims: a key is claimed for a while or for good, by at most one of those who
ask for it, and may be released.  What a store does is said by the keys it has at each
time, so that how it forgets old entries does not matter.
-/
import Mathlib

universe u v w

/-- A store of claims over the keys `κ`.  Times are in milliseconds and lifetimes, where a
claim has one, in seconds. -/
structure ClaimStore (κ : Type u) where
  State : Type v
  empty : State
  /-- Whether the key was free, and the store after it. -/
  claim : State → (now : ℤ) → κ → (ttlSeconds : Option ℤ) → Bool × State
  release : State → κ → State
  has : State → (now : ℤ) → κ → Bool
  has_empty : ∀ now key, has empty now key = false
  /-- No key appears by itself. -/
  has_of_le : ∀ s now t key, now ≤ t → has s t key = true → has s now key = true
  claim_fst : ∀ s now key ttlSeconds, (claim s now key ttlSeconds).1 = !has s now key
  claim_of_has : ∀ s now key ttlSeconds, has s now key = true →
    (claim s now key ttlSeconds).2 = s
  has_claim : ∀ s now key ttlSeconds t, has s now key = false → now ≤ t →
    has (claim s now key ttlSeconds).2 t key = ttlSeconds.all fun ttl => t < now + ttl * 1000
  has_claim_of_ne : ∀ s now key ttlSeconds t other, other ≠ key → now ≤ t →
    has (claim s now key ttlSeconds).2 t other = has s t other
  has_release : ∀ s key t, has (release s key) t key = false
  has_release_of_ne : ∀ s key t other, other ≠ key → has (release s key) t other = has s t other

namespace ClaimStore

variable {κ : Type u} (store : ClaimStore.{u, v} κ)

/-- The store has the key from `now` on, before it may end. -/
def HeldUntil (s : store.State) (now : ℤ) (ending : WithTop ℤ) (key : κ) : Prop :=
  ∀ t : ℤ, now ≤ t → (t : WithTop ℤ) < ending → store.has s t key = true

/-- What a store is asked to change. -/
inductive Change (κ : Type u)
  | claim (key : κ) (ttlSeconds : Option ℤ)
  | release (key : κ)

/-- The store after a change. -/
def change (s : store.State) (now : ℤ) : Change κ → store.State
  | .claim key ttlSeconds => (store.claim s now key ttlSeconds).2
  | .release key => store.release s key

variable {store} {s : store.State} {now t : ℤ} {ending : WithTop ℤ} {key : κ}

theorem HeldUntil.has (hheld : store.HeldUntil s now ending key)
    (hnow : (now : WithTop ℤ) < ending) : store.has s now key = true :=
  hheld now le_rfl hnow

/-- Time passes. -/
theorem HeldUntil.wait (hheld : store.HeldUntil s now ending key) (hle : now ≤ t) :
    store.HeldUntil s t ending key := by
  intro t' ht' hending
  exact hheld t' (hle.trans ht') hending

/-- A claim that goes through holds its key for its lifetime. -/
theorem heldUntil_claim {ttlSeconds : Option ℤ} (hfree : store.has s now key = false)
    (hending : ∀ ttl, ttlSeconds = some ttl → ending ≤ ((now + ttl * 1000 : ℤ) : WithTop ℤ)) :
    store.HeldUntil (store.claim s now key ttlSeconds).2 now ending key := by
  intro t ht hlt
  rw [store.has_claim s now key ttlSeconds t hfree ht]
  cases ttlSeconds with
  | none => rfl
  | some ttl => exact decide_eq_true (WithTop.coe_lt_coe.mp (hlt.trans_le (hending ttl rfl)))

/-- Only a release of its own key ends a claim early. -/
theorem HeldUntil.change (hheld : store.HeldUntil s now ending key) {c : Change κ}
    (hother : c ≠ .release key) : store.HeldUntil (store.change s now c) now ending key := by
  intro t ht hlt
  have hhas := hheld t ht hlt
  cases c with
  | claim other ttlSeconds =>
      by_cases hsame : other = key
      · subst hsame
        have hnow := hheld now le_rfl ((WithTop.coe_le_coe.mpr ht).trans_lt hlt)
        rwa [ClaimStore.change, store.claim_of_has s now other ttlSeconds hnow]
      · rwa [ClaimStore.change,
          store.has_claim_of_ne s now other ttlSeconds t key (Ne.symm hsame) ht]
  | release other =>
      have hne : key ≠ other := by
        intro hsame
        exact hother (hsame ▸ rfl)
      rwa [ClaimStore.change, store.has_release_of_ne s other t key hne]

/-- A key that the store has after a change was there before, or is what was claimed. -/
theorem has_of_has_change {c : Change κ}
    (hhas : store.has (store.change s now c) now key = true) :
    store.has s now key = true ∨ ∃ ttlSeconds, c = .claim key ttlSeconds := by
  cases c with
  | claim other ttlSeconds =>
      by_cases hsame : key = other
      · exact Or.inr ⟨ttlSeconds, hsame ▸ rfl⟩
      · rw [ClaimStore.change,
          store.has_claim_of_ne s now other ttlSeconds now key hsame le_rfl] at hhas
        exact Or.inl hhas
  | release other =>
      have hne : key ≠ other := by
        intro hsame
        rw [ClaimStore.change, hsame, store.has_release] at hhas
        contradiction
      rw [ClaimStore.change, store.has_release_of_ne s other now key hne] at hhas
      exact Or.inl hhas

/-! ## Jobs that hold keys for good -/

variable (store) in
/-- The jobs of `holder` hold different keys, each claimed for good, and so is every key of
their kind that the store has. -/
structure Exclusive {ι : Type w} (kind : κ → Prop) (s : store.State) (now : ℤ)
    (holder : ι → Option κ) : Prop where
  kind_of_holder : ∀ i key, holder i = some key → kind key
  has_of_holder : ∀ i key, holder i = some key → store.has s now key = true
  once : ∀ i j key, holder i = some key → holder j = some key → i = j
  lasting : ∀ key, kind key → store.has s now key = true → store.HeldUntil s now ⊤ key

namespace Exclusive

variable {ι : Type w} {kind : κ → Prop} {holder : ι → Option κ} {ttlSeconds : Option ℤ}

theorem empty (now : ℤ) : store.Exclusive kind store.empty now fun _ : ι => none where
  kind_of_holder := nofun
  has_of_holder := nofun
  once := nofun
  lasting := by
    intro key _ hhas
    rw [store.has_empty] at hhas
    contradiction

theorem wait (hold : store.Exclusive kind s now holder) (hle : now ≤ t) :
    store.Exclusive kind s t holder where
  kind_of_holder := hold.kind_of_holder
  has_of_holder := by
    intro i key hi
    have hlasting := hold.lasting key (hold.kind_of_holder i key hi) (hold.has_of_holder i key hi)
    exact hlasting t hle (WithTop.coe_lt_top t)
  once := hold.once
  lasting := by
    intro key hkind hhas
    exact (hold.lasting key hkind (store.has_of_le s now t key hle hhas)).wait hle

/-- A claim of another kind of key. -/
theorem claim_other (hold : store.Exclusive kind s now holder) (hkey : ¬ kind key) :
    store.Exclusive kind (store.claim s now key ttlSeconds).2 now holder := by
  have hsame : ∀ other, kind other → ∀ t, now ≤ t →
      store.has (store.claim s now key ttlSeconds).2 t other = store.has s t other := by
    intro other hother t hle
    exact store.has_claim_of_ne s now key ttlSeconds t other
      (fun heq => hkey (heq ▸ hother)) hle
  constructor
  · exact hold.kind_of_holder
  · intro i other hi
    rw [hsame other (hold.kind_of_holder i other hi) now le_rfl]
    exact hold.has_of_holder i other hi
  · exact hold.once
  · intro other hother hhas t hle hlt
    rw [hsame other hother now le_rfl] at hhas
    rw [hsame other hother t hle]
    exact hold.lasting other hother hhas t hle hlt

/-- A claim for good, by nobody who stays to hold it. -/
theorem claim_lasting (hold : store.Exclusive kind s now holder) (key : κ) :
    store.Exclusive kind (store.claim s now key none).2 now holder := by
  have hmono : ∀ other, store.has s now other = true →
      store.has (store.claim s now key none).2 now other = true := by
    intro other hhas
    by_cases hsame : other = key
    · subst hsame
      rwa [store.claim_of_has s now other none hhas]
    · rwa [store.has_claim_of_ne s now key none now other hsame le_rfl]
  constructor
  · exact hold.kind_of_holder
  · intro i other hi
    exact hmono other (hold.has_of_holder i other hi)
  · exact hold.once
  · intro other hother hhas
    cases hbefore : store.has s now other with
    | true =>
        exact (hold.lasting other hother hbefore).change (c := .claim key none) (by simp)
    | false =>
        have hsame : other = key := by
          by_contra hne
          rw [store.has_claim_of_ne s now key none now other hne le_rfl, hbefore] at hhas
          contradiction
        subst hsame
        exact heldUntil_claim hbefore (by simp)

variable [DecidableEq ι] {i : ι}

/-- A job that holds nothing claims a free key. -/
theorem claim (hold : store.Exclusive kind s now holder) (hkey : kind key)
    (hfree : store.has s now key = false) :
    store.Exclusive kind (store.claim s now key none).2 now
      (Function.update holder i (some key)) := by
  have hlasting := hold.claim_lasting key
  have hnobody : ∀ j, holder j ≠ some key := by
    intro j hj
    rw [hold.has_of_holder j key hj] at hfree
    contradiction
  constructor
  · intro j other hj
    by_cases hji : j = i
    · subst hji
      rw [Function.update_self] at hj
      exact Option.some.inj hj ▸ hkey
    · rw [Function.update_of_ne hji] at hj
      exact hold.kind_of_holder j other hj
  · intro j other hj
    by_cases hji : j = i
    · subst hji
      rw [Function.update_self] at hj
      rw [← Option.some.inj hj, store.has_claim s now key none now hfree le_rfl]
      rfl
    · rw [Function.update_of_ne hji] at hj
      exact hlasting.has_of_holder j other hj
  · intro j k other hj hk
    by_cases hji : j = i <;> by_cases hki : k = i
    · rw [hji, hki]
    · rw [hji, Function.update_self] at hj
      rw [Function.update_of_ne hki, ← hj] at hk
      exact absurd hk (hnobody k)
    · rw [hki, Function.update_self] at hk
      rw [Function.update_of_ne hji, ← hk] at hj
      exact absurd hj (hnobody j)
    · rw [Function.update_of_ne hji] at hj
      rw [Function.update_of_ne hki] at hk
      exact hold.once j k other hj hk
  · exact hlasting.lasting

/-- A job ends and leaves its claim in the store. -/
theorem leave (hold : store.Exclusive kind s now holder) :
    store.Exclusive kind s now (Function.update holder i none) := by
  have hother : ∀ j other, Function.update holder i none j = some other →
      holder j = some other := by
    intro j other hj
    by_cases hji : j = i
    · rw [hji, Function.update_self] at hj
      contradiction
    · rwa [Function.update_of_ne hji] at hj
  constructor
  · intro j other hj
    exact hold.kind_of_holder j other (hother j other hj)
  · intro j other hj
    exact hold.has_of_holder j other (hother j other hj)
  · intro j k other hj hk
    exact hold.once j k other (hother j other hj) (hother k other hk)
  · exact hold.lasting

/-- A job releases what it holds. -/
theorem release (hold : store.Exclusive kind s now holder) (hi : holder i = some key) :
    store.Exclusive kind (store.release s key) now (Function.update holder i none) := by
  have hleft := hold.leave (i := i)
  constructor
  · exact hleft.kind_of_holder
  · intro j other hj
    have hne : other ≠ key := by
      intro heq
      by_cases hji : j = i
      · rw [hji, Function.update_self] at hj
        contradiction
      · rw [Function.update_of_ne hji, heq] at hj
        exact hji (hold.once j i key hj hi)
    rw [store.has_release_of_ne s key now other hne]
    exact hleft.has_of_holder j other hj
  · exact hleft.once
  · intro other hother hhas
    by_cases hne : other = key
    · rw [hne, store.has_release] at hhas
      contradiction
    · rw [store.has_release_of_ne s key now other hne] at hhas
      intro t hle hlt
      rw [store.has_release_of_ne s key t other hne]
      exact hold.lasting other hother hhas t hle hlt

end Exclusive

variable (store) in
/-- Every key of a kind that the store has is some job's. -/
def Covered {ι : Type w} (kind : κ → Prop) (s : store.State) (now : ℤ) (holder : ι → Option κ) :
    Prop :=
  ∀ key, kind key → store.has s now key = true → ∃ i, holder i = some key

namespace Covered

variable {ι : Type w} {kind : κ → Prop} {holder : ι → Option κ} {ttlSeconds : Option ℤ}

theorem empty (now : ℤ) : store.Covered kind store.empty now fun _ : ι => none := by
  intro key _ hhas
  rw [store.has_empty] at hhas
  contradiction

theorem wait (hcovered : store.Covered kind s now holder) (hle : now ≤ t) :
    store.Covered kind s t holder := by
  intro key hkind hhas
  exact hcovered key hkind (store.has_of_le s now t key hle hhas)

theorem claim_other (hcovered : store.Covered kind s now holder) (hkey : ¬ kind key) :
    store.Covered kind (store.claim s now key ttlSeconds).2 now holder := by
  intro other hother hhas
  have hne : other ≠ key := fun heq => hkey (heq ▸ hother)
  rw [store.has_claim_of_ne s now key ttlSeconds now other hne le_rfl] at hhas
  exact hcovered other hother hhas

variable [DecidableEq ι] {i : ι}

theorem claim (hcovered : store.Covered kind s now holder) (hi : holder i = none) :
    store.Covered kind (store.claim s now key ttlSeconds).2 now
      (Function.update holder i (some key)) := by
  intro other hother hhas
  by_cases hne : other = key
  · subst hne
    exact ⟨i, Function.update_self i (some other) holder⟩
  · rw [store.has_claim_of_ne s now key ttlSeconds now other hne le_rfl] at hhas
    obtain ⟨j, hj⟩ := hcovered other hother hhas
    have hji : j ≠ i := by
      intro heq
      rw [heq, hi] at hj
      contradiction
    exact ⟨j, (Function.update_of_ne hji (some key) holder).trans hj⟩

theorem release (hcovered : store.Covered kind s now holder) (hi : holder i = some key) :
    store.Covered kind (store.release s key) now (Function.update holder i none) := by
  intro other hother hhas
  have hne : other ≠ key := by
    intro heq
    rw [heq, store.has_release] at hhas
    contradiction
  rw [store.has_release_of_ne s key now other hne] at hhas
  obtain ⟨j, hj⟩ := hcovered other hother hhas
  have hji : j ≠ i := by
    intro heq
    rw [heq, hi] at hj
    exact hne (Option.some.inj hj).symm
  exact ⟨j, (Function.update_of_ne hji none holder).trans hj⟩

end Covered

end ClaimStore

/-
Every sequence of calls of one rate limiter: what a window grants, when the next one opens,
and what any stretch of time as long as a window can be granted.
-/
import VeraKey.RateLimiter

namespace VeraKey

namespace Relay

universe u

/-- Calls of `take` for any keys, at times that never go back. -/
structure RateCalls (κ : Type u) where
  limit : ℚ
  windowMs : ℤ
  time : ℕ → ℤ
  key : ℕ → κ
  weight : ℕ → ℚ
  time_mono : Monotone time
  weight_nonneg : ∀ n, 0 ≤ weight n

namespace RateCalls

variable {κ : Type u} [DecidableEq κ] (calls : RateCalls κ)

/-- The limiter before the call `n`. -/
def after : ℕ → RateLimiter κ
  | 0 => .fresh calls.limit calls.windowMs
  | n + 1 => ((after n).take (calls.time n) (calls.key n) (calls.weight n)).2

def granted (n : ℕ) : Bool :=
  ((calls.after n).take (calls.time n) (calls.key n) (calls.weight n)).1

/-- The call opens a window for its key. -/
def opens (n : ℕ) : Bool :=
  calls.granted n && ((calls.after n).live? (calls.time n) (calls.key n)).isNone

/-- The weights granted to a key by the calls from `first` to before `last`. -/
def total (key : κ) (first last : ℕ) : ℚ :=
  ∑ i ∈ Finset.Ico first last with calls.key i = key ∧ calls.granted i = true, calls.weight i

/-- Those that were granted from `start` to before `start + windowMs`. -/
def totalFrom (key : κ) (start : ℤ) (last : ℕ) : ℚ :=
  ∑ i ∈ Finset.range last with (calls.key i = key ∧ calls.granted i = true) ∧
    start ≤ calls.time i ∧ calls.time i < start + calls.windowMs, calls.weight i

/-- The call that opened the key's last window. -/
def opening : ℕ → κ → Option ℕ
  | 0, _ => none
  | n + 1, key => if calls.opens n = true ∧ calls.key n = key then some n else opening n key

variable {calls} {n m i j : ℕ} {key : κ} {window : RateWindow} {start : ℤ}

theorem after_succ : calls.after (n + 1) =
    ((calls.after n).take (calls.time n) (calls.key n) (calls.weight n)).2 := rfl

theorem limit_after (n : ℕ) : (calls.after n).limit = calls.limit := by
  induction n with
  | zero => rfl
  | succ n ih => exact RateLimiter.limit_take.trans ih

theorem windowMs_after (calls : RateCalls κ) (n : ℕ) : (calls.after n).windowMs = calls.windowMs := by
  induction n with
  | zero => rfl
  | succ n ih => exact RateLimiter.windowMs_take.trans ih

theorem total_self : calls.total key n n = 0 := by
  rw [total, Finset.Ico_self, Finset.filter_empty, Finset.sum_empty]

theorem total_succ (hle : i ≤ n) : calls.total key i (n + 1) =
    calls.total key i n +
      if calls.key n = key ∧ calls.granted n = true then calls.weight n else 0 := by
  rw [total, total, Finset.sum_filter, Finset.sum_filter, Finset.sum_Ico_succ_top hle]

theorem totalFrom_succ : calls.totalFrom key start (n + 1) = calls.totalFrom key start n +
    if (calls.key n = key ∧ calls.granted n = true) ∧
      start ≤ calls.time n ∧ calls.time n < start + calls.windowMs then calls.weight n else 0 := by
  rw [totalFrom, totalFrom, Finset.sum_filter, Finset.sum_filter, Finset.sum_range_succ]

theorem opening_succ_of_opens (hopens : calls.opens n = true) (hkey : calls.key n = key) :
    calls.opening (n + 1) key = some n :=
  if_pos ⟨hopens, hkey⟩

theorem opening_succ_of_not (hnot : ¬ (calls.opens n = true ∧ calls.key n = key)) :
    calls.opening (n + 1) key = calls.opening n key :=
  if_neg hnot

/-! ## One call -/

/-- A refused call changes no window. -/
theorem after_succ_of_refused (hrefused : calls.granted n = false) :
    calls.after (n + 1) = calls.after n :=
  RateLimiter.take_snd_of_refused hrefused

/-- Where a window of the limiter is after a call: it is as it was, or it was over. -/
theorem lookup_of_ne (hkey : key ≠ calls.key n) :
    (calls.after (n + 1)).windows.lookup key = (calls.after n).windows.lookup key ∨
      (calls.after (n + 1)).windows.lookup key = none ∧
        ∀ window, (calls.after n).windows.lookup key = some window →
          window.start + calls.windowMs ≤ calls.time n := by
  cases hgranted : calls.granted n with
  | false =>
      rw [after_succ_of_refused hgranted]
      exact .inl rfl
  | true =>
      let opened := (calls.after n).windows.insert (calls.key n) ⟨calls.time n, calls.weight n⟩
      rw [after_succ]
      rcases RateLimiter.take_cases hgranted with ⟨window, hlive, -, htake⟩ | ⟨hlive, -, htake⟩
      · rw [htake]
        exact .inl (AList.lookup_insert_ne hkey)
      · rw [htake]
        rcases RateLimiter.lookup_sweep { calls.after n with windows := opened }
          (calls.time n) key with hsame | ⟨hnone, hover⟩
        · exact .inl (hsame.trans (AList.lookup_insert_ne hkey))
        · refine .inr ⟨hnone, ?_⟩
          intro window hwindow
          have hended := hover window ((AList.lookup_insert_ne hkey).trans hwindow)
          rwa [← windowMs_after calls n]

/-- A granted call that opens no window counts in the one that is live. -/
theorem lookup_of_granted (hgranted : calls.granted n = true) (hopens : calls.opens n = false) :
    ∃ window, (calls.after n).windows.lookup (calls.key n) = some window ∧
      window.count + calls.weight n ≤ calls.limit ∧
      (calls.after (n + 1)).windows.lookup (calls.key n) =
        some ⟨window.start, window.count + calls.weight n⟩ := by
  rcases RateLimiter.take_cases hgranted with ⟨window, hlive, hle, htake⟩ | ⟨hlive, -, -⟩
  · refine ⟨window, (RateLimiter.live?_eq_some.mp hlive).1, ?_, ?_⟩
    · rwa [limit_after] at hle
    · rw [after_succ, htake]
      exact AList.lookup_insert _
  · rw [opens, hgranted, hlive] at hopens
    contradiction

/-- A call that opens a window starts it with its own weight, and the one before was over. -/
theorem lookup_of_opens (hopens : calls.opens n = true) :
    (∀ window, (calls.after n).windows.lookup (calls.key n) = some window →
      window.start + calls.windowMs ≤ calls.time n) ∧
    calls.weight n ≤ calls.limit ∧
    ((calls.after (n + 1)).windows.lookup (calls.key n) =
        some ⟨calls.time n, calls.weight n⟩ ∨
      (calls.after (n + 1)).windows.lookup (calls.key n) = none ∧
        calls.time n + calls.windowMs ≤ calls.time n) := by
  obtain ⟨hgranted, hnone⟩ := Bool.and_eq_true_iff.mp hopens
  have hlive := Option.isNone_iff_eq_none.mp hnone
  rcases RateLimiter.take_cases hgranted with ⟨window, hsome, -, -⟩ | ⟨-, hle, htake⟩
  · rw [hsome] at hlive
    contradiction
  · rw [limit_after] at hle
    refine ⟨?_, hle, ?_⟩
    · intro window hwindow
      rw [← windowMs_after calls n]
      exact RateLimiter.over_of_live?_eq_none hlive hwindow
    · let opened := (calls.after n).windows.insert (calls.key n) ⟨calls.time n, calls.weight n⟩
      rw [after_succ, htake]
      rcases RateLimiter.lookup_sweep { calls.after n with windows := opened }
        (calls.time n) (calls.key n) with hsame | ⟨hdropped, hover⟩
      · exact .inl (hsame.trans (AList.lookup_insert _))
      · refine .inr ⟨hdropped, ?_⟩
        rw [← windowMs_after calls n]
        exact hover _ (AList.lookup_insert _)

/-- Neither a call for another key nor the sweep touches a live window. -/
theorem live_of_ne (hkey : key ≠ calls.key n)
    (hlive : (calls.after n).live? (calls.time n) key = some window) :
    (calls.after (n + 1)).windows.lookup key = some window := by
  obtain ⟨hwindow, hopen⟩ := RateLimiter.live?_eq_some.mp hlive
  rw [windowMs_after] at hopen
  rcases lookup_of_ne hkey with hsame | ⟨-, hover⟩
  · exact hsame.trans hwindow
  · have hended := hover window hwindow
    omega

end RateCalls

/-! ## The windows of a key -/

/-- The limiter has the last window that opened for the key, unless it is over. -/
structure WindowKept {κ : Type u} [DecidableEq κ] (calls : RateCalls κ) (n : ℕ) (key : κ)
    (i : ℕ) : Prop where
  before : i < n
  key_eq : calls.key i = key
  within : calls.total key i n ≤ calls.limit
  kept : (calls.after n).windows.lookup key = some ⟨calls.time i, calls.total key i n⟩ ∨
    (calls.after n).windows.lookup key = none ∧ calls.time i + calls.windowMs ≤ calls.time n

namespace RateCalls

variable {κ : Type u} [DecidableEq κ] {calls : RateCalls κ} {n m i j : ℕ} {key : κ}
variable {window : RateWindow} {start : ℤ}

/-- What the limiter has for a key is its last window. -/
def Counts (calls : RateCalls κ) (n : ℕ) (key : κ) : Prop :=
  match calls.opening n key with
  | none => (calls.after n).windows.lookup key = none
  | some i => WindowKept calls n key i

theorem counts_of_some (hopening : calls.opening n key = some i)
    (hcounts : calls.Counts n key) : WindowKept calls n key i := by
  rw [Counts, hopening] at hcounts
  exact hcounts

theorem counts_of_none (hopening : calls.opening n key = none)
    (hcounts : calls.Counts n key) : (calls.after n).windows.lookup key = none := by
  rw [Counts, hopening] at hcounts
  exact hcounts

/-- A call that is not granted to the key leaves its window as it is. -/
theorem Counts.other (hcounts : calls.Counts n key)
    (hother : ¬ (calls.key n = key ∧ calls.granted n = true)) : calls.Counts (n + 1) key := by
  have hopens : ¬ (calls.opens n = true ∧ calls.key n = key) := by
    rintro ⟨hopens, hkey⟩
    exact hother ⟨hkey, (Bool.and_eq_true_iff.mp hopens).1⟩
  have hlookup : (calls.after (n + 1)).windows.lookup key =
      (calls.after n).windows.lookup key ∨
      (calls.after (n + 1)).windows.lookup key = none ∧
        ∀ window, (calls.after n).windows.lookup key = some window →
          window.start + calls.windowMs ≤ calls.time n := by
    by_cases hkey : key = calls.key n
    · have hrefused : calls.granted n = false :=
        Bool.not_eq_true _ ▸ fun hgranted => hother ⟨hkey.symm, hgranted⟩
      rw [after_succ_of_refused hrefused]
      exact .inl rfl
    · exact lookup_of_ne hkey
  have hlater := calls.time_mono (Nat.le_succ n)
  rw [Counts, opening_succ_of_not hopens]
  cases hopening : calls.opening n key with
  | none =>
      have hnone := counts_of_none hopening hcounts
      rcases hlookup with hsame | ⟨hdropped, -⟩
      · exact hsame.trans hnone
      · exact hdropped
  | some i =>
      obtain ⟨hbefore, hkey, hwithin, hkept⟩ := counts_of_some hopening hcounts
      have htotal : calls.total key i (n + 1) = calls.total key i n := by
        rw [total_succ hbefore.le, if_neg hother, add_zero]
      refine ⟨Nat.lt_succ_of_lt hbefore, hkey, htotal ▸ hwithin, ?_⟩
      rw [htotal]
      rcases hlookup with hsame | ⟨hdropped, hover⟩
      · rw [hsame]
        rcases hkept with hwindow | ⟨hnone, hended⟩
        · exact .inl hwindow
        · exact .inr ⟨hnone, hended.trans hlater⟩
      · refine .inr ⟨hdropped, ?_⟩
        rcases hkept with hwindow | ⟨-, hended⟩
        · exact (hover _ hwindow).trans hlater
        · exact hended.trans hlater

/-- A granted call counts in the key's last window. -/
theorem Counts.counts (hcounts : calls.Counts n (calls.key n))
    (hgranted : calls.granted n = true) (hopens : calls.opens n = false) :
    ∃ i, calls.opening n (calls.key n) = some i ∧ calls.Counts (n + 1) (calls.key n) := by
  obtain ⟨window, hwindow, hle, hlookup⟩ := lookup_of_granted hgranted hopens
  cases hopening : calls.opening n (calls.key n) with
  | none =>
      rw [counts_of_none hopening hcounts] at hwindow
      contradiction
  | some i =>
      obtain ⟨hbefore, hkey, -, hkept⟩ := counts_of_some hopening hcounts
      have htotal : calls.total (calls.key n) i (n + 1) =
          calls.total (calls.key n) i n + calls.weight n := by
        rw [total_succ hbefore.le, if_pos ⟨rfl, hgranted⟩]
      rcases hkept with hlast | ⟨hnone, -⟩
      · obtain rfl := Option.some.inj (hlast.symm.trans hwindow)
        refine ⟨i, rfl, ?_⟩
        rw [Counts, opening_succ_of_not (by simp [hopens]), hopening]
        refine ⟨Nat.lt_succ_of_lt hbefore, hkey, htotal ▸ hle, .inl ?_⟩
        rw [htotal]
        exact hlookup
      · rw [hnone] at hwindow
        contradiction

/-- A call that opens a window makes it the key's last one. -/
theorem counts_of_opens (hopens : calls.opens n = true) :
    calls.Counts (n + 1) (calls.key n) := by
  obtain ⟨-, hle, hlookup⟩ := lookup_of_opens hopens
  have hgranted := (Bool.and_eq_true_iff.mp hopens).1
  have htotal : calls.total (calls.key n) n (n + 1) = calls.weight n := by
    rw [total_succ le_rfl, total_self, zero_add, if_pos ⟨rfl, hgranted⟩]
  rw [Counts, opening_succ_of_opens hopens rfl]
  refine ⟨Nat.lt_succ_self n, rfl, htotal ▸ hle, ?_⟩
  rw [htotal]
  rcases hlookup with hwindow | ⟨hdropped, hover⟩
  · exact .inl hwindow
  · exact .inr ⟨hdropped, hover.trans (calls.time_mono (Nat.le_succ n))⟩

theorem counts_after (n : ℕ) (key : κ) : calls.Counts n key := by
  induction n with
  | zero => rfl
  | succ n ih =>
      by_cases hother : calls.key n = key ∧ calls.granted n = true
      · obtain ⟨rfl, hgranted⟩ := hother
        cases hopens : calls.opens n with
        | true => exact counts_of_opens hopens
        | false =>
            obtain ⟨-, -, hcounts⟩ := ih.counts hgranted hopens
            exact hcounts
      · exact ih.other hother

/-! ## When windows open -/

theorem exists_opening (hlt : i < n) (hopens : calls.opens i = true)
    (hkey : calls.key i = key) : ∃ last, i ≤ last ∧ calls.opening n key = some last := by
  induction n with
  | zero => exact absurd hlt (Nat.not_lt_zero i)
  | succ n ih =>
      by_cases hlast : calls.opens n = true ∧ calls.key n = key
      · exact ⟨n, Nat.lt_succ_iff.mp hlt, opening_succ_of_opens hlast.1 hlast.2⟩
      · rw [opening_succ_of_not hlast]
        rcases Nat.lt_succ_iff_lt_or_eq.mp hlt with hbefore | rfl
        · exact ih hbefore
        · exact absurd ⟨hopens, hkey⟩ hlast

theorem opening_eq_of_last (hlt : i < n) (hopens : calls.opens i = true)
    (hkey : calls.key i = key)
    (hlast : ∀ j, i < j → j < n → ¬ (calls.opens j = true ∧ calls.key j = key)) :
    calls.opening n key = some i := by
  induction n with
  | zero => exact absurd hlt (Nat.not_lt_zero i)
  | succ n ih =>
      rcases Nat.lt_succ_iff_lt_or_eq.mp hlt with hbefore | rfl
      · rw [opening_succ_of_not (hlast n hbefore (Nat.lt_succ_self n))]
        exact ih hbefore fun j hj hjn => hlast j hj (Nat.lt_succ_of_lt hjn)
      · exact opening_succ_of_opens hopens hkey

/-- When a key's window opens, its last one is over. -/
theorem over_of_opens (hopens : calls.opens n = true)
    (hopening : calls.opening n (calls.key n) = some i) :
    calls.time i + calls.windowMs ≤ calls.time n := by
  obtain ⟨-, -, -, hkept⟩ := counts_of_some hopening (counts_after n (calls.key n))
  rcases hkept with hwindow | ⟨-, hended⟩
  · exact (lookup_of_opens hopens).1 _ hwindow
  · exact hended

theorem windowMs_le_of_opens (hlt : i < j) (hi : calls.opens i = true)
    (hj : calls.opens j = true) (hkey : calls.key i = calls.key j) :
    calls.time i + calls.windowMs ≤ calls.time j := by
  obtain ⟨last, hle, hlast⟩ := exists_opening hlt hi hkey
  have hover := over_of_opens hj hlast
  have hmono := calls.time_mono hle
  omega

/-- A call granted with no window before it opens one. -/
theorem opens_of_opening_eq_none (hgranted : calls.granted n = true)
    (hopening : calls.opening n (calls.key n) = none) : calls.opens n = true := by
  have hnone := counts_of_none hopening (counts_after n (calls.key n))
  rw [opens, hgranted, RateLimiter.live?, hnone]
  rfl

/-! ## Any stretch of time -/

/-- What the key's last window was granted. -/
def carried (calls : RateCalls κ) (n : ℕ) (key : κ) : ℚ :=
  ((calls.opening n key).map fun i => calls.total key i n).getD 0

theorem carried_of_some (hopening : calls.opening n key = some i) :
    calls.carried n key = calls.total key i n := by
  rw [carried, hopening, Option.map_some, Option.getD_some]

theorem carried_of_none (hopening : calls.opening n key = none) : calls.carried n key = 0 := by
  rw [carried, hopening, Option.map_none, Option.getD_none]

theorem carried_le (n : ℕ) (key : κ) : calls.carried n key ≤ max calls.limit 0 := by
  cases hopening : calls.opening n key with
  | none => exact (carried_of_none hopening).trans_le (le_max_right _ _)
  | some i =>
      rw [carried_of_some hopening]
      exact (counts_of_some hopening (counts_after n key)).within.trans (le_max_left _ _)

theorem carried_of_other (hother : ¬ (calls.key n = key ∧ calls.granted n = true)) :
    calls.carried (n + 1) key = calls.carried n key := by
  have hopens : ¬ (calls.opens n = true ∧ calls.key n = key) := by
    rintro ⟨hopens, hkey⟩
    exact hother ⟨hkey, (Bool.and_eq_true_iff.mp hopens).1⟩
  have hsame := opening_succ_of_not hopens
  cases hopening : calls.opening n key with
  | none => rw [carried_of_none hopening, carried_of_none (hsame.trans hopening)]
  | some i =>
      have hbefore := (counts_of_some hopening (counts_after n key)).before
      rw [carried_of_some hopening, carried_of_some (hsame.trans hopening),
        total_succ hbefore.le, if_neg hother, add_zero]

theorem carried_of_granted (hgranted : calls.granted n = true)
    (hopens : calls.opens n = false) :
    calls.carried (n + 1) (calls.key n) = calls.carried n (calls.key n) + calls.weight n := by
  have hsame : calls.opening (n + 1) (calls.key n) = calls.opening n (calls.key n) :=
    opening_succ_of_not (by simp [hopens])
  cases hopening : calls.opening n (calls.key n) with
  | none =>
      rw [opens_of_opening_eq_none hgranted hopening] at hopens
      contradiction
  | some i =>
      have hbefore := (counts_of_some hopening (counts_after n (calls.key n))).before
      rw [carried_of_some hopening, carried_of_some (hsame.trans hopening),
        total_succ hbefore.le, if_pos ⟨rfl, hgranted⟩]

theorem carried_of_opens (hopens : calls.opens n = true) :
    calls.carried (n + 1) (calls.key n) = calls.weight n := by
  have hgranted := (Bool.and_eq_true_iff.mp hopens).1
  rw [carried_of_some (opening_succ_of_opens hopens rfl), total_succ le_rfl, total_self,
    zero_add, if_pos ⟨rfl, hgranted⟩]

/-- Nothing was granted from `start` before the time came to it. -/
theorem totalFrom_eq_zero (hbefore : calls.time n < start) :
    calls.totalFrom key start n = 0 := by
  rw [totalFrom]
  apply Finset.sum_eq_zero
  intro i hi
  obtain ⟨hi, -, hafter, -⟩ := Finset.mem_filter.mp hi
  have hmono := calls.time_mono (Finset.mem_range.mp hi).le
  omega

theorem totalFrom_of_other (hother : ¬ (calls.key n = key ∧ calls.granted n = true)) :
    calls.totalFrom key start (n + 1) = calls.totalFrom key start n := by
  rw [totalFrom_succ, if_neg fun hin => hother hin.1, add_zero]

theorem totalFrom_of_outside
    (houtside : ¬ (start ≤ calls.time n ∧ calls.time n < start + calls.windowMs)) :
    calls.totalFrom key start (n + 1) = calls.totalFrom key start n := by
  rw [totalFrom_succ, if_neg fun hin => houtside hin.2, add_zero]

theorem totalFrom_succ_le (calls : RateCalls κ) (key : κ) (start : ℤ) (n : ℕ) :
    calls.totalFrom key start (n + 1) ≤ calls.totalFrom key start n + calls.weight n := by
  rw [totalFrom_succ]
  split
  · exact le_rfl
  · exact add_le_add_right (calls.weight_nonneg n) _

/-- What the stretch from `start` was granted: by the last window alone, by it and one
before, or all there is, since the stretch is over. -/
inductive Spent (calls : RateCalls κ) (key : κ) (start : ℤ) (n : ℕ) : Prop
  | last (hle : calls.totalFrom key start n ≤ calls.carried n key)
  | both {i : ℕ} (hopening : calls.opening n key = some i) (hstart : start ≤ calls.time i)
      (hle : calls.totalFrom key start n ≤ max calls.limit 0 + calls.carried n key)
  | closed (hover : start + calls.windowMs ≤ calls.time n)
      (hle : calls.totalFrom key start n ≤ 2 * max calls.limit 0)

namespace Spent

theorem le (hspent : Spent calls key start n) :
    calls.totalFrom key start n ≤ 2 * max calls.limit 0 := by
  have hcarried := calls.carried_le n key
  have hnonneg := le_max_right calls.limit 0
  cases hspent with
  | last hle => linarith
  | both _ _ hle => linarith
  | closed _ hle => exact hle

theorem other (hspent : Spent calls key start n)
    (hother : ¬ (calls.key n = key ∧ calls.granted n = true)) :
    Spent calls key start (n + 1) := by
  have hopens : ¬ (calls.opens n = true ∧ calls.key n = key) := by
    rintro ⟨hopens, hkey⟩
    exact hother ⟨hkey, (Bool.and_eq_true_iff.mp hopens).1⟩
  have htotal : calls.totalFrom key start (n + 1) = calls.totalFrom key start n :=
    totalFrom_of_other hother
  have hcarried := carried_of_other hother
  cases hspent with
  | last hle => exact .last (by rwa [htotal, hcarried])
  | both hopening hstart hle =>
      exact .both ((opening_succ_of_not hopens).trans hopening) hstart
        (by rwa [htotal, hcarried])
  | closed hover hle =>
      exact .closed (hover.trans (calls.time_mono (Nat.le_succ n))) (by rwa [htotal])

/-- A call the last window counts. -/
theorem counts (hspent : Spent calls (calls.key n) start n)
    (hgranted : calls.granted n = true) (hopens : calls.opens n = false) :
    Spent calls (calls.key n) start (n + 1) := by
  have hcarried := carried_of_granted hgranted hopens
  have htotal := calls.totalFrom_succ_le (calls.key n) start n
  cases hspent with
  | last hle =>
      apply Spent.last
      linarith
  | both hopening hstart hle =>
      refine .both ((opening_succ_of_not (by simp [hopens])).trans hopening) hstart ?_
      linarith
  | closed hover hle =>
      refine .closed (hover.trans (calls.time_mono (Nat.le_succ n))) ?_
      rw [totalFrom_of_outside (by omega)]
      exact hle

/-- A call that opens a window: the stretch has not begun, is over, or meets both windows. -/
theorem opened (hspent : Spent calls (calls.key n) start n) (hopens : calls.opens n = true) :
    Spent calls (calls.key n) start (n + 1) := by
  have hbound := hspent.le
  have hcarried := carried_of_opens hopens
  have hnonneg := calls.weight_nonneg n
  by_cases hbegun : start ≤ calls.time n
  · by_cases hover : start + calls.windowMs ≤ calls.time n
    · refine .closed (hover.trans (calls.time_mono (Nat.le_succ n))) ?_
      rw [totalFrom_of_outside (by omega)]
      exact hbound
    · have htotal := calls.totalFrom_succ_le (calls.key n) start n
      have hlast := calls.carried_le n (calls.key n)
      cases hspent with
      | last hle =>
          refine .both (opening_succ_of_opens hopens rfl) hbegun ?_
          linarith
      | both hopening hstart hle =>
          -- the last window opened in the stretch, so this one is after it
          have hended := over_of_opens hopens hopening
          omega
      | closed hended hle => exact absurd hended hover
  · apply Spent.last
    rw [totalFrom_of_outside (by omega), totalFrom_eq_zero (by omega), hcarried]
    exact hnonneg

end Spent

theorem spent (calls : RateCalls κ) (key : κ) (start : ℤ) (n : ℕ) : Spent calls key start n := by
  induction n with
  | zero => exact .last le_rfl
  | succ n ih =>
      by_cases hother : calls.key n = key ∧ calls.granted n = true
      · obtain ⟨rfl, hgranted⟩ := hother
        cases hopens : calls.opens n with
        | true => exact ih.opened hopens
        | false => exact ih.counts hgranted hopens
      · exact ih.other hother

/-- The sweep keeps every live window. -/
theorem lookup_sweep_of_live
    (hlive : (calls.after n).live? (calls.time n) key = some window) :
    ((calls.after n).sweep (calls.time n)).windows.lookup key = some window := by
  obtain ⟨hwindow, hopen⟩ := RateLimiter.live?_eq_some.mp hlive
  rcases RateLimiter.lookup_sweep (calls.after n) (calls.time n) key with hsame | ⟨-, hover⟩
  · exact hsame.trans hwindow
  · have hended := hover window hwindow
    omega

end RateCalls

end Relay

end VeraKey

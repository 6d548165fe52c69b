/-
Fixed-window counters.  A key has one window at a time, which opens with the first request
it counts and counts up to a limit; the next window opens when it is over.
-/
import Mathlib

universe u

structure RateWindow where
  start : ℤ
  count : ℚ
deriving DecidableEq

/-- The counters, by key.  Times are in milliseconds. -/
structure RateLimiter (κ : Type u) where
  limit : ℚ
  windowMs : ℤ
  windows : AList fun _ : κ => RateWindow

namespace RateLimiter

variable {κ : Type u}

def fresh (limit : ℚ) (windowMs : ℤ) : RateLimiter κ := ⟨limit, windowMs, ∅⟩

/-- The windows that count at `now`, when there are too many. -/
def sweep (limiter : RateLimiter κ) (now : ℤ) : RateLimiter κ :=
  if limiter.windows.entries.length < 10000 then limiter
  else { limiter with
    windows := {
      entries := limiter.windows.entries.filter fun entry =>
        now - entry.2.start < limiter.windowMs
      nodupKeys := List.NodupKeys.sublist List.filter_sublist limiter.windows.nodupKeys } }

variable [DecidableEq κ]

/-- The key's window, unless it is over. -/
def live? (limiter : RateLimiter κ) (now : ℤ) (key : κ) : Option RateWindow :=
  (limiter.windows.lookup key).filter fun window => now - window.start < limiter.windowMs

/-- Whether the key may make `weight` more requests now, and the limiter after it. -/
def take (limiter : RateLimiter κ) (now : ℤ) (key : κ) (weight : ℚ) : Bool × RateLimiter κ :=
  match limiter.live? now key with
  | none =>
      if weight > limiter.limit then (false, limiter)
      else
        (true, { limiter with windows := limiter.windows.insert key ⟨now, weight⟩ }.sweep now)
  | some window =>
      if window.count + weight > limiter.limit then (false, limiter)
      else
        (true, { limiter with
          windows := limiter.windows.insert key ⟨window.start, window.count + weight⟩ })

variable {limiter limiter' : RateLimiter κ} {now t : ℤ} {key other : κ} {weight : ℚ}
variable {window : RateWindow}

/-! ## One call -/

/-- A refused call changes nothing. -/
theorem take_snd_of_refused (hrefused : (limiter.take now key weight).1 = false) :
    (limiter.take now key weight).2 = limiter := by
  cases hlive : limiter.live? now key with
  | none =>
      simp only [take, hlive] at hrefused ⊢
      split at hrefused
      · next hover => rw [if_pos hover]
      · contradiction
  | some window =>
      simp only [take, hlive] at hrefused ⊢
      split at hrefused
      · next hover => rw [if_pos hover]
      · contradiction

/-- The key's window has no room for `weight` more. -/
def Exhausted (limiter : RateLimiter κ) (now : ℤ) (key : κ) (weight : ℚ) : Prop :=
  limiter.limit < ((limiter.live? now key).map (·.count)).getD 0 + weight

theorem take_refused_iff :
    (limiter.take now key weight).1 = false ↔ limiter.Exhausted now key weight := by
  cases hlive : limiter.live? now key with
  | none =>
      simp only [take, Exhausted, hlive, Option.map_none, Option.getD_none, zero_add]
      split
      · next hover => exact ⟨fun _ => hover, fun _ => rfl⟩
      · next hroom => exact ⟨nofun, fun hover => absurd hover hroom⟩
  | some window =>
      simp only [take, Exhausted, hlive, Option.map_some, Option.getD_some]
      split
      · next hover => exact ⟨fun _ => hover, fun _ => rfl⟩
      · next hroom => exact ⟨nofun, fun hover => absurd hover hroom⟩

omit [DecidableEq κ] in
theorem limit_sweep : (limiter.sweep now).limit = limiter.limit := by
  rw [sweep]
  split <;> rfl

omit [DecidableEq κ] in
theorem windowMs_sweep : (limiter.sweep now).windowMs = limiter.windowMs := by
  rw [sweep]
  split <;> rfl

theorem limit_take : (limiter.take now key weight).2.limit = limiter.limit := by
  rw [take]
  split
  · split
    · rfl
    · exact limit_sweep
  · split <;> rfl

theorem windowMs_take : (limiter.take now key weight).2.windowMs = limiter.windowMs := by
  rw [take]
  split
  · split
    · rfl
    · exact windowMs_sweep
  · split <;> rfl

/-- The sweep drops windows, and only those that are over. -/
theorem lookup_sweep (limiter : RateLimiter κ) (now : ℤ) (key : κ) :
    (limiter.sweep now).windows.lookup key = limiter.windows.lookup key ∨
    (limiter.sweep now).windows.lookup key = none ∧
      ∀ window, limiter.windows.lookup key = some window →
        window.start + limiter.windowMs ≤ now := by
  rw [sweep]
  split
  · exact .inl rfl
  · generalize hswept : (AList.mk _ _ : AList fun _ : κ => RateWindow) = swept
    have hmem : ∀ window, swept.lookup key = some window ↔
        limiter.windows.lookup key = some window ∧
          now - window.start < limiter.windowMs := by
      intro window
      have hentry : ∀ map : AList fun _ : κ => RateWindow, map.lookup key = some window ↔
          ⟨key, window⟩ ∈ map.entries := fun map => AList.mem_lookup_iff
      rw [hentry, hentry, ← hswept, List.mem_filter, decide_eq_true_iff]
    cases hkept : swept.lookup key with
    | some window => exact .inl ((hmem window).mp hkept).1.symm
    | none =>
        refine .inr ⟨rfl, ?_⟩
        intro window hwindow
        by_contra hlive
        have hfound := (hmem window).mpr ⟨hwindow, by omega⟩
        rw [hkept] at hfound
        contradiction

theorem live?_eq_some : limiter.live? now key = some window ↔
    limiter.windows.lookup key = some window ∧ now - window.start < limiter.windowMs := by
  rw [live?, Option.filter_eq_some_iff, decide_eq_true_iff]

theorem over_of_live?_eq_none (hlive : limiter.live? now key = none)
    (hwindow : limiter.windows.lookup key = some window) :
    window.start + limiter.windowMs ≤ now := by
  by_contra hlt
  rw [live?_eq_some.mpr ⟨hwindow, by omega⟩] at hlive
  contradiction

/-- What a granted call does: it counts in the window that is open, or opens one. -/
theorem take_cases (hgranted : (limiter.take now key weight).1 = true) :
    (∃ window, limiter.live? now key = some window ∧
      window.count + weight ≤ limiter.limit ∧
      (limiter.take now key weight).2 = { limiter with
        windows := limiter.windows.insert key ⟨window.start, window.count + weight⟩ }) ∨
    limiter.live? now key = none ∧ weight ≤ limiter.limit ∧
      (limiter.take now key weight).2 =
        { limiter with windows := limiter.windows.insert key ⟨now, weight⟩ }.sweep now := by
  cases hlive : limiter.live? now key with
  | none =>
      simp only [take, hlive] at hgranted ⊢
      split at hgranted
      · contradiction
      · next hle =>
          rw [if_neg hle]
          exact .inr ⟨trivial, not_lt.mp hle, rfl⟩
  | some window =>
      simp only [take, hlive] at hgranted ⊢
      split at hgranted
      · contradiction
      · next hle =>
          rw [if_neg hle]
          exact .inl ⟨window, rfl, not_lt.mp hle, rfl⟩

/-- A granted call of some weight changes its window. -/
theorem take_snd_ne (hpos : 0 < limiter.windowMs) (hweight : weight ≠ 0)
    (hgranted : (limiter.take now key weight).1 = true) :
    (limiter.take now key weight).2 ≠ limiter := by
  intro hsame
  rcases take_cases hgranted with ⟨window, hlive, -, htake⟩ | ⟨hlive, -, htake⟩
  · have hbefore := (live?_eq_some.mp hlive).1
    have hafter : limiter.windows.lookup key =
        some ⟨window.start, window.count + weight⟩ := by
      rw [← hsame, htake]
      exact AList.lookup_insert _
    have hcount := congrArg RateWindow.count (Option.some.inj (hbefore.symm.trans hafter))
    exact hweight (left_eq_add.mp hcount)
  · have hopened : limiter.windows.lookup key = some ⟨now, weight⟩ := by
      rw [← hsame, htake]
      rcases lookup_sweep { limiter with
        windows := limiter.windows.insert key ⟨now, weight⟩ } now key with
        hkept | ⟨-, hover⟩
      · rw [hkept]
        exact AList.lookup_insert _
      · have hended := hover _ (AList.lookup_insert _)
        dsimp only at hended
        omega
    have hended := over_of_live?_eq_none hlive hopened
    dsimp only at hended
    omega

/-! ## What was granted -/

end RateLimiter

/-- A call that was granted, and when the window that counts it opened. -/
structure Grant (κ : Type u) where
  key : κ
  weight : ℚ
  time : ℤ
  start : ℤ
deriving DecidableEq

namespace RateLimiter

variable {κ : Type u} [DecidableEq κ]

/-- The weights that one window counted. -/
def counted (granted : List (Grant κ)) (key : κ) (start : ℤ) : ℚ :=
  ((granted.filter fun grant => grant.key = key ∧ grant.start = start).map (·.weight)).sum

/-- The weights granted to a key from `start` to before `ending`. -/
def grantedIn (granted : List (Grant κ)) (key : κ) (start ending : ℤ) : ℚ :=
  ((granted.filter fun grant =>
    grant.key = key ∧ start ≤ grant.time ∧ grant.time < ending).map (·.weight)).sum

variable {limiter limiter' : RateLimiter κ} {now t start : ℤ} {key other : κ} {weight : ℚ}
variable {window : RateWindow} {granted : List (Grant κ)} {grant : Grant κ}

theorem counted_cons_self (granted : List (Grant κ)) (grant : Grant κ) (hkey : grant.key = key) (hstart : grant.start = start) :
    counted (grant :: granted) key start = counted granted key start + grant.weight := by
  simp [counted, hkey, hstart, add_comm]

theorem counted_cons_of_ne (hne : ¬ (grant.key = key ∧ grant.start = start)) :
    counted (grant :: granted) key start = counted granted key start := by
  simp only [counted, List.filter_cons, decide_eq_true_eq, hne, if_false]

theorem counted_eq_zero (hnone : ∀ grant ∈ granted, grant.key = key → grant.start ≠ start) :
    counted granted key start = 0 := by
  have hfilter : (granted.filter fun grant => grant.key = key ∧ grant.start = start) = [] := by
    rw [List.filter_eq_nil_iff]
    intro grant hgrant hsame
    obtain ⟨hkey, hstart⟩ := of_decide_eq_true hsame
    exact hnone grant hgrant hkey hstart
  rw [counted, hfilter]
  rfl

/-- The windows count what was granted. -/
structure Accounts (limiter : RateLimiter κ) (granted : List (Grant κ)) (now : ℤ) : Prop where
  inside : ∀ grant ∈ granted, grant.start ≤ grant.time ∧ grant.time ≤ now ∧
    grant.time < grant.start + limiter.windowMs
  apart : ∀ grant ∈ granted, ∀ other ∈ granted, grant.key = other.key →
    grant.start < other.start → grant.start + limiter.windowMs ≤ other.start
  current : ∀ key window, limiter.windows.lookup key = some window →
    window.count = counted granted key window.start ∧
      ∃ grant ∈ granted, grant.key = key ∧ grant.start = window.start
  ended : ∀ grant ∈ granted, grant.start + limiter.windowMs ≤ now ∨
    ∃ window, limiter.windows.lookup grant.key = some window ∧ window.start = grant.start
  within : ∀ grant ∈ granted, counted granted grant.key grant.start ≤ limiter.limit

namespace Accounts

theorem fresh {limit : ℚ} {windowMs : ℤ} :
    (RateLimiter.fresh limit windowMs : RateLimiter κ).Accounts [] now where
  inside := nofun
  apart := nofun
  current := nofun
  ended := nofun
  within := nofun

theorem wait (haccounts : limiter.Accounts granted now) (hle : now ≤ t) :
    limiter.Accounts granted t where
  inside := by
    intro grant hgrant
    obtain ⟨hstart, htime, hover⟩ := haccounts.inside grant hgrant
    exact ⟨hstart, htime.trans hle, hover⟩
  apart := haccounts.apart
  current := haccounts.current
  ended := by
    intro grant hgrant
    rcases haccounts.ended grant hgrant with hover | hwindow
    · exact .inl (hover.trans hle)
    · exact .inr hwindow
  within := haccounts.within

theorem sweep (haccounts : limiter.Accounts granted now) :
    (limiter.sweep now).Accounts granted now := by
  have hdropped : ∀ key window, (limiter.sweep now).windows.lookup key = some window →
      limiter.windows.lookup key = some window := by
    intro key window hwindow
    rcases lookup_sweep limiter now key with hsame | ⟨hnone, -⟩
    · rwa [← hsame]
    · rw [hnone] at hwindow
      contradiction
  constructor
  · rw [windowMs_sweep]
    exact haccounts.inside
  · rw [windowMs_sweep]
    exact haccounts.apart
  · intro key window hwindow
    exact haccounts.current key window (hdropped key window hwindow)
  · intro grant hgrant
    rw [windowMs_sweep]
    rcases haccounts.ended grant hgrant with hover | ⟨window, hwindow, hstart⟩
    · exact .inl hover
    · rcases lookup_sweep limiter now grant.key with
        hsame | ⟨-, hover⟩
      · exact .inr ⟨window, hsame.trans hwindow, hstart⟩
      · exact .inl (hstart ▸ hover window hwindow)
  · rw [limit_sweep]
    exact haccounts.within

/-- A window counts one more call: the one that is open, or one that opens now. -/
theorem count (haccounts : limiter.Accounts granted now) {count : ℚ} (hstart : start ≤ now)
    (hlive : now < start + limiter.windowMs)
    (hcount : count = counted granted key start + weight) (hle : count ≤ limiter.limit)
    (hbefore : ∀ grant ∈ granted, grant.key = key →
      grant.start = start ∨ grant.start + limiter.windowMs ≤ start) :
    ({ limiter with windows := limiter.windows.insert key ⟨start, count⟩ } :
      RateLimiter κ).Accounts (⟨key, weight, now, start⟩ :: granted) now := by
  have hself := counted_cons_self granted ⟨key, weight, now, start⟩ rfl rfl
  have hothers : ∀ {other : κ} {opened : ℤ}, ¬ (key = other ∧ start = opened) →
      counted (⟨key, weight, now, start⟩ :: granted) other opened =
        counted granted other opened := by
    intro other opened hne
    exact counted_cons_of_ne hne
  constructor
  · intro grant hgrant
    rcases List.mem_cons.mp hgrant with rfl | hgrant
    · exact ⟨hstart, le_rfl, hlive⟩
    · exact haccounts.inside grant hgrant
  · intro grant hgrant other hother hkey hlt
    rcases List.mem_cons.mp hgrant with rfl | hgrant <;>
      rcases List.mem_cons.mp hother with rfl | hother
    · exact absurd hlt (lt_irrefl _)
    · -- an older grant is in the window or in one that was over before it
      rcases hbefore other hother hkey.symm with hsame | hover
      · exact absurd hlt (hsame ▸ lt_irrefl _)
      · dsimp only at hlt ⊢
        omega
    · rcases hbefore grant hgrant hkey with hsame | hover
      · exact absurd hlt (hsame ▸ lt_irrefl _)
      · exact hover
    · exact haccounts.apart grant hgrant other hother hkey hlt
  · intro found window hwindow
    by_cases hkey : found = key
    · subst hkey
      obtain rfl := Option.some.inj ((AList.lookup_insert _).symm.trans hwindow)
      exact ⟨hcount.trans hself.symm, _, List.mem_cons_self, rfl, rfl⟩
    · dsimp only at hwindow
      rw [AList.lookup_insert_ne hkey] at hwindow
      obtain ⟨htotal, grant, hgrant, hfound⟩ := haccounts.current found window hwindow
      rw [hothers fun hsame => hkey hsame.1.symm]
      exact ⟨htotal, grant, List.mem_cons_of_mem _ hgrant, hfound⟩
  · intro grant hgrant
    rcases List.mem_cons.mp hgrant with rfl | hgrant
    · exact .inr ⟨_, AList.lookup_insert _, rfl⟩
    · by_cases hkey : grant.key = key
      · rcases hbefore grant hgrant hkey with hsame | hover
        · refine .inr ⟨⟨start, count⟩, ?_, hsame.symm⟩
          rw [hkey]
          exact AList.lookup_insert _
        · exact .inl (hover.trans hstart)
      · rcases haccounts.ended grant hgrant with hover | ⟨window, hwindow, hopened⟩
        · exact .inl hover
        · exact .inr ⟨window, (AList.lookup_insert_ne hkey).trans hwindow, hopened⟩
  · intro grant hgrant
    by_cases hsame : key = grant.key ∧ start = grant.start
    · rw [← hsame.1, ← hsame.2, hself, ← hcount]
      exact hle
    · rcases List.mem_cons.mp hgrant with rfl | hgrant
      · exact absurd ⟨rfl, rfl⟩ hsame
      · rw [hothers hsame]
        exact haccounts.within grant hgrant

/-- A granted call is counted in one window. -/
theorem take (haccounts : limiter.Accounts granted now) (hpos : 0 < limiter.windowMs)
    (hgranted : (limiter.take now key weight).1 = true) :
    ∃ start, (limiter.take now key weight).2.Accounts (⟨key, weight, now, start⟩ :: granted)
      now := by
  rcases take_cases hgranted with ⟨window, hlive, hle, htake⟩ | ⟨hlive, hle, htake⟩
  · rw [htake]
    obtain ⟨hwindow, hopen⟩ := live?_eq_some.mp hlive
    obtain ⟨hcount, opening, hopening, hkey, hstart⟩ := haccounts.current key window hwindow
    obtain ⟨hbegan, hpast, -⟩ := haccounts.inside opening hopening
    refine ⟨window.start, haccounts.count ?_ ?_ ?_ hle ?_⟩
    · exact hstart ▸ hbegan.trans hpast
    · omega
    · rw [hcount]
    · intro grant hgrant hgrantKey
      rcases lt_trichotomy grant.start window.start with hlt | heq | hlt
      · rw [← hstart] at hlt ⊢
        exact .inr (haccounts.apart grant hgrant opening hopening (hgrantKey.trans hkey.symm)
          hlt)
      · exact .inl heq
      · rw [← hstart] at hlt hopen
        have hapart := haccounts.apart opening hopening grant hgrant
          (hkey.trans hgrantKey.symm) hlt
        obtain ⟨hafter, hnow, -⟩ := haccounts.inside grant hgrant
        omega
  · have hbefore : ∀ grant ∈ granted, grant.key = key →
        grant.start + limiter.windowMs ≤ now := by
      intro grant hgrant hkey
      rcases haccounts.ended grant hgrant with hover | ⟨window, hwindow, hstart⟩
      · exact hover
      · exact hstart ▸ over_of_live?_eq_none hlive (hkey ▸ hwindow)
    have hnone : counted granted key now = 0 := by
      apply counted_eq_zero
      intro grant hgrant hkey hsame
      have hover := hbefore grant hgrant hkey
      omega
    rw [htake]
    refine ⟨now, (haccounts.count le_rfl ?_ ?_ hle ?_).sweep⟩
    · omega
    · rw [hnone, zero_add]
    · exact fun grant hgrant hkey => .inr (hbefore grant hgrant hkey)

/-- What is granted now is in a window that is not over. -/
theorem exists_window (haccounts : limiter.Accounts granted now) (hgrant : grant ∈ granted)
    (htime : grant.time = now) :
    ∃ window, limiter.windows.lookup grant.key = some window ∧ window.start ≤ now ∧
      now < window.start + limiter.windowMs := by
  obtain ⟨hbegan, -, hlive⟩ := haccounts.inside grant hgrant
  rw [htime] at hbegan hlive
  rcases haccounts.ended grant hgrant with hover | ⟨window, hwindow, hstart⟩
  · exact absurd hlive (Int.not_lt.mpr hover)
  · exact ⟨window, hwindow, hstart ▸ hbegan, hstart ▸ hlive⟩

/-- A window counts all that was granted while it lasted. -/
theorem grantedIn_eq (haccounts : limiter.Accounts granted now) (hgrant : grant ∈ granted) :
    grantedIn granted grant.key grant.start (grant.start + limiter.windowMs) =
      counted granted grant.key grant.start := by
  rw [grantedIn, counted]
  congr 2
  apply List.filter_congr
  intro other hother
  obtain ⟨hbegan, -, hended⟩ := haccounts.inside other hother
  rw [decide_eq_decide]
  constructor
  · rintro ⟨hkey, hafter, hbefore⟩
    refine ⟨hkey, ?_⟩
    rcases lt_trichotomy other.start grant.start with hlt | heq | hlt
    · have hapart := haccounts.apart other hother grant hgrant hkey hlt
      omega
    · exact heq
    · have hapart := haccounts.apart grant hgrant other hother hkey.symm hlt
      omega
  · rintro ⟨hkey, hstart⟩
    rw [← hstart]
    exact ⟨hkey, hbegan, hended⟩

/-- No more than the limit is granted while a window lasts. -/
theorem grantedIn_le (haccounts : limiter.Accounts granted now) (hgrant : grant ∈ granted) :
    grantedIn granted grant.key grant.start (grant.start + limiter.windowMs) ≤
      limiter.limit := by
  rw [haccounts.grantedIn_eq hgrant]
  exact haccounts.within grant hgrant

end Accounts

end RateLimiter

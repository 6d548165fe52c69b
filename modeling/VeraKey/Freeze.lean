/-
The freeze law: after a freeze nothing is paid until a change scheduled after
it unfreezes the account, and nothing that was waiting before it is applied, but
for a change to the guardian that the guardian itself cannot stop.
-/
import VeraKey.Timelock

namespace VeraKey

open ByteCodec VeraKeyAccount

/-- The calls that freeze the account. -/
def Call.Freezes : Call → Prop
  | .restrict changeKind _ _ => changeKind = Changes.freeze
  | .guardianFreeze _ => True
  | _ => False

variable {host : Host} {vm : Vm} {s s' : VeraKeyAccount} {call : Call}
  {transfers : List Transfer}

theorem Step.initialized_of_freezes (h : Step host vm s call s' transfers)
    (hfreezes : call.Freezes) : s.initialized = true := by
  cases h with
  | restrict _ _ _ hauth => exact hauth.initialized
  | restrictFreeze hauth => exact hauth.initialized
  | guardianFreeze hinit => exact hinit
  | _ => exact absurd hfreezes id

theorem Step.frozen_of_freezes (h : Step host vm s call s' transfers)
    (hfreezes : call.Freezes) : s'.frozen = true := by
  cases h with
  | restrict hne => exact absurd (Change.kind_eq_freeze.mp hfreezes) hne
  | restrictFreeze => rfl
  | guardianFreeze => rfl
  | _ => exact absurd hfreezes id

/-- A freeze leaves no change waiting, but the guardian's leaves changes to the
guardian. -/
theorem Step.pending_of_freezes (h : Step host vm s call s' transfers)
    (hcons : s.table.Consistent) (hfreezes : call.Freezes) (changeId : B256) :
    s'.pending changeId = 0 ∨ (∃ salt, call = .guardianFreeze salt) ∧
      (s.pending changeId).changeKind = Changes.setGuardian := by
  cases h with
  | restrict hne => exact absurd (Change.kind_eq_freeze.mp hfreezes) hne
  | restrictFreeze =>
      left
      rw [withTable_pending, hcons.clear_records]
      exact if_neg (by simp [keptOnCancel])
  | guardianFreeze =>
      rw [withTable_pending, hcons.clear_records]
      by_cases hkept : keptOnCancel true (s.table.records changeId) = true
      · exact Or.inr ⟨⟨_, rfl⟩, by simpa [keptOnCancel] using hkept⟩
      · exact Or.inl (if_neg hkept)
  | _ => exact absurd hfreezes id

theorem Step.unfrozen_of_pay {recipient : Address} {amount : U256} {approval : Approval}
    (h : Step host vm s (.pay recipient amount approval) s' transfers) :
    s.frozen = false := by
  cases h with
  | pay hallowed => exact hallowed.unfrozen

/-- Only an applied unfreezing ends a freeze. -/
theorem Step.unfreezes (h : Step host vm s call s' transfers)
    (hinit : s.initialized = true) (hfrozen : s.frozen = true)
    (hunfrozen : s'.frozen = false) :
    ∃ changeId, call = .applyChange changeId Changes.unfreeze [] := by
  rcases h.tightens_or_applies hinit with htightens | ⟨changeId, c, happlies⟩
  · exact absurd (hunfrozen.symm.trans (htightens.frozen hfrozen)) (by decide)
  · have hchanged : (s.applied host c).frozen = false := by
      rw [happlies.state] at hunfrozen
      exact hunfrozen
    cases c with
    | unfreeze => exact ⟨changeId, happlies.call_eq⟩
    | freeze => exact absurd hchanged (by simp [applied])
    | _ => exact absurd hchanged (by simp [applied, setOwner, hfrozen])

namespace Run

variable {r : Run}

/-- A change that is applied after a freeze was scheduled after it, unless it
changes the guardian and the guardian froze. -/
theorem Regular.scheduled_after_freeze (h : r.Regular) {f k : ℕ} {changeId : B256}
    {changeKind : UInt8} {payload : Bytes} (hsucceeds : r.Succeeds f)
    (hfreezes : (r.call f).Freezes) (hfk : f < k) (hk : r.Succeeds k)
    (hcall : r.call k = .applyChange changeId changeKind payload) :
    ∃ m approval, r.Timelocked m k changeId changeKind payload approval ∧
      (f < m ∨ (∃ salt, r.call f = .guardianFreeze salt) ∧
        changeKind = Changes.setGuardian) := by
  obtain ⟨m, approval, htimelocked⟩ :=
    timelocked_of_apply h.clockFits h.collisionFree hk hcall
  refine ⟨m, approval, htimelocked, ?_⟩
  rcases Nat.lt_trichotomy m f with hmf | rfl | hfm
  · right
    obtain ⟨-, hkind⟩ := htimelocked.waiting f hmf hfk.le
    obtain ⟨hwaiting, -⟩ := htimelocked.waiting (f + 1) (Nat.lt_succ_of_lt hmf) hfk
    have hcleared := hsucceeds.step.pending_of_freezes (h.pendingSound f).consistent
      hfreezes changeId
    obtain ⟨hguardian, hguardianKind⟩ :=
      hcleared.resolve_left (ne_zero_of_eta hwaiting)
    exact ⟨hguardian, hkind.symm.trans hguardianKind⟩
  · rw [htimelocked.call_eq] at hfreezes
    exact absurd hfreezes id
  · exact Or.inl hfm

/-- Whoever unfreezes the account after a freeze scheduled that after the
freeze. -/
theorem Regular.unfreeze_after (h : r.Regular) {f u : ℕ} {changeId : B256}
    (hsucceeds : r.Succeeds f) (hfreezes : (r.call f).Freezes) (hfu : f < u)
    (hu : r.Succeeds u) (hcall : r.call u = .applyChange changeId Changes.unfreeze []) :
    ∃ m approval, f < m ∧
      r.Timelocked m u changeId Changes.unfreeze [] approval := by
  obtain ⟨m, approval, htimelocked, hafter⟩ :=
    h.scheduled_after_freeze hsucceeds hfreezes hfu hu hcall
  refine ⟨m, approval, hafter.resolve_right ?_, htimelocked⟩
  rintro ⟨-, hkind⟩
  exact absurd hkind (by decide)

/-- The account is unfrozen between a freeze and a later payment. -/
theorem exists_unfreeze {f p : ℕ} (hsucceeds : r.Succeeds f)
    (hfreezes : (r.call f).Freezes) (hfp : f < p) (hunfrozen : (r.state p).frozen = false) :
    ∃ u changeId, f < u ∧ u < p ∧ r.Succeeds u ∧
      r.call u = .applyChange changeId Changes.unfreeze [] := by
  have hinit := hsucceeds.step.initialized_of_freezes hfreezes
  obtain ⟨u, hfu, hup, hbefore, hafter⟩ :=
    History.exists_fall (p := fun n => (r.state n).frozen = true) hfp
      (hsucceeds.step.frozen_of_freezes hfreezes) (by rw [hunfrozen]; decide)
  have hu : r.Succeeds u := succeeds_of_ne fun hsame => hafter (by rw [hsame]; exact hbefore)
  obtain ⟨changeId, hcall⟩ := hu.step.unfreezes
    (initialized_of_le (Nat.le_of_succ_le hfu) hinit) hbefore (by simpa using hafter)
  exact ⟨u, changeId, hfu, hup, hu, hcall⟩

end Run

/-- After a freeze every payment comes after an unfreezing that was scheduled
after the freeze and waited its delay, hence at least the delay after the freeze.
Every change that is applied after the freeze was scheduled after it, unless it
changes the guardian and the guardian froze. -/
theorem Run.freeze_law (r : Run) (hregular : r.Regular) (f : ℕ)
    (hsucceeds : r.Succeeds f) (hfreezes : (r.call f).Freezes) :
    (∀ p recipient amount approval, f < p → r.Succeeds p →
      r.call p = .pay recipient amount approval →
        (∃ m u changeId approval, f < m ∧ u < p ∧ r.Succeeds u ∧
          r.call u = .applyChange changeId Changes.unfreeze [] ∧
          r.Timelocked m u changeId Changes.unfreeze [] approval) ∧
        (r.now f).toNat + (r.state f).changeDelay.toNat ≤ (r.now p).toNat) ∧
      ∀ k changeId changeKind payload, f < k → r.Succeeds k →
        r.call k = .applyChange changeId changeKind payload →
          ∃ m approval, r.Timelocked m k changeId changeKind payload approval ∧
            (f < m ∨ (∃ salt, r.call f = .guardianFreeze salt) ∧
              changeKind = Changes.setGuardian) := by
  refine ⟨?_, fun k changeId changeKind payload hfk hk hcall =>
    hregular.scheduled_after_freeze hsucceeds hfreezes hfk hk hcall⟩
  intro p recipient amount approval hfp hp hcall
  have hunfrozen : (r.state p).frozen = false := by
    have hstep := hp.step
    rw [hcall] at hstep
    exact hstep.unfrozen_of_pay
  obtain ⟨u, changeId, hfu, hup, hu, hunfreeze⟩ :=
    exists_unfreeze hsucceeds hfreezes hfp hunfrozen
  obtain ⟨m, approval, hfm, htimelocked⟩ :=
    hregular.unfreeze_after hsucceeds hfreezes hfu hu hunfreeze
  refine ⟨⟨m, u, changeId, approval, hfm, hup, hu, hunfreeze, htimelocked⟩, ?_⟩
  have hinit := hsucceeds.step.initialized_of_freezes hfreezes
  have hdelay : waitingTime (r.state u) Changes.unfreeze =
      (r.state f).changeDelay.toNat := waitingTime_eq_of_le hfu.le hinit _
  calc (r.now f).toNat + (r.state f).changeDelay.toNat
      ≤ (r.now m).toNat + (r.state f).changeDelay.toNat :=
        Nat.add_le_add_right (r.now_mono hfm.le) _
    _ ≤ (r.now u).toNat := hdelay ▸ htimelocked.waited
    _ ≤ (r.now p).toNat := r.now_mono hup.le

/-- The guardian freezes in call 4, and nothing is paid for the delay after it. -/
theorem freeze_law_sample : Sample.run.Succeeds 4 ∧
    ∀ p recipient amount approval, 4 < p → Sample.run.Succeeds p →
      Sample.run.call p = .pay recipient amount approval →
        (Sample.run.now 4).toNat + (Sample.run.state 4).changeDelay.toNat ≤
          (Sample.run.now p).toNat := by
  have hsucceeds : Sample.run.Succeeds 4 := Sample.succeeds (by decide)
  obtain ⟨hpaid, -⟩ := Run.freeze_law Sample.run Sample.regular 4 hsucceeds trivial
  exact ⟨hsucceeds, fun p recipient amount approval hp hpays hcall =>
    (hpaid p recipient amount approval hp hpays hcall).2⟩

end VeraKey

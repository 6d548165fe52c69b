/-
A table with a fixed number of slots: each slot lists a key or is free (zero),
and each key has a record, zero when there is none.  Loops over the slots take
the first free one, free one key, or clear all but some; what they keep is that
slots and records agree.
-/
import Mathlib

namespace SlotTable

universe u v

/-- The slots in order, and the record of every key. -/
@[ext]
structure Table (n : ℕ) (K : Type u) (V : Type v) where
  slots : Fin n → K
  records : K → V

namespace Table

variable {n : ℕ} {K : Type u} {V : Type v}

section Lookup

variable [DecidableEq K]

/-- The first slot that holds `k`. -/
def find (t : Table n K V) (k : K) : Option (Fin n) :=
  (List.finRange n).find? fun i => t.slots i = k

/-- Write one slot. -/
def setSlot (t : Table n K V) (i : Fin n) (k : K) : Table n K V :=
  { t with slots := Function.update t.slots i k }

/-- Write one record. -/
def setRecord (t : Table n K V) (k : K) (v : V) : Table n K V :=
  { t with records := Function.update t.records k v }

theorem slots_of_find {t : Table n K V} {k : K} {i : Fin n}
    (h : t.find k = some i) : t.slots i = k := by
  simpa [find] using List.find?_some h

theorem slots_ne_of_find {t : Table n K V} {k : K} (h : t.find k = none)
    (i : Fin n) : t.slots i ≠ k := by
  simpa [find] using List.find?_eq_none.mp h i (List.mem_finRange i)

end Lookup

/-- Slots list distinct keys, and exactly those that have a record. -/
structure Consistent [Zero K] [Zero V] (t : Table n K V) : Prop where
  distinct : ∀ i j, t.slots i = t.slots j → t.slots i ≠ 0 → i = j
  listed_iff : ∀ k, (k ≠ 0 ∧ ∃ i, t.slots i = k) ↔ t.records k ≠ 0

theorem Consistent.records_zero [Zero K] [Zero V] {t : Table n K V}
    (h : t.Consistent) : t.records 0 = 0 := by
  by_contra hne
  exact ((h.listed_iff 0).mpr hne).1 rfl

theorem consistent_empty [Zero K] [Zero V] :
    Consistent (⟨fun _ => 0, fun _ => 0⟩ : Table n K V) where
  distinct _ _ _ hne := absurd rfl hne
  listed_iff k := by
    simp only [ne_eq, not_true_eq_false, iff_false, not_and]
    rintro hk ⟨-, rfl⟩
    exact hk rfl

variable [DecidableEq K] [Zero K] [Zero V] {t t' : Table n K V} {k : K} {v : V}

/-! ## Adding a key -/

/-- List `k` in the first free slot, if there is one. -/
def track (t : Table n K V) (k : K) : Option (Table n K V) :=
  (t.find 0).map fun i => t.setSlot i k

omit [Zero V] in
theorem track_eq_some (h : t.track k = some t') :
    ∃ i, t.slots i = 0 ∧ t' = t.setSlot i k := by
  obtain ⟨i, hi, rfl⟩ := Option.map_eq_some_iff.mp h
  exact ⟨i, slots_of_find hi, rfl⟩

/-- A fresh key with a record joins the table. -/
theorem Consistent.insert (h : t.Consistent) (htrack : t.track k = some t')
    (hk : k ≠ 0) (hfresh : t.records k = 0) (hv : v ≠ 0) :
    (t'.setRecord k v).Consistent := by
  obtain ⟨i, hfree, rfl⟩ := track_eq_some htrack
  have habsent : ∀ j, t.slots j ≠ k := fun j hj =>
    (h.listed_iff k).mp ⟨hk, j, hj⟩ hfresh
  constructor
  · intro a b heq hne
    simp only [setRecord, setSlot] at heq hne
    by_cases ha : a = i <;> by_cases hb : b = i
    · exact ha.trans hb.symm
    · subst ha
      rw [Function.update_self, Function.update_of_ne hb] at heq
      exact absurd heq.symm (habsent b)
    · subst hb
      rw [Function.update_self, Function.update_of_ne ha] at heq
      exact absurd heq (habsent a)
    · rw [Function.update_of_ne ha] at heq hne
      rw [Function.update_of_ne hb] at heq
      exact h.distinct a b heq hne
  · intro m
    simp only [setRecord, setSlot]
    by_cases hm : m = k
    · subst hm
      rw [Function.update_self]
      exact ⟨fun _ => hv, fun _ => ⟨hk, i, Function.update_self _ _ _⟩⟩
    · rw [Function.update_of_ne hm, ← h.listed_iff m]
      constructor
      · rintro ⟨hzero, a, ha⟩
        have hai : a ≠ i := by
          rintro rfl
          exact hm (by rw [← ha, Function.update_self])
        exact ⟨hzero, a, by rw [← ha, Function.update_of_ne hai]⟩
      · rintro ⟨hzero, a, ha⟩
        have hai : a ≠ i := by
          rintro rfl
          exact hzero (ha ▸ hfree)
        exact ⟨hzero, a, by rw [Function.update_of_ne hai, ha]⟩

/-! ## Removing a key -/

/-- Erase the record of `k` and free the first slot that lists it. -/
def remove (t : Table n K V) (k : K) : Table n K V :=
  let erased := t.setRecord k 0
  match erased.find k with
  | some i => erased.setSlot i 0
  | none => erased

@[simp]
theorem remove_records :
    (t.remove k).records = Function.update t.records k 0 := by
  unfold remove
  dsimp only
  split <;> rfl

/-- Removing frees one slot at most. -/
theorem remove_slots_cases (i : Fin n) :
    (t.remove k).slots i = t.slots i ∨ (t.remove k).slots i = 0 := by
  unfold remove
  dsimp only
  split
  · rename_i j hj
    by_cases hij : i = j
    · subst hij
      exact Or.inr (Function.update_self _ _ _)
    · exact Or.inl (Function.update_of_ne hij _ _)
  · exact Or.inl rfl

theorem Consistent.remove_slots (h : t.Consistent) (i : Fin n) :
    (t.remove k).slots i = if t.slots i = k then 0 else t.slots i := by
  unfold Table.remove
  dsimp only
  split
  · rename_i j hj
    have hjk : t.slots j = k := slots_of_find hj
    by_cases hij : i = j
    · subst hij
      simp [setSlot, hjk]
    · have hzero : t.slots i = k → t.slots i = 0 := by
        intro hik
        by_contra hne
        exact hij (h.distinct i j (hik.trans hjk.symm) hne)
      have hsame : ((t.setRecord k 0).setSlot j 0).slots i = t.slots i :=
        Function.update_of_ne hij _ _
      rw [hsame]
      split
      · rename_i hik
        exact hzero hik
      · rfl
  · rename_i hnone
    have hik : t.slots i ≠ k := slots_ne_of_find hnone i
    rw [if_neg hik]
    rfl

theorem Consistent.remove (h : t.Consistent) : (t.remove k).Consistent := by
  constructor
  · intro a b heq hne
    rw [h.remove_slots] at hne heq
    rw [h.remove_slots] at heq
    have ha : t.slots a ≠ k := fun ha => hne (if_pos ha)
    rw [if_neg ha] at hne heq
    have hb : t.slots b ≠ k := fun hb => hne (heq.trans (if_pos hb))
    rw [if_neg hb] at heq
    exact h.distinct a b heq hne
  · intro m
    simp only [remove_records, h.remove_slots]
    by_cases hm : m = k
    · subst hm
      rw [Function.update_self]
      refine ⟨?_, fun hzero => absurd rfl hzero⟩
      rintro ⟨hzero, a, ha⟩
      split at ha
      · exact absurd ha.symm hzero
      · contradiction
    · rw [Function.update_of_ne hm, ← h.listed_iff m]
      refine and_congr_right fun hzero => exists_congr fun a => ?_
      split
      · rename_i ha
        exact ⟨fun h0 => absurd h0.symm hzero, fun h1 => absurd (h1.symm.trans ha) hm⟩
      · exact Iff.rfl

/-! ## Clearing the table -/

/-- One round of `clear`. -/
def clearSlot (kept : V → Bool) (t : Table n K V) (i : Fin n) : Table n K V :=
  if t.slots i = 0 ∨ kept (t.records (t.slots i)) then t
  else t.remove (t.slots i)

/-- Visit every slot and remove what it lists, unless its record is `kept`. -/
def clear (kept : V → Bool) (t : Table n K V) : Table n K V :=
  (List.finRange n).foldl (clearSlot kept) t

variable {kept : V → Bool}

/-- Clearing changes no record but to erase it, whatever the slots list. -/
theorem foldl_clearSlot_records (rest : List (Fin n)) (k : K) :
    (rest.foldl (clearSlot kept) t).records k = t.records k ∨
      (rest.foldl (clearSlot kept) t).records k = 0 := by
  induction rest generalizing t with
  | nil => exact Or.inl rfl
  | cons i rest ih =>
      have hround : (t.clearSlot kept i).records k = t.records k ∨
          (t.clearSlot kept i).records k = 0 := by
        unfold clearSlot
        split
        · exact Or.inl rfl
        · rw [remove_records, Function.update_apply]
          split
          · exact Or.inr rfl
          · exact Or.inl rfl
      rw [List.foldl_cons]
      rcases ih (t := t.clearSlot kept i) with hsame | hzero
      · rwa [hsame]
      · exact Or.inr hzero

/-- Clearing lists no key that was not listed, whatever the records hold. -/
theorem foldl_clearSlot_slots (rest : List (Fin n)) (i : Fin n) :
    (rest.foldl (clearSlot kept) t).slots i = t.slots i ∨
      (rest.foldl (clearSlot kept) t).slots i = 0 := by
  induction rest generalizing t with
  | nil => exact Or.inl rfl
  | cons j rest ih =>
      have hround : (t.clearSlot kept j).slots i = t.slots i ∨
          (t.clearSlot kept j).slots i = 0 := by
        unfold clearSlot
        split
        · exact Or.inl rfl
        · exact remove_slots_cases i
      rw [List.foldl_cons]
      rcases ih (t := t.clearSlot kept j) with hsame | hzero
      · rwa [hsame]
      · exact Or.inr hzero

/-- `t'` is `t` with some keys removed, none of them `kept`. -/
structure Thinned (kept : V → Bool) (t t' : Table n K V) : Prop where
  slots : ∀ i, t'.slots i = t.slots i ∨
    t'.slots i = 0 ∧ ¬ kept (t.records (t.slots i))
  records : ∀ k, t'.records k = t.records k ∨
    t'.records k = 0 ∧ ¬ kept (t.records k)

omit [DecidableEq K] in
theorem Thinned.refl (t : Table n K V) : Thinned kept t t :=
  ⟨fun _ => Or.inl rfl, fun _ => Or.inl rfl⟩

omit [DecidableEq K] in
theorem Thinned.trans {t₁ t₂ t₃ : Table n K V} (h₁ : Thinned kept t₁ t₂)
    (h₂ : Thinned kept t₂ t₃) : Thinned kept t₁ t₃ := by
  constructor
  · intro i
    rcases h₁.slots i with hsame | hfreed
    · rcases h₂.slots i with hsame' | ⟨hzero, hkept⟩
      · exact Or.inl (hsame'.trans hsame)
      · rw [hsame] at hkept
        rcases h₁.records (t₁.slots i) with hrec | ⟨-, hkept'⟩
        · exact Or.inr ⟨hzero, hrec ▸ hkept⟩
        · exact Or.inr ⟨hzero, hkept'⟩
    · rcases h₂.slots i with hsame' | ⟨hzero, -⟩
      · exact Or.inr ⟨hsame'.trans hfreed.1, hfreed.2⟩
      · exact Or.inr ⟨hzero, hfreed.2⟩
  · intro k
    rcases h₁.records k with hsame | herased
    · rcases h₂.records k with hsame' | ⟨hzero, hkept⟩
      · exact Or.inl (hsame'.trans hsame)
      · exact Or.inr ⟨hzero, hsame ▸ hkept⟩
    · rcases h₂.records k with hsame' | ⟨hzero, -⟩
      · exact Or.inr ⟨hsame'.trans herased.1, herased.2⟩
      · exact Or.inr ⟨hzero, herased.2⟩

theorem Consistent.thinned_remove (h : t.Consistent)
    (hkept : ¬ kept (t.records k)) : Thinned kept t (t.remove k) := by
  constructor
  · intro i
    rw [h.remove_slots]
    split
    · rename_i hik
      exact Or.inr ⟨rfl, hik ▸ hkept⟩
    · exact Or.inl rfl
  · intro m
    rw [remove_records]
    by_cases hm : m = k
    · subst hm
      exact Or.inr ⟨Function.update_self _ _ _, hkept⟩
    · exact Or.inl (Function.update_of_ne hm _ _)

theorem Consistent.clearSlot (h : t.Consistent) (kept : V → Bool) (i : Fin n) :
    (t.clearSlot kept i).Consistent ∧ Thinned kept t (t.clearSlot kept i) := by
  unfold Table.clearSlot
  split
  · exact ⟨h, Thinned.refl t⟩
  · rename_i hkept
    exact ⟨h.remove, h.thinned_remove fun hk => hkept (Or.inr hk)⟩

theorem Consistent.foldl_clearSlot (h : t.Consistent) (kept : V → Bool)
    (rest : List (Fin n)) :
    (rest.foldl (Table.clearSlot kept) t).Consistent ∧
      Thinned kept t (rest.foldl (Table.clearSlot kept) t) := by
  induction rest generalizing t with
  | nil => exact ⟨h, Thinned.refl t⟩
  | cons i rest ih =>
      obtain ⟨hcons, hthin⟩ := h.clearSlot kept i
      obtain ⟨hcons', hthin'⟩ := ih hcons
      exact ⟨hcons', hthin.trans hthin'⟩

theorem Consistent.clear (h : t.Consistent) : (t.clear kept).Consistent :=
  (h.foldl_clearSlot _ _).1

theorem Consistent.thinned_clear (h : t.Consistent) :
    Thinned kept t (t.clear kept) :=
  (h.foldl_clearSlot _ _).2

/-- A visited slot ends free or with a kept record, and later rounds leave it
so. -/
theorem Consistent.foldl_clearSlot_settled (h : t.Consistent)
    (rest : List (Fin n)) (i : Fin n) (hi : i ∈ rest) :
    (rest.foldl (Table.clearSlot kept) t).slots i = 0 ∨
      kept ((rest.foldl (Table.clearSlot kept) t).records
        ((rest.foldl (Table.clearSlot kept) t).slots i)) := by
  induction rest generalizing t with
  | nil => simp at hi
  | cons j rest ih =>
      have hnext := h.clearSlot kept j
      rw [List.foldl_cons]
      by_cases hrest : i ∈ rest
      · exact ih hnext.1 hrest
      · obtain rfl : i = j := by simpa [hrest] using hi
        have hthin := (hnext.1.foldl_clearSlot kept rest).2
        have hround : (t.clearSlot kept i).slots i = 0 ∨
            kept ((t.clearSlot kept i).records ((t.clearSlot kept i).slots i)) := by
          unfold Table.clearSlot
          split
          · assumption
          · exact Or.inl (by rw [h.remove_slots, if_pos rfl])
        rcases hthin.slots i with hsame | ⟨hzero, -⟩
        · rw [hsame]
          rcases hround with hzero | hkept
          · exact Or.inl hzero
          · rcases hthin.records ((t.clearSlot kept i).slots i) with hrec | ⟨-, hnot⟩
            · exact Or.inr (by rw [hrec]; exact hkept)
            · exact absurd hkept hnot
        · exact Or.inl hzero

/-- After `clear` a record is as it was if it is kept, and zero otherwise. -/
theorem Consistent.clear_records (h : t.Consistent) (k : K) :
    (t.clear kept).records k = if kept (t.records k) then t.records k else 0 := by
  rcases h.thinned_clear.records k with hsame | ⟨hzero, hkept⟩
  · rw [hsame]
    by_cases hkept : kept (t.records k)
    · rw [if_pos hkept]
    · rw [if_neg hkept]
      by_contra hne
      rw [← hsame] at hne hkept
      obtain ⟨hk, i, hi⟩ := (h.clear.listed_iff k).mpr hne
      rcases h.foldl_clearSlot_settled (List.finRange n) i (List.mem_finRange i)
        with hfree | hkept'
      · exact hk (hi.symm.trans hfree)
      · exact hkept (hi ▸ hkept')
  · rw [hzero, if_neg hkept]

/-! ## Counting records -/

omit [DecidableEq K] in
/-- Slots and keys count the same records. -/
theorem Consistent.card_slots (h : t.Consistent) {p : V → Prop} [DecidablePred p]
    (hp : ¬ p 0) :
    (Finset.univ.filter fun i => p (t.records (t.slots i))).card =
      {k | p (t.records k)}.ncard := by
  classical
  have hne : ∀ k, p (t.records k) → t.records k ≠ 0 := fun k hk hzero =>
    hp (hzero ▸ hk)
  have hset : {k | p (t.records k)} =
      ↑((Finset.univ.filter fun i => p (t.records (t.slots i))).image t.slots) := by
    ext k
    simp only [Set.mem_ofPred_eq, Finset.coe_image, Finset.coe_filter, Finset.mem_univ,
      true_and, Set.mem_image]
    constructor
    · intro hk
      obtain ⟨-, i, rfl⟩ := (h.listed_iff k).mpr (hne k hk)
      exact ⟨i, hk, rfl⟩
    · rintro ⟨i, hi, rfl⟩
      exact hi
  have hinj : Set.InjOn t.slots
      ↑(Finset.univ.filter fun i => p (t.records (t.slots i))) := by
    intro i hi j _ hij
    refine h.distinct i j hij fun hzero => ?_
    apply hne (t.slots i) (by simpa using hi)
    rw [hzero]
    exact h.records_zero
  rw [hset, Set.ncard_coe_finset, Finset.card_image_of_injOn hinj]

end Table

end SlotTable

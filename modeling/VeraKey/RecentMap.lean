/-
Maps that keep a bounded number of entries, the last written first, and forget the oldest
entry to make room.  An entry stays until as many other keys as there is room for have been
written after it.
-/
import Mathlib

universe u v

/-- The last written entry comes first. -/
abbrev RecentMap (κ : Type u) (β : Type v) : Type (max u v) := AList fun _ : κ => β

namespace RecentMap

variable {κ : Type u} {β : Type v}

/-- The map without its oldest entry. -/
def evict (map : RecentMap κ β) : RecentMap κ β where
  entries := map.entries.dropLast
  nodupKeys := List.NodupKeys.sublist (List.dropLast_sublist map.entries) map.nodupKeys

theorem keys_evict (map : RecentMap κ β) : map.evict.keys = map.keys.dropLast :=
  List.map_dropLast

variable [DecidableEq κ]

/-- The map with a new entry for the key, and room made for it. -/
def remember (capacity : ℕ) (map : RecentMap κ β) (key : κ) (value : β) : RecentMap κ β :=
  let rest : RecentMap κ β := map.erase key
  (if capacity ≤ rest.entries.length then rest.evict else rest).insert key value

variable {capacity : ℕ} {map : RecentMap κ β} {key other : κ} {value value' : β}

theorem lookup_evict (hlookup : map.evict.lookup key = some value) :
    map.lookup key = some value :=
  AList.mem_lookup_iff.mpr (List.mem_of_mem_dropLast (AList.mem_lookup_iff.mp hlookup))

theorem lookup_evict_of_mem (hmem : key ∈ map.evict.keys) :
    map.evict.lookup key = map.lookup key := by
  obtain ⟨value, hlookup⟩ :=
    Option.isSome_iff_exists.mp (AList.lookup_isSome.mpr (AList.mem_keys.mpr hmem))
  rw [hlookup, lookup_evict hlookup]

theorem lookup_remember_self : (remember capacity map key value).lookup key = some value :=
  AList.lookup_insert _

/-- Every other entry of the map was there before. -/
theorem lookup_of_remember (hother : other ≠ key)
    (hlookup : (remember capacity map key value).lookup other = some value') :
    map.lookup other = some value' := by
  rw [remember, AList.lookup_insert_ne hother] at hlookup
  rw [← AList.lookup_erase_ne hother]
  split at hlookup
  · exact lookup_evict hlookup
  · exact hlookup

/-! ## What is written after an entry -/

section Newer

variable {newer older : List κ}

/-- Without another key, an entry is no further back than before. -/
theorem exists_keys_erase (hkeys : map.keys = newer ++ key :: older) (hother : other ≠ key) :
    ∃ older', (map.erase other).keys = newer.erase other ++ key :: older' := by
  rw [AList.keys_erase, hkeys]
  by_cases hmem : other ∈ newer
  · exact ⟨older, List.erase_append_left _ hmem⟩
  · refine ⟨older.erase other, ?_⟩
    rw [List.erase_append_right _ hmem, List.erase_of_not_mem hmem,
      List.erase_cons_tail (by simpa using hother.symm)]

omit [DecidableEq κ] in
/-- Only the last entry is forgotten. -/
theorem exists_keys_evict (hkeys : map.keys = newer ++ key :: older)
    (hroom : newer.length + 1 < map.entries.length) :
    ∃ older', map.evict.keys = newer ++ key :: older' := by
  have holder : older ≠ [] := by
    rintro rfl
    have hentries : map.entries.length = map.keys.length := (List.length_map _).symm
    rw [hentries, hkeys, List.length_append, List.length_singleton] at hroom
    exact absurd hroom (Nat.lt_irrefl _)
  refine ⟨older.dropLast, ?_⟩
  rw [keys_evict, hkeys, List.dropLast_append_of_ne_nil (List.cons_ne_nil _ _),
    List.dropLast_cons_of_ne_nil holder]

/-- The new entry comes first. -/
theorem exists_keys_insert (hkeys : map.keys = newer ++ key :: older) (hother : other ≠ key)
    (hmem : other ∉ newer) :
    ∃ older', (AList.insert other value map).keys = (other :: newer) ++ key :: older' := by
  refine ⟨older.erase other, ?_⟩
  rw [AList.keys_insert, hkeys, List.erase_append_right _ hmem,
    List.erase_cons_tail (by simpa using hother.symm), List.cons_append]

end Newer

/-- The entry of the key, with only keys of `others` written after it. -/
structure KeptSince (map : RecentMap κ β) (key : κ) (value : β) (others : Finset κ) : Prop where
  lookup_eq : map.lookup key = some value
  newer : ∃ newer older, map.keys = newer ++ key :: older ∧ ∀ other ∈ newer, other ∈ others

theorem keptSince_remember : (remember capacity map key value).KeptSince key value ∅ where
  lookup_eq := lookup_remember_self
  newer := ⟨[], _, AList.keys_insert _, nofun⟩

namespace KeptSince

variable {others more : Finset κ}

theorem mono (hkept : map.KeptSince key value others) (hmore : others ⊆ more) :
    map.KeptSince key value more where
  lookup_eq := hkept.lookup_eq
  newer := by
    obtain ⟨newer, older, hkeys, hnewer⟩ := hkept.newer
    exact ⟨newer, older, hkeys, fun other hother => hmore (hnewer other hother)⟩

/-- Writing another key forgets the entry only if there is no room for it. -/
theorem remember (hkept : map.KeptSince key value others) (hother : other ≠ key)
    (hroom : (insert other others).card < capacity) :
    (map.remember capacity other value').KeptSince key value (insert other others) := by
  obtain ⟨hlookup, newer, older, hkeys, hnewer⟩ := hkept
  obtain ⟨older, herase⟩ := exists_keys_erase hkeys hother
  have herased : (map.erase other).lookup key = some value := by
    rw [AList.lookup_erase_ne hother.symm, hlookup]
  have hmem : other ∉ newer.erase other := by
    intro hmem
    have hkey : other ∈ (map.erase other).keys := by
      rw [herase]
      exact List.mem_append_left _ hmem
    exact (AList.mem_erase.mp (AList.mem_keys.mpr hkey)).1 rfl
  have hothers : ∀ k ∈ other :: newer.erase other, k ∈ insert other others := by
    intro k hk
    rcases List.mem_cons.mp hk with rfl | hk
    · exact Finset.mem_insert_self k others
    · exact Finset.mem_insert_of_mem (hnewer k (List.mem_of_mem_erase hk))
  have hlength : (newer.erase other).length + 1 < capacity := by
    have hnodup : (newer.erase other).Nodup := by
      have hsublist : (newer.erase other).Sublist (map.erase other).keys := by
        rw [herase]
        exact List.sublist_append_left _ _
      exact (AList.keys_nodup (map.erase other)).sublist hsublist
    have hcard := Finset.card_le_card
      (fun k hk => hothers k (List.mem_toFinset.mp hk) :
        (other :: newer.erase other).toFinset ⊆ insert other others)
    rw [List.toFinset_card_of_nodup (List.nodup_cons.mpr ⟨hmem, hnodup⟩)] at hcard
    exact hcard.trans_lt hroom
  rw [RecentMap.remember]
  split
  · next hfull =>
      obtain ⟨older, hevict⟩ := exists_keys_evict herase (hlength.trans_le hfull)
      obtain ⟨older, hinsert⟩ := exists_keys_insert hevict hother hmem
      refine ⟨?_, other :: newer.erase other, older, hinsert, hothers⟩
      rw [AList.lookup_insert_ne hother.symm, lookup_evict_of_mem, herased]
      rw [hevict]
      exact List.mem_append_right _ List.mem_cons_self
  · obtain ⟨older, hinsert⟩ := exists_keys_insert herase hother hmem
    refine ⟨?_, other :: newer.erase other, older, hinsert, hothers⟩
    rw [AList.lookup_insert_ne hother.symm, herased]

end KeptSince

end RecentMap

import Mathlib.Data.List.Sort

/-!
# SipDemo.OrderedMap

An ordered map as the list of its entries.  `Std.TreeMap` plays `std::map`:
`insertIfNew` is `emplace`, `minKey?` is the key at `begin()`.  Here its
operations are read off `toList`, the entries in key order, which is what a
run of the map is reasoned about.
-/

namespace OrderedMap

open Std (TreeMap)

variable {κ ν : Type*} [LinearOrder κ] {m : TreeMap κ ν compare}

theorem nodup_toList : m.toList.Nodup := by
  refine m.distinct_keys_toList.imp ?_
  intro a b hne heq
  exact hne (compare_eq_iff_eq.mpr (congrArg Prod.fst heq))

theorem sorted_toList : m.toList.Pairwise (fun a b => a.1 < b.1) :=
  m.ordered_keys_toList.imp fun h => compare_lt_iff_lt.mp h

theorem mem_toList {p : κ × ν} : p ∈ m.toList ↔ m[p.1]? = some p.2 :=
  TreeMap.mem_toList_iff_getElem?_eq_some

theorem mem_of_mem_toList {p : κ × ν} (h : p ∈ m.toList) : p.1 ∈ m := by
  rw [TreeMap.mem_iff_isSome_getElem?, mem_toList.mp h]
  rfl

theorem exists_mem_toList {k : κ} (h : k ∈ m) : ∃ v, (k, v) ∈ m.toList := by
  obtain ⟨v, hv⟩ := Option.isSome_iff_exists.mp (TreeMap.mem_iff_isSome_getElem?.mp h)
  exact ⟨v, mem_toList.mpr hv⟩

theorem getElem?_erase {k a : κ} : (m.erase k)[a]? = if a = k then none else m[a]? := by
  simp only [TreeMap.getElem?_erase, compare_eq_iff_eq, @eq_comm _ k]

/-- A key at `begin()` is a key, and the least. -/
theorem minKey?_eq_some {k : κ} : m.minKey? = some k ↔ k ∈ m ∧ ∀ k' ∈ m, k ≤ k' := by
  rw [TreeMap.minKey?_eq_some_iff_mem_and_forall]
  simp only [← Ordering.ne_gt_iff_isLE, compare_le_iff_le]

/-- The key before `end()` is a key, and the greatest. -/
theorem maxKey?_eq_some {k : κ} : m.maxKey? = some k ↔ k ∈ m ∧ ∀ k' ∈ m, k' ≤ k := by
  rw [TreeMap.maxKey?_eq_some_iff_mem_and_forall]
  simp only [← Ordering.ne_gt_iff_isLE, compare_le_iff_le]

/-- A new key adds one entry. -/
theorem toList_insertIfNew {k : κ} {v : ν} (h : k ∉ m) :
    (m.insertIfNew k v).toList.Perm ((k, v) :: m.toList) := by
  have hnotin : (k, v) ∉ m.toList := fun hmem => h (mem_of_mem_toList hmem)
  rw [List.perm_ext_iff_of_nodup nodup_toList (List.nodup_cons.mpr ⟨hnotin, nodup_toList⟩)]
  intro p
  rw [List.mem_cons, mem_toList, mem_toList, TreeMap.getElem?_insertIfNew]
  by_cases hk : k = p.1
  · have hnone : m[p.1]? = none := TreeMap.getElem?_eq_none (hk ▸ h)
    simp [← hk, h, Prod.ext_iff, eq_comm]
  · have hne : p ≠ (k, v) := fun heq => hk (congrArg Prod.fst heq).symm
    simp [hk, hne]

/-- Erasing a key takes its entry away. -/
theorem toList_erase {k : κ} {v : ν} (h : m[k]? = some v) :
    m.toList.Perm ((k, v) :: (m.erase k).toList) := by
  have hnotin : (k, v) ∉ (m.erase k).toList := by simp [mem_toList]
  rw [List.perm_ext_iff_of_nodup nodup_toList (List.nodup_cons.mpr ⟨hnotin, nodup_toList⟩)]
  intro p
  rw [List.mem_cons, mem_toList, mem_toList, getElem?_erase]
  by_cases hk : k = p.1
  · subst hk
    simp [h, Prod.ext_iff, eq_comm]
  · have hne : p ≠ (k, v) := fun heq => hk (congrArg Prod.fst heq).symm
    simp [Ne.symm hk, hne]

theorem size_insertIfNew {k : κ} {v : ν} (h : k ∉ m) : (m.insertIfNew k v).size = m.size + 1 := by
  rw [← TreeMap.length_toList, (toList_insertIfNew h).length_eq, List.length_cons,
    TreeMap.length_toList]

theorem size_erase {k : κ} (h : k ∈ m) : m.size = (m.erase k).size + 1 := by
  obtain ⟨v, hv⟩ := exists_mem_toList h
  rw [← TreeMap.length_toList, (toList_erase (mem_toList.mp hv)).length_eq, List.length_cons,
    TreeMap.length_toList]

/-- The least entry heads the list. -/
theorem toList_eq_cons_erase {k : κ} {v : ν} (h : m[k]? = some v) (hmin : ∀ k' ∈ m, k ≤ k') :
    m.toList = (k, v) :: (m.erase k).toList := by
  refine List.Perm.eq_of_pairwise (fun a b _ _ hab hba => ?_) sorted_toList ?_ (toList_erase h)
  · exact absurd (hab.trans hba) (lt_irrefl _)
  · refine .cons ?_ sorted_toList
    intro p hp
    have hmem := mem_of_mem_toList hp
    rw [TreeMap.mem_erase] at hmem
    exact lt_of_le_of_ne (hmin p.1 hmem.2) (fun heq => hmem.1 (compare_eq_iff_eq.mpr heq))

end OrderedMap

import Mathlib.Data.List.Count
import Mathlib.Data.List.Nodup
import Mathlib.Data.List.Range
import Mathlib.Order.Lattice

/-!
# Ranks in a list

The rank of a key is the number of smaller keys in the list. Ranks number the list
exactly when no two of its keys are equal.
-/
namespace Ranking

variable {β : Type} [LinearOrder β] {ks : List β} {j k : β}

def rankIn (ks : List β) (k : β) : Nat := ks.countP (fun x => x < k)

theorem rankIn_eq_zero : rankIn ks k = 0 ↔ ∀ x ∈ ks, k ≤ x := by
  simp [rankIn, List.countP_eq_zero]

theorem rankIn_lt_length (hk : k ∈ ks) : rankIn ks k < ks.length :=
  List.countP_lt_length_iff.mpr ⟨k, hk, by simp⟩

/-- A smaller key of the list has a smaller rank. -/
theorem rankIn_lt (hj : j ∈ ks) (h : j < k) : rankIn ks j < rankIn ks k := by
  have hsame : rankIn ks j = (ks.filter (fun x => x < k)).countP (fun x => x < j) := by
    rw [List.countP_filter]
    refine List.countP_congr fun x _ => ?_
    simp only [decide_eq_true_eq, Bool.and_eq_true]
    exact ⟨fun hx => ⟨hx, hx.trans h⟩, And.left⟩
  have hmem : j ∈ ks.filter (fun x => x < k) := List.mem_filter.mpr ⟨hj, by simpa using h⟩
  have hlt := rankIn_lt_length hmem
  rwa [rankIn, ← hsame, ← List.countP_eq_length_filter] at hlt

theorem rankIn_inj (hj : j ∈ ks) (hk : k ∈ ks) (h : rankIn ks j = rankIn ks k) : j = k := by
  rcases lt_trichotomy j k with hlt | heq | hgt
  · exact absurd h (rankIn_lt hj hlt).ne
  · exact heq
  · exact absurd h.symm (rankIn_lt hk hgt).ne

/-- Counted from 1, the ranks run through the numbers up to the length, each once, exactly when
no two keys tie. -/
theorem ranks_perm_range'_iff (ks : List β) :
    (ks.map fun k => rankIn ks k + 1).Perm (List.range' 1 ks.length) ↔ ks.Nodup := by
  constructor
  · intro h
    exact (h.nodup_iff.mpr List.nodup_range').of_map
  · intro h
    have hnodup : (ks.map fun k => rankIn ks k + 1).Nodup :=
      h.map_on fun j hj k hk he => rankIn_inj hj hk (Nat.succ_inj.mp he)
    have hsub : (ks.map fun k => rankIn ks k + 1) ⊆ List.range' 1 ks.length := by
      intro n hn
      obtain ⟨k, hk, rfl⟩ := List.mem_map.mp hn
      have hlt := rankIn_lt_length hk
      exact List.mem_range'_1.mpr (by omega)
    exact (List.subperm_of_subset hnodup hsub).perm_of_length_le (by simp)

end Ranking

import Mathlib.Data.List.Count
import Mathlib.Data.List.Nodup
import Mathlib.Algebra.BigOperators.Group.List.Basic
import Mathlib.Algebra.Ring.Nat

/-!
# Rows counted by group

The rows of a list are counted for each of some distinct keys. The counts add up to the number
of rows that have one of the keys.
-/
namespace Grouping

variable {α κ : Type} [DecidableEq κ] {f : α → κ} {p : α → Bool}

/-- The rows of one key and the rows of the other keys. -/
theorem countP_cons_key (k : κ) (ks : List κ) (hk : k ∉ ks) (l : List α) :
    l.countP (fun x => f x ∈ k :: ks && p x) =
      l.countP (fun x => f x = k && p x) + l.countP (fun x => f x ∈ ks && p x) := by
  induction l with
  | nil => rfl
  | cons x l ih =>
    simp only [List.countP_cons, ih]
    by_cases hx : f x = k
    · simp [hx, hk]
      omega
    · simp [hx]
      omega

theorem sum_countP (ks : List κ) (hks : ks.Nodup) (l : List α) :
    (ks.map fun k => l.countP fun x => f x = k && p x).sum =
      l.countP fun x => f x ∈ ks && p x := by
  induction ks with
  | nil => simp
  | cons k ks ih =>
    obtain ⟨hk, hks⟩ := List.nodup_cons.mp hks
    rw [List.map_cons, List.sum_cons, ih hks, countP_cons_key k ks hk]

/-- A count is complete exactly when every row that counts satisfies the further condition. -/
theorem countP_and_eq_iff (l : List α) (q : α → Bool) :
    l.countP (fun x => q x && p x) = l.countP p ↔ ∀ x ∈ l, p x → q x := by
  have hsplit : l.countP p = l.countP (fun x => q x && p x) +
      l.countP (fun x => !q x && p x) := by
    induction l with
    | nil => rfl
    | cons x l ih =>
      simp only [List.countP_cons, ih]
      cases q x <;> cases p x <;> simp <;> omega
  have hzero : l.countP (fun x => !q x && p x) = 0 ↔ ∀ x ∈ l, p x → q x := by
    rw [List.countP_eq_zero]
    refine forall₂_congr fun x _ => ?_
    cases q x <;> cases p x <;> simp
  rw [← hzero]
  omega

/-- The first `n` of some positive numbers make up the whole sum only if there are no more. -/
theorem sum_take_eq_iff {l : List Nat} (hpos : ∀ x ∈ l, 0 < x) (n : Nat) :
    (l.take n).sum = l.sum ↔ l.length ≤ n := by
  have hsplit : l.sum = (l.take n).sum + (l.drop n).sum := by
    rw [← List.sum_append, List.take_append_drop]
  have hzero : (l.drop n).sum = 0 ↔ l.drop n = [] := by
    constructor
    · intro hsum
      refine List.eq_nil_iff_forall_not_mem.mpr fun x hx => ?_
      have hnone := List.sum_eq_zero_iff_forall_eq_nat.mp hsum x hx
      have hsome := hpos x (List.mem_of_mem_drop hx)
      omega
    · intro hnil
      rw [hnil]
      rfl
  rw [List.drop_eq_nil_iff] at hzero
  rw [← hzero]
  omega

end Grouping

import Mathlib.Data.List.Nodup
import Mathlib.Data.List.Count
import Mathlib.Tactic.Ring

/-!
# Tables with a primary key

A table is a list of rows, in the order in which they were inserted, no two of
which share a key. Writing a row replaces the row with the same key in place,
or appends it.
-/
namespace KeyedTable

class Keyed (κ : outParam Type) (ρ : Type) where
  key : ρ → κ

open Keyed (key)

structure Table (ρ : Type) {κ : Type} [Keyed κ ρ] where
  rows : List ρ
  unique : (rows.map key).Nodup

variable {κ ρ : Type} [Keyed κ ρ]

section Rows

variable [DecidableEq κ]

/-- Replace the row that has the key of `x`, or append `x`. -/
def putRow (x : ρ) : List ρ → List ρ
  | [] => [x]
  | y :: ys => if key y = key x then x :: ys else y :: putRow x ys

theorem mem_putRow {x z : ρ} {l : List ρ} (hl : (l.map key).Nodup) :
    z ∈ putRow x l ↔ z = x ∨ z ∈ l ∧ key z ≠ key x := by
  induction l with
  | nil => simp [putRow]
  | cons y ys ih =>
    obtain ⟨hy, hys⟩ := List.nodup_cons.mp hl
    by_cases h : key y = key x
    · have hne : ∀ w ∈ ys, key w ≠ key x := by
        intro w hw he
        exact hy (List.mem_map.mpr ⟨w, hw, he.trans h.symm⟩)
      simp only [putRow, h, ↓reduceIte, List.mem_cons]
      constructor
      · rintro (rfl | hz)
        · exact Or.inl rfl
        · exact Or.inr ⟨Or.inr hz, hne z hz⟩
      · rintro (rfl | ⟨rfl | hz, hk⟩)
        · exact Or.inl rfl
        · exact absurd h hk
        · exact Or.inr hz
    · simp only [putRow, h, ↓reduceIte, List.mem_cons, ih hys]
      constructor
      · rintro (rfl | rfl | ⟨hz, hk⟩)
        · exact Or.inr ⟨Or.inl rfl, h⟩
        · exact Or.inl rfl
        · exact Or.inr ⟨Or.inr hz, hk⟩
      · rintro (rfl | ⟨rfl | hz, hk⟩)
        · exact Or.inr (Or.inl rfl)
        · exact Or.inl rfl
        · exact Or.inr (Or.inr ⟨hz, hk⟩)

theorem putRow_unique (x : ρ) {l : List ρ} (hl : (l.map key).Nodup) :
    ((putRow x l).map key).Nodup := by
  induction l with
  | nil => simp [putRow]
  | cons y ys ih =>
    obtain ⟨hy, hys⟩ := List.nodup_cons.mp hl
    by_cases h : key y = key x
    · simp only [putRow, h, ↓reduceIte, List.map_cons]
      exact List.nodup_cons.mpr ⟨h ▸ hy, hys⟩
    · simp only [putRow, h, ↓reduceIte, List.map_cons]
      refine List.nodup_cons.mpr ⟨?_, ih hys⟩
      intro hm
      obtain ⟨z, hz, he⟩ := List.mem_map.mp hm
      rcases (mem_putRow hys).mp hz with rfl | ⟨hz, _⟩
      · exact h he.symm
      · exact hy (List.mem_map.mpr ⟨z, hz, he⟩)

end Rows

namespace Table

def empty : Table ρ := ⟨[], List.nodup_nil⟩

def count (t : Table ρ) (p : ρ → Bool) : Nat := t.rows.countP p

theorem count_eq_zero {t : Table ρ} {p : ρ → Bool} : t.count p = 0 ↔ ∀ r ∈ t.rows, ¬p r :=
  List.countP_eq_zero

/-- A count does not grow when the rows that count now counted before. -/
theorem count_le {s t : Table ρ} {p : ρ → Bool}
    (h : ∀ r ∈ t.rows, p r → ∃ q ∈ s.rows, p q ∧ key q = key r) : t.count p ≤ s.count p := by
  have hnodup : ((t.rows.filter p).map key).Nodup := t.unique.sublist (List.filter_sublist.map _)
  have hsub : (t.rows.filter p).map key ⊆ (s.rows.filter p).map key := by
    intro k hk
    obtain ⟨r, hr, rfl⟩ := List.mem_map.mp hk
    obtain ⟨hr, hp⟩ := List.mem_filter.mp hr
    obtain ⟨q, hq, hqp, hkey⟩ := h r hr hp
    exact List.mem_map.mpr ⟨q, List.mem_filter.mpr ⟨hq, hqp⟩, hkey⟩
  have hle := (List.subperm_of_subset hnodup hsub).length_le
  simpa [count, List.countP_eq_length_filter] using hle

/-- The only row that satisfies `p`. -/
theorem filter_eq_singleton {t : Table ρ} {p : ρ → Bool} {r : ρ} (hr : r ∈ t.rows) (hp : p r)
    (hone : ∀ q ∈ t.rows, p q → q = r) : t.rows.filter p = [r] := by
  have hnodup : (t.rows.filter p).Nodup := t.unique.of_map.filter _
  refine List.perm_singleton.mp ((List.perm_ext_iff_of_nodup hnodup (List.nodup_singleton r)).mpr
    fun q => ?_)
  rw [List.mem_filter, List.mem_singleton]
  constructor
  · rintro ⟨hq, hpq⟩
    exact hone q hq hpq
  · rintro rfl
    exact ⟨hr, hp⟩

/-- A count is what is left of it and what has gone, if nothing new has come to count. -/
theorem count_eq_add [DecidableEq ρ] {s t : Table ρ} {p : ρ → Bool}
    (h : ∀ r ∈ t.rows, p r → r ∈ s.rows) :
    s.count p = t.count p + s.count (fun r => p r && r ∉ t.rows) := by
  have hs : (s.rows.filter p).Nodup := s.unique.of_map.filter _
  have ht : (t.rows.filter p).Nodup := t.unique.of_map.filter _
  have hstay : ((s.rows.filter p).filter (fun r => r ∈ t.rows)).Perm (t.rows.filter p) := by
    refine (List.perm_ext_iff_of_nodup (hs.filter _) ht).mpr fun r => ?_
    simp only [List.mem_filter, decide_eq_true_eq]
    constructor
    · rintro ⟨⟨_, hp⟩, hr⟩
      exact ⟨hr, hp⟩
    · rintro ⟨hr, hp⟩
      exact ⟨⟨h r hr hp, hp⟩, hr⟩
  have hlength : ∀ l : List ρ, l.countP p = (l.filter p).length :=
    fun _ => List.countP_eq_length_filter
  have hsplit := (s.rows.filter p).length_eq_countP_add_countP (fun r => decide (r ∈ t.rows))
  rw [List.countP_eq_length_filter, hstay.length_eq, List.countP_filter, ← hlength,
    ← hlength] at hsplit
  refine hsplit.trans (congrArg _ ?_)
  exact List.countP_congr fun r _ => by simp [and_comm]

/-- The rows as somebody sees them who reads other columns. -/
def map {ρ' : Type} [Keyed κ ρ'] (t : Table ρ) (f : ρ → ρ') (hf : ∀ r, key (f r) = key r) :
    Table ρ' :=
  ⟨t.rows.map f, by simpa [Function.comp_def, hf] using t.unique⟩

section Keys

variable [DecidableEq κ]

def get (t : Table ρ) (k : κ) : Option ρ := t.rows.find? (fun r => key r = k)

def put (t : Table ρ) (x : ρ) : Table ρ := ⟨putRow x t.rows, putRow_unique x t.unique⟩

theorem get_eq_some {t : Table ρ} {k : κ} {r : ρ} : t.get k = some r ↔ r ∈ t.rows ∧ key r = k := by
  constructor
  · intro h
    exact ⟨List.mem_of_find?_eq_some h, by simpa using List.find?_some h⟩
  · rintro ⟨hr, rfl⟩
    cases hg : t.get (key r) with
    | none => exact absurd (List.find?_eq_none.mp hg r hr) (by simp)
    | some s =>
      have hs := List.mem_of_find?_eq_some hg
      have hk : key s = key r := by simpa using List.find?_some hg
      rw [List.inj_on_of_nodup_map t.unique hs hr hk]

theorem key_of_get {t : Table ρ} {k : κ} {r : ρ} (h : t.get k = some r) : key r = k :=
  (get_eq_some.mp h).2

theorem mem_of_get {t : Table ρ} {k : κ} {r : ρ} (h : t.get k = some r) : r ∈ t.rows :=
  (get_eq_some.mp h).1

theorem get_of_mem {t : Table ρ} {r : ρ} (h : r ∈ t.rows) : t.get (key r) = some r :=
  get_eq_some.mpr ⟨h, rfl⟩

theorem mem_iff_get {t : Table ρ} {r : ρ} : r ∈ t.rows ↔ t.get (key r) = some r :=
  ⟨get_of_mem, mem_of_get⟩

@[simp] theorem get_empty (k : κ) : (empty : Table ρ).get k = none := rfl

theorem mem_put {t : Table ρ} {x z : ρ} :
    z ∈ (t.put x).rows ↔ z = x ∨ z ∈ t.rows ∧ key z ≠ key x := mem_putRow t.unique

theorem get_put (t : Table ρ) (x : ρ) (k : κ) :
    (t.put x).get k = if k = key x then some x else t.get k := by
  ext r
  by_cases h : k = key x
  · subst h
    rw [get_eq_some, mem_put]
    simp only [↓reduceIte, Option.some.injEq]
    constructor
    · rintro ⟨rfl | ⟨_, hk⟩, he⟩
      · rfl
      · exact absurd he hk
    · rintro rfl
      exact ⟨Or.inl rfl, rfl⟩
  · simp only [h, ↓reduceIte]
    rw [get_eq_some, get_eq_some, mem_put]
    constructor
    · rintro ⟨rfl | ⟨hr, _⟩, rfl⟩
      · exact absurd rfl h
      · exact ⟨hr, rfl⟩
    · rintro ⟨hr, rfl⟩
      exact ⟨Or.inr ⟨hr, h⟩, rfl⟩

@[simp] theorem get_put_same (t : Table ρ) (x : ρ) : (t.put x).get (key x) = some x := by
  simp [get_put]

theorem get_put_other (t : Table ρ) {x : ρ} {k : κ} (h : k ≠ key x) :
    (t.put x).get k = t.get k := by simp [get_put, h]

/-- A write changes a count by what the new row adds less what the old row was worth. -/
theorem count_put (t : Table ρ) (x : ρ) (p : ρ → Bool) :
    ((t.put x).count p : Int) = t.count p + (if p x then 1 else 0) -
      (t.get (key x)).elim 0 (fun r => if p r then 1 else 0) := by
  have hput : ∀ l : List ρ, (((putRow x l).countP p : Nat) : Int) = l.countP p +
      (if p x then 1 else 0) - (l.find? (fun r => key r = key x)).elim 0 (fun r => if p r then 1
          else 0) := by
    intro l
    induction l with
    | nil => cases hx : p x <;> simp [putRow, hx]
    | cons y ys ih =>
      by_cases h : key y = key x
      · cases hx : p x <;> cases hy : p y <;> simp [putRow, h, hx, hy]
      · simp only [putRow, h, ↓reduceIte, List.countP_cons, Nat.cast_add, ih,
          List.find?_cons, decide_false]
        ring
  exact hput t.rows

theorem count_put_le (t : Table ρ) (x : ρ) (p : ρ → Bool) : (t.put x).count p ≤ t.count p + 1 := by
  have hput := t.count_put x p
  cases hg : t.get (key x) with
  | none =>
    simp only [hg, Option.elim_none] at hput
    split at hput <;> omega
  | some r =>
    simp only [hg, Option.elim_some] at hput
    split at hput <;> split at hput <;> omega

end Keys

end Table

end KeyedTable

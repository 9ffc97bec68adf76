import Mathlib.Data.Set.Card
import Mathlib.Data.Set.Finite.Basic

/-!
# Counted units, told apart

A ledger tells how many units are at each place, a placement where each unit is. What a ledger
does one unit at a time is what a placement may do that it counts, deed by deed.
-/
namespace Tracing

open Function

variable {L M P U S : Type}

/-- One step for each of the deeds, in their order. -/
inductive Along (step : L → S → S → Prop) : List L → S → S → Prop
  | nil {x : S} : Along step [] x x
  | cons {l : L} {deeds : List L} {x y z : S} : step l x y → Along step deeds y z →
      Along step (l :: deeds) x z

theorem Along.single {step : L → S → S → Prop} {l : L} {x y : S} (h : step l x y) :
    Along step [l] x y := .cons h .nil

theorem Along.append {step : L → S → S → Prop} {deeds more : List L} {x y z : S}
    (h : Along step deeds x y) (h' : Along step more y z) : Along step (deeds ++ more) x z := by
  induction h with
  | nil => exact h'
  | cons hstep _ ih => exact .cons hstep (ih h')

/-- With one unit more at the place; a unit that is nowhere is not counted. -/
def add [DecidableEq P] (n : P → ℕ) (a : Option P) : P → ℕ :=
  fun c => n c + if a = some c then 1 else 0

section

variable [DecidableEq P] {n n' k : P → ℕ} {a b : Option P}

@[simp] theorem add_none (n : P → ℕ) : add n none = n := by
  funext c
  simp [add]

theorem add_cancel (h : add n a = add n' a) : n = n' := by
  funext c
  exact Nat.add_right_cancel (congrFun h c)

/-- Where a place counts its own unit only, one unit is put in the place of another. -/
theorem add_exchange (S : P → Prop) (ha : ∀ c, a = some c → S c) (hb : ∀ c, b = some c → S c)
    (hn : ∀ c, S c → n c = if a = some c then 1 else 0)
    (hn' : ∀ c, S c → n' c = if b = some c then 1 else 0) (hsame : ∀ c, ¬S c → n' c = n c) :
    add n' a = add n b := by
  funext c
  unfold add
  by_cases hc : S c
  · rw [hn c hc, hn' c hc, Nat.add_comm]
  · rw [hsame c hc, if_neg fun h => hc (ha c h), if_neg fun h => hc (hb c h)]

theorem add_some_update (c : P) (j : ℕ) : add (update n c j) (some c) = update n c (j + 1) := by
  funext d
  by_cases hd : d = c
  · subst hd
    simp [add]
  · simp [add, hd, Ne.symm hd]

end

/-- Where one unit goes by a deed in a mode, and by which deeds none goes but the mode changes. -/
structure Rules (L M P : Type) where
  goes : L → M → (P → ℕ) → Option P → Option P → M → Prop
  turns : L → M → (P → ℕ) → M → Prop

/-- One step of a ledger. -/
inductive Rules.Counted [DecidableEq P] (R : Rules L M P) (l : L) :
    M × (P → ℕ) → M × (P → ℕ) → Prop
  | goes {m m' : M} {k : P → ℕ} {a b : Option P} : R.goes l m (add k a) a b m' →
      R.Counted l (m, add k a) (m', add k b)
  | turns {m m' : M} {n : P → ℕ} : R.turns l m n m' → R.Counted l (m, n) (m', n)

/-- Each unit is at one place or nowhere, and only finitely many are anywhere. -/
structure Placement (U P : Type) where
  place : U → Option P
  finite : {u | place u ≠ none}.Finite

namespace Placement

noncomputable def count (p : Placement U P) (a : P) : ℕ := {u | p.place u = some a}.ncard

def nowhere : Placement U P := ⟨fun _ => none, by simp⟩

@[simp] theorem count_nowhere : (nowhere : Placement U P).count = fun _ => 0 := by
  funext a
  simp [count, nowhere]

theorem finite_at (p : Placement U P) (a : P) : {u | p.place u = some a}.Finite :=
  p.finite.subset fun u (hu : p.place u = some a) => by simp [hu]

theorem count_eq_zero {p : Placement U P} {a : P} : p.count a = 0 ↔ ∀ u, p.place u ≠ some a := by
  unfold count
  rw [Set.ncard_eq_zero (p.finite_at a), Set.eq_empty_iff_forall_notMem]
  rfl

theorem count_eq_one {p : Placement U P} {a : P} : p.count a = 1 ↔ ∃! u, p.place u = some a := by
  unfold count
  rw [Set.ncard_eq_one]
  exact exists_congr fun u => Set.eq_singleton_iff_unique_mem

variable [DecidableEq U]

def move (p : Placement U P) (u : U) (b : Option P) : Placement U P where
  place := update p.place u b
  finite := by
    refine (p.finite.insert u).subset fun v (hv : update p.place u b v ≠ none) => ?_
    by_cases hvu : v = u
    · exact .inl hvu
    · rw [update_of_ne hvu] at hv
      exact .inr hv

variable [DecidableEq P]

/-- The unit counts where it is. -/
theorem count_eq (p : Placement U P) (u : U) :
    p.count = add (fun c => {v | v ≠ u ∧ p.place v = some c}.ncard) (p.place u) := by
  funext c
  have hfinite : {v | v ≠ u ∧ p.place v = some c}.Finite :=
    (p.finite_at c).subset fun v hv => hv.2
  unfold count add
  by_cases hu : p.place u = some c
  · have hset : {v | p.place v = some c} = insert u {v | v ≠ u ∧ p.place v = some c} := by
      ext v
      by_cases hv : v = u <;> simp [hv, hu]
    rw [hset, Set.ncard_insert_of_notMem (by simp) hfinite, if_pos hu]
  · have hset : {v | p.place v = some c} = {v | v ≠ u ∧ p.place v = some c} := by
      ext v
      by_cases hv : v = u <;> simp [hv, hu]
    rw [hset, if_neg hu, Nat.add_zero]

theorem count_move {p : Placement U P} {u : U} {k : P → ℕ} (h : p.count = add k (p.place u))
    (b : Option P) : (p.move u b).count = add k b := by
  have hrest : ∀ c, {v | v ≠ u ∧ (p.move u b).place v = some c} =
      {v | v ≠ u ∧ p.place v = some c} := by
    intro c
    ext v
    simp +contextual [move, update_of_ne]
  have hplace : (p.move u b).place u = b := update_self ..
  rw [count_eq, hplace]
  simp only [hrest]
  rw [count_eq p u] at h
  rw [add_cancel h]

omit [DecidableEq U] in
/-- A place that counts has a unit, and there are always units nowhere. -/
theorem exists_unit [Infinite U] {p : Placement U P} {k : P → ℕ} {a : Option P}
    (h : p.count = add k a) : ∃ u, p.place u = a := by
  cases a with
  | none =>
    obtain ⟨u, hu⟩ := p.finite.exists_notMem
    exact ⟨u, not_not.mp hu⟩
  | some c =>
    have hcount : p.count c ≠ 0 := by
      rw [h]
      simp [add]
    exact Set.nonempty_of_ncard_ne_zero hcount

end Placement

namespace Rules

variable [DecidableEq U] [DecidableEq P] {R : Rules L M P}

/-- One step of a placement: one unit goes. -/
inductive Told (R : Rules L M P) (l : L) : M × Placement U P → M × Placement U P → Prop
  | goes {m m' : M} {p : Placement U P} {u : U} {b : Option P} :
      R.goes l m p.count (p.place u) b m' → R.Told l (m, p) (m', p.move u b)
  | turns {m m' : M} {p : Placement U P} : R.turns l m p.count m' → R.Told l (m, p) (m', p)

theorem Counted.told [Infinite U] {l : L} {m m' : M} {p : Placement U P} {n' : P → ℕ}
    (h : R.Counted l (m, p.count) (m', n')) :
    ∃ p' : Placement U P, p'.count = n' ∧ R.Told l (m, p) (m', p') := by
  generalize hn : p.count = n at h
  cases h with
  | goes hgoes =>
    obtain ⟨u, rfl⟩ := Placement.exists_unit hn
    exact ⟨p.move u _, Placement.count_move hn _, .goes (hn ▸ hgoes)⟩
  | turns hturns => exact ⟨p, hn, .turns (hn ▸ hturns)⟩

end Rules

end Tracing

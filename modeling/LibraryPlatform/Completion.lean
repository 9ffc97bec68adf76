import Mathlib.Algebra.Order.BigOperators.Group.Finset
import Mathlib.Data.DFinsupp.WellFounded
import LibraryPlatform.Deadlock
import LibraryPlatform.FreshKeys

/-!
# Runs come to an end

No schedule goes on for ever: a statement leaves less of its program, and the transactions that
wait have finitely many locks to wait for. Where nothing moves any more, all transactions have
ended or some wait for each other in a circle.
-/
namespace Transaction

variable {σ κ ρ ν ε α β : Type} {n : Nat}

/-! ## What is left of a program -/

/-- What a transaction has still to do. -/
def Txn.rest : Txn σ κ ρ ν ε α → Option (Prog σ κ ρ ν ε α)
  | .running p _ => some p
  | .ended _ => none

variable [Store σ κ ρ ν] [DecidableEq κ]

/-- A statement that has its locks is made, if the row that it inserts is free. -/
theorem Prog.step_of_needs {p : Prog σ κ ρ ν ε α} {l : Local σ κ ρ ν} {s : σ} {free : κ → Bool}
    (hneeds : p.needs l s = []) (hfree : ∀ k f next, p = .insert k f next → free k = true) :
    ∃ x, p.step l s free = some x := by
  have hlocks : ∀ k ∈ p.wanted (l.view s), k ∈ l.locks := by
    intro k hk
    by_contra hl
    have hmem : k ∈ p.needs l s := List.mem_filter.mpr ⟨hk, by simpa using hl⟩
    rw [hneeds] at hmem
    cases hmem
  cases p with
  | lock keys q next => exact ⟨_, if_pos hlocks⟩
  | update k f next =>
    simp only [Prog.step, hlocks k (List.mem_singleton_self k), ↓reduceIte]
    split <;> exact ⟨_, rfl⟩
  | insert k f next =>
    simp only [Prog.step, hfree k f next rfl, ↓reduceIte]
    split <;> exact ⟨_, rfl⟩
  | _ => exact ⟨_, rfl⟩

namespace Sys

variable {s s' : Sys σ κ ρ ν ε α n} {i : Fin n} {m : Move κ}

/-- How many locks the transactions wait for. -/
def missing (s : Sys σ κ ρ ν ε α n) : Nat := ∑ i, ((s.txn i).needs s.db).length

def left (s : Sys σ κ ρ ν ε α n) : (Fin n → Option (Prog σ κ ρ ν ε α)) × Nat :=
  (fun i => (s.txn i).rest, s.missing)

/-- Nothing happens any more, unless the database aborts somebody. -/
def Stalled (s : Sys σ κ ρ ν ε α n) : Prop := ∀ i m s', s.step i m = some s' → m = .abort

/-- Whoever has not ended waits, if the rows that are inserted are free. -/
theorem Stalled.waits (h : s.Stalled)
    (hfree : ∀ i k f next l, s.txn i = .running (.insert k f next) l → s.free i k = true)
    {p : Prog σ κ ρ ν ε α} {l : Local σ κ ρ ν} (ht : s.txn i = .running p l) :
    ∃ j, s.WaitsFor i j := by
  have hinsert : ∀ k f next, p = .insert k f next → s.free i k = true := by
    rintro k f next rfl
    exact hfree i k f next l ht
  have hneeds : ∃ k, k ∈ p.needs l s.db := by
    by_contra hnone
    obtain ⟨x, hx⟩ : ∃ x, p.step l s.db (s.free i) = some x :=
      Prog.step_of_needs (List.eq_nil_iff_forall_not_mem.mpr (not_exists.mp hnone)) hinsert
    cases h i .run (s.set i x) (by simp only [step, ht, hx, Option.map_some])
  obtain ⟨k, hk⟩ := hneeds
  by_contra hnone
  have hkfree : s.free i k = true := by
    refine free_iff.mpr fun j _ hj => hnone ⟨j, k, ?_, hj⟩
    rw [ht]
    exact hk
  by_cases hlast : p.needs (l.hold [k]) s.db = []
  · obtain ⟨x, hx⟩ := Prog.step_of_needs hlast hinsert
    cases h i (.acquire k) (s.set i x) (by
      simp only [step, ht, hk, hkfree, hlast, hx, and_self, ↓reduceIte, Option.map_some])
  · cases h i (.acquire k) (s.set i (s.db, .running p (l.hold [k]))) (by
      simp only [step, ht, hk, hkfree, hlast, and_self, ↓reduceIte])

end Sys

end Transaction

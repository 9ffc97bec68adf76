import Mathlib.Data.List.Basic
import Mathlib.Logic.Function.Basic
import LibraryPlatform.Transaction

/-!
# Serial runs among the interleavings

A transaction that nobody disturbs does in `Sys` what `call` says, so a serial run is one of the
interleaved runs, with its states and its answers.
-/
namespace Transaction

variable {σ κ ρ ν ε α : Type} [Store σ κ ρ ν] [DecidableEq κ]

/-- The committed state and the outcome that a run of a program alone ends in. -/
def finish : Except ε α × σ × σ → σ × Txn σ κ ρ ν ε α
  | (.ok a, _, w) => (w, .ended (.returned a))
  | (.error e, base, _) => (base, .ended (.raised e))

namespace Sys

variable {n : Nat} {s : Sys σ κ ρ ν ε α n} {i : Fin n} {p : Prog σ κ ρ ν ε α} {l : Local σ κ ρ ν}

omit [Store σ κ ρ ν] [DecidableEq κ] in
@[simp] theorem set_txn (s : Sys σ κ ρ ν ε α n) (i : Fin n) (t : σ × Txn σ κ ρ ν ε α) :
    (s.set i t).txn i = t.2 := by
  simp [set]

omit [Store σ κ ρ ν] [DecidableEq κ] in
@[simp] theorem set_db (s : Sys σ κ ρ ν ε α n) (i : Fin n) (t : σ × Txn σ κ ρ ν ε α) :
    (s.set i t).db = t.1 := rfl

omit [Store σ κ ρ ν] [DecidableEq κ] in
@[simp] theorem set_set (s : Sys σ κ ρ ν ε α n) (i : Fin n) (t u : σ × Txn σ κ ρ ν ε α) :
    (s.set i t).set i u = s.set i u := by
  simp [set]

omit [Store σ κ ρ ν] in
@[simp] theorem free_set (s : Sys σ κ ρ ν ε α n) (i : Fin n) (t : σ × Txn σ κ ρ ν ε α) :
    (s.set i t).free i = s.free i := by
  funext k
  simp only [free, decide_eq_decide]
  refine forall_congr' fun j => forall_congr' fun hj => ?_
  simp [set, hj]

theorem step_run (ht : s.txn i = .running p l) :
    s.step i .run = (p.step l s.db (s.free i)).map (s.set i) := by
  simp only [step, ht]

/-- Transaction `i` can run the program to its end as if it were alone. -/
def Undisturbed (i : Fin n) (p : Prog σ κ ρ ν ε α) : Prop :=
  ∀ (s : Sys σ κ ρ ν ε α n) (l : Local σ κ ρ ν), (∀ k, s.free i k) → s.txn i = .running p l →
    l.snapshot.getD s.db = s.db →
    Reach Any s (s.set i (finish (p.exec s.db (l.view s.db))))

theorem Undisturbed.after (h : Undisturbed i p) {u : σ} (hfree : ∀ k, s.free i k)
    (hl : l.snapshot.getD u = u) (hr : Reach Any s (s.set i (u, .running p l))) :
    Reach Any s (s.set i (finish (p.exec u (l.view u)))) := by
  have hrest := h (s.set i (u, .running p l)) l (by simpa using hfree) (set_txn s i _) hl
  rw [set_set] at hrest
  exact hr.trans hrest

end Sys

end Transaction

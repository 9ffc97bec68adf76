import LibraryPlatform.LockPhases
import LibraryPlatform.LifeCycle
import LibraryPlatform.Shelf

/-!
# Lock order

`borrow_book` locks member, book, holds; `place_reservation` locks book, member; a
cancelled or expired hold is locked before its book. The orders cross, and every
circular wait goes through one of the crossings.
-/
namespace LibraryPlatform

open KeyedTable Transaction

/-- Waits of the first operation for the second that go against the order of the others. -/
def Op.againstOrder : Op → Op → Bool
  | .placeReservation _ _, .borrowBook _ _ => true
  | .cancelReservation _ _, .borrowBook _ _ => true
  | .processExpiredHolds, .borrowBook _ _ => true
  | .processExpiredHolds, .processExpiredHolds => true
  | _, _ => false

variable {n : Nat} {svc : ReservationService} {calls : Fin n → Call} {s₀ : DB} {s : Library n}

def Phase.rank : Phase → Nat
  | .returning | .borrowing => 1
  | .lending => 2
  | .collecting => 3
  | .cancelling => 4
  | .sweeping => 5
  | .placing => 6

namespace Phase

variable {φ ψ : Phase} {k : LockKind}

end Phase

/-- How late in the order a waiting transaction is: without locks it comes first. -/
def Rank (calls : Fin n → Call) (s : Library n) (i : Fin n) (r : Nat) : Prop :=
  (s.txn i).locks = [] ∧ r = 0 ∨
    (s.txn i).locks ≠ [] ∧ ∃ φ, AtPhase (calls i).op φ ((s.txn i).needs s.db)
      (s.txn i).locks s.db ∧ r = φ.rank

abbrev Ordered (calls : Fin n → Call) (s : Library n) : Prop :=
  Sys.Good lax (fun i => (calls i).op.waits) s

theorem Ordered.rank (h : Ordered calls s) {i j : Fin n} (hij : s.WaitsFor i j) :
    ∃ r, Rank calls s i r := by
  obtain ⟨k, hk, _⟩ := hij
  obtain ⟨keys, hneeds, hpoint⟩ := h.point hk
  by_cases hlocks : (s.txn i).locks = []
  · exact ⟨0, .inl ⟨hlocks, rfl⟩⟩
  · rcases hpoint with hnone | hheld | ⟨φ, hφ⟩
    · exact absurd hnone hlocks
    · rw [hneeds] at hk
      obtain ⟨hk, hfree⟩ := List.mem_filter.mp hk
      exact absurd (hheld k hk) (by simpa using hfree)
    · rw [← hneeds] at hφ
      exact ⟨φ.rank, .inr ⟨hlocks, φ, hφ, rfl⟩⟩

end LibraryPlatform

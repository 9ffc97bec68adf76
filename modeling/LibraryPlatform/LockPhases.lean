import LibraryPlatform.Deadlock
import LibraryPlatform.Operations

/-!
# Where the operations wait for row locks

What each operation may already have locked where it waits, and what it waits for. A
reservation counts by the status it has in the committed store.
-/
namespace LibraryPlatform

open KeyedTable Transaction ReservationRepository

inductive LockKind where
  | member | book | borrowRecord | pending | hold | closed | refreshToken
  deriving DecidableEq

def ReservationStatus.kind : ReservationStatus → LockKind
  | .pending => .pending
  | .hold => .hold
  | _ => .closed

namespace DB

def kind (s : DB) : RowKey → LockKind
  | .member _ => .member
  | .book _ => .book
  | .borrowRecord _ => .borrowRecord
  | .reservation id => (s.reservations.get id).elim .closed (fun r => r.status.kind)
  | .refreshToken _ => .refreshToken

/-- The book that a reservation is for. -/
def bookOf (s : DB) : RowKey → Option UUID
  | .reservation id => (s.reservations.get id).map Reservation.bookId
  | _ => none

end DB

/-- Where an operation waits with some rows locked: a return for its copy's next place, a
loan for its book (`borrowing`) or for the holds of it (`lending`), a sweep at its first
read (`collecting`) or in its loop, a cancellation, a reservation for its member. -/
inductive Phase where
  | returning | borrowing | lending | collecting | cancelling | sweeping | placing
  deriving DecidableEq

namespace Phase

def of : Phase → Op → Bool
  | .returning, .returnBook _ | .borrowing, .borrowBook _ _ | .lending, .borrowBook _ _ => true
  | .collecting, .processExpiredHolds | .sweeping, .processExpiredHolds => true
  | .cancelling, .cancelReservation _ _ | .placing, .placeReservation _ _ => true
  | _, _ => false

def wants : Phase → List LockKind
  | .returning | .cancelling | .sweeping => [.pending, .book]
  | .borrowing => [.book]
  | .lending | .collecting => [.hold]
  | .placing => [.member]

def holds : Phase → List LockKind
  | .returning => [.borrowRecord]
  | .borrowing => [.member]
  | .lending => [.member, .book, .hold]
  | .collecting | .cancelling => [.hold]
  | .sweeping => [.pending, .book, .hold]
  | .placing => [.book]

end Phase

/-- The transaction of `op` is in the phase: it has `locks` and is short of `needs`. A
loan that waits for the holds of a book has that book. -/
structure AtPhase (op : Op) (φ : Phase) (needs locks : List RowKey) (s : DB) : Prop where
  mine : φ.of op
  wants : ∀ k ∈ needs, s.kind k ∈ φ.wants
  holds : ∀ k ∈ locks, s.kind k ∈ φ.holds
  book : φ = .lending → ∃ b, .book b ∈ locks ∧ ∀ k ∈ needs ++ locks, s.kind k = .hold →
    s.bookOf k = some b

/-- Where an operation wants `keys`, it has nothing yet, or needs nothing more, or is in
one of its phases. -/
def Op.Point (op : Op) (keys locks : List RowKey) (s : DB) : Prop :=
  locks = [] ∨ (∀ k ∈ keys, k ∈ locks) ∨
    ∃ φ, AtPhase op φ (keys.filter (fun k => k ∉ locks)) locks s

/-- The contract of an operation about its waiting. -/
def Op.waits (op : Op) : Contract DB RowKey Reply := .waitsAt op.Point

section

variable {s t : DB} {k : RowKey}

theorem kind_congr (h : Store.row k s = Store.row k t) : s.kind k = t.kind k := by
  cases k with
  | reservation id => simp only [DB.kind, same_reservation h]
  | _ => rfl

theorem Point.nothing {op : Op} {keys : List RowKey} : op.Point keys [] s := .inl rfl

theorem Point.held {op : Op} {locks : List RowKey} (h : k ∈ locks) : op.Point [k] locks s :=
  .inr (.inl (by simpa using h))

end

/-- A transaction has locked rows of the given kinds only, and written no others. -/
structure Holding (kinds : List LockKind) (l : Local DB RowKey Row Event) (s : DB) : Prop where
  owned : l.Owned
  kinds : ∀ k ∈ l.locks, s.kind k ∈ kinds

namespace Holding

variable {K K' : List LockKind} {l : Local DB RowKey Row Event} {s t : DB}

theorem init : Holding K .init s := ⟨by simp [Local.Owned, Local.init], by simp⟩

theorem later (h : Holding K l s) (hl : Later lax l s t) : Holding K l t := by
  refine ⟨h.owned, fun k hk => ?_⟩
  rw [kind_congr (hl.rows k hk)]
  exact h.kinds k hk

theorem mono (h : Holding K l s) (hK : ∀ k ∈ K, k ∈ K') : Holding K' l s :=
  ⟨h.owned, fun k hk => hK _ (h.kinds k hk)⟩

theorem hold (h : Holding K l s) {A : List RowKey} (hA : ∀ a ∈ A, s.kind a ∈ K) :
    Holding K (l.hold A) s := by
  refine ⟨h.owned.hold A, fun k hk => ?_⟩
  rcases List.mem_append.mp hk with hk | hk
  · exact hA k hk
  · exact h.kinds k hk

theorem noted (h : Holding K l s) (e : Event) : Holding K (l.noted e) s :=
  ⟨h.owned.noted e, h.kinds⟩

theorem snap (h : Holding K l s) (w : DB) : Holding K (l.snap w) s := ⟨h.owned, h.kinds⟩

/-- The view agrees with the store about the rows that are not locked. -/
theorem kind_view (h : Holding K l s) {k : RowKey} (hk : k ∉ l.locks) :
    s.kind k = (l.view s).kind k :=
  (kind_congr (h.owned.row hk s)).symm

theorem point {op : Op} (φ : Phase) (h : Holding φ.holds l s) (hφ : φ.of op) (hne : φ ≠ .lending)
    {keys : List RowKey} (hkeys : ∀ k ∈ keys, (l.view s).kind k ∈ φ.wants) :
    op.Point keys l.locks s := by
  refine .inr (.inr ⟨φ, hφ, fun k hk => ?_, h.kinds, fun he => absurd he hne⟩)
  obtain ⟨hk, hfree⟩ := List.mem_filter.mp hk
  rw [h.kind_view (by simpa using hfree)]
  exact hkeys k hk

end Holding

section

variable {op : Op} {l : Local DB RowKey Row Event} {s : DB}

theorem one_of_option {α : Type} {o : Option α} {f : α → RowKey} :
    ∀ k ∈ o.toList.map f, ∀ a ∈ o.toList.map f, k = a := by
  cases o <;> simp

theorem mem_lookup {α : Type} {o : Option α} {key k : RowKey}
    (h : k ∈ o.toList.map (fun _ => key)) : k = key := by
  cases o <;> simp_all

end

end LibraryPlatform

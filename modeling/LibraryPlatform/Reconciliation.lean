import Mathlib.Algebra.BigOperators.Ring.Finset
import LibraryPlatform.Dashboard
import LibraryPlatform.DeletedBooks
import LibraryPlatform.Grouping

/-!
# Whether the inventory adds up

The dashboard sums the copies of the listed books, and counts loans and holds of all books. The
numbers agree as long as nothing of a deleted book is out or held.
-/
namespace LibraryPlatform

open KeyedTable Transaction ReservationRepository

/-- The copies of a summary are on the shelf, checked out or on hold. -/
def Reconciles (s : DB) : Prop :=
  ∀ env days, ∃ r, call (DashboardService.getSummary env days) s = (.ok r, s) ∧
    r.inventory.totalCopies =
      r.inventory.availableCopies + r.inventory.checkedOutCopies + r.reservations.hold

/-- No copy of a deleted book is out or held. -/
def Settled (s : DB) : Prop :=
  ∀ bookId, Withdrawn bookId s → s.loans bookId = 0 ∧ s.holds bookId = 0

/-- A call that deletes a book finds no copy of it out or held. -/
def DeletesIdle (s : DB) (op : Op) : Prop :=
  ∀ bookId, op = .deleteBook bookId → s.loans bookId = 0 ∧ s.holds bookId = 0

variable {svc : ReservationService} {env : Env} {s s' : DB} {bookId : UUID}

/-! ## The sums -/

theorem mem_listed {b : Book} : b ∈ s.listed ↔ b ∈ s.books.rows ∧ b.isDeleted = false := by
  simp [DB.listed]

theorem listed_nodup (s : DB) : (s.listed.map Book.id).Nodup :=
  s.books.unique.sublist (List.filter_sublist.map _)

/-- What is counted per listed book, counted over all the rows. -/
theorem sum_listed {ρ : Type} [Keyed UUID ρ] (t : Table ρ) (book : ρ → UUID) (p : ρ → Bool) :
    (s.listed.map fun b => (t.count (fun r => book r = b.id && p r) : Int)).sum =
      t.count (fun r => book r ∈ s.listed.map Book.id && p r) := by
  have hsum := Grouping.sum_countP (f := book) (p := p) _ (listed_nodup s) t.rows
  rw [List.map_map] at hsum
  rw [Table.count, ← hsum, Nat.cast_list_sum, List.map_map]
  rfl

/-- The listed books account for their own loans and holds. -/
theorem listed_copies (h : Balanced s (fun _ => 0)) :
    (s.listed.map Book.totalCopies).sum = (s.listed.map Book.availableCopies).sum +
      s.borrowRecords.count (fun r => r.bookId ∈ s.listed.map Book.id && r.status.isActive) +
      s.reservations.count (fun r => r.bookId ∈ s.listed.map Book.id && r.status = .hold) := by
  have hbook : s.listed.map Book.totalCopies =
      s.listed.map (fun b => b.availableCopies + s.loans b.id + s.holds b.id) := by
    refine List.map_congr_left fun b hb => ?_
    obtain ⟨hmem, hdel⟩ := mem_listed.mp hb
    have hbal := h.balance b.id b (Table.get_of_mem hmem) hdel
    omega
  have hloans := sum_listed (s := s) s.borrowRecords BorrowRecord.bookId (·.status.isActive)
  have hholds := sum_listed (s := s) s.reservations Reservation.bookId (·.status = .hold)
  rw [hbook, List.sum_map_add, List.sum_map_add, ← hloans, ← hholds]
  rfl

/-- The rows of listed books are all that count exactly when none counts of a deleted book. -/
theorem counted_listed_iff {ρ : Type} [Keyed UUID ρ] (t : Table ρ) (book : ρ → UUID)
    (p : ρ → Bool) (hbooks : ∀ r ∈ t.rows, s.books.get (book r) ≠ none) :
    t.count (fun r => book r ∈ s.listed.map Book.id && p r) = t.count p ↔
      ∀ id, Withdrawn id s → t.count (fun r => book r = id && p r) = 0 := by
  unfold Table.count
  rw [Grouping.countP_and_eq_iff]
  constructor
  · rintro hlisted id ⟨b, hb, hdel⟩
    refine List.countP_eq_zero.mpr fun r hr hp => ?_
    obtain ⟨hid, hp⟩ : book r = id ∧ p r := by simpa using hp
    obtain ⟨b', hb', hid'⟩ := List.mem_map.mp (by simpa using hlisted r hr hp)
    obtain ⟨hmem, hactive⟩ := mem_listed.mp hb'
    have hget : s.books.get id = some b' := by
      rw [← hid, ← hid']
      exact Table.get_of_mem hmem
    obtain rfl := Option.some.inj (hb.symm.trans hget)
    cases hdel.symm.trans hactive
  · intro hnone r hr hp
    obtain ⟨b, hb⟩ := Option.ne_none_iff_exists'.mp (hbooks r hr)
    have hid : b.id = book r := Table.key_of_get hb
    cases hdel : b.isDeleted with
    | false =>
      have hmem : book r ∈ s.listed.map Book.id :=
        List.mem_map.mpr ⟨b, mem_listed.mpr ⟨Table.mem_of_get hb, hdel⟩, hid⟩
      simpa using hmem
    | true =>
      have hzero := List.countP_eq_zero.mp (hnone (book r) ⟨b, hb, hdel⟩) r hr
      exact absurd hp (by simpa using hzero)

theorem count_listed_le {ρ : Type} [Keyed UUID ρ] (t : Table ρ) (book : ρ → UUID) (p : ρ → Bool) :
    t.count (fun r => book r ∈ s.listed.map Book.id && p r) ≤ t.count p :=
  List.countP_mono_left fun _ _ hr => ((Bool.and_eq_true _ _).mp hr).2

/-- The dashboard adds up exactly when nothing of a deleted book is out or held. -/
theorem Balanced.reconciles_iff (h : Balanced s (fun _ => 0)) : Reconciles s ↔ Settled s := by
  have hactive : s.borrowRecords.count DashboardRepository.isActive =
      s.borrowRecords.count (fun r => r.status.isActive) := by
    refine List.countP_congr fun r hr => ?_
    have hstatus := h.loanStatus r hr
    unfold DashboardRepository.isActive
    cases hs : r.status <;> simp_all [BorrowStatus.isActive]
  have hloans := counted_listed_iff (s := s) s.borrowRecords BorrowRecord.bookId
    (·.status.isActive) h.loanBooks
  have hholds := counted_listed_iff (s := s) s.reservations Reservation.bookId
    (·.status = .hold) h.reservationBooks
  have hsum : Reconciles s ↔
      s.borrowRecords.count (fun r => r.bookId ∈ s.listed.map Book.id && r.status.isActive) =
        s.borrowRecords.count (fun r => r.status.isActive) ∧
      s.reservations.count (fun r => r.bookId ∈ s.listed.map Book.id && r.status = .hold) =
        s.reservations.count (fun r => r.status = .hold) := by
    have hcopies := listed_copies h
    have hle := count_listed_le (s := s) s.borrowRecords BorrowRecord.bookId (·.status.isActive)
    have hle' := count_listed_le (s := s) s.reservations Reservation.bookId (·.status = .hold)
    constructor
    · intro hrec
      obtain ⟨r, hr, heq⟩ := hrec demoDashboardEnv 30
      have hparts := getSummary_ok hr
      rw [hparts.inventory, hparts.hold, hactive] at heq
      simp only at heq
      omega
    · rintro ⟨heq, heq'⟩ env days
      obtain ⟨r, hr, hparts⟩ := call_getSummary env days s
      refine ⟨r, hr, ?_⟩
      rw [hparts.inventory, hparts.hold, hactive]
      simp only
      omega
  rw [hsum, hloans, hholds]
  constructor
  · rintro ⟨hl, hh⟩ id hw
    exact ⟨Int.natCast_eq_zero.mpr (hl id hw), Int.natCast_eq_zero.mpr (hh id hw)⟩
  · intro hs
    exact ⟨fun id hw => Int.natCast_eq_zero.mp (hs id hw).1,
      fun id hw => Int.natCast_eq_zero.mp (hs id hw).2⟩

/-! ## Runs -/

/-- Only `delete_book` takes a book off the list. -/
theorem Op.Effect.withdraws {D : Discipline DB RowKey} {guard : RowKey → Option DB → DB → Prop}
    {v v' : DB} {op : Op} (h : op.Effect D guard s svc env v v') (hw : Withdrawn bookId v')
    (hnew : ¬Withdrawn bookId v) : op = .deleteBook bookId := by
  obtain ⟨b', hget, hdel⟩ := hw
  have hcounted : op.isInventory = false → False := by
    intro hop
    have hchange := Op.Effect.counted h hop bookId
    rw [hget] at hchange
    generalize ho : v.books.get bookId = o at hchange
    cases hchange with
    | same => exact hnew ⟨b', ho, hdel⟩
    | copies _ hactive => cases hactive.symm.trans hdel
  cases op with
  | createBook =>
    rw [h.stored, get_putBook] at hget
    split at hget
    · cases hget
      cases hdel
    · exact absurd ⟨b', hget, hdel⟩ hnew
  | updateBook =>
    cases h with
    | texts _ hactive _ hstore | copies _ hactive _ _ _ hstore =>
      obtain ⟨_, _, _, _, _, _, _, _, rfl⟩ := storeBook_ok hstore
      rw [get_putBook] at hget
      split at hget
      · cases hget
        cases hactive.symm.trans hdel
      · exact absurd ⟨b', hget, hdel⟩ hnew
  | deleteBook id =>
    cases h
    rw [get_putBook] at hget
    split at hget
    · rename_i hid
      rw [hid]
    · exact absurd ⟨b', hget, hdel⟩ hnew
  | borrowBook | returnBook | renewBook | placeReservation | cancelReservation
  | processExpiredHolds => exact (hcounted rfl).elim

theorem Op.Alone.withdraws {op : Op} (h : op.Alone s svc env s') (hw : Withdrawn bookId s')
    (hnew : ¬Withdrawn bookId s) : op = .deleteBook bookId := Op.Effect.withdraws h hw hnew

namespace Settled

theorem op {op : Op} (h : Settled s) (hb : Balanced s (fun _ => 0)) (hidle : DeletesIdle s op)
    (he : op.Alone s svc env s') : Settled s' := by
  intro bookId hw
  have hgone : Withdrawn bookId s ∨ op = .deleteBook bookId := by
    by_cases hs : Withdrawn bookId s
    · exact .inl hs
    · exact .inr (he.withdraws hw hs)
  obtain ⟨hloans, hholds⟩ : s.loans bookId = 0 ∧ s.holds bookId = 0 :=
    hgone.elim (h bookId) (hidle bookId)
  have noLoan : ∀ r ∈ s.borrowRecords.rows, r.bookId = bookId → r.status = .returned := by
    intro r hr hbook
    by_contra hopen
    refine Table.count_eq_zero.mp (Int.natCast_eq_zero.mp hloans) r hr ?_
    simp [isLoanOf, hbook, isActive_of hopen (hb.loanStatus r hr)]
  have noHold := Table.count_eq_zero.mp (Int.natCast_eq_zero.mp hholds)
  constructor
  · refine Int.natCast_eq_zero.mpr (Table.count_eq_zero.mpr fun r hr hp => ?_)
    obtain ⟨hbook, hactive⟩ : r.bookId = bookId ∧ r.status.isActive := by simpa [isLoanOf] using hp
    have hget : s'.borrowRecords.get r.id = some r := Table.get_of_mem hr
    have hchange := Op.Alone.loan he r.id
    rw [hget] at hchange
    generalize ho : s.borrowRecords.get r.id = o at hchange
    cases hchange with
    | same =>
      rw [noLoan r (Table.mem_of_get ho) hbook] at hactive
      cases hactive
    | lent memberId id =>
      obtain rfl : id = bookId := hbook
      have hop := Op.Alone.lends he ho hget
      rcases hgone with hs | hdel
      · rw [hop] at he
        exact hs.not_borrowed he
      · cases hop.symm.trans hdel
    | @renewed q hopen => exact hopen (noLoan q (Table.mem_of_get ho) hbook)
    | returned => cases hactive
  · refine Int.natCast_eq_zero.mpr (Table.count_eq_zero.mpr fun q hq hp => ?_)
    obtain ⟨rfl, hs⟩ := isHoldOf_iff.mp hp
    by_cases hold : q ∈ s.reservations.rows
    · exact noHold q hold hp
    · obtain ⟨hfrees, _⟩ := Op.Alone.promotes he (Table.get_of_mem hq) hs
        fun hget => hold (Table.mem_of_get hget)
      cases op with
      | returnBook id =>
        obtain ⟨r, hr, _, hbook, hopen⟩ := hfrees
        exact hopen (noLoan r hr hbook)
      | cancelReservation id memberId =>
        obtain ⟨r, hr, _, _, hheld⟩ := hfrees
        exact noHold r hr hheld
      | processExpiredHolds =>
        obtain ⟨r, hr, hbook, hexpired⟩ := hfrees
        have hheld : r.status = .hold := by
          simp only [isExpiredHold, Bool.and_eq_true, decide_eq_true_eq] at hexpired
          exact hexpired.1
        exact noHold r hr (isHoldOf_iff.mpr ⟨hbook, hheld⟩)
      | createBook | updateBook | deleteBook | borrowBook | renewBook | placeReservation =>
        exact hfrees

theorem of_runs (h : Runs svc DeletesIdle s) : Settled s := by
  refine (Runs.invariant (I := fun s => Balanced s (fun _ => 0) ∧ Settled s)
    (fun collation => ⟨.empty collation, ?_⟩)
    (fun _ _ _ _ hs hidle he => ⟨hs.1.op he, hs.2.op hs.1 hidle he⟩)
    (fun _ _ hs ha => ⟨hs.1.accounts ha, ?_⟩) h).2
  · rintro bookId ⟨b, hb, _⟩
    cases hb
  · obtain ⟨_, _, rfl⟩ := ha.frame
    exact hs.2

end Settled

/-- The inventory adds up in every run that deletes a book only when all of its copies are in. -/
theorem inventory_reconciles (h : Runs svc DeletesIdle s) : Reconciles s :=
  (Balanced.of_runs h).reconciles_iff.mpr (.of_runs h)

/-- A copy has been lent and has come back. -/
def demoAllIn : DB :=
  serial ⟨48⟩ [(demoEnv 1 0, .createBook "Emma" "Austen" "9780141439587" 2 none),
    (demoEnv 100 hour, .borrowBook 10 1), (demoEnv 0 (2 * hour), .returnBook 100)] demoStart

/-- The book is deleted when its copies are in. -/
theorem inventory_reconciles_demo :
    Reconciles (serial ⟨48⟩ [(demoEnv 0 (3 * hour), .deleteBook 1)] demoAllIn) := by
  have hlent : Runs ⟨48⟩ DeletesIdle demoAllIn := by
    refine demoStart_runs.serial _ fun c hc s bookId hop => ?_
    simp only [List.mem_cons, List.not_mem_nil, or_false] at hc
    rcases hc with rfl | rfl | rfl <;> cases hop
  have hidle : DeletesIdle demoAllIn (.deleteBook 1) := by
    rintro bookId hop
    cases hop
    decide
  exact inventory_reconciles (hlent.call (demoEnv 0 (3 * hour)) hidle (Prod.eta _).symm)

/-- A copy is out. -/
def demoOneOut : DB :=
  serial ⟨48⟩ [(demoEnv 1 0, .createBook "Emma" "Austen" "9780141439587" 2 none),
    (demoEnv 100 hour, .borrowBook 10 1)] demoStart

/-- The book is deleted while its copy is out. -/
theorem deleted_copy_counted : ¬∀ s, Runs ⟨48⟩ AnyOp s → Reconciles s := by
  intro hclaim
  have hout : Runs ⟨48⟩ AnyOp demoOneOut := demoStart_runs.serial _ fun _ _ _ => trivial
  have hrec := hclaim _ (hout.serial [(demoEnv 0 (2 * hour), .deleteBook 1)] fun _ _ _ => trivial)
  obtain ⟨r, hr, heq⟩ := hrec demoDashboardEnv 30
  rw [(getSummary_ok hr).inventory, (getSummary_ok hr).hold] at heq
  exact absurd heq (by decide)

end LibraryPlatform

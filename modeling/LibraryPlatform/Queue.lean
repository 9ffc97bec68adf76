import LibraryPlatform.Inventory

/-!
# Nobody overtakes the queue

`borrow_book` does not look at the queue, so a copy on the shelf is free for anybody.
While somebody waits for a book its shelf has to be empty; what keeps it so is that
every copy that comes back goes to the queue first.
-/
namespace LibraryPlatform

open KeyedTable Transaction ReservationRepository

def DB.Waiting (db : DB) (bookId : UUID) : Prop := ∃ r ∈ db.reservations.rows, isPendingOf bookId r

/-- The shelf of a book somebody waits for is empty. -/
def ShelfEmpty (db : DB) : Prop :=
  ∀ id b, db.books.get id = some b → b.isDeleted = false → db.Waiting id → b.availableCopies = 0

theorem waiting_putReservation {db : DB} {id bookId : UUID} {r : Reservation}
    (h : (db.put (.reservation id) (.reservation r)).Waiting bookId) :
    isPendingOf bookId r ∨ db.Waiting bookId := by
  obtain ⟨q, hq, hp⟩ := h
  rcases mem_putReservation hq with rfl | hq
  · exact .inl hp
  · exact .inr ⟨q, hq, hp⟩

namespace ShelfEmpty

variable {db : DB}

/-- A reservation that does not wait is written. -/
theorem putReservation (h : ShelfEmpty db) {id : UUID} {r : Reservation}
    (hr : r.status ≠ .pending) : ShelfEmpty (db.put (.reservation id) (.reservation r)) := by
  intro x b hb hdel hw
  rcases waiting_putReservation hw with hp | hw
  · exact absurd (isPendingOf_iff.mp hp).2 hr
  · exact h x b hb hdel hw

theorem putLoan (h : ShelfEmpty db) {id : UUID} {r : BorrowRecord} :
    ShelfEmpty (db.put (.borrowRecord id) (.borrowRecord r)) := h

theorem record (h : ShelfEmpty db) {e : Event} : ShelfEmpty (db.record e) := h

/-- A book is written that nobody waits for, or whose shelf is empty. -/
theorem putBook (h : ShelfEmpty db) {id : UUID} {b : Book}
    (hb : b.isDeleted = false → db.Waiting id → b.availableCopies = 0) :
    ShelfEmpty (db.put (.book id) (.book b)) := by
  intro x y hy hdel hw
  rw [get_putBook] at hy
  by_cases hx : x = id
  · subst hx
    simp only [↓reduceIte, Option.some.injEq] at hy
    subst hy
    exact hb hdel hw
  · simp only [hx, ↓reduceIte] at hy
    exact h x y hy hdel hw

theorem handed {s v v' : DB} {order : RowOrder Reservation} {expiresAt : Int} {bookId : UUID}
    (h : ShelfEmpty v)
    (hh : Handed (alone s) s (oldestPending order bookId) expiresAt bookId v v') :
    ShelfEmpty v' := by
  cases hh with
  | promoted => exact h.putReservation (by simp)
  | restored hw hnone =>
    obtain rfl := alone_saw hw
    refine h.putBook fun _ hwait => ?_
    obtain ⟨q, hq, hp⟩ := hwait
    exact absurd hp (oldestPending_none hnone q hq)
  | gone => exact h

theorem expiring {s : DB} {svc : ReservationService} {env : Env} {rest : List Reservation} {n : Nat}
    {v v' : DB} (h : ShelfEmpty v) (he : Expiring (alone s) s svc env rest n v v') :
    ShelfEmpty v' := by
  induction he with
  | nil => exact h
  | cons _ hh _ ih => exact ih ((h.putReservation (by simp)).handed hh)

theorem cancelled {s v' : DB} {svc : ReservationService} {env : Env} {id memberId : UUID}
    (h : ShelfEmpty s) (hc : Cancelled (alone s) s svc env id memberId s v') : ShelfEmpty v' := by
  cases hc with
  | waiting => exact h.putReservation (by simp)
  | held _ _ _ hh => exact (h.putReservation (by simp)).handed hh

theorem returned {guard : Option DB → DB → Prop} {s v' : DB} {svc : ReservationService} {env : Env}
    {id : UUID} (h : ShelfEmpty s)
    (hr : Returned (alone s) guard s (getBorrowService svc) env id s v') : ShelfEmpty v' := by
  cases hr with
  | again => exact h
  | handed _ _ _ _ _ _ hh =>
    rw [getBorrowService_waiting] at hh
    exact h.putLoan.handed hh

/-- A copy from the shelf is taken only of a book that nobody waits for. -/
theorem borrowed {D : Discipline DB RowKey} {s v' : DB} {svc : BorrowService} {env : Env}
    {memberId bookId : UUID} (h : ShelfEmpty db) (hb : Borrowed D s svc env memberId bookId db v') :
    ShelfEmpty v' := by
  cases hb with
  | held => exact h.putReservation (by simp)
  | @shelf u b hready _ _ hget havail _ =>
    refine h.putBook fun hdel hwait => ?_
    have hzero := h bookId b hget hdel hwait
    omega

theorem placed {D : Discipline DB RowKey} {s v' : DB} {env : Env} {memberId bookId : UUID}
    (h : ShelfEmpty db) (hbal : Balanced db (fun _ => 0))
    (hp : Placed D s env memberId bookId db v') : ShelfEmpty v' := by
  obtain ⟨b, hb, hdel, havail⟩ := hp.book
  rw [hp.stored]
  intro x y hy hydel hw
  rcases waiting_putReservation hw with hpending | hw
  · obtain rfl : bookId = x := (isPendingOf_iff.mp hpending).1
    obtain rfl : b = y := Option.some.inj (hb.symm.trans hy)
    have hpos := (hbal.balance _ b hb hdel).2
    omega
  · exact h x y hy hydel hw

theorem created {b : Book} {v' : DB} (h : ShelfEmpty db) (hbal : Balanced db (fun _ => 0))
    (hc : Created b db v') : ShelfEmpty v' := by
  rw [hc.stored]
  refine h.putBook fun _ hwait => ?_
  obtain ⟨q, hq, hp⟩ := hwait
  exact absurd ((isPendingOf_iff.mp hp).1 ▸ hc.fresh) (hbal.reservationBooks q hq)

end ShelfEmpty

/-- An update does not raise the number of copies of a book somebody waits for. -/
def NoRaise (s : DB) : Op → Prop
  | .updateBook bookId body => ∀ b total, s.activeBook bookId = some b →
      body.totalCopies = some (some total) →
      b.totalCopies < total → ¬s.Waiting bookId
  | _ => True

theorem ShelfEmpty.updated {D : Discipline DB RowKey} {s v' : DB} {bookId : UUID}
    {body : BookUpdate} (h : ShelfEmpty s) (hraise : NoRaise s (.updateBook bookId body))
    (hu : Updated D s bookId body s v') : ShelfEmpty v' := by
  cases hu with
  | @texts w b b' hb hdel _ hstore =>
    obtain ⟨_, _, _, _, _, _, _, _, rfl⟩ := storeBook_ok hstore
    exact h.putBook fun _ hwait => h bookId b hb hdel hwait
  | @copies w b b' total hb hdel htotal _ _ hstore =>
    obtain ⟨hpos, _, _, _, _, _, _, _, rfl⟩ := storeBook_ok hstore
    refine h.record.putBook fun _ hwait => ?_
    have hzero := h bookId b hb hdel hwait
    have hle : total ≤ b.totalCopies := by
      by_contra hlt
      exact hraise b total (activeBook_eq_some.mpr ⟨hb, hdel⟩) htotal (by omega) hwait
    simp only
    omega

theorem ShelfEmpty.op {s s' : DB} {svc : ReservationService} {env : Env} {op : Op}
    (h : ShelfEmpty s) (hbal : Balanced s (fun _ => 0)) (hraise : NoRaise s op)
    (he : op.Alone s svc env s') : ShelfEmpty s' := by
  cases op with
  | createBook => exact h.created hbal he
  | updateBook => exact h.updated hraise he
  | deleteBook => cases he with | mk => exact h.putBook (by simp)
  | borrowBook => exact h.borrowed he
  | returnBook => exact h.returned he
  | renewBook => cases he with | mk => exact h.putLoan
  | placeReservation => exact h.placed hbal he
  | cancelReservation => exact h.cancelled he
  | processExpiredHolds =>
    obtain ⟨_, _, _, he⟩ := he
    exact h.expiring he

/-- Nobody overtakes the queue, as long as no update raises the number of copies of a
book somebody waits for. -/
theorem shelf_empty_while_waiting {svc : ReservationService} {s : DB} (h : Runs svc NoRaise s)
    {b : Book} (hb : b ∈ s.books.rows) (hdel : b.isDeleted = false) {r : Reservation}
    (hr : r ∈ s.reservations.rows) (hp : isPendingOf b.id r) : b.availableCopies = 0 := by
  have hinv : Balanced s (fun _ => 0) ∧ ShelfEmpty s := by
    refine Runs.invariant (I := fun s => Balanced s (fun _ => 0) ∧
      ShelfEmpty s) (fun collation => ⟨.empty collation, ?_⟩) ?_ ?_ h
    · intro id b hb
      cases hb
    · intro s s' op env hi hg he
      exact ⟨hi.1.op he, hi.2.op hi.1 hg he⟩
    · intro s s' hi ha
      obtain ⟨_, _, rfl⟩ := ha.frame
      exact ⟨hi.1.accounts ha, hi.2⟩
  exact hinv.2 b.id b (Table.get_of_mem hb) hdel ⟨r, hr, hp⟩

/-- The only copy is out, and somebody waits for it. -/
def demoWaiting : DB :=
  serial ⟨48⟩ [(demoEnv 1 0, .createBook "Emma" "Austen" "9780141439587" 1 none),
    (demoEnv 100 hour, .borrowBook 10 1),
    (demoEnv 200 (2 * hour), .placeReservation 11 1)] demoStart

theorem demoWaiting_runs : Runs ⟨48⟩ AnyOp demoWaiting :=
  demoStart_runs.serial _ fun _ _ _ => trivial

theorem shelf_empty_while_waiting_demo :
    ∃ b ∈ demoWaiting.books.rows, ∃ r ∈ demoWaiting.reservations.rows, isPendingOf b.id r ∧
    b.availableCopies = 0 := by
  have hr : Runs ⟨48⟩ NoRaise demoWaiting := demoStart_runs.serial _ (by simp [NoRaise])
  have hb : (⟨1, "9780141439587", "Emma", "Austen", none, 1, 0, false, none⟩ : Book) ∈
    demoWaiting.books.rows := by decide
  have hw : (⟨200, 11, 1, 2 * hour, none, .pending⟩ : Reservation) ∈
    demoWaiting.reservations.rows := by decide
  exact ⟨_, hb, _, hw, by decide, shelf_empty_while_waiting hr hb rfl hw (by decide)⟩

/-- A second copy is bought and stands on the shelf, although somebody waits. -/
theorem raise_overtakes_queue :
    ¬∀ s, Runs ⟨48⟩ AnyOp s → ∀ b ∈ s.books.rows, b.isDeleted = false →
      (∃ r ∈ s.reservations.rows, isPendingOf b.id r) → b.availableCopies = 0 := by
  intro hclaim
  have hs := hclaim _ (demoStart_runs.serial
    [(demoEnv 1 0, .createBook "Emma" "Austen" "9780141439587" 1 none),
    (demoEnv 100 hour, .borrowBook 10 1), (demoEnv 200 (2 * hour), .placeReservation 11 1),
    (demoEnv 0 (3 * hour), .updateBook 1 ⟨none, none, none, none, some (some 2)⟩)] fun _ _ _ =>
      trivial)
    ⟨1, "9780141439587", "Emma", "Austen", none, 2, 1, false, none⟩ (by decide) rfl
    ⟨⟨200, 11, 1, 2 * hour, none, .pending⟩, by decide, by decide⟩
  exact absurd hs (by decide)

end LibraryPlatform

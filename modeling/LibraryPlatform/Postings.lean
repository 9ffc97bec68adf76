import LibraryPlatform.Concurrency
import LibraryPlatform.Inventory
import LibraryPlatform.Loans
import LibraryPlatform.Snapshots

/-!
# What a commit does to the shelf

The loans, the reservations and the total of a book before and after a commit tell which of its
copies have been checked out, given back or added. The count on the shelf and the journal agree
with them.
-/
namespace LibraryPlatform

open KeyedTable Transaction ReservationRepository

/-! ## What a commit does with the copies of a book -/

/-- The loan has been made since `s`. -/
def isLent (bookId : UUID) (s : DB) (r : BorrowRecord) : Bool :=
  r.bookId = bookId && (s.borrowRecords.get r.id).isNone

/-- The loan has been returned since `s`. -/
def isClosed (bookId : UUID) (s : DB) (r : BorrowRecord) : Bool :=
  r.bookId = bookId && r.status = .returned &&
    (s.borrowRecords.get r.id).any fun q => q.status ≠ .returned

/-- The reservation has come from one status to another since `s`. -/
def isTurned (bookId : UUID) (s : DB) (before : ReservationStatus)
    (after : List ReservationStatus) (r : Reservation) : Bool :=
  r.bookId = bookId && after.contains r.status &&
    (s.reservations.get r.id).any fun q => q.status = before

/-- The checkouts between two states that took up no hold. -/
def checkouts (bookId : UUID) (s t : DB) : Int :=
  t.borrowRecords.count (isLent bookId s) -
    t.reservations.count (isTurned bookId s .hold [.completed])

/-- The copies given back between two states, by a return or for a hold that is cancelled or
expires, but for those that have become the hold of somebody who waited. -/
def restores (bookId : UUID) (s t : DB) : Int :=
  t.borrowRecords.count (isClosed bookId s) +
    t.reservations.count (isTurned bookId s .hold [.cancelled, .expired]) -
    t.reservations.count (isTurned bookId s .pending [.hold])

namespace DB

def available (db : DB) (bookId : UUID) : Int := (db.books.get bookId).elim 0 Book.availableCopies
def total (db : DB) (bookId : UUID) : Int := (db.books.get bookId).elim 0 Book.totalCopies

end DB

def totalDifference (bookId : UUID) (s t : DB) : Int := t.total bookId - s.total bookId

/-- The book is in the table and not deleted. -/
def Listed (bookId : UUID) (db : DB) : Prop :=
  ∃ b, db.books.get bookId = some b ∧ b.isDeleted = false

/-! ## What the journal notes of it -/

namespace Event

def checkouts (bookId : UUID) : Event → Int
  | .checkedOut b => if b = bookId then 1 else 0
  | _ => 0

def restores (bookId : UUID) : Event → Int
  | .restored b => if b = bookId then 1 else 0
  | _ => 0

def totalDifference (bookId : UUID) : Event → Int
  | .retotalled b diff => if b = bookId then diff else 0
  | _ => 0

end Event

def DB.noted (db : DB) (f : Event → Int) : Int := (db.journal.map f).sum

@[simp] theorem noted_record (db : DB) (e : Event) (f : Event → Int) :
    (db.record e).noted f = db.noted f + f e := by
  simp [DB.noted, DB.record]

@[simp] theorem noted_put (db : DB) (k : RowKey) (r : Row) (f : Event → Int) :
    (db.put k r).noted f = db.noted f := by
  cases k <;> cases r <;> rfl

/-! ## From the start of a commit to its end -/

/-- The shelf of the book and the journal tell what has been done since `s`. Of the copies given
back, `spare` are neither on the shelf nor passed on yet. -/
structure Posted (bookId : UUID) (s : DB) (spare : Int) (t : DB) : Prop where
  listed : Listed bookId t
  nonneg : 0 ≤ s.available bookId → 0 ≤ t.available bookId
  shelf : t.available bookId + spare = s.available bookId - checkouts bookId s t +
    restores bookId s t + totalDifference bookId s t
  notedCheckouts : t.noted (Event.checkouts bookId) =
    s.noted (Event.checkouts bookId) + checkouts bookId s t
  notedRestores : t.noted (Event.restores bookId) + spare =
    s.noted (Event.restores bookId) + restores bookId s t
  notedDifference : t.noted (Event.totalDifference bookId) =
    s.noted (Event.totalDifference bookId) + totalDifference bookId s t

variable {bookId : UUID} {s t v v' : DB} {spare : Int}

theorem checkouts_putLoan (s v : DB) (bookId id : UUID) (r : BorrowRecord) :
    checkouts bookId s (v.put (.borrowRecord id) (.borrowRecord r)) = checkouts bookId s v +
      (if isLent bookId s { r with id := id } then 1 else 0) -
      (v.borrowRecords.get id).elim 0 (fun q => if isLent bookId s q then 1 else 0) := by
  rw [checkouts, DB.count_putLoan, checkouts]
  change _ - (v.reservations.count _ : Int) = _
  omega

theorem restores_putLoan (s v : DB) (bookId id : UUID) (r : BorrowRecord) :
    restores bookId s (v.put (.borrowRecord id) (.borrowRecord r)) = restores bookId s v +
      (if isClosed bookId s { r with id := id } then 1 else 0) -
      (v.borrowRecords.get id).elim 0 (fun q => if isClosed bookId s q then 1 else 0) := by
  rw [restores, DB.count_putLoan, restores]
  change _ + (v.reservations.count _ : Int) - (v.reservations.count _ : Int) = _
  omega

theorem checkouts_putReservation (s v : DB) (bookId id : UUID) (r : Reservation) :
    checkouts bookId s (v.put (.reservation id) (.reservation r)) = checkouts bookId s v -
      (if isTurned bookId s .hold [.completed] { r with id := id } then 1 else 0) +
      (v.reservations.get id).elim 0 (fun q =>
        if isTurned bookId s .hold [.completed] q then 1 else 0) := by
  rw [checkouts, DB.count_putReservation, checkouts]
  change (v.borrowRecords.count _ : Int) - _ = _
  omega

theorem restores_putReservation (s v : DB) (bookId id : UUID) (r : Reservation) :
    restores bookId s (v.put (.reservation id) (.reservation r)) = restores bookId s v +
      (if isTurned bookId s .hold [.cancelled, .expired] { r with id := id } then 1 else 0) -
      (if isTurned bookId s .pending [.hold] { r with id := id } then 1 else 0) -
      (v.reservations.get id).elim 0 (fun q =>
        if isTurned bookId s .hold [.cancelled, .expired] q then 1 else 0) +
      (v.reservations.get id).elim 0 (fun q =>
        if isTurned bookId s .pending [.hold] q then 1 else 0) := by
  rw [restores, DB.count_putReservation, DB.count_putReservation, restores]
  change (v.borrowRecords.count _ : Int) + _ - _ = _
  omega

namespace Posted

theorem refl (h : Listed bookId s) : Posted bookId s 0 s := by
  have hlent : ∀ r ∈ s.borrowRecords.rows, ¬isLent bookId s r := by
    intro r hr
    simp [isLent, show s.borrowRecords.get r.id = some r from Table.get_of_mem hr]
  have hclosed : ∀ r ∈ s.borrowRecords.rows, ¬isClosed bookId s r := by
    intro r hr
    simp +contextual [isClosed, show s.borrowRecords.get r.id = some r from Table.get_of_mem hr]
  have hturned : ∀ before after, before ∉ after → ∀ r ∈ s.reservations.rows,
      ¬isTurned bookId s before after r := by
    intro before after hne r hr hturned
    have hget : s.reservations.get r.id = some r := Table.get_of_mem hr
    simp only [isTurned, hget, Option.any_some, Bool.and_eq_true, decide_eq_true_eq,
      List.contains_iff_mem] at hturned
    exact hne (hturned.2 ▸ hturned.1.2)
  have hcheckouts : checkouts bookId s s = 0 := by
    rw [checkouts, Table.count_eq_zero.mpr hlent,
      Table.count_eq_zero.mpr (hturned _ _ (by decide))]
    rfl
  have hrestores : restores bookId s s = 0 := by
    rw [restores, Table.count_eq_zero.mpr hclosed,
      Table.count_eq_zero.mpr (hturned _ _ (by decide)),
      Table.count_eq_zero.mpr (hturned _ _ (by decide))]
    rfl
  constructor <;> simp [h, hcheckouts, hrestores, totalDifference]

/-- A write takes `c` copies out, gives `r` back and adds `d`, and the journal says so. -/
theorem step {spare' c r d : Int} (h : Posted bookId s spare v) (hlisted : Listed bookId v')
    (hnonneg : 0 ≤ v.available bookId → 0 ≤ v'.available bookId)
    (hshelf : v'.available bookId + spare' = v.available bookId + spare - c + r + d)
    (hc : checkouts bookId s v' = checkouts bookId s v + c)
    (hr : restores bookId s v' = restores bookId s v + r)
    (hd : v'.total bookId = v.total bookId + d)
    (hnoted : v'.noted (Event.checkouts bookId) = v.noted (Event.checkouts bookId) + c)
    (hnoted' : v'.noted (Event.restores bookId) + spare' =
      v.noted (Event.restores bookId) + spare + r)
    (hnoted'' : v'.noted (Event.totalDifference bookId) =
      v.noted (Event.totalDifference bookId) + d) : Posted bookId s spare' v' := by
  have hdifference : totalDifference bookId s v' = totalDifference bookId s v + d := by
    rw [totalDifference, totalDifference, hd]
    omega
  refine ⟨hlisted, hnonneg ∘ h.nonneg, ?_, ?_, ?_, ?_⟩
  · have := h.shelf
    omega
  · have := h.notedCheckouts
    omega
  · have := h.notedRestores
    omega
  · have := h.notedDifference
    omega

/-- A write that does not touch the book, nor note anything of it. -/
theorem written {spare' : Int} (h : Posted bookId s spare v)
    (hbook : v'.books.get bookId = v.books.get bookId)
    (hcheckouts : checkouts bookId s v' = checkouts bookId s v)
    (hrestores : restores bookId s v' = restores bookId s v + (spare' - spare))
    (hnoted : ∀ f ∈ [Event.checkouts bookId, Event.restores bookId,
      Event.totalDifference bookId], v'.noted f = v.noted f) : Posted bookId s spare' v' := by
  obtain ⟨hc, hr, hd, _⟩ := by simpa only [List.forall_mem_cons] using hnoted
  have havailable : v'.available bookId = v.available bookId := by
    rw [DB.available, hbook, DB.available]
  have htotal : v'.total bookId = v.total bookId := by rw [DB.total, hbook, DB.total]
  refine h.step (c := 0) (r := spare' - spare) (d := 0) ?_ ?_ ?_ ?_ hrestores ?_ ?_ ?_ ?_
  · rw [Listed, hbook]
    exact h.listed
  · rw [havailable]
    exact id
  all_goals omega

/-- The book is counted anew. -/
theorem counted {spare' c r : Int} {b b' : Book} (h : Posted bookId s spare v)
    (hb : v.books.get bookId = some b) (hb' : v'.books.get bookId = some b')
    (hdel : b'.isDeleted = b.isDeleted) (hpos : 0 ≤ b.availableCopies → 0 ≤ b'.availableCopies)
    (hshelf : b'.availableCopies + spare' =
      b.availableCopies + spare - c + r + (b'.totalCopies - b.totalCopies))
    (hc : checkouts bookId s v' = checkouts bookId s v + c)
    (hr : restores bookId s v' = restores bookId s v + r)
    (hnoted : v'.noted (Event.checkouts bookId) = v.noted (Event.checkouts bookId) + c)
    (hnoted' : v'.noted (Event.restores bookId) + spare' =
      v.noted (Event.restores bookId) + spare + r)
    (hnoted'' : v'.noted (Event.totalDifference bookId) =
      v.noted (Event.totalDifference bookId) + (b'.totalCopies - b.totalCopies)) :
    Posted bookId s spare' v' := by
  have havailable : v.available bookId = b.availableCopies := by simp [DB.available, hb]
  have htotal : v.total bookId = b.totalCopies := by simp [DB.total, hb]
  have havailable' : v'.available bookId = b'.availableCopies := by simp [DB.available, hb']
  have htotal' : v'.total bookId = b'.totalCopies := by simp [DB.total, hb']
  obtain ⟨b₀, hb₀, hlisted⟩ := h.listed
  obtain rfl := Option.some.inj (hb.symm.trans hb₀)
  refine h.step ⟨b', hb', hdel.trans hlisted⟩ ?_ ?_ hc hr ?_ hnoted hnoted' hnoted''
  · rwa [havailable, havailable']
  · rwa [havailable, havailable']
  · omega

end Posted

/-! ## Copies passed on -/

/-- Whoever waits now has been waiting since `s`. -/
def Waits (s v : DB) : Prop :=
  ∀ id q, v.reservations.get id = some q → q.status = .pending → s.reservations.get id = some q

theorem Waits.refl : Waits s s := fun _ _ h _ => h

theorem Waits.put (h : Waits s v) {id : UUID} {r : Reservation} (hr : r.status ≠ .pending) :
    Waits s (v.put (.reservation id) (.reservation r)) := by
  intro x q hq hpending
  rw [get_putReservation] at hq
  split at hq
  · cases hq
    exact absurd hpending hr
  · exact h x q hq hpending

/-- A transaction sees the row of a book that the store has, or the one that it has written. -/
theorem view_book (l : Local DB RowKey Row Event) (id : UUID) :
    (∀ s, (l.view s).books.get id = s.books.get id) ∨
    ∃ b, ∀ s, (l.view s).books.get id = some b := by
  have hlog : ∀ log : List (Entry RowKey Row Event),
      (∀ s : DB, (log.foldl Entry.apply s).books.get id = s.books.get id) ∨
      ∃ b, ∀ s : DB, (log.foldl Entry.apply s).books.get id = some b := by
    intro log
    induction log with
    | nil => exact .inl fun _ => rfl
    | cons e log ih =>
      rcases ih with hsame | ⟨b, hb⟩
      · have hone : (∀ s : DB, (Entry.apply s e).books.get id = s.books.get id) ∨
            ∃ b, ∀ s : DB, (Entry.apply s e).books.get id = some b := by
          cases e with
          | note e => exact .inl fun _ => rfl
          | put k r =>
            cases k <;> cases r <;> first | exact .inl fun _ => rfl | skip
            rename_i x b
            by_cases hx : id = x
            · exact .inr ⟨{ b with id := x }, fun s => (get_putBook s x id b).trans (if_pos hx)⟩
            · exact .inl fun s => (get_putBook s x id b).trans (if_neg hx)
        rcases hone with hone | ⟨b, hb⟩
        · exact .inl fun s => (hsame _).trans (hone s)
        · exact .inr ⟨b, fun s => (hsame _).trans (hb s)⟩
      · exact .inr ⟨b, fun s => hb _⟩
  exact hlog l.log

/-- A book that is listed in every committed state is never found deleted. -/
theorem saw_listed {w : DB} (h : (keeping (Listed bookId)).Saw s w v) (hv : Listed bookId v) :
    Listed bookId w := by
  obtain ⟨l, u, ⟨hu, _⟩, rfl, rfl⟩ := h
  rcases view_book l bookId with hsame | ⟨b, hb⟩
  · rw [Listed, hsame]
    exact hu
  · rw [Listed, hb]
    rwa [Listed, hb] at hv

section

variable {next : DB → Option Reservation} {expiresAt : Int} {id : UUID}

theorem Handed.waits {D : Discipline DB RowKey} (hh : Handed D t next expiresAt id v v')
    (hw : Waits s v) : Waits s v' := by
  cases hh with
  | promoted => exact hw.put (by simp)
  | restored => exact hw
  | gone => exact hw

namespace Posted

theorem handed (h : Posted bookId s (inHand id bookId) v)
    (hh : Handed (keeping (Listed bookId)) t next expiresAt id v v')
    (hnext : ∀ w q, next w = some q → isPendingOf id q) (hw : Waits s v) :
    Posted bookId s 0 v' := by
  cases hh with
  | @promoted w q _ hq hget =>
    obtain ⟨rfl, hpending⟩ := isPendingOf_iff.mp (hnext w q hq)
    have hs := hw q.id q hget hpending
    refine h.written rfl ?_ ?_ ?_
    · change checkouts bookId s (v.put _ _) = _
      rw [checkouts_putReservation, hget]
      simp [isTurned, hpending]
    · change restores bookId s (v.put _ _) = _
      rw [restores_putReservation, hget]
      simp [isTurned, hpending, hs, inHand, eq_comm (a := bookId), sub_eq_add_neg]
    · simp [Event.checkouts, Event.restores, Event.totalDifference]
  | @restored w b _ _ hb _ hcopies =>
    by_cases hx : id = bookId
    · subst hx
      rw [inHand_self] at h
      have hput : ((v.put (.book id) (.book { b with
          availableCopies := b.availableCopies + 1 })).record (.restored id)).books.get id =
          some { b with id := id, availableCopies := b.availableCopies + 1 } :=
        (get_putBook v id id _).trans (if_pos rfl)
      refine h.counted (c := 0) (r := 0) hb hput rfl ?_ ?_ ?_ ?_ ?_ ?_ ?_
      · exact fun _ => (checkCopies_ok hcopies).1
      · simp
      · simp [checkouts, DB.put, DB.record]
      · simp [restores, DB.put, DB.record]
      all_goals simp [Event.checkouts, Event.restores, Event.totalDifference]
    · rw [inHand_other (Ne.symm hx)] at h
      refine h.written ?_ rfl (by rw [sub_self, add_zero]; rfl) ?_
      · exact (get_putBook v id bookId _).trans (if_neg (Ne.symm hx))
      · simp [Event.checkouts, Event.restores, Event.totalDifference, hx]
  | @gone w w' _ _ hw' hnone =>
    by_cases hx : id = bookId
    · subst hx
      obtain ⟨b, hb, hdel⟩ := saw_listed hw' h.listed
      rw [activeBook_eq_some.mpr ⟨hb, hdel⟩] at hnone
      cases hnone
    · rwa [inHand_other (Ne.symm hx)] at h

/-- A hold is given up. -/
theorem release {r q : Reservation} (h : Posted bookId s 0 v)
    (hget : v.reservations.get id = some r) (hs : s.reservations.get id = some r)
    (hhold : r.status = .hold) (hbook : q.bookId = r.bookId)
    (hstatus : q.status = .cancelled ∨ q.status = .expired) :
    Posted bookId s (inHand r.bookId bookId) (v.put (.reservation id) (.reservation q)) := by
  obtain rfl : r.id = id := Table.key_of_get hget
  refine h.written rfl ?_ ?_ (by simp)
  · rw [checkouts_putReservation, hget]
    rcases hstatus with hstatus | hstatus <;> simp [isTurned, hstatus, hhold]
  · rw [restores_putReservation, hget]
    rcases hstatus with hstatus | hstatus <;>
      simp [isTurned, hstatus, hhold, hs, hbook, inHand, eq_comm (a := bookId)]

theorem expiring {svc : ReservationService} {env : Env} {rest : List Reservation} {n : Nat}
    (he : Expiring (keeping (Listed bookId)) t svc env rest n v v')
    (hrest : ∀ r ∈ rest, s.reservations.get r.id = some r ∧ r.status = .hold)
    (h : Posted bookId s 0 v) (hw : Waits s v) : Posted bookId s 0 v' := by
  induction he with
  | nil => exact h
  | @cons r rest n v v' v'' hget hh _ ih =>
    obtain ⟨hs, hhold⟩ := hrest r List.mem_cons_self
    have hput : Waits s (v.put (.reservation r.id)
        (.reservation { r with status := .expired, expiresAt := none })) := hw.put (by simp)
    have hspare := h.release (q := { r with status := .expired, expiresAt := none })
      hget hs hhold rfl (.inr rfl)
    refine ih (fun q hq => hrest q (List.mem_cons_of_mem _ hq)) ?_ (hh.waits hput)
    exact hspare.handed hh (fun w q hq => (oldestPending_mem hq).2) hput

/-! ## Each operation -/

theorem created {b : Book} (hs : Listed bookId s) (hc : Created b s t) : Posted bookId s 0 t := by
  have hne : bookId ≠ b.id := by
    rintro rfl
    obtain ⟨_, hget, _⟩ := hs
    cases hc.fresh.symm.trans hget
  rw [hc.stored]
  exact (refl hs).written ((get_putBook s b.id bookId b).trans (if_neg hne)) rfl
    (add_zero _).symm (by simp)

theorem deleted {D : Discipline DB RowKey} {env : Env} (hs : Listed bookId s) (hne : id ≠ bookId)
    (hd : Deleted D s env id s t) : Posted bookId s 0 t := by
  cases hd with
  | mk =>
    exact (refl hs).written ((get_putBook s id bookId _).trans (if_neg hne.symm)) rfl
      (add_zero _).symm (by simp)

theorem updated {D : Discipline DB RowKey} {body : BookUpdate} (hs : Listed bookId s)
    (hu : Updated D s id body s t) : Posted bookId s 0 t := by
  cases hu with
  | @texts w b b' hb hdel _ hstore =>
    obtain ⟨hpos, _, _, _, _, _, _, _, rfl⟩ := storeBook_ok hstore
    by_cases hx : id = bookId
    · subst hx
      refine (refl hs).counted (c := 0) (r := 0) hb ((get_putBook s id id _).trans (if_pos rfl))
        rfl (fun h => h) ?_ ?_ ?_ ?_ ?_ ?_
      · simp
      · simp [checkouts, DB.put]
      · simp [restores, DB.put]
      all_goals simp
    · exact (refl hs).written ((get_putBook s id bookId _).trans (if_neg (Ne.symm hx))) rfl
        (add_zero _).symm (by simp)
  | @copies w b b' total hb hdel _ _ _ hstore =>
    obtain ⟨hpos, _, _, _, _, _, _, _, rfl⟩ := storeBook_ok hstore
    by_cases hx : id = bookId
    · subst hx
      refine (refl hs).counted (c := 0) (r := 0) hb ((get_putBook _ id id _).trans (if_pos rfl))
        rfl (fun _ => hpos) ?_ ?_ ?_ ?_ ?_ ?_
      · simp
      · simp [checkouts, DB.put, DB.record]
      · simp [restores, DB.put, DB.record]
      all_goals simp [Event.checkouts, Event.restores, Event.totalDifference]
    · refine (refl hs).written ((get_putBook _ id bookId _).trans (if_neg (Ne.symm hx))) rfl
        (add_zero _).symm ?_
      simp [Event.checkouts, Event.restores, Event.totalDifference, hx]

theorem borrowed {D : Discipline DB RowKey} {svc : BorrowService} {env : Env} {memberId : UUID}
    (hs : Listed bookId s) (hb : Borrowed D s svc env memberId id s t) : Posted bookId s 0 t := by
  have hfresh := hb.fresh
  cases hb with
  | @held u r _ _ hone hget _ =>
    have hr : isHoldOf id r := (List.mem_filter.mp (hone ▸ List.mem_singleton_self r)).2
    obtain ⟨rfl, hhold⟩ := isHoldOf_iff.mp hr
    refine (refl hs).written rfl ?_ ?_ (by simp)
    · rw [checkouts_putLoan, checkouts_putReservation, hget]
      change _ - (s.borrowRecords.get env.newId).elim 0 _ = _
      rw [hfresh]
      by_cases hx : r.bookId = bookId <;>
        simp [isTurned, isLent, borrowedRecord, hget, hhold, hfresh, hx]
    · rw [restores_putLoan, restores_putReservation, hget]
      change _ - (s.borrowRecords.get env.newId).elim 0 _ = _
      rw [hfresh]
      simp [isTurned, isClosed, borrowedRecord, hget, hhold]
  | @shelf u b _ _ _ hget havail _ =>
    have hloan : ∀ v : DB, v.borrowRecords = s.borrowRecords →
        checkouts bookId s (v.put (.borrowRecord env.newId)
          (.borrowRecord (borrowedRecord svc env memberId id))) =
        checkouts bookId s v + inHand id bookId := by
      intro v hv
      rw [checkouts_putLoan, hv, hfresh]
      by_cases hx : id = bookId
      · simp [isLent, borrowedRecord, hfresh, hx]
      · simp [isLent, borrowedRecord, hfresh, hx, inHand_other (Ne.symm hx)]
    have hclosed : ∀ v : DB, v.borrowRecords = s.borrowRecords →
        restores bookId s (v.put (.borrowRecord env.newId)
          (.borrowRecord (borrowedRecord svc env memberId id))) = restores bookId s v := by
      intro v hv
      rw [restores_putLoan, hv, hfresh]
      simp [isClosed, borrowedRecord]
    by_cases hx : id = bookId
    · subst hx
      refine (refl hs).counted (c := 1) (r := 0) hget
        ((get_putBook s id id _).trans (if_pos rfl)) rfl ?_ ?_ ?_ ?_ ?_ ?_ ?_
      · intro _
        change 0 ≤ b.availableCopies - 1
        omega
      · simp
      · rw [hloan _ (by rfl), inHand_self]
        rfl
      · rw [hclosed _ (by rfl), add_zero]
        rfl
      all_goals simp [Event.checkouts, Event.restores, Event.totalDifference]
    · refine (refl hs).written ((get_putBook s id bookId _).trans (if_neg (Ne.symm hx))) ?_ ?_ ?_
      · rw [hloan _ (by rfl), inHand_other (Ne.symm hx), add_zero]
        rfl
      · rw [hclosed _ (by rfl)]
        exact (add_zero _).symm
      · simp [Event.checkouts, Event.restores, Event.totalDifference, hx]

/-- `hguard` says that the loan is as the return has read it. -/
theorem returned {svc : BorrowService} {env : Env} {guard : Option DB → DB → Prop}
    (hs : Listed bookId s)
    (hguard : ∀ w u record, guard (some w) u → w.borrowRecords.get id = some record →
      u.borrowRecords.get id = some record)
    (hr : Returned (keeping (Listed bookId)) guard s svc env id s t) : Posted bookId s 0 t := by
  cases hr with
  | again => exact refl hs
  | @handed w u record r _ _ hrecord hopen hg hu hget hh =>
    obtain rfl : r = record := Option.some.inj (hu.symm.trans (hguard w u record hg hrecord))
    obtain rfl : r.id = id := Table.key_of_get hget
    have hclose : Posted bookId s (inHand r.bookId bookId) (s.put (.borrowRecord r.id)
        (.borrowRecord { r with
          returnDate := some (toDatetime (env.clock 0)), status := .returned })) := by
      refine (refl hs).written rfl ?_ ?_ (by simp)
      · rw [checkouts_putLoan, hget]
        simp [isLent, hget]
      · rw [restores_putLoan, hget]
        simp [isClosed, hget, hopen, inHand, eq_comm (a := bookId)]
    exact hclose.handed hh (fun w q hq => waiting_pending hq) .refl

theorem renewed {D : Discipline DB RowKey} {svc : BorrowService} {env : Env}
    {guard : Option DB → DB → Prop} (hs : Listed bookId s)
    (hr : Renewed D guard s svc env id s t) : Posted bookId s 0 t := by
  cases hr with
  | @mk w u record r _ _ _ _ _ _ _ hget _ =>
    obtain rfl : r.id = id := Table.key_of_get hget
    refine (refl hs).written rfl ?_ ?_ (by simp)
    · rw [checkouts_putLoan, hget]
      simp [isLent, hget, renewedRecord]
    · rw [restores_putLoan, hget]
      by_cases hrenewed : record.status = .renewed <;>
        simp [isClosed, hget, renewedRecord, hrenewed]

theorem placed {D : Discipline DB RowKey} {env : Env} {memberId : UUID} (hs : Listed bookId s)
    (hp : Placed D s env memberId id s t) : Posted bookId s 0 t := by
  rw [hp.stored]
  refine (refl hs).written rfl ?_ ?_ (by simp)
  · rw [checkouts_putReservation, hp.fresh]
    simp [isTurned, placedReservation]
  · rw [restores_putReservation, hp.fresh]
    simp [isTurned, placedReservation]

theorem cancelled {svc : ReservationService} {env : Env} {memberId : UUID} (hs : Listed bookId s)
    (hc : Cancelled (keeping (Listed bookId)) s svc env id memberId s t) :
    Posted bookId s 0 t := by
  cases hc with
  | @waiting r hget _ hpending =>
    obtain rfl : r.id = id := Table.key_of_get hget
    refine (refl hs).written rfl ?_ ?_ (by simp)
    · rw [checkouts_putReservation, hget]
      simp [isTurned, hpending]
    · rw [restores_putReservation, hget]
      simp [isTurned, hpending, hget]
  | @held r _ hget _ hhold hh =>
    have hspare := (refl hs).release (q := { r with status := .cancelled, expiresAt := none })
      hget hget hhold rfl (.inl rfl)
    exact hspare.handed hh (fun w q hq => (oldestPending_mem hq).2) 
      (Waits.refl.put (by simp))

theorem swept {svc : ReservationService} {env : Env} (hs : Listed bookId s)
    (h : Swept (keeping (Listed bookId)) s svc env s t) : Posted bookId s 0 t := by
  obtain ⟨w, _, hrows, he⟩ := h
  refine expiring he (fun r hr => ⟨hrows r hr, (mem_expiredHolds.mp hr).2.1⟩) (refl hs) .refl

end Posted

end

end LibraryPlatform

import LibraryPlatform.BookChanges
import LibraryPlatform.LifeCycle
import LibraryPlatform.Loans
import LibraryPlatform.Queue

/-!
# Books that have been deleted

The loans and the queue of a book outlive its soft deletion. Nobody can borrow or reserve the
book any more, but a promotion does not look at the book as long as somebody waits for it.
-/
namespace LibraryPlatform

open KeyedTable Transaction ReservationRepository

/-- The book has been soft-deleted. -/
def Withdrawn (bookId : UUID) (db : DB) : Prop :=
  ∃ b, db.books.get bookId = some b ∧ b.isDeleted = true

/-- The call gives back a copy of the book. -/
def Op.Frees (env : Env) (bookId : UUID) (s : DB) : Op → Prop
  | .returnBook id =>
    ∃ r ∈ s.borrowRecords.rows, r.id = id ∧ r.bookId = bookId ∧ r.status ≠ .returned
  | .cancelReservation id memberId =>
    ∃ r ∈ s.reservations.rows, r.id = id ∧ r.memberId = memberId ∧ isHoldOf bookId r
  | .processExpiredHolds =>
    ∃ r ∈ s.reservations.rows, r.bookId = bookId ∧ isExpiredHold (env.clock 0) r
  | _ => False

/-- A step that gives back no copy of the book while somebody waits for it. -/
inductive SparingStep (svc : ReservationService) (bookId : UUID) : DB → DB → Prop
  | call {s s' : DB} {op : Op} {r : Except Exc Reply} (env : Env) :
      ¬(op.Frees env bookId s ∧ s.Waiting bookId) → call (op.run svc env) s = (r, s') →
      SparingStep svc bookId s s'
  | accounts {s s' : DB} : s.Accounts s' → SparingStep svc bookId s s'

variable {svc : ReservationService} {env : Env} {bookId : UUID} {s s' v v' : DB}

/-! ## A deleted book stays deleted -/

theorem Withdrawn.op {op : Op} (h : Withdrawn bookId s) (he : op.Alone s svc env s') :
    Withdrawn bookId s' := by
  obtain ⟨b, hget, hdel⟩ := h
  have hchange := Op.Alone.book he bookId
  rw [hget] at hchange
  generalize hb' : s'.books.get bookId = o' at hchange
  cases hchange with
  | counted hcounted =>
    cases hcounted with
    | same => exact ⟨b, hb', hdel⟩
    | copies n hactive => cases hactive.symm.trans hdel
  | updated _ hactive => cases hactive.symm.trans hdel
  | deleted _ hactive => cases hactive.symm.trans hdel

theorem Withdrawn.accounts (h : Withdrawn bookId s) (ha : s.Accounts s') :
    Withdrawn bookId s' := by
  obtain ⟨_, _, rfl⟩ := ha.frame
  exact h

/-! ## Nothing new of a deleted book -/

/-- The loans and the reservations of the book are those that were there before. -/
structure NothingNew (bookId : UUID) (s s' : DB) : Prop where
  loans : ∀ r ∈ s'.borrowRecords.rows, r.bookId = bookId →
    ∃ r₀ ∈ s.borrowRecords.rows, r₀.id = r.id ∧ r₀.bookId = bookId
  reservations : ∀ q ∈ s'.reservations.rows, q.bookId = bookId →
    ∃ q₀ ∈ s.reservations.rows, q₀.id = q.id ∧ q₀.bookId = bookId

theorem NothingNew.refl (bookId : UUID) (s : DB) : NothingNew bookId s s :=
  ⟨fun r hr hb => ⟨r, hr, rfl, hb⟩, fun q hq hb => ⟨q, hq, rfl, hb⟩⟩

theorem NothingNew.trans {t : DB} (h : NothingNew bookId s t) (h' : NothingNew bookId t s') :
    NothingNew bookId s s' := by
  constructor
  · intro r hr hb
    obtain ⟨r₁, hr₁, hid₁, hb₁⟩ := h'.loans r hr hb
    obtain ⟨r₀, hr₀, hid₀, hb₀⟩ := h.loans r₁ hr₁ hb₁
    exact ⟨r₀, hr₀, hid₀.trans hid₁, hb₀⟩
  · intro q hq hb
    obtain ⟨q₁, hq₁, hid₁, hb₁⟩ := h'.reservations q hq hb
    obtain ⟨q₀, hq₀, hid₀, hb₀⟩ := h.reservations q₁ hq₁ hb₁
    exact ⟨q₀, hq₀, hid₀.trans hid₁, hb₀⟩

/-- `borrow_book` finds no deleted book. -/
theorem Withdrawn.not_borrowed {svc : BorrowService} {memberId : UUID} (h : Withdrawn bookId s)
    (hb : Borrowed (alone s) s svc env memberId bookId s s') : False := by
  obtain ⟨o, ho, hdel⟩ := h
  have hready : ∃ b, s.books.get bookId = some b ∧ b.isDeleted = false := by
    cases hb <;> exact BorrowReady.book ‹_›
  obtain ⟨b, hget, hactive⟩ := hready
  obtain rfl := Option.some.inj (hget.symm.trans ho)
  cases hactive.symm.trans hdel

theorem Withdrawn.not_placed {memberId : UUID} (h : Withdrawn bookId s)
    (hp : Placed (alone s) s env memberId bookId s s') : False := by
  obtain ⟨o, ho, hdel⟩ := h
  obtain ⟨b, hget, hactive, _⟩ := hp.book
  obtain rfl := Option.some.inj (hget.symm.trans ho)
  cases hactive.symm.trans hdel

/-- Only `borrow_book` makes a loan. -/
theorem Op.Alone.lends {op : Op} (h : op.Alone s svc env s') {r : BorrowRecord}
    (hnone : s.borrowRecords.get r.id = none) (hr : s'.borrowRecords.get r.id = some r) :
    op = .borrowBook r.memberId r.bookId := by
  rcases h.borrowRecords with he | ⟨memberId, b, rfl⟩ | ⟨id, rfl⟩ | ⟨id, rfl⟩
  · rw [he, hnone] at hr
    cases hr
  · have hlent : Borrowed (alone s) s (getBorrowService svc) env memberId b s s' := h
    rw [hlent.borrowRecords, Table.get_put] at hr
    split at hr
    · cases hr
      rfl
    · cases hnone.symm.trans hr
  · obtain ⟨q, hget, ⟨_, rfl⟩ | ⟨_, hh⟩⟩ := Returned.cases_alone h
    · cases hnone.symm.trans hr
    · rw [hh.borrowRecords, get_putBorrowRecord] at hr
      split at hr
      · rename_i hid
        rw [hid, hget] at hnone
        cases hnone
      · cases hnone.symm.trans hr
  · obtain ⟨q, hget, _, _, _, rfl⟩ := Renewed.cases_alone h
    rw [get_putBorrowRecord] at hr
    split at hr
    · rename_i hid
      rw [hid, hget] at hnone
      cases hnone
    · cases hnone.symm.trans hr

theorem Withdrawn.nothing_new {op : Op} (h : Withdrawn bookId s) (he : op.Alone s svc env s') :
    NothingNew bookId s s' := by
  constructor
  · rintro r hr rfl
    have hget : s'.borrowRecords.get r.id = some r := Table.get_of_mem hr
    cases ho : s.borrowRecords.get r.id with
    | none =>
      obtain rfl := Op.Alone.lends he ho hget
      exact (h.not_borrowed he).elim
    | some r₀ =>
      have hchange := Op.Alone.loan he r.id
      rw [ho, hget] at hchange
      refine ⟨r₀, Table.mem_of_get ho, Table.key_of_get ho, ?_⟩
      cases hchange <;> rfl
  · rintro q hq rfl
    have hget : s'.reservations.get q.id = some q := Table.get_of_mem hq
    have hchange := Op.Alone.change he q.id
    rw [hget] at hchange
    cases ho : s.reservations.get q.id with
    | none =>
      rw [ho] at hchange
      cases hchange with
      | placed hop =>
        have hop : op = .placeReservation q.memberId q.bookId := hop
        subst hop
        exact (h.not_placed he).elim
    | some q₀ =>
      rw [ho] at hchange
      refine ⟨q₀, Table.mem_of_get ho, Table.key_of_get ho, ?_⟩
      cases hchange <;> rfl

/-! ## Who is promoted -/

/-- A row that is written with another status is not `q`. -/
theorem not_written {id : UUID} {q r : Reservation} (hs : r.status ≠ q.status)
    (hnew : v.reservations.get q.id ≠ some q) :
    (v.put (.reservation id) (.reservation r)).reservations.get q.id ≠ some q := by
  rw [get_putReservation]
  split
  · intro h
    obtain rfl := Option.some.inj h
    exact hs rfl
  · exact hnew

/-- A copy in hand goes to somebody who waits for the book. -/
theorem Handed.promotes {D : Discipline DB RowKey} {order : RowOrder Reservation} {expiresAt : Int}
    {id : UUID} {q : Reservation} (h : Handed D s (oldestPending order id) expiresAt id v v')
    (hq : v'.reservations.get q.id = some q) (hnew : v.reservations.get q.id ≠ some q) :
    q.bookId = id := by
  have hnext : ∀ w r, oldestPending order id w = some r → isPendingOf id r :=
    fun w r hr => (oldestPending_mem hr).2
  rcases h.row hnext q.id with he | ⟨r, e, _, hp, he⟩
  · exact absurd (he.symm.trans hq) hnew
  · obtain rfl := Option.some.inj (hq.symm.trans he)
    exact (isPendingOf_iff.mp hp).1

/-- A sweep holds copies of the books that it has taken copies back of. -/
theorem Expiring.promotes {D : Discipline DB RowKey} {rest : List Reservation} {n : Nat}
    {q : Reservation} (h : Expiring D s svc env rest n v v')
    (hq : v'.reservations.get q.id = some q) (hs : q.status = .hold)
    (hnew : v.reservations.get q.id ≠ some q) : ∃ r ∈ rest, r.bookId = q.bookId := by
  induction h with
  | nil => exact absurd hq hnew
  | @cons r rest n v v' v'' _ hh _ ih =>
    by_cases hv' : v'.reservations.get q.id = some q
    · exact ⟨r, List.mem_cons_self, (hh.promotes hv' (not_written (by simp [hs]) hnew)).symm⟩
    · obtain ⟨r', hr', hbook⟩ := ih hq hv'
      exact ⟨r', List.mem_cons_of_mem _ hr', hbook⟩

theorem Cancelled.promotes {id memberId : UUID} {q : Reservation}
    (h : Cancelled (alone s) s svc env id memberId s s')
    (hq : s'.reservations.get q.id = some q) (hs : q.status = .hold)
    (hnew : s.reservations.get q.id ≠ some q) :
    ∃ r ∈ s.reservations.rows, r.id = id ∧ r.memberId = memberId ∧ isHoldOf q.bookId r := by
  cases h with
  | waiting => exact absurd hq (not_written (by simp [hs]) hnew)
  | @held r _ hget hmember hold hh =>
    have hbook := hh.promotes hq (not_written (by simp [hs]) hnew)
    exact ⟨r, Table.mem_of_get hget, Table.key_of_get hget, hmember,
      isHoldOf_iff.mpr ⟨hbook.symm, hold⟩⟩

/-- Whoever is put on hold was waiting, and the call has given back a copy of the book. -/
theorem Op.Alone.promotes {op : Op} (h : op.Alone s svc env s') {q : Reservation}
    (hq : s'.reservations.get q.id = some q) (hs : q.status = .hold)
    (hnew : s.reservations.get q.id ≠ some q) :
    op.Frees env q.bookId s ∧ s.Waiting q.bookId := by
  have hchange := Op.Alone.change h q.id
  rw [hq] at hchange
  constructor
  · cases op with
    | returnBook id =>
      obtain ⟨r, hget, ⟨_, rfl⟩ | ⟨hopen, hh⟩⟩ := Returned.cases_alone h
      · exact absurd hq hnew
      · exact ⟨r, Table.mem_of_get hget, Table.key_of_get hget, (hh.promotes hq hnew).symm, hopen⟩
    | cancelReservation id memberId => exact Cancelled.promotes h hq hs hnew
    | processExpiredHolds =>
      obtain ⟨w, hw, _, he⟩ := h
      obtain rfl := alone_past hw
      obtain ⟨r, hr, hbook⟩ := he.promotes hq hs hnew
      obtain ⟨hmem, hhold, e, hexp, hlt⟩ := mem_expiredHolds.mp hr
      exact ⟨r, hmem, hbook, by simp [isExpiredHold, hhold, hexp, hlt]⟩
    | createBook => exact absurd (by rwa [h.stored] at hq) hnew
    | updateBook => cases h <;> exact absurd hq hnew
    | deleteBook => cases h; exact absurd hq hnew
    | renewBook => cases h; exact absurd hq hnew
    | placeReservation =>
      rw [h.stored] at hq
      exact absurd hq (not_written (by simp [hs, placedReservation]) hnew)
    | borrowBook =>
      cases h with
      | @held u r =>
        change (s.put (.reservation r.id) _).reservations.get q.id = some q at hq
        exact absurd hq (not_written (by simp [hs]) hnew)
      | shelf => exact absurd hq hnew
  · generalize ho : s.reservations.get q.id = o at hchange hnew
    cases hchange with
    | same => exact absurd rfl hnew
    | placed _ hp => cases hp.symm.trans hs
    | promoted hp => exact ⟨_, Table.mem_of_get ho, isPendingOf_iff.mpr ⟨rfl, hp⟩⟩
    | cancelled | completed | expired => cases hs

/-! ## Runs after the deletion -/

theorem SparingStep.of_call {op : Op} (h : ¬(op.Frees env bookId s ∧ s.Waiting bookId)) :
    SparingStep svc bookId s (serial svc [(env, op)] s) := .call env h rfl

theorem SparingStep.serial (h : SparingStep svc bookId s s') : SerialStep svc s s' := by
  cases h with
  | call env _ hc => exact .call env hc
  | accounts ha => exact .accounts ha

theorem SerialStep.withdrawn (h : SerialStep svc s s') (hs : Withdrawn bookId s) :
    Withdrawn bookId s' ∧ NothingNew bookId s s' := by
  refine h.kept (P := fun t => Withdrawn bookId t ∧ NothingNew bookId s t) (fun t op env he => ?_)
    (fun t ha => ?_) ⟨hs, .refl bookId s⟩
  · exact ⟨hs.op he, hs.nothing_new he⟩
  · refine ⟨hs.accounts ha, ?_⟩
    obtain ⟨_, _, rfl⟩ := ha.frame
    exact ⟨(NothingNew.refl bookId s).loans, (NothingNew.refl bookId s).reservations⟩

theorem nothing_new_later (h : Relation.ReflTransGen (SerialStep svc) s s')
    (hs : Withdrawn bookId s) : Withdrawn bookId s' ∧ NothingNew bookId s s' := by
  induction h with
  | refl => exact ⟨hs, .refl bookId s⟩
  | tail _ hstep ih =>
    obtain ⟨hlater, hnew⟩ := hstep.withdrawn ih.1
    exact ⟨hlater, ih.2.trans hnew⟩

/-- A sparing step puts nobody on hold for the book. -/
theorem SparingStep.holds (h : SparingStep svc bookId s s') :
    ∀ q ∈ s'.reservations.rows, isHoldOf bookId q → q ∈ s.reservations.rows := by
  intro q hq hhold
  obtain ⟨rfl, hs⟩ := isHoldOf_iff.mp hhold
  cases h with
  | call env hspares hc =>
    rcases call_op hc with ⟨_, _, he⟩ | ⟨_, _, rfl⟩
    · by_contra hnew
      exact hspares (Op.Alone.promotes he (Table.get_of_mem hq) hs fun hget =>
        hnew (Table.mem_of_get hget))
    · exact hq
  | accounts ha =>
    obtain ⟨_, _, rfl⟩ := ha.frame
    exact hq

/-- After the deletion of a book no loan and no reservation of it is made. As long as no copy of
it comes back while somebody waits for it, nobody is put on hold for it either. -/
theorem deleted_book_left_alone {reply : Reply}
    (h : call (Op.run svc env (.deleteBook bookId)) s = (.ok reply, s')) :
    (∀ t, Relation.ReflTransGen (SerialStep svc) s' t → NothingNew bookId s' t) ∧
    ∀ t, Relation.ReflTransGen (SparingStep svc bookId) s' t →
      ∀ q ∈ t.reservations.rows, isHoldOf bookId q → q ∈ s'.reservations.rows := by
  have hdel : Withdrawn bookId s' := by
    rcases call_op h with ⟨_, _, he⟩ | ⟨_, he, _⟩
    · cases he with
      | mk => exact ⟨_, (get_putBook s bookId bookId _).trans (if_pos rfl), rfl⟩
    · cases he
  refine ⟨fun t ht => (nothing_new_later ht hdel).2, fun t ht => ?_⟩
  induction ht with
  | refl => exact fun q hq _ => hq
  | tail _ hstep ih => exact fun q hq hhold => ih q (hstep.holds q hq hhold) hhold

/-- The book that somebody waits for is deleted. -/
def demoDeleted : DB := serial ⟨48⟩ [(demoEnv 0 (3 * hour), .deleteBook 1)] demoWaiting

/-- Member 11 stops waiting before the copy comes back, and it is held for nobody. -/
theorem deleted_book_left_alone_demo :
    (serial ⟨48⟩ [(demoEnv 0 (4 * hour), .cancelReservation 200 11),
      (demoEnv 0 (5 * hour), .returnBook 100)] demoDeleted).reservations.rows.filter
      (isHoldOf 1) = [] := by
  have hok : (call (Op.run ⟨48⟩ (demoEnv 0 (3 * hour)) (.deleteBook 1)) demoWaiting).1 =
    .ok .deleted := rfl
  have hnone : ∀ r ∈ demoDeleted.reservations.rows, ¬isHoldOf 1 r := by decide
  have hleft := (deleted_book_left_alone (Prod.ext hok rfl)).2
  refine List.filter_eq_nil_iff.mpr fun q hq hhold => hnone q (hleft _ ?_ q hq hhold) hhold
  refine .tail (.tail .refl (.of_call ?_)) (.of_call ?_)
  · rintro ⟨⟨r, hr, hid, _, hhold⟩, _⟩
    exact hnone r hr hhold
  · rintro ⟨_, r, hr, hwaits⟩
    have hgone : ∀ r ∈ (serial ⟨48⟩ [(demoEnv 0 (4 * hour), .cancelReservation 200 11)]
      demoDeleted).reservations.rows, ¬isPendingOf 1 r := by decide
    exact hgone r hr hwaits

/-- The copy of the deleted book comes back, and is held for member 11, who cannot borrow it. -/
theorem hold_on_deleted_book :
    ¬∀ s, Runs ⟨48⟩ AnyOp s → ∀ env bookId reply s',
      call (Op.run ⟨48⟩ env (.deleteBook bookId)) s = (.ok reply, s') →
      ∀ t, Relation.ReflTransGen (SerialStep ⟨48⟩) s' t →
      ∀ q ∈ t.reservations.rows, isHoldOf bookId q → q ∈ s'.reservations.rows := by
  intro hclaim
  have hok : (call (Op.run ⟨48⟩ (demoEnv 0 (3 * hour)) (.deleteBook 1)) demoWaiting).1 =
    .ok .deleted := rfl
  have hold := hclaim _ demoWaiting_runs (demoEnv 0 (3 * hour)) 1 _ demoDeleted (Prod.ext hok rfl)
    (serial ⟨48⟩ [(demoEnv 0 (4 * hour), .returnBook 100)] demoDeleted)
    (.tail .refl (.of_call _ _ _ _))
    ⟨200, 11, 1, 2 * hour, some (52 * hour), .hold⟩ (by decide) (by decide)
  exact absurd hold (by decide)

end LibraryPlatform

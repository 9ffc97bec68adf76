import LibraryPlatform.BookEffects
import LibraryPlatform.BorrowEffects
import LibraryPlatform.Operations

/-!
# Copies passed on under the lock of their book

Where a loan and a reservation are always of a registered book, whoever gives up a copy finds the
book and locks it, soft-deleted or not. What becomes of the copy is then read off the store of the
commit.
-/
namespace LibraryPlatform

open KeyedTable Transaction ReservationRepository

variable {α : Type} {D : Discipline DB RowKey} {T : Contract DB RowKey α}
  {l : Local DB RowKey Row Event} {s : DB}

/-- A free copy goes to somebody who waits, or back to the shelf, or nowhere if its book is
soft-deleted. -/
inductive Passed (expiresAt : Int) (bookId : UUID) (v : DB) : DB → Prop
  | promoted {r : Reservation} : isPendingOf bookId r → v.reservations.get r.id = some r →
      Passed expiresAt bookId v
        ((v.put (.reservation r.id) (.reservation
          { r with status := .hold, expiresAt := some (toDatetime expiresAt) })).record
          (.promoted r.id bookId r.reservedAt))
  | restored {b : Book} : v.books.get bookId = some b → b.isDeleted = false →
      checkCopies b.totalCopies (b.availableCopies + 1) = .ok () →
      Passed expiresAt bookId v
        ((v.put (.book bookId) (.book { b with availableCopies := b.availableCopies + 1 })).record
          (.restored bookId))
  | gone {b : Book} : v.books.get bookId = some b → b.isDeleted = true →
      Passed expiresAt bookId v v

/-- The books of loans and of reservations are registered. -/
structure Housed (s : DB) : Prop where
  loans : ∀ r ∈ s.borrowRecords.rows, s.books.get r.bookId ≠ none
  reservations : ∀ r ∈ s.reservations.rows, s.books.get r.bookId ≠ none

section

variable {expiresAt : Int} {bookId id : UUID} {v v' : DB} {order : RowOrder Reservation} {now : Int}
  {svc : ReservationService}

theorem Passed.borrowRecords (h : Passed expiresAt bookId v v') :
    v'.borrowRecords = v.borrowRecords := by
  cases h <;> rfl

theorem Passed.books (h : Passed expiresAt bookId v v') {x : UUID} (hx : v.books.get x ≠ none) :
    v'.books.get x ≠ none := by
  cases h with
  | promoted => exact hx
  | restored =>
    simp only [DB.record, get_putBook]
    split
    · simp
    · exact hx
  | gone => exact hx

theorem Passed.keeps_hold {q : Reservation} (h : Passed expiresAt bookId v v')
    (hq : v.reservations.get id = some q) (hs : q.status = .hold) :
    v'.reservations.get id = some q := by
  cases h with
  | @promoted r hr hget =>
    have hne : id ≠ r.id := by
      rintro rfl
      obtain rfl : q = r := Option.some.inj (hq.symm.trans hget)
      rw [(isPendingOf_iff.mp hr).2] at hs
      cases hs
    exact (Table.get_put_other _ hne).trans hq
  | restored => exact hq
  | gone => exact hq

variable (hT : T.Quiet)

include hT

/-- Whoever is first in the queue is locked, and so is the book when nobody is. -/
theorem wp_promoteNextReservation_passed (hs : D.inv s)
    (hbook : ∀ t, Later D l s t → (l.view t).books.get bookId ≠ none) :
    wp D T (svc.promoteNextReservation order now bookId)
    (fun _ l' s' => Onward D l s l' s' ∧ ∀ t, Later D l' s' t →
      Passed (now + svc.holdDurationHours * hour) bookId (l.view t) (l'.view t)) l s := by
  unfold ReservationService.promoteNextReservation
  simp only [Prog.bind_eq, wp_bind]
  refine wp_fifoPending hT fun A s₁ h₁ hA => ?_
  have hon : Onward D l s (l.hold A) s₁ := (Onward.refl hs).hold h₁ A
  cases hr : oldestPending order bookId (l.view s₁) with
  | some r =>
    have hk : RowKey.reservation r.id ∈ (l.hold A).locks := hA r hr
    have hget : (l.view s₁).reservations.get r.id = some r :=
      Table.get_of_mem (oldestPending_mem hr).1
    simp only [wp_bind]
    refine wp_updateReservation hT fun A' s₂ r' h₂ _ hr₂ => ?_
    obtain rfl : r' = r := Option.some.inj (hr₂.symm.trans ((later_reservation h₂ hk).trans hget))
    refine ⟨((hon.hold h₂ A').write _ _).noted _, fun t ht => ?_⟩
    have ht : Later D (l.hold A) s₂ t := ht.unnote.unwrite.unhold
    have hr₃ : (l.view t).reservations.get r'.id = some r' := (later_reservation ht hk).trans hr₂
    simp only [Local.view_noted, Local.view_write, Local.view_hold]
    exact .promoted (oldestPending_mem hr).2 hr₃
  | none =>
    simp only [wp_bind]
    refine wp_bookForUpdate hT fun B s₂ h₂ hB => ?_
    have hon₂ := hon.hold h₂ B
    obtain ⟨b, hget⟩ := Option.ne_none_iff_exists'.mp (hbook s₂ (h₁.trans h₂.unhold))
    have hk : RowKey.book bookId ∈ ((l.hold A).hold B).locks := hB b hget
    cases hb : ((l.hold A).view s₂).activeBook bookId with
    | none =>
      refine ⟨hon₂, fun t ht => ?_⟩
      have hbt : (l.view t).books.get bookId = some b := (later_book ht hk).trans hget
      have hdel : b.isDeleted = true := by
        by_contra hdel
        have hsome := activeBook_eq_some.mpr ⟨hget, by simpa using hdel⟩
        rw [Local.view_hold] at hb
        rw [hb] at hsome
        cases hsome
      simp only [Local.view_hold]
      exact .gone hbt hdel
    | some book =>
      obtain ⟨hbook, hdel⟩ := activeBook_eq_some.mp hb
      obtain rfl : b = book := Option.some.inj (hget.symm.trans hbook)
      simp only [wp_bind]
      refine wp_updateBook hT fun B' s₃ b' b'' h₃ _ hb₃ hf => ?_
      obtain rfl : b' = b := Option.some.inj (hb₃.symm.trans ((later_book h₃ hk).trans hget))
      obtain ⟨_, hcopies, hb''⟩ := except_bind_ok.mp hf
      cases hb''
      refine ⟨((hon₂.hold h₃ B').write _ _).noted _, fun t ht => ?_⟩
      have ht : Later D ((l.hold A).hold B) s₃ t := ht.unnote.unwrite.unhold
      have hbt : (l.view t).books.get bookId = some b' := (later_book ht hk).trans hb₃
      simp only [Local.view_noted, Local.view_write, Local.view_hold]
      exact .restored hbt hdel hcopies

end

/-! ## The calls that give up a copy -/

/-- A return closes the loan and passes its copy on, unless it is closed. -/
inductive ReturnedOnce (svc : BorrowService) (env : Env) (id : UUID) (v : DB) : DB → Prop
  | again : ReturnedOnce svc env id v v
  | passed {r : BorrowRecord} {v' : DB} : v.borrowRecords.get id = some r → r.status ≠ .returned →
      Passed (svc.holdEnd env) r.bookId (v.put (.borrowRecord id) (.borrowRecord
        { r with returnDate := some (toDatetime (env.clock 0)), status := .returned })) v' →
      ReturnedOnce svc env id v v'

structure RenewedOnce (svc : BorrowService) (env : Env) (id : UUID) (v v' : DB) : Prop where
  renewed : ∃ r, v.borrowRecords.get id = some r ∧ r.status ≠ .returned ∧ r.renewalCount < 2 ∧
    env.clock 0 ≤ r.dueDate ∧ v' = v.put (.borrowRecord id) (.borrowRecord (renewedRecord svc r r))

inductive CancelledOnce (svc : ReservationService) (env : Env) (id memberId : UUID) (v : DB) :
    DB → Prop
  | waiting {r : Reservation} : v.reservations.get id = some r → r.memberId = memberId →
      r.status = .pending → CancelledOnce svc env id memberId v
        (v.put (.reservation id) (.reservation { r with status := .cancelled, expiresAt := none }))
  | held {r : Reservation} {v' : DB} : v.reservations.get id = some r → r.memberId = memberId →
      r.status = .hold →
      Passed (env.clock 0 + svc.holdDurationHours * hour) r.bookId
        (v.put (.reservation id) (.reservation { r with status := .cancelled, expiresAt := none }))
        v' →
      CancelledOnce svc env id memberId v v'

/-- The loop over the expired holds, of which `n` are done. -/
inductive SweptOnce (svc : ReservationService) (env : Env) :
    List Reservation → Nat → DB → DB → Prop
  | nil {n : Nat} {v : DB} : SweptOnce svc env [] n v v
  | cons {r : Reservation} {rest : List Reservation} {n : Nat} {v v' v'' : DB} :
      v.reservations.get r.id = some r → r.status = .hold →
      Passed (env.clock (n + 1) + svc.holdDurationHours * hour) r.bookId
        (v.put (.reservation r.id) (.reservation { r with status := .expired, expiresAt := none }))
        v' →
      SweptOnce svc env rest (n + 1) v' v'' → SweptOnce svc env (r :: rest) n v v''

section

variable {svc : ReservationService} {env : Env} {id memberId : UUID}

/-- The row of the loan is the one that the call has read. -/
def Undisturbed (T : Contract DB RowKey α) (id : UUID) : Prop :=
  ∀ w u r, T.guard (.borrowRecord id) (some w) u → w.borrowRecords.get id = some r →
    u.borrowRecords.get id = some r

theorem wp_renewBook_once (hT : T.Quiet) (hguard : Undisturbed T id) {svc : BorrowService}
    (hsvc : svc.reservationPolicy = noReservationPolicy) :
    wp D T (svc.renewBook env id) (AtCommit D fun _ _ t t' => RenewedOnce svc env id t t')
      .init s := by
  refine wp_mono ?_ (wp_renewBook hT hsvc)
  intro _ l' s' h t ht
  have hrenewed := h t ht
  generalize l'.view t = t' at hrenewed
  cases hrenewed with
  | @mk w u record r _ hread hopen hcount hdue hg hu hget _ =>
    obtain rfl := Option.some.inj ((hguard w u record hg hread).symm.trans hu)
    exact ⟨record, hget, hopen, hcount, hdue, rfl⟩

variable (hT : T.Quiet) (hhoused : ∀ t, D.inv t → Housed t)

include hT hhoused

theorem wp_returnBook_once (hguard : Undisturbed T id) :
    wp D T ((getBorrowService svc).returnBook env id)
      (AtCommit D fun _ _ t t' => ReturnedOnce (getBorrowService svc) env id t t') .init s := by
  unfold BorrowService.returnBook
  simp only [wp_mapError, Prog.bind_eq, wp_bind]
  refine wp_select fun s₁ h₁ => wp_orRaise fun record hr => ?_
  obtain rfl : record.id = id := Table.key_of_get hr
  split
  · exact fun t ht => .again
  · rename_i hopen
    simp only [wp_bind]
    refine wp_updateBorrowRecord hT fun A s₂ r r' h₂ hk hg hr₂ hf => ?_
    cases hf
    obtain rfl : record = r := Option.some.inj ((hguard s₁ s₂ record hg hr).symm.trans hr₂)
    refine wp_mono ?_ (wp_promoteNextReservation_passed hT h₂.inv fun t ht => ?_)
    · intro _ l' s' h t ht
      have h₂t := (h.1.then_later ht).unwrite
      have hpassed := h.2 t ht
      simp only [Local.view_write, Local.view_hold, Local.view_snap, Local.view_init] at hpassed
      exact .passed ((later_borrowRecord h₂t hk).trans hr₂) hopen hpassed
    · have hrow : t.borrowRecords.get record.id = some record :=
        (later_borrowRecord ht.unwrite hk).trans hr₂
      exact (hhoused t ht.inv).loans record (Table.mem_of_get hrow)

theorem wp_cancelReservation_once :
    wp D T (svc.cancelReservation env id memberId)
      (AtCommit D fun _ _ t t' => CancelledOnce svc env id memberId t t') .init s := by
  unfold ReservationService.cancelReservation
  simp only [Prog.bind_eq, wp_bind]
  refine wp_reservationForUpdate hT fun A s₁ h₁ hA => wp_orRaise fun r hr => ?_
  obtain rfl : r.id = id := Table.key_of_get hr
  have hk : RowKey.reservation r.id ∈ (Local.init.hold A : Local DB RowKey Row Event).locks :=
    hA r hr
  refine wp_raiseIf fun hm => wp_raiseIf fun hstatus => ?_
  refine wp_updateReservation hT fun A' s₂ r' h₂ _ hr₂ => ?_
  obtain rfl : r' = r := Option.some.inj (hr₂.symm.trans ((later_reservation h₂ hk).trans hr))
  have hget : ∀ t, Later D (Local.init.hold A) s₂ t → t.reservations.get r'.id = some r' :=
    fun t ht => (later_reservation ht hk).trans hr₂
  split
  · rename_i hh
    simp only [wp_bind]
    refine wp_mono ?_ (wp_promoteNextReservation_passed hT h₂.inv fun t ht => ?_)
    · intro _ l' s' h
      obtain ⟨hon, hpassed⟩ := h
      refine wp_select fun s₄ h₄ => wp_orRaise fun _ _ t ht => ?_
      have ht : Later D l' s' t := h₄.trans ht.unsnap
      refine .held (hget t (hon.then_later ht).unwrite.unhold) (not_not.mp hm) hh ?_
      simpa using hpassed t ht
    · have hrow := Table.mem_of_get (hget t ht.unwrite.unhold)
      exact (hhoused t ht.inv).reservations r' hrow
  · rename_i hh
    simp only [wp_bind]
    refine wp_select fun s₄ h₄ => wp_orRaise fun _ _ t ht => ?_
    have hp : r'.status = .pending := by simpa [hh] using hstatus
    exact .waiting (hget t (h₄.trans ht.unsnap).unwrite.unhold) (not_not.mp hm) hp

omit hhoused in
theorem wp_expireHolds_once {rest : List Reservation} {n : Nat} (hs : D.inv s)
    (hrows : ∀ r ∈ rest, .reservation r.id ∈ l.locks ∧ (l.view s).reservations.get r.id = some r ∧
      r.status = .hold)
    (hbooks : ∀ r ∈ rest, ∀ t, Later D l s t → (l.view t).books.get r.bookId ≠ none)
    (hids : (rest.map Reservation.id).Nodup) :
    wp D T (svc.expireHolds env rest n)
    (fun _ l' s' => Onward D l s l' s' ∧ ∀ t, Later D l' s' t →
      SweptOnce svc env rest n (l.view t) (l'.view t)) l s := by
  induction rest generalizing n l s with
  | nil => exact ⟨.refl hs, fun _ _ => .nil⟩
  | cons r rest ih =>
    obtain ⟨hnew, hrest⟩ := List.nodup_cons.mp hids
    obtain ⟨hk, hget, hhold⟩ := hrows r List.mem_cons_self
    simp only [ReservationService.expireHolds, Prog.bind_eq, wp_bind]
    refine wp_updateReservation hT fun A s₁ r' h₁ _ hr => ?_
    obtain rfl : r' = r := Option.some.inj (hr.symm.trans ((later_reservation h₁ hk).trans hget))
    have hon₁ := ((Onward.refl hs).hold h₁ A).write (.reservation r'.id)
      (.reservation { r' with status := .expired, expiresAt := none })
    refine wp_mono ?_ (wp_promoteNextReservation_passed hT h₁.inv fun t ht => ?_)
    · intro _ l₂ s₂ h
      obtain ⟨hon, hpassed⟩ := h
      have hon₂ := hon₁.trans hon
      refine wp_mono ?_ (ih hon.later.inv ?_ ?_ hrest)
      · intro _ l' s' h
        obtain ⟨hon', hswept⟩ := h
        refine ⟨hon₂.trans hon', fun t ht => ?_⟩
        have h₂t := hon'.then_later ht
        refine .cons ((later_reservation (hon₂.then_later h₂t) hk).trans hget) hhold ?_
          (hswept t ht)
        simpa using hpassed t h₂t
      · intro q hq
        obtain ⟨hqk, hqget, hqs⟩ := hrows q (List.mem_cons_of_mem _ hq)
        refine ⟨hon₂.keeps _ hqk, ?_, hqs⟩
        have hne : q.id ≠ r'.id := fun he => hnew (List.mem_map.mpr ⟨q, hq, he⟩)
        refine (hpassed s₂ (.refl l₂ hon.later.inv)).keeps_hold ?_ hqs
        rw [Local.view_write]
        exact (Table.get_put_other _ hne).trans ((later_reservation (hon₂.later) hqk).trans hqget)
      · intro q hq t ht
        refine (hpassed t ht).books ?_
        rw [Local.view_write, Local.view_hold]
        exact hbooks q (List.mem_cons_of_mem _ hq) t (hon₂.then_later ht)
    · rw [Local.view_write, Local.view_hold]
      exact hbooks r' List.mem_cons_self t (hon₁.then_later ht)

theorem wp_processExpiredHolds_once :
    wp D T (svc.processExpiredHolds env)
    (AtCommit D fun _ _ t t' => ∃ w,
        (∀ r ∈ expiredHolds env w, t.reservations.get r.id = some r) ∧
        SweptOnce svc env (expiredHolds env w) 0 t t') .init s := by
  unfold ReservationService.processExpiredHolds
  simp only [Prog.bind_eq, wp_bind]
  refine wp_lockWhere hT fun A s₁ h₁ hA => ?_
  have hrows : ∀ r ∈ expiredHolds env s₁,
      .reservation r.id ∈ (Local.init.hold A : Local DB RowKey Row Event).locks ∧
      s₁.reservations.get r.id = some r ∧ r.status = .hold := by
    intro r hr
    obtain ⟨hmem, hs, e, he, hlt⟩ := mem_expiredHolds.mp hr
    exact ⟨hA r hmem (by simp [isExpiredHold, hs, he, hlt]), Table.get_of_mem hmem, hs⟩
  refine wp_mono ?_ (wp_expireHolds_once hT h₁.inv hrows (fun r hr t ht => ?_)
    (expiredHolds_nodup env s₁))
  · intro _ l' s' h t ht
    refine ⟨s₁, fun r hr => ?_, h.2 t ht⟩
    obtain ⟨hk, hget, _⟩ := hrows r hr
    exact (later_reservation (h.1.then_later ht) hk).trans hget
  · obtain ⟨hk, hget, _⟩ := hrows r hr
    have hrow := Table.mem_of_get ((later_reservation ht hk).trans hget)
    exact (hhoused t ht.inv).reservations r hrow

end

/-! ## All operations -/

/-- What an operation commits, as it would on that store with nobody else there. -/
def Op.Orderly (D : Discipline DB RowKey) (svc : ReservationService) (env : Env) (s : DB) :
    Op → DB → Prop
  | .createBook title author isbn totalCopies genre =>
      Created (createdBook env title author isbn totalCopies genre) s
  | .updateBook bookId body => Updated D s bookId body s
  | .deleteBook bookId => Deleted D s env bookId s
  | .borrowBook memberId bookId => Borrowed D s (getBorrowService svc) env memberId bookId s
  | .returnBook id => ReturnedOnce (getBorrowService svc) env id s
  | .renewBook id => RenewedOnce (getBorrowService svc) env id s
  | .placeReservation memberId bookId => Placed D s env memberId bookId s
  | .cancelReservation id memberId => CancelledOnce svc env id memberId s
  | .processExpiredHolds => fun t => ∃ w,
      (∀ r ∈ expiredHolds env w, s.reservations.get r.id = some r) ∧
      SweptOnce svc env (expiredHolds env w) 0 s t

/-- Returns and renewals are undisturbed. -/
def Op.Alike (T : Contract DB RowKey α) : Op → Prop
  | .returnBook id | .renewBook id => Undisturbed T id
  | _ => True

theorem wp_op_orderly (hT : T.Quiet) (hhoused : ∀ t, D.inv t → Housed t) {svc : ReservationService}
    {env : Env} {op : Op} (hop : op.Alike T) :
    wp D T (op.run svc env) (AtCommit D fun _ _ t t' => op.Orderly D svc env t t') .init s := by
  cases op <;> simp only [Op.run, Prog.map_eq, wp_bind, wp_ret]
  case createBook => exact wp_createBook
  case updateBook => exact wp_bookService_updateBook hT
  case deleteBook => exact wp_deleteBook hT
  case borrowBook => exact wp_borrowBook hT
  case returnBook => exact wp_returnBook_once hT hhoused hop
  case renewBook => exact wp_renewBook_once hT hop rfl
  case placeReservation => exact wp_placeReservation hT
  case cancelReservation => exact wp_cancelReservation_once hT hhoused
  case processExpiredHolds => exact wp_processExpiredHolds_once hT hhoused

end LibraryPlatform

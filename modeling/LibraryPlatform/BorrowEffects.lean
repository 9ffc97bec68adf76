import LibraryPlatform.ReservationEffects

/-!
# What the borrow service commits

The relations are those of the reservation service's calls. A return and a renewal
write over a row they have read without a lock; `guard` is what they are promised of
that row (the snapshot they read, the committed store) when the update is flushed.
-/
namespace LibraryPlatform

open KeyedTable Transaction

variable {α : Type} {D : Discipline DB RowKey} {T : Contract DB RowKey α}
  {l : Local DB RowKey Row Event} {s : DB}

/-! ## borrow_book -/

def borrowedRecord (svc : BorrowService) (env : Env) (memberId bookId : UUID) : BorrowRecord :=
  ⟨env.newId, memberId, bookId, toDatetime (env.clock 1),
    toDatetime (env.clock 1 + svc.borrowDays * day), none, 0,
    .borrowed⟩

/-- `w` is the snapshot that the plain reads of the call saw. -/
structure BorrowChecks (svc : BorrowService) (env : Env) (memberId : UUID) (w : DB) : Prop where
  overdue : w.borrowRecords.count (BorrowRecordRepository.isOverdue memberId (env.clock 0)) = 0
  limit : ((w.borrowRecords.rows.filter (fun r => r.memberId =
    memberId && r.status.isActive)).length : Int) <
    svc.maxBorrowLimit

structure BorrowReady (D : Discipline DB RowKey) (s : DB) (svc : BorrowService) (env : Env)
    (memberId bookId : UUID) (v : DB) : Prop where
  member : ∃ m, v.members.get memberId = some m ∧ m.isDeleted = false ∧ m.membershipStatus = .active
  checks : ∃ w, D.Past w s ∧ BorrowChecks svc env memberId w
  book : ∃ b, v.books.get bookId = some b ∧ b.isDeleted = false
  fresh : v.borrowRecords.get env.newId = none

/-- The loan takes up the member's own hold, or a copy from the shelf; `u` is the store
when the holds of the book were locked. -/
inductive Borrowed (D : Discipline DB RowKey) (s : DB) (svc : BorrowService) (env : Env)
    (memberId bookId : UUID) (v : DB) : DB → Prop
  | held {u : DB} {h : Reservation} : BorrowReady D s svc env memberId bookId v → D.Past u s →
      u.reservations.rows.filter (ReservationRepository.isHoldOf bookId) = [h] →
      v.reservations.get h.id = some h → h.memberId = memberId →
      Borrowed D s svc env memberId bookId v
        ((v.put (.reservation h.id) (.reservation
          { h with status := .completed, expiresAt := none })).put
          (.borrowRecord env.newId) (.borrowRecord (borrowedRecord svc env memberId bookId)))
  | shelf {u : DB} {b : Book} : BorrowReady D s svc env memberId bookId v → D.Past u s →
      u.reservations.rows.filter (ReservationRepository.isHoldOf bookId) = [] →
      v.books.get bookId = some b → 0 < b.availableCopies →
      checkCopies b.totalCopies (b.availableCopies - 1) = .ok () →
      Borrowed D s svc env memberId bookId v
        (((v.put (.book bookId) (.book { b with availableCopies := b.availableCopies - 1 })).record
          (.checkedOut bookId)).put (.borrowRecord env.newId)
            (.borrowRecord (borrowedRecord svc env memberId bookId)))

theorem Borrowed.borrowRecords {svc : BorrowService} {env : Env} {memberId bookId : UUID}
    {v v' : DB} (h : Borrowed D s svc env memberId bookId v v') :
    v'.borrowRecords = v.borrowRecords.put (borrowedRecord svc env memberId bookId) :=
  by cases h <;> rfl

/-- What the lock of the member is good for: it is held at the commit, and has been since
before the snapshot `w`. -/
structure BorrowLocks (D : Discipline DB RowKey) (svc : BorrowService) (env : Env) (memberId : UUID)
    (L : List RowKey) (s : DB) : Prop where
  member : .member memberId ∈ L
  checks : ∃ w, D.inv w ∧ D.rely [.member memberId] w s ∧ BorrowChecks svc env memberId w

theorem wp_validateMemberForBorrow {svc : BorrowService} {env : Env} {member : Member}
    {Q : Unit → Local DB RowKey Row Event → DB → Prop} (hl : l.snapshot = none)
    (h : ∀ w s', Later D l s w → Later D l w s' → member.membershipStatus = .active →
      BorrowChecks svc env member.id (l.view w) → Q () ((l.snap w).snap s') s') :
    wp D T (svc.validateMemberForBorrow env member) Q l s := by
  unfold BorrowService.validateMemberForBorrow
  simp only [Prog.bind_eq, wp_bind]
  refine wp_raiseIf fun _ => wp_raiseIf fun hactive => wp_select fun w hw =>
    wp_raiseIf fun hover => ?_
  refine wp_select fun s' hs' => wp_raiseIf fun hlimit => ?_
  have hseen : l.seen w = l.view w := by simp [Local.seen, hl]
  have hseen' : (l.snap w).seen s' = l.view w := by simp [Local.seen, Local.snap, hl, Local.view]
  refine h w s' hw hs'.unsnap (not_not.mp hactive) ⟨?_, ?_⟩
  · rw [hseen] at hover
    exact Nat.eq_zero_of_not_pos hover
  · rw [hseen'] at hlimit
    exact lt_of_not_ge hlimit

section

variable (hT : T.Quiet)

include hT

theorem wp_borrowBook_locks {svc : BorrowService} {env : Env} {memberId bookId : UUID} :
    wp D T (svc.borrowBook env memberId bookId) (AtCommit D fun _ L t t' =>
      Borrowed D t svc env memberId bookId t t' ∧ BorrowLocks D svc env memberId L t) .init s := by
  unfold BorrowService.borrowBook
  simp only [wp_mapError, Prog.bind_eq, wp_bind]
  refine wp_memberForUpdate hT fun A s₁ h₁ hA => wp_orRaise fun m hm => ?_
  obtain ⟨hmget, hmdel⟩ := activeMember_eq_some.mp hm
  obtain rfl : m.id = memberId := Table.key_of_get hmget
  refine wp_validateMemberForBorrow rfl fun w s₂ hw h₂ hactive hchecks => ?_
  refine wp_bookForUpdate hT fun B s₃ h₃ hB => wp_orRaise fun b hb => ?_
  obtain ⟨hbget, hbdel⟩ := activeBook_eq_some.mp hb
  obtain rfl : b.id = bookId := Table.key_of_get hbget
  refine wp_lockWhere hT fun C s₄ h₄ hC => ?_
  have hholds := env.reservationOrder.perm
    (s₄.reservations.rows.filter (ReservationRepository.isHoldOf b.id))
  have since : ∀ t, Later D (((((Local.init.hold A).snap w).snap s₂).hold B).hold C) s₄ t →
      Later D (Local.init.hold A) w t := by
    intro t h₄t
    have h₃t := ((Onward.refl h₃.inv).hold h₄ C).then_later h₄t
    have h₂t := ((Onward.refl h₂.inv).hold h₃ B).then_later h₃t
    exact h₂.trans h₂t.unsnap.unsnap
  have ready : ∀ t, Later D (((((Local.init.hold A).snap w).snap s₂).hold B).hold C) s₄ t →
      t.borrowRecords.get env.newId = none → BorrowReady D t svc env m.id b.id t := by
    intro t h₄t hfresh
    have h₃t := ((Onward.refl h₃.inv).hold h₄ C).then_later h₄t
    exact ⟨⟨m, (later_member (hw.trans (since t h₄t)) (hA m hmget)).trans hmget, hmdel, hactive⟩,
      ⟨w, (since t h₄t).past hw.inv, hchecks⟩,
      ⟨b, (later_book h₃t (hB b hbget)).trans hbget, hbdel⟩, hfresh⟩
  have locks : ∀ t L, Later D (((((Local.init.hold A).snap w).snap s₂).hold B).hold C) s₄ t →
      (∀ k ∈ A, k ∈ L) →
      BorrowLocks D svc env m.id L t := by
    intro t L h₄t hL
    have hk : RowKey.member m.id ∈ A := by simpa using hA m hmget
    exact ⟨hL _ hk, w, hw.inv, D.anti (by simpa using hk) (since t h₄t).rely, hchecks⟩
  refine wp_scalarOneOrNone (fun hnone => ?_) (fun h hsome => ?_)
  · have hempty : s₄.reservations.rows.filter (ReservationRepository.isHoldOf b.id) = [] :=
      List.perm_nil.mp (hholds.symm.trans (.of_eq hnone))
    refine wp_raiseIf fun havail => ?_
    simp only [BorrowService.takeFromShelf, Bool.not_false, ↓reduceIte, Prog.bind_eq, wp_bind]
    refine wp_updateBook hT fun C' s₅ b' b'' h₅ _ hb' hf => ?_
    have h₃₅ := ((Onward.refl h₃.inv).hold h₄ C).then_later h₅
    obtain rfl : b' = b := Option.some.inj
      (hb'.symm.trans ((later_book h₃₅ (hB b hbget)).trans hbget))
    obtain ⟨_, hcopies, hb''⟩ := except_bind_ok.mp hf
    cases hb''
    refine wp_insertBorrowRecord fun s₆ h₆ hfresh _ => ?_
    intro t ht
    have h₄t := ((((((Onward.refl h₄.inv).hold h₅ C').write _ _).noted _).hold h₆ _).write
      _ _).then_later ht
    have h₆t := ((Onward.refl h₆.inv).write _ _).then_later ht
    have h₃t := ((Onward.refl h₃.inv).hold h₄ C).then_later h₄t
    refine ⟨.shelf (ready t h₄t ((later_borrowRecord h₆t (by simp)).trans hfresh)) (h₄t.past h₄.inv)
      hempty ?_ ?_ hcopies,
      locks t _ h₄t fun k hk => by simp [hk]⟩
    · exact (later_book h₃t (hB b' hbget)).trans hbget
    · simpa using havail
  · have hone : s₄.reservations.rows.filter (ReservationRepository.isHoldOf b.id) = [h] :=
      List.perm_singleton.mp (hholds.symm.trans (.of_eq hsome))
    simp only [BorrowService.completeHold, Prog.bind_eq, wp_bind]
    have hmem := (List.mem_filter.mp (List.mem_of_mem_head? (by rw [hone]; rfl) :
      h ∈ s₄.reservations.rows.filter (ReservationRepository.isHoldOf b.id)))
    have hget : s₄.reservations.get h.id = some h := Table.get_of_mem hmem.1
    have hk := hC h hmem.1 hmem.2
    refine wp_raiseIf fun hown => wp_updateReservation hT fun C' s₅ h' h₅ _ hh' =>
      wp_raiseIf fun _ => ?_
    obtain rfl : h' = h := Option.some.inj (hh'.symm.trans ((later_reservation h₅ hk).trans hget))
    simp only [Bool.not_true, Bool.false_eq_true, ↓reduceIte, wp_bind]
    refine wp_insertBorrowRecord fun s₆ h₆ hfresh _ => ?_
    intro t ht
    have h₆t := ((Onward.refl h₆.inv).write _ _).then_later ht
    have h₄t := (((((Onward.refl h₄.inv).hold h₅ C').write _ _).hold h₆ _).write _ _).then_later ht
    refine ⟨.held (ready t h₄t ((later_borrowRecord h₆t (by simp)).trans hfresh)) (h₄t.past h₄.inv)
      hone ?_ (not_not.mp hown),
      locks t _ h₄t fun k hk => by simp [hk]⟩
    exact (later_reservation h₄t hk).trans hget

theorem wp_borrowBook {svc : BorrowService} {env : Env} {memberId bookId : UUID} :
    wp D T (svc.borrowBook env memberId bookId)
      (AtCommit D fun _ _ t t' => Borrowed D t svc env memberId bookId t t') .init s :=
  wp_mono (fun _ _ _ h t ht => (h t ht).1) (wp_borrowBook_locks hT)

/-! ## return_book and renew_book -/

/-- Whom a returned copy can go to: without a reservation service nobody waits. -/
def BorrowService.waiting (svc : BorrowService) (env : Env) (bookId : UUID) :
    DB → Option Reservation :=
  match svc.reservationService with
  | some _ => ReservationRepository.oldestPending env.reservationOrder bookId
  | none => fun _ => none

def BorrowService.holdEnd (svc : BorrowService) (env : Env) : Int :=
  env.clock 1 + (svc.reservationService.elim 0 ReservationService.holdDurationHours) * hour

omit hT in
theorem getBorrowService_waiting (svc : ReservationService) (env : Env) (bookId : UUID) :
    (getBorrowService svc).waiting env bookId =
      ReservationRepository.oldestPending env.reservationOrder bookId := rfl

omit hT in
theorem waiting_pending {svc : BorrowService} {env : Env} {bookId : UUID} {w : DB} {r : Reservation}
    (h : svc.waiting env bookId w = some r) : ReservationRepository.isPendingOf bookId r := by
  unfold BorrowService.waiting at h
  cases hs : svc.reservationService with
  | none => simp [hs] at h
  | some _ =>
    simp only [hs] at h
    exact (oldestPending_mem h).2

/-- `w` is the snapshot the call read, `u` the store when its update was flushed. -/
inductive Returned (D : Discipline DB RowKey) (guard : Option DB → DB → Prop) (s : DB)
    (svc : BorrowService) (env : Env) (id : UUID) (v : DB) : DB → Prop
  | again {w : DB} {record : BorrowRecord} : D.Past w s → w.borrowRecords.get id = some record →
      record.status = .returned → Returned D guard s svc env id v v
  | handed {w u : DB} {record r : BorrowRecord} {v' : DB} :
      D.Past w s → w.borrowRecords.get id = some record →
      record.status ≠ .returned → guard (some w) u → u.borrowRecords.get id = some r →
      v.borrowRecords.get id = some r →
      Handed D s (svc.waiting env record.bookId) (svc.holdEnd env) record.bookId
        (v.put (.borrowRecord id) (.borrowRecord
          { r with returnDate := some (toDatetime (env.clock 0)), status := .returned })) v' →
      Returned D guard s svc env id v v'

theorem wp_handBack {svc : BorrowService} {env : Env} {bookId : UUID} (hs : D.inv s) :
    wp D T (svc.handBack env bookId)
    (fun _ l' s' => Onward D l s l' s' ∧ ∀ t, Later D l' s' t →
      Handed D t (svc.waiting env bookId) (svc.holdEnd env) bookId (l.view t) (l'.view t)) l s := by
  unfold BorrowService.handBack BorrowService.waiting BorrowService.holdEnd
  cases svc.reservationService with
  | some reservations => exact wp_promoteNextReservation hT hs
  | none =>
    exact wp_shelve hT (.refl hs) (fun t ht => ⟨_, (Later.refl l ht.inv).saw ht.inv, rfl⟩)
      (fun _ => rfl)

theorem wp_returnBook {svc : BorrowService} {env : Env} {id : UUID} :
    wp D T (svc.returnBook env id)
    (AtCommit D fun _ _ t t' =>
      Returned D (T.guard (.borrowRecord id)) t svc env id t t') .init s := by
  unfold BorrowService.returnBook
  simp only [wp_mapError, Prog.bind_eq, wp_bind]
  refine wp_select fun s₁ h₁ => wp_orRaise fun record hr => ?_
  obtain rfl : record.id = id := Table.key_of_get hr
  split
  · rename_i hret
    intro t ht
    exact .again (ht.past h₁.inv) hr hret
  · rename_i hret
    simp only [wp_bind]
    refine wp_updateBorrowRecord hT fun A s₂ r r' h₂ hk hg hr₂ hf => ?_
    cases hf
    have hguard : T.guard (.borrowRecord record.id) (some s₁) s₂ := hg
    refine wp_mono ?_ (wp_handBack hT h₂.inv)
    intro _ l' s' h t ht
    have h₂t := (h.1.then_later ht).unwrite
    exact .handed ((h₂.trans h₂t.unhold).past h₁.inv) hr hret hguard hr₂
      ((later_borrowRecord h₂t hk).trans hr₂)
      (by simpa using h.2 t ht)

/-- A renewal leaves a status alone that it read as RENEWED. -/
def renewedRecord (svc : BorrowService) (record r : BorrowRecord) : BorrowRecord :=
  { r with
    dueDate := toDatetime (record.dueDate + svc.renewalDays * day)
    renewalCount := record.renewalCount + 1
    status := if record.status = .renewed then r.status else .renewed }

inductive Renewed (D : Discipline DB RowKey) (guard : Option DB → DB → Prop) (s : DB)
    (svc : BorrowService) (env : Env) (id : UUID) (v : DB) : DB → Prop
  | mk {w u : DB} {record r : BorrowRecord} : D.Past w s → w.borrowRecords.get id = some record →
      record.status ≠ .returned → record.renewalCount < 2 → env.clock 0 ≤ record.dueDate →
      guard (some w) u → u.borrowRecords.get id = some r → v.borrowRecords.get id = some r →
      checkRenewals (record.renewalCount + 1) = .ok () →
      Renewed D guard s svc env id v
        (v.put (.borrowRecord id) (.borrowRecord (renewedRecord svc record r)))

theorem wp_renewBook {svc : BorrowService} (hsvc : svc.reservationPolicy = noReservationPolicy)
    {env : Env} {id : UUID} :
    wp D T (svc.renewBook env id)
    (AtCommit D fun _ _ t t' =>
      Renewed D (T.guard (.borrowRecord id)) t svc env id t t') .init s := by
  unfold BorrowService.renewBook
  simp only [wp_mapError, hsvc, noReservationPolicy, Prog.bind_eq, Prog.pure_eq, wp_bind]
  refine wp_select fun s₁ h₁ => wp_orRaise fun record hr => ?_
  obtain rfl : record.id = id := Table.key_of_get hr
  refine wp_raiseIf fun hret => wp_raiseIf fun hcount => wp_raiseIf fun _ =>
    wp_raiseIf fun hdue => ?_
  refine wp_updateBorrowRecord hT fun A s₂ r r' h₂ hk hg hr₂ hf => ?_
  obtain ⟨_, hren, hr'⟩ := except_bind_ok.mp hf
  cases hr'
  intro t ht
  have h₂t := ht.unwrite
  exact .mk ((h₂.trans h₂t.unhold).past h₁.inv) hr hret (by omega) (by omega) hg hr₂
    ((later_borrowRecord h₂t hk).trans hr₂) hren

end

/-! ## Alone on the store -/

section

variable {guard : Option DB → DB → Prop} {svc : BorrowService} {env : Env}
  {memberId bookId id : UUID} {s s' : DB}

theorem Borrowed.fresh {D : Discipline DB RowKey} (h : Borrowed D s svc env memberId bookId s s') :
    s.borrowRecords.get env.newId = none := by cases h <;> exact BorrowReady.fresh ‹_›

/-- A return finds the loan closed, or closes it and hands its copy on. -/
theorem Returned.cases_alone (h : Returned (alone s) guard s svc env id s s') :
    ∃ r, s.borrowRecords.get id = some r ∧
    (r.status = .returned ∧ s' = s ∨ r.status ≠ .returned ∧
      Handed (alone s) s (svc.waiting env r.bookId)
    (svc.holdEnd env) r.bookId
    (s.put (.borrowRecord id)
      (.borrowRecord { r with returnDate := some (toDatetime (env.clock 0)), status := .returned }))
    s') := by
  cases h with
  | @again w record hw hrec hreturned =>
    obtain rfl := alone_past hw
    exact ⟨record, hrec, .inl ⟨hreturned, rfl⟩⟩
  | @handed w u record r _ hw hrec hreturned _ _ hget hh =>
    obtain rfl := alone_past hw
    obtain rfl : r = record := Option.some.inj (hget.symm.trans hrec)
    exact ⟨r, hget, .inr ⟨hreturned, hh⟩⟩

theorem Renewed.cases_alone (h : Renewed (alone s) guard s svc env id s s') :
    ∃ r, s.borrowRecords.get id = some r ∧ r.status ≠ .returned ∧ r.renewalCount < 2 ∧
    env.clock 0 ≤ r.dueDate ∧ s' = s.put (.borrowRecord id)
    (.borrowRecord (renewedRecord svc r r)) := by
  cases h with
  | @mk w u record r hw hrec hreturned hcount hdue _ _ hget _ =>
    obtain rfl := alone_past hw
    obtain rfl : r = record := Option.some.inj (hget.symm.trans hrec)
    exact ⟨r, hget, hreturned, hcount, hdue, rfl⟩

end

end LibraryPlatform

import LibraryPlatform.Services
import LibraryPlatform.StatementRules

/-!
# What the reservation service commits

Each relation takes the store at the commit of a call to the store it leaves.
`D.Past` and `D.Saw` mark what the call read earlier and does not hold a lock on.
-/
namespace LibraryPlatform

open KeyedTable Transaction ReservationRepository

variable {α : Type} {D : Discipline DB RowKey} {T : Contract DB RowKey α}
  {l : Local DB RowKey Row Event} {s : DB}

/-- One copy of a book is free: it goes to the `next` waiting reservation, or back
to the shelf, or (a soft-deleted book) nowhere. -/
inductive Handed (D : Discipline DB RowKey) (s : DB) (next : DB → Option Reservation)
    (expiresAt : Int) (bookId : UUID) (v : DB) : DB → Prop
  | promoted {w : DB} {r : Reservation} :
      D.Saw s w v → next w = some r → v.reservations.get r.id = some r →
      Handed D s next expiresAt bookId v
        ((v.put (.reservation r.id) (.reservation
          { r with status := .hold, expiresAt := some (toDatetime expiresAt) })).record
          (.promoted r.id bookId r.reservedAt))
  | restored {w : DB} {b : Book} : D.Saw s w v → next w = none → v.books.get bookId = some b →
      b.isDeleted = false →
      checkCopies b.totalCopies (b.availableCopies + 1) = .ok () →
      Handed D s next expiresAt bookId v
        ((v.put (.book bookId) (.book { b with availableCopies := b.availableCopies + 1 })).record
          (.restored bookId))
  | gone {w w' : DB} : D.Saw s w v → next w = none → D.Saw s w' v → w'.activeBook bookId = none →
      Handed D s next expiresAt bookId v v

theorem Handed.borrowRecords {next : DB → Option Reservation} {expiresAt : Int} {bookId : UUID}
    {v v' : DB} (h : Handed D s next expiresAt bookId v v') : v'.borrowRecords = v.borrowRecords :=
  by cases h <;> rfl

theorem oldest_mem {rows : List Reservation} {r : Reservation} (h : oldest rows = some r) :
    r ∈ rows := by
  induction rows generalizing r with
  | nil => cases h
  | cons x rest ih =>
    simp only [oldest] at h
    cases hq : oldest rest with
    | none =>
      simp only [hq, Option.some.injEq] at h
      exact h ▸ List.mem_cons_self
    | some q =>
      simp only [hq] at h
      split at h
      · cases h
        exact List.mem_cons_of_mem _ (ih hq)
      · cases h
        exact List.mem_cons_self

theorem oldest_none {rows : List Reservation} (h : oldest rows = none) : rows = [] := by
  cases rows with
  | nil => rfl
  | cons x rest =>
    simp only [oldest] at h
    split at h
    · cases h
    · split at h <;> cases h

theorem oldest_le {rows : List Reservation} {r q : Reservation} (h : oldest rows = some r)
    (hq : q ∈ rows) : r.reservedAt ≤ q.reservedAt := by
  induction rows generalizing r with
  | nil => cases hq
  | cons x rest ih =>
    simp only [oldest] at h
    cases ho : oldest rest with
    | none =>
      simp only [ho, Option.some.injEq] at h
      rw [oldest_none ho] at hq
      rw [List.mem_singleton.mp hq, h]
    | some p =>
      simp only [ho] at h
      have hrest : q ∈ rest → p.reservedAt ≤ q.reservedAt := ih ho
      rcases List.mem_cons.mp hq with rfl | hq
      · split at h <;> cases h <;> omega
      · have hp := hrest hq
        split at h <;> cases h <;> omega

theorem oldestPending_mem {order : RowOrder Reservation} {bookId : UUID} {w : DB} {r : Reservation}
    (h : oldestPending order bookId w = some r) :
    r ∈ w.reservations.rows ∧ isPendingOf bookId r := by
  exact List.mem_filter.mp ((order.perm _).mem_iff.mp (oldest_mem h))

theorem isPendingOf_iff {bookId : UUID} {r : Reservation} :
    isPendingOf bookId r ↔ r.bookId = bookId ∧ r.status = .pending := by simp [isPendingOf]

theorem isHoldOf_iff {bookId : UUID} {r : Reservation} :
    isHoldOf bookId r ↔ r.bookId = bookId ∧ r.status = .hold := by simp [isHoldOf]

theorem oldestPending_le {order : RowOrder Reservation} {bookId : UUID} {w : DB} {r q : Reservation}
    (h : oldestPending order bookId w = some r) (hq : q ∈ w.reservations.rows)
    (hp : isPendingOf bookId q) : r.reservedAt ≤ q.reservedAt := by
  have hm : q ∈ order.apply (w.reservations.rows.filter (isPendingOf bookId)) :=
    (order.perm _).mem_iff.mpr (List.mem_filter.mpr ⟨hq, hp⟩)
  exact oldest_le h hm

theorem oldestPending_none {order : RowOrder Reservation} {bookId : UUID} {w : DB}
    (h : oldestPending order bookId w = none) :
    ∀ r ∈ w.reservations.rows, ¬isPendingOf bookId r := by
  intro r hr hp
  have hm : r ∈ order.apply (w.reservations.rows.filter (isPendingOf bookId)) :=
    (order.perm _).mem_iff.mpr (List.mem_filter.mpr ⟨hr, hp⟩)
  rw [oldest_none h] at hm
  exact List.not_mem_nil hm

theorem active_of_not {m : MembershipStatus} (hi : m ≠ .inactive) (hs : m ≠ .suspended) :
    m = .active := by
  cases m <;> simp_all

section

variable (hT : T.Quiet)

include hT

/-- Putting a copy back on the shelf under the book's lock. -/
theorem wp_shelve {next : DB → Option Reservation} {expiresAt : Int} {bookId : UUID} {s₀ : DB}
    {l₀ : Local DB RowKey Row Event} (hl : Onward D l₀ s₀ l s)
    (hnone : ∀ t, Later D l s t → ∃ w, D.Saw t w (l₀.view t) ∧ next w = none)
    (hview : ∀ t, l.view t = l₀.view t) :
    wp D T (do
      match ← BookRepository.getByIdForUpdate bookId with
      | some book =>
        LibraryPlatform.updateBook bookId (fun _ b => do
          checkCopies b.totalCopies (book.availableCopies + 1)
          pure { b with availableCopies := book.availableCopies + 1 })
        note (.restored bookId)
      | none => pure ()) (fun _ l' s' => Onward D l₀ s₀ l' s' ∧
        ∀ t, Later D l' s' t → Handed D t next expiresAt bookId (l₀.view t) (l'.view t)) l s := by
  simp only [Prog.bind_eq, wp_bind]
  refine wp_bookForUpdate hT fun A s₁ h₁ hA => ?_
  cases hb : (l.view s₁).activeBook bookId with
  | none =>
    refine ⟨hl.hold h₁ A, fun t ht => ?_⟩
    obtain ⟨w, hw, hn⟩ := hnone t (h₁.trans ht.unhold)
    rw [Local.view_hold, hview]
    exact .gone hw hn (hview t ▸ ht.unhold.saw h₁.inv) hb
  | some book =>
    obtain ⟨hget, hdel⟩ := activeBook_eq_some.mp hb
    simp only [wp_bind]
    refine wp_updateBook hT fun A' s₂ b b' h₂ _ hb₂ hf => ?_
    have hk : RowKey.book bookId ∈ (l.hold A).locks := hA _ hget
    obtain rfl : b = book := Option.some.inj (hb₂.symm.trans ((later_book h₂ hk).trans hget))
    obtain ⟨_, hc, hb'⟩ := except_bind_ok.mp hf
    cases hb'
    refine ⟨(((hl.hold h₁ A).hold h₂ A').write _ _).noted _, fun t ht => ?_⟩
    have ht : Later D (l.hold A) s₂ t := ht.unnote.unwrite.unhold
    have hb₃ : (l.view t).books.get bookId = some b := (later_book ht hk).trans hb₂
    obtain ⟨w, hw, hn⟩ := hnone t (h₁.trans (h₂.trans ht).unhold)
    simp only [Local.view_noted, Local.view_write, Local.view_hold]
    rw [hview] at hb₃ ⊢
    exact .restored hw hn hb₃ hdel hc

theorem wp_promoteNextReservation {svc : ReservationService} {order : RowOrder Reservation}
    {now : Int} {bookId : UUID} (hs : D.inv s) :
    wp D T (svc.promoteNextReservation order now bookId)
    (fun _ l' s' => Onward D l s l' s' ∧ ∀ t, Later D l' s' t →
      Handed D t (oldestPending order bookId) (now + svc.holdDurationHours * hour) bookId (l.view t)
    (l'.view t)) l s := by
  unfold ReservationService.promoteNextReservation
  simp only [Prog.bind_eq, wp_bind]
  refine wp_fifoPending hT fun A s₁ h₁ hA => ?_
  have hon : Onward D l s (l.hold A) s₁ := (Onward.refl hs).hold h₁ A
  cases hr : oldestPending order bookId (l.view s₁) with
  | none =>
    exact wp_shelve hT hon (fun t ht => ⟨_, ht.unhold.saw h₁.inv, hr⟩) (fun t => l.view_hold A t)
  | some r =>
    have hk : RowKey.reservation r.id ∈ (l.hold A).locks := hA r hr
    have hget : (l.view s₁).reservations.get r.id = some r :=
      Table.get_of_mem (oldestPending_mem hr).1
    simp only [wp_bind]
    refine wp_updateReservation hT fun A' s₂ r' h₂ _ hr₂ => ?_
    obtain rfl : r' = r := Option.some.inj (hr₂.symm.trans ((later_reservation h₂ hk).trans hget))
    refine ⟨((hon.hold h₂ A').write _ _).noted _, fun t ht => ?_⟩
    have ht : Later D (l.hold A) s₂ t := ht.unnote.unwrite.unhold
    have hr₃ : (l.view t).reservations.get r'.id = some r' := (later_reservation ht hk).trans hr₂
    simp only [Local.view_noted, Local.view_write, Local.view_hold]
    exact .promoted ((h₂.trans ht).unhold.saw h₁.inv) hr hr₃

/-! ## place_reservation -/

def placedReservation (env : Env) (memberId bookId : UUID) : Reservation :=
  ⟨env.newId, memberId, bookId, toDatetime (env.clock 0), none, .pending⟩

/-- `w` is the snapshot that the plain reads of the call saw. -/
structure PlaceChecks (env : Env) (memberId bookId : UUID) (w : DB) : Prop where
  count : w.reservations.count (isActiveOf memberId) < maxActiveReservations
  unique : ∀ r ∈ w.reservations.rows, ¬(isActiveOf memberId r ∧ r.bookId = bookId)
  notBorrowed : ∀ r ∈ (((env.borrowOrder.apply
    (w.borrowRecords.rows.filter (fun r => r.memberId = memberId))).insertionSort
    (fun a b => b.borrowDate ≤ a.borrowDate)).drop 0).take 20,
    ¬(r.bookId = bookId ∧ r.status ∈ [BorrowStatus.borrowed, .renewed, .overdue])

structure Placed (D : Discipline DB RowKey) (s : DB) (env : Env) (memberId bookId : UUID)
    (v v' : DB) : Prop where
  book : ∃ b, v.books.get bookId = some b ∧ b.isDeleted = false ∧ b.availableCopies ≤ 0
  member : ∃ m, v.members.get memberId = some m ∧ m.isDeleted = false ∧ m.membershipStatus = .active
  checks : ∃ w, D.Past w s ∧ PlaceChecks env memberId bookId w
  fresh : v.reservations.get env.newId = none
  stored : v' = v.put (.reservation env.newId)
    (.reservation (placedReservation env memberId bookId))

omit hT in
theorem wp_refuseBorrowed {bookId : UUID} {loans : List BorrowRecord}
    {Q : Unit → Local DB RowKey Row Event → DB → Prop}
    (h : (∀ r ∈ loans, ¬(r.bookId = bookId ∧
      r.status ∈ [BorrowStatus.borrowed, .renewed, .overdue])) → Q () l s) :
    wp D T (ReservationService.refuseBorrowed bookId loans) Q l s := by
  induction loans with
  | nil => exact h (by simp)
  | cons r rest ih =>
    simp only [ReservationService.refuseBorrowed, Prog.bind_eq, wp_bind]
    refine wp_raiseIf fun hr => ih fun hrest => h fun q hq => ?_
    rcases List.mem_cons.mp hq with rfl | hq
    · exact hr
    · exact hrest q hq

/-- What the locks of `place_reservation` are good for: at the commit the book and the
member are locked, and the book has been locked since the snapshot `w`. -/
structure PlaceLocks (D : Discipline DB RowKey) (env : Env) (memberId bookId : UUID)
    (L : List RowKey) (s : DB) : Prop where
  book : .book bookId ∈ L
  member : .member memberId ∈ L
  checks : ∃ w, D.inv w ∧ D.rely [.book bookId] w s ∧ PlaceChecks env memberId bookId w

theorem wp_placeReservation_locks {env : Env} {memberId bookId : UUID} :
    wp D T (ReservationService.placeReservation env memberId bookId) (AtCommit D fun _ L t t' =>
      Placed D t env memberId bookId t t' ∧ PlaceLocks D env memberId bookId L t) .init s := by
  unfold ReservationService.placeReservation
  simp only [Prog.bind_eq, wp_bind]
  refine wp_bookForUpdate hT fun A s₁ h₁ hA => wp_orRaise fun b hb => wp_raiseIf fun havail => ?_
  obtain ⟨hget, hdel⟩ := activeBook_eq_some.mp hb
  have hkb : RowKey.book bookId ∈ (Local.init.hold A : Local DB RowKey Row Event).locks := hA _ hget
  refine wp_select fun s₂ h₂ => wp_raiseIf fun hcount => ?_
  simp only [ReservationRepository.getActiveByMemberAndBook, Prog.bind_eq, wp_bind]
  refine wp_select fun s₃ h₃ => wp_scalarOneOrNone (fun hnone => ?_)
    (fun r _ => wp_raiseIf fun h => absurd rfl h)
  refine wp_raiseIf fun _ => wp_memberForUpdate hT fun B s₄ h₄ hB => wp_orRaise fun m hm => ?_
  obtain ⟨hmget, hmdel⟩ := activeMember_eq_some.mp hm
  refine wp_raiseIf fun hi => wp_raiseIf fun hsus => wp_select fun s₅ h₅ =>
    wp_refuseBorrowed fun hloans => ?_
  refine wp_insertReservation fun s₆ h₆ hfresh _ => wp_select fun s₇ h₇ => wp_orRaise fun _ _ => ?_
  intro t ht
  have h₅t := ((((Onward.refl h₅.inv).hold h₆ _).write _ _).snap h₇).then_later ht
  have h₄t := ((Onward.refl h₄.inv).snap h₅).then_later h₅t
  have h₁t := ((((Onward.refl h₁.inv).snap h₂).snap h₃).hold h₄ B).then_later h₄t
  have h₂t := (((Onward.refl h₂.inv).snap h₃).hold h₄ B).then_later h₄t
  have hchecks : PlaceChecks env memberId bookId s₂ := by
    refine ⟨Nat.lt_of_not_le hcount, fun r hr => ?_, hloans⟩
    simpa using List.filter_eq_nil_iff.mp hnone r hr
  have hkm : RowKey.member memberId ∈ B ++ (Local.init.hold A : Local DB RowKey Row Event).locks :=
    hB m hmget
  refine ⟨⟨?_, ?_, ⟨s₂, h₂t.past h₂.inv, hchecks⟩, ?_, rfl⟩, ⟨?_, ?_, s₂, h₂.inv, ?_, hchecks⟩⟩
  · exact ⟨b, (later_book h₁t hkb).trans hget, hdel, by omega⟩
  · exact ⟨m, (later_member h₄t hkm).trans hmget, hmdel, active_of_not hi hsus⟩
  · have h₆t := (((Onward.refl h₆.inv).write _ _).snap h₇).then_later ht
    exact (later_reservation h₆t (by simp)).trans hfresh
  · have hkA : RowKey.book bookId ∈ A := by simpa using hkb
    simp [hkA]
  · have hkBA : RowKey.member memberId ∈ B ++ A := by simpa using hkm
    simpa using hkBA
  · exact D.anti (by simpa using hkb) h₂t.rely

theorem wp_placeReservation {env : Env} {memberId bookId : UUID} :
    wp D T (ReservationService.placeReservation env memberId bookId)
      (AtCommit D fun _ _ t t' => Placed D t env memberId bookId t t') .init s :=
  wp_mono (fun _ _ _ h t ht => (h t ht).1) (wp_placeReservation_locks hT)

/-! ## cancel_reservation -/

inductive Cancelled (D : Discipline DB RowKey) (s : DB) (svc : ReservationService) (env : Env)
    (id memberId : UUID) (v : DB) : DB → Prop
  | waiting {r : Reservation} : v.reservations.get id = some r → r.memberId = memberId →
      r.status = .pending →
      Cancelled D s svc env id memberId v
        (v.put (.reservation id) (.reservation { r with status := .cancelled, expiresAt := none }))
  | held {r : Reservation} {v' : DB} : v.reservations.get id = some r → r.memberId = memberId →
      r.status = .hold →
      Handed D s (oldestPending env.reservationOrder r.bookId)
        (env.clock 0 + svc.holdDurationHours * hour) r.bookId
        (v.put (.reservation id) (.reservation { r with status := .cancelled, expiresAt := none }))
          v' →
      Cancelled D s svc env id memberId v v'

theorem wp_cancelReservation {svc : ReservationService} {env : Env} {id memberId : UUID} :
    wp D T (svc.cancelReservation env id memberId)
      (AtCommit D fun _ _ t t' => Cancelled D t svc env id memberId t t') .init s := by
  unfold ReservationService.cancelReservation
  simp only [Prog.bind_eq, wp_bind]
  refine wp_reservationForUpdate hT fun A s₁ h₁ hA => wp_orRaise fun r hr => ?_
  obtain rfl : r.id = id := Table.key_of_get hr
  have hk : RowKey.reservation r.id ∈ (Local.init.hold A : Local DB RowKey Row Event).locks :=
    hA r hr
  refine wp_raiseIf fun hm => wp_raiseIf fun hstatus => ?_
  refine wp_updateReservation hT fun A' s₂ r' h₂ _ hr₂ => ?_
  obtain rfl : r' = r := Option.some.inj (hr₂.symm.trans ((later_reservation h₂ hk).trans hr))
  have hget : ∀ t, Later D (Local.init.hold A) s₂ t → t.reservations.get r'.id = some r' :=
    fun t ht => (later_reservation ht hk).trans hr₂
  split
  · rename_i hh
    simp only [wp_bind]
    refine wp_mono ?_ (wp_promoteNextReservation hT h₂.inv)
    intro _ l' s' h
    obtain ⟨hon, hh'⟩ := h
    refine wp_select fun s₄ h₄ => wp_orRaise fun _ _ t ht => ?_
    have ht : Later D l' s' t := h₄.trans ht.unsnap
    refine .held (hget t (hon.then_later ht).unwrite.unhold) (not_not.mp hm) hh ?_
    simpa using hh' t ht
  · rename_i hh
    simp only [wp_bind]
    refine wp_select fun s₄ h₄ => wp_orRaise fun _ _ t ht => ?_
    have hp : r'.status = .pending := by simpa [hh] using hstatus
    exact .waiting (hget t (h₄.trans ht.unsnap).unwrite.unhold) (not_not.mp hm) hp

/-! ## process_expired_holds -/

/-- The loop over the holds found expired, of which `n` are done. -/
inductive Expiring (D : Discipline DB RowKey) (s : DB) (svc : ReservationService) (env : Env) :
    List Reservation → Nat → DB → DB → Prop
  | nil {n : Nat} {v : DB} : Expiring D s svc env [] n v v
  | cons {r : Reservation} {rest : List Reservation} {n : Nat} {v v' v'' : DB} :
      v.reservations.get r.id = some r →
      Handed D s (oldestPending env.reservationOrder r.bookId)
        (env.clock (n + 1) + svc.holdDurationHours * hour) r.bookId
        (v.put (.reservation r.id) (.reservation { r with status := .expired, expiresAt := none }))
          v' →
      Expiring D s svc env rest (n + 1) v' v'' → Expiring D s svc env (r :: rest) n v v''

/-- The holds that a sweep finds expired. -/
def expiredHolds (env : Env) (w : DB) : List Reservation :=
  env.reservationOrder.apply (w.reservations.rows.filter (isExpiredHold (env.clock 0)))

omit hT in
theorem mem_expiredHolds {env : Env} {w : DB} {r : Reservation} :
    r ∈ expiredHolds env w ↔ r ∈ w.reservations.rows ∧ r.status = .hold ∧
    ∃ e, r.expiresAt = some e ∧ e < env.clock 0 := by
  have hperm := (env.reservationOrder.perm
    (w.reservations.rows.filter (isExpiredHold (env.clock 0)))).mem_iff (a := r)
  rw [expiredHolds, hperm, List.mem_filter]
  cases he : r.expiresAt <;> simp [isExpiredHold, he]

omit hT in
theorem expiredHolds_nodup (env : Env) (w : DB) :
    ((expiredHolds env w).map Reservation.id).Nodup := by
  have hperm := env.reservationOrder.perm (w.reservations.rows.filter (isExpiredHold (env.clock 0)))
  refine (hperm.map Reservation.id).nodup_iff.mpr ?_
  exact w.reservations.unique.sublist (List.filter_sublist.map _)

/-- `w` is the store of the locking read at the start of the sweep. -/
def Swept (D : Discipline DB RowKey) (s : DB) (svc : ReservationService) (env : Env) (v v' : DB) :
    Prop :=
  ∃ w, D.Past w s ∧ (∀ r ∈ expiredHolds env w, v.reservations.get r.id = some r) ∧
    Expiring D s svc env (expiredHolds env w) 0 v v'

omit hT in
/-- A hold is not among the reservations that can be promoted. -/
theorem Handed.keeps_hold {next : DB → Option Reservation} {expiresAt : Int} {bookId id : UUID}
    {v v' : DB} {q : Reservation} (h : Handed D s next expiresAt bookId v v')
    (hnext : ∀ w r, next w = some r → r.status = .pending) (hq : v.reservations.get id = some q)
    (hs : q.status = .hold) : v'.reservations.get id = some q := by
  cases h with
  | @promoted w r _ hr hget =>
    have hne : id ≠ r.id := by
      rintro rfl
      obtain rfl : q = r := Option.some.inj (hq.symm.trans hget)
      rw [hnext w q hr] at hs
      cases hs
    exact (Table.get_put_other _ hne).trans hq
  | restored => exact hq
  | gone => exact hq

theorem wp_expireHolds {svc : ReservationService} {env : Env} {rest : List Reservation} {n : Nat}
    (hs : D.inv s)
    (hrows : ∀ r ∈ rest, .reservation r.id ∈ l.locks ∧ (l.view s).reservations.get r.id = some r ∧
      r.status = .hold)
    (hids : (rest.map Reservation.id).Nodup) :
    wp D T (svc.expireHolds env rest n)
    (fun _ l' s' => Onward D l s l' s' ∧ ∀ t, Later D l' s' t →
      Expiring D t svc env rest n (l.view t) (l'.view t)) l s := by
  induction rest generalizing n l s with
  | nil => exact ⟨.refl hs, fun _ _ => .nil⟩
  | cons r rest ih =>
    obtain ⟨hnew, hrest⟩ := List.nodup_cons.mp hids
    obtain ⟨hk, hget, _⟩ := hrows r List.mem_cons_self
    simp only [ReservationService.expireHolds, Prog.bind_eq, wp_bind]
    refine wp_updateReservation hT fun A s₁ r' h₁ _ hr => ?_
    obtain rfl : r' = r := Option.some.inj (hr.symm.trans ((later_reservation h₁ hk).trans hget))
    have hon₁ := ((Onward.refl hs).hold h₁ A).write (.reservation r'.id)
      (.reservation { r' with status := .expired, expiresAt := none })
    refine wp_mono ?_ (wp_promoteNextReservation hT h₁.inv)
    intro _ l₂ s₂ h
    obtain ⟨hon, hh⟩ := h
    have hon₂ := hon₁.trans hon
    refine wp_mono ?_ (ih hon.later.inv ?_ hrest)
    · intro _ l' s' h
      obtain ⟨hon', he⟩ := h
      refine ⟨hon₂.trans hon', fun t ht => ?_⟩
      have h₂t := hon'.then_later ht
      refine .cons ((later_reservation (hon₂.then_later h₂t) hk).trans hget) ?_ (he t ht)
      simpa using hh t h₂t
    · intro q hq
      obtain ⟨hqk, hqget, hqs⟩ := hrows q (List.mem_cons_of_mem _ hq)
      refine ⟨hon₂.keeps _ hqk, ?_, hqs⟩
      have hne : q.id ≠ r'.id := fun he => hnew (List.mem_map.mpr ⟨q, hq, he⟩)
      refine (hh s₂ (.refl l₂ hon.later.inv)).keeps_hold (fun w p hp => ?_) ?_ hqs
      · exact (isPendingOf_iff.mp (oldestPending_mem hp).2).2
      · rw [Local.view_write]
        exact (Table.get_put_other _ hne).trans ((later_reservation (hon₂.later) hqk).trans hqget)

theorem wp_processExpiredHolds {svc : ReservationService} {env : Env} :
    wp D T (svc.processExpiredHolds env)
    (AtCommit D fun _ _ t t' => Swept D t svc env t t') .init s := by
  unfold ReservationService.processExpiredHolds
  simp only [Prog.bind_eq, wp_bind]
  refine wp_lockWhere hT fun A s₁ h₁ hA => ?_
  have hrows : ∀ r ∈ expiredHolds env s₁,
      .reservation r.id ∈ (Local.init.hold A : Local DB RowKey Row Event).locks ∧
      s₁.reservations.get r.id = some r ∧ r.status = .hold := by
    intro r hr
    obtain ⟨hmem, hs, e, he, hlt⟩ := mem_expiredHolds.mp hr
    exact ⟨hA r hmem (by simp [isExpiredHold, hs, he, hlt]), Table.get_of_mem hmem, hs⟩
  refine wp_mono ?_ (wp_expireHolds hT h₁.inv hrows (expiredHolds_nodup env s₁))
  intro _ l' s' h t ht
  have h₁t := h.1.then_later ht
  refine ⟨s₁, h₁t.past h₁.inv, fun r hr => ?_, h.2 t ht⟩
  obtain ⟨hk, hget, _⟩ := hrows r hr
  exact (later_reservation h₁t hk).trans hget

end

end LibraryPlatform

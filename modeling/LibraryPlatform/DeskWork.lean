import LibraryPlatform.Desk
import LibraryPlatform.Postings

/-!
# What a commit does at the desk

Each operation has its own deeds at the desk of a book: those it must have done when it commits,
one by one, and no others.
-/
namespace LibraryPlatform

open KeyedTable Transaction ReservationRepository Tracing Function

/-- The desk of the book goes by these deeds from what it is in `v` to what it is in `v'`. -/
abbrev DB.Serves (x : UUID) (deeds : List Deed) (v v' : DB) : Prop :=
  Along Desk.rules.Counted deeds (v.desk x) (v'.desk x)

theorem DB.Serves.of_eq {x : UUID} {v v' : DB} (h : v'.desk x = v.desk x) :
    v.Serves x [] v' := by
  rw [DB.Serves, h]
  exact .nil

/-- A copy of the book that comes back from there is passed on. -/
def Deed.PassesOn (x bookId : UUID) (came : Whereabouts) (deeds : List Deed) : Prop :=
  if bookId = x then ∃ d, deeds = [d] ∧ d.Passes came else deeds = []

/-- What the operation does at the desk of `x` when it is committed from `s` to `t`. -/
def Op.Deeds (x : UUID) (env : Env) (s t : DB) (deeds : List Deed) : Op → Prop
  | .createBook _ _ _ totalCopies _ => deeds =
      if env.newId = x then .registered :: List.replicate totalCopies.toNat .bought else []
  | .updateBook _ _ => deeds = Desk.restocking (t.total x - s.total x)
  | .deleteBook bookId => deeds = if bookId = x then [.withdrawn] else []
  | .borrowBook memberId bookId => ∃ d : Deed,
      (d = .lent env.newId memberId ∨ ∃ id, d = .collected id env.newId memberId) ∧
      deeds = if bookId = x then [d] else []
  | .returnBook id => ∃ r, s.borrowRecords.get id = some r ∧ r.status ≠ .returned ∧
      Deed.PassesOn x r.bookId (.lent id r.memberId) deeds
  | .renewBook _ => deeds = []
  | .placeReservation memberId bookId =>
      deeds = if bookId = x then [.joined env.newId memberId] else []
  | .cancelReservation id memberId => ∃ r, s.reservations.get id = some r ∧
      r.memberId = memberId ∧
      (r.status = .pending ∧ deeds = (if r.bookId = x then [.left id] else []) ∨
      r.status = .hold ∧ Deed.PassesOn x r.bookId (.held id memberId) deeds)
  | .processExpiredHolds => ∃ holds : List Reservation, (holds.map Reservation.id).Nodup ∧
      (∀ r ∈ holds, s.reservations.get r.id = some r ∧ isHoldOf x r ∧
        ∃ e, r.expiresAt = some e ∧ e < env.clock 0) ∧
      List.Forall₂ (fun r d => d.Passes (.held r.id r.memberId)) holds deeds

/-- In `v` the copy of the book is still at `a` that somebody has in hand in `w`. -/
def DB.InHand (x bookId : UUID) (a : Whereabouts) (v w : DB) : Prop :=
  if bookId = x then v.desk x = ((w.desk x).1, add (w.desk x).2 (some a)) else w.desk x = v.desk x

section

variable {x bookId id memberId : UUID} {v v' w : DB} {D : Discipline DB RowKey}
  {svc : ReservationService} {env : Env} {expiresAt : Int}

/-- A loan is closed. -/
theorem DB.InHand.close {r : BorrowRecord} (hr : v.borrowRecords.get id = some r)
    (hactive : r.status.isActive) (returnDate : Option Int) :
    v.InHand x r.bookId (.lent r.id r.memberId)
      (v.put (.borrowRecord id) (.borrowRecord { r with returnDate, status := .returned })) := by
  obtain rfl : r.id = id := Table.key_of_get hr
  have hclosed : loanPlace x (some { r with returnDate, status := .returned }) = none :=
    loanPlace_none (by simp [isLoanOf, BorrowStatus.isActive])
  unfold DB.InHand
  split
  · rename_i hx
    have hloan : isLoanOf x r := by simp [isLoanOf, hx, hactive]
    have hwhere := whereabouts_putLoan v x r.id
      { r with returnDate, status := .returned }
    rw [hr, hclosed, loanPlace_of hloan, add_none] at hwhere
    exact congrArg (Prod.mk _) hwhere.symm
  · rename_i hx
    refine desk_putLoan _ ?_
    rw [hr, hclosed, loanPlace_other hx]

/-- A hold is let go. -/
theorem DB.InHand.release {r : Reservation} (hr : v.reservations.get id = some r)
    (hhold : r.status = .hold) (status : ReservationStatus) (hs : status ≠ .hold)
    (hp : status ≠ .pending) :
    v.InHand x r.bookId (.held r.id r.memberId)
      (v.put (.reservation id) (.reservation { r with status, expiresAt := none })) := by
  obtain rfl : r.id = id := Table.key_of_get hr
  have hplace : holdPlace x (some { r with status, expiresAt := none }) = none :=
    holdPlace_none (by simp [isHoldOf, hs])
  have hwas : waitingFor x (some r) = none := waitingFor_none (by simp [isPendingOf, hhold])
  have hwait : waitingFor x (some { r with status, expiresAt := none }) = none :=
    waitingFor_none (by simp [isPendingOf, hp])
  unfold DB.InHand
  split
  · rename_i hx
    have hwhere := whereabouts_putReservation v x r.id
      { r with status, expiresAt := none }
    rw [hr, hplace, holdPlace_of (isHoldOf_iff.mpr ⟨hx, hhold⟩), add_none] at hwhere
    have hwaiting : (v.put (.reservation r.id)
        (.reservation { r with status, expiresAt := none })).waiting x = v.waiting x := by
      rw [waiting_update, hwait, update_eq_self_iff]
      exact ((congrArg (waitingFor x) hr).trans hwas).symm
    exact congrArg₂ Prod.mk (congrArg (Desk.mk _) hwaiting.symm) hwhere.symm
  · rename_i hx
    refine desk_putReservation _ ?_ ?_
    · rw [hr, hplace, holdPlace_other hx]
    · rw [hr, hwait, hwas]

/-- A copy more on the shelf. -/
theorem desk_shelve {b : Book} (hb : v.books.get x = some b) (hdel : b.isDeleted = false)
    (hpos : 0 ≤ b.availableCopies) :
    (v.put (.book x) (.book { b with availableCopies := b.availableCopies + 1 })).desk x =
      ((v.desk x).1, add (v.desk x).2 (some .shelf)) := by
  have hwhere : add (v.whereabouts x) (some .shelf) =
      update (v.whereabouts x) .shelf (b.availableCopies + 1).toNat := by
    have hone : (b.availableCopies + 1).toNat = b.availableCopies.toNat + 1 := by omega
    rw [hone, ← add_some_update, whereabouts_shelf hb]
  have hstanding : (v.put (.book x)
      (.book { b with availableCopies := b.availableCopies + 1 })).standing x = v.standing x := by
    rw [standing_putBook, standing_of hb, hdel]
  refine congrArg₂ Prod.mk (congrArg (Desk.mk · _) hstanding) ?_
  rw [whereabouts_putBook]
  exact hwhere.symm

/-- A copy comes into the hold of who waits. -/
theorem desk_keep {r : Reservation} (hr : v.reservations.get r.id = some r)
    (hp : isPendingOf x r) (expiresAt : Option Int) :
    (v.put (.reservation r.id) (.reservation { r with status := .hold, expiresAt })).desk x =
      ((v.desk x).1.served r.id, add (v.desk x).2 (some (.held r.id r.memberId))) := by
  obtain ⟨hbook, hstatus⟩ := isPendingOf_iff.mp hp
  have hplace : holdPlace x (some r) = none := holdPlace_none (by simp [isHoldOf, hstatus])
  have hheld : holdPlace x (some { r with status := .hold, expiresAt }) =
      some (.held r.id r.memberId) := holdPlace_of (isHoldOf_iff.mpr ⟨hbook, rfl⟩)
  have hwhere := whereabouts_putReservation v x r.id
    { r with status := .hold, expiresAt }
  rw [hr, hplace, hheld, add_none] at hwhere
  have hwaiting : (v.put (.reservation r.id)
      (.reservation { r with status := .hold, expiresAt })).waiting x =
      update (v.waiting x) r.id none := by
    rw [waiting_update, waitingFor_none (by simp [isPendingOf])]
  exact congrArg₂ Prod.mk (congrArg (Desk.mk _) hwaiting) hwhere

theorem waiting_of {r : Reservation} (hr : v.reservations.get id = some r)
    (hp : isPendingOf x r) : v.waiting x id = some r.memberId := by
  simp [DB.waiting, waitingFor, hr, hp]

/-- The copy in hand is passed on. -/
theorem DB.InHand.passed {a : Whereabouts} (h : v.InHand x bookId a w) (ha : Desk.Back a)
    (hw : CopiesChecked w) (hp : Passed expiresAt bookId w v') :
    ∃ deeds, Deed.PassesOn x bookId a deeds ∧ v.Serves x deeds v' := by
  unfold DB.InHand at h
  unfold Deed.PassesOn
  split at h
  · rename_i hx
    subst hx
    simp only [↓reduceIte, DB.Serves, h]
    cases hp with
    | @promoted r hr hget =>
      rw [desk_record, desk_keep hget hr]
      exact ⟨_, ⟨_, rfl, .kept r.id r.memberId⟩, .single (.goes (.kept ha (waiting_of hget hr)))⟩
    | @restored b hb hdel _ =>
      rw [desk_record, desk_shelve hb hdel (checkCopies_iff.mp (hw _ _ hb)).2.1]
      have hlisted := (standing_of hb).trans (if_neg (by simp [hdel]))
      exact ⟨_, ⟨_, rfl, .shelved⟩, .single (.goes (.shelved ha hlisted))⟩
    | @gone b hb hdel =>
      have hcounted := Rules.Counted.goes (R := Desk.rules) (k := (v'.desk bookId).2)
        (.dropped (d := (v'.desk bookId).1) ha ((standing_of hb).trans (if_pos hdel)))
      rw [add_none] at hcounted
      exact ⟨_, ⟨_, rfl, .dropped⟩, .single hcounted⟩
  · rename_i hx
    refine ⟨[], if_neg hx ▸ rfl, DB.Serves.of_eq (Eq.trans ?_ h)⟩
    cases hp with
    | @promoted r hr hget =>
      obtain ⟨rfl, _⟩ := isPendingOf_iff.mp hr
      rw [desk_record]
      refine desk_putReservation _ ?_ ?_
      · rw [hget, holdPlace_other hx]
        exact holdPlace_other hx
      · rw [hget, waitingFor_other hx]
        exact waitingFor_other hx
    | restored => exact desk_putBook_other hx _
    | gone => rfl

theorem ReturnedOnce.serves {svc : BorrowService} (hb : Balanced v (fun _ => 0))
    (hc : CopiesChecked v) (h : ReturnedOnce svc env id v v') :
    v' = v ∨ ∃ deeds, (Op.returnBook id).Deeds x env v v' deeds ∧ v.Serves x deeds v' := by
  cases h with
  | again => exact .inl rfl
  | @passed r _ hget hopen hp =>
    obtain rfl : r.id = id := Table.key_of_get hget
    have hactive := isActive_of hopen (hb.loanStatus _ (Table.mem_of_get hget))
    obtain ⟨deeds, hpasses, hserves⟩ :=
      (DB.InHand.close (x := x) hget hactive _).passed (.lent _ _) (hc.frame (by rfl)) hp
    exact .inr ⟨deeds, ⟨r, hget, hopen, hpasses⟩, hserves⟩

theorem RenewedOnce.serves {svc : BorrowService} (hb : Balanced v (fun _ => 0))
    (h : RenewedOnce svc env id v v') : v.Serves x [] v' := by
  obtain ⟨r, hget, hopen, _, _, rfl⟩ := h.renewed
  obtain rfl : r.id = id := Table.key_of_get hget
  have hactive := isActive_of hopen (hb.loanStatus r (Table.mem_of_get hget))
  have hstatus : (renewedRecord svc r r).status.isActive = r.status.isActive := by
    unfold renewedRecord
    split
    · rfl
    · rw [hactive]
      rfl
  refine .of_eq (desk_putLoan _ ?_)
  rw [hget]
  show loanPlace x (some (renewedRecord svc r r)) = loanPlace x (some r)
  have hloan : isLoanOf x (renewedRecord svc r r) = isLoanOf x r := by
    unfold isLoanOf
    rw [hstatus]
    rfl
  simp only [loanPlace, Option.bind_some, hloan]
  rfl

theorem CancelledOnce.serves (hc : CopiesChecked v) (h : CancelledOnce svc env id memberId v v') :
    ∃ deeds, (Op.cancelReservation id memberId).Deeds x env v v' deeds ∧ v.Serves x deeds v' := by
  cases h with
  | @waiting r hget hmember hs =>
    refine ⟨_, ⟨r, hget, hmember, .inl ⟨hs, rfl⟩⟩, ?_⟩
    obtain rfl : r.id = id := Table.key_of_get hget
    have hhold : holdPlace x (some { r with status := .cancelled, expiresAt := none }) =
        holdPlace x (v.reservations.get r.id) := by
      rw [hget, holdPlace_none (r := r) (by simp [isHoldOf, hs])]
      exact holdPlace_none (by simp [isHoldOf])
    by_cases hx : r.bookId = x
    · have hgone : waitingFor x (some { r with status := .cancelled, expiresAt := none }) = none :=
        waitingFor_none (by simp [isPendingOf])
      have hdesk := desk_waiting (v := v) { r with status := .cancelled, expiresAt := none } hhold
      rw [hgone] at hdesk
      rw [if_pos hx, DB.Serves, hdesk]
      refine .single (.turns (.left r.id ?_))
      show v.waiting x r.id ≠ none
      rw [waiting_of hget (isPendingOf_iff.mpr ⟨hx, hs⟩)]
      simp
    · rw [if_neg hx]
      refine .of_eq (desk_putReservation _ hhold ?_)
      rw [hget, waitingFor_other hx]
      exact waitingFor_other hx
  | @held r _ hget hmember hs hp =>
    obtain rfl : r.id = id := Table.key_of_get hget
    subst hmember
    obtain ⟨deeds, hpasses, hserves⟩ := (DB.InHand.release (x := x) hget hs .cancelled (by simp)
      (by simp)).passed (.held _ _) (hc.frame (by rfl)) hp
    exact ⟨deeds, ⟨r, hget, rfl, .inr ⟨hs, hpasses⟩⟩, hserves⟩

theorem SweptOnce.serves {rest : List Reservation} {n : Nat} (h : SweptOnce svc env rest n v v')
    (hc : CopiesChecked v) :
    ∃ deeds, List.Forall₂ (fun r d => d.Passes (.held r.id r.memberId))
      (rest.filter (isHoldOf x)) deeds ∧ v.Serves x deeds v' := by
  induction h with
  | nil => exact ⟨[], .nil, .nil⟩
  | @cons r rest n v v' v'' hget hhold hp _ ih =>
    obtain ⟨more, hmore, hrest⟩ := ih ((hc.frame (by rfl)).passed hp)
    obtain ⟨deeds, hpasses, hserves⟩ := (DB.InHand.release (x := x) hget hhold .expired (by simp)
      (by simp)).passed (.held _ _) (hc.frame (by rfl)) hp
    unfold Deed.PassesOn at hpasses
    split at hpasses
    · rename_i hx
      obtain ⟨d, rfl, hd⟩ := hpasses
      refine ⟨d :: more, ?_, hserves.append hrest⟩
      rw [List.filter_cons_of_pos (isHoldOf_iff.mpr ⟨hx, hhold⟩)]
      exact .cons hd hmore
    · rename_i hx
      subst hpasses
      refine ⟨more, ?_, hserves.append hrest⟩
      rwa [List.filter_cons_of_neg fun h => hx (isHoldOf_iff.mp h).1]

theorem Placed.serves (h : Placed D w env memberId bookId v v') :
    v.Serves x (if bookId = x then [.joined env.newId memberId] else []) v' := by
  have hhold : holdPlace x (some (placedReservation env memberId bookId)) =
      holdPlace x (v.reservations.get env.newId) := by
    rw [h.fresh]
    exact holdPlace_none (by simp [isHoldOf, placedReservation])
  rw [h.stored]
  by_cases hx : bookId = x
  · subst hx
    obtain ⟨b, hb, hdel, havail⟩ := h.book
    have hlisted : v.standing bookId = .listed := (standing_of hb).trans (if_neg (by simp [hdel]))
    have hshelf : v.whereabouts bookId .shelf = 0 := by
      simp only [DB.whereabouts, DB.shelf, hb, Option.map_some, Option.getD_some]
      omega
    have hnone : v.waiting bookId env.newId = none := by
      simp [DB.waiting, h.fresh, waitingFor]
    have hwait : waitingFor bookId (some (placedReservation env memberId bookId)) =
        some memberId := if_pos (isPendingOf_iff.mpr ⟨rfl, rfl⟩)
    rw [if_pos rfl, DB.Serves, desk_waiting _ hhold]
    have hjoined := Desk.Turns.joined (d := (v.desk bookId).1) (n := (v.desk bookId).2)
      env.newId memberId hlisted hshelf hnone
    rw [← hwait] at hjoined
    exact .single (.turns hjoined)
  · rw [if_neg hx]
    refine .of_eq (desk_putReservation _ hhold ?_)
    rw [h.fresh]
    exact waitingFor_other hx

theorem Created.serves {b : Book} (h : Created b v v') (hb : b.isDeleted = false) :
    v.Serves x (if b.id = x then .registered :: List.replicate b.availableCopies.toNat .bought
      else []) v' := by
  rw [h.stored]
  by_cases hx : b.id = x
  · subst hx
    have hunknown : v.standing b.id = .unknown := by simp [DB.standing, h.fresh]
    have hshelf : update (v.whereabouts b.id) .shelf 0 = v.whereabouts b.id := by
      refine update_eq_iff.mpr ⟨?_, fun _ _ => rfl⟩
      simp [DB.whereabouts, DB.shelf, h.fresh]
    have hdesk : (v.put (.book b.id) (.book b)).desk b.id = ({ (v.desk b.id).1 with
        standing := .listed }, update (v.whereabouts b.id) .shelf b.availableCopies.toNat) := by
      refine congrArg₂ Prod.mk (congrArg (Desk.mk · _) ?_) (whereabouts_putBook b)
      rw [standing_putBook, hb]
      rfl
    rw [if_pos rfl, DB.Serves, hdesk]
    refine .cons (.turns (.registered hunknown)) ?_
    have hfill := Desk.along_bought (d := { (v.desk b.id).1 with standing := .listed }) rfl
      (v.whereabouts b.id) 0 b.availableCopies.toNat
    rwa [hshelf, Nat.zero_add] at hfill
  · rw [if_neg hx]
    exact .of_eq (desk_putBook_other hx b)

/-- The shelf changes with the total. -/
theorem restocked {b b' : Book} (hget : v.books.get bookId = some b) (hdel : b.isDeleted = false)
    (hdel' : b'.isDeleted = b.isDeleted) (hpos : 0 ≤ b.availableCopies)
    (hpos' : 0 ≤ b'.availableCopies)
    (hcopies : b'.availableCopies - b.availableCopies = b'.totalCopies - b.totalCopies) :
    v.Serves x (Desk.restocking ((v.put (.book bookId) (.book b')).total x - v.total x))
      (v.put (.book bookId) (.book b')) := by
  by_cases hx : bookId = x
  · subst hx
    have htotal : (v.put (.book bookId) (.book b')).total bookId - v.total bookId =
        b'.availableCopies.toNat - b.availableCopies.toNat := by
      simp only [DB.total, get_putBook, ↓reduceIte, hget, Option.elim_some]
      omega
    rw [htotal]
    have hlisted : v.standing bookId = .listed := (standing_of hget).trans (if_neg (by simp [hdel]))
    have hdesk : (v.put (.book bookId) (.book b')).desk bookId =
        ((v.desk bookId).1, update (v.whereabouts bookId) .shelf b'.availableCopies.toNat) := by
      refine congrArg₂ Prod.mk (congrArg (Desk.mk · _) ?_) (whereabouts_putBook b')
      rw [standing_putBook, standing_of hget, hdel']
    have hfill := Desk.restocked (d := (v.desk bookId).1) hlisted (v.whereabouts bookId)
      b.availableCopies.toNat b'.availableCopies.toNat
    rw [whereabouts_shelf hget, ← hdesk] at hfill
    exact hfill
  · have htotal : (v.put (.book bookId) (.book b')).total x = v.total x := by
      simp only [DB.total, get_putBook, if_neg (Ne.symm hx)]
    rw [htotal, sub_self]
    exact .of_eq (desk_putBook_other hx b')

theorem Updated.serves {body : BookUpdate} (hc : CopiesChecked v)
    (h : Updated D w bookId body v v') :
    v.Serves x (Desk.restocking (v'.total x - v.total x)) v' := by
  cases h with
  | texts hget hdel _ hstore =>
    have hpos := (checkCopies_ok (hc _ _ hget)).1
    obtain ⟨_, _, _, _, _, _, _, _, rfl⟩ := storeBook_ok hstore
    exact restocked hget hdel rfl hpos hpos (by simp)
  | copies hget hdel _ _ hnew hstore =>
    have hpos := (checkCopies_ok (hc _ _ hget)).1
    obtain ⟨_, _, _, _, _, _, _, _, rfl⟩ := storeBook_ok hstore
    exact restocked (v := v.record _) hget hdel rfl hpos hnew (by simp)

theorem Deleted.serves (h : Deleted D w env bookId v v') :
    v.Serves x (if bookId = x then [.withdrawn] else []) v' := by
  cases h with
  | @mk _ b _ _ hget =>
    by_cases hx : bookId = x
    · subst hx
      have hdesk : (v.put (.book bookId) (.book { b with
          isDeleted := true, deletedAt := some (toDatetime (env.clock 0)) })).desk bookId =
          ({ (v.desk bookId).1 with standing := .withdrawn }, v.whereabouts bookId) := by
        refine congrArg₂ Prod.mk (congrArg (Desk.mk · _) (standing_putBook _)) ?_
        rw [whereabouts_putBook, whereabouts_shelf hget]
      rw [if_pos rfl, DB.Serves, hdesk]
      refine .single (.turns (.withdrawn ?_))
      show v.standing bookId ≠ .unknown
      rw [standing_of hget]
      split <;> simp
    · rw [if_neg hx]
      exact .of_eq (desk_putBook_other hx _)

/-- A copy is taken off the shelf. -/
theorem DB.InHand.take {b : Book} (hb : v.books.get bookId = some b)
    (hpos : 0 < b.availableCopies) :
    v.InHand x bookId .shelf
      (v.put (.book bookId) (.book { b with availableCopies := b.availableCopies - 1 })) := by
  unfold DB.InHand
  split
  · rename_i hx
    subst hx
    have hone : b.availableCopies.toNat = (b.availableCopies - 1).toNat + 1 := by omega
    refine congrArg₂ Prod.mk (congrArg (Desk.mk · _) ?_) ?_
    · rw [standing_putBook, ← standing_of hb]
    · show v.whereabouts bookId = add (DB.whereabouts bookId (DB.put _ _ v)) (some .shelf)
      rw [whereabouts_putBook, add_some_update, ← hone, whereabouts_shelf hb]
  · rename_i hx
    exact desk_putBook_other hx _

/-- Whoever has a copy in hand takes it home. -/
theorem DB.InHand.lend {svc : BorrowService} {a : Whereabouts} {d : Deed}
    (h : v.InHand x bookId a w) (hfresh : w.borrowRecords.get env.newId = none)
    (hgoes : bookId = x → Desk.Goes d (v.desk x).1 (v.desk x).2 (some a)
      (some (.lent env.newId memberId)) (v.desk x).1) :
    v.Serves x (if bookId = x then [d] else []) (w.put (.borrowRecord env.newId)
      (.borrowRecord (borrowedRecord svc env memberId bookId))) := by
  have hwhere := whereabouts_putLoan w x env.newId
    (borrowedRecord svc env memberId bookId)
  rw [hfresh] at hwhere
  unfold DB.InHand at h
  by_cases hx : bookId = x
  · rw [if_pos hx] at h ⊢
    have hloan : loanPlace x (some (borrowedRecord svc env memberId bookId)) =
        some (.lent env.newId memberId) := loanPlace_of (by simp [isLoanOf, hx, borrowedRecord])
    have hdesk : (w.put (.borrowRecord env.newId)
        (.borrowRecord (borrowedRecord svc env memberId bookId))).desk x =
        ((w.desk x).1, add (w.desk x).2 (some (.lent env.newId memberId))) :=
      congrArg (Prod.mk _) (hwhere.trans (congrArg (add _) hloan))
    have hstep := hgoes hx
    rw [h] at hstep
    rw [DB.Serves, h, hdesk]
    exact .single (.goes hstep)
  · rw [if_neg hx] at h ⊢
    refine .of_eq ((desk_putLoan _ ?_).trans h)
    rw [hfresh]
    exact loanPlace_other hx

theorem BorrowReady.may_lend {svc : BorrowService} (h : BorrowReady D w svc env memberId bookId v) :
    (v.desk bookId).1.standing = .listed ∧ ∀ m, (v.desk bookId).2 (.lent env.newId m) = 0 := by
  obtain ⟨b, hb, hdel⟩ := h.book
  refine ⟨(standing_of hb).trans (if_neg (by simp [hdel])), fun m => ?_⟩
  simp [DB.desk, DB.whereabouts, h.fresh, loanPlace]

theorem Borrowed.serves {svc : BorrowService} (h : Borrowed D w svc env memberId bookId v v') :
    ∃ deeds, (Op.borrowBook memberId bookId).Deeds x env v v' deeds ∧ v.Serves x deeds v' := by
  cases h with
  | @held u r hready _ hone hget hmember =>
    have hr : isHoldOf bookId r := (List.mem_filter.mp (hone ▸ List.mem_singleton_self r)).2
    obtain ⟨rfl, hs⟩ := isHoldOf_iff.mp hr
    subst hmember
    have hhand := DB.InHand.release (x := x) hget hs .completed (by simp) (by simp)
    refine ⟨_, ⟨.collected r.id env.newId r.memberId, .inr ⟨r.id, rfl⟩, rfl⟩, ?_⟩
    refine hhand.lend hready.fresh fun hx => ?_
    subst hx
    exact .collected hready.may_lend.1 hready.may_lend.2
  | @shelf u b hready _ _ hget havail _ =>
    refine ⟨_, ⟨.lent env.newId memberId, .inl rfl, rfl⟩, ?_⟩
    refine (DB.InHand.take hget havail).lend hready.fresh fun hx => ?_
    subst hx
    exact .lent hready.may_lend.1 hready.may_lend.2

/-- Whatever an operation commits is what it has to do at the desk. -/
theorem Op.Orderly.serves {op : Op} (h : op.Orderly D svc env v v') (hv : Sound svc v) :
    v' = v ∨ ∃ deeds, op.Deeds x env v v' deeds ∧ v.Serves x deeds v' := by
  cases op with
  | createBook => exact .inr ⟨_, rfl, Created.serves h rfl⟩
  | updateBook => exact .inr ⟨_, rfl, Updated.serves hv.copies h⟩
  | deleteBook => exact .inr ⟨_, rfl, Deleted.serves h⟩
  | borrowBook => exact .inr (Borrowed.serves h)
  | returnBook => exact ReturnedOnce.serves hv.balanced hv.copies h
  | renewBook => exact .inr ⟨_, rfl, RenewedOnce.serves hv.balanced h⟩
  | placeReservation => exact .inr ⟨_, rfl, Placed.serves h⟩
  | cancelReservation => exact .inr (CancelledOnce.serves hv.copies h)
  | processExpiredHolds =>
    obtain ⟨u, hrows, hs⟩ := h
    obtain ⟨deeds, hpasses, hserves⟩ := hs.serves (x := x) hv.copies
    refine .inr ⟨deeds, ⟨_, ?_, fun r hr => ?_, hpasses⟩, hserves⟩
    · exact (expiredHolds_nodup env u).sublist (List.filter_sublist.map _)
    · obtain ⟨hr, hhold⟩ := List.mem_filter.mp hr
      exact ⟨hrows r hr, hhold, (mem_expiredHolds.mp hr).2.2⟩

end

end LibraryPlatform

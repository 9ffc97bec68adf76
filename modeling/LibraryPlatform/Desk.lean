import LibraryPlatform.Conservation
import LibraryPlatform.Tracing

/-!
# The desk that the copies of a book go over

What the counters, the loans and the reservations of a book stand for: copies that are on the
shelf, lent to a member or held for one. A copy goes one way at a time, by one of the deeds of the
desk.
-/
namespace LibraryPlatform

open KeyedTable Transaction ReservationRepository Tracing Function

/-- Where a copy is. -/
inductive Whereabouts where
  | shelf
  | lent (loan member : UUID)
  | held (reservation member : UUID)
  deriving DecidableEq

inductive Standing where
  | unknown | listed | withdrawn
  deriving DecidableEq

/-- What the desk knows of a book besides its copies: who waits for one. -/
structure Desk where
  standing : Standing
  waiting : UUID → Option UUID

/-- What is done at the desk. A copy that is passed on `came` back from there. -/
inductive Deed where
  | bought
  | discarded
  | lent (loan member : UUID)
  | collected (reservation loan member : UUID)
  | kept (came : Whereabouts) (reservation member : UUID)
  | shelved (came : Whereabouts)
  | dropped (came : Whereabouts)
  | registered
  | withdrawn
  | joined (reservation member : UUID)
  | left (reservation : UUID)
  deriving DecidableEq

/-- The copy that came back from there goes to a member who waits, to the shelf or nowhere. -/
inductive Deed.Passes (came : Whereabouts) : Deed → Prop
  | kept (reservation member : UUID) : Passes came (.kept came reservation member)
  | shelved : Passes came (.shelved came)
  | dropped : Passes came (.dropped came)

namespace Desk

def served (d : Desk) (reservation : UUID) : Desk :=
  { d with waiting := update d.waiting reservation none }

/-- The copy is given back to the desk. -/
inductive Back : Whereabouts → Prop
  | lent (loan member : UUID) : Back (.lent loan member)
  | held (reservation member : UUID) : Back (.held reservation member)

/-- The ways of a copy. A held one is lent to the member it is held for, and one that comes back
goes to a member who waits or to the shelf; of a withdrawn book none is lent or put on the shelf. -/
inductive Goes :
    Deed → Desk → (Whereabouts → ℕ) → Option Whereabouts → Option Whereabouts → Desk → Prop
  | bought {d n} : d.standing = .listed → Goes .bought d n none (some .shelf) d
  | discarded {d n} : d.standing = .listed → Goes .discarded d n (some .shelf) none d
  | lent {d n loan member} : d.standing = .listed → (∀ m, n (.lent loan m) = 0) →
      Goes (.lent loan member) d n (some .shelf) (some (.lent loan member)) d
  | collected {d n reservation loan member} : d.standing = .listed →
      (∀ m, n (.lent loan m) = 0) →
      Goes (.collected reservation loan member) d n (some (.held reservation member))
        (some (.lent loan member)) d
  | kept {d n a reservation member} : Back a → d.waiting reservation = some member →
      Goes (.kept a reservation member) d n (some a) (some (.held reservation member))
        (d.served reservation)
  | shelved {d n a} : Back a → d.standing = .listed → Goes (.shelved a) d n (some a) (some .shelf) d
  | dropped {d n a} : Back a → d.standing = .withdrawn → Goes (.dropped a) d n (some a) none d

inductive Turns : Deed → Desk → (Whereabouts → ℕ) → Desk → Prop
  | registered {d n} : d.standing = .unknown → Turns .registered d n { d with standing := .listed }
  | withdrawn {d n} : d.standing ≠ .unknown → Turns .withdrawn d n { d with standing := .withdrawn }
  | joined {d n} (reservation member : UUID) : d.standing = .listed → n .shelf = 0 →
      d.waiting reservation = none →
      Turns (.joined reservation member) d n
        { d with waiting := update d.waiting reservation (some member) }
  | left {d n} (reservation : UUID) : d.waiting reservation ≠ none →
      Turns (.left reservation) d n (d.served reservation)

def rules : Rules Deed Desk Whereabouts := ⟨Goes, Turns⟩

/-- As many copies are bought or discarded as the total changes by. -/
def restocking (difference : ℤ) : List Deed :=
  List.replicate difference.toNat .bought ++ List.replicate (-difference).toNat .discarded

section

variable {d : Desk} (hd : d.standing = .listed) (n : Whereabouts → ℕ)

include hd

theorem along_bought (i j : ℕ) : Along rules.Counted (List.replicate j .bought)
    (d, update n .shelf i) (d, update n .shelf (i + j)) := by
  induction j generalizing i with
  | zero => exact .nil
  | succ j ih =>
    have h := Rules.Counted.goes (R := rules) (k := update n .shelf i) (Goes.bought hd)
    rw [add_none, add_some_update] at h
    have hrest := ih (i + 1)
    rw [Nat.add_assoc, Nat.add_comm 1] at hrest
    exact .cons h hrest

theorem along_discarded (i j : ℕ) : Along rules.Counted (List.replicate j .discarded)
    (d, update n .shelf (i + j)) (d, update n .shelf i) := by
  induction j with
  | zero => exact .nil
  | succ j ih =>
    have h := Rules.Counted.goes (R := rules) (k := update n .shelf (i + j)) (Goes.discarded hd)
    rw [add_none, add_some_update] at h
    exact .cons h ih

theorem restocked (i j : ℕ) : Along rules.Counted (restocking (j - i))
    (d, update n .shelf i) (d, update n .shelf j) := by
  unfold restocking
  rcases le_total i j with h | h
  · obtain ⟨k, rfl⟩ := Nat.exists_eq_add_of_le h
    have hmore : ((↑(i + k) : ℤ) - i).toNat = k := by omega
    have hless : (-((↑(i + k) : ℤ) - i)).toNat = 0 := by omega
    rw [hmore, hless, List.replicate_zero, List.append_nil]
    exact along_bought hd n i k
  · obtain ⟨k, rfl⟩ := Nat.exists_eq_add_of_le h
    have hmore : ((j : ℤ) - ↑(j + k)).toNat = 0 := by omega
    have hless : (-((j : ℤ) - ↑(j + k))).toNat = k := by omega
    rw [hmore, hless, List.replicate_zero, List.nil_append]
    exact along_discarded hd n j k

end

end Desk

/-! ## What the tables say of a book -/

section

variable (x : UUID)

def loanPlace (o : Option BorrowRecord) : Option Whereabouts :=
  o.bind fun r => if isLoanOf x r then some (.lent r.id r.memberId) else none

def holdPlace (o : Option Reservation) : Option Whereabouts :=
  o.bind fun r => if isHoldOf x r then some (.held r.id r.memberId) else none

def waitingFor (o : Option Reservation) : Option UUID :=
  o.bind fun r => if isPendingOf x r then some r.memberId else none

namespace DB

def shelf (db : DB) : ℕ := ((db.books.get x).map fun b => b.availableCopies.toNat).getD 0

def standing (db : DB) : Standing :=
  ((db.books.get x).map fun b => if b.isDeleted then .withdrawn else .listed).getD .unknown

def whereabouts (db : DB) : Whereabouts → ℕ
  | .shelf => db.shelf x
  | .lent id m => if loanPlace x (db.borrowRecords.get id) = some (.lent id m) then 1 else 0
  | .held id m => if holdPlace x (db.reservations.get id) = some (.held id m) then 1 else 0

def waiting (db : DB) (id : UUID) : Option UUID := waitingFor x (db.reservations.get id)

/-- The desk as the tables have it. -/
def desk (db : DB) : Desk × (Whereabouts → ℕ) :=
  (⟨db.standing x, db.waiting x⟩, db.whereabouts x)

end DB

end

section

variable {x id : UUID} {v : DB}

theorem loanPlace_of {r : BorrowRecord} (h : isLoanOf x r) :
    loanPlace x (some r) = some (.lent r.id r.memberId) := if_pos h

theorem loanPlace_none {r : BorrowRecord} (h : ¬isLoanOf x r) : loanPlace x (some r) = none :=
  if_neg h

theorem holdPlace_of {r : Reservation} (h : isHoldOf x r) :
    holdPlace x (some r) = some (.held r.id r.memberId) := if_pos h

theorem holdPlace_none {r : Reservation} (h : ¬isHoldOf x r) : holdPlace x (some r) = none :=
  if_neg h

theorem loanPlace_eq_some {o : Option BorrowRecord} {c : Whereabouts}
    (h : loanPlace x o = some c) : ∃ r, o = some r ∧ c = .lent r.id r.memberId := by
  obtain ⟨r, rfl, hr⟩ := Option.bind_eq_some_iff.mp h
  split at hr
  · exact ⟨r, rfl, (Option.some.inj hr).symm⟩
  · cases hr

theorem holdPlace_eq_some {o : Option Reservation} {c : Whereabouts}
    (h : holdPlace x o = some c) : ∃ r, o = some r ∧ c = .held r.id r.memberId := by
  obtain ⟨r, rfl, hr⟩ := Option.bind_eq_some_iff.mp h
  split at hr
  · exact ⟨r, rfl, (Option.some.inj hr).symm⟩
  · cases hr

@[simp] theorem desk_record (v : DB) (e : Event) : (v.record e).desk x = v.desk x := rfl

theorem DB.desk_congr {v' : DB} (hb : v'.books = v.books)
    (hl : v'.borrowRecords = v.borrowRecords) (hr : v'.reservations = v.reservations) :
    v'.desk x = v.desk x := by
  unfold DB.desk DB.standing DB.waiting
  congr 1
  · rw [hb, hr]
  · funext c
    cases c <;> simp only [DB.whereabouts, DB.shelf, hb, hl, hr]

/-- The copy of the loan that was there is exchanged for that of the one that is written. -/
theorem whereabouts_putLoan (v : DB) (x id : UUID) (r : BorrowRecord) :
    add ((v.put (.borrowRecord id) (.borrowRecord r)).whereabouts x)
      (loanPlace x (v.borrowRecords.get id)) =
    add (v.whereabouts x) (loanPlace x (some { r with id := id })) := by
  refine add_exchange (fun c => ∃ m, c = .lent id m) (fun c h => ?_) (fun c h => ?_) ?_ ?_
    fun c hc => ?_
  · obtain ⟨q, hq, rfl⟩ := loanPlace_eq_some h
    obtain rfl : q.id = id := Table.key_of_get hq
    exact ⟨_, rfl⟩
  · obtain ⟨q, hq, rfl⟩ := loanPlace_eq_some h
    cases hq
    exact ⟨_, rfl⟩
  · rintro _ ⟨m, rfl⟩
    rfl
  · rintro _ ⟨m, rfl⟩
    simp only [DB.whereabouts, get_putBorrowRecord, ↓reduceIte]
  · cases c with
    | lent i m =>
      have hi : i ≠ id := fun h => hc ⟨m, h ▸ rfl⟩
      simp only [DB.whereabouts, get_putBorrowRecord, if_neg hi]
    | shelf => rfl
    | held => rfl

theorem whereabouts_putReservation (v : DB) (x id : UUID) (r : Reservation) :
    add ((v.put (.reservation id) (.reservation r)).whereabouts x)
      (holdPlace x (v.reservations.get id)) =
    add (v.whereabouts x) (holdPlace x (some { r with id := id })) := by
  refine add_exchange (fun c => ∃ m, c = .held id m) (fun c h => ?_) (fun c h => ?_) ?_ ?_
    fun c hc => ?_
  · obtain ⟨q, hq, rfl⟩ := holdPlace_eq_some h
    obtain rfl : q.id = id := Table.key_of_get hq
    exact ⟨_, rfl⟩
  · obtain ⟨q, hq, rfl⟩ := holdPlace_eq_some h
    cases hq
    exact ⟨_, rfl⟩
  · rintro _ ⟨m, rfl⟩
    rfl
  · rintro _ ⟨m, rfl⟩
    simp only [DB.whereabouts, get_putReservation, ↓reduceIte]
  · cases c with
    | held i m =>
      have hi : i ≠ id := fun h => hc ⟨m, h ▸ rfl⟩
      simp only [DB.whereabouts, get_putReservation, if_neg hi]
    | shelf => rfl
    | lent => rfl

theorem waiting_update (r : Reservation) :
    (v.put (.reservation id) (.reservation r)).waiting x =
      update (v.waiting x) id (waitingFor x (some { r with id := id })) := by
  funext i
  by_cases hi : i = id
  · subst hi
    simp [DB.waiting, get_putReservation]
  · simp [DB.waiting, get_putReservation, hi]

theorem whereabouts_putBook (b : Book) :
    (v.put (.book x) (.book b)).whereabouts x =
      update (v.whereabouts x) .shelf b.availableCopies.toNat := by
  funext c
  cases c with
  | shelf => simp [DB.whereabouts, DB.shelf, get_putBook]
  | lent => rfl
  | held => rfl

theorem standing_putBook (b : Book) :
    (v.put (.book x) (.book b)).standing x = if b.isDeleted then .withdrawn else .listed := by
  simp [DB.standing, get_putBook]

theorem whereabouts_shelf {b : Book} (hb : v.books.get x = some b) :
    update (v.whereabouts x) .shelf b.availableCopies.toNat = v.whereabouts x := by
  refine update_eq_iff.mpr ⟨?_, fun _ _ => rfl⟩
  simp [DB.whereabouts, DB.shelf, hb]

theorem standing_of {b : Book} (hb : v.books.get x = some b) :
    v.standing x = if b.isDeleted then .withdrawn else .listed := by
  simp [DB.standing, hb]

/-- The desk of a book knows nothing of other books. -/
theorem desk_putBook_other (hne : id ≠ x) (b : Book) :
    (v.put (.book id) (.book b)).desk x = v.desk x := by
  have hget : (v.put (.book id) (.book b)).books.get x = v.books.get x := by
    rw [get_putBook, if_neg hne.symm]
  have hwhere : (v.put (.book id) (.book b)).whereabouts x = v.whereabouts x := by
    funext c
    cases c with
    | shelf => simp only [DB.whereabouts, DB.shelf, hget]
    | lent => rfl
    | held => rfl
  have hstanding : (v.put (.book id) (.book b)).standing x = v.standing x := by
    simp only [DB.standing, hget]
  have hwaiting : (v.put (.book id) (.book b)).waiting x = v.waiting x := rfl
  simp only [DB.desk, hwhere, hstanding, hwaiting]

/-- A loan that stays where it is. -/
theorem desk_putLoan (r : BorrowRecord)
    (h : loanPlace x (some { r with id := id }) = loanPlace x (v.borrowRecords.get id)) :
    (v.put (.borrowRecord id) (.borrowRecord r)).desk x = v.desk x := by
  have hwhere := whereabouts_putLoan v x id r
  rw [h] at hwhere
  exact congrArg (Prod.mk _) (add_cancel hwhere)

/-- A reservation that holds a copy before and after, or never. -/
theorem desk_waiting (r : Reservation)
    (h : holdPlace x (some { r with id := id }) = holdPlace x (v.reservations.get id)) :
    (v.put (.reservation id) (.reservation r)).desk x =
      ({ (v.desk x).1 with
          waiting := update (v.waiting x) id (waitingFor x (some { r with id := id })) },
        (v.desk x).2) := by
  have hwhere := whereabouts_putReservation v x id r
  rw [h] at hwhere
  exact congrArg₂ Prod.mk (congrArg (Desk.mk _) (waiting_update r)) (add_cancel hwhere)

theorem desk_putReservation (r : Reservation)
    (hhold : holdPlace x (some { r with id := id }) = holdPlace x (v.reservations.get id))
    (hwait : waitingFor x (some { r with id := id }) = waitingFor x (v.reservations.get id)) :
    (v.put (.reservation id) (.reservation r)).desk x = v.desk x := by
  rw [desk_waiting r hhold, hwait]
  exact congrArg₂ Prod.mk (congrArg (Desk.mk _) (update_eq_self id (v.waiting x))) rfl

theorem loanPlace_other {r : BorrowRecord} (h : r.bookId ≠ x) : loanPlace x (some r) = none :=
  loanPlace_none (by simp [isLoanOf, h])

theorem holdPlace_other {r : Reservation} (h : r.bookId ≠ x) : holdPlace x (some r) = none :=
  holdPlace_none (by simp [isHoldOf, h])

theorem waitingFor_none {r : Reservation} (h : ¬isPendingOf x r) : waitingFor x (some r) = none :=
  if_neg h

theorem waitingFor_other {r : Reservation} (h : r.bookId ≠ x) : waitingFor x (some r) = none :=
  waitingFor_none (by simp [isPendingOf, h])

end

end LibraryPlatform

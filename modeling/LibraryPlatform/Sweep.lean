import LibraryPlatform.Checkout
import LibraryPlatform.LifeCycle

/-!
# The sweep of the expired holds

The loop takes the expired holds in whatever order the database hands them out. What it
does to a row depends only on how many holds of its book have expired and on how many
wait in front of it.
-/
namespace LibraryPlatform

open KeyedTable Transaction ReservationRepository

/-! ## The queue of a book -/

/-- `q` waits for the same book as `r`, and has done so for longer. -/
def isAhead (r q : Reservation) : Bool := isPendingOf r.bookId q && q.reservedAt < r.reservedAt

/-- How many wait in front of `r`. -/
def rank (db : DB) (r : Reservation) : Nat := db.reservations.count (isAhead r)

def waiters (db : DB) (bookId : UUID) : Nat := db.reservations.count (isPendingOf bookId)

/-- No two who wait for a book reserved it at the same time. -/
def InTurn (db : DB) : Prop :=
  ∀ q ∈ db.reservations.rows, ∀ q' ∈ db.reservations.rows, q.status = .pending →
    q'.status = .pending →
    q.bookId = q'.bookId → q.reservedAt = q'.reservedAt → q = q'

theorem isAhead_iff {r q : Reservation} :
    isAhead r q ↔ q.status = .pending ∧ q.bookId = r.bookId ∧ q.reservedAt < r.reservedAt := by
  simp [isAhead, isPendingOf, and_assoc, and_left_comm]

/-- A row is written that does not count. -/
theorem count_putReservation {db : DB} {id : UUID} {o r : Reservation} {p : Reservation → Bool}
    (ho : db.reservations.get id = some o) (hr : p { r with id := id } = false) :
    ((db.put (.reservation id) (.reservation r)).reservations.count p : Int) =
      db.reservations.count p - if p o then 1 else 0 := by
  have hcount := db.reservations.count_put { r with id := id } p
  have hget : db.reservations.get (Keyed.key { r with id := id }) = some o := ho
  rw [hr, hget] at hcount
  simp only [Bool.false_eq_true, ↓reduceIte, Option.elim_some] at hcount
  change ((db.reservations.put { r with id := id }).count p : Int) = _
  omega

section

variable {db : DB} {id : UUID} {o r : Reservation}

theorem isAhead_settled (h : r.status ≠ .pending) (q : Reservation) : isAhead q r = false := by
  simp [isAhead, isPendingOf, h]

theorem isPendingOf_settled (h : r.status ≠ .pending) (bookId : UUID) :
    isPendingOf bookId r = false := by
  simp [isPendingOf, h]

/-- A row is written that neither waited nor waits. -/
theorem rank_put (ho : db.reservations.get id = some o) (hos : o.status ≠ .pending)
    (hrs : r.status ≠ .pending) (q : Reservation) :
    rank (db.put (.reservation id) (.reservation r)) q = rank db q := by
  have hcount := count_putReservation (p := isAhead q) ho (isAhead_settled hrs q)
  rw [isAhead_settled hos] at hcount
  simpa [rank] using hcount

theorem waiters_put (ho : db.reservations.get id = some o) (hos : o.status ≠ .pending)
    (hrs : r.status ≠ .pending) (bookId : UUID) :
    waiters (db.put (.reservation id) (.reservation r)) bookId = waiters db bookId := by
  have hcount := count_putReservation (p := isPendingOf bookId) ho (isPendingOf_settled hrs bookId)
  rw [isPendingOf_settled hos] at hcount
  simpa [waiters] using hcount

theorem pending_put (ho : db.reservations.get id = some o) (hos : o.status ≠ .pending)
    (hrs : r.status ≠ .pending) {x : Reservation} (hx : x.status = .pending) :
    x ∈ (db.put (.reservation id) (.reservation r)).reservations.rows ↔
    x ∈ db.reservations.rows := by
  have hget := get_putReservation db id x.id r
  constructor
  · intro hmem
    have hstored := (Table.get_of_mem hmem).symm.trans hget
    split at hstored
    · cases hstored
      exact absurd hx hrs
    · exact Table.mem_of_get hstored.symm
  · intro hmem
    have hne : x.id ≠ id := by
      rintro rfl
      have hsame : o = x := Option.some.inj (ho.symm.trans (Table.get_of_mem hmem))
      exact hos (hsame ▸ hx)
    rw [if_neg hne] at hget
    exact Table.mem_of_get (hget.trans (Table.get_of_mem hmem))

/-- One who waited stops waiting. -/
theorem rank_leave (ho : db.reservations.get id = some o) (hos : o.status = .pending)
    (hrs : r.status ≠ .pending) (q : Reservation) :
    (rank (db.put (.reservation id) (.reservation r)) q : Int) =
      rank db q - if o.bookId = q.bookId ∧ o.reservedAt < q.reservedAt then 1 else 0 := by
  have hcount := count_putReservation (p := isAhead q) ho (isAhead_settled hrs q)
  simp only [isAhead_iff, hos, true_and] at hcount
  exact hcount

theorem waiters_leave (ho : db.reservations.get id = some o) (hos : o.status = .pending)
    (hrs : r.status ≠ .pending) (bookId : UUID) :
    (waiters (db.put (.reservation id) (.reservation r)) bookId : Int) =
      waiters db bookId - if o.bookId = bookId then 1 else 0 := by
  have hcount := count_putReservation (p := isPendingOf bookId) ho (isPendingOf_settled hrs bookId)
  simp only [isPendingOf_iff, hos, and_true] at hcount
  exact hcount

end

/-! ## What a sweep leaves -/

/-- From `v` to `v'` the holds of `gone` have expired, `k id` of them for the book `id`, and their
copies have gone to those who waited longest, and else back to the shelf. -/
structure HandedOn (svc : ReservationService) (env : Env) (gone : Reservation → Prop)
    (k : UUID → Nat) (v v' : DB) : Prop where
  expired : ∀ r, gone r → v'.reservations.get r.id =
    some { r with status := .expired, expiresAt := none }
  promoted : ∀ r ∈ v.reservations.rows, r.status = .pending → rank v r < k r.bookId →
    ∃ n, v'.reservations.get r.id =
      some { r with
        status := .hold
        expiresAt := some (toDatetime (env.clock n + svc.holdDurationHours * hour)) }
  kept : ∀ x, (∀ r, gone r → r.id ≠ x) →
    (∀ r, v.reservations.get x = some r → r.status = .pending → k r.bookId ≤ rank v r) →
    v'.reservations.get x = v.reservations.get x
  waiting : ∀ bookId, waiters v' bookId = waiters v bookId - k bookId
  shelf : ∀ id b, v.books.get id = some b →
    v'.books.get id =
      some { b with availableCopies := b.availableCopies + (k id - waiters v id : Nat) }
  unknown : ∀ id, v.books.get id = none → v'.books.get id = none
  others : v'.users = v.users ∧ v'.members = v.members ∧ v'.borrowRecords = v.borrowRecords ∧
    v'.refreshTokens = v.refreshTokens

theorem HandedOn.refl {svc : ReservationService} {env : Env} {v : DB} :
    HandedOn svc env (fun _ => False) (fun _ => 0) v v := by
  constructor <;> simp

section

variable {svc : ReservationService} {env : Env} {gone : Reservation → Prop} {k : UUID → Nat}
  {v v' : DB} {r q : Reservation} {b : Book} {n : Nat}

/-- A row that does not wait, and is not among those that expire, stays as it is. -/
theorem HandedOn.settled {id : UUID} {x : Reservation} (h : HandedOn svc env gone k v v')
    (hother : ∀ y, gone y → y.id ≠ id) (hx : v.reservations.get id = some x)
    (hxs : x.status ≠ .pending) : v'.reservations.get id = some x := by
  rw [h.kept id hother ?_, hx]
  intro y hy hys
  rw [hx] at hy
  cases hy
  exact absurd hys hxs

/-- One hold has expired before the others. -/
theorem HandedOn.cons_expired (h : HandedOn svc env gone k v v') (hgone : ∀ x, gone x → x.id ≠ r.id)
    (hr : v.reservations.get r.id = some { r with status := .expired, expiresAt := none }) :
    ∀ x, x = r ∨ gone x →
    v'.reservations.get x.id = some { x with status := .expired, expiresAt := none } := by
  rintro x (rfl | hx)
  · exact h.settled hgone hr (by simp)
  · exact h.expired x hx

/-- The hold of `r` has expired, and its copy is held for `q`. -/
def passedTo (svc : ReservationService) (env : Env) (n : Nat) (r q : Reservation) (v : DB) : DB :=
  ((v.put (.reservation r.id) (.reservation { r with status := .expired, expiresAt := none })).put
    (.reservation q.id)
    (.reservation { q with
      status := .hold
      expiresAt := some (toDatetime (env.clock n + svc.holdDurationHours * hour)) })).record
    (.promoted q.id r.bookId q.reservedAt)

/-- The hold of `r` has expired, and its copy is back on the shelf. -/
def shelved (r : Reservation) (b : Book) (v : DB) : DB :=
  ((v.put (.reservation r.id) (.reservation { r with status := .expired, expiresAt := none })).put
    (.book r.bookId)
    (.book { b with availableCopies := b.availableCopies + 1 })).record (.restored r.bookId)

theorem get_passedTo (svc : ReservationService) (env : Env) (n : Nat) (r q : Reservation)
    (v : DB) (x : UUID) :
    (passedTo svc env n r q v).reservations.get x =
    if x = q.id then
      some { q with
        status := .hold
        expiresAt := some (toDatetime (env.clock n + svc.holdDurationHours * hour)) }
    else if x = r.id then some { r with status := .expired, expiresAt := none }
    else v.reservations.get x := by
  change (DB.put _ _ (DB.put _ _ v)).reservations.get x = _
  rw [get_putReservation, get_putReservation]

theorem get_shelved (r : Reservation) (b : Book) (v : DB) (x : UUID) :
    (shelved r b v).reservations.get x =
      if x = r.id then some { r with status := .expired, expiresAt := none }
    else v.reservations.get x :=
  get_putReservation v r.id x _

theorem ids_differ (hr : v.reservations.get r.id = some r) (hrs : r.status = .hold)
    (hq : v.reservations.get q.id = some q) (hqs : q.status = .pending) : q.id ≠ r.id := by
  intro he
  rw [he, hr] at hq
  cases hq
  rw [hrs] at hqs
  cases hqs

/-- Nobody is ahead of who has waited longest. -/
theorem rank_first
    (hfirst : ∀ x ∈ v.reservations.rows, x.status = .pending → x.bookId = q.bookId → x ≠ q →
      q.reservedAt < x.reservedAt) : rank v q = 0 := by
  refine Table.count_eq_zero.mpr fun x hx hahead => ?_
  obtain ⟨hs, hb, hlt⟩ := isAhead_iff.mp hahead
  have hne : x ≠ q := by
    rintro rfl
    exact lt_irrefl _ hlt
  exact lt_asymm hlt (hfirst x hx hs hb hne)

section

variable (hr : v.reservations.get r.id = some r) (hrs : r.status = .hold)
  (hq : v.reservations.get q.id = some q) (hqs : q.status = .pending)

include hr hrs hq hqs

theorem rank_passedTo (svc : ReservationService) (env : Env) (n : Nat) (x : Reservation) :
    (rank (passedTo svc env n r q v) x : Int) =
      rank v x - if q.bookId = x.bookId ∧ q.reservedAt < x.reservedAt then 1 else 0 := by
  have hne := ids_differ hr hrs hq hqs
  have hq' : (v.put (.reservation r.id)
      (.reservation { r with status := .expired, expiresAt := none })).reservations.get q.id =
      some q := by rw [get_putReservation, if_neg hne, hq]
  change (rank (DB.put _ _ (DB.put _ _ v)) x : Int) = _
  rw [rank_leave hq' hqs (by simp), rank_put hr (by simp [hrs]) (by simp)]

theorem waiters_passedTo (svc : ReservationService) (env : Env) (n : Nat) (bookId : UUID) :
    (waiters (passedTo svc env n r q v) bookId : Int) =
      waiters v bookId - if q.bookId = bookId then 1 else 0 := by
  have hne := ids_differ hr hrs hq hqs
  have hq' : (v.put (.reservation r.id)
      (.reservation { r with status := .expired, expiresAt := none })).reservations.get q.id =
      some q := by rw [get_putReservation, if_neg hne, hq]
  change (waiters (DB.put _ _ (DB.put _ _ v)) bookId : Int) = _
  rw [waiters_leave hq' hqs (by simp), waiters_put hr (by simp [hrs]) (by simp)]

omit hqs in
/-- Those who wait for another book, or for this one after `q`, wait on. -/
theorem get_passedTo_pending (svc : ReservationService) (env : Env) (n : Nat) {x : Reservation}
    (hx : v.reservations.get x.id = some x) (hxs : x.status = .pending) (hxq : x ≠ q) :
    (passedTo svc env n r q v).reservations.get x.id = some x := by
  have hxq' : x.id ≠ q.id := fun he =>
    hxq (Option.some.inj (hx.symm.trans ((congrArg v.reservations.get he).trans hq)))
  rw [get_passedTo, if_neg hxq', if_neg (ids_differ hr hrs hx hxs), hx]

section

variable (hbook : q.bookId = r.bookId)
  (hfirst : ∀ x ∈ v.reservations.rows, x.status = .pending → x.bookId = r.bookId → x ≠ q →
    q.reservedAt < x.reservedAt)
  (hgone : ∀ x, gone x → v.reservations.get x.id = some x ∧ x.status = .hold ∧ x.id ≠ r.id)
  (h : HandedOn svc env gone k (passedTo svc env n r q v) v')

include hbook hfirst hgone h

theorem HandedOn.promoted_passedTo {x : Reservation} (hx : x ∈ v.reservations.rows)
    (hxs : x.status = .pending)
    (hlt : rank v x < k x.bookId + if r.bookId = x.bookId then 1 else 0) :
    ∃ n, v'.reservations.get x.id =
      some { x with
        status := .hold
        expiresAt := some (toDatetime (env.clock n + svc.holdDurationHours * hour)) } := by
  have hxget : v.reservations.get x.id = some x := Table.get_of_mem hx
  by_cases hxq : x = q
  · subst hxq
    have hheld := get_passedTo svc env n r x v x.id
    rw [if_pos rfl] at hheld
    exact ⟨n, h.settled (fun y hy =>
      ids_differ (hgone y hy).1 (hgone y hy).2.1 hxget hxs |>.symm) hheld (by simp)⟩
  · have hsame := get_passedTo_pending hr hrs hq svc env n hxget hxs hxq
    refine h.promoted x (Table.mem_of_get hsame) hxs ?_
    have hrank := rank_passedTo hr hrs hq hqs svc env n x
    by_cases hb : r.bookId = x.bookId
    · have hahead := hfirst x hx hxs hb.symm hxq
      rw [if_pos ⟨hbook.trans hb, hahead⟩] at hrank
      rw [if_pos hb] at hlt
      omega
    · rw [if_neg (fun hc => hb (hbook.symm.trans hc.1))] at hrank
      rw [if_neg hb] at hlt
      omega

omit hgone in
theorem HandedOn.kept_passedTo {x : UUID} (hx : ∀ y, y = r ∨ gone y → y.id ≠ x)
    (hwait : ∀ y, v.reservations.get x = some y → y.status = .pending →
      (k y.bookId + if r.bookId = y.bookId then 1 else 0) ≤ rank v y) :
    v'.reservations.get x = v.reservations.get x := by
  have hxr : x ≠ r.id := Ne.symm (hx r (.inl rfl))
  have hxq : x ≠ q.id := by
    rintro rfl
    have hle := hwait q hq hqs
    rw [if_pos hbook.symm, rank_first (hbook ▸ hfirst)] at hle
    omega
  have hsame := get_passedTo svc env n r q v x
  rw [if_neg hxq, if_neg hxr] at hsame
  rw [h.kept x (fun y hy => hx y (.inr hy)) ?_, hsame]
  intro y hy hys
  have hle := hwait y (hsame ▸ hy) hys
  have hrank := rank_passedTo hr hrs hq hqs svc env n y
  split at hrank
  · rename_i hahead
    rw [if_pos (hbook.symm.trans hahead.1)] at hle
    omega
  · split at hle <;> omega

theorem HandedOn.cons_passedTo :
    HandedOn svc env (fun x => x = r ∨ gone x)
    (fun id => k id + if r.bookId = id then 1 else 0) v v' := by
  have hexpired := get_passedTo svc env n r q v r.id
  rw [if_neg (Ne.symm (ids_differ hr hrs hq hqs)), if_pos rfl] at hexpired
  have hwaiters : ∀ id, (waiters (passedTo svc env n r q v) id : Int) =
      waiters v id - if r.bookId = id then 1 else 0 := by
    intro id
    rw [waiters_passedTo hr hrs hq hqs svc env n, hbook]
  refine ⟨h.cons_expired (fun x hx => (hgone x hx).2.2) hexpired,
    fun x hx hxs hlt => h.promoted_passedTo hr hrs hq hqs hbook hfirst hgone hx hxs hlt,
    fun x hx hwait => h.kept_passedTo hr hrs hq hqs hbook hfirst hx hwait, fun bookId => ?_,
      fun id b hb => ?_, h.unknown, h.others⟩
  · have hw := hwaiters bookId
    rw [h.waiting]
    split at hw
    · rename_i he
      rw [if_pos he]
      omega
    · rename_i he
      rw [if_neg he]
      omega
  · have hw := hwaiters id
    have hcopies : k id - waiters (passedTo svc env n r q v) id =
        (k id + if r.bookId = id then 1 else 0) - waiters v id := by
      split at hw
      · rename_i he
        rw [if_pos he]
        omega
      · rename_i he
        rw [if_neg he]
        omega
    rw [h.shelf id b hb, hcopies]

end

end

theorem HandedOn.cons_shelved (hr : v.reservations.get r.id = some r) (hrs : r.status = .hold)
    (hb : v.books.get r.bookId = some b)
    (hnone : ∀ x ∈ v.reservations.rows, ¬isPendingOf r.bookId x)
    (hgone : ∀ x, gone x → v.reservations.get x.id = some x ∧ x.status = .hold ∧ x.id ≠ r.id)
    (h : HandedOn svc env gone k (shelved r b v) v') :
    HandedOn svc env (fun x => x = r ∨ gone x)
    (fun id => k id + if r.bookId = id then 1 else 0) v v' := by
  have hget := get_shelved r b v
  have hrank : ∀ x, rank (shelved r b v) x = rank v x := rank_put hr (by simp [hrs]) (by simp)
  have hwaiters : ∀ bookId, waiters (shelved r b v) bookId = waiters v bookId :=
    waiters_put hr (by simp [hrs]) (by simp)
  have hzero : waiters v r.bookId = 0 := Table.count_eq_zero.mpr hnone
  have hbooks : ∀ id, (shelved r b v).books.get id =
      if id = r.bookId then some { b with availableCopies := b.availableCopies + 1 }
          else v.books.get id := by
    intro id
    have hid : b.id = r.bookId := Table.key_of_get hb
    change (DB.put _ _ (DB.put _ _ v)).books.get id = _
    rw [get_putBook, ← hid]
    rfl
  have hexpired := hget r.id
  rw [if_pos rfl] at hexpired
  refine ⟨h.cons_expired (fun x hx => (hgone x hx).2.2) hexpired, ?_, ?_, ?_, ?_, ?_, h.others⟩
  · intro x hx hxs hlt
    have hxget : v.reservations.get x.id = some x := Table.get_of_mem hx
    have hsame := hget x.id
    rw [if_neg (ids_differ hr hrs hxget hxs), hxget] at hsame
    have hother : r.bookId ≠ x.bookId := fun he => hnone x hx (isPendingOf_iff.mpr ⟨he.symm, hxs⟩)
    refine h.promoted x (Table.mem_of_get hsame) hxs ?_
    rw [hrank]
    rw [if_neg hother] at hlt
    exact hlt
  · intro x hx hwait
    have hsame := hget x
    rw [if_neg (Ne.symm (hx r (.inl rfl)))] at hsame
    rw [h.kept x (fun y hy => hx y (.inr hy)) ?_, hsame]
    intro y hy hys
    rw [hrank]
    exact (Nat.le_add_right _ _).trans (hwait y (hsame ▸ hy) hys)
  · intro bookId
    rw [h.waiting, hwaiters]
    split
    · rename_i he
      rw [← he, hzero]
      omega
    · rfl
  · intro id b' hb'
    have hid := hbooks id
    split at hid
    · rename_i he
      subst he
      obtain rfl : b = b' := Option.some.inj (hb.symm.trans hb')
      have hcopies : b.availableCopies + 1 + ((k r.bookId - 0 : Nat) : Int) =
          b.availableCopies + ((k r.bookId + 1 - 0 : Nat) : Int) := by omega
      rw [h.shelf _ _ hid, hwaiters, hzero, if_pos rfl]
      simp only [hcopies]
    · rename_i hne
      rw [h.shelf _ _ (hid.trans hb'), hwaiters, if_neg (Ne.symm hne)]
      rfl
  · intro id hid
    have hid' := hbooks id
    rw [if_neg (fun he => by rw [he, hb] at hid; cases hid)] at hid'
    exact h.unknown id (hid'.trans hid)

/-! ## The loop -/

/-- What a step of the loop takes for granted of the holds still to be done. -/
structure ToExpire (rest : List Reservation) (v : DB) : Prop where
  rows : ∀ r ∈ rest, v.reservations.get r.id = some r ∧ r.status = .hold
  books : ∀ r ∈ rest, ∃ b, v.books.get r.bookId = some b ∧ b.isDeleted = false
  balanced : Balanced v (fun _ => 0)
  copies : CopiesChecked v
  turns : InTurn v

theorem alone_saw_self (v : DB) : (alone v : Discipline DB RowKey).Saw v v v :=
  ⟨.init, v, ⟨rfl, trivial⟩, rfl, rfl⟩

/-- Somebody waits: the copy in hand is held for whoever waits longest. -/
theorem exec_promoteNextReservation_waiting (svc : ReservationService)
    (order : RowOrder Reservation) (now : Int) {bookId : UUID}
    (base : DB) {q : Reservation} (hq : oldestPending order bookId v = some q) :
    (svc.promoteNextReservation order now bookId).exec base v =
      (.ok (), base, (v.put (.reservation q.id) (.reservation
      { q with
        status := .hold
        expiresAt := some (toDatetime (now + svc.holdDurationHours * hour)) })).record
      (.promoted q.id bookId q.reservedAt)) := by
  have hget : v.reservations.get q.id = some q := Table.get_of_mem (oldestPending_mem hq).1
  refine Prog.exec_bind_ok (a := some q) ?_ (Prog.exec_bind_ok (exec_updateReservation hget) rfl)
  rw [← hq]
  rfl

/-- The copy in hand finds its place: nothing that the promotion asks of the tables can fail. -/
theorem exec_promoteNextReservation (svc : ReservationService) (order : RowOrder Reservation)
    (now : Int) {bookId : UUID} (base : DB)
    (hbal : Balanced v (inHand bookId)) (hcopies : CopiesChecked v)
    (hb : v.books.get bookId = some b)
    (hdel : b.isDeleted = false) :
    (∃ q, oldestPending order bookId v = some q ∧
      (svc.promoteNextReservation order now bookId).exec base v =
      (.ok (), base, (v.put (.reservation q.id) (.reservation
        { q with
          status := .hold
          expiresAt := some (toDatetime (now + svc.holdDurationHours * hour)) })).record
        (.promoted q.id bookId q.reservedAt))) ∨
    oldestPending order bookId v = none ∧
    checkCopies b.totalCopies (b.availableCopies + 1) = .ok () ∧
      (svc.promoteNextReservation order now bookId).exec base v = (.ok (), base,
        (v.put (.book bookId) (.book { b with availableCopies := b.availableCopies + 1 })).record
        (.restored bookId)) := by
  cases hq : oldestPending order bookId v with
  | some q => exact .inl ⟨q, rfl, exec_promoteNextReservation_waiting svc order now base hq⟩
  | none =>
    have hbalance := hbal.balance bookId b hb hdel
    have hc := checkCopies_iff.mp (hcopies bookId b hb)
    have hloans : 0 ≤ v.loans bookId := Int.natCast_nonneg _
    have hholds : 0 ≤ v.holds bookId := Int.natCast_nonneg _
    rw [inHand_self] at hbalance
    have hcheck : checkCopies b.totalCopies (b.availableCopies + 1) = .ok () :=
      checkCopies_iff.mpr (by omega)
    have hbook : v.activeBook bookId = some b := activeBook_eq_some.mpr ⟨hb, hdel⟩
    refine .inr ⟨rfl, hcheck, Prog.exec_bind_ok
      (a := none) (by rw [← hq]; rfl) (Prog.exec_bind_ok (a := some b) (by rw [← hbook]; rfl) ?_)⟩
    exact Prog.exec_bind_ok (exec_setAvailable hb hcheck) rfl

/-- Whatever becomes of the copy in hand: the promotion goes through, also of a deleted book. -/
theorem exec_promote_handed (svc : ReservationService) (order : RowOrder Reservation)
    (now : Int) {bookId : UUID} (base : DB) (hbal : Balanced v (inHand bookId))
    (hcopies : CopiesChecked v) (hbook : v.books.get bookId ≠ none) :
    ∃ v', (svc.promoteNextReservation order now bookId).exec base v = (.ok (), base, v') ∧
    Handed (alone v) v (oldestPending order bookId) (now + svc.holdDurationHours * hour)
      bookId v v' := by
  obtain ⟨b, hb⟩ := Option.ne_none_iff_exists'.mp hbook
  cases hdel : b.isDeleted with
  | false =>
    rcases exec_promoteNextReservation svc order now base hbal hcopies hb hdel with
      ⟨q, hq, he⟩ | ⟨hq, hc, he⟩
    · have hget : v.reservations.get q.id = some q := Table.get_of_mem (oldestPending_mem hq).1
      exact ⟨_, he, .promoted (alone_saw_self v) hq hget⟩
    · exact ⟨_, he, .restored (alone_saw_self v) hq hb hdel hc⟩
  | true =>
    cases hq : oldestPending order bookId v with
    | some q =>
      have hget : v.reservations.get q.id = some q := Table.get_of_mem (oldestPending_mem hq).1
      exact ⟨_, exec_promoteNextReservation_waiting svc order now base hq,
        .promoted (alone_saw_self v) hq hget⟩
    | none =>
      have hgone : v.activeBook bookId = none := by simp [DB.activeBook, hb, hdel]
      refine ⟨v, Prog.exec_bind_ok (a := none) (by rw [← hq]; rfl) ?_,
        .gone (alone_saw_self v) hq (alone_saw_self v) hgone⟩
      exact Prog.exec_bind_ok (a := none) (by rw [← hgone]; rfl) rfl

theorem InTurn.sub {v v' : DB} (h : InTurn v)
    (hsub : ∀ x ∈ v'.reservations.rows, x.status = .pending → x ∈ v.reservations.rows) :
    InTurn v' :=
  fun q hq q' hq' hs hs' hb ht => h q (hsub q hq hs) q' (hsub q' hq' hs') hs hs' hb ht

/-- The first hold has expired: its copy comes in hand. -/
theorem ToExpire.freed {rest : List Reservation} (h : ToExpire (r :: rest) v) :
    Balanced (v.put (.reservation r.id)
      (.reservation { r with status := .expired, expiresAt := none })) (inHand r.bookId) := by
  obtain ⟨hr, hrs⟩ := h.rows r List.mem_cons_self
  exact h.balanced.release hr hrs rfl (by simp)

section

variable {rest : List Reservation} (h : ToExpire (r :: rest) v)
  (hids : r.id ∉ rest.map Reservation.id)

include h hids

theorem ToExpire.after_passedTo (svc : ReservationService) (env : Env) (n : Nat)
    (hq : v.reservations.get q.id = some q) (hqs : q.status = .pending)
    (hbook : q.bookId = r.bookId) : ToExpire rest (passedTo svc env n r q v) := by
  obtain ⟨hr, hrs⟩ := h.rows r List.mem_cons_self
  have hne := ids_differ hr hrs hq hqs
  have hhanded : Handed (alone (v.put
      (.reservation r.id) (.reservation { r with status := .expired, expiresAt := none }))) _
      (fun _ => some q) (env.clock n + svc.holdDurationHours * hour) r.bookId _
        (passedTo svc env n r q v) :=
    .promoted (alone_saw_self _) rfl (by rw [get_putReservation, if_neg hne, hq])
  have hget := get_passedTo svc env n r q v
  refine ⟨fun x hx => ?_, fun x hx => h.books x (List.mem_cons_of_mem _ hx), ?_, ?_,
    h.turns.sub fun x hx hxs => ?_⟩
  · obtain ⟨hxget, hxs⟩ := h.rows x (List.mem_cons_of_mem _ hx)
    have hxr : x.id ≠ r.id := fun he => hids (List.mem_map.mpr ⟨x, hx, he⟩)
    refine ⟨?_, hxs⟩
    rw [hget, if_neg (Ne.symm (ids_differ hxget hxs hq hqs)), if_neg hxr, hxget]
  · refine h.freed.handed hhanded fun _ x hx => ?_
    cases hx
    exact isPendingOf_iff.mpr ⟨hbook, hqs⟩
  · exact (h.copies.frame (by rfl)).handed hhanded
  · have hxget := (Table.get_of_mem hx).symm.trans (hget x.id)
    split at hxget
    · cases hxget
      cases hxs
    · split at hxget
      · cases hxget
        cases hxs
      · exact Table.mem_of_get hxget.symm

theorem ToExpire.after_shelved (hb : v.books.get r.bookId = some b) (hdel : b.isDeleted = false)
    (hc : checkCopies b.totalCopies (b.availableCopies + 1) = .ok ()) :
    ToExpire rest (shelved r b v) := by
  obtain ⟨hr, hrs⟩ := h.rows r List.mem_cons_self
  have hhanded : Handed (alone (v.put
      (.reservation r.id) (.reservation { r with status := .expired, expiresAt := none }))) _
      (fun _ => none) 0 r.bookId _ (shelved r b v) :=
    .restored (alone_saw_self _) rfl hb hdel hc
  have hget := get_shelved r b v
  refine ⟨fun x hx => ?_, fun x hx => ?_, ?_, ?_, h.turns.sub fun x hx hxs => ?_⟩
  · obtain ⟨hxget, hxs⟩ := h.rows x (List.mem_cons_of_mem _ hx)
    have hxr : x.id ≠ r.id := fun he => hids (List.mem_map.mpr ⟨x, hx, he⟩)
    refine ⟨?_, hxs⟩
    rw [hget, if_neg hxr, hxget]
  · obtain ⟨b', hb', hdel'⟩ := h.books x (List.mem_cons_of_mem _ hx)
    change ∃ b', (DB.put _ _ (DB.put _ _ v)).books.get x.bookId = some b' ∧ _
    rw [get_putBook]
    split
    · exact ⟨_, rfl, hdel⟩
    · exact ⟨b', hb', hdel'⟩
  · exact h.freed.handed hhanded fun _ x hx => by cases hx
  · exact (h.copies.frame (by rfl)).handed hhanded
  · have hxget := (Table.get_of_mem hx).symm.trans (hget x.id)
    split at hxget
    · cases hxget
      cases hxs
    · exact Table.mem_of_get hxget.symm

end

/-- The loop takes the holds as they come; what it leaves depends only on how many each book has. -/
theorem exec_expireHolds (svc : ReservationService) (env : Env) {rest : List Reservation} (n : Nat)
    (base : DB) (h : ToExpire rest v) (hids : (rest.map Reservation.id).Nodup) :
    ∃ v', (svc.expireHolds env rest n).exec base v = (.ok (n + rest.length), base, v') ∧
    HandedOn svc env (· ∈ rest) (fun id => rest.countP (·.bookId = id)) v v' := by
  induction rest generalizing v n with
  | nil =>
    refine ⟨v, rfl, ?_⟩
    have hsame : HandedOn svc env (fun _ => False) (fun _ => 0) v v := .refl
    simpa using hsame
  | cons r rest ih =>
    obtain ⟨hnew, hrest⟩ := List.nodup_cons.mp hids
    obtain ⟨hr, hrs⟩ := h.rows r List.mem_cons_self
    obtain ⟨b, hb, hdel⟩ := h.books r List.mem_cons_self
    have hgone : ∀ x ∈ rest, v.reservations.get x.id = some x ∧ x.status = .hold ∧ x.id ≠ r.id := by
      intro x hx
      obtain ⟨hxget, hxs⟩ := h.rows x (List.mem_cons_of_mem _ hx)
      exact ⟨hxget, hxs, fun he => hnew (List.mem_map.mpr ⟨x, hx, he⟩)⟩
    have hcount : n + 1 + rest.length = n + (r :: rest).length := by
      rw [List.length_cons]
      omega
    have hpending : ∀ {x : Reservation}, x.status = .pending → (x ∈ (v.put (.reservation r.id)
        (.reservation { r with status := .expired, expiresAt := none })).reservations.rows ↔
          x ∈ v.reservations.rows) :=
      fun hx => pending_put hr (by simp [hrs]) (by simp) hx
    rcases exec_promoteNextReservation svc env.reservationOrder (env.clock (n + 1)) base
      h.freed (h.copies.frame (by rfl)) hb hdel with ⟨q, hq, hexec⟩ | ⟨hq, hc, hexec⟩
    · obtain ⟨hmem, hwaits⟩ := oldestPending_mem hq
      obtain ⟨hbook, hqs⟩ := isPendingOf_iff.mp hwaits
      have hqmem := (hpending hqs).mp hmem
      have hqget : v.reservations.get q.id = some q := Table.get_of_mem hqmem
      obtain ⟨v', hloop, hhanded⟩ :=
        ih (n + 1) (h.after_passedTo hnew svc env (n + 1) hqget hqs hbook) hrest
      refine ⟨v', ?_, ?_⟩
      · rw [hcount] at hloop
        exact Prog.exec_bind_ok (exec_updateReservation hr) (Prog.exec_bind_ok hexec hloop)
      · have hfirst : ∀ x ∈ v.reservations.rows, x.status = .pending → x.bookId = r.bookId → x ≠ q →
          q.reservedAt < x.reservedAt := by
          intro x hx hxs hxb hne
          have hle := oldestPending_le hq ((hpending hxs).mpr hx) (isPendingOf_iff.mpr ⟨hxb, hxs⟩)
          refine lt_of_le_of_ne hle fun he => hne ?_
          exact h.turns x hx q hqmem hxs hqs (hxb.trans hbook.symm) he.symm
        have hall := HandedOn.cons_passedTo hr hrs hqget hqs hbook hfirst hgone hhanded
        simpa [List.countP_cons] using hall
    · have hnone : ∀ x ∈ v.reservations.rows, ¬isPendingOf r.bookId x := fun x hx hp =>
        oldestPending_none hq x ((hpending (isPendingOf_iff.mp hp).2).mpr hx) hp
      obtain ⟨v', hloop, hhanded⟩ := ih (n + 1) (h.after_shelved hnew hb hdel hc) hrest
      refine ⟨v', ?_, ?_⟩
      · rw [hcount] at hloop
        exact Prog.exec_bind_ok (exec_updateReservation hr) (Prog.exec_bind_ok hexec hloop)
      · have hall := HandedOn.cons_shelved hr hrs hb hnone hgone hhanded
        simpa [List.countP_cons] using hall

end

/-! ## The sweep -/

section

variable {svc : ReservationService} {env : Env} {s : DB}

/-- How many holds of the book have expired at `now`. -/
def expiredOf (now : Int) (db : DB) (bookId : UUID) : Nat :=
  db.reservations.count (fun r => isExpiredHold now r && r.bookId = bookId)

theorem countP_expiredHolds (env : Env) (s : DB) (bookId : UUID) :
    (expiredHolds env s).countP (·.bookId = bookId) = expiredOf (env.clock 0) s bookId := by
  have hperm := env.reservationOrder.perm (s.reservations.rows.filter (isExpiredHold (env.clock 0)))
  rw [expiredHolds, hperm.countP_eq, List.countP_filter]
  simp only [expiredOf, Table.count, Bool.and_comm]

theorem length_expiredHolds (env : Env) (s : DB) :
    (expiredHolds env s).length = s.reservations.count (isExpiredHold (env.clock 0)) := by
  have hperm := env.reservationOrder.perm (s.reservations.rows.filter (isExpiredHold (env.clock 0)))
  rw [expiredHolds, hperm.length_eq, Table.count, List.countP_eq_length_filter]

/-- A hold given now has not expired now, unless its time is rounded down to before now. -/
theorem now_le_expiry {now t : Int} (ht : now ≤ t) (hh : 0 ≤ svc.holdDurationHours)
    (hround : 1 ≤ svc.holdDurationHours ∨ now ≤ toDatetime now) :
    now ≤ toDatetime (t + svc.holdDurationHours * hour) := by
  have hhour : hour = 3600 * second := rfl
  rcases hround with hlong | hround
  · simp only [hhour, toDatetime, second]
    omega
  · refine hround.trans (toDatetime_mono ?_)
    simp only [hhour, second]
    omega

theorem no_expired_left {s' : DB}
    (h : HandedOn svc env (fun r => r ∈ s.reservations.rows ∧
      isExpiredHold (env.clock 0) r) (expiredOf (env.clock 0) s) s s')
    (hclock : ∀ n, env.clock 0 ≤ env.clock n) (hh : 0 ≤ svc.holdDurationHours)
    (hround : 1 ≤ svc.holdDurationHours ∨ env.clock 0 ≤ toDatetime (env.clock 0)) :
    ∀ r ∈ s'.reservations.rows, ¬isExpiredHold (env.clock 0) r := by
  intro r hr hexp
  have hget : s'.reservations.get r.id = some r := Table.get_of_mem hr
  by_cases hgone : ∃ x, (x ∈ s.reservations.rows ∧ isExpiredHold (env.clock 0) x) ∧ x.id = r.id
  · obtain ⟨x, hx, hid⟩ := hgone
    have hx' := hget.symm.trans ((congrArg s'.reservations.get hid).symm.trans (h.expired x hx))
    cases hx'
    simp [isExpiredHold] at hexp
  by_cases hpromoted : ∃ q, s.reservations.get r.id = some q ∧ q.status = .pending ∧
    rank s q < expiredOf (env.clock 0) s q.bookId
  · obtain ⟨q, hq, hqs, hrank⟩ := hpromoted
    have hid : q.id = r.id := Table.key_of_get hq
    obtain ⟨n, hn⟩ := h.promoted q (Table.mem_of_get hq) hqs hrank
    have hn' := hget.symm.trans ((congrArg s'.reservations.get hid).symm.trans hn)
    cases hn'
    have hlate := now_le_expiry (hclock n) hh hround
    simp only [isExpiredHold, Option.elim_some, Bool.and_eq_true, decide_eq_true_eq] at hexp
    omega
  · have hkept := h.kept r.id (fun x hx hid => hgone ⟨x, hx, hid⟩)
      (fun q hq hqs => Nat.le_of_not_lt fun hrank => hpromoted ⟨q, hq, hqs, hrank⟩)
    exact hgone ⟨r, ⟨Table.mem_of_get (hkept.symm.trans hget), hexp⟩, rfl⟩

theorem call_sweep_none (h : ∀ r ∈ s.reservations.rows, ¬isExpiredHold (env.clock 0) r) :
    call (Op.run svc env .processExpiredHolds) s = (.ok (.swept 0), s) := by
  have hnone : expiredHolds env s = [] := List.eq_nil_iff_forall_not_mem.mpr fun r hr => by
    obtain ⟨hmem, hs, e, he, hlt⟩ := mem_expiredHolds.mp hr
    exact h r hmem (by simp [isExpiredHold, hs, he, hlt])
  have hread : (ReservationRepository.getExpiredHolds env.reservationOrder (env.clock 0)).exec s s =
      (.ok [], s, s) := by
    rw [← hnone]
    rfl
  exact call_ok (Prog.exec_bind_ok (Prog.exec_bind_ok hread rfl) rfl)

/-- What a sweep does, and that a second one at the same time finds nothing left to do. -/
theorem sweep_exact (h : Runs svc AnyOp s)
    (hbooks : ∀ r ∈ s.reservations.rows, isExpiredHold (env.clock 0) r →
      ∀ b, s.books.get r.bookId = some b → b.isDeleted = false)
    (hturns : InTurn s) (hclock : ∀ n, env.clock 0 ≤ env.clock n) (hh : 0 ≤ svc.holdDurationHours) :
    ∃ s', call (Op.run svc env .processExpiredHolds) s =
      (.ok (.swept (s.reservations.count (isExpiredHold (env.clock 0)))), s') ∧
    HandedOn svc env (fun r => r ∈ s.reservations.rows ∧ isExpiredHold (env.clock 0) r)
    (expiredOf (env.clock 0) s) s s' ∧
    (1 ≤ svc.holdDurationHours ∨ env.clock 0 ≤ toDatetime (env.clock 0) →
      (∀ r ∈ s'.reservations.rows, ¬isExpiredHold (env.clock 0) r) ∧
    ∀ env' : Env, env'.clock 0 = env.clock 0 → call (Op.run svc env' .processExpiredHolds) s' =
      (.ok (.swept 0), s')) := by
  have hbalanced := Balanced.of_runs h
  have hmem : ∀ r, r ∈ expiredHolds env s ↔ r ∈ s.reservations.rows ∧
      isExpiredHold (env.clock 0) r := by
    intro r
    have hperm := (env.reservationOrder.perm
      (s.reservations.rows.filter (isExpiredHold (env.clock 0)))).mem_iff (a := r)
    rw [expiredHolds, hperm, List.mem_filter]
  have hexpire : ToExpire (expiredHolds env s) s := by
    refine ⟨fun r hr => ?_, fun r hr => ?_, hbalanced, .of_runs h, hturns⟩
    · obtain ⟨hrow, hs, _⟩ := mem_expiredHolds.mp hr
      exact ⟨Table.get_of_mem hrow, hs⟩
    · obtain ⟨hrow, hexp⟩ := (hmem r).mp hr
      obtain ⟨b, hb⟩ := Option.ne_none_iff_exists'.mp (hbalanced.reservationBooks r hrow)
      exact ⟨b, hb, hbooks r hrow hexp b hb⟩
  obtain ⟨s', hloop, hhanded⟩ := exec_expireHolds svc env 0 s hexpire (expiredHolds_nodup env s)
  rw [length_expiredHolds, Nat.zero_add] at hloop
  simp only [countP_expiredHolds, hmem] at hhanded
  have hnone := fun hround => no_expired_left hhanded hclock hh hround
  refine ⟨s', call_ok (Prog.exec_bind_ok (Prog.exec_bind_ok rfl hloop) rfl), hhanded, fun hround =>
    ⟨hnone hround, ?_⟩⟩
  intro env' hnow
  exact call_sweep_none (hnow ▸ hnone hround)

end

/-- One copy: lent to 10, returned and held for 11, while 12 waits. -/
def demoAwaited (svc : ReservationService) : DB :=
  serial svc [(demoEnv 1 0, .createBook "Emma" "Austen" "9780141439587" 1 none),
    (demoEnv 100 hour, .borrowBook 10 1),
    (demoEnv 200 (2 * hour), .placeReservation 11 1),
    (demoEnv 201 (3 * hour), .placeReservation 12 1),
    (demoEnv 0 (4 * hour), .returnBook 100)] demoStart

theorem demoAwaited_runs (svc : ReservationService) : Runs svc AnyOp (demoAwaited svc) :=
  demoStart_runs.serial _ fun _ _ _ => trivial

theorem sweep_exact_demo :
    ∃ s', call (Op.run ⟨48⟩ (demoEnv 0 (60 * hour)) .processExpiredHolds)
    (demoAwaited ⟨48⟩) = (.ok (.swept 1), s') ∧
    s'.reservations.get 201 = some ⟨201, 12, 1, 3 * hour, some (108 * hour), .hold⟩ ∧
    call (Op.run ⟨48⟩ (demoEnv 0 (60 * hour)) .processExpiredHolds) s' = (.ok (.swept 0), s') := by
  have hwaits : (⟨201, 12, 1, 3 * hour, none, .pending⟩ : Reservation) ∈
    (demoAwaited ⟨48⟩).reservations.rows := by decide
  have hbooks : ∀ r ∈ (demoAwaited ⟨48⟩).reservations.rows, isExpiredHold (60 * hour) r →
      ∀ b, (demoAwaited ⟨48⟩).books.get r.bookId = some b → b.isDeleted = false := by
    have hall : ∀ r ∈ (demoAwaited ⟨48⟩).reservations.rows,
      ((demoAwaited ⟨48⟩).books.get r.bookId).all (!·.isDeleted) := by decide
    intro r hr _ b hb
    simpa [hb] using hall r hr
  obtain ⟨s', hcall, hhanded, hagain⟩ :=
    @sweep_exact ⟨48⟩ (demoEnv 0 (60 * hour)) _ (demoAwaited_runs ⟨48⟩) hbooks
    (by unfold InTurn; decide) (fun _ => le_rfl) (by decide)
  obtain ⟨n, hpromoted⟩ := hhanded.promoted _ hwaits rfl (by decide)
  exact ⟨s', hcall, hpromoted, (hagain (.inl (by decide))).2 _ rfl⟩

/-- Holds of zero hours: the sweep runs 0.4 s past the hour, and the expiry it gives 12 is rounded
down to the hour. -/
theorem sweep_leaves_expired :
    ¬∀ svc s, Runs svc AnyOp s →
    ∀ env : Env, (∀ r ∈ s.reservations.rows, isExpiredHold (env.clock 0) r →
      ∀ b, s.books.get r.bookId = some b → b.isDeleted = false) → InTurn s →
    (∀ n, env.clock 0 ≤ env.clock n) → 0 ≤ svc.holdDurationHours →
    ∃ s', call (Op.run svc env .processExpiredHolds) s =
      (.ok (.swept (s.reservations.count (isExpiredHold (env.clock 0)))), s') ∧
    ∀ r ∈ s'.reservations.rows, ¬isExpiredHold (env.clock 0) r := by
  intro hclaim
  have hall : ∀ r ∈ (demoAwaited ⟨0⟩).reservations.rows,
    ((demoAwaited ⟨0⟩).books.get r.bookId).all (!·.isDeleted) := by decide
  obtain ⟨s', hcall, hnone⟩ := hclaim ⟨0⟩ (demoAwaited ⟨0⟩) (demoAwaited_runs ⟨0⟩)
    (demoEnv 0 (4 * hour + 400000))
    (fun r hr _ b hb => by simpa [hb] using hall r hr) (by unfold InTurn; decide)
      (fun _ => le_rfl) (by decide)
  have hleft : ∃ r ∈ (call (Op.run ⟨0⟩ (demoEnv 0 (4 * hour + 400000)) .processExpiredHolds)
      (demoAwaited ⟨0⟩)).2.reservations.rows,
      isExpiredHold (4 * hour + 400000) r := by decide
  rw [hcall] at hleft
  obtain ⟨r, hr, hexp⟩ := hleft
  exact hnone r hr hexp

end LibraryPlatform

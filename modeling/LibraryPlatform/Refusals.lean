import LibraryPlatform.ActiveReservations
import LibraryPlatform.BorrowCalls
import LibraryPlatform.ErrorResponses
import LibraryPlatform.Exits
import LibraryPlatform.History
import LibraryPlatform.LoanCalls
import LibraryPlatform.Ownership

/-!
# How the API answers a refusal

The exception handlers know the subclasses of `ApplicationException` and the status of each, and
the `IntegrityError` of the database. Any other exception of a service is answered with 500.
-/
namespace LibraryPlatform

open KeyedTable Transaction ReservationRepository

/-- The call has returned, or has raised an exception of the application. -/
def NoServerError {α : Type} (r : Except Exc α) : Prop := ∀ e, r = .error e → e.IsApplication

variable {α : Type} {svc : ReservationService} {env : Env} {s v base w : DB} {E : Exc → Prop}
  {id memberId bookId : UUID}

@[simp] theorem noServerError_ok (a : α) : NoServerError (.ok a : Except Exc α) := by
  simp [NoServerError]

@[simp] theorem noServerError_error {e : Exc} :
    NoServerError (.error e : Except Exc α) ↔ e.IsApplication := by simp [NoServerError]

@[simp] theorem noServerError_map {β : Type} {r : Except Exc α} {f : α → β} :
    NoServerError (r.map f) ↔ NoServerError r := by simp [NoServerError, except_map_error]

/-- The call has been answered, or with the status of a subclass of `ApplicationException`. -/
theorem noServerError_iff {r : Except Exc α} (errorMsg : DbError → String) :
    NoServerError r ↔ ∀ e, r = .error e → (e.response errorMsg).statusCode < 500 ∧
      (e.response errorMsg).errorCode ≠ "IntegrityError" := by
  refine forall₂_congr fun e _ => ?_
  rw [response_client_iff]
  constructor
  · rintro ⟨c, d, rfl⟩
    exact ⟨.inl ⟨c, d, rfl⟩, c.errorCode_ne⟩
  · rintro ⟨hclient | ⟨d, rfl, hintegrity⟩, hcode⟩
    · exact hclient
    · simp [Exc.response, hintegrity] at hcode

/-! ## The exits of the statements -/

section

variable {Q : α → DB → DB → Prop} {e : Exc}

theorem ends_orRaise {o : Option α} :
    (orRaise o e).Ends E base w Q ↔ (o = none → E e) ∧ ∀ a, o = some a → Q a base w := by
  cases o <;> simp [orRaise]

theorem ends_raiseIf {c : Prop} [Decidable c] {Q : Unit → DB → DB → Prop} :
    (raiseIf c e).Ends E base w Q ↔ (c → E e) ∧ (¬c → Q () base w) := by
  unfold raiseIf
  split <;> simp [*]

theorem ends_query {q : DB → α} : (select q).Ends E base w Q ↔ Q (q w) base w := Iff.rfl

theorem ends_queryForUpdate {keys : DB → List RowKey} {q : DB → α} :
    (selectForUpdate keys q).Ends E base w Q ↔ Q (q w) base w := Iff.rfl

theorem ends_scalarOneOrNone {xs : List α} {Q : Option α → DB → DB → Prop} (h : xs.length ≤ 1) :
    (scalarOneOrNone xs).Ends E base w Q ↔ Q xs.head? base w := by
  match xs with
  | [] => rfl
  | [_] => rfl
  | _ :: _ :: _ => simp at h

theorem ends_refuseBorrowed {rows : List BorrowRecord} {Q : Unit → DB → DB → Prop}
    (hQ : Q () base w) :
    (ReservationService.refuseBorrowed bookId rows).Ends Exc.IsApplication base w Q := by
  induction rows with
  | nil => exact hQ
  | cons r rest ih =>
    refine Prog.ends_bind.mpr (ends_raiseIf.mpr ⟨fun _ => ?_, fun _ => ih⟩)
    exact isApplication_application _ _

end

theorem noServerError_call {p : Tx α} :
    NoServerError (call p s).1 ↔ p.Ends Exc.IsApplication s s fun _ _ _ => True :=
  Prog.ends_call_iff.symm

/-! ## borrow_book, return_book, renew_book -/

theorem Borrows.noServerError_iff {svc : BorrowService} {m : Member} {r : Except Exc BorrowRecord}
    (hm : s.activeMember memberId = some m) (hfresh : s.borrowRecords.get env.newId = none)
    (h : Borrows svc env memberId bookId s r) :
    NoServerError r ↔ (GoodStanding svc env m s → s.activeBook bookId ≠ none →
      (s.reservations.rows.filter (isHoldOf bookId)).length ≤ 1) := by
  cases h with
  | unknownMember hnone => cases hnone.symm.trans hm
  | standing hm' hbad =>
    obtain rfl := Option.some.inj (hm.symm.trans hm')
    simp [hbad]
  | unknownBook hnone => simp [hnone]
  | twoHolds hm' hgood hb hmany =>
    obtain rfl := Option.some.inj (hm.symm.trans hm')
    simp [Exc.IsApplication, hgood, hb]
    omega
  | noCopy _ hone => simp [Nat.le_of_lt_succ hone]
  | usedKey hused => exact absurd hfresh hused
  | lent hmay =>
    obtain ⟨b, hb, hcopy⟩ := hmay.book
    obtain rfl : b.id = bookId := Table.key_of_get (activeBook_eq_some.mp hb).1
    rcases hcopy with ⟨q, hone, _⟩ | ⟨hnone, _⟩
    · simp [hone]
    · simp [hnone]

theorem noServerError_borrow {m : Member} (hcopies : CopiesChecked s)
    (hm : s.activeMember memberId = some m) (hfresh : s.borrowRecords.get env.newId = none) :
    NoServerError (call (Op.run svc env (.borrowBook memberId bookId)) s).1 ↔
      (GoodStanding (getBorrowService svc) env m s → s.activeBook bookId ≠ none →
        (s.reservations.rows.filter (isHoldOf bookId)).length ≤ 1) := by
  rw [Op.run, call_map, noServerError_map]
  exact (call_borrowBook hcopies (getBorrowService svc) env memberId bookId).noServerError_iff hm
    hfresh

/-- A return and a renewal begin by reading the loan. -/
theorem serverError_unknownLoan {next : BorrowRecord → Tx α} (hr : s.borrowRecords.get id = none) :
    ¬NoServerError (call (Prog.mapError operationalToConflict do
      let record ← orRaise (← BorrowRecordRepository.getById id)
        (.valueError "Borrow record not found")
      next record) s).1 := by
  rw [noServerError_call, Prog.ends_mapError]
  simp only [BorrowRecordRepository.getById, Prog.bind_eq, Prog.ends_bind, ends_query]
  intro hends
  exact not_isApplication_valueError _ ((ends_orRaise.mp hends).1 hr)

theorem noServerError_return (h : Sound svc s) :
    NoServerError (call (Op.run svc env (.returnBook id)) s).1 ↔ s.borrowRecords.get id ≠ none := by
  cases hr : s.borrowRecords.get id with
  | none =>
    rw [Op.run, call_map, noServerError_map]
    exact iff_of_false (serverError_unknownLoan hr) (by simp)
  | some r =>
    obtain rfl : r.id = id := Table.key_of_get hr
    by_cases hclosed : r.status = .returned
    · rw [call_return_again hr hclosed]
      simp
    · obtain ⟨s', hcall, _⟩ := call_return h env hr hclosed
      rw [hcall]
      simp

theorem noServerError_renew (h : Sound svc s) :
    NoServerError (call (Op.run svc env (.renewBook id)) s).1 ↔ s.borrowRecords.get id ≠ none := by
  cases hr : s.borrowRecords.get id with
  | none =>
    rw [Op.run, call_map, noServerError_map]
    exact iff_of_false (serverError_unknownLoan hr) (by simp)
  | some r =>
    obtain rfl : r.id = id := Table.key_of_get hr
    by_cases hrenew : Renewable env r
    · obtain ⟨loan, hcall⟩ := call_renew h hr hrenew
      rw [hcall]
      simp
    · obtain ⟨c, hcall⟩ := call_renew_refused hr hrenew
      rw [hcall]
      simp

/-! ## place_reservation, cancel_reservation, process_expired_holds -/

/-- Of a placement only the refusal of a book that is in stock is no exception of the
application. -/
theorem noServerError_place (hone : OnePerBook s) (hfresh : s.reservations.get env.newId = none) :
    NoServerError (call (Op.run svc env (.placeReservation memberId bookId)) s).1 ↔
      ∀ b, s.activeBook bookId = some b → b.availableCopies ≤ 0 := by
  rw [Op.run, call_map, noServerError_map, noServerError_call]
  simp only [ReservationService.placeReservation, BookRepository.getByIdForUpdate,
    getActiveByMemberIdCount, getActiveByMemberAndBook, MemberRepository.getByIdForUpdate,
    BorrowRecordRepository.getHistoryByMemberId, getById, Prog.bind_eq, Prog.ends_bind, ends_query,
    ends_queryForUpdate]
  refine ends_orRaise.trans ⟨fun h b hb => ?_, fun h => ⟨by simp, fun b hb => ?_⟩⟩
  · by_contra hpos
    exact not_isApplication_valueError _ ((ends_raiseIf.mp (h.2 b hb)).1 (not_le.mp hpos))
  refine ends_raiseIf.mpr ⟨fun hpos => absurd (h b hb) (not_le.mpr hpos), fun _ => ?_⟩
  refine ends_raiseIf.mpr ⟨by simp, fun _ => (ends_scalarOneOrNone (hone.findsOne _ _)).mpr ?_⟩
  refine ends_raiseIf.mpr ⟨by simp, fun _ => ends_orRaise.mpr ⟨by simp, fun m hm => ?_⟩⟩
  refine ends_raiseIf.mpr ⟨by simp, fun _ => ends_raiseIf.mpr ⟨by simp, fun _ => ?_⟩⟩
  refine ends_refuseBorrowed ?_
  have hmember := Option.ne_none_iff_exists'.mpr ⟨m, (activeMember_eq_some.mp hm).1⟩
  have hbook := Option.ne_none_iff_exists'.mpr ⟨b, (activeBook_eq_some.mp hb).1⟩
  refine (Prog.ends_of_exec (exec_insertReservation hfresh hmember hbook)).mpr ?_
  refine ends_orRaise.mpr ⟨fun hnone => ?_, fun _ _ => trivial⟩
  have hput := Table.get_put_same s.reservations (placedReservation env memberId bookId)
  cases hnone.symm.trans hput

/-- A copy in hand finds its place, and the reservations that there were are still there. -/
theorem ends_promote (svc : ReservationService) (order : RowOrder Reservation) (now : Int)
    {Q : Unit → DB → DB → Prop} (hbal : Balanced v (inHand bookId)) (hcopies : CopiesChecked v)
    (hbook : v.books.get bookId ≠ none)
    (hQ : ∀ v', Handed (alone v) v (oldestPending order bookId) (now + svc.holdDurationHours * hour)
      bookId v v' → Q () base v') :
    (svc.promoteNextReservation order now bookId).Ends E base v Q := by
  obtain ⟨v', hexec, hhanded⟩ := exec_promote_handed svc order now base hbal hcopies hbook
  exact (Prog.ends_of_exec hexec).mpr (hQ v' hhanded)

theorem Handed.kept {D : Discipline DB RowKey} {next : DB → Option Reservation} {expiresAt : Int}
    {v v' : DB} (h : Handed D s next expiresAt bookId v v') (hid : v.reservations.get id ≠ none) :
    v'.reservations.get id ≠ none := by
  cases h with
  | @promoted _ r =>
    change (DB.put (.reservation r.id) _ v).reservations.get id ≠ none
    rw [get_putReservation]
    split
    · simp
    · exact hid
  | restored => exact hid
  | gone => exact hid

/-- Of a cancellation only the refusal of a reservation that is over is no exception of the
application. -/
theorem noServerError_cancel (hbal : Balanced s fun _ => 0) (hcopies : CopiesChecked s) :
    NoServerError (call (Op.run svc env (.cancelReservation id memberId)) s).1 ↔
      ∀ r, s.reservations.get id = some r → r.memberId = memberId → r.status.isActive := by
  rw [Op.run, call_map, noServerError_map, noServerError_call]
  simp only [ReservationService.cancelReservation, getByIdForUpdate, getById, Prog.bind_eq,
    Prog.ends_bind, ends_queryForUpdate]
  have hactive : ∀ r : Reservation,
      r.status ∈ [ReservationStatus.pending, .hold] ↔ r.status.isActive := by
    intro r
    cases r.status <;> simp [ReservationStatus.isActive]
  refine ends_orRaise.trans ⟨fun h r hr hmember => ?_, fun h => ⟨by simp, fun r hr => ?_⟩⟩
  · by_contra hover
    have hmine := (ends_raiseIf.mp (h.2 r hr)).2 (not_not.mpr hmember)
    exact not_isApplication_valueError _ ((ends_raiseIf.mp hmine).1 (mt (hactive r).mp hover))
  obtain rfl : r.id = id := Table.key_of_get hr
  refine ends_raiseIf.mpr ⟨by simp, fun hmine => ?_⟩
  refine ends_raiseIf.mpr ⟨fun hover => ?_, fun _ => ?_⟩
  · exact absurd ((hactive r).mpr (h r hr (not_not.mp hmine))) hover
  refine (Prog.ends_of_exec (exec_updateReservation hr)).mpr ?_
  have hkept : (s.put (.reservation r.id) (.reservation
      { r with status := .cancelled, expiresAt := none })).reservations.get r.id ≠ none := by
    rw [get_putReservation, if_pos rfl]
    simp
  have hread : ∀ v' : DB, v'.reservations.get r.id ≠ none →
      ((select fun db : DB => db.reservations.get r.id).bind fun o => orRaise o .staleData).Ends
        Exc.IsApplication s v' fun _ _ _ => True :=
    fun v' h' => Prog.ends_bind.mpr (ends_orRaise.mpr ⟨fun hnone => absurd hnone h',
      fun _ _ => trivial⟩)
  split
  · rename_i hhold
    have hbook := hbal.reservationBooks r (Table.mem_of_get hr)
    refine Prog.ends_bind.mpr (ends_promote svc _ _ (hbal.release hr hhold rfl (by simp))
      (hcopies.frame rfl) hbook fun v' hhanded => ?_)
    exact hread v' (hhanded.kept hkept)
  · exact hread _ hkept

/-- Every hold that has expired is passed on, whatever has become of its book. -/
theorem ends_expireHolds (svc : ReservationService) (env : Env) {rest : List Reservation} (n : Nat)
    (hids : (rest.map Reservation.id).Nodup)
    (hrows : ∀ r ∈ rest, v.reservations.get r.id = some r ∧ r.status = .hold)
    (hbal : Balanced v fun _ => 0) (hcopies : CopiesChecked v) :
    (svc.expireHolds env rest n).Ends E base v fun _ _ _ => True := by
  induction rest generalizing v n with
  | nil => trivial
  | cons r rest ih =>
    obtain ⟨hnew, hrest⟩ := List.nodup_cons.mp hids
    obtain ⟨hr, hs⟩ := hrows r List.mem_cons_self
    have hbook := hbal.reservationBooks r (Table.mem_of_get hr)
    have hfreed : Balanced (v.put (.reservation r.id) (.reservation
        { r with status := .expired, expiresAt := none })) (inHand r.bookId) :=
      hbal.release hr hs rfl (by simp)
    have hchecked : CopiesChecked (v.put (.reservation r.id) (.reservation
        { r with status := .expired, expiresAt := none })) := hcopies.frame rfl
    refine Prog.ends_bind.mpr ((Prog.ends_of_exec (exec_updateReservation hr)).mpr ?_)
    refine Prog.ends_bind.mpr (ends_promote svc _ _ hfreed hchecked hbook fun v' hhanded => ?_)
    have hpending : ∀ w q, oldestPending env.reservationOrder r.bookId w = some q →
        isPendingOf r.bookId q := fun w q hq => (oldestPending_mem hq).2
    refine ih (n + 1) hrest (fun x hx => ?_) (hfreed.handed hhanded hpending)
      (hchecked.handed hhanded)
    obtain ⟨hxget, hxs⟩ := hrows x (List.mem_cons_of_mem _ hx)
    have hne : x.id ≠ r.id := fun he => hnew (List.mem_map.mpr ⟨x, hx, he⟩)
    refine ⟨hhanded.keeps_hold (fun w q hq => (isPendingOf_iff.mp (hpending w q hq)).2) ?_ hxs, hxs⟩
    rw [get_putReservation, if_neg hne, hxget]

theorem noServerError_sweep (hbal : Balanced s fun _ => 0) (hcopies : CopiesChecked s) :
    NoServerError (call (Op.run svc env .processExpiredHolds) s).1 := by
  rw [Op.run, call_map, noServerError_map, noServerError_call]
  refine Prog.ends_bind.mpr (ends_expireHolds svc env 0 (expiredHolds_nodup env s)
    (fun r hr => ?_) hbal hcopies)
  obtain ⟨hmem, hs, _⟩ := mem_expiredHolds.mp hr
  exact ⟨Table.get_of_mem hmem, hs⟩

/-! ## The routes -/

/-- UNIQUE(user_id). -/
def DistinctUsers (db : DB) : Prop :=
  ∀ m ∈ db.members.rows, ∀ m' ∈ db.members.rows, m.userId = m'.userId → m = m'

section

variable {api : Api} {now : Int} {credentials : Option HTTPAuthorizationCredentials} {u : User}

theorem ends_validated {token : String} {Q : Payload → DB → DB → Prop} :
    (api.validated now token).Ends Exc.IsApplication base w Q ↔
      ∀ payload, api.decodeAndValidateToken now token = .ok payload → Q payload base w := by
  unfold Api.validated
  split <;> simp [*, raise]

/-- Whoever is not authenticated is told so by an exception of the application. -/
theorem ends_getCurrentUser {Q : User → DB → DB → Prop} :
    (api.getCurrentUser now credentials).Ends Exc.IsApplication base s Q ↔
      ∀ u, Authenticated api now credentials s u → Q u base s := by
  simp only [Api.getCurrentUser, UserRepository.getById, Prog.bind_eq, Prog.ends_bind, ends_query]
  constructor
  · rintro h u ⟨hc, hscheme, hp, hsub, hne, hu, hactive⟩
    have h₁ := (ends_orRaise.mp h).2 _ (Option.filter_eq_some_iff.mpr ⟨hc, by simpa using hscheme⟩)
    have h₂ := (ends_orRaise.mp (ends_validated.mp h₁ _ hp)).2 _
      (Option.filter_eq_some_iff.mpr ⟨hsub, by simpa using hne⟩)
    exact (ends_raiseIf.mp ((ends_orRaise.mp h₂).2 u hu)).2 (not_not.mpr hactive)
  · intro h
    refine ends_orRaise.mpr ⟨by simp, fun c hc => ends_validated.mpr fun payload hp => ?_⟩
    refine ends_orRaise.mpr ⟨by simp, fun sub hsub => ?_⟩
    refine ends_orRaise.mpr ⟨by simp, fun u hu => ends_raiseIf.mpr ⟨by simp, fun hactive => ?_⟩⟩
    obtain ⟨hc, hscheme⟩ := Option.filter_eq_some_iff.mp hc
    obtain ⟨hsub, hne⟩ := Option.filter_eq_some_iff.mp hsub
    exact h u (.mk hc (by simpa using hscheme) hp hsub (by simpa using hne) hu (not_not.mp hactive))

theorem ends_roleRequirement {allowedRoles : List UserRole} {Q : User → DB → DB → Prop} :
    (roleRequirement allowedRoles u).Ends Exc.IsApplication base w Q ↔
      (u.role ∈ allowedRoles → Q u base w) := by
  simp only [roleRequirement, Prog.bind_eq, Prog.pure_eq, Prog.ends_bind]
  exact ends_raiseIf.trans (by simp)

theorem ends_currentMember (h : DistinctUsers w) {Q : Member → DB → DB → Prop} :
    (currentMember u).Ends Exc.IsApplication base w Q ↔ ∀ m, Represents w u m → Q m base w := by
  have hmem : ∀ m, m ∈ w.members.rows.filter (fun m => m.userId = u.id && !m.isDeleted) ↔
      Represents w u m := by
    intro m
    rw [List.mem_filter, Represents]
    simp only [Bool.and_eq_true, decide_eq_true_eq, Bool.not_eq_true']
    exact and_congr_left fun _ => ⟨Table.get_of_mem, Table.mem_of_get⟩
  simp only [currentMember, MemberRepository.getByUserId, Prog.bind_eq, Prog.ends_bind, ends_query]
  have hnodup : (w.members.rows.filter (fun m => m.userId = u.id && !m.isDeleted)).Nodup :=
    w.members.unique.of_map.filter _
  generalize w.members.rows.filter (fun m => m.userId = u.id && !m.isDeleted) = rows
    at hmem hnodup ⊢
  rcases rows with _ | ⟨m, _ | ⟨m', rest⟩⟩
  · refine (ends_scalarOneOrNone (by simp)).trans (ends_orRaise.trans ?_)
    simp [← hmem]
  · refine (ends_scalarOneOrNone (by simp)).trans (ends_orRaise.trans ?_)
    simp [← hmem]
  · have hm := (hmem m).mp List.mem_cons_self
    have hm' := (hmem m').mp (List.mem_cons_of_mem _ List.mem_cons_self)
    have hsame := h m (Table.mem_of_get hm.1) m' (Table.mem_of_get hm'.1)
      (hm.2.1.trans hm'.2.1.symm)
    exact absurd (hsame ▸ List.mem_cons_self) (List.nodup_cons.mp hnodup).1

theorem ends_transactional {inTransaction : Bool} {body : Tx α} :
    (transactional inTransaction body).Ends Exc.IsApplication s s (fun _ _ _ => True) ↔
      NoServerError (call body s).1 := by
  rw [noServerError_call]
  cases inTransaction <;> rfl

/-- When a request that is sent to one of the six routes is not answered as an error of the server.
A checkout names a book by a text that is a UUID, and the book has one hold at most if the member
may borrow at all; the loan to be returned or renewed exists; a book to be reserved is not in stock;
a reservation to be cancelled is waiting or held. -/
def Api.Answerable (api : Api) (now : Int) (credentials : Option HTTPAuthorizationCredentials)
    (env : Env) (s : DB) : Route → Prop
  | .borrowBook text => ∀ u m, Authenticated api now credentials s u → Represents s u m →
      ∃ bookId, api.parseUUID text = some bookId ∧
        (GoodStanding (getBorrowService api.reservations) env m s → s.activeBook bookId ≠ none →
          (s.reservations.rows.filter (isHoldOf bookId)).length ≤ 1)
  | .returnBook id | .renewBook id => s.borrowRecords.get id ≠ none
  | .placeReservation bookId => ∀ u m, Allowed api now credentials s [.member] u →
      Represents s u m → ∀ b, s.activeBook bookId = some b → b.availableCopies ≤ 0
  | .cancelReservation id => ∀ u m, Allowed api now credentials s [.member] u →
      Represents s u m → ∀ r, s.reservations.get id = some r → r.memberId = m.id →
        r.status.isActive
  | .sweepExpiredHolds | .createBook .. | .updateBook .. | .deleteBook .. => True

def Route.isInventory : Route → Bool
  | .createBook .. | .updateBook .. | .deleteBook .. => true
  | _ => false

/-- `uuid.uuid4` gives a key that no loan and no reservation has. -/
structure Env.Fresh (env : Env) (s : DB) : Prop where
  loan : s.borrowRecords.get env.newId = none
  reservation : s.reservations.get env.newId = none

theorem noServerError_handle {route : Route} :
    NoServerError (call (api.handle now credentials env route) s).1 ↔
      (api.dispatch now credentials route).Ends Exc.IsApplication s s fun op base w =>
        (transactional route.inTransaction (op.run api.reservations env)).Ends Exc.IsApplication
          base w fun _ _ _ => True :=
  noServerError_call.trans Prog.ends_bind

/-- In every reachable state a request to borrow, return, renew, reserve, cancel or sweep ends in
its result or in an exception of the application exactly when it reaches none of the other
refusals. -/
theorem refusals_answered_iff (h : Runs api.reservations AnyOp s) (husers : DistinctUsers s)
    (hfresh : env.Fresh s) {route : Route} (hroute : route.isInventory = false) (now : Int)
    (credentials : Option HTTPAuthorizationCredentials) :
    NoServerError (call (api.handle now credentials env route) s).1 ↔
      api.Answerable now credentials env s route := by
  have hsound := Sound.of_runs h
  have hmember : ∀ {u m}, Represents s u m → s.activeMember m.id = some m :=
    fun hm => activeMember_eq_some.mpr ⟨hm.1, hm.2.2⟩
  rw [noServerError_handle]
  cases route with
  | createBook | updateBook | deleteBook => cases hroute
  | returnBook id => exact ends_transactional.trans (noServerError_return hsound)
  | renewBook id => exact ends_transactional.trans (noServerError_renew hsound)
  | borrowBook text =>
    simp only [Api.dispatch, Prog.bind_eq, Prog.pure_eq, Prog.ends_bind, Prog.ends_ret,
      ends_getCurrentUser, ends_currentMember husers]
    constructor
    · intro hall u m hu hm
      obtain ⟨hparse, hcall⟩ := ends_orRaise.mp (hall u hu m hm)
      cases hid : api.parseUUID text with
      | none => exact absurd (hparse hid) (not_isApplication_valueError _)
      | some bookId =>
        have hborrow := ends_transactional.mp (hcall bookId hid)
        refine ⟨bookId, rfl, ?_⟩
        exact (noServerError_borrow hsound.copies (hmember hm) hfresh.loan).mp hborrow
    · intro hall u hu m hm
      obtain ⟨bookId, hid, hborrow⟩ := hall u m hu hm
      refine ends_orRaise.mpr ⟨fun hnone => ?_, fun b hb => ends_transactional.mpr ?_⟩
      · cases hid.symm.trans hnone
      · obtain rfl := Option.some.inj (hid.symm.trans hb)
        exact (noServerError_borrow hsound.copies (hmember hm) hfresh.loan).mpr hborrow
  | placeReservation bookId =>
    simp only [Api.dispatch, Prog.bind_eq, Prog.pure_eq, Prog.ends_bind, Prog.ends_ret,
      ends_getCurrentUser, ends_roleRequirement, ends_currentMember husers, ends_transactional,
      noServerError_place (.of_runs h) hfresh.reservation]
    constructor
    · exact fun hall u m hu hm => hall u hu.1 hu.2 m hm
    · exact fun hall u hu hrole m hm => hall u m ⟨hu, hrole⟩ hm
  | cancelReservation id =>
    simp only [Api.dispatch, Prog.bind_eq, Prog.pure_eq, Prog.ends_bind, Prog.ends_ret,
      ends_getCurrentUser, ends_roleRequirement, ends_currentMember husers, ends_transactional,
      noServerError_cancel hsound.balanced hsound.copies]
    constructor
    · exact fun hall u m hu hm => hall u hu.1 hu.2 m hm
    · exact fun hall u hu hrole m hm => hall u m ⟨hu, hrole⟩ hm
  | sweepExpiredHolds =>
    simp only [Api.dispatch, Prog.bind_eq, Prog.pure_eq, Prog.ends_bind, Prog.ends_ret,
      ends_getCurrentUser, ends_roleRequirement, ends_transactional, Api.Answerable, iff_true]
    exact fun _ _ _ => noServerError_sweep hsound.balanced hsound.copies

end

theorem demoPatrons_runs : Runs svc AnyOp demoPatrons :=
  .accounts (.empty .ignoringCase) ⟨⟨_, _, rfl⟩, by simp [DB.empty], by decide⟩

theorem demoPatrons_users : DistinctUsers demoPatrons := by
  unfold DistinctUsers
  decide

/-- Of the two copies one is on loan to member 12, and one has been brought back by member 11 and is
held for member 13. -/
def demoHoldShelf : DB :=
  serial ⟨48⟩ [(demoEnv 1 0, .createBook "Emma" "Austen" "9780141439587" 2 none),
    (demoEnv 100 hour, .borrowBook 12 1), (demoEnv 101 hour, .borrowBook 11 1),
    (demoEnv 200 (2 * hour), .placeReservation 13 1), (demoEnv 0 (3 * hour), .returnBook 101)]
    demoNeighbours

theorem demoHoldShelf_runs : Runs ⟨48⟩ AnyOp demoHoldShelf := by
  have hneighbours : Runs ⟨48⟩ AnyOp demoNeighbours :=
    .accounts (.empty .ignoringCase) ⟨⟨_, _, rfl⟩, by simp [DB.empty], by decide⟩
  exact hneighbours.serial _ fun _ _ _ => trivial

theorem demoHoldShelf_users : DistinctUsers demoHoldShelf := by
  unfold DistinctUsers
  decide

/-- Member 11 is told that the copy on the shelf is held for somebody else, and member 12 brings the
other copy back. -/
theorem refusals_answered_demo :
    NoServerError (call (demoApi.handle 4 (demoBearer "member") (demoEnv 102 (4 * hour))
      (.borrowBook "00000000-0000-0000-0000-000000000001")) demoHoldShelf).1 ∧
    NoServerError (call (demoApi.handle 4 none (demoEnv 0 (4 * hour)) (.returnBook 100))
      demoHoldShelf).1 := by
  constructor
  · exact (refusals_answered_iff demoHoldShelf_runs demoHoldShelf_users ⟨by decide, by decide⟩
      rfl 4 (demoBearer "member")).mpr fun _ _ _ _ => ⟨1, by decide, fun _ _ => by decide⟩
  · exact (refusals_answered_iff demoHoldShelf_runs demoHoldShelf_users ⟨by decide, by decide⟩
      rfl 4 none).mpr (show demoHoldShelf.borrowRecords.get 100 ≠ none by decide)

/-- A loan that there is not is brought back. -/
theorem unknown_loan_server_error :
    ¬∀ (api : Api) s, Runs api.reservations AnyOp s → DistinctUsers s → ∀ env : Env, env.Fresh s →
      ∀ route : Route, route.isInventory = false → ∀ now credentials,
      NoServerError (call (api.handle now credentials env route) s).1 := by
  intro hclaim
  have hraise : (call (demoApi.handle 0 (demoBearer "member") (demoEnv 100 0) (.returnBook 100))
      demoPatrons).1 = .error (.valueError "Borrow record not found") := by decide
  obtain ⟨c, d, h⟩ := hclaim demoApi demoPatrons demoPatrons_runs demoPatrons_users
    (demoEnv 100 0) ⟨rfl, rfl⟩ (.returnBook 100) rfl 0 (demoBearer "member") _ hraise
  cases h

end LibraryPlatform

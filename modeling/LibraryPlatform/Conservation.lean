import LibraryPlatform.Authority
import LibraryPlatform.Inventory
import LibraryPlatform.LoanCalls
import LibraryPlatform.Passing

/-!
# The copies in the middle of the traffic

Nobody returns or renews a loan while another request does. Then no request of a return or a
renewal writes over anything but what it has read, and every commit does to the copies what it
would do alone on the store it commits to.
-/
namespace LibraryPlatform

open KeyedTable Transaction ReservationRepository

variable {n : Nat} {api : Api} {visits : Fin n → Visit} {s₀ : DB} {s s' : Traffic n}
  {D : Discipline DB RowKey} {svc : ReservationService} {env : Env} {t u : DB}

/-! ## One commit -/

namespace Balanced

variable {spare : UUID → Int} {v v' : DB} {expiresAt : Int} {bookId id memberId : UUID}

theorem housed (h : Balanced t spare) : Housed t := ⟨h.loanBooks, h.reservationBooks⟩

theorem tokens (h : Balanced t spare) (ht : TokensOnly t u) : Balanced u spare := by
  obtain ⟨_, rfl⟩ := ht
  exact ⟨h.loanBooks, h.reservationBooks, h.loanStatus, h.balance⟩

/-- The copy in hand is passed on. -/
theorem passed (h : Balanced v (inHand bookId)) (hp : Passed expiresAt bookId v v') :
    Balanced v' (fun _ => 0) := by
  cases hp with
  | @promoted r hr hget =>
    obtain ⟨hbook, hpending⟩ := isPendingOf_iff.mp hr
    refine Balanced.record (h.putReservation ?_ fun x => ?_) _
    · exact h.reservationBooks r (Table.mem_of_get hget)
    · simp [hget, hold_worth, hbook, hpending]
  | @restored b hb hdel _ =>
    have hbal := h.balance bookId b hb hdel
    refine Balanced.record (h.putBook (fun x hx => (inHand_other hx).symm) fun _ => ?_) _
    simp only [inHand_self] at hbal ⊢
    omega
  | @gone b hb hdel =>
    refine ⟨h.loanBooks, h.reservationBooks, h.loanStatus, fun x b' hb' hdel' => ?_⟩
    have hx : x ≠ bookId := by
      rintro rfl
      obtain rfl := Option.some.inj (hb.symm.trans hb')
      rw [hdel] at hdel'
      cases hdel'
    have hbal := h.balance x b' hb' hdel'
    rwa [inHand_other hx] at hbal

theorem returnedOnce {svc : BorrowService} (h : Balanced v (fun _ => 0))
    (hr : ReturnedOnce svc env id v v') : Balanced v' (fun _ => 0) := by
  cases hr with
  | again => exact h
  | passed hget hopen hp => exact (h.close hget hopen _).passed hp

theorem renewedOnce {svc : BorrowService} (h : Balanced v (fun _ => 0))
    (hr : RenewedOnce svc env id v v') : Balanced v' (fun _ => 0) := by
  obtain ⟨r, hget, hopen, _, _, rfl⟩ := hr.renewed
  have hmem := Table.mem_of_get hget
  have hactive := isActive_of hopen (h.loanStatus r hmem)
  have hstatus : (renewedRecord svc r r).status = .renewed := by simp +contextual [renewedRecord]
  have hbook : (renewedRecord svc r r).bookId = r.bookId := rfl
  refine h.putLoan (h.loanBooks r hmem) (by simp [hstatus]) fun x => ?_
  simp [hget, loan_worth, hactive, hstatus, hbook]

theorem cancelledOnce (h : Balanced v (fun _ => 0))
    (hc : CancelledOnce svc env id memberId v v') : Balanced v' (fun _ => 0) := by
  cases hc with
  | @waiting r hget _ hs =>
    refine h.putReservation (h.reservationBooks r (Table.mem_of_get hget)) fun x => ?_
    simp [hget, hold_worth, hs]
  | held hget _ hs hp => exact (h.release hget hs (by rfl) (by simp)).passed hp

theorem sweptOnce {rest : List Reservation} {n : Nat} (hs : SweptOnce svc env rest n v v')
    (h : Balanced v (fun _ => 0)) : Balanced v' (fun _ => 0) := by
  induction hs with
  | nil => exact h
  | cons hget hhold hp _ ih => exact ih ((h.release hget hhold (by rfl) (by simp)).passed hp)

theorem orderly {op : Op} (h : Balanced t (fun _ => 0)) (he : op.Orderly D svc env t u) :
    Balanced u (fun _ => 0) := by
  cases op with
  | createBook => exact h.created he rfl
  | updateBook => exact h.updated he
  | deleteBook => exact h.deleted he
  | borrowBook => exact h.borrowed he
  | returnBook => exact h.returnedOnce he
  | renewBook => exact h.renewedOnce he
  | placeReservation => exact h.placed he
  | cancelReservation => exact h.cancelledOnce he
  | processExpiredHolds =>
    obtain ⟨w, _, hs⟩ := he
    exact sweptOnce hs h

end Balanced

/-! ## Loans that one request at a time has to do with -/

/-- No two of the visits ask for the return or the renewal of one loan. -/
def Apart (visits : Fin n → Visit) : Prop :=
  ∀ i j id, (visits i).Names id → (visits j).Names id → i = j

/-- The loan that a return or a renewal has read is as it was. -/
def Visit.current (v : Visit) : Guard := fun k read committed => ∀ id w r,
  k = .borrowRecord id → v.Names id → read = some w → w.borrowRecords.get id = some r →
    committed.borrowRecords.get id = some r

/-- Nobody else writes what a return or a renewal has read. -/
theorem Apart.current (hapart : Apart visits)
    (h : Sys.Reach Sys.Any (Traffic.start api visits s₀) s) (i : Fin n) {m : Move RowKey} :
    Sys.WhereGuarded (fun i => (visits i).current) s i m := by
  intro _ k f next l ht id w r _ hi hw
  refine Sys.snapshot_current (i := i) (R := fun w t => w.borrowRecords.get id = some r →
    t.borrowRecords.get id = some r) (fun _ hr => hr) ?_ ?_ h ht hw
  · intro x x' j m w hx hji hstep hread hw
    have hright := (visit_entitles hx hstep).loans id
    rw [hread hw] at hright
    generalize x'.db.borrowRecords.get id = o at hright
    cases hright with
    | same => rfl
    | changed hj =>
      obtain rfl : r.id = id := Table.key_of_get (hread hw)
      exact absurd (hapart _ _ _ hj hi) hji
  · intro p l hp
    cases hp
    rfl

theorem Apart.reach (hapart : Apart visits)
    (h : Sys.Reach Sys.Any (Traffic.start api visits s₀) s) :
    Sys.Reach (Sys.WhereGuarded fun i => (visits i).current) (Traffic.start api visits s₀) s := by
  induction h with
  | refl => exact .refl
  | tail i m hr _ hs ih => exact .tail i m ih (hapart.current hr i) hs

/-! ## What one commit keeps -/

theorem SweptOnce.borrowRecords {rest : List Reservation} {n : Nat}
    (h : SweptOnce svc env rest n t u) : u.borrowRecords = t.borrowRecords := by
  induction h with
  | nil => rfl
  | cons _ _ hp _ ih => rw [ih, hp.borrowRecords]; rfl

theorem Op.Orderly.loan {op : Op} (h : op.Orderly D svc env t u) (x : UUID) :
    LoanChange (getBorrowService svc) env (t.borrowRecords.get x) (u.borrowRecords.get x) := by
  have kept : u.borrowRecords = t.borrowRecords →
      LoanChange (getBorrowService svc) env (t.borrowRecords.get x) (u.borrowRecords.get x) := by
    intro he
    rw [he]
    exact .same
  cases op with
  | createBook => exact kept (by rw [h.stored]; rfl)
  | updateBook => exact kept (by cases h <;> rfl)
  | deleteBook => exact kept (by cases h; rfl)
  | borrowBook => exact Borrowed.loan h x
  | returnBook id =>
    cases h with
    | again => exact .same
    | @passed r _ hget hopen hp =>
      obtain rfl : r.id = id := Table.key_of_get hget
      rw [hp.borrowRecords]
      exact LoanChange.put hget (.returned hopen) x
  | renewBook id =>
    obtain ⟨r, hget, hopen, hcount, _, rfl⟩ := h.renewed
    obtain rfl : r.id = id := Table.key_of_get hget
    exact LoanChange.put hget (.renewed hopen hcount) x
  | placeReservation => exact kept (by rw [h.stored]; rfl)
  | cancelReservation =>
    cases h with
    | waiting => exact .same
    | held _ _ _ hp => exact kept (by rw [hp.borrowRecords]; rfl)
  | processExpiredHolds =>
    obtain ⟨w, _, hs⟩ := h
    exact kept hs.borrowRecords

theorem Passed.accounts {expiresAt : Int} {bookId : UUID} (h : Passed expiresAt bookId t u) :
    SameAccounts t u := by cases h <;> exact ⟨rfl, rfl⟩

theorem SweptOnce.accounts {rest : List Reservation} {n : Nat}
    (h : SweptOnce svc env rest n t u) : SameAccounts t u := by
  induction h with
  | nil => exact .refl _
  | cons _ _ hp _ ih =>
    exact SameAccounts.trans ⟨hp.accounts.users, hp.accounts.members⟩ ih

theorem Op.Orderly.accounts {op : Op} (h : op.Orderly D svc env t u) : SameAccounts t u := by
  have others : op.Effect D NoGuard t svc env t u → SameAccounts t u :=
    fun he => ⟨he.users, he.members⟩
  cases op with
  | returnBook =>
    cases h with
    | again => exact .refl t
    | passed _ _ hp => exact ⟨hp.accounts.users, hp.accounts.members⟩
  | renewBook =>
    obtain ⟨r, _, _, _, _, rfl⟩ := h.renewed
    exact ⟨rfl, rfl⟩
  | cancelReservation =>
    cases h with
    | waiting => exact ⟨rfl, rfl⟩
    | held _ _ _ hp => exact ⟨hp.accounts.users, hp.accounts.members⟩
  | processExpiredHolds =>
    obtain ⟨w, _, hs⟩ := h
    exact hs.accounts
  | createBook | updateBook | deleteBook | borrowBook | placeReservation => exact others h

namespace CopiesChecked

theorem passed {expiresAt : Int} {bookId : UUID} (h : CopiesChecked t)
    (hp : Passed expiresAt bookId t u) : CopiesChecked u := by
  cases hp with
  | promoted => exact h
  | restored _ _ hc => exact h.putBook hc
  | gone => exact h

theorem sweptOnce {rest : List Reservation} {n : Nat} (hs : SweptOnce svc env rest n t u)
    (h : CopiesChecked t) : CopiesChecked u := by
  induction hs with
  | nil => exact h
  | cons _ _ hp _ ih => exact ih ((h.frame (by rfl)).passed hp)

theorem orderly {op : Op} (h : CopiesChecked t) (he : op.Orderly D svc env t u) :
    CopiesChecked u := by
  have others : op.Effect D NoGuard t svc env t u → CopiesChecked u := h.effect
  cases op with
  | returnBook =>
    cases he with
    | again => exact h
    | passed _ _ hp => exact (h.frame (by rfl)).passed hp
  | renewBook =>
    obtain ⟨r, _, _, _, _, rfl⟩ := he.renewed
    exact h.frame rfl
  | cancelReservation =>
    cases he with
    | waiting => exact h.frame rfl
    | held _ _ _ hp => exact (h.frame (by rfl)).passed hp
  | processExpiredHolds =>
    obtain ⟨w, _, hs⟩ := he
    exact sweptOnce hs h
  | createBook | updateBook | deleteBook | borrowBook | placeReservation => exact others he

end CopiesChecked

theorem Sound.orderly {op : Op} (h : Sound svc t) (he : op.Orderly D svc env t u) :
    Sound svc u := by
  refine ⟨h.balanced.orderly he, h.copies.orderly he, fun x r hr => ?_⟩
  have hchange := he.loan x
  rw [hr] at hchange
  exact hchange.stored (h.loans x)

theorem SameStock.tokens (h : TokensOnly t u) : SameStock t u := by
  obtain ⟨_, rfl⟩ := h
  exact ⟨rfl, rfl, rfl⟩

/-! ## Any run -/

def orderly (D : Discipline DB RowKey) (svc : ReservationService) : Effects :=
  fun op env s t => op.Orderly D svc env s t

/-- A return or a renewal is promised the loan that the visit names. -/
theorem Visit.alike {E : Effects} {now : Int} {credentials : Option HTTPAuthorizationCredentials}
    {route : Route} {op : Op} (hd : Dispatched api now credentials u route op) :
    op.Alike ((Visit.write now credentials env route).contract D
      (Visit.write now credentials env route).current E api) := by
  cases op with
  | returnBook id => exact fun w u r hg hr => hg id w r rfl (hd.ofNames (.inl rfl)) rfl hr
  | renewBook id => exact fun w u r hg hr => hg id w r rfl (hd.ofNames (.inr rfl)) rfl hr
  | _ => trivial

/-- The accounts are those of the start, and the counters agree with the rows. -/
def soundly (svc : ReservationService) (s₀ : DB) : Discipline DB RowKey :=
  keeping fun t => SameAccounts s₀ t ∧ Sound svc t

theorem sound_kept : Upholds (soundly api.reservations s₀) (fun i => (visits i).current)
    (fun _ => orderly (soundly api.reservations s₀) api.reservations) api visits where
  told i now credentials env route hv u op hd := by
    intro s hs
    rw [hv]
    exact wp_op_orderly (fun _ _ _ => trivial)
      (fun t (ht : SameAccounts s₀ t ∧ Sound _ t) => ht.2.balanced.housed) (Visit.alike hd)
  kept i s t hc hi := by
    refine ⟨?_, fun _ => trivial⟩
    obtain ⟨haccounts, hsound⟩ := hi
    generalize visits i = v at hc
    cases hc with
    | nothing => exact ⟨haccounts, hsound⟩
    | op _ _ he => exact ⟨haccounts.trans he.accounts, hsound.orderly he⟩
    | tokens ht => exact ⟨haccounts.trans (.tokens ht), (SameStock.tokens ht).sound hsound⟩

theorem soundly_reachable (hapart : Apart visits) (h₀ : Sound api.reservations s₀)
    (h : Sys.Reach Sys.Any (Traffic.start api visits s₀) s) :
    SameAccounts s₀ s.db ∧ Sound api.reservations s.db :=
  (sound_kept.good ⟨.refl s₀, h₀⟩ (hapart.reach h)).inv

theorem sound_reachable (hapart : Apart visits) (h₀ : Sound api.reservations s₀)
    (h : Sys.Reach Sys.Any (Traffic.start api visits s₀) s) : Sound api.reservations s.db :=
  (soundly_reachable hapart h₀ h).2

/-- What one move changes of a loan. -/
theorem loan_move (hapart : Apart visits) (h₀ : Sound api.reservations s₀)
    (h : Sys.Reach Sys.Any (Traffic.start api visits s₀) s) {i : Fin n} {m : Move RowKey}
    (hs : s.step i m = some s') (x : UUID) :
    s'.db.borrowRecords.get x = s.db.borrowRecords.get x ∨
    ∃ env, LoanChange (getBorrowService api.reservations) env (s.db.borrowRecords.get x)
      (s'.db.borrowRecords.get x) := by
  rcases sound_kept.move ⟨.refl s₀, h₀⟩ (hapart.reach h) (hapart.current h i) hs with he | hc
  · exact .inl (by rw [he])
  · generalize visits i = v at hc
    generalize s'.db = t at hc
    cases hc with
    | nothing => exact .inl rfl
    | op _ _ he => exact .inr ⟨_, Op.Orderly.loan he x⟩
    | tokens ht => exact .inl (by rw [(SameStock.tokens ht).borrowRecords])

theorem closed_stays (hapart : Apart visits) (h₀ : Sound api.reservations s₀)
    (h : Sys.Reach Sys.Any (Traffic.start api visits s₀) s) (h' : Sys.Reach Sys.Any s s')
    {r : BorrowRecord} (hr : s.db.borrowRecords.get r.id = some r) (hs : r.status = .returned) :
    s'.db.borrowRecords.get r.id = some r := by
  induction h' with
  | refl => exact hr
  | tail i m hreach _ hstep ih =>
    rcases loan_move hapart h₀ (h.trans hreach) hstep r.id with he | ⟨env, hc⟩
    · rw [he, ih]
    · rw [ih] at hc
      exact hc.final hs

/-- However the visits are interleaved, as long as no two of them return or renew one loan: in
every committed state the copies of a book that is not deleted are those on the shelf, those on
loan and those held, and no shelf has less than none. -/
theorem copies_conserved_in_traffic (hapart : Apart visits) (h₀ : Sound api.reservations s₀)
    (h : Sys.Reach Sys.Any (Traffic.start api visits s₀) s) {b : Book} (hb : b ∈ s.db.books.rows)
    (hdel : b.isDeleted = false) :
    b.totalCopies = b.availableCopies + s.db.loans b.id + s.db.holds b.id ∧
      0 ≤ b.availableCopies := by
  have hsound := sound_reachable hapart h₀ h
  have hbal := hsound.balanced.balance b.id b (Table.get_of_mem hb) hdel
  omega

/-- A return, and a librarian who adds a copy. -/
def demoReturning : Fin 2 → Visit
  | 0 => .write 2 none (demoEnv 0 (2 * hour)) (.returnBook 100)
  | 1 => .write 2 (demoBearer "librarian") (demoEnv 0 (2 * hour))
    (.updateBook 1 ⟨none, none, none, none, some (some 2)⟩)

/-- The copy is added after the loan is closed and before its own copy is on the shelf. -/
def demoAdding (i j : Fin 2) : List (Fin 2 × Move RowKey) :=
  List.replicate 2 (j, .run) ++ [(i, .run), (i, .acquire (.borrowRecord 100)), (i, .run),
    (j, .acquire (.book 1))] ++ List.replicate 4 (j, .run) ++
    (i, .acquire (.book 1)) :: List.replicate 3 (i, .run)

theorem demoReturning_apart : Apart demoReturning := by
  have hone : ∀ i id, (demoReturning i).Names id → i = 0 := by
    refine Fin.forall_fin_two.mpr ⟨fun _ _ => rfl, ?_⟩
    rintro id ⟨now, credentials, env, h | h⟩ <;> cases h
  exact fun i j id hi hj => (hone i id hi).trans (hone j id hj).symm

theorem demoLoaned_sound : Sound demoApi.reservations demoLoaned := demoLog_log.sound (.empty _)

theorem copies_conserved_in_traffic_demo :
    ∃ s b, (Traffic.start demoApi demoReturning demoLoaned).runs (demoAdding 0 1) = some s ∧
      b ∈ s.db.books.rows ∧ b.availableCopies = 2 ∧
      b.totalCopies = b.availableCopies + s.db.loans b.id + s.db.holds b.id := by
  have hruns : ((Traffic.start demoApi demoReturning demoLoaned).runs (demoAdding 0 1)).any fun s =>
      s.db.books.rows = [⟨1, "9780141439587", "Emma", "Austen", none, 2, 2, false, none⟩] := by
    decide
  obtain ⟨s, hs, hbooks⟩ := (Option.any_eq_true _ _).mp hruns
  have hb := (of_decide_eq_true hbooks).symm ▸ List.mem_cons_self
  exact ⟨s, _, hs, hb, rfl, (copies_conserved_in_traffic demoReturning_apart demoLoaned_sound
    (Sys.reach_of_runs hs) hb rfl).1⟩

/-- In the same runs the renewals, the due date, the status and the return date of a loan agree in
every committed state, and what has been returned stays as it is. -/
theorem loans_agree_in_traffic (hapart : Apart visits) (h₀ : Sound api.reservations s₀)
    (h : Sys.Reach Sys.Any (Traffic.start api visits s₀) s) {r : BorrowRecord}
    (hr : r ∈ s.db.borrowRecords.rows) :
    LoanTerms (getBorrowService api.reservations) r ∧
    (r.status = .returned → ∀ s', Sys.Reach Sys.Any s s' → r ∈ s'.db.borrowRecords.rows) := by
  have hget := Table.get_of_mem hr
  exact ⟨((sound_reachable hapart h₀ h).loans r.id r hget).toLoanTerms,
    fun hs s' h' => Table.mem_of_get (closed_stays hapart h₀ h h' hget hs)⟩

theorem loans_agree_in_traffic_demo :
    ∃ s r, (Traffic.start demoApi demoReturning demoLoaned).runs (demoAdding 0 1) = some s ∧
      r ∈ s.db.borrowRecords.rows ∧ r.returnDate = some (2 * hour) ∧
      LoanTerms (getBorrowService demoApi.reservations) r := by
  have hruns : ((Traffic.start demoApi demoReturning demoLoaned).runs (demoAdding 0 1)).any fun s =>
      s.db.borrowRecords.rows =
        [{ demoLoan100 with returnDate := some (2 * hour), status := .returned }] := by decide
  obtain ⟨s, hs, hloans⟩ := (Option.any_eq_true _ _).mp hruns
  have hr := (of_decide_eq_true hloans).symm ▸ List.mem_cons_self
  exact ⟨s, _, hs, hr, rfl, (loans_agree_in_traffic demoReturning_apart demoLoaned_sound
    (Sys.reach_of_runs hs) hr).1⟩

end LibraryPlatform

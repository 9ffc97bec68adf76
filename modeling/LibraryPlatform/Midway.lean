import LibraryPlatform.Conservation
import LibraryPlatform.Reconciliation

/-!
# The dashboard in the middle of the traffic

Of a book that has been deleted nothing is lent or held any more. So as long as none is deleted
while its copies are out, a summary adds up whenever it is asked for.
-/
namespace LibraryPlatform

open KeyedTable Transaction ReservationRepository

variable {n : Nat} {api : Api} {visits : Fin n → Visit} {s₀ : DB} {s s' : Traffic n}
  {D : Discipline DB RowKey} {svc : ReservationService} {env : Env} {t u v v' : DB} {x : UUID}

/-- No copy of the book is on loan or held. -/
structure AllIn (x : UUID) (db : DB) : Prop where
  loans : ∀ r ∈ db.borrowRecords.rows, ¬isLoanOf x r
  holds : ∀ r ∈ db.reservations.rows, ¬isHoldOf x r

theorem settled_iff : Settled t ↔ ∀ x, Withdrawn x t → AllIn x t := by
  have hzero : ∀ x, (t.loans x = 0 ∧ t.holds x = 0) ↔ AllIn x t := by
    intro x
    unfold DB.loans DB.holds
    rw [Int.natCast_eq_zero, Int.natCast_eq_zero, Table.count_eq_zero, Table.count_eq_zero]
    exact ⟨fun h => ⟨h.1, h.2⟩, fun h => ⟨h.loans, h.holds⟩⟩
  exact forall_congr' fun x => imp_congr_right fun _ => hzero x

theorem isLoanOf_book {r : BorrowRecord} (h : isLoanOf x r) : r.bookId = x := by
  simp only [isLoanOf, Bool.and_eq_true, decide_eq_true_eq] at h
  exact h.1

namespace AllIn

variable {bookId : UUID} {expiresAt : Int}

theorem frame (h : AllIn x v) (hl : v'.borrowRecords = v.borrowRecords)
    (hr : v'.reservations = v.reservations) : AllIn x v' :=
  ⟨hl ▸ h.loans, hr ▸ h.holds⟩

theorem putLoan (h : AllIn x v) {id : UUID} {r : BorrowRecord} (hr : ¬isLoanOf x r) :
    AllIn x (v.put (.borrowRecord id) (.borrowRecord r)) := by
  refine ⟨fun q hq => ?_, h.holds⟩
  rcases mem_putBorrowRecord hq with rfl | hq
  · exact hr
  · exact h.loans q hq

theorem putReservation (h : AllIn x v) {id : UUID} {r : Reservation} (hr : ¬isHoldOf x r) :
    AllIn x (v.put (.reservation id) (.reservation r)) := by
  refine ⟨h.loans, fun q hq => ?_⟩
  rcases mem_putReservation hq with rfl | hq
  · exact hr
  · exact h.holds q hq

/-- A copy of another book is passed on. -/
theorem passed (h : AllIn x v) (hne : bookId ≠ x) (hp : Passed expiresAt bookId v v') :
    AllIn x v' := by
  cases hp with
  | @promoted r hr _ =>
    have hbook := (isPendingOf_iff.mp hr).1
    have hother : ¬isHoldOf x
        { r with status := .hold, expiresAt := some (toDatetime expiresAt) } :=
      fun hhold => hne (hbook.symm.trans (isHoldOf_iff.mp hhold).1)
    exact (h.putReservation hother).frame rfl rfl
  | restored => exact h.frame rfl rfl
  | gone => exact h

/-- An open loan is of another book. -/
theorem ne_of_loan (h : AllIn x v) (hb : Balanced v (fun _ => 0)) {id : UUID} {r : BorrowRecord}
    (hr : v.borrowRecords.get id = some r) (hopen : r.status ≠ .returned) : r.bookId ≠ x := by
  intro hbook
  have hmem := Table.mem_of_get hr
  refine h.loans r hmem ?_
  simp [isLoanOf, hbook, isActive_of hopen (hb.loanStatus r hmem)]

theorem ne_of_hold (h : AllIn x v) {id : UUID} {r : Reservation}
    (hr : v.reservations.get id = some r) (hs : r.status = .hold) : r.bookId ≠ x :=
  fun hbook => h.holds r (Table.mem_of_get hr) (isHoldOf_iff.mpr ⟨hbook, hs⟩)

theorem sweptOnce {rest : List Reservation} {n : Nat} (hs : SweptOnce svc env rest n v v')
    (h : AllIn x v) : AllIn x v' := by
  induction hs with
  | nil => exact h
  | cons hget hhold hp _ ih =>
    refine ih (AllIn.passed (h.putReservation ?_) (h.ne_of_hold hget hhold) hp)
    simp [isHoldOf]

theorem orderly {op : Op} (h : AllIn x t) (hw : Withdrawn x t) (hb : Balanced t (fun _ => 0))
    (he : op.Orderly D svc env t u) : AllIn x u := by
  cases op with
  | createBook => rw [he.stored]; exact h.frame rfl rfl
  | updateBook => cases he <;> exact h.frame rfl rfl
  | deleteBook => cases he; exact h.frame rfl rfl
  | borrowBook memberId bookId =>
    obtain ⟨b, hget, hdel⟩ := hw
    have hne : ∀ {w : DB}, BorrowReady D t (getBorrowService svc) env memberId bookId w → w = t →
        bookId ≠ x := by
      rintro w hready rfl rfl
      obtain ⟨b', hget', hdel'⟩ := hready.book
      obtain rfl := Option.some.inj (hget.symm.trans hget')
      cases hdel.symm.trans hdel'
    cases he with
    | held hready _ _ _ _ =>
      exact (h.putReservation (by simp [isHoldOf])).putLoan fun hloan =>
        hne hready rfl (isLoanOf_book hloan)
    | shelf hready _ _ _ _ _ =>
      refine AllIn.putLoan ?_ fun hloan => hne hready rfl ?_
      · exact h.frame rfl rfl
      · exact isLoanOf_book hloan
  | returnBook =>
    cases he with
    | again => exact h
    | passed hget hopen hp =>
      exact (h.putLoan (by simp [isLoanOf])).passed (h.ne_of_loan hb hget hopen) hp
  | renewBook =>
    obtain ⟨r, hget, hopen, _, _, rfl⟩ := he.renewed
    refine h.putLoan fun hloan => h.ne_of_loan hb hget hopen ?_
    exact isLoanOf_book (r := renewedRecord (getBorrowService svc) r r) hloan
  | placeReservation =>
    rw [he.stored]
    exact h.putReservation (by simp [isHoldOf, placedReservation])
  | cancelReservation =>
    cases he with
    | waiting => exact h.putReservation (by simp [isHoldOf])
    | held hget _ hs hp =>
      exact (h.putReservation (by simp [isHoldOf])).passed (h.ne_of_hold hget hs) hp
  | processExpiredHolds =>
    obtain ⟨w, _, hs⟩ := he
    exact sweptOnce hs h

end AllIn

/-! ## Any run -/

/-- None of the visits deletes a book. -/
def NoDeletes (visits : Fin n → Visit) : Prop :=
  ∀ i now credentials env id, visits i ≠ .write now credentials env (.deleteBook id)

theorem anything_kept : Keeping (keeping fun _ => True) api visits :=
  keeping_of fun _ _ _ _ _ => ⟨trivial, fun _ => trivial⟩

/-- No book is deleted on the way. -/
theorem withdrawn_before (hnone : NoDeletes visits)
    (h : Sys.Reach Sys.Any (Traffic.start api visits s₀) s) {i : Fin n} {m : Move RowKey}
    (hs : s.step i m = some s') (hw : Withdrawn x s'.db) : Withdrawn x s.db := by
  rcases anything_kept.move trivial (Traffic.unguarded h) (fun _ _ _ _ _ _ => trivial) hs with
    he | hc
  · rwa [he] at hw
  · generalize hv : visits i = v at hc
    generalize s'.db = t at hc hw
    cases hc with
    | nothing => exact hw
    | op _ hd he =>
      by_contra hnew
      obtain rfl := Op.Effect.withdraws he hw hnew
      cases hd
      exact hnone i _ _ _ _ hv
    | tokens ht =>
      obtain ⟨b, hb, hdel⟩ := hw
      exact ⟨b, (SameStock.tokens ht).books ▸ hb, hdel⟩

theorem settled_reachable (hapart : Apart visits) (hnone : NoDeletes visits)
    (h₀ : Sound api.reservations s₀) (hsettled : Settled s₀)
    (h : Sys.Reach Sys.Any (Traffic.start api visits s₀) s) : Settled s.db := by
  rw [settled_iff] at hsettled ⊢
  induction h with
  | refl => exact hsettled
  | @tail t t' i m hr _ hs ih =>
    intro x hw
    have hwas := withdrawn_before hnone hr hs hw
    have hin := ih x hwas
    rcases sound_kept.move ⟨.refl s₀, h₀⟩ (hapart.reach hr) (hapart.current hr i) hs with he | hc
    · exact he ▸ hin
    · generalize visits i = v at hc
      generalize t'.db = u at hc
      cases hc with
      | nothing => exact hin
      | op _ _ he => exact hin.orderly hwas (sound_reachable hapart h₀ hr).balanced he
      | tokens ht =>
        have hsame := SameStock.tokens ht
        exact hin.frame hsame.borrowRecords hsame.reservations

/-- A summary that the staff ask for while members borrow and return adds up, if no book is deleted
meanwhile and no copy of a deleted book was out before. -/
theorem dashboard_adds_up_in_traffic (hapart : Apart visits) (hnone : NoDeletes visits)
    (h₀ : Sound api.reservations s₀) (hsettled : Settled s₀) {i : Fin n} {now days : Int}
    {credentials : Option HTTPAuthorizationCredentials} {env : InquiryEnv} {r : DashboardSummary}
    (hi : visits i = .ask now credentials env (.getDashboardSummary days))
    (h : Sys.Reach Sys.Any (Traffic.start api visits s₀) s)
    (hr : s.txn i = .ended (.returned (.answer (.summary r)))) :
    r.inventory.totalCopies =
      r.inventory.availableCopies + r.inventory.checkedOutCopies + r.reservations.hold := by
  obtain ⟨a, t, ha, hfrom⟩ := answered_from hi h hr
  cases ha
  have hsound := sound_reachable hapart h₀ hfrom.reached
  have hrec := hsound.balanced.reconciles_iff.mpr
    (settled_reachable hapart hnone h₀ hsettled hfrom.reached)
  obtain ⟨r', hr', hsum⟩ := hrec env.dashboard days
  obtain ⟨_, hcall⟩ := getDashboardSummary_ok hfrom.answer
  obtain rfl : r' = r := Except.ok.inj (congrArg Prod.fst (hr'.symm.trans hcall))
  exact hsum

theorem demoVisits_apart : Apart demoVisits := by
  have hnone : ∀ i id, ¬(demoVisits i).Names id := by
    refine Fin.forall_fin_two.mpr ⟨?_, ?_⟩
    · rintro id ⟨now, credentials, env, h | h⟩ <;> cases h
    · rintro id ⟨now, credentials, env, h | h⟩ <;> cases h
  exact fun i _ id hi => absurd hi (hnone i id)

/-- The librarian of before gets an answer that adds up. -/
theorem dashboard_adds_up_in_traffic_demo :
    ∃ s, (Traffic.start demoApi demoVisits demoCatalog).runs (demoMeanwhile 0 1) = some s ∧
      s.db.borrowRecords.rows.length = 1 ∧ demoSummary.inventory.totalCopies =
        demoSummary.inventory.availableCopies + demoSummary.inventory.checkedOutCopies +
          demoSummary.reservations.hold := by
  have hruns : ((Traffic.start demoApi demoVisits demoCatalog).runs
      (demoMeanwhile 0 1)).any fun s =>
      s.db.borrowRecords.rows.length = 1 ∧
      (s.txn 0).result = some (.answer (.summary demoSummary)) := by decide
  obtain ⟨s, hs, hend⟩ := (Option.any_eq_true _ _).mp hruns
  obtain ⟨hloan, hresult⟩ := of_decide_eq_true hend
  have hnone : NoDeletes demoVisits := by
    refine Fin.forall_fin_two.mpr ⟨?_, ?_⟩ <;> rintro now credentials env id h <;> cases h
  have hsound : Sound demoApi.reservations demoCatalog :=
    demoLog_log.sound_before (.empty _) ⟨demoCatalog, _, demoLoaned⟩
      (List.mem_cons_of_mem _ (List.mem_cons_of_mem _ List.mem_cons_self))
  have hloans : demoCatalog.borrowRecords.rows = [] := by decide
  have hholds : demoCatalog.reservations.rows = [] := by decide
  have hsettled : Settled demoCatalog :=
    settled_iff.mpr fun x _ => ⟨by simp [hloans], by simp [hholds]⟩
  exact ⟨s, hs, hloan, dashboard_adds_up_in_traffic (i := 0) demoVisits_apart hnone hsound hsettled
    rfl (Sys.reach_of_runs hs) (Txn.result_eq_some.mp hresult)⟩

end LibraryPlatform

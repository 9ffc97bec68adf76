import LibraryPlatform.Checkout

/-!
# The hold window at checkout

A hold is good for 48 hours. The sweep looks at `expires_at`; `borrow_book` completes whatever
hold it finds, so until a sweep has run the member can still take up an expired one.
-/
namespace LibraryPlatform

open KeyedTable Transaction ReservationRepository

/-- The hold has not expired. -/
def InWindow (r : Reservation) (now : Int) : Prop := ∀ e, r.expiresAt = some e → now ≤ e

/-- The checkout turns the reservation into COMPLETED. -/
def Completes (svc : ReservationService) (env : Env) (memberId bookId : UUID) (r : Reservation)
    (s : DB) : Prop :=
  ∃ q, (call (Op.run svc env (.borrowBook memberId bookId)) s).2.reservations.get r.id = some q ∧
    q.status = .completed

/-- What `borrow_book` asks before it completes a hold. -/
structure MayTakeUp (svc : ReservationService) (env : Env) (memberId bookId : UUID)
    (r : Reservation) (s : DB) : Prop where
  own : r.memberId = memberId
  book : r.bookId = bookId
  only : s.reservations.rows.filter (isHoldOf bookId) = [r]
  member : ∃ m, s.activeMember memberId = some m ∧ GoodStanding (getBorrowService svc) env m s
  listed : (s.activeBook bookId).isSome
  fresh : s.borrowRecords.get env.newId = none

variable {svc : ReservationService} {env : Env} {memberId bookId : UUID} {r : Reservation} {s : DB}

/-- The checks of a member that have passed. -/
theorem GoodStanding.of_checks {svc : BorrowService} {m : Member}
    (hm : m.membershipStatus = .active) (hc : BorrowChecks svc env m.id s) :
    GoodStanding svc env m s := by
  refine ⟨hm, fun l hl hown hactive => ?_, ?_⟩
  · by_contra hlate
    refine Table.count_eq_zero.mp hc.overdue l hl ?_
    simp [BorrowRecordRepository.isOverdue, hown, hactive, not_le.mp hlate]
  · have hlimit := hc.limit
    rwa [← List.countP_eq_length_filter] at hlimit

theorem BorrowReady.member_ready {svc : BorrowService}
    (h : BorrowReady (alone s) s svc env memberId bookId s) :
    ∃ m, s.activeMember memberId = some m ∧ GoodStanding svc env m s := by
  obtain ⟨m, hget, hdel, hactive⟩ := h.member
  obtain ⟨w, hw, hchecks⟩ := h.checks
  obtain rfl := alone_past hw
  have hid : m.id = memberId := Table.key_of_get hget
  subst hid
  exact ⟨m, activeMember_eq_some.mpr ⟨hget, hdel⟩, .of_checks hactive hchecks⟩

theorem BorrowReady.listed {svc : BorrowService}
    (h : BorrowReady (alone s) s svc env memberId bookId s) : (s.activeBook bookId).isSome := by
  obtain ⟨b, hb⟩ := h.book
  exact Option.isSome_of_eq_some (activeBook_eq_some.mpr hb)

/-- The checkout completes no other reservation than the one it takes up. -/
theorem Completes.may_take_up (hr : r ∈ s.reservations.rows) (hs : r.status = .hold)
    (h : Completes svc env memberId bookId r s) : MayTakeUp svc env memberId bookId r s := by
  obtain ⟨q, hq, hqs⟩ := h
  have hget : s.reservations.get r.id = some r := Table.get_of_mem hr
  have hstays : s.reservations.get r.id ≠ some q := by
    intro hsame
    obtain rfl := Option.some.inj (hget.symm.trans hsame)
    exact absurd (hs.symm.trans hqs) (by decide)
  have hafter := after_op svc env (.borrowBook memberId bookId) s
  generalize (call (Op.run svc env (.borrowBook memberId bookId)) s).2 = s' at hq hafter
  rcases hafter with he | rfl
  · cases he with
    | @held u o hready hu hone ho hown =>
      obtain rfl := alone_past hu
      have hor : o = r := by
        by_contra hne
        refine hstays (Eq.trans ?_ hq)
        refine (Table.get_put_other _ fun hid => hne ?_).symm
        exact List.inj_on_of_nodup_map u.reservations.unique (Table.mem_of_get ho) hr hid.symm
      subst hor
      have hmem : o ∈ u.reservations.rows.filter (isHoldOf bookId) := by
        rw [hone]
        exact List.mem_cons_self
      have hbook := (isHoldOf_iff.mp (List.mem_filter.mp hmem).2).1
      exact ⟨hown, hbook, hone, hready.member_ready, hready.listed, hready.fresh⟩
    | shelf => exact absurd hq hstays
  · exact absurd hq hstays

theorem MayTakeUp.completes (h : MayTakeUp svc env memberId bookId r s) :
    Completes svc env memberId bookId r s := by
  obtain ⟨rfl, rfl, hone, ⟨m, hm, hgood⟩, hlisted, hfresh⟩ := h
  obtain ⟨b, hb⟩ := Option.isSome_iff_exists.mp hlisted
  have hid : m.id = r.memberId := Table.key_of_get (activeMember_eq_some.mp hm).1
  have hover : s.borrowRecords.count (BorrowRecordRepository.isOverdue r.memberId (env.clock 0)) =
      0 := by
    refine Table.count_eq_zero.mpr fun l hl hlate => ?_
    simp only [BorrowRecordRepository.isOverdue, Bool.and_eq_true, decide_eq_true_eq] at hlate
    have hdue := hgood.overdue l hl (hlate.1.1.trans hid.symm) hlate.1.2
    omega
  have hlimit := hgood.limit
  rw [hid, Table.count, List.countP_eq_length_filter] at hlimit
  obtain ⟨loan, s', hcall, hdone, _⟩ :=
    borrow_takes_up hone hb hm hgood.active hover hlimit hfresh
  refine ⟨{ r with status := .completed, expiresAt := none }, ?_, rfl⟩
  rw [hcall]
  exact hdone

/-- A checkout respects the hold window exactly when the hold has not expired, or the checkout
is not one that can take it up: `expires_at` plays no part in it. -/
theorem hold_window_iff (hr : r ∈ s.reservations.rows) (hs : r.status = .hold) (i : Nat) :
    (Completes svc env memberId bookId r s → InWindow r (env.clock i)) ↔
      InWindow r (env.clock i) ∨ ¬MayTakeUp svc env memberId bookId r s := by
  constructor
  · intro hwindow
    by_cases hmay : MayTakeUp svc env memberId bookId r s
    · exact .inl (hwindow hmay.completes)
    · exact .inr hmay
  · rintro (hin | hnot) hc
    · exact hin
    · exact absurd (hc.may_take_up hr hs) hnot

/-- Member 11 takes the hold up two hours after it was given. -/
theorem hold_window_iff_demo :
    Completes ⟨48⟩ (demoEnv 101 (5 * hour)) 11 1
      ⟨200, 11, 1, 2 * hour, some (51 * hour), .hold⟩ demoHeld ∧
    InWindow ⟨200, 11, 1, 2 * hour, some (51 * hour), .hold⟩ (5 * hour) := by
  have hr : (⟨200, 11, 1, 2 * hour, some (51 * hour), .hold⟩ : Reservation) ∈
    demoHeld.reservations.rows := by decide
  have hdone : Completes ⟨48⟩ (demoEnv 101 (5 * hour)) 11 1
      ⟨200, 11, 1, 2 * hour, some (51 * hour), .hold⟩ demoHeld :=
    ⟨⟨200, 11, 1, 2 * hour, none, .completed⟩, by decide, rfl⟩
  refine ⟨hdone, (hold_window_iff hr rfl 1).mpr (.inl fun e he => ?_) hdone⟩
  obtain rfl := Option.some.inj he
  decide

/-- Member 11 comes ten days after the copy has been put on hold; no sweep has run since. -/
theorem expired_hold_completed :
    ¬∀ s, Runs ⟨48⟩ AnyOp s → ∀ r ∈ s.reservations.rows, r.status = .hold →
      ∀ env memberId bookId, Completes ⟨48⟩ env memberId bookId r s →
      InWindow r (env.clock 1) := by
  intro hclaim
  have hr : (⟨200, 11, 1, 2 * hour, some (51 * hour), .hold⟩ : Reservation) ∈
    demoHeld.reservations.rows := by decide
  have hdone : Completes ⟨48⟩ (demoEnv 101 (240 * hour)) 11 1
      ⟨200, 11, 1, 2 * hour, some (51 * hour), .hold⟩ demoHeld :=
    ⟨⟨200, 11, 1, 2 * hour, none, .completed⟩, by decide, rfl⟩
  have hwindow := hclaim demoHeld demoHeld_runs _ hr rfl _ _ _ hdone (51 * hour) rfl
  exact absurd hwindow (by decide)

end LibraryPlatform

import LibraryPlatform.Fifo
import LibraryPlatform.QueuePositions

/-!
# Waiting never gets longer

A position is counted anew from the whole table. Nobody who comes later is ahead of one who
waits already, so that the count only falls, by those who leave the queue ahead.
-/
namespace LibraryPlatform

open KeyedTable Transaction ReservationRepository

variable {svc : ReservationService} {collation : Collation} {t₀ now later : Int} {s s' : DB}
  {q r : Reservation}

/-! ## Over a run -/

/-- From `s` on no reservation has vanished, and none has come back to the queue. -/
structure QueueSince (s u : DB) : Prop where
  kept : ∀ x, u.reservations.get x = none → s.reservations.get x = none
  waited : ∀ q ∈ u.reservations.rows, q.status = .pending →
    s.reservations.get q.id = none ∨ q ∈ s.reservations.rows

namespace QueueSince

theorem refl (s : DB) : QueueSince s s := ⟨fun _ h => h, fun _ h _ => .inr h⟩

theorem op {u v : DB} {op : Op} {env : Env} (h : QueueSince s u) (he : op.Alone u svc env v) :
    QueueSince s v := by
  constructor
  · intro x hx
    have hchange := Op.Alone.change he x
    rw [hx] at hchange
    generalize hu : u.reservations.get x = o at hchange
    cases hchange
    exact h.kept x hu
  · intro q hq hs
    have hchange := Op.Alone.change he q.id
    rw [show v.reservations.get q.id = some q from Table.get_of_mem hq] at hchange
    generalize hu : u.reservations.get q.id = o at hchange
    cases hchange with
    | same => exact h.waited q (Table.mem_of_get hu) hs
    | placed => exact .inl (h.kept q.id hu)
    | _ => cases hs

theorem of_timeline (h : Timeline svc now s later s') : QueueSince s s' := by
  induction h with
  | refl => exact .refl s
  | call _ _ hc ih =>
    rcases call_op hc with ⟨_, _, he⟩ | ⟨_, _, rfl⟩
    · exact ih.op he
    · exact ih
  | accounts _ ha ih =>
    obtain ⟨_, _, rfl⟩ := ha.frame
    exact ⟨ih.kept, ih.waited⟩

end QueueSince

/-- Who is ahead later has been ahead all along. -/
theorem ahead_before (h : Timeline svc t₀ (.empty collation) now s)
    (h' : Timeline svc now s later s') (hr : r ∈ s.reservations.rows)
    (hq : q ∈ s'.reservations.rows) (hahead : isAhead r q) : q ∈ s.reservations.rows := by
  obtain ⟨hs, _, hlt⟩ := isAhead_iff.mp hahead
  rcases (QueueSince.of_timeline h').waited q hq hs with hnew | hold
  · have hfifo := Fifo.of_timeline (.empty t₀ collation) h
    have hplaced := hfifo.placed r hr
    have hlate := (Fifo.of_timeline hfifo.restart h').newer q hq hnew
    omega
  · exact hold

/-- The position falls by the number of those who were ahead and do not wait any more. -/
theorem position_falls (h : Timeline svc t₀ (.empty collation) now s)
    (h' : Timeline svc now s later s') (hr : r ∈ s.reservations.rows) :
    queuePosition r.bookId r.reservedAt s = queuePosition r.bookId r.reservedAt s' +
      s.reservations.count (fun q => isAhead r q && q ∉ s'.reservations.rows) := by
  have hcount := Table.count_eq_add (s := s.reservations) (t := s'.reservations) (p := isAhead r)
    fun q hq hahead => ahead_before h h' hr hq hahead
  change rank s r + 1 = rank s' r + 1 + _
  change rank s r = rank s' r + _ at hcount
  omega

/-! ## One promotion, and one cancellation -/

/-- The promotion of a waiting reservation takes it out of the counts of those behind it. -/
theorem rank_promoted {order : RowOrder Reservation} {p : Reservation} {db : DB}
    (hp : oldestPending order r.bookId db = some p) (expiresAt : Option Int) :
    (rank (db.put (.reservation p.id) (.reservation { p with status := .hold, expiresAt })) r :
      Int) = rank db r - if p.reservedAt < r.reservedAt then 1 else 0 := by
  obtain ⟨hmem, hpending⟩ := oldestPending_mem hp
  obtain ⟨hbook, hs⟩ := isPendingOf_iff.mp hpending
  have hget : db.reservations.get p.id = some p := Table.get_of_mem hmem
  have hrank := rank_leave (r := { p with status := .hold, expiresAt }) hget hs (by simp) r
  simpa only [hbook, true_and] using hrank

theorem rank_ne_zero : rank s r ≠ 0 ↔ ∃ p ∈ s.reservations.rows, isAhead r p := by
  rw [rank, Table.count, ← Nat.pos_iff_ne_zero, List.countP_pos_iff]

/-- Somebody is ahead of `r` exactly when the first of the queue is. -/
theorem oldest_ahead_iff {order : RowOrder Reservation} {p : Reservation} {db : DB}
    (hp : oldestPending order r.bookId db = some p) :
    p.reservedAt < r.reservedAt ↔ ∃ q ∈ db.reservations.rows, isAhead r q := by
  obtain ⟨hmem, hpending⟩ := oldestPending_mem hp
  obtain ⟨hbook, hs⟩ := isPendingOf_iff.mp hpending
  constructor
  · intro hlt
    exact ⟨p, hmem, isAhead_iff.mpr ⟨hs, hbook, hlt⟩⟩
  · rintro ⟨x, hx, hahead⟩
    obtain ⟨hxs, hxb, hlt⟩ := isAhead_iff.mp hahead
    exact lt_of_le_of_lt (oldestPending_le hp hx (isPendingOf_iff.mpr ⟨hxb, hxs⟩)) hlt

/-- A hold is given up, and the copy goes to the first who waits. -/
theorem rank_handed {order : RowOrder Reservation} {expiresAt : Int} {bookId : UUID} {v v' : DB}
    (h : Handed (alone s) s (oldestPending order bookId) expiresAt bookId v v')
    (hbook : bookId = r.bookId) (hr : r ∈ v.reservations.rows) (hs : r.status = .pending) :
    rank v' r + 1 = rank v r ↔ ∃ p ∈ v.reservations.rows, isAhead r p := by
  subst hbook
  have hwaits : isPendingOf r.bookId r := isPendingOf_iff.mpr ⟨rfl, hs⟩
  cases h with
  | @promoted w p hw hp _ =>
    obtain rfl := alone_saw hw
    have hrank := rank_promoted hp (some (toDatetime expiresAt))
    rw [← oldest_ahead_iff hp]
    change rank (DB.put _ _ w) r + 1 = _ ↔ _
    split at hrank
    · rename_i hlt
      exact ⟨fun _ => hlt, fun _ => by omega⟩
    · rename_i hle
      exact ⟨fun _ => by omega, fun hlt => absurd hlt hle⟩
  | restored hw hnone =>
    obtain rfl := alone_saw hw
    exact absurd hwaits (oldestPending_none hnone r hr)
  | gone hw hnone =>
    obtain rfl := alone_saw hw
    exact absurd hwaits (oldestPending_none hnone r hr)

theorem rank_cancelled {env : Env} {memberId : UUID}
    (h : Cancelled (alone s) s svc env q.id memberId s s') (hq : q ∈ s.reservations.rows)
    (hbook : q.bookId = r.bookId) (hlt : q.reservedAt < r.reservedAt)
    (hr : r ∈ s.reservations.rows) (hs : r.status = .pending) :
    rank s' r + 1 = rank s r ↔
      q.status = .pending ∨ ∃ p ∈ s.reservations.rows, isAhead r p := by
  have hget : s.reservations.get q.id = some q := Table.get_of_mem hq
  cases h with
  | @waiting o ho _ hos =>
    obtain rfl : q = o := Option.some.inj (hget.symm.trans ho)
    have hrank := rank_leave (r := { q with status := .cancelled, expiresAt := none })
      hget hos (by simp) r
    rw [if_pos ⟨hbook, hlt⟩] at hrank
    have hpos : 0 < rank s r :=
      List.countP_pos_iff.mpr ⟨q, hq, isAhead_iff.mpr ⟨hos, hbook, hlt⟩⟩
    exact ⟨fun _ => .inl hos, fun _ => by omega⟩
  | @held o _ ho _ hos hh =>
    obtain rfl : q = o := Option.some.inj (hget.symm.trans ho)
    have hrank := rank_put (r := { q with status := .cancelled, expiresAt := none })
      hget (by simp [hos]) (by simp) r
    have hwaits := (pending_put (r := { q with status := .cancelled, expiresAt := none })
      hget (by simp [hos]) (by simp) hs).mpr hr
    rw [← hrank, rank_handed hh hbook hwaits hs, ← rank_ne_zero, hrank, rank_ne_zero, hos]
    simp

/-- In a run whose clock does not go back the position of one who waits never grows; it falls by
the number of those ahead who are promoted or cancelled. A promotion of one ahead makes it fall
by one. A cancellation ahead does so exactly when the cancelled reservation waited itself, or
somebody ahead still waits who is promoted in its place. -/
theorem waiting_never_longer (h : Timeline svc t₀ (.empty collation) now s)
    (hr : r ∈ s.reservations.rows) (hs : r.status = .pending) :
    (∀ later s', Timeline svc now s later s' →
      queuePosition r.bookId r.reservedAt s' ≤ queuePosition r.bookId r.reservedAt s ∧
      queuePosition r.bookId r.reservedAt s = queuePosition r.bookId r.reservedAt s' +
        s.reservations.count (fun q => isAhead r q && q ∉ s'.reservations.rows)) ∧
    (∀ order t p, oldestPending order r.bookId s = some p → p.reservedAt < r.reservedAt →
      ∃ s', call (svc.promoteNextReservation order t r.bookId) s = (.ok (), s') ∧
      queuePosition r.bookId r.reservedAt s' + 1 = queuePosition r.bookId r.reservedAt s) ∧
    ∀ q ∈ s.reservations.rows, q.bookId = r.bookId → q.reservedAt < r.reservedAt →
    ∀ env memberId reply s',
      call (Op.run svc env (.cancelReservation q.id memberId)) s = (.ok reply, s') →
    (queuePosition r.bookId r.reservedAt s' + 1 = queuePosition r.bookId r.reservedAt s ↔
      q.status = .pending ∨ ∃ p ∈ s.reservations.rows, isAhead r p) := by
  refine ⟨fun later s' h' => ?_, fun order t p hp hlt => ?_,
    fun q hq hbook hlt env memberId reply s' hc => ?_⟩
  · have hfalls := position_falls h h' hr
    exact ⟨by omega, hfalls⟩
  · refine ⟨_, call_ok (exec_promoteNextReservation_waiting svc order t s hp), ?_⟩
    have hrank := rank_promoted hp (some (toDatetime (t + svc.holdDurationHours * hour)))
    rw [if_pos hlt] at hrank
    change rank (DB.put _ _ s) r + 1 + 1 = rank s r + 1
    omega
  · rcases call_op hc with ⟨_, _, hcancelled⟩ | ⟨_, he, _⟩
    · have hrank := rank_cancelled hcancelled hq hbook hlt hr hs
      change rank s' r + 1 + 1 = rank s r + 1 ↔ _
      rw [Nat.add_right_cancel_iff, hrank]
    · cases he

/-- A copy is held for 11, and 12 waits since the third hour; 13 comes at `t`. -/
def demoThree (t : Int) : DB :=
  serial ⟨48⟩ [(demoEnv 1 0, .createBook "Emma" "Austen" "9780141439587" 1 none),
    (demoEnv 100 hour, .borrowBook 10 1),
    (demoEnv 200 (2 * hour), .placeReservation 11 1),
    (demoEnv 201 (3 * hour), .placeReservation 12 1),
    (demoEnv 202 t, .placeReservation 13 1),
    (demoEnv 0 (5 * hour), .returnBook 100)] demoStart

theorem demoThree_timeline {t : Int} (ht : 3 * hour ≤ t) (ht' : t ≤ 5 * hour) :
    Timeline ⟨48⟩ 0 (.empty .ignoringCase) (5 * hour) (demoThree t) := by
  have h : Timeline ⟨48⟩ 0 (.empty .ignoringCase) 0 demoStart :=
    .accounts .refl ⟨⟨.empty, _, rfl⟩, by simp [DB.empty], by decide⟩
  exact (((((h.demo (le_refl 0) 1 _).demo (by decide) 100 _).demo (by decide) 200 _).demo
    (by decide) 201 _).demo ht 202 _).demo ht' 0 _

/-- 13 has come an hour after 12, and moves up when 11 gives the hold up. -/
theorem waiting_never_longer_demo :
    ∃ s', (call (Op.run ⟨48⟩ (demoEnv 0 (6 * hour)) (.cancelReservation 200 11))
      (demoThree (4 * hour))).2 = s' ∧
    queuePosition 1 (4 * hour) s' + 1 = queuePosition 1 (4 * hour) (demoThree (4 * hour)) := by
  have hq : (⟨200, 11, 1, 2 * hour, some (53 * hour), .hold⟩ : Reservation) ∈
    (demoThree (4 * hour)).reservations.rows := by decide
  have hr : (⟨202, 13, 1, 4 * hour, none, .pending⟩ : Reservation) ∈
    (demoThree (4 * hour)).reservations.rows := by decide
  have hwaits := waiting_never_longer (demoThree_timeline (by decide) (by decide)) hr rfl
  have hsome : (call (Op.run ⟨48⟩ (demoEnv 0 (6 * hour)) (.cancelReservation 200 11))
    (demoThree (4 * hour))).1.toOption.isSome := by decide
  rcases hcall : call (Op.run ⟨48⟩ (demoEnv 0 (6 * hour)) (.cancelReservation 200 11))
    (demoThree (4 * hour)) with ⟨reply, s'⟩
  rw [hcall] at hsome
  cases reply with
  | error e => cases hsome
  | ok a =>
    have hmoves := hwaits.2.2 _ hq rfl (by decide) _ _ _ _ hcall
    have hahead : ∃ p ∈ (demoThree (4 * hour)).reservations.rows,
      isAhead ⟨202, 13, 1, 4 * hour, none, .pending⟩ p := by decide
    exact ⟨s', rfl, hmoves.mpr (.inr hahead)⟩

/-- 13 has come within a second of 12, and does not move up. -/
theorem tied_waiter_stays :
    ¬∀ collation now s, Timeline ⟨48⟩ 0 (.empty collation) now s →
      ∀ r ∈ s.reservations.rows, r.status = .pending →
      ∀ q ∈ s.reservations.rows, q.bookId = r.bookId → q.reservedAt < r.reservedAt →
      ∀ env later memberId reply s', Ticks now env later →
      call (Op.run ⟨48⟩ env (.cancelReservation q.id memberId)) s = (.ok reply, s') →
      r ∈ s'.reservations.rows →
      queuePosition r.bookId r.reservedAt s' + 1 = queuePosition r.bookId r.reservedAt s := by
  intro hclaim
  have hq : (⟨200, 11, 1, 2 * hour, some (53 * hour), .hold⟩ : Reservation) ∈
    (demoThree (3 * hour + 200000)).reservations.rows := by decide
  have hr : (⟨202, 13, 1, 3 * hour, none, .pending⟩ : Reservation) ∈
    (demoThree (3 * hour + 200000)).reservations.rows := by decide
  have hsome : ∃ reply, (call (Op.run ⟨48⟩ (demoEnv 0 (6 * hour)) (.cancelReservation 200 11))
    (demoThree (3 * hour + 200000))).1 = .ok reply := ⟨_, rfl⟩
  obtain ⟨reply, hreply⟩ := hsome
  have hlater : 5 * hour ≤ 6 * hour := by decide
  have hmoves := hclaim _ _ _ (demoThree_timeline (by decide) (by decide)) _ hr rfl _ hq rfl
    (by decide) (demoEnv 0 (6 * hour)) (6 * hour) 11 reply _ ⟨fun _ => hlater, fun _ => le_rfl⟩
    (Prod.ext hreply rfl) (by decide)
  exact absurd hmoves (by decide)

end LibraryPlatform

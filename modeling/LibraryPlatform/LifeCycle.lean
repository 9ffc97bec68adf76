import LibraryPlatform.Concurrency

/-!
# The life of a reservation

Every writer of a status has read it under the lock of the reservation's row, so that
whatever the interleaving, the committed changes are those of the state machine below.
-/
namespace LibraryPlatform

open KeyedTable Transaction

/-- The call makes the loan that the reservation was for. -/
structure Lends (c : Call) (s t : DB) (r : Reservation) : Prop where
  call : c.op = .borrowBook r.memberId r.bookId
  fresh : s.borrowRecords.get c.env.newId = none
  loan : ∃ l, t.borrowRecords.get c.env.newId = some l ∧ l.memberId = r.memberId ∧
    l.bookId = r.bookId ∧
    l.status = .borrowed

/-- How a commit of the call `c`, from `s` to `t`, may change one row of the reservations. -/
inductive StatusChange (c : Call) (s t : DB) : Option Reservation → Option Reservation → Prop
  | same {o : Option Reservation} : StatusChange c s t o o
  | placed {r : Reservation} : c.op = .placeReservation r.memberId r.bookId → r.status = .pending →
      r.expiresAt = none → StatusChange c s t none (some r)
  | promoted {r : Reservation} {e : Int} : r.status = .pending →
      StatusChange c s t (some r) (some { r with status := .hold, expiresAt := some e })
  | cancelled {r : Reservation} : c.op = .cancelReservation r.id r.memberId → r.status = .pending ∨
      r.status = .hold →
      StatusChange c s t (some r) (some { r with status := .cancelled, expiresAt := none })
  | completed {r : Reservation} : Lends c s t r → r.status = .hold →
      StatusChange c s t (some r) (some { r with status := .completed, expiresAt := none })
  | expired {r : Reservation} {e : Int} : c.op = .processExpiredHolds → r.status = .hold →
      r.expiresAt = some e →
      e < c.env.clock 0 → StatusChange c s t (some r)
        (some { r with status := .expired, expiresAt := none })

namespace StatusChange

variable {c : Call} {s t : DB}

/-- CANCELLED, COMPLETED and EXPIRED are final. -/
theorem final {r : Reservation} {o : Option Reservation} (h : StatusChange c s t (some r) o)
    (hr : r.status.isActive = false) : o = some r := by
  cases h with
  | same => rfl
  | promoted hs => simp [hs, ReservationStatus.isActive] at hr
  | cancelled _ hs => rcases hs with hs | hs <;> simp [hs, ReservationStatus.isActive] at hr
  | completed _ hs => simp [hs, ReservationStatus.isActive] at hr
  | expired _ hs => simp [hs, ReservationStatus.isActive] at hr

theorem dated {o : Option Reservation} {q : Reservation} (h : StatusChange c s t o (some q))
    (ho : ∀ r, o = some r → (r.expiresAt.isSome ↔ r.status = .hold)) :
    q.expiresAt.isSome ↔ q.status = .hold := by
  cases h with
  | same => exact ho q rfl
  | placed _ hs he => simp [hs, he]
  | _ => simp

end StatusChange

/-- What handing on a copy does to a row; `P` is what is known of whoever is next. -/
theorem Handed.row {D : Discipline DB RowKey} {s v v' : DB} {next : DB → Option Reservation}
    {expiresAt : Int} {bookId : UUID} (h : Handed D s next expiresAt bookId v v')
    {P : Reservation → Prop} (hnext : ∀ w r, next w = some r → P r) (x : UUID) :
    v'.reservations.get x = v.reservations.get x ∨ ∃ r e, v.reservations.get x = some r ∧ P r ∧
    v'.reservations.get x = some { r with status := .hold, expiresAt := some e } := by
  cases h with
  | @promoted w r _ hn hget =>
    by_cases hx : x = r.id
    · subst hx
      exact .inr ⟨r, _, hget, hnext w r hn, Table.get_put_same _ _⟩
    · exact .inl (Table.get_put_other _ hx)
  | restored => exact .inl rfl
  | gone => exact .inl rfl

section

variable {D : Discipline DB RowKey} {c : Call} {s₀ t₀ s v v' : DB} {next : DB → Option Reservation}
  {expiresAt : Int} {bookId : UUID}

theorem Handed.change (h : Handed D s next expiresAt bookId v v')
    (hnext : ∀ w r, next w = some r → r.status = .pending) (x : UUID) :
    StatusChange c s₀ t₀ (v.reservations.get x) (v'.reservations.get x) := by
  rcases h.row hnext x with he | ⟨r, e, hr, hs, hr'⟩
  · rw [he]
    exact .same
  · rw [hr, hr']
    exact .promoted hs

/-- One row is written. -/
theorem StatusChange.write {id : UUID} {r : Reservation}
    (h : StatusChange c s₀ t₀ (v.reservations.get id) (some { r with id := id })) (x : UUID) :
    StatusChange c s₀ t₀ (v.reservations.get x)
    ((v.put (.reservation id) (.reservation r)).reservations.get x) := by
  rw [get_putReservation]
  split
  · rename_i hx
    exact hx ▸ h
  · exact .same

/-- A row leaves the queue and the holds, and the copy it held is handed on. -/
theorem Handed.change_after {id : UUID} {r r' : Reservation}
    (h : Handed D s next expiresAt bookId (v.put (.reservation id) (.reservation r')) v')
    (hnext : ∀ w r, next w = some r → r.status = .pending) (hget : v.reservations.get id = some r)
    (hs : r'.status ≠ .pending) (hc : StatusChange c s₀ t₀ (some r) (some { r' with id := id }))
    (x : UUID) : StatusChange c s₀ t₀ (v.reservations.get x) (v'.reservations.get x) := by
  have hput := get_putReservation v id x r'
  by_cases hx : x = id
  · simp only [hx, ↓reduceIte] at hput
    rw [hx, hget]
    rcases h.row hnext id with he | ⟨q, _, hq, hp, _⟩
    · rw [he, hput]
      exact hc
    · cases hput.symm.trans hq
      exact absurd hp hs
  · simp only [hx, ↓reduceIte] at hput
    rw [← hput]
    exact h.change hnext x

end

theorem oldestPending_status {order : RowOrder Reservation} {bookId : UUID} (w : DB)
    (r : Reservation) (h : ReservationRepository.oldestPending order bookId w = some r) :
    r.status = .pending :=
  (isPendingOf_iff.mp (oldestPending_mem h).2).2

/-- The rows of a sweep: those it found expired, and those it promotes. -/
theorem Expiring.row {D : Discipline DB RowKey} {s v v' : DB} {svc : ReservationService} {env : Env}
    {rest : List Reservation} {n : Nat} (h : Expiring D s svc env rest n v v')
    (hrest : ∀ r ∈ rest, v.reservations.get r.id = some r ∧ r.status = .hold)
    (hids : (rest.map Reservation.id).Nodup) (x : UUID) :
    v'.reservations.get x = v.reservations.get x ∨
    (∃ r e, v.reservations.get x = some r ∧ r.status = .pending ∧
      v'.reservations.get x = some { r with status := .hold, expiresAt := some e }) ∨
    ∃ r ∈ rest, r.id = x ∧
    v'.reservations.get x = some { r with status := .expired, expiresAt := none } := by
  induction h with
  | nil => exact .inl rfl
  | @cons r rest n v v' v'' hget hh _ ih =>
    obtain ⟨hnew, hids⟩ := List.nodup_cons.mp hids
    have hput : ∀ y, (v.put (.reservation r.id)
        (.reservation { r with status := .expired, expiresAt := none })).reservations.get y =
        if y = r.id then some { r with status := .expired, expiresAt := none }
          else v.reservations.get y :=
      fun y => Table.get_put _ _ y
    have hrest' : ∀ q ∈ rest, v'.reservations.get q.id = some q ∧ q.status = .hold := by
      intro q hq
      obtain ⟨hqget, hqs⟩ := hrest q (List.mem_cons_of_mem _ hq)
      have hne : q.id ≠ r.id := fun he => hnew (List.mem_map.mpr ⟨q, hq, he⟩)
      exact ⟨hh.keeps_hold oldestPending_status (by rw [hput]; simp [hne, hqget]) hqs, hqs⟩
    rcases hh.row oldestPending_status x with he | ⟨p, e, hp, hps, hp'⟩
    · rw [hput] at he
      by_cases hx : x = r.id
      · simp only [hx, ↓reduceIte] at he
        refine .inr (.inr ⟨r, List.mem_cons_self, hx.symm, ?_⟩)
        rcases ih hrest' hids with h' | ⟨q, _, hq, hqs, _⟩ | ⟨q, hq, hqx, _⟩
        · rw [h', hx, he]
        · rw [hx, he] at hq
          cases hq
          cases hqs
        · exact absurd (List.mem_map.mpr ⟨q, hq, hqx.trans hx⟩) hnew
      · simp only [hx, ↓reduceIte] at he
        rw [← he]
        rcases ih hrest' hids with h' | h' | ⟨q, hq, h'⟩
        · exact .inl h'
        · exact .inr (.inl h')
        · exact .inr (.inr ⟨q, List.mem_cons_of_mem _ hq, h'⟩)
    · rw [hput] at hp
      by_cases hx : x = r.id
      · simp only [hx, ↓reduceIte, Option.some.injEq] at hp
        rw [← hp] at hps
        cases hps
      · simp only [hx, ↓reduceIte] at hp
        refine .inr (.inl ⟨p, e, hp, hps, ?_⟩)
        rcases ih hrest' hids with h' | ⟨q, _, hq, hqs, _⟩ | ⟨q, hq, rfl, _⟩
        · rw [h', hp']
        · rw [hp'] at hq
          cases hq
          cases hqs
        · obtain ⟨hqget, hqs⟩ := hrest q (List.mem_cons_of_mem _ hq)
          cases hqget.symm.trans hp
          rw [hps] at hqs
          cases hqs

variable {D : Discipline DB RowKey} {guard : Guard} {svc : ReservationService} {c : Call} {s t : DB}

theorem Borrowed.change {memberId bookId : UUID} (hc : c.op = .borrowBook memberId bookId)
    (h : Borrowed D s (getBorrowService svc) c.env memberId bookId s t) (x : UUID) :
    StatusChange c s t (s.reservations.get x) (t.reservations.get x) := by
  cases h with
  | @held u r hready _ hone hget hmember =>
    have hr : r ∈ u.reservations.rows.filter
      (ReservationRepository.isHoldOf bookId) := by rw [hone]; simp
    obtain ⟨hbook, hs⟩ := isHoldOf_iff.mp (List.mem_filter.mp hr).2
    refine StatusChange.write (hget ▸ .completed ⟨?_, hready.fresh,
      borrowedRecord (getBorrowService svc) c.env memberId bookId, ?_⟩ hs) x
    · rw [hc, hmember, hbook]
    · exact ⟨by rw [get_putBorrowRecord]; simp [borrowedRecord], hmember.symm, hbook.symm, rfl⟩
  | shelf => exact .same

/-- The changes that one commit makes. -/
theorem Call.Commits.change (h : c.Commits D guard svc s t) (x : UUID) :
    StatusChange c s t (s.reservations.get x) (t.reservations.get x) := by
  obtain ⟨op, env⟩ := c
  cases op with
  | createBook => rw [h.stored]; exact .same
  | updateBook => cases h <;> exact .same
  | deleteBook => cases h; exact .same
  | borrowBook => exact h.change rfl x
  | returnBook =>
    cases h with
    | again => exact .same
    | handed _ _ _ _ _ _ hh => exact hh.change (fun w r hr =>
        (isPendingOf_iff.mp (waiting_pending hr)).2) x
  | renewBook => cases h; exact .same
  | placeReservation memberId bookId =>
    rw [h.stored]
    refine StatusChange.write ?_ x
    rw [h.fresh]
    exact .placed rfl rfl rfl
  | cancelReservation id memberId =>
    cases h with
    | @waiting r hget hmember hs =>
      obtain rfl : r.id = id := Table.key_of_get hget
      subst hmember
      refine StatusChange.write ?_ x
      rw [hget]
      exact .cancelled rfl (.inl hs)
    | @held r _ hget hmember hs hh =>
      obtain rfl : r.id = id := Table.key_of_get hget
      subst hmember
      exact hh.change_after oldestPending_status hget (by simp) (.cancelled rfl (.inr hs)) x
  | processExpiredHolds =>
    obtain ⟨w, _, hrows, he⟩ := h
    have hhold : ∀ r ∈ expiredHolds env w, s.reservations.get r.id = some r ∧ r.status = .hold :=
      fun r hr => ⟨hrows r hr, (mem_expiredHolds.mp hr).2.1⟩
    rcases he.row hhold (expiredHolds_nodup env w) x with h' | ⟨r, e, hr, hs,
      hr'⟩ | ⟨r, hr, rfl, hr'⟩
    · rw [h']
      exact .same
    · rw [hr, hr']
      exact .promoted hs
    · obtain ⟨_, hs, e, he, hlt⟩ := mem_expiredHolds.mp hr
      rw [hrows r hr, hr']
      exact .expired rfl hs he hlt

theorem Op.Alone.change {op : Op} {env : Env} (h : op.Alone s svc env t) (x : UUID) :
    StatusChange ⟨op, env⟩ s t (s.reservations.get x) (t.reservations.get x) :=
  Call.Commits.change (c := ⟨op, env⟩) h x

/-- `expires_at` is set exactly when the status is HOLD. -/
def Dated (db : DB) : Prop :=
  ∀ id r, db.reservations.get id = some r → (r.expiresAt.isSome ↔ r.status = .hold)

theorem Dated.commits (hs : Dated s) (h : c.Commits D guard svc s t) : Dated t := by
  intro id q hq
  have hchange := h.change id
  rw [hq] at hchange
  exact hchange.dated (hs id)

variable {n : Nat} {calls : Fin n → Call} {s₀ : DB} {s s' : Library n}

theorem dated_reachable (hempty : s₀.reservations = .empty)
    (h : Sys.Reach Sys.Any (Library.start svc calls s₀) s) : Dated s.db :=
  library_invariant (fun _ _ _ hc hs => hs.commits hc) (by simp [Dated, hempty]) h

theorem final_stays (h : Sys.Reach Sys.Any (Library.start svc calls s₀) s)
    (h' : Sys.Reach Sys.Any s s') {r : Reservation} (hr : s.db.reservations.get r.id = some r)
    (hs : r.status.isActive = false) : s'.db.reservations.get r.id = some r := by
  refine library_kept (P := fun db => db.reservations.get r.id = some r) h
    (fun i u v hc hu => ?_) hr h'
  have hchange := hc.change r.id
  rw [hu] at hchange
  exact hchange.final hs

/-- Whatever the interleaving, from a store without reservations: `expires_at` marks the
holds, every move changes the rows as the state machine allows, and what has reached a
final status keeps it. -/
theorem reservation_life_cycle (hempty : s₀.reservations = .empty)
    (h : Sys.Reach Sys.Any (Library.start svc calls s₀) s) :
    (∀ r ∈ s.db.reservations.rows, r.expiresAt.isSome ↔ r.status = .hold) ∧
    (∀ i m s', s.step i m = some s' →
      ∀ id, StatusChange (calls i) s.db s'.db (s.db.reservations.get id)
    (s'.db.reservations.get id)) ∧ ∀ s', Sys.Reach Sys.Any s s' →
    ∀ r ∈ s.db.reservations.rows, r.status ∈ [ReservationStatus.cancelled, .completed, .expired] →
    r ∈ s'.db.reservations.rows := by
  refine ⟨fun r hr => dated_reachable hempty h r.id r (Table.get_of_mem hr),
    fun i m s' hs id => ?_, ?_⟩
  · rcases library_step h hs with he | hc
    · rw [he]
      exact .same
    · exact hc.change id
  · intro s' h' r hr hs
    have hfinal : r.status.isActive = false := by
      cases hstatus : r.status <;> simp [hstatus, ReservationStatus.isActive] at hs ⊢
    exact Table.mem_of_get (final_stays h h' (Table.get_of_mem hr) hfinal)

/-- A member reserves a book that is out, and then cancels. -/
def demoCanceller : Fin 2 → Call
  | 0 => ⟨.placeReservation 11 1, demoEnv 200 (2 * hour)⟩
  | 1 => ⟨.cancelReservation 200 11, demoEnv 0 (3 * hour)⟩

def demoLent : DB :=
  serial ⟨48⟩ [(demoEnv 1 0, .createBook "Emma" "Austen" "9780141439587" 1 none),
    (demoEnv 100 hour, .borrowBook 10 1)] demoStart

def demoCancel : List (Fin 2 × Move RowKey) :=
  [(0, .acquire (.book 1)), (0, .run), (0, .run), (0, .acquire (.member 11)), (0, .run), (0, .run),
    (0, .run), (0, .run),
    (1, .acquire (.reservation 200)), (1, .run), (1, .run), (1, .run)]

theorem reservation_life_cycle_cancelled :
    ∃ s : Library 2, (Library.start ⟨48⟩ demoCanceller demoLent).runs demoCancel = some s ∧
    ∀ s', Sys.Reach Sys.Any s s' →
    ⟨200, 11, 1, 2 * hour, none, .cancelled⟩ ∈ s'.db.reservations.rows := by
  have hsome : (((Library.start ⟨48⟩ demoCanceller demoLent).runs demoCancel).map fun s =>
      s.db.reservations.rows) =
    some [⟨200, 11, 1, 2 * hour, none, .cancelled⟩] := by decide
  obtain ⟨s, hs, hrows⟩ := Option.map_eq_some_iff.mp hsome
  refine ⟨s, hs, fun s' h' => ?_⟩
  have hreach : Sys.Reach Sys.Any (Library.start ⟨48⟩ demoCanceller demoLent) s :=
    Sys.reach_of_runs hs
  have hlife := reservation_life_cycle (by rfl) hreach
  exact hlife.2.2 s' h' _ (by rw [hrows]; exact List.mem_cons_self) (by decide)

end LibraryPlatform

import LibraryPlatform.Ranking
import LibraryPlatform.Sweep

/-!
# Queue positions

`compute_queue_position` counts those who reserved strictly earlier, and a promotion takes the
first in the order of `reserved_at`. The column keeps whole seconds, so two may tie.
-/
namespace LibraryPlatform

open KeyedTable Transaction ReservationRepository Ranking

/-- Who waits for the book. -/
def pendingOf (bookId : UUID) (db : DB) : List Reservation :=
  db.reservations.rows.filter (isPendingOf bookId)

/-- The promotion puts `r` on hold, and leaves every other reservation as it is. -/
def Promotes (svc : ReservationService) (order : RowOrder Reservation) (now : Int) (bookId : UUID)
    (r : Reservation) (s : DB) : Prop :=
  ∃ s', call (svc.promoteNextReservation order now bookId) s = (.ok (), s') ∧
    ∀ x, s'.reservations.get x =
      if x = r.id then
        some { r with
          status := .hold
          expiresAt := some (toDatetime (now + svc.holdDurationHours * hour)) }
      else s.reservations.get x

/-- The positions number the queue from 1 on, and the first is promoted next. -/
structure Numbered (svc : ReservationService) (bookId : UUID) (s : DB) : Prop where
  positions : ((pendingOf bookId s).map fun r => queuePosition bookId r.reservedAt s).Perm
    (List.range' 1 (pendingOf bookId s).length)
  promoted : ∀ r ∈ pendingOf bookId s,
    call (computeQueuePosition bookId r.reservedAt) s = (.ok 1, s) →
    ∀ order now, Promotes svc order now bookId r s

variable {svc : ReservationService} {bookId : UUID} {s : DB} {r : Reservation}

/-- A position is one more than the rank among the times at which the book was reserved. -/
theorem queuePosition_eq (bookId : UUID) (t : Int) (s : DB) :
    queuePosition bookId t s = rankIn ((pendingOf bookId s).map Reservation.reservedAt) t + 1 := by
  rw [rankIn, List.countP_map, pendingOf, List.countP_filter]
  refine congrArg (· + 1) (List.countP_congr fun q _ => ?_)
  simp [and_comm]

theorem positions_iff (bookId : UUID) (s : DB) :
    ((pendingOf bookId s).map fun r => queuePosition bookId r.reservedAt s).Perm
      (List.range' 1 (pendingOf bookId s).length) ↔
    ((pendingOf bookId s).map Reservation.reservedAt).Nodup := by
  have hranks := ranks_perm_range'_iff ((pendingOf bookId s).map Reservation.reservedAt)
  rw [List.map_map, List.length_map] at hranks
  rw [← hranks]
  simp only [queuePosition_eq, Function.comp_def]

/-- Whoever comes first without a tie is promoted, whatever the order of the rows. -/
theorem promotes_first (hr : r ∈ pendingOf bookId s)
    (hfirst : ∀ q ∈ pendingOf bookId s, q ≠ r → r.reservedAt < q.reservedAt)
    (order : RowOrder Reservation) (now : Int) : Promotes svc order now bookId r s := by
  obtain ⟨hmem, hp⟩ := List.mem_filter.mp hr
  cases hq : oldestPending order bookId s with
  | none => exact absurd hp (oldestPending_none hq r hmem)
  | some q =>
    have hqr : q = r := by
      by_contra hne
      have hlt := hfirst q (List.mem_filter.mpr (oldestPending_mem hq)) hne
      exact absurd (oldestPending_le hq hmem hp) (not_le.mpr hlt)
    subst hqr
    have hexec := exec_promoteNextReservation_waiting svc order now s hq
    exact ⟨_, call_ok hexec, fun x => get_putReservation s q.id x _⟩

/-- The positions number the queue of a book, and tell who is promoted next, exactly when no two
who wait for it reserved it in the same second. -/
theorem positions_number_queue_iff (svc : ReservationService) (bookId : UUID) (s : DB) :
    Numbered svc bookId s ↔ ((pendingOf bookId s).map Reservation.reservedAt).Nodup := by
  constructor
  · intro h
    exact (positions_iff bookId s).mp h.positions
  · intro h
    refine ⟨(positions_iff bookId s).mpr h, fun r hr hcall => promotes_first hr fun q hq hne => ?_⟩
    have hpos : queuePosition bookId r.reservedAt s = 1 :=
      Except.ok.inj (congrArg Prod.fst hcall)
    rw [queuePosition_eq, Nat.add_eq_right, rankIn_eq_zero] at hpos
    have hle := hpos q.reservedAt (List.mem_map_of_mem hq)
    exact lt_of_le_of_ne hle fun he => hne (List.inj_on_of_nodup_map h hq hr he.symm)

/-- The only copy is out; 11 and 12 reserve it within one second. -/
def demoTied : DB :=
  serial ⟨48⟩ [(demoEnv 1 0, .createBook "Emma" "Austen" "9780141439587" 1 none),
    (demoEnv 100 hour, .borrowBook 10 1),
    (demoEnv 200 (2 * hour), .placeReservation 11 1),
    (demoEnv 201 (2 * hour + 200000), .placeReservation 12 1)] demoStart

theorem demoTied_timeline :
    Timeline ⟨48⟩ 0 (.empty .ignoringCase) (2 * hour + 200000) demoTied := by
  have h : Timeline ⟨48⟩ 0 (.empty .ignoringCase) 0 demoStart :=
    .accounts .refl ⟨⟨.empty, _, rfl⟩, by simp [DB.empty], by decide⟩
  exact (((h.demo (le_refl 0) 1 _).demo (by decide) 100 _).demo (by decide) 200 _).demo
    (by decide) 201 _

/-- Both who wait are told that they are first. -/
theorem positions_tie :
    ¬∀ collation now s, Timeline ⟨48⟩ 0 (.empty collation) now s →
      ∀ bookId, Numbered ⟨48⟩ bookId s := by
  intro hclaim
  have hnumbered := hclaim _ _ _ demoTied_timeline 1
  have htied := (positions_iff 1 demoTied).mp hnumbered.positions
  exact absurd htied (by decide)

end LibraryPlatform

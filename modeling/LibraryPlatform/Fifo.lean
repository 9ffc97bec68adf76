import LibraryPlatform.Queue

/-!
# First come, first served over whole runs

Runs with a clock that does not go back. The journal lists the promotions in the order
in which they were made.
-/
namespace LibraryPlatform

open KeyedTable Transaction ReservationRepository

/-- The clock readings of a call that starts at `now` or later and ends by `later`. -/
structure Ticks (now : Int) (env : Env) (later : Int) : Prop where
  start : ∀ i, now ≤ env.clock i
  stop : ∀ i, env.clock i ≤ later

/-- The states that a run from `s₀` at `t₀` can come to, with the time. -/
inductive Timeline (svc : ReservationService) (t₀ : Int) (s₀ : DB) : Int → DB → Prop
  | refl : Timeline svc t₀ s₀ t₀ s₀
  | call {now later : Int} {s s' : DB} {op : Op} {r : Except Exc Reply} {env : Env} :
      Timeline svc t₀ s₀ now s → Ticks now env later → call (op.run svc env) s = (r, s') →
        Timeline svc t₀ s₀ later s'
  | accounts {now : Int} {s s' : DB} : Timeline svc t₀ s₀ now s → s.Accounts s' →
      Timeline svc t₀ s₀ now s'

/-- When the promoted reservations of a book were placed, in the order of the promotions. -/
def promotions (bookId : UUID) (journal : List Event) : List Int :=
  journal.filterMap fun
    | .promoted _ b reservedAt => if b = bookId then some reservedAt else none
    | _ => none

/-- The queues at time `now` of a run that was at `s₀` at time `t₀`. -/
structure Fifo (t₀ : Int) (s₀ : DB) (now : Int) (db : DB) : Prop where
  since : t₀ ≤ now
  grown : s₀.journal <+: db.journal
  newer : ∀ r ∈ db.reservations.rows, s₀.reservations.get r.id = none → toDatetime t₀ ≤ r.reservedAt
  placed : ∀ r ∈ db.reservations.rows, r.reservedAt ≤ toDatetime now
  first : ∀ id bookId reservedAt, .promoted id bookId reservedAt ∈ db.journal →
    ∀ r ∈ db.reservations.rows, isPendingOf bookId r → reservedAt ≤ r.reservedAt
  past : ∀ id bookId reservedAt, .promoted id bookId reservedAt ∈ db.journal →
    reservedAt ≤ toDatetime now
  sorted : ∀ bookId, (promotions bookId db.journal).Pairwise (· ≤ ·)
  logged : ∀ r ∈ db.reservations.rows, r.status = .hold →
    .promoted r.id r.bookId r.reservedAt ∈ db.journal

theorem mem_promotions {bookId : UUID} {journal : List Event} {t : Int}
    (h : t ∈ promotions bookId journal) : ∃ id, .promoted id bookId t ∈ journal := by
  obtain ⟨e, he, hf⟩ := List.mem_filterMap.mp h
  cases e with
  | promoted id b reservedAt =>
    simp only [Option.ite_none_right_eq_some, Option.some.injEq] at hf
    obtain ⟨rfl, rfl⟩ := hf
    exact ⟨id, he⟩
  | restored => cases hf
  | checkedOut => cases hf
  | retotalled => cases hf

namespace Fifo

variable {t₀ now : Int} {s₀ db : DB}

theorem empty (now : Int) (collation : Collation) :
    Fifo now (.empty collation) now (.empty collation) := by
  constructor <;> simp [DB.empty, Table.empty, promotions]

/-- The state of a run may be taken as its start. -/
theorem restart (h : Fifo t₀ s₀ now db) : Fifo now db now db where
  since := le_refl now
  grown := List.prefix_refl _
  newer r hr hnone := by cases hnone.symm.trans (Table.get_of_mem hr)
  placed := h.placed
  first := h.first
  past := h.past
  sorted := h.sorted
  logged := h.logged

theorem later {t : Int} (h : Fifo t₀ s₀ now db) (hle : now ≤ t) : Fifo t₀ s₀ t db where
  since := h.since.trans hle
  grown := h.grown
  newer := h.newer
  placed r hr := (h.placed r hr).trans (toDatetime_mono hle)
  first := h.first
  past id bookId t ht := (h.past id bookId t ht).trans (toDatetime_mono hle)
  sorted := h.sorted
  logged := h.logged

/-- The reservations and the promotions are all that matters. -/
theorem frame {db' : DB} (h : Fifo t₀ s₀ now db) (hr : db'.reservations = db.reservations)
    (hj : db'.journal = db.journal) : Fifo t₀ s₀ now db' := by
  constructor
  · exact h.since
  · rw [hj]; exact h.grown
  · rw [hr]; exact h.newer
  · rw [hr]; exact h.placed
  · rw [hr, hj]; exact h.first
  · rw [hj]; exact h.past
  · rw [hj]; exact h.sorted
  · rw [hr, hj]; exact h.logged

theorem record (h : Fifo t₀ s₀ now db) {e : Event} (he : ∀ id bookId t, e ≠ .promoted id bookId t) :
    Fifo t₀ s₀ now (db.record e) := by
  have hold : ∀ id bookId t, .promoted id bookId t ∈ (db.record e).journal →
      .promoted id bookId t ∈ db.journal := by
    intro id bookId t ht
    rcases List.mem_append.mp ht with ht | ht
    · exact ht
    · exact absurd (List.mem_singleton.mp ht).symm (he id bookId t)
  have hsame : ∀ bookId, promotions bookId (db.record e).journal =
      promotions bookId db.journal := by
    intro bookId
    cases e with
    | promoted id b t => exact absurd rfl (he id b t)
    | _ => simp [promotions, DB.record]
  exact {
    since := h.since
    grown := h.grown.trans (List.prefix_append _ _)
    newer := h.newer
    placed := h.placed
    first := fun id b t ht => h.first id b t (hold id b t ht)
    past := fun id b t ht => h.past id b t (hold id b t ht)
    sorted := fun b => (hsame b).symm ▸ h.sorted b
    logged := fun r hr hs => List.mem_append_left _ (h.logged r hr hs) }

/-- A reservation leaves the queue or gives up its hold. -/
theorem settle (h : Fifo t₀ s₀ now db) {id : UUID} {o r : Reservation}
    (ho : db.reservations.get id = some o) (hat : o.reservedAt = r.reservedAt)
    (hp : r.status ≠ .pending) (hh : r.status ≠ .hold) :
    Fifo t₀ s₀ now (db.put (.reservation id) (.reservation r)) := by
  have hrow := Table.mem_of_get ho
  refine ⟨h.since, h.grown, ?_, ?_, ?_, h.past, h.sorted, ?_⟩
  · intro q hq hnone
    rcases mem_putReservation hq with rfl | hq
    · exact hat ▸ h.newer o hrow (by rw [show o.id = id from Table.key_of_get ho]; exact hnone)
    · exact h.newer q hq hnone
  · intro q hq
    rcases mem_putReservation hq with rfl | hq
    · exact hat ▸ h.placed o hrow
    · exact h.placed q hq
  · intro i b t ht q hq hpend
    rcases mem_putReservation hq with rfl | hq
    · exact absurd (isPendingOf_iff.mp hpend).2 hp
    · exact h.first i b t ht q hq hpend
  · intro q hq hs
    rcases mem_putReservation hq with rfl | hq
    · exact absurd hs hh
    · exact h.logged q hq hs

/-- The oldest waiting reservation is promoted. -/
theorem promote (h : Fifo t₀ s₀ now db) {order : RowOrder Reservation} {bookId : UUID}
    {r : Reservation} {expiresAt : Option Int} (hr : oldestPending order bookId db = some r) :
    Fifo t₀ s₀ now ((db.put
      (.reservation r.id) (.reservation { r with status := .hold, expiresAt := expiresAt })).record
    (.promoted r.id bookId r.reservedAt)) := by
  obtain ⟨hrow, hpend⟩ := oldestPending_mem hr
  obtain ⟨hbook, _⟩ := isPendingOf_iff.mp hpend
  have hevent : ∀ id b t, .promoted id b t ∈ db.journal ++
      [Event.promoted r.id bookId r.reservedAt] →
      .promoted id b t ∈ db.journal ∨ b = bookId ∧ t = r.reservedAt := by
    intro id b t ht
    rcases List.mem_append.mp ht with ht | ht
    · exact .inl ht
    · cases List.mem_singleton.mp ht
      exact .inr ⟨rfl, rfl⟩
  refine ⟨h.since, h.grown.trans (List.prefix_append _ _), ?_, ?_, ?_, ?_, ?_, ?_⟩
  · intro q hq hnone
    rcases mem_putReservation hq with rfl | hq
    · exact h.newer r hrow hnone
    · exact h.newer q hq hnone
  · intro q hq
    rcases mem_putReservation hq with rfl | hq
    · exact h.placed r hrow
    · exact h.placed q hq
  · intro id b t ht q hq hqpend
    rcases mem_putReservation hq with rfl | hq'
    · cases (isPendingOf_iff.mp hqpend).2
    · rcases hevent id b t ht with ht | ⟨rfl, rfl⟩
      · exact h.first id b t ht q hq' hqpend
      · exact oldestPending_le hr hq' hqpend
  · intro id b t ht
    rcases hevent id b t ht with ht | ⟨rfl, rfl⟩
    · exact h.past id b t ht
    · exact h.placed r hrow
  · intro b
    show (promotions b (db.journal ++ [.promoted r.id bookId r.reservedAt])).Pairwise _
    by_cases hb : bookId = b
    · have happ : promotions b (db.journal ++ [.promoted r.id bookId r.reservedAt]) =
          promotions b db.journal ++ [r.reservedAt] := by simp [promotions, hb]
      have hlast : ∀ t ∈ promotions b db.journal, t ≤ r.reservedAt := by
        intro t ht
        obtain ⟨id, hid⟩ := mem_promotions ht
        exact h.first id b t hid r hrow (hb ▸ hpend)
      rw [happ, List.pairwise_append]
      exact ⟨h.sorted b, List.pairwise_singleton _ _, by simpa using hlast⟩
    · have happ : promotions b (db.journal ++ [.promoted r.id bookId r.reservedAt]) =
        promotions b db.journal := by
        simp [promotions, hb]
      rw [happ]
      exact h.sorted b
  · intro q hq hs
    rcases mem_putReservation hq with rfl | hq
    · exact List.mem_append_right _ (by simp [hbook])
    · exact List.mem_append_left _ (h.logged q hq hs)

/-- A reservation is placed, behind everything that was promoted before. -/
theorem place (h : Fifo t₀ s₀ now db) {t later : Int} {r : Reservation} (hnow : now ≤ t)
    (hlater : t ≤ later) (hat : r.reservedAt = toDatetime t) (hs : r.status = .pending) :
    Fifo t₀ s₀ later (db.put (.reservation r.id) (.reservation r)) := by
  have hbefore : toDatetime now ≤ r.reservedAt := hat ▸ toDatetime_mono hnow
  have hl := h.later (hnow.trans hlater)
  refine ⟨hl.since, hl.grown, ?_, ?_, ?_, hl.past, hl.sorted, ?_⟩
  · intro q hq hnone
    rcases mem_putReservation hq with rfl | hq
    · exact (toDatetime_mono h.since).trans hbefore
    · exact h.newer q hq hnone
  · intro q hq
    rcases mem_putReservation hq with rfl | hq
    · exact hat ▸ toDatetime_mono hlater
    · exact hl.placed q hq
  · intro i b t ht q hq hpend
    rcases mem_putReservation hq with rfl | hq
    · exact (h.past i b t ht).trans hbefore
    · exact h.first i b t ht q hq hpend
  · intro q hq hh
    rcases mem_putReservation hq with rfl | hq
    · cases hs.symm.trans hh
    · exact h.logged q hq hh

theorem handed {s v v' : DB} {order : RowOrder Reservation} {expiresAt : Int} {bookId : UUID}
    (h : Fifo t₀ s₀ now v)
    (hh : Handed (alone s) s (oldestPending order bookId) expiresAt bookId v v') :
    Fifo t₀ s₀ now v' := by
  cases hh with
  | promoted hw hr _ =>
    obtain rfl := alone_saw hw
    exact h.promote hr
  | restored => exact (h.frame (by rfl) (by rfl)).record (by simp)
  | gone => exact h

theorem expiring {s : DB} {svc : ReservationService} {env : Env} {rest : List Reservation} {n : Nat}
    {v v' : DB} (h : Fifo t₀ s₀ now v) (he : Expiring (alone s) s svc env rest n v v') :
    Fifo t₀ s₀ now v' := by
  induction he with
  | nil => exact h
  | cons hget hh _ ih => exact ih ((h.settle hget (by rfl) (by simp) (by simp)).handed hh)

theorem cancelled {s v' : DB} {svc : ReservationService} {env : Env} {id memberId : UUID}
    (h : Fifo t₀ s₀ now s) (hc : Cancelled (alone s) s svc env id memberId s v') :
    Fifo t₀ s₀ now v' := by
  cases hc with
  | waiting hget _ _ => exact h.settle hget rfl (by simp) (by simp)
  | held hget _ _ hh => exact (h.settle hget (by rfl) (by simp) (by simp)).handed hh

theorem returned {guard : Option DB → DB → Prop} {s v' : DB} {svc : ReservationService} {env : Env}
    {id : UUID} (h : Fifo t₀ s₀ now s)
    (hr : Returned (alone s) guard s (getBorrowService svc) env id s v') : Fifo t₀ s₀ now v' := by
  cases hr with
  | again => exact h
  | @handed w u record r v' _ _ _ _ _ _ hh =>
    rw [getBorrowService_waiting] at hh
    exact (h.frame (by rfl) (by rfl)).handed hh

theorem borrowed {D : Discipline DB RowKey} {s v' : DB} {svc : BorrowService} {env : Env}
    {memberId bookId : UUID} (h : Fifo t₀ s₀ now db)
    (hb : Borrowed D s svc env memberId bookId db v') : Fifo t₀ s₀ now v' := by
  cases hb with
  | held _ _ _ hget _ => exact (h.settle hget (by rfl) (by simp) (by simp)).frame rfl rfl
  | shelf => exact (h.record (e := .checkedOut bookId) (by simp)).frame rfl rfl

theorem op {s s' : DB} {svc : ReservationService} {env : Env} {op : Op} {later : Int}
    (h : Fifo t₀ s₀ now s) (ht : Ticks now env later) (he : op.Alone s svc env s') :
    Fifo t₀ s₀ later s' := by
  have hle : now ≤ later := (ht.start 0).trans (ht.stop 0)
  cases op with
  | createBook => exact (h.later hle).frame (by rw [he.stored]; rfl) (by rw [he.stored]; rfl)
  | updateBook =>
    cases he with
    | texts => exact (h.later hle).frame rfl rfl
    | copies => exact ((h.later hle).record (by simp)).frame rfl rfl
  | deleteBook => cases he with | mk => exact (h.later hle).frame rfl rfl
  | borrowBook => exact (h.borrowed he).later hle
  | returnBook => exact (h.returned he).later hle
  | renewBook => cases he with | mk => exact (h.later hle).frame rfl rfl
  | placeReservation =>
    rw [he.stored]
    exact h.place (r := placedReservation env _ _) (ht.start 0) (ht.stop 0) rfl rfl
  | cancelReservation => exact (h.cancelled he).later hle
  | processExpiredHolds =>
    obtain ⟨_, _, _, he⟩ := he
    exact (h.expiring he).later hle

theorem of_timeline {svc : ReservationService} {s : DB} (h₀ : Fifo t₀ s₀ t₀ s₀)
    (h : Timeline svc t₀ s₀ now s) : Fifo t₀ s₀ now s := by
  induction h with
  | refl => exact h₀
  | call _ ht hc ih =>
    rcases call_op hc with ⟨a, _, he⟩ | ⟨e, _, rfl⟩
    · exact ih.op ht he
    · exact ih.later ((ht.start 0).trans (ht.stop 0))
  | accounts _ ha ih =>
    obtain ⟨_, _, rfl⟩ := ha.frame
    exact ih.frame rfl rfl

end Fifo

/-- First come, first served: whoever holds a copy after a promotion (at `s`) reserved no
later than everybody who waits for the book now or later, or who places a reservation
later (at `s'`), and the promotions of a book are made in the order of the reservations. -/
theorem promotions_fifo {svc : ReservationService} {collation : Collation} {t₀ now later : Int}
    {s s' : DB} (h : Timeline svc t₀ (.empty collation) now s) (h' : Timeline svc now s later s') :
    (∀ r ∈ s.reservations.rows, r.status = .hold →
      ∀ q ∈ s'.reservations.rows, isPendingOf r.bookId q ∨ s.reservations.get q.id = none →
    r.reservedAt ≤ q.reservedAt) ∧
    (∀ r ∈ s'.reservations.rows, r.status = .hold →
      .promoted r.id r.bookId r.reservedAt ∈ s'.journal) ∧
    (∀ id bookId reservedAt, .promoted id bookId reservedAt ∈ s'.journal →
      ∀ q ∈ s'.reservations.rows, isPendingOf bookId q → reservedAt ≤ q.reservedAt) ∧
    ∀ bookId, (promotions bookId s'.journal).Pairwise (· ≤ ·) := by
  have hs := Fifo.of_timeline (.empty t₀ collation) h
  have hs' := Fifo.of_timeline hs.restart h'
  refine ⟨fun r hr hh q hq hcase => ?_, hs'.logged, hs'.first, hs'.sorted⟩
  have hlog := hs.logged r hr hh
  rcases hcase with hp | hnew
  · exact hs'.first _ _ _ (hs'.grown.subset hlog) q hq hp
  · exact (hs.past _ _ _ hlog).trans (hs'.newer q hq hnew)

theorem Timeline.demo {svc : ReservationService} {t₀ now t : Int} {s₀ s : DB}
    (h : Timeline svc t₀ s₀ now s) (hle : now ≤ t) (newId : UUID) (op : Op) :
    Timeline svc t₀ s₀ t (serial svc [(demoEnv newId t, op)] s) :=
  .call h ⟨fun _ => hle, fun _ => le_refl t⟩ rfl

/-- The copy that somebody waited for has come back and is held. -/
def demoHeld : DB := serial ⟨48⟩ [(demoEnv 0 (3 * hour), .returnBook 100)] demoWaiting

theorem demoHeld_runs : Runs ⟨48⟩ AnyOp demoHeld :=
  demoWaiting_runs.serial _ fun _ _ _ => trivial

theorem demoHeld_timeline : Timeline ⟨48⟩ 0 (.empty .ignoringCase) (3 * hour) demoHeld := by
  have h : Timeline ⟨48⟩ 0 (.empty .ignoringCase) 0 demoStart :=
    .accounts .refl ⟨⟨.empty, _, rfl⟩, by simp [DB.empty], by decide⟩
  exact (((h.demo (le_refl 0) 1 _).demo (by decide) 100 _).demo (by decide) 200 _).demo
    (by decide) 0 _

theorem promotions_fifo_demo :
    ∃ r ∈ demoHeld.reservations.rows, r.status = .hold ∧
    ∃ q ∈ (serial ⟨48⟩ [(demoEnv 201 (4 * hour), .placeReservation 10 1)]
      demoHeld).reservations.rows, isPendingOf r.bookId q ∧ r.reservedAt ≤ q.reservedAt := by
  have hfifo := promotions_fifo demoHeld_timeline
    (Timeline.refl.demo (t := 4 * hour) (by decide) 201 (.placeReservation 10 1))
  have hr : (⟨200, 11, 1, 2 * hour, some (51 * hour), .hold⟩ : Reservation) ∈
    demoHeld.reservations.rows := by decide
  have hq : (⟨201, 10, 1, 4 * hour, none, .pending⟩ : Reservation) ∈
      (serial ⟨48⟩ [(demoEnv 201 (4 * hour), .placeReservation 10 1)]
        demoHeld).reservations.rows := by decide
  exact ⟨_, hr, rfl, _, hq, by decide, hfifo.1 _ hr rfl _ hq (.inl (by decide))⟩

end LibraryPlatform

import LibraryPlatform.LifeCycle
import LibraryPlatform.Moves

/-!
# Active reservations

No constraint of the table keeps a member from reserving a book twice, or from having too
many reservations. `place_reservation` checks both on its snapshot. The book is locked
before the snapshot is taken, so the first check stands; the member is locked after it,
and the second check may be out of date.
-/
namespace LibraryPlatform

open KeyedTable Transaction ReservationRepository

/-! ## Placing under locks -/

/-- What a call that places a reservation knows of its locks when it commits. -/
def Call.Locks (D : Discipline DB RowKey) (c : Call) (L : List RowKey) (s : DB) : Prop :=
  ∀ memberId bookId, c.op = .placeReservation memberId bookId →
    PlaceLocks D c.env memberId bookId L s

def Call.locking (D : Discipline DB RowKey) (svc : ReservationService) (c : Call) :
    Contract DB RowKey Reply where
  publish _ L s t := c.Commits D NoGuard svc s t ∧ c.Locks D L s
  guard := NoGuard
  point _ _ _ := True

variable {D : Discipline DB RowKey} {svc : ReservationService} {c : Call} {L : List RowKey}
  {s t : DB}

theorem wp_call_locking (s : DB) :
    wp D (c.locking D svc) (c.op.run svc c.env) (Final D (c.locking D svc)) .init s := by
  have hT : (c.locking D svc).Quiet := fun _ _ _ => show True from trivial
  obtain ⟨op, env⟩ := c
  have other : (∀ memberId bookId, op ≠ .placeReservation memberId bookId) →
      wp D (Call.locking D svc ⟨op, env⟩) (op.run svc env)
        (Final D (Call.locking D svc ⟨op, env⟩)) .init s :=
    fun hop => wp_mono (fun _ _ _ h t ht => ⟨h t ht, fun m b he => absurd he (hop m b)⟩) (wp_op hT)
  cases op with
  | placeReservation memberId bookId =>
    simp only [Op.run, Prog.map_eq, wp_bind, wp_ret]
    refine wp_mono (fun _ _ _ h t ht => ⟨(h t ht).1, fun m b he => ?_⟩)
      (wp_placeReservation_locks hT)
    cases he
    exact (h t ht).2
  | _ => exact other (by simp)

/-! ## Where active reservations come from -/

/-- An active row was active before the commit, or the call places it. -/
theorem Call.Commits.active (h : c.Commits D NoGuard svc s t) {r : Reservation}
    (hr : r ∈ t.reservations.rows) (ha : r.status.isActive) :
    (c.op = .placeReservation r.memberId r.bookId ∧ s.reservations.get r.id = none) ∨
    ∃ q, s.reservations.get r.id = some q ∧ q.status.isActive ∧ q.memberId = r.memberId ∧
    q.bookId = r.bookId := by
  have hchange := h.change r.id
  rw [show t.reservations.get r.id = some r from Table.get_of_mem hr] at hchange
  generalize hs : s.reservations.get r.id = o at hchange
  cases hchange with
  | same => exact .inr ⟨r, rfl, ha, rfl, rfl⟩
  | placed hop _ _ => exact .inl ⟨hop, rfl⟩
  | @promoted q e hq => exact .inr ⟨q, rfl, by simp [hq, ReservationStatus.isActive], rfl, rfl⟩
  | cancelled => cases ha
  | completed => cases ha
  | expired => cases ha

/-! ## One for a member and a book -/

def OnePerBook (db : DB) : Prop :=
  ∀ r ∈ db.reservations.rows, ∀ q ∈ db.reservations.rows, r.status.isActive →
  q.status.isActive → r.memberId = q.memberId → r.bookId = q.bookId → r = q

/-- Nobody has got an active reservation of the book who had none. -/
def NoneNew (bookId : UUID) (s t : DB) : Prop :=
  ∀ r ∈ t.reservations.rows, r.status.isActive → r.bookId = bookId →
  ∃ q ∈ s.reservations.rows, q.status.isActive ∧ q.memberId = r.memberId ∧ q.bookId = bookId

theorem NoneNew.refl (bookId : UUID) (s : DB) : NoneNew bookId s s :=
  fun r hr ha hb => ⟨r, hr, ha, rfl, hb⟩

theorem NoneNew.trans {bookId : UUID} {s t u : DB} (h : NoneNew bookId s t)
    (h' : NoneNew bookId t u) : NoneNew bookId s u := by
  intro r hr ha hb
  obtain ⟨q, hq, hqa, hqm, hqb⟩ := h' r hr ha hb
  obtain ⟨p, hp, hpa, hpm, hpb⟩ := h q hq hqa hqb
  exact ⟨p, hp, hpa, hpm.trans hqm, hpb⟩

/-- As long as a book is locked, nobody else reserves it. -/
def queueing : Discipline DB RowKey where
  inv := OnePerBook
  rely L s t := ∀ bookId, .book bookId ∈ L → NoneNew bookId s t
  refl _ s bookId _ := .refl bookId s
  trans h h' bookId hk := (h bookId hk).trans (h' bookId hk)
  anti hL h bookId hk := h bookId (hL _ hk)

/-- A call that places no reservation of the book. -/
theorem Call.Commits.noneNew (h : c.Commits D NoGuard svc s t) {bookId : UUID}
    (hop : ∀ memberId, c.op ≠ .placeReservation memberId bookId) : NoneNew bookId s t := by
  intro r hr ha hb
  rcases h.active hr ha with ⟨he, _⟩ | ⟨q, hq, hqa, hqm, hqb⟩
  · exact absurd (hb ▸ he) (hop _)
  · exact ⟨q, Table.mem_of_get hq, hqa, hqm, hqb.trans hb⟩

/-- The row that a call places is the only active one of its member and book. -/
theorem PlaceLocks.only {env : Env} {memberId bookId : UUID}
    (h : PlaceLocks queueing env memberId bookId L s) :
    ∀ q ∈ s.reservations.rows, q.status.isActive → q.memberId = memberId → q.bookId ≠ bookId := by
  intro q hq ha hm hb
  obtain ⟨w, _, hrely, hchecks⟩ := h.checks
  obtain ⟨p, hp, hpa, hpm, hpb⟩ := hrely bookId (by simp) q hq ha hb
  exact hchecks.unique p hp ⟨by simp [isActiveOf, hpa, hpm, hm], hpb⟩

theorem Call.Commits.placed {memberId bookId : UUID} (h : c.Commits D NoGuard svc s t)
    (hop : c.op = .placeReservation memberId bookId) : Placed D s c.env memberId bookId s t := by
  unfold Call.Commits at h
  rwa [hop] at h

/-- A row of the reservations after one has been placed. -/
theorem Placed.mem {env : Env} {memberId bookId : UUID} {v : DB}
    (h : Placed D v env memberId bookId s t) {r : Reservation} (hr : r ∈ t.reservations.rows) :
    r = placedReservation env memberId bookId ∨ r ∈ s.reservations.rows := by
  rw [h.stored] at hr
  exact mem_putReservation hr

/-- A commit keeps it, if a call places a reservation only where there is no other. -/
theorem OnePerBook.kept (hs : OnePerBook s) (h : c.Commits D NoGuard svc s t)
    (honly : ∀ memberId bookId, c.op = .placeReservation memberId bookId →
      ∀ q ∈ s.reservations.rows, q.status.isActive → q.memberId = memberId → q.bookId ≠ bookId) :
    OnePerBook t := by
  intro r hr q hq hra hqa hm hb
  by_cases hop : ∃ memberId bookId, c.op = .placeReservation memberId bookId
  · obtain ⟨memberId, bookId, hop⟩ := hop
    have hplaced := h.placed hop
    have honly := honly memberId bookId hop
    rcases hplaced.mem hr with rfl | hr' <;> rcases hplaced.mem hq with rfl | hq'
    · rfl
    · exact absurd hb.symm (honly q hq' hqa hm.symm)
    · exact absurd hb (honly r hr' hra hm)
    · exact hs r hr' q hq' hra hqa hm hb
  · have old : ∀ r ∈ t.reservations.rows, r.status.isActive →
      ∃ r₀, s.reservations.get r.id = some r₀ ∧
        r₀.status.isActive ∧ r₀.memberId = r.memberId ∧ r₀.bookId = r.bookId := by
      intro r hr ha
      rcases h.active hr ha with ⟨he, _⟩ | hold
      · exact absurd ⟨_, _, he⟩ hop
      · exact hold
    obtain ⟨r₀, hr₀, hr₀a, hr₀m, hr₀b⟩ := old r hr hra
    obtain ⟨q₀, hq₀, hq₀a, hq₀m, hq₀b⟩ := old q hq hqa
    obtain rfl : r₀ = q₀ := hs r₀ (Table.mem_of_get hr₀) q₀ (Table.mem_of_get hq₀) hr₀a hq₀a
      (hr₀m.trans (hm.trans hq₀m.symm)) (hr₀b.trans (hb.trans hq₀b.symm))
    have hid : r.id = q.id := (Table.key_of_get hr₀).symm.trans (Table.key_of_get hq₀)
    exact List.inj_on_of_nodup_map t.reservations.unique hr hq hid

theorem OnePerBook.commits (hs : OnePerBook s) (h : c.Commits queueing NoGuard svc s t)
    (hlocks : c.Locks queueing L s) : OnePerBook t :=
  hs.kept h fun memberId bookId hop => (hlocks memberId bookId hop).only

/-- One call after the other: the checks of a placement are made on the store it is placed in. -/
theorem OnePerBook.of_runs {G : DB → Op → Prop} (h : Runs svc G s) : OnePerBook s := by
  refine h.invariant (fun _ => by simp [OnePerBook, DB.empty, Table.empty]) ?_ ?_
  · intro s s' op env hs _ he
    have hcommits : Call.Commits (alone s) NoGuard svc ⟨op, env⟩ s s' := he
    refine hs.kept hcommits fun memberId bookId hop q hq ha hm hb => ?_
    obtain ⟨w, hw, hchecks⟩ := (hcommits.placed hop).checks
    obtain rfl := alone_past hw
    exact hchecks.unique q hq ⟨by simp [isActiveOf, ha, hm], hb⟩
  · intro s s' hs ha
    obtain ⟨_, _, rfl⟩ := ha.frame
    exact hs

theorem queueing_lawful (c : Call) : Lawful queueing (c.locking queueing svc) := by
  rintro o L s t ⟨hc, hlocks⟩ hs
  refine ⟨hs.commits hc hlocks, fun L' hL bookId hk => hc.noneNew fun memberId hop => ?_⟩
  exact hL _ hk (hlocks memberId bookId hop).book

/-- The query of `get_active_by_member_and_book` finds one row at most. -/
def FindsOne (db : DB) : Prop := ∀ memberId bookId,
  (db.reservations.rows.filter (fun r => isActiveOf memberId r && r.bookId = bookId)).length ≤ 1

theorem OnePerBook.findsOne {db : DB} (h : OnePerBook db) : FindsOne db := by
  intro memberId bookId
  by_cases hnone : db.reservations.rows.filter (fun r =>
    isActiveOf memberId r && r.bookId = bookId) = []
  · simp [hnone]
  · obtain ⟨r, hmem⟩ := List.exists_mem_of_ne_nil _ hnone
    obtain ⟨hr, hp⟩ := List.mem_filter.mp hmem
    rw [Table.filter_eq_singleton hr hp fun q hq hqp => ?_]
    · rfl
    · simp only [isActiveOf, Bool.and_eq_true, decide_eq_true_eq] at hp hqp
      exact h q hq r hr hqp.1.2 hp.1.2 (hqp.1.1.trans hp.1.1.symm) (hqp.2.trans hp.2.symm)

variable {n : Nat} {calls : Fin n → Call} {s₀ : DB} {l : Library n}

/-- Whatever the interleaving, from a store without reservations: nobody has two active
reservations of one book, in no committed state and in no snapshot. -/
theorem one_active_reservation (hempty : s₀.reservations = .empty)
    (h : Sys.Reach Sys.Any (Library.start svc calls s₀) l) :
    FindsOne l.db ∧ ∀ i p loc w, l.txn i = .running p loc → loc.snapshot = some w → FindsOne w := by
  have hstart : Sys.Good queueing (fun i => (calls i).locking queueing svc)
      (Library.start svc calls s₀) := by
    refine Sys.good_start ?_ fun i => wp_call_locking s₀
    simp [queueing, OnePerBook, hempty, Table.empty]
  have hdb : ∀ u, Sys.Reach Sys.Any (Library.start svc calls s₀) u → FindsOne u.db := fun u hu =>
    (Sys.good_of_reach (fun i => queueing_lawful (calls i)) hstart (unguarded hu)).inv.findsOne
  refine ⟨hdb l h, fun i p loc w ht hw => Sys.reach_snapshot ?_ hdb h ht hw⟩
  intro i p loc hp
  cases hp
  rfl

/-- A member asks for one book twice at once. -/
def demoTwice : Fin 2 → Call
  | 0 => ⟨.placeReservation 11 1, demoEnv 200 (2 * hour)⟩
  | 1 => ⟨.placeReservation 11 1, demoEnv 201 (2 * hour)⟩

/-- The moves of a reservation up to the member's lock, and those from it on. -/
def demoCount (i : Fin 2) (bookId : UUID) : List (Fin 2 × Move RowKey) :=
  [(i, .acquire (.book bookId)), (i, .run), (i, .run)]
def demoPlace (i : Fin 2) : List (Fin 2 × Move RowKey) :=
  (i, .acquire (.member 11)) :: List.replicate 4 (i, .run)

theorem one_active_reservation_demo :
    ∃ s : Library 2, (Library.start ⟨48⟩ demoTwice demoLent).runs
    (demoCount 0 1 ++ demoPlace 0 ++ demoCount 1 1) = some s ∧
    s.db.reservations.rows = [⟨200, 11, 1, 2 * hour, none, .pending⟩] ∧ FindsOne s.db := by
  have hsome : (((Library.start ⟨48⟩ demoTwice demoLent).runs
      (demoCount 0 1 ++ demoPlace 0 ++ demoCount 1 1)).map
    fun s => s.db.reservations.rows) = some [⟨200, 11, 1, 2 * hour, none, .pending⟩] := by decide
  obtain ⟨s, hs, hrows⟩ := Option.map_eq_some_iff.mp hsome
  exact ⟨s, hs, hrows, (one_active_reservation (by rfl) (Sys.reach_of_runs hs)).1⟩

/-! ## The limit of a member -/

def activeCount (memberId : UUID) (db : DB) : Nat := db.reservations.count (isActiveOf memberId)

theorem Call.Commits.count_le {memberId : UUID} (h : c.Commits D NoGuard svc s t)
    (hop : ∀ bookId, c.op ≠ .placeReservation memberId bookId) :
    activeCount memberId t ≤ activeCount memberId s := by
  refine Table.count_le fun r hr hp => ?_
  simp only [isActiveOf, Bool.and_eq_true, decide_eq_true_eq] at hp
  rcases h.active hr hp.2 with ⟨he, _⟩ | ⟨q, hq, hqa, hqm, _⟩
  · exact absurd (hp.1 ▸ he) (hop _)
  · exact ⟨q, Table.mem_of_get hq, by simp [isActiveOf, hqa, hqm, hp.1], Table.key_of_get hq⟩

theorem Placed.count_le {env : Env} {memberId bookId : UUID}
    (h : Placed D s env memberId bookId s t) :
    activeCount memberId t ≤ activeCount memberId s + 1 := by
  unfold activeCount
  rw [h.stored]
  exact Table.count_put_le _ _ _

/-- A call that reserves for the member takes the member's lock only where the member
still has fewer than three active reservations. -/
def BelowLimit (calls : Fin n → Call) (memberId : UUID) (l : Library n) (i : Fin n)
    (m : Move RowKey) : Prop :=
  ∀ bookId, (calls i).op = .placeReservation memberId bookId → l.Takes i m (.member memberId) →
    activeCount memberId l.db < maxActiveReservations

/-- Whoever reserves for the member and has the lock finds room. -/
structure Roomy (calls : Fin n → Call) (memberId : UUID) (l : Library n) : Prop where
  limit : activeCount memberId l.db ≤ maxActiveReservations
  room : ∀ i bookId, (calls i).op = .placeReservation memberId bookId →
    .member memberId ∈ (l.txn i).locks →
    activeCount memberId l.db < maxActiveReservations

abbrev Locking (svc : ReservationService) (calls : Fin n → Call) (l : Library n) : Prop :=
  Sys.Good (keeping fun _ => True) (fun i => (calls i).locking (keeping fun _ => True) svc) l

theorem keeping_lawful (c : Call) :
    Lawful (keeping fun _ => True) (c.locking (keeping fun _ => True) svc) :=
  fun _ _ _ _ _ _ => ⟨trivial, fun _ _ => trivial⟩

theorem Roomy.step {memberId : UUID} {l l' : Library n} {i : Fin n} {m : Move RowKey}
    (h : Roomy calls memberId l) (hl : Locking svc calls l) (hg : BelowLimit calls memberId l i m)
    (hs : l.step i m = some l') : Roomy calls memberId l' := by
  have hsame : l'.db = l.db → Roomy calls memberId l' := by
    refine fun hdb => ⟨hdb ▸ h.limit, fun j bookId hop hk => ?_⟩
    rw [hdb]
    by_cases hj : j = i
    · subst hj
      by_cases hold : .member memberId ∈ (l.txn j).locks
      · exact h.room j bookId hop hold
      · exact hg bookId hop ⟨hold, l', hs, hk⟩
    · rw [Sys.step_others hs hj] at hk
      exact h.room j bookId hop hk
  rcases (hl.moved (fun _ _ _ _ _ _ => trivial) hs).publish with hdb | ⟨_, hc, hheld⟩
  · exact hsame hdb
  · rcases Sys.step_commit hs with hdb | hnone
    · exact hsame hdb
    · have hothers : ∀ j, .member memberId ∈ (l'.txn j).locks → j ≠ i ∧
        .member memberId ∈ (l.txn j).locks := by
        intro j hk
        have hj : j ≠ i := by
          rintro rfl
          rw [hnone] at hk
          cases hk
        rw [Sys.step_others hs hj] at hk
        exact ⟨hj, hk⟩
      by_cases hop : ∃ bookId, (calls i).op = .placeReservation memberId bookId
      · obtain ⟨bookId, hop⟩ := hop
        have hk := (hheld memberId bookId hop).member
        have hroom := h.room i bookId hop hk
        have hle := (hc.placed hop).count_le
        refine ⟨by omega, fun j b _ hkj => ?_⟩
        obtain ⟨hji, hkj⟩ := hothers j hkj
        exact absurd hk (hl.exclusive j i _ hji hkj)
      · have hle := hc.count_le fun b he => hop ⟨b, he⟩
        refine ⟨hle.trans h.limit, fun j b hj hkj => ?_⟩
        exact lt_of_le_of_lt hle (h.room j b hj (hothers j hkj).2)

/-- As long as every reservation of the member is counted again when the member's lock is
taken, the member never has more than three active ones, however the calls are interleaved. -/
theorem reservation_limit {memberId : UUID} (h₀ : activeCount memberId s₀ ≤ maxActiveReservations)
    (h : Sys.Reach (BelowLimit calls memberId) (Library.start svc calls s₀) l) :
    activeCount memberId l.db ≤ maxActiveReservations := by
  have hroomy : Roomy calls memberId l ∧ Sys.Reach Sys.Any (Library.start svc calls s₀) l := by
    induction h with
    | refl => exact ⟨⟨h₀, fun i b _ hk =>
        by simp [Library.start, Sys.start, Txn.locks, Local.init] at hk⟩, .refl⟩
    | @tail u v i m _ hg hs ih =>
      have hl : Locking svc calls u := Sys.good_of_reach (fun i => keeping_lawful (calls i))
        (Sys.good_start trivial fun i => wp_call_locking s₀) (unguarded ih.2)
      exact ⟨ih.1.step hl hg hs, .tail i m ih.2 trivial hs⟩
  exact hroomy.1.limit

/-- Four books are out, and member 11 waits for two of them. -/
def demoFourOut : DB :=
  serial ⟨48⟩ [(demoEnv 1 0, .createBook "Emma" "Austen" "1" 1 none),
    (demoEnv 2 0, .createBook "Persuasion" "Austen" "2" 1 none),
    (demoEnv 3 0, .createBook "Middlemarch" "Eliot" "3" 1 none),
    (demoEnv 4 0, .createBook "Romola" "Eliot" "4" 1 none),
    (demoEnv 101 hour, .borrowBook 10 1), (demoEnv 102 hour, .borrowBook 10 2),
    (demoEnv 103 hour, .borrowBook 10 3),
    (demoEnv 104 hour, .borrowBook 10 4), (demoEnv 201 (2 * hour), .placeReservation 11 1),
    (demoEnv 202 (2 * hour), .placeReservation 11 2)] demoStart

/-- The member asks for the other two at once. -/
def demoTwoMore : Fin 2 → Call
  | 0 => ⟨.placeReservation 11 3, demoEnv 203 (3 * hour)⟩
  | 1 => ⟨.placeReservation 11 4, demoEnv 204 (3 * hour)⟩

theorem reservation_limit_demo : ∃ l : Library 2,
    (Library.start ⟨48⟩ demoTwoMore demoFourOut).runs (demoCount 0 3 ++ demoPlace 0) = some l ∧
      activeCount 11 l.db = 3 ∧ activeCount 11 l.db ≤ maxActiveReservations := by
  have hsome : ((Library.start ⟨48⟩ demoTwoMore demoFourOut).runs
      (demoCount 0 3 ++ demoPlace 0)).map
      (fun l => activeCount 11 l.db) = some 3 := by decide
  obtain ⟨l, hl, hcount⟩ := Option.map_eq_some_iff.mp hsome
  have hreach : Sys.Reach (BelowLimit demoTwoMore 11)
      (Library.start ⟨48⟩ demoTwoMore demoFourOut) l := by
    refine Sys.reach_of_along (P := fun l => activeCount 11 l.db < 3) ?_ (by decide) hl
    intro l i m hroom _ _ _
    simpa [maxActiveReservations] using hroom
  exact ⟨l, hl, hcount, reservation_limit (by decide) hreach⟩

/-- Both calls count two active reservations, and both reserve. -/
theorem reservation_limit_race :
    activeCount 11 demoFourOut ≤ maxActiveReservations ∧
    ¬∀ l, Sys.Reach Sys.Any (Library.start ⟨48⟩ demoTwoMore demoFourOut) l →
    activeCount 11 l.db ≤ maxActiveReservations := by
  have hrun : ((Library.start ⟨48⟩ demoTwoMore demoFourOut).runs
      (demoCount 0 3 ++ demoCount 1 4 ++ demoPlace 0 ++ demoPlace 1)).map (fun l =>
        activeCount 11 l.db) = some 4 := by decide
  refine ⟨by decide, fun hclaim => ?_⟩
  obtain ⟨l, hl, hcount⟩ := Option.map_eq_some_iff.mp hrun
  have hle := hclaim l (Sys.reach_of_runs hl)
  rw [hcount] at hle
  exact absurd hle (by decide)

end LibraryPlatform

import LibraryPlatform.Endings
import LibraryPlatform.LifeCycle
import LibraryPlatform.LockSpans

/-!
# First come, first served in traffic

A copy that is free is promised to whoever is first in the queue when the row of the reservation
is locked. Others may join the queue before the promotion is committed, and leave it, but nobody
who was waiting then is passed over.
-/
namespace LibraryPlatform

open KeyedTable Transaction ReservationRepository

/-- The reservation is stored and waits. -/
def DB.Queued (s : DB) (id : UUID) : Prop :=
  ∃ r, s.reservations.get id = some r ∧ r.status = .pending

/-- Of the reservations that are locked, none that waited still waits. -/
def Unqueued (locks : List RowKey) (s t : DB) : Prop :=
  ∀ id, .reservation id ∈ locks → s.Queued id → ¬t.Queued id

/-- A reservation that waits is wanted only by whoever asks for it (`own`), or because it comes
first of those for its book that wait and are not locked. -/
def FirstInLine (own : Option UUID) (keys locks : List RowKey) (s : DB) : Prop :=
  ∀ r ∈ s.reservations.rows, r.status = .pending → .reservation r.id ∈ keys →
    .reservation r.id ∉ locks → own ≠ some r.id →
    ∀ q ∈ s.reservations.rows, isPendingOf r.bookId q → .reservation q.id ∉ locks →
    r.reservedAt ≤ q.reservedAt

/-- The contract takes no more than that. -/
structure InLine {α : Type} (own : Option UUID) (T : Contract DB RowKey α) : Prop where
  publish : ∀ o L s t, Unqueued L s t → T.publish o L s t
  point : ∀ keys L s, FirstInLine own keys L s → T.point keys L s

/-- What waits and is locked the transaction has taken out of the queue, but for the `next`. -/
structure TakenUp (next : Option UUID) (l : Local DB RowKey Row Event) (s : DB) : Prop where
  owned : l.Owned
  taken : ∀ id, next ≠ some id → .reservation id ∈ l.locks → s.Queued id → ¬(l.view s).Queued id

section

variable {s t : DB} {id : UUID} {k : RowKey} {keys locks : List RowKey} {own : Option UUID}

theorem queued_congr (h : s.reservations.get id = t.reservations.get id) :
    s.Queued id ↔ t.Queued id := by
  unfold DB.Queued
  rw [h]

theorem queued_of_mem {r : Reservation} (hr : r ∈ s.reservations.rows) (hp : r.status = .pending) :
    s.Queued r.id := ⟨r, Table.get_of_mem hr, hp⟩

theorem firstInLine_held (h : k ∈ locks) : FirstInLine own [k] locks s := by
  intro r _ _ hkey hfree
  rw [List.mem_singleton.mp hkey] at hfree
  exact absurd h hfree

theorem firstInLine_unqueued (h : ∀ id, .reservation id ∈ keys → ¬s.Queued id) :
    FirstInLine own keys locks s :=
  fun r hr hp hkey _ _ => absurd (queued_of_mem hr hp) (h r.id hkey)

end

namespace TakenUp

variable {next : Option UUID} {l : Local DB RowKey Row Event} {s t : DB} {id : UUID} {k : RowKey}

theorem init : TakenUp next .init s := ⟨by simp [Local.Owned, Local.init], by simp⟩

theorem later (h : TakenUp next l s) (hl : Later lax l s t) : TakenUp next l t := by
  refine ⟨h.owned, fun id hne hk hq => ?_⟩
  rw [queued_congr (later_reservation hl hk)]
  exact h.taken id hne hk ((queued_congr (same_reservation (hl.rows _ hk))).mp hq)

theorem weaken (h : TakenUp none l s) : TakenUp next l s :=
  ⟨h.owned, fun id _ => h.taken id (by simp)⟩

theorem snap (h : TakenUp next l s) (w : DB) : TakenUp next (l.snap w) s := ⟨h.owned, h.taken⟩

theorem noted (h : TakenUp next l s) (e : Event) : TakenUp next (l.noted e) s :=
  ⟨h.owned.noted e, fun id hne hk hq => by
    rw [Local.view_noted]
    exact h.taken id hne hk hq⟩

/-- More locks, of rows that do not wait or of the next one. -/
theorem hold (h : TakenUp next l s) {A : List RowKey}
    (hA : ∀ id, .reservation id ∈ A → next ≠ some id → .reservation id ∉ l.locks → ¬s.Queued id) :
    TakenUp next (l.hold A) s := by
  refine ⟨h.owned.hold A, fun id hne hk hq => ?_⟩
  rw [Local.view_hold]
  by_cases hl : .reservation id ∈ l.locks
  · exact h.taken id hne hl hq
  · exact absurd hq (hA id ((List.mem_append.mp hk).resolve_right hl) hne hl)

/-- The next one leaves the queue. -/
theorem take (h : TakenUp (some id) l s) (hk : .reservation id ∈ l.locks) {r : Reservation}
    (hr : r.status ≠ .pending) : TakenUp none (l.write (.reservation id) (.reservation r)) s := by
  refine ⟨h.owned.write hk _, fun x _ hx hq => ?_⟩
  rw [Local.view_write, store_put]
  rintro ⟨q, hget, hp⟩
  rw [get_putReservation] at hget
  split at hget
  · obtain rfl := Option.some.inj hget
    exact hr hp
  · rename_i hne
    exact h.taken x (by simpa using Ne.symm hne) hx hq ⟨q, hget, hp⟩

/-- Other rows are no concern of the queue. -/
theorem write (h : TakenUp next l s) (hk : k ∈ l.locks) (hne : ∀ id, k ≠ .reservation id)
    (r : Row) : TakenUp next (l.write k r) s := by
  refine ⟨h.owned.write hk r, fun id hid hx hq => ?_⟩
  have hsame : ((l.view s).put k r).reservations = (l.view s).reservations := by
    cases k <;> cases r <;> first | rfl | exact absurd rfl (hne _)
  rw [Local.view_write, store_put, queued_congr (congrArg (fun tbl => tbl.get id) hsame)]
  exact h.taken id hid hx hq

/-- Whoever is first in the view is first in the store, of those that are not locked. -/
theorem oldest (h : TakenUp none l s) {own : Option UUID} {order : RowOrder Reservation}
    {bookId : UUID} :
    FirstInLine own ((oldestPending order bookId (l.view s)).toList.map fun r =>
      .reservation r.id) l.locks s := by
  have hseen : ∀ r ∈ s.reservations.rows, .reservation r.id ∉ l.locks →
      (l.view s).reservations.get r.id = some r := fun r hr hfree =>
    (same_reservation (h.owned.row hfree s)).trans (Table.get_of_mem hr)
  intro r hr _ hkey hfree _ q hq hqp hqfree
  obtain ⟨r', hr', hid⟩ := List.mem_map.mp hkey
  have hold : oldestPending order bookId (l.view s) = some r' := by simpa using hr'
  obtain ⟨hmem, hp⟩ := oldestPending_mem hold
  obtain rfl : r' = r := by
    have hget : (l.view s).reservations.get r'.id = some r' := Table.get_of_mem hmem
    rw [RowKey.reservation.inj hid] at hget
    exact Option.some.inj (hget.symm.trans (hseen r hr hfree))
  rw [(isPendingOf_iff.mp hp).1] at hqp
  exact oldestPending_le hold (Table.mem_of_get (hseen q hq hqfree)) hqp

end TakenUp

/-! ## The calls that give up a copy -/

section

variable {α : Type} {own : Option UUID} {T : Contract DB RowKey α}
  {l : Local DB RowKey Row Event} {s : DB} {svc : ReservationService} {env : Env}
  {id memberId bookId : UUID}

variable (hT : InLine own T)

include hT

/-- A locked reservation is taken out of the queue. -/
theorem inLine_update {f : Reservation → Reservation} (hf : ∀ r, (f r).status ≠ .pending)
    (h : TakenUp (some id) l s) (hlock : .reservation id ∈ l.locks) :
    wp lax T (updateReservation id f)
      (fun _ l' s' => TakenUp none l' s' ∧ ∀ k ∈ l.locks, k ∈ l'.locks) l s := by
  refine ⟨fun s' _ => hT.point _ _ _ (firstInLine_held hlock), fun A s' ha hk _ r hr => ?_⟩
  have hA : ∀ a ∈ A, a = .reservation id := fun a ha' =>
    List.mem_singleton.mp (ha.mem_of_one (by simp) a ha')
  cases hget : (l.view s').reservations.get id with
  | none => simp [hget] at hr
  | some q =>
    simp only [hget] at hr
    obtain rfl := Except.ok.inj hr
    refine ⟨TakenUp.take ((h.later ha.later).hold fun x hx hne _ => ?_) hk (hf q), fun k hk' =>
      List.mem_append_right _ hk'⟩
    exact absurd (RowKey.reservation.inj (hA _ hx)).symm (by simpa using hne)

/-- A copy is put back on the shelf. -/
theorem inLine_restore (h : TakenUp none l s) :
    wp lax T (do
      match ← BookRepository.getByIdForUpdate bookId with
      | some book =>
        LibraryPlatform.updateBook bookId (fun _ b => do
          checkCopies b.totalCopies (book.availableCopies + 1)
          pure { b with availableCopies := book.availableCopies + 1 })
        note (.restored bookId)
      | none => pure ())
    (fun _ l' s' => TakenUp none l' s' ∧ ∀ k ∈ l.locks, k ∈ l'.locks) l s := by
  have hother : ∀ {keys L : List RowKey} {v : DB}, (∀ k ∈ keys, k = .book bookId) →
      T.point keys L v := fun hkeys => hT.point _ _ _ (firstInLine_unqueued fun x hx => by
        cases hkeys _ hx)
  simp only [Prog.bind_eq, wp_bind]
  refine wp_lockOne (fun _ => one_of_option) (fun s₁ _ => hother fun k hk => mem_lookup hk)
    fun A s₁ h₁ hA _ => ?_
  have held : TakenUp none (l.hold A) s₁ := (h.later h₁).hold fun x hx _ _ => by
    cases mem_lookup (hA _ hx)
  cases (l.view s₁).activeBook bookId with
  | none => exact ⟨held, fun k hk => List.mem_append_right _ hk⟩
  | some b =>
    simp only [wp_bind]
    refine wp_updateRow (fun _ _ => hother fun k hk => List.mem_singleton.mp hk)
      fun B s₂ r h₂ hB hk => ⟨?_, fun k hk =>
        List.mem_append_right _ (List.mem_append_right _ hk)⟩
    refine (TakenUp.write (TakenUp.hold (held.later h₂) fun x hx _ _ => ?_) hk (by simp) r).noted _
    cases hB _ hx

/-- A copy is handed on to whoever is first in line. -/
theorem inLine_promote {order : RowOrder Reservation} {now : Int} (h : TakenUp none l s) :
    wp lax T (svc.promoteNextReservation order now bookId)
    (fun _ l' s' => TakenUp none l' s' ∧ ∀ k ∈ l.locks, k ∈ l'.locks) l s := by
  unfold ReservationService.promoteNextReservation
  simp only [Prog.bind_eq, wp_bind]
  refine wp_lockOne (fun _ => one_of_option) (fun s₁ h₁ => hT.point _ _ _ (h.later h₁).oldest)
    fun A s₁ h₁ hA hk => ?_
  have held := h.later h₁
  cases hr : oldestPending order bookId (l.view s₁) with
  | none =>
    simp only [hr, Option.toList_none, List.map_nil, List.not_mem_nil, imp_false] at hA
    obtain rfl : A = [] := List.eq_nil_iff_forall_not_mem.mpr hA
    exact inLine_restore hT held
  | some r =>
    simp only [hr, Option.toList_some, List.map_cons, List.map_nil, List.mem_singleton] at hA hk
    simp only [wp_bind]
    have hnext : TakenUp (some r.id) (l.hold A) s₁ := held.weaken.hold fun x hx hne _ =>
      absurd (RowKey.reservation.inj (hA _ hx)).symm (by simpa using hne)
    refine wp_mono ?_ (inLine_update hT (by simp) hnext (hk _ rfl))
    exact fun _ l' s' h' => ⟨h'.1.noted _, fun k hk' => h'.2 k (List.mem_append_right _ hk')⟩

theorem inLine_returnBook :
    wp lax T ((getBorrowService svc).returnBook env id) (fun _ l' s' => TakenUp none l' s')
      .init s := by
  unfold BorrowService.returnBook
  simp only [wp_mapError, Prog.bind_eq, wp_bind]
  refine wp_select fun s₁ h₁ => wp_orRaise fun record _ => ?_
  have hread : TakenUp none ((Local.init : Local DB RowKey Row Event).snap s₁) s₁ :=
    TakenUp.init.snap s₁
  split
  · exact hread
  · simp only [wp_bind]
    refine wp_updateRow (fun _ _ => hT.point _ _ _ (firstInLine_unqueued fun x hx => ?_))
      fun A s₂ r h₂ hA hk => ?_
    · cases List.mem_singleton.mp hx
    · have held := TakenUp.hold (hread.later h₂) (A := A) fun x hx _ _ => by cases hA _ hx
      refine wp_mono (fun _ _ _ h' => h'.1) (inLine_promote hT (held.write hk (by simp) r))

/-- The reservation that is to be cancelled is asked for, and locked first of all. -/
theorem inLine_cancelReservation (hown : own = some id) :
    wp lax T (svc.cancelReservation env id memberId) (fun _ l' s' => TakenUp none l' s')
      .init s := by
  unfold ReservationService.cancelReservation
  simp only [Prog.bind_eq, wp_bind]
  refine wp_lockOne (fun _ => one_of_option) (fun s₁ _ => hT.point _ _ _ ?_)
    fun A s₁ h₁ hA hk => wp_orRaise fun r hr => ?_
  · intro q _ _ hkey _ hne
    rw [hown, RowKey.reservation.inj (mem_lookup hkey)] at hne
    exact absurd rfl hne
  · have hget : s₁.reservations.get id = some r := hr
    obtain rfl : r.id = id := Table.key_of_get hget
    have hnext : TakenUp (some r.id) ((Local.init : Local DB RowKey Row Event).hold A) s₁ :=
      TakenUp.init.hold fun x hx hne _ =>
        absurd (RowKey.reservation.inj (mem_lookup (hA _ hx))).symm (by simpa using hne)
    refine wp_raiseIf fun _ => wp_raiseIf fun _ => ?_
    refine wp_mono ?_ (inLine_update hT (by simp) hnext (hk _ (by simp [hget])))
    rintro _ l₂ s₂ ⟨h₂, _⟩
    have hlast : ∀ {l' : Local DB RowKey Row Event} {s' : DB}, TakenUp none l' s' →
        wp lax T (do orRaise (← ReservationRepository.getById r.id) .staleData : Tx Reservation)
          (fun _ l' s' => TakenUp none l' s') l' s' := by
      intro l' s' h'
      simp only [Prog.bind_eq, wp_bind]
      exact wp_select fun s₃ h₃ => wp_orRaise fun _ _ => (h'.later h₃).snap s₃
    split
    · simp only [wp_bind]
      refine wp_mono (fun _ l' s' h' => ?_) (inLine_promote hT h₂)
      simpa only [Prog.bind_eq, wp_bind] using hlast h'.1
    · simpa only [Prog.bind_eq, wp_bind] using hlast h₂

theorem inLine_expireHolds {rest : List Reservation} {n : Nat}
    (hrows : ∀ r ∈ rest, .reservation r.id ∈ l.locks) (h : TakenUp none l s) :
    wp lax T (svc.expireHolds env rest n) (fun _ l' s' => TakenUp none l' s') l s := by
  induction rest generalizing n l s with
  | nil => exact h
  | cons r rest ih =>
    simp only [ReservationService.expireHolds, Prog.bind_eq, wp_bind]
    refine wp_mono ?_ (inLine_update hT (by simp) h.weaken (hrows r List.mem_cons_self))
    rintro _ l₁ s₁ ⟨h₁, hgrow₁⟩
    refine wp_mono ?_ (inLine_promote hT h₁)
    rintro _ l₂ s₂ ⟨h₂, hgrow₂⟩
    exact ih (fun q hq => hgrow₂ _ (hgrow₁ _ (hrows q (List.mem_cons_of_mem _ hq)))) h₂

theorem inLine_processExpiredHolds :
    wp lax T (svc.processExpiredHolds env) (fun _ l' s' => TakenUp none l' s') .init s := by
  unfold ReservationService.processExpiredHolds
  simp only [Prog.bind_eq, wp_bind]
  have hhold : ∀ (v : DB) (x : UUID), .reservation x ∈ (v.reservations.rows.filter
      (isExpiredHold (env.clock 0))).map (fun r => RowKey.reservation r.id) → ¬v.Queued x := by
    rintro v x hx ⟨q, hget, hq⟩
    obtain ⟨r, hr, he⟩ := List.mem_map.mp hx
    obtain ⟨hmem, hp⟩ := List.mem_filter.mp hr
    obtain rfl := RowKey.reservation.inj he
    obtain rfl : r = q := Option.some.inj ((Table.get_of_mem hmem).symm.trans hget)
    simp [isExpiredHold, hq] at hp
  refine ⟨fun A s₁ _ => hT.point _ _ _ (firstInLine_unqueued (hhold s₁)), fun A s₁ ha hk => ?_⟩
  refine inLine_expireHolds hT (fun r hr => hk _ (List.mem_map.mpr ⟨r, ?_, rfl⟩)) ?_
  · exact (env.reservationOrder.perm _).mem_iff.mp hr
  · refine TakenUp.init.hold fun x hx _ _ hq => ?_
    obtain ⟨u, _, hwant, hrow⟩ := ha.taken _ hx
    exact hhold u x hwant ((queued_congr (same_reservation hrow)).mp hq)

end

/-! ## The requests -/

/-- The reservation that the route is asked to cancel. -/
def Route.cancels : Route → Option UUID
  | .cancelReservation id => some id
  | _ => none

/-- The route may hand a copy on to somebody who waits. -/
def Route.handsOn : Route → Bool
  | .returnBook _ | .cancelReservation _ | .sweepExpiredHolds => true
  | _ => false

/-- The contract of a visit about the queues. -/
def Visit.queueing (v : Visit) : Contract DB RowKey Response where
  publish _ L s t := ∀ now credentials env route, v = .write now credentials env route →
    route.handsOn → Unqueued L s t
  guard _ _ _ := True
  point keys L s := ∀ now credentials env route, v = .write now credentials env route →
    route.handsOn → FirstInLine route.cancels keys L s

section

variable {n : Nat} {api : Api} {visits : Fin n → Visit} {s₀ : DB} {s s' : Traffic n} {i : Fin n}
  {m : Move RowKey} {v : Visit} {now : Int} {credentials : Option HTTPAuthorizationCredentials}
  {env : Env} {route : Route} {db t u : DB} {id : UUID} {r r' : Reservation}

theorem TakenUp.unqueued {l : Local DB RowKey Row Event} (h : TakenUp none l db) :
    Unqueued l.locks db (l.view db) := fun id hk hq => h.taken id (by simp) hk hq

theorem inLine_handle {α : Type} {T : Contract DB RowKey α} (hT : InLine route.cancels T)
    (hroute : route.handsOn) :
    wp lax T (api.handle now credentials env route) (fun _ l' s' => TakenUp none l' s')
      .init db := by
  have hop : ∀ u op t, Dispatched api now credentials u route op →
      wp lax T (op.run api.reservations env) (fun _ l' s' => TakenUp none l' s') .init t := by
    intro u op t hd
    cases hd <;> simp only [Op.run, Prog.map_eq, wp_bind, wp_ret]
    case returnBook => exact inLine_returnBook hT
    case cancelReservation => exact inLine_cancelReservation hT rfl
    case sweepExpiredHolds => exact inLine_processExpiredHolds hT
    all_goals cases hroute
  simp only [Api.handle, Prog.bind_eq, wp_bind]
  cases hin : route.inTransaction with
  | false =>
    obtain ⟨op, hret, hd⟩ := dispatched_of_direct hin
    rw [hret]
    exact hop db op db (hd db)
  | true =>
    refine wp_mono ?_ (wp_reads (api.dispatch_readOnly route) trivial ⟨rfl, rfl⟩)
    rintro op l' s' ⟨_, hlocks, w, _, _, hcall⟩
    refine fun t _ => ⟨hT.publish _ _ _ _ ?_, hop w op _ (dispatched_of_call hcall)⟩
    simp [Unqueued, hlocks]

theorem wp_queueing (v : Visit) :
    wp lax v.queueing (v.run api) (Final lax v.queueing) .init db := by
  by_cases hv : ∃ now credentials env route, v = .write now credentials env route ∧ route.handsOn
  · obtain ⟨now, credentials, env, route, rfl, hroute⟩ := hv
    have hT : InLine route.cancels (Visit.write now credentials env route).queueing := by
      refine ⟨fun _ _ _ _ h _ _ _ _ he _ => h, fun _ _ _ h _ _ _ _ he _ => ?_⟩
      cases he
      exact h
    simp only [Visit.run, Prog.map_eq, wp_bind, wp_ret]
    refine wp_mono ?_ (inLine_handle hT hroute)
    exact fun _ l' s' h t ht _ _ _ _ _ _ => (h.later ht).unqueued
  · have hnone : ∀ now credentials env route, v = .write now credentials env route →
        ¬route.handsOn := fun now credentials env route he hr =>
      hv ⟨now, credentials, env, route, he, hr⟩
    refine wp_mono ?_ (wp_unasked ?_ ?_ (v.run api))
    · exact fun _ _ _ _ _ _ now c env route he hr => absurd hr (hnone now c env route he)
    · exact fun _ _ _ now c env route he hr => absurd hr (hnone now c env route he)
    · exact fun _ _ _ _ now c env route he hr => absurd hr (hnone now c env route he)

theorem queueing_good (h : Sys.Reach Sys.Any (Traffic.start api visits s₀) s) :
    Sys.Good lax (fun i => (visits i).queueing) s :=
  Sys.good_of_reach (fun _ _ _ _ _ _ _ => ⟨trivial, fun _ _ => trivial⟩)
    (Sys.good_start trivial fun i => wp_queueing (visits i))
    (h.mono fun _ _ _ _ _ _ _ _ _ _ => trivial)

/-! ## Who promotes a reservation -/

theorem reservations_ne_of_promoted {t u : DB} (hr : t.reservations.get id = some r)
    (hp : r.status = .pending) (hr' : u.reservations.get id = some r') (hh : r'.status = .hold) :
    u.reservations ≠ t.reservations := by
  intro he
  rw [he, hr] at hr'
  rw [← Option.some.inj hr', hp] at hh
  cases hh

/-- A hold is given by a return, a sweep, or the cancellation of another reservation. -/
theorem Op.Effect.promotes {D : Discipline DB RowKey} {guard : Guard} {svc : ReservationService}
    {op : Op} (h : op.Effect D guard t svc env t u) (hr : t.reservations.get id = some r)
    (hp : r.status = .pending) (hr' : u.reservations.get id = some r') (hh : r'.status = .hold) :
    (∃ x, op = .returnBook x) ∨ (∃ x memberId, op = .cancelReservation x memberId ∧ x ≠ id) ∨
      op = .processExpiredHolds := by
  have hsame := reservations_ne_of_promoted hr hp hr' hh
  have hput : ∀ x q, u.reservations = (t.put (.reservation x) (.reservation q)).reservations →
      q.status = .hold := by
    intro x q he
    rw [he, get_putReservation] at hr'
    split at hr'
    · obtain rfl := Option.some.inj hr'
      exact hh
    · rw [hr] at hr'
      rw [← Option.some.inj hr', hp] at hh
      cases hh
  cases op with
  | createBook => exact absurd (by rw [h.stored]; rfl) hsame
  | updateBook => cases h <;> exact absurd rfl hsame
  | deleteBook => cases h; exact absurd rfl hsame
  | borrowBook =>
    cases h with
    | held => cases hput _ _ rfl
    | shelf => exact absurd rfl hsame
  | returnBook x => exact .inl ⟨x, rfl⟩
  | renewBook => cases h; exact absurd rfl hsame
  | placeReservation => cases hput _ _ (by rw [h.stored])
  | cancelReservation x memberId =>
    refine .inr (.inl ⟨x, memberId, rfl, ?_⟩)
    rintro rfl
    cases h with
    | waiting => cases hput _ _ rfl
    | held hget _ hs =>
      rw [hr] at hget
      rw [← Option.some.inj hget, hp] at hs
      cases hs
  | processExpiredHolds => exact .inr (.inr rfl)

theorem Visit.Commits.promotes {D : Discipline DB RowKey} {guard : Guard}
    {svc : ReservationService} (h : v.Commits D (Op.effects D guard svc) api t u)
    (hr : t.reservations.get id = some r) (hp : r.status = .pending)
    (hr' : u.reservations.get id = some r') (hh : r'.status = .hold) :
    ∃ now credentials env route, v = .write now credentials env route ∧ route.handsOn ∧
      route.cancels ≠ some id := by
  have hsame := reservations_ne_of_promoted hr hp hr' hh
  cases h with
  | nothing => exact absurd rfl hsame
  | op _ hd he =>
    refine ⟨_, _, _, _, rfl, ?_⟩
    rcases he.promotes hr hp hr' hh with ⟨x, rfl⟩ | ⟨x, memberId, rfl, hne⟩ | rfl <;> cases hd
    · exact ⟨rfl, by simp [Route.cancels]⟩
    · exact ⟨rfl, by simpa [Route.cancels] using hne⟩
    · exact ⟨rfl, by simp [Route.cancels]⟩
  | tokens ht =>
    obtain ⟨_, rfl⟩ := ht
    exact absurd rfl hsame

/-- Routes that hand copies on make no rows. -/
theorem mint_of_handsOn (h : route.handsOn) :
    (Visit.write now credentials env route).mint = none := by
  cases route <;> first | rfl | cases h

theorem tidy_traffic (h : Sys.Reach Sys.Any (Traffic.start api visits s₀) s) :
    (s.txn i).Tidy (visits i).mint := by
  induction h with
  | refl => exact .running (tidy_visit touches_anything (visits i))
  | tail j m _ _ hs ih => exact Sys.tidy_step ih hs

theorem lax_keeping : Keeping lax api visits :=
  keeping_of fun _ _ _ _ _ => ⟨trivial, fun _ => trivial⟩

/-- However the requests are interleaved, a reservation is promoted by a request that has locked
it, and where the lock was taken it came first of those waiting for the book: whoever was waiting
then and still waits after the promotion has not reserved earlier. -/
theorem promotions_first_come (h : Sys.Reach Sys.Any (Traffic.start api visits s₀) s)
    (hs : s.step i m = some s') (hr : s.db.reservations.get id = some r) (hp : r.status = .pending)
    (hr' : s'.db.reservations.get id = some r') (hh : r'.status = .hold) :
    ∃ t, Sys.HeldSince Sys.Any (Traffic.start api visits s₀) i (.reservation id) t s ∧
      t.db.reservations.get id = some r ∧
      ∀ q ∈ t.db.reservations.rows, isPendingOf r.bookId q → s'.db.Queued q.id →
        r.reservedAt ≤ q.reservedAt := by
  obtain rfl : r.id = id := Table.key_of_get hr
  have hrow : s'.db.reservations.get r.id ≠ s.db.reservations.get r.id := by
    intro he
    rw [hr, hr'] at he
    rw [Option.some.inj he, hp] at hh
    cases hh
  have hgood : ∀ u, Sys.Reach Sys.Any (Traffic.start api visits s₀) u →
      Sys.Good lax (fun i => (visits i).queueing) u := fun u hu => queueing_good hu
  -- the promotion is a commit of a visit that hands copies on
  have hcommit := (lax_keeping.move trivial (Traffic.unguarded h) (fun _ _ _ _ _ _ => trivial)
    hs).resolve_left fun he => hrow (by rw [he])
  obtain ⟨now, credentials, env, route, hv, hroute, hcancels⟩ := hcommit.promotes hr hp hr' hh
  -- which has had the lock of the reservation since some state of the run
  have hlock : .reservation r.id ∈ (s.txn i).locks := by
    by_contra hfree
    exact hrow (same_reservation ((hgood s h).step_row hs hfree))
  obtain ⟨t, hsince⟩ := Sys.held_since (i := i) rfl h hlock
  have hkept := fun x => hsince.keeps (x := x) hgood hlock
  have hrt : t.db.reservations.get r.id = some r :=
    (same_reservation (hkept _ (.inl rfl)).2).symm.trans hr
  refine ⟨t, hsince, hrt, fun q hq hqp hwaits => ?_⟩
  obtain ⟨m', t', _, hs', hk', _⟩ := hsince.taken
  -- it waited for the lock, and its point says who is first
  have hneeds : .reservation r.id ∈ (t.txn i).needs t.db := by
    refine (Sys.step_needs hs' hsince.free hk').resolve_right ?_
    rintro ⟨f, next, l, hins⟩
    have htidy := tidy_traffic (i := i) hsince.reached
    rw [hins, hv, mint_of_handsOn hroute] at htidy
    cases htidy with
    | running htidy => cases htidy.1
  obtain ⟨keys, hkeys, hpoint⟩ := (hgood t hsince.reached).point hneeds
  rw [hkeys] at hneeds
  have hfirst := hpoint now credentials env route hv hroute r (Table.mem_of_get hrt) hp
    (List.mem_filter.mp hneeds).1 hsince.free hcancels q hq hqp
  -- whom it had taken up before does not wait any more
  by_contra hearlier
  have hqlock : .reservation q.id ∈ (t.txn i).locks := by
    by_contra hqfree
    exact hearlier (hfirst hqfree)
  obtain ⟨hqs, hqrow⟩ := hkept _ (.inr hqlock)
  have hqueued : s.db.Queued q.id :=
    (queued_congr (same_reservation hqrow)).mpr (queued_of_mem hq (isPendingOf_iff.mp hqp).2)
  rcases ((hgood s h).moved (fun _ _ _ _ _ _ => trivial) hs).publish with he | ⟨_, hpublish⟩
  · exact hrow (by rw [he])
  · exact hpublish now credentials env route hv hroute q.id hqs hqueued hwaits

end

/-- Member 13 waits for the only copy, which is brought back while member 11 joins the queue. -/
def demoQueue : DB :=
  { demoLoaned with
    borrowRecords := Table.empty.put { demoLoan100 with memberId := 12 }
    reservations := Table.empty.put ⟨200, 13, 1, hour, none, .pending⟩ }

/-- The clock of the second request is behind. -/
def demoJoining : Fin 2 → Visit
  | 0 => .write 2 none (demoEnv 0 (2 * hour)) (.returnBook 100)
  | 1 => .write 2 (demoBearer "member") (demoEnv 201 0) (.placeReservation 1)

/-- The return locks the reservation before the other one is placed, and is about to commit. -/
def demoJoin (i j : Fin 2) : List (Fin 2 × Move RowKey) :=
  [(i, .run), (i, .acquire (.borrowRecord 100)), (i, .acquire (.reservation 200)), (i, .run),
    (i, .run)] ++ List.replicate 3 (j, .run) ++
    [(j, .acquire (.book 1)), (j, .run), (j, .run), (j, .acquire (.member 11))] ++
    List.replicate 4 (j, .run)

/-- Who came later is passed over, though by the clocks the reservation is the earlier one. -/
theorem promotions_first_come_demo :
    ∃ s s' t : Traffic 2,
      (Traffic.start demoApi demoJoining demoQueue).runs (demoJoin 0 1) = some s ∧
      s.step 0 .run = some s' ∧
      s'.db.reservations.rows = [⟨200, 13, 1, hour, some (50 * hour), .hold⟩,
        ⟨201, 11, 1, 0, none, .pending⟩] ∧
      Sys.HeldSince Sys.Any (Traffic.start demoApi demoJoining demoQueue) 0 (.reservation 200) t s ∧
      ∀ q ∈ t.db.reservations.rows, isPendingOf 1 q → s'.db.Queued q.id → hour ≤ q.reservedAt := by
  have hruns : ((Traffic.start demoApi demoJoining demoQueue).runs (demoJoin 0 1)).any fun s =>
      s.db.reservations.get 200 = some ⟨200, 13, 1, hour, none, .pending⟩ ∧
      (s.step 0 .run).any fun s' =>
        s'.db.reservations.rows = [⟨200, 13, 1, hour, some (50 * hour), .hold⟩,
          ⟨201, 11, 1, 0, none, .pending⟩] := by decide
  obtain ⟨s, hs, hend⟩ := (Option.any_eq_true _ _).mp hruns
  obtain ⟨hbefore, hcommit⟩ := of_decide_eq_true hend
  obtain ⟨s', hs', hrows⟩ := (Option.any_eq_true _ _).mp hcommit
  have hrows := of_decide_eq_true hrows
  have hafter : (⟨200, 13, 1, hour, some (50 * hour), .hold⟩ : Reservation) ∈
      s'.db.reservations.rows := by simp [hrows]
  obtain ⟨t, hsince, _, hfirst⟩ := promotions_first_come (Sys.reach_of_runs hs) hs' hbefore rfl
    (Table.get_of_mem hafter) rfl
  exact ⟨s, s', t, hs, hs', hrows, hsince, hfirst⟩

end LibraryPlatform

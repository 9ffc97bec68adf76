import LibraryPlatform.Ownership
import LibraryPlatform.Traffic

/-!
# Answers in the middle of the traffic

Every `GET` is answered from one committed state, its authorization included, whatever is
borrowed, returned or withdrawn while it reads.
-/
namespace LibraryPlatform

open KeyedTable Transaction ReservationRepository

variable {n : Nat} {api : Api} {visits : Fin n → Visit} {s₀ : DB} {s : Traffic n} {i : Fin n}
  {now : Int} {credentials : Option HTTPAuthorizationCredentials} {env : InquiryEnv}
  {inquiry : Inquiry}

theorem ask_readOnly (api : Api) (now : Int) (credentials : Option HTTPAuthorizationCredentials)
    (env : InquiryEnv) (inquiry : Inquiry) :
    ((Visit.ask now credentials env inquiry).run api).ReadOnly :=
  (Api.answer_readOnly inquiry).bind fun _ => trivial

/-- A state of the run, on which the inquiry alone is answered so. -/
structure AnsweredFrom (api : Api) (visits : Fin n → Visit) (s₀ : DB) (now : Int)
    (credentials : Option HTTPAuthorizationCredentials) (env : InquiryEnv) (inquiry : Inquiry)
    (s : Traffic n) (a : Answer) (t : Traffic n) : Prop where
  reached : Sys.Reach Sys.Any (Traffic.start api visits s₀) t
  before : Sys.Reach Sys.Any t s
  answer : call (api.answer now credentials env inquiry) t.db = (.ok a, t.db)

theorem answered_from (hi : visits i = .ask now credentials env inquiry)
    (h : Sys.Reach Sys.Any (Traffic.start api visits s₀) s) {r : Response}
    (hr : s.txn i = .ended (.returned r)) :
    ∃ a t, r = .answer a ∧
      AnsweredFrom api visits s₀ now credentials env inquiry s a t := by
  have hstart : (Traffic.start api visits s₀).txn i =
      .running ((Visit.ask now credentials env inquiry).run api) .init := by
    simp only [Traffic.start, Sys.start, hi]
  obtain ⟨t, h₀, ht, ho⟩ := Sys.reads_one_state (ask_readOnly api now credentials env inquiry)
    hstart h hr (by simp)
  have hcall := Outcome.of_eq_returned.mp ho.symm
  rcases (Api.answer_readOnly inquiry).call_bind (fun a => .ret (Response.answer a)) t.db with
    ⟨a, ha, hbind⟩ | ⟨e, _, hbind⟩
  · have hr' : call ((Visit.ask now credentials env inquiry).run api) t.db =
      (.ok (.answer a), t.db) := hbind
    rw [hr'] at hcall
    exact ⟨a, t, (Except.ok.inj hcall).symm, h₀, ht, ha⟩
  · have hr' : call ((Visit.ask now credentials env inquiry).run api) t.db =
      (.error e, t.db) := hbind
    rw [hr'] at hcall
    cases hcall

/-- However the visits are interleaved, an inquiry that ends is answered or refused as it would
be alone on one committed state that the run went through, and it changes nothing itself. -/
theorem inquiry_reads_one_state (hi : visits i = .ask now credentials env inquiry)
    (h : Sys.Reach Sys.Any (Traffic.start api visits s₀) s) :
    (∀ o, s.txn i = .ended o → o ≠ .aborted →
      ∃ t, Sys.Reach Sys.Any (Traffic.start api visits s₀) t ∧ Sys.Reach Sys.Any t s ∧
        o = Outcome.of (call (Response.answer <$> api.answer now credentials env inquiry) t.db).1) ∧
    ∀ m s', s.step i m = some s' → s'.db = s.db := by
  have hstart : (Traffic.start api visits s₀).txn i =
      .running ((Visit.ask now credentials env inquiry).run api) .init := by
    simp only [Traffic.start, Sys.start, hi]
  have hread := ask_readOnly api now credentials env inquiry
  exact ⟨fun o ho hdone => Sys.reads_one_state hread hstart h ho hdone,
    fun m s' hs => Sys.reader_step hread hstart h hs⟩

def demoInquiryEnv : InquiryEnv := ⟨demoDashboardEnv, demoRules, .stored, .stored, .stored⟩

/-- A librarian asks for the summary while a member borrows the only copy. -/
def demoVisits : Fin 2 → Visit
  | 0 => .ask 1 (demoBearer "librarian") demoInquiryEnv (.getDashboardSummary 30)
  | 1 => .write 1 (demoBearer "member") (demoEnv 100 hour)
    (.borrowBook "00000000-0000-0000-0000-000000000001")

/-- The librarian counts the books, the loan is made, and the librarian counts the loans. -/
def demoMeanwhile (i j : Fin 2) : List (Fin 2 × Move RowKey) :=
  List.replicate 2 (i, .run) ++ List.replicate 3 (j, .run) ++
    [(j, .acquire (.member 11)), (j, .run), (j, .run), (j, .acquire (.book 1))] ++
    List.replicate 5 (j, .run) ++ List.replicate 10 (i, .run)

/-- One copy, on the shelf. -/
def demoSummary : DashboardSummary where
  inventory := ⟨1, 1, 0, 1⟩
  circulation := ⟨0, ⟨0, 0, 0⟩⟩
  members := ⟨1, 0⟩
  reservations := ⟨0, 0, 0⟩
  overdue := ⟨0, 0, 0⟩
  popularBooks := []
  generatedAt := 0

/-- The loan is made before the summary is answered, and the summary does not count it. -/
theorem inquiry_reads_one_state_demo :
    ∃ s t, (Traffic.start demoApi demoVisits demoCatalog).runs (demoMeanwhile 0 1) = some s ∧
      s.db.borrowRecords.rows.length = 1 ∧ demoSummary.inventory.checkedOutCopies = 0 ∧
      Sys.Reach Sys.Any t s ∧ Outcome.returned (.answer (.summary demoSummary)) =
        Outcome.of (call (Response.answer <$> demoApi.answer 1 (demoBearer "librarian")
          demoInquiryEnv (.getDashboardSummary 30)) t.db).1 := by
  have hruns : ((Traffic.start demoApi demoVisits demoCatalog).runs
      (demoMeanwhile 0 1)).any fun s =>
      s.db.borrowRecords.rows.length = 1 ∧
      (s.txn 0).result = some (.answer (.summary demoSummary)) := by decide
  obtain ⟨s, hs, hend⟩ := (Option.any_eq_true _ _).mp hruns
  obtain ⟨hloan, hresult⟩ := of_decide_eq_true hend
  obtain ⟨t, _, ht, ho⟩ := (inquiry_reads_one_state (i := 0) rfl (Sys.reach_of_runs hs)).1 _
    (Txn.result_eq_some.mp hresult) (by simp)
  exact ⟨s, t, hs, hloan, rfl, ht, ho⟩

/-! ## Active reservations -/

/-- What `GET /reservations/active` lists in a state. -/
structure Lists (s : DB) (m : Member) (items : List ReservationDetailResponse) : Prop where
  complete : ∀ r ∈ s.reservations.rows, r.memberId = m.id → r.status.isActive →
    s.detail r ∈ items
  sound : ∀ x ∈ items, ∃ r ∈ s.reservations.rows, r.memberId = m.id ∧ r.status.isActive ∧
    x = s.detail r
  once : (items.map ReservationDetailResponse.id).Nodup
  sorted : items.Pairwise fun a b => a.reservedAt ≤ b.reservedAt

theorem lists_sorted (order : RowOrder Reservation) (s : DB) (m : Member) :
    Lists s m (((order.apply (s.reservations.rows.filter (isActiveOf m.id))).insertionSort
      (fun a b => a.reservedAt ≤ b.reservedAt)).map s.detail) := by
  obtain ⟨hperm, hsorted⟩ := order.arranged Reservation.reservedAt
    (s.reservations.rows.filter (isActiveOf m.id))
  have hmem : ∀ r, r ∈ (order.apply (s.reservations.rows.filter (isActiveOf m.id))).insertionSort
      (fun a b => a.reservedAt ≤ b.reservedAt) ↔
      r ∈ s.reservations.rows ∧ r.memberId = m.id ∧ r.status.isActive := by
    intro r
    rw [hperm.mem_iff, List.mem_filter]
    simp [isActiveOf]
  refine ⟨fun r hr hm ha => List.mem_map_of_mem ((hmem r).mpr ⟨hr, hm, ha⟩), fun x hx => ?_, ?_, ?_⟩
  · obtain ⟨r, hr, rfl⟩ := List.mem_map.mp hx
    obtain ⟨hrow, hm, ha⟩ := (hmem r).mp hr
    exact ⟨r, hrow, hm, ha, rfl⟩
  · rw [List.map_map, (hperm.map _).nodup_iff]
    exact s.reservations.unique.sublist (List.filter_sublist.map _)
  · rw [List.pairwise_map]
    exact hsorted

/-- A member who asks for the active reservations is told of all of them and of no others, in the
order of the times of reservation and with the places in the queues, as they were together in one
committed state, in which the caller was that member. -/
theorem active_reservations_listed {items : List ReservationDetailResponse}
    (hi : visits i = .ask now credentials env .listActiveReservations)
    (h : Sys.Reach Sys.Any (Traffic.start api visits s₀) s)
    (hr : s.txn i = .ended (.returned (.answer (.reservations items)))) :
    ∃ t u m, Sys.Reach Sys.Any (Traffic.start api visits s₀) t ∧ Sys.Reach Sys.Any t s ∧
      Allowed api now credentials t.db [.member] u ∧ Represents t.db u m ∧
      Lists t.db m items := by
  obtain ⟨a, t, ha, h₀, ht, hcall⟩ := answered_from hi h hr
  cases ha
  obtain ⟨u, m, hu, hm, rfl⟩ := listActiveReservations_ok hcall
  exact ⟨t, u, m, h₀, ht, hu, hm, lists_sorted _ _ _⟩

/-- Member 12 has the copy of book 1, for which member 13 waits before member 11. For member 11 a
copy of book 2 is held, of which a reservation has been cancelled. -/
def demoCrowd : DB :=
  { demoNeighbours with
    books := (Table.empty.put ⟨1, "9780141439587", "Emma", "Austen", none, 1, 0, false, none⟩).put
      ⟨2, "9780141439686", "Persuasion", "Austen", none, 1, 0, false, none⟩
    borrowRecords := Table.empty.put ⟨100, 12, 1, hour, hour + 14 * day, none, 0, .borrowed⟩
    reservations := (((Table.empty.put ⟨200, 13, 1, 2 * hour, none, .pending⟩).put
      ⟨201, 11, 1, 4 * hour, none, .pending⟩).put
      ⟨202, 11, 2, 3 * hour, some (51 * hour), .hold⟩).put ⟨203, 11, 2, hour, none, .cancelled⟩ }

/-- Member 11 asks for the reservations while the copy of book 1 is brought back. -/
def demoQueueing : Fin 2 → Visit
  | 0 => .ask 1 (demoBearer "member") demoInquiryEnv .listActiveReservations
  | 1 => .write 1 none (demoEnv 0 (5 * hour)) (.returnBook 100)

/-- Between the first reads of the inquiry and the others, the copy goes to member 13. -/
def demoPromoting (i j : Fin 2) : List (Fin 2 × Move RowKey) :=
  List.replicate 2 (i, .run) ++
    [(j, .run), (j, .acquire (.borrowRecord 100)), (j, .acquire (.reservation 200))] ++
    List.replicate 3 (j, .run) ++ List.replicate 4 (i, .run)

/-- Nobody else waits for book 1 any more, and member 11 is told of the second place. -/
theorem active_reservations_listed_demo :
    let items : List ReservationDetailResponse :=
      [⟨202, 11, 2, 3 * hour, some (51 * hour), .hold, none,
        some ⟨2, "Persuasion", "Austen", "9780141439686"⟩⟩,
      ⟨201, 11, 1, 4 * hour, none, .pending, some 2,
        some ⟨1, "Emma", "Austen", "9780141439587"⟩⟩]
    ∃ s t u m, (Traffic.start demoApi demoQueueing demoCrowd).runs (demoPromoting 0 1) = some s ∧
      s.db.reservations.get 200 = some ⟨200, 13, 1, 2 * hour, some (53 * hour), .hold⟩ ∧
      Sys.Reach Sys.Any t s ∧ Represents t.db u m ∧ Lists t.db m items := by
  intro items
  have hruns : ((Traffic.start demoApi demoQueueing demoCrowd).runs
      (demoPromoting 0 1)).any fun s =>
      s.db.reservations.get 200 = some ⟨200, 13, 1, 2 * hour, some (53 * hour), .hold⟩ ∧
      (s.txn 0).result = some (.answer (.reservations items)) := by decide
  obtain ⟨s, hs, hend⟩ := (Option.any_eq_true _ _).mp hruns
  obtain ⟨hheld, hanswer⟩ := of_decide_eq_true hend
  obtain ⟨t, u, m, _, ht, _, hm, hlists⟩ := active_reservations_listed (i := 0) rfl
    (Sys.reach_of_runs hs) (Txn.result_eq_some.mp hanswer)
  exact ⟨s, t, u, m, hs, hheld, ht, hm, hlists⟩

end LibraryPlatform

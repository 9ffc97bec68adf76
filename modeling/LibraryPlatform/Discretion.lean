import LibraryPlatform.Answers

/-!
# What an inquiry gives away

The catalog is open to everybody. Of the accounts, profiles, loans and reservations, whoever asks
learns what belongs to the account of the token, its places in the queues, and nothing else; only
the staff may ask for more.
-/
namespace LibraryPlatform

open KeyedTable Transaction ReservationRepository

/-- The key of the account that the token names, if it is valid. -/
def Api.subject (api : Api) (now : Int) (credentials : Option HTTPAuthorizationCredentials) :
    Option UUID := do
  let c ← credentials.filter (fun c => lower c.scheme = "bearer")
  let payload ← (api.decodeAndValidateToken now c.credentials).toOption
  let sub ← (payload.lookup "sub").filter (fun sub => sub ≠ "")
  pure (api.keyOf sub)

/-- What an account sees of a store: its own rows, and the catalog. A reservation that waits
comes with its place in the queue. -/
structure View where
  account : Option User
  profiles : List Member
  loans : List BorrowRecord
  reservations : List (Reservation × Option Nat)
  books : Table Book

def DB.place (s : DB) (r : Reservation) : Option Nat :=
  if r.status = .pending then some (queuePosition r.bookId r.reservedAt s) else none

/-- The profile is one of the account. -/
def DB.owns (s : DB) (subject : Option UUID) (memberId : UUID) : Bool :=
  s.members.rows.any fun m => m.id = memberId && subject = some m.userId

def DB.seenBy (s : DB) (subject : Option UUID) : View where
  account := subject.bind s.users.get
  profiles := s.members.rows.filter fun m => subject = some m.userId
  loans := s.borrowRecords.rows.filter fun r => s.owns subject r.memberId
  reservations := (s.reservations.rows.filter fun r =>
    s.owns subject r.memberId && r.status.isActive).map fun r => (r, s.place r)
  books := s.books

variable {api : Api} {now : Int} {credentials : Option HTTPAuthorizationCredentials}
  {env : InquiryEnv} {inquiry : Inquiry} {subject : Option UUID} {s t : DB} {m : Member} {u : User}

/-! ## Rows of one's own -/

theorem owns_of_mem (hm : m ∈ s.members.rows) (hs : subject = some m.userId) :
    s.owns subject m.id := by
  simp only [DB.owns, List.any_eq_true]
  exact ⟨m, hm, by simp [hs]⟩

theorem loans_seen (h : s.seenBy subject = t.seenBy subject) (hm : m ∈ s.members.rows)
    (hm' : m ∈ t.members.rows) (hs : subject = some m.userId) :
    s.borrowRecords.rows.filter (fun r => r.memberId = m.id) =
      t.borrowRecords.rows.filter fun r => r.memberId = m.id := by
  have hloans : s.borrowRecords.rows.filter (fun r => s.owns subject r.memberId) =
      t.borrowRecords.rows.filter fun r => t.owns subject r.memberId := congrArg View.loans h
  have hown := congrArg (List.filter fun r => r.memberId = m.id) hloans
  simp only [List.filter_filter] at hown
  have hall : ∀ w : DB, m ∈ w.members.rows → ∀ r : BorrowRecord,
      (decide (r.memberId = m.id) && w.owns subject r.memberId) = decide (r.memberId = m.id) := by
    intro w hw r
    by_cases hr : r.memberId = m.id
    · simp [hr, owns_of_mem hw hs]
    · simp [hr]
  simpa only [hall s hm, hall t hm'] using hown

theorem active_seen (h : s.seenBy subject = t.seenBy subject) :
    s.reservations.rows.filter (fun r => s.owns subject r.memberId && r.status.isActive) =
      t.reservations.rows.filter (fun r => t.owns subject r.memberId && r.status.isActive) ∧
    ∀ r ∈ s.reservations.rows, s.owns subject r.memberId → r.status.isActive →
      s.place r = t.place r := by
  have hpairs := congrArg View.reservations h
  have hrows := congrArg (List.map Prod.fst) hpairs
  simp only [DB.seenBy, List.map_map, Function.comp_def, List.map_id'] at hrows
  refine ⟨hrows, fun r hr ho ha => ?_⟩
  simp only [DB.seenBy, ← hrows, List.map_inj_left, Prod.mk.injEq, true_and] at hpairs
  exact hpairs r (List.mem_filter.mpr ⟨hr, by simp [ho, ha]⟩)

theorem reservations_seen (h : s.seenBy subject = t.seenBy subject) (hm : m ∈ s.members.rows)
    (hm' : m ∈ t.members.rows) (hs : subject = some m.userId) :
    s.reservations.rows.filter (isActiveOf m.id) =
      t.reservations.rows.filter (isActiveOf m.id) := by
  have hown := congrArg (List.filter fun r : Reservation => r.memberId = m.id) (active_seen h).1
  simp only [List.filter_filter] at hown
  have hall : ∀ w : DB, m ∈ w.members.rows → ∀ r : Reservation,
      (decide (r.memberId = m.id) && (w.owns subject r.memberId && r.status.isActive)) =
        isActiveOf m.id r := by
    intro w hw r
    by_cases hr : r.memberId = m.id
    · simp [isActiveOf, hr, owns_of_mem hw hs]
    · simp [isActiveOf, hr]
  simpa only [hall s hm, hall t hm'] using hown

theorem detail_seen (h : s.seenBy subject = t.seenBy subject) (hm : m ∈ s.members.rows)
    (hs : subject = some m.userId) {r : Reservation} (hr : r ∈ s.reservations.rows)
    (ha : isActiveOf m.id r) : s.detail r = t.detail r := by
  simp only [isActiveOf, Bool.and_eq_true, decide_eq_true_eq] at ha
  have hplace := (active_seen h).2 r hr (ha.1 ▸ owns_of_mem hm hs) ha.2
  have hbooks : s.books = t.books := congrArg View.books h
  unfold DB.place at hplace
  simp only [DB.detail, hplace, hbooks]

theorem profile_seen (h : s.seenBy subject = t.seenBy subject) (hs : subject = some m.userId) :
    m ∈ s.members.rows ↔ m ∈ t.members.rows := by
  have hprofiles := congrArg (fun v => m ∈ v.profiles) h
  simpa [DB.seenBy, hs] using hprofiles

/-! ## The same answers -/

theorem alike_orRaise {α : Type} (o : Option α) (e : Exc) : (orRaise o e).Alike s t := by
  cases o <;> rfl

theorem alike_raiseIf {c : Prop} [Decidable c] (e : Exc) : (raiseIf c e).Alike s t := by
  unfold raiseIf
  split <;> rfl

theorem alike_scalarOneOrNone {α : Type} (xs : List α) : (scalarOneOrNone xs).Alike s t := by
  unfold scalarOneOrNone
  split <;> rfl

theorem alike_roleRequirement (allowedRoles : List UserRole) :
    (roleRequirement allowedRoles u).Alike s t :=
  .bind (readOnly_raiseIf _ _) (alike_raiseIf _) fun _ _ => rfl

theorem alike_map {α β : Type} {p : Tx α} {f : α → β} (hp : p.ReadOnly) (h : p.Alike s t) :
    (f <$> p).Alike s t :=
  .bind hp h fun _ _ => rfl

theorem subject_of (h : Authenticated api now credentials s u) :
    api.subject now credentials = some u.id := by
  obtain ⟨hc, hscheme, hp, hsub, hne, hu, _⟩ := h
  have hkey : u.id = api.keyOf _ := Table.key_of_get hu
  simp [Api.subject, hkey, hc, hscheme, hp, hsub, hne, Option.filter, Except.toOption]

theorem alike_getCurrentUser
    (h : s.seenBy (api.subject now credentials) = t.seenBy (api.subject now credentials)) :
    (api.getCurrentUser now credentials).Alike s t := by
  refine .bind (readOnly_orRaise _ _) (alike_orRaise _ _) fun c hc => ?_
  refine .bind (api.validated_readOnly _) ?_ fun payload hp => ?_
  · unfold Api.validated
    split <;> rfl
  refine .bind (readOnly_orRaise _ _) (alike_orRaise _ _) fun sub hsub => ?_
  have hsubject : api.subject now credentials = some (api.keyOf sub) := by
    simp only [Api.subject, call_orRaise_ok hc, Option.bind_eq_bind, Option.bind_some,
      call_validated_ok hp, Except.toOption, call_orRaise_ok hsub]
    rfl
  have haccount : s.users.get (api.keyOf sub) = t.users.get (api.keyOf sub) := by
    simpa [DB.seenBy, hsubject] using congrArg View.account h
  refine .bind (p := UserRepository.getById _) (fun _ => trivial)
    (Prog.alike_select haccount rfl) fun _ _ => ?_
  refine .bind (readOnly_orRaise _ _) (alike_orRaise _ _) fun _ _ => ?_
  exact .bind (readOnly_raiseIf _ _) (alike_raiseIf _) fun _ _ => rfl

theorem alike_currentMember (h : s.seenBy subject = t.seenBy subject) (hu : subject = some u.id) :
    (currentMember u).Alike s t := by
  have hprofiles := congrArg (fun v => v.profiles.filter fun m => !m.isDeleted) h
  have hrows : s.members.rows.filter (fun m => m.userId = u.id && !m.isDeleted) =
      t.members.rows.filter fun m => m.userId = u.id && !m.isDeleted := by
    simpa [DB.seenBy, List.filter_filter, hu, Bool.and_comm, eq_comm] using hprofiles
  refine .bind (p := MemberRepository.getByUserId u.id) (fun _ => readOnly_scalarOneOrNone _) ?_
    fun _ _ => alike_orRaise _ _
  exact Prog.alike_select hrows (alike_scalarOneOrNone _)

theorem alike_historyItems (h : s.seenBy subject = t.seenBy subject) (hm : Represents s u m)
    (hu : subject = some u.id) (order : RowOrder BorrowRecord) (page pageSize : Nat) :
    (BorrowService.historyItems order m.id page pageSize).Alike s t := by
  obtain ⟨hget, howner, _⟩ := hm
  have hs : subject = some m.userId := by rw [hu, howner]
  have hmem := Table.mem_of_get hget
  have hbooks : s.books = t.books := congrArg View.books h
  unfold Prog.Alike
  rw [call_historyItems, call_historyItems, loans_seen h hmem ((profile_seen h hs).mp hmem) hs,
    hbooks]

theorem alike_getActiveReservations (h : s.seenBy subject = t.seenBy subject)
    (hm : Represents s u m) (hu : subject = some u.id) (order : RowOrder Reservation) :
    (ReservationService.getActiveReservations order m.id).Alike s t := by
  obtain ⟨hget, howner, _⟩ := hm
  have hs : subject = some m.userId := by rw [hu, howner]
  have hmem := Table.mem_of_get hget
  unfold Prog.Alike
  rw [call_getActiveReservations, call_getActiveReservations,
    ← reservations_seen h hmem ((profile_seen h hs).mp hmem) hs]
  refine congrArg Except.ok (List.map_congr_left fun r hr => ?_)
  rw [List.mem_insertionSort, (order.perm _).mem_iff, List.mem_filter] at hr
  exact detail_seen h hmem hs hr.1 hr.2

/-- Only the summary is for the staff. -/
def ForStaff (inquiry : Inquiry) : Prop := ∃ days, inquiry = .getDashboardSummary days

theorem alike_answer
    (h : s.seenBy (api.subject now credentials) = t.seenBy (api.subject now credentials))
    (hstaff : ForStaff inquiry → ∀ u, ¬Allowed api now credentials s [.librarian, .admin] u) :
    (api.answer now credentials env inquiry).Alike s t := by
  have hbooks : s.books = t.books := congrArg View.books h
  cases inquiry <;> simp only [Api.answer, Prog.bind_eq]
  case getMe => exact alike_map api.getCurrentUser_readOnly (alike_getCurrentUser h)
  case searchBooks =>
    refine alike_map (fun _ => trivial) (Prog.alike_select ?_ rfl)
    rw [hbooks]
  case getBook bookId =>
    refine alike_map (Prog.ReadOnly.bind (fun _ => trivial) fun _ => readOnly_orRaise _ _) ?_
    refine .bind (p := BookRepository.getById bookId) (fun _ => trivial)
      (Prog.alike_select ?_ rfl) fun _ _ => alike_orRaise _ _
    simp only [DB.activeBook, hbooks]
  case getHistory page pageSize =>
    refine .bind api.getCurrentUser_readOnly (alike_getCurrentUser h) fun u hu => ?_
    have hsubject := subject_of (getCurrentUser_iff.mp hu)
    refine .bind currentMember_readOnly (alike_currentMember h hsubject) fun m hm => ?_
    exact alike_map (fun _ _ => trivial)
      (alike_historyItems h (call_currentMember_ok hm) hsubject _ _ _)
  case listActiveReservations =>
    refine .bind api.getCurrentUser_readOnly (alike_getCurrentUser h) fun u hu => ?_
    have hsubject := subject_of (getCurrentUser_iff.mp hu)
    refine .bind roleRequirement_readOnly (alike_roleRequirement _) fun v hv => ?_
    obtain ⟨rfl, _⟩ := call_roleRequirement_ok hv
    refine .bind currentMember_readOnly (alike_currentMember h hsubject) fun m hm => ?_
    exact alike_map (fun _ _ => withPositions_readOnly _)
      (alike_getActiveReservations h (call_currentMember_ok hm) hsubject _)
  case getDashboardSummary days =>
    refine .bind api.getCurrentUser_readOnly (alike_getCurrentUser h) fun u hu => ?_
    refine .bind roleRequirement_readOnly (alike_roleRequirement _) fun v hv => ?_
    obtain ⟨rfl, hrole⟩ := call_roleRequirement_ok hv
    exact absurd ⟨getCurrentUser_iff.mp hu, hrole⟩ (hstaff ⟨days, rfl⟩ v)

variable {n : Nat} {visits : Fin n → Visit} {s₀ : DB} {x : Traffic n} {i : Fin n}

/-- However the requests are interleaved, the answer or refusal of an inquiry is that of every
store that looks to the account of the token as one committed state did, unless the staff asks
for the summary. -/
theorem inquiries_discreet (hi : visits i = .ask now credentials env inquiry)
    (h : Sys.Reach Sys.Any (Traffic.start api visits s₀) x) {o : Outcome Exc Response}
    (ho : x.txn i = .ended o) (hdone : o ≠ .aborted) :
    ∃ y, Sys.Reach Sys.Any (Traffic.start api visits s₀) y ∧ Sys.Reach Sys.Any y x ∧
      ∀ w : DB,
        y.db.seenBy (api.subject now credentials) = w.seenBy (api.subject now credentials) →
        (ForStaff inquiry → ∀ u, ¬Allowed api now credentials y.db [.librarian, .admin] u) →
        o = Outcome.of (call (Response.answer <$> api.answer now credentials env inquiry) w).1 := by
  have hstart : (Traffic.start api visits s₀).txn i =
      .running ((Visit.ask now credentials env inquiry).run api) .init := by
    simp only [Traffic.start, Sys.start, hi]
  obtain ⟨y, h₀, hy, hcall⟩ := Sys.reads_one_state (ask_readOnly api now credentials env inquiry)
    hstart h ho hdone
  refine ⟨y, h₀, hy, fun w hw hstaff => hcall.trans (congrArg Outcome.of ?_)⟩
  exact alike_map (Api.answer_readOnly inquiry) (alike_answer hw hstaff)

/-- Member 11 has one reservation, and asks for it. -/
def demoReserved : DB :=
  { demoLoaned with reservations := Table.empty.put ⟨200, 11, 1, hour, none, .pending⟩ }

def demoListing : Fin 1 → Visit := fun _ =>
  .ask 1 (demoBearer "member") demoInquiryEnv .listActiveReservations

/-- Somebody else has a loan of the same book, and waits for it behind the member. -/
def demoStrangers : DB :=
  { demoReserved with
    borrowRecords := demoReserved.borrowRecords.put { demoLoan100 with id := 102, memberId := 12 }
    reservations := demoReserved.reservations.put ⟨201, 12, 1, 2 * hour, none, .pending⟩ }

example : demoReserved.seenBy (some 10) = demoStrangers.seenBy (some 10) := rfl

theorem inquiries_discreet_demo :
    ∃ y, Sys.Reach Sys.Any (Traffic.start demoApi demoListing demoReserved) y ∧
      ∀ w : DB, y.db.seenBy (demoApi.subject 1 (demoBearer "member")) =
          w.seenBy (demoApi.subject 1 (demoBearer "member")) →
        Outcome.returned (.answer (.reservations [⟨200, 11, 1, hour, none, .pending, some 1,
          some ⟨1, "Emma", "Austen", "9780141439587"⟩⟩])) =
        Outcome.of (call (Response.answer <$> demoApi.answer 1 (demoBearer "member")
          demoInquiryEnv .listActiveReservations) w).1 := by
  have hruns : ((Traffic.start demoApi demoListing demoReserved).runs
      (List.replicate 6 (0, .run))).any fun s => (s.txn 0).result = some (.answer (.reservations
        [⟨200, 11, 1, hour, none, .pending, some 1,
          some ⟨1, "Emma", "Austen", "9780141439587"⟩⟩])) := by decide
  obtain ⟨x, hx, hend⟩ := (Option.any_eq_true _ _).mp hruns
  obtain ⟨y, h₀, _, hy⟩ := inquiries_discreet (i := 0) rfl (Sys.reach_of_runs hx)
    (Txn.result_eq_some.mp (of_decide_eq_true hend)) (by simp)
  exact ⟨y, h₀, fun w hw => hy w hw fun ⟨_, hdays⟩ => by cases hdays⟩

end LibraryPlatform

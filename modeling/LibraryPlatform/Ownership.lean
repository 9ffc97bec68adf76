import LibraryPlatform.Api
import LibraryPlatform.LifeCycle
import LibraryPlatform.LoanCalls

/-!
# Who changes a loan or cancels a reservation

A cancellation goes through two dependencies and a comparison of members. The routes of
returns and renewals ask nothing of the caller, so there it is up to the request.
-/
namespace LibraryPlatform

open KeyedTable Transaction ReservationRepository

variable {svc : ReservationService} {env : Env} {s s' : DB} {r : BorrowRecord}

/-! ## The operations that change a loan -/

/-- A stored loan is changed by its return and by its renewal, and by nothing else. -/
theorem Op.Alone.changes {op : Op} (h : op.Alone s svc env s')
    (hr : s.borrowRecords.get r.id = some r) (hne : s'.borrowRecords.get r.id ≠ some r) :
    op = .returnBook r.id ∧ r.status ≠ .returned ∨ op = .renewBook r.id ∧ Renewable env r := by
  rcases h.borrowRecords with he | ⟨memberId, bookId, rfl⟩ | ⟨id, rfl⟩ | ⟨id, rfl⟩
  · rw [he] at hne
    exact absurd hr hne
  · have hlent : Borrowed (alone s) s (getBorrowService svc) env memberId bookId s s' := h
    have hid : r.id ≠ env.newId := by
      intro hid
      rw [hid, hlent.fresh] at hr
      cases hr
    rw [hlent.borrowRecords, Table.get_put_other _ hid] at hne
    exact absurd hr hne
  · obtain ⟨q, hget, ⟨_, rfl⟩ | ⟨hopen, hh⟩⟩ := Returned.cases_alone h
    · exact absurd hr hne
    · rw [hh.borrowRecords, get_putBorrowRecord] at hne
      split at hne
      · rename_i hid
        subst hid
        obtain rfl : r = q := Option.some.inj (hr.symm.trans hget)
        exact .inl ⟨rfl, hopen⟩
      · exact absurd hr hne
  · obtain ⟨q, hget, hopen, hcount, hdue, rfl⟩ := Renewed.cases_alone h
    rw [get_putBorrowRecord] at hne
    split at hne
    · rename_i hid
      subst hid
      obtain rfl : r = q := Option.some.inj (hr.symm.trans hget)
      exact .inr ⟨rfl, hopen, hcount, hdue⟩
    · exact absurd hr hne

theorem return_closes (h : Sound svc s) (env : Env) (hr : s.borrowRecords.get r.id = some r)
    (hopen : r.status ≠ .returned) :
    (call (Op.run svc env (.returnBook r.id)) s).2.borrowRecords.get r.id =
      some (returnedRecord r (toDatetime (env.clock 0))) := by
  obtain ⟨s', hcall, hclosed⟩ := call_return h env hr hopen
  rw [hcall]
  exact hclosed

theorem renew_extends (h : Sound svc s) (hr : s.borrowRecords.get r.id = some r)
    (hrenew : Renewable env r) :
    (call (Op.run svc env (.renewBook r.id)) s).2.borrowRecords.get r.id =
      some (renewedRecord (getBorrowService svc) r r) := by
  obtain ⟨loan, hcall⟩ := call_renew h hr hrenew
  rw [hcall, get_putBorrowRecord, if_pos rfl]
  rfl

/-- The calls that change a stored loan. -/
def Op.Touches (env : Env) (r : BorrowRecord) (op : Op) : Prop :=
  op = .returnBook r.id ∧ r.status ≠ .returned ∨ op = .renewBook r.id ∧ Renewable env r

theorem touches_of_changed {op : Op} (hr : s.borrowRecords.get r.id = some r)
    (hne : (call (op.run svc env) s).2.borrowRecords.get r.id ≠ some r) : op.Touches env r := by
  rcases after_op svc env op s with he | he
  · exact he.changes hr hne
  · rw [he] at hne
    exact absurd hr hne

theorem changed_of_touches {op : Op} (h : Sound svc s) (hr : s.borrowRecords.get r.id = some r)
    (hop : op.Touches env r) : (call (op.run svc env) s).2.borrowRecords.get r.id ≠ some r := by
  intro hsame
  rcases hop with ⟨rfl, hopen⟩ | ⟨rfl, hrenew⟩
  · rw [return_closes h env hr hopen] at hsame
    exact hopen (congrArg BorrowRecord.status (Option.some.inj hsame)).symm
  · rw [renew_extends h hr hrenew] at hsame
    have hcount : r.renewalCount + 1 = r.renewalCount :=
      congrArg BorrowRecord.renewalCount (Option.some.inj hsame)
    omega

/-- A reservation is cancelled by the call for it and for its member. -/
theorem Op.Alone.cancels {op : Op} (h : op.Alone s svc env s') {q : Reservation}
    (hq : s'.reservations.get q.id = some q) (hcancelled : q.status = .cancelled)
    (hnew : s.reservations.get q.id ≠ some q) : op = .cancelReservation q.id q.memberId := by
  have hcommits : Call.Commits (alone s) NoGuard svc ⟨op, env⟩ s s' := h
  have hchange := hcommits.change q.id
  rw [hq] at hchange
  generalize s.reservations.get q.id = o at hchange hnew
  cases hchange with
  | same => exact absurd rfl hnew
  | placed _ hs => cases hs.symm.trans hcancelled
  | cancelled hop => exact hop
  | promoted | completed | expired => cases hcancelled

/-! ## Requests one after the other -/

/-- A request of a route, a login, a rotation or a logout; or a registration, or a change
of an account or a membership that is made outside of the API. -/
inductive Request where
  | route (now : Int) (credentials : Option HTTPAuthorizationCredentials)
      (env : Env) (route : Route)
  | auth (env : AuthEnv) (op : AuthOp)
  | accounts

/-- What a request leaves of the store. -/
inductive Api.Serves (api : Api) (s : DB) : Request → DB → Prop
  | route (now : Int) (credentials : Option HTTPAuthorizationCredentials)
      (env : Env) (route : Route) :
      Api.Serves api s (.route now credentials env route)
        (call (api.handle now credentials env route) s).2
  | auth (env : AuthEnv) (op : AuthOp) : Api.Serves api s (.auth env op) (op.after api.auth env s)
  | accounts {s' : DB} : s.Accounts s' → Api.Serves api s .accounts s'

structure Served where
  before : DB
  request : Request
  after : DB

/-- The requests served since the state was `s₀`, and the state they have led to. -/
inductive Api.Log (api : Api) (s₀ : DB) : List Served → DB → Prop
  | start : Api.Log api s₀ [] s₀
  | serve {log : List Served} {s s' : DB} {request : Request} :
      Api.Log api s₀ log s → api.Serves s request s' →
      Api.Log api s₀ (log ++ [⟨s, request, s'⟩]) s'

/-- The request is authenticated as the active account `u`. -/
def Request.From (api : Api) (s : DB) (u : User) : Request → Prop
  | .route now credentials _ _ => Authenticated api now credentials s u
  | .auth _ _ | .accounts => False

/-- The account owns the member. -/
def Owns (s : DB) (u : User) (memberId : UUID) : Prop :=
  ∃ m, s.members.get memberId = some m ∧ m.userId = u.id

/-- The request comes from the owner of the loan, or from a librarian or an administrator. -/
def Request.MayChange (api : Api) (s : DB) (r : BorrowRecord) (request : Request) : Prop :=
  ∃ u, request.From api s u ∧ (Owns s u r.memberId ∨ u.role = .librarian ∨ u.role = .admin)

/-- Loans are changed and reservations cancelled by those only who may. -/
structure Served.Respectful (api : Api) (x : Served) : Prop where
  loans : ∀ r ∈ x.before.borrowRecords.rows, x.after.borrowRecords.get r.id ≠ some r →
    x.request.MayChange api x.before r
  reservations : ∀ q ∈ x.after.reservations.rows, q.status = .cancelled →
    q ∉ x.before.reservations.rows →
    ∃ u, x.request.From api x.before u ∧ Owns x.before u q.memberId

/-- The routes of returns and renewals reach an open loan only in requests of those who
may change it. -/
def Served.Entitled (api : Api) (x : Served) : Prop :=
  ∀ now credentials env route, x.request = .route now credentials env route →
    ∀ r ∈ x.before.borrowRecords.rows,
    route = .returnBook r.id ∧ r.status ≠ .returned ∨ route = .renewBook r.id ∧ Renewable env r →
      x.request.MayChange api x.before r

/-! ## What a request can do -/

/-- The tables that nobody but the services of books, loans and reservations writes. -/
structure SameStock (s s' : DB) : Prop where
  books : s'.books = s.books
  borrowRecords : s'.borrowRecords = s.borrowRecords
  reservations : s'.reservations = s.reservations

theorem SameStock.refl (s : DB) : SameStock s s := ⟨rfl, rfl, rfl⟩

theorem SameStock.sound (h : SameStock s s') (hs : Sound svc s) : Sound svc s' := by
  obtain ⟨users, members, books, borrowRecords, reservations, refreshTokens, journal⟩ := s'
  obtain ⟨rfl, rfl, rfl⟩ := h
  exact ⟨⟨hs.balanced.loanBooks, hs.balanced.reservationBooks, hs.balanced.loanStatus,
    hs.balanced.balance⟩, hs.copies, hs.loans⟩

section

variable {api : Api} {request : Request} {s₀ : DB} {log : List Served} {x : Served}

/-- A request leaves the stock alone, or is one of a route and makes the call that the
route ends in. -/
theorem Api.Serves.stock (h : api.Serves s request s') :
    SameStock s s' ∨ ∃ now credentials env route op, request = .route now credentials env route ∧
    Dispatched api now credentials s route op ∧ s' = (call (op.run api.reservations env) s).2 := by
  cases h with
  | route now credentials env route =>
    rcases call_handle api now credentials env route s with ⟨_, he⟩ | ⟨op, hop, he⟩
    · rw [he]
      exact .inl (.refl s)
    · rw [he]
      exact .inr ⟨now, credentials, env, route, op, rfl, hop, rfl⟩
  | auth env op =>
    obtain ⟨_, he⟩ := (tokenStep api.auth env s op).tokensOnly
    rw [he]
    exact .inl ⟨rfl, rfl, rfl⟩
  | accounts ha =>
    obtain ⟨_, _, rfl⟩ := ha.frame
    exact .inl ⟨rfl, rfl, rfl⟩

theorem Sound.call (h : Sound svc s) (op : Op) (env : Env) :
    Sound svc (Transaction.call (op.run svc env) s).2 := by
  rcases after_op svc env op s with he | he
  · exact h.op he
  · rw [he]
    exact h

theorem Api.Log.sound (h : api.Log s₀ log s) (hs : Sound api.reservations s₀) :
    Sound api.reservations s := by
  induction h with
  | start => exact hs
  | serve _ hserves ih =>
    rcases hserves.stock with hsame | ⟨_, _, env, _, op, _, _, rfl⟩
    · exact hsame.sound ih
    · exact ih.call op env

theorem Api.Log.served (h : api.Log s₀ log s) :
    ∀ x ∈ log, api.Serves x.before x.request x.after := by
  induction h with
  | start => simp
  | serve _ hserves ih =>
    intro x hx
    rcases List.mem_append.mp hx with hx | hx
    · exact ih x hx
    · obtain rfl := List.mem_singleton.mp hx
      exact hserves

theorem Api.Log.sound_before (h : api.Log s₀ log s) (hs : Sound api.reservations s₀) :
    ∀ x ∈ log, Sound api.reservations x.before := by
  induction h with
  | start => simp
  | serve hlog _ ih =>
    intro x hx
    rcases List.mem_append.mp hx with hx | hx
    · exact ih x hx
    · obtain rfl := List.mem_singleton.mp hx
      exact hlog.sound hs

/-- Nothing else is asked of the store: the routes do the rest. -/
theorem Served.respectful (h : api.Serves x.before x.request x.after) (hx : x.Entitled api) :
    x.Respectful api := by
  rcases h.stock with hsame | ⟨now, credentials, env, route, op, hrequest, hop, hafter⟩
  · refine ⟨fun r hr hne => ?_, fun q hq _ hnew => ?_⟩
    · rw [hsame.borrowRecords] at hne
      exact absurd (Table.get_of_mem hr) hne
    · rw [hsame.reservations] at hq
      exact absurd hq hnew
  · refine ⟨fun r hr hne => ?_, fun q hq hcancelled hnew => ?_⟩
    · rw [hafter] at hne
      refine hx now credentials env route hrequest r hr ?_
      rcases touches_of_changed (Table.get_of_mem hr) hne with ⟨rfl, hopen⟩ | ⟨rfl, hrenew⟩
      · cases hop
        exact .inl ⟨rfl, hopen⟩
      · cases hop
        exact .inr ⟨rfl, hrenew⟩
    · rcases after_op api.reservations env op x.before with he | he
      · rw [← hafter] at he
        have hcancel := he.cancels (Table.get_of_mem hq) hcancelled fun hget =>
          hnew (Table.mem_of_get hget)
        rw [hcancel] at hop
        obtain ⟨u, m, ⟨hu, _⟩, ⟨hm, howner, _⟩, hid⟩ := hop.cancels
        rw [hrequest]
        exact ⟨u, hu, m, hid ▸ hm, howner⟩
      · rw [hafter, he] at hq
        exact absurd hq hnew

/-- The routes of returns and renewals make the call whoever asks, and the call goes through. -/
theorem Served.entitled (h : api.Serves x.before x.request x.after)
    (hs : Sound api.reservations x.before) (hx : x.Respectful api) : x.Entitled api := by
  intro now credentials env route hrequest r hr hroute
  refine hx.loans r hr ?_
  rw [hrequest] at h
  generalize x.after = t at h ⊢
  cases h with
  | route =>
    rcases hroute with ⟨rfl, hopen⟩ | ⟨rfl, hrenew⟩
    · rw [call_handle_returnBook]
      exact changed_of_touches hs (Table.get_of_mem hr) (.inl ⟨rfl, hopen⟩)
    · rw [call_handle_renewBook]
      exact changed_of_touches hs (Table.get_of_mem hr) (.inr ⟨rfl, hrenew⟩)

/-- Whatever the state, requests change loans and cancel reservations for those only who may, if
every return of an open loan and every renewal of a renewable one comes from its owner, a librarian
or an administrator; from empty tables on, only if. -/
theorem owners_respected_iff (h : api.Log s₀ log s) :
    ((∀ x ∈ log, x.Entitled api) → ∀ x ∈ log, x.Respectful api) ∧
    ((∃ collation, s₀ = .empty collation) →
      ((∀ x ∈ log, x.Respectful api) ↔ ∀ x ∈ log, x.Entitled api)) := by
  have hrespectful : (∀ x ∈ log, x.Entitled api) → ∀ x ∈ log, x.Respectful api :=
    fun hx x hmem => Served.respectful (h.served x hmem) (hx x hmem)
  refine ⟨hrespectful, ?_⟩
  rintro ⟨collation, rfl⟩
  exact ⟨fun hx x hmem => Served.entitled (h.served x hmem)
    (h.sound_before (.empty collation) x hmem) (hx x hmem), hrespectful⟩

end

/-! ## A loan and two returns -/

def demoClaims (sub : String) : Payload :=
  [("sub", sub), ("jti", "1"), ("iss", "library-management-platform"),
    ("aud", "library-management-platform-clients"),
    ("iat", "0"), ("nbf", "0"), ("exp", "900")]

/-- The tokens of a member and of a librarian, and the keys of their accounts. -/
def demoApi : Api where
  reservations := ⟨48⟩
  auth := demoAuth
  decode _ token :=
    if token = "member" then .ok (demoClaims "00000000-0000-0000-0000-00000000000a")
    else if token = "librarian" then .ok (demoClaims "00000000-0000-0000-0000-000000000014")
    else .error "Signature verification failed."
  showSet := String.join
  keyOf text :=
    if text = "00000000-0000-0000-0000-00000000000a" then 10
    else if text = "00000000-0000-0000-0000-000000000014" then 20
    else 0
  parseUUID text := if text = "00000000-0000-0000-0000-000000000001" then some 1 else none

def demoBearer (token : String) : Option HTTPAuthorizationCredentials := some ⟨"Bearer", token⟩

def demoPatrons : DB :=
  { DB.empty .ignoringCase with
    users := (Table.empty.put ⟨10, "eve@example.com", "SecurePassword123!", .member, .active⟩).put
      ⟨20, "ann@example.com", "SecurePassword456!", .librarian, .active⟩
    members := Table.empty.put ⟨11, 10, .active, false⟩ }

/-- Two members more. -/
def demoNeighbours : DB :=
  { demoPatrons with
    users := (demoPatrons.users.put
      ⟨30, "bob@example.com", "SecurePassword789!", .member, .active⟩).put
      ⟨40, "kim@example.com", "SecurePassword012!", .member, .active⟩
    members := (demoPatrons.members.put ⟨12, 30, .active, false⟩).put ⟨13, 40, .active, false⟩ }

def demoCatalog : DB :=
  (call (demoApi.handle 0 (demoBearer "librarian") (demoEnv 1 0)
    (.createBook "Emma" "Austen" "9780141439587" 1 none)) demoPatrons).2

def demoLoaned : DB :=
  (call (demoApi.handle 1 (demoBearer "member") (demoEnv 100 hour)
    (.borrowBook "00000000-0000-0000-0000-000000000001"))
    demoCatalog).2

/-- The librarian registers a book, and the member borrows it. -/
def demoLog : List Served :=
  [⟨.empty .ignoringCase, .accounts, demoPatrons⟩,
    ⟨demoPatrons, .route 0 (demoBearer "librarian") (demoEnv 1 0)
      (.createBook "Emma" "Austen" "9780141439587" 1 none), demoCatalog⟩,
    ⟨demoCatalog, .route 1 (demoBearer "member") (demoEnv 100 hour)
      (.borrowBook "00000000-0000-0000-0000-000000000001"), demoLoaned⟩]

theorem demoLog_log : demoApi.Log (.empty .ignoringCase) demoLog demoLoaned := by
  have haccounts : DB.Accounts (.empty .ignoringCase) demoPatrons :=
    ⟨⟨_, _, rfl⟩, by simp [DB.empty], by decide⟩
  exact ((Api.Log.start.serve (.accounts haccounts)).serve (.route _ _ _ _)).serve (.route _ _ _ _)

def demoLoan100 : BorrowRecord := ⟨100, 11, 1, hour, hour + 14 * day, none, 0, .borrowed⟩

theorem demoLoaned_loans : demoLoaned.borrowRecords.rows = [demoLoan100] := by decide

/-- The member brings the book back. -/
theorem owners_respected_demo :
    ∃ log s, demoApi.Log (.empty .ignoringCase) log s ∧
    (∃ r ∈ s.borrowRecords.rows, r.id = 100 ∧ r.status = .returned) ∧
    ∀ x ∈ log, x.Respectful demoApi := by
  have hlog := demoLog_log.serve
    (.route 2 (demoBearer "member") (demoEnv 0 (2 * hour)) (.returnBook 100))
  refine ⟨_, _, hlog, ⟨{ demoLoan100 with returnDate := some (2 * hour), status := .returned },
    by decide, rfl, rfl⟩,
    ((owners_respected_iff hlog).2 ⟨_, rfl⟩).mpr
      fun x hx now credentials env route hrequest r hr hroute => ?_⟩
  simp only [demoLog, List.cons_append, List.nil_append, List.mem_cons,
    List.not_mem_nil, or_false] at hx
  rcases hx with rfl | rfl | rfl | rfl
  · cases hrequest
  · cases hrequest
    rcases hroute with ⟨hroute, _⟩ | ⟨hroute, _⟩ <;> cases hroute
  · cases hrequest
    rcases hroute with ⟨hroute, _⟩ | ⟨hroute, _⟩ <;> cases hroute
  · obtain rfl : r = demoLoan100 := by simpa [demoLoaned_loans] using hr
    have hfrom : Authenticated demoApi 2 (demoBearer "member") demoLoaned
        ⟨10, "eve@example.com", "SecurePassword123!", .member, .active⟩ :=
      .mk rfl (by decide) rfl rfl (by decide) rfl rfl
    exact ⟨_, hfrom, .inl ⟨⟨11, 10, .active, false⟩, rfl, rfl⟩⟩

/-- Anybody can bring it back, or say so. -/
theorem owners_not_respected :
    ¬∀ (api : Api) (collation : Collation) (log : List Served) (s : DB),
    api.Log (.empty collation) log s → ∀ x ∈ log, x.Respectful api := by
  intro hclaim
  have hlog := demoLog_log.serve (.route 2 none (demoEnv 0 (2 * hour)) (.returnBook 100))
  have hlast := hclaim demoApi _ _ _ hlog _ (List.mem_append_right _ List.mem_cons_self)
  have hchanged : (call (demoApi.handle 2 none (demoEnv 0 (2 * hour)) (.returnBook 100))
      demoLoaned).2.borrowRecords.get 100 ≠
      some demoLoan100 := by decide
  have hloan : demoLoan100 ∈ demoLoaned.borrowRecords.rows := by
    rw [demoLoaned_loans]
    exact List.mem_cons_self
  obtain ⟨u, ⟨hnone, _⟩, _⟩ := hlast.loans demoLoan100 hloan hchanged
  cases hnone

end LibraryPlatform

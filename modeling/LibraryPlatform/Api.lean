import LibraryPlatform.Requests
import LibraryPlatform.Operations
import LibraryPlatform.TokenFamilies

/-!
# The routes

What stands between a request and the service it calls: the dependencies of its route
and the reads of its handler. The routes that answer a `GET` write nothing and are left out.
-/
namespace LibraryPlatform

open KeyedTable Transaction

structure HTTPAuthorizationCredentials where
  scheme : String
  credentials : String

/-- The claims of a token and their values as texts. -/
abbrev Payload := List (String × String)

/-- The services, and what the routes take from libraries: `jwt.decode` at an instant, with the
key, the algorithm, the audience and the issuer of the manager (the text of a `JWTError`, or the
claims); the text of a set; the row that a text names in a key column; and `uuid.UUID`. -/
structure Api where
  reservations : ReservationService
  auth : AuthService
  decode : Int → String → Except String Payload
  showSet : List String → String
  keyOf : String → UUID
  parseUUID : String → Option UUID

/-- `str.lower`: no letter outside ASCII has a letter of `bearer` as its lower case. -/
def lower (s : String) : String := String.ofList (s.toList.map Char.toLower)

def requiredClaims : List String := ["sub", "jti", "exp", "iss", "aud", "iat", "nbf"]

/-- `RoleRequirement(allowed_roles)`. -/
def roleRequirement (allowedRoles : List UserRole) (currentUser : User) : Tx User := do
  raiseIf (currentUser.role ∉ allowedRoles) (.application .forbidden none)
  pure currentUser

def currentMember (currentUser : User) : Tx Member := do
  orRaise (← MemberRepository.getByUserId currentUser.id)
    (.application .forbidden (some "User does not have an active Member profile"))

/-- The routes that write, and what they are sent. -/
inductive Route where
  | createBook (title author isbn : String) (totalCopies : Int) (genre : Option String)
  | updateBook (bookId : UUID) (body : BookUpdate)
  | deleteBook (bookId : UUID)
  | borrowBook (bookId : String)
  | returnBook (borrowId : UUID)
  | renewBook (borrowId : UUID)
  | placeReservation (bookId : UUID)
  | cancelReservation (id : UUID)
  | sweepExpiredHolds

/-- Whether the session has read anything, and so begun a transaction, when the
service is called. -/
def Route.inTransaction : Route → Bool
  | .returnBook _ | .renewBook _ => false
  | _ => true

namespace Api

variable (api : Api)

def decodeAndValidateToken (now : Int) (token : String) : Except String Payload := do
  let payload ← api.decode now token
  let missingClaims := requiredClaims.filter (fun c => c ∉ payload.map Prod.fst)
  if missingClaims = [] then pure payload
  else throw ("Missing required claims: " ++ api.showSet missingClaims)

/-- `try`, and every `JWTError` turned into an answer. -/
def validated (now : Int) (token : String) : Tx Payload :=
  match api.decodeAndValidateToken now token with
  | .ok payload => pure payload
  | .error e => raise (.application .unauthorized (some ("Token validation failed: " ++ e)))

def getCurrentUser (now : Int) (credentials : Option HTTPAuthorizationCredentials) : Tx User := do
  let c ← orRaise (credentials.filter (fun c => lower c.scheme = "bearer"))
    (.application .unauthorized (some "Missing or invalid Authorization header"))
  let payload ← api.validated now c.credentials
  let userId ← orRaise ((payload.lookup "sub").filter (fun userId => userId ≠ ""))
    (.application .unauthorized (some "Missing subject (sub) claim"))
  let user ← orRaise (← UserRepository.getById (api.keyOf userId))
    (.application .unauthorized (some "User associated with token does not exist"))
  raiseIf (user.status ≠ .active) (.application .inactiveUser none)
  pure user

/-- The call of a service that a request ends in. FastAPI asks each dependency once. -/
def dispatch (now : Int) (credentials : Option HTTPAuthorizationCredentials) : Route → Tx Op
  | .createBook title author isbn totalCopies genre => do
    let _ ← roleRequirement [.librarian, .admin] (← api.getCurrentUser now credentials)
    pure (.createBook title author isbn totalCopies genre)
  | .updateBook bookId body => do
    let _ ← roleRequirement [.librarian, .admin] (← api.getCurrentUser now credentials)
    pure (.updateBook bookId body)
  | .deleteBook bookId => do
    let _ ← roleRequirement [.librarian, .admin] (← api.getCurrentUser now credentials)
    pure (.deleteBook bookId)
  | .borrowBook bookId => do
    let member ← currentMember (← api.getCurrentUser now credentials)
    let bookId ← orRaise (api.parseUUID bookId) (.valueError "badly formed hexadecimal UUID string")
    pure (.borrowBook member.id bookId)
  | .returnBook borrowId => pure (.returnBook borrowId)
  | .renewBook borrowId => pure (.renewBook borrowId)
  | .placeReservation bookId => do
    let currentUser ← roleRequirement [.member] (← api.getCurrentUser now credentials)
    let member ← currentMember currentUser
    pure (.placeReservation member.id bookId)
  | .cancelReservation id => do
    let currentUser ← roleRequirement [.member] (← api.getCurrentUser now credentials)
    let member ← currentMember currentUser
    pure (.cancelReservation id member.id)
  | .sweepExpiredHolds => do
    let _ ← roleRequirement [.librarian, .admin] (← api.getCurrentUser now credentials)
    pure .processExpiredHolds

/-- One request of a route, in its session. What the handler reads for its answer once the
service has committed is left out. -/
def handle (now : Int) (credentials : Option HTTPAuthorizationCredentials) (env : Env)
    (route : Route) : Tx Reply := do
  let op ← api.dispatch now credentials route
  transactional route.inTransaction (op.run api.reservations env)

end Api

/-! ## Who is asking -/

/-- The token is valid and names `u`, an active account. -/
inductive Authenticated (api : Api) (now : Int) (credentials : Option HTTPAuthorizationCredentials)
    (s : DB) (u : User) : Prop
  | mk {c : HTTPAuthorizationCredentials} {payload : Payload} {sub : String} :
      credentials = some c → lower c.scheme = "bearer" →
      api.decodeAndValidateToken now c.credentials = .ok payload →
        payload.lookup "sub" = some sub → sub ≠ "" →
      s.users.get (api.keyOf sub) = some u → u.status = .active →
        Authenticated api now credentials s u

section

variable {α : Type} {api : Api} {now : Int} {credentials : Option HTTPAuthorizationCredentials}
  {s s' : DB} {u v : User} {m : Member} {allowedRoles : List UserRole}

theorem Api.validated_readOnly (token : String) : (api.validated now token).ReadOnly := by
  unfold Api.validated
  split <;> trivial

theorem call_validated_ok {token : String} {payload : Payload}
    (h : call (api.validated now token) s = (.ok payload, s')) :
    api.decodeAndValidateToken now token = .ok payload := by
  unfold Api.validated at h
  split at h
  · rename_i p hp
    cases h
    exact hp
  · cases h

theorem exec_validated {token : String} {payload : Payload} {base w : DB}
    (h : api.decodeAndValidateToken now token = .ok payload) :
    (api.validated now token).exec base w = (.ok payload, base, w) := by
  simp [Api.validated, h, Prog.exec]

theorem Api.getCurrentUser_readOnly : (api.getCurrentUser now credentials).ReadOnly := by
  refine (readOnly_orRaise _ _).bind fun c => (api.validated_readOnly _).bind fun payload => ?_
  refine (readOnly_orRaise _ _).bind fun userId => ?_
  refine Prog.ReadOnly.bind (p := UserRepository.getById _) (fun _ => trivial) fun o => ?_
  exact (readOnly_orRaise _ _).bind fun user => (readOnly_raiseIf _ _).bind fun _ => trivial

/-- `get_current_user` answers with an account exactly if the request is authenticated as it. -/
theorem getCurrentUser_iff :
    call (api.getCurrentUser now credentials) s = (.ok u, s) ↔
    Authenticated api now credentials s u := by
  constructor
  · intro h
    obtain ⟨c, hc, h⟩ := (readOnly_orRaise _ _).call_bind_ok h
    obtain ⟨payload, hp, h⟩ := (api.validated_readOnly _).call_bind_ok h
    obtain ⟨sub, hsub, h⟩ := (readOnly_orRaise _ _).call_bind_ok h
    obtain ⟨o, ho, h⟩ := Prog.ReadOnly.call_bind_ok (p := UserRepository.getById _)
      (fun _ => trivial) h
    obtain ⟨user, huser, h⟩ := (readOnly_orRaise _ _).call_bind_ok h
    obtain ⟨_, hactive, h⟩ := (readOnly_raiseIf _ _).call_bind_ok h
    cases h
    obtain ⟨hc, hscheme⟩ := Option.filter_eq_some_iff.mp (call_orRaise_ok hc)
    obtain ⟨hsub, hne⟩ := Option.filter_eq_some_iff.mp (call_orRaise_ok hsub)
    cases ho
    exact .mk hc (by simpa using hscheme) (call_validated_ok hp) hsub (by simpa using hne)
      (call_orRaise_ok huser)
      (not_not.mp (call_raiseIf_ok hactive))
  · rintro ⟨hc, hscheme, hp, hsub, hne, hu, hactive⟩
    suffices hexec : (api.getCurrentUser now credentials).exec s s =
        (.ok u, s, s) from call_ok hexec
    refine Prog.exec_bind_ok (exec_orRaise
      (Option.filter_eq_some_iff.mpr ⟨hc, by simpa using hscheme⟩)) ?_
    refine Prog.exec_bind_ok (exec_validated hp) ?_
    refine Prog.exec_bind_ok (exec_orRaise
      (Option.filter_eq_some_iff.mpr ⟨hsub, by simpa using hne⟩)) ?_
    refine Prog.exec_bind_ok rfl (Prog.exec_bind_ok (exec_orRaise hu) ?_)
    exact Prog.exec_bind_ok (exec_raiseIf (by simpa using hactive)) rfl

/-- The account has one of the roles. -/
def Allowed (api : Api) (now : Int) (credentials : Option HTTPAuthorizationCredentials) (s : DB)
    (allowedRoles : List UserRole) (u : User) : Prop :=
  Authenticated api now credentials s u ∧ u.role ∈ allowedRoles

/-- The member that the account stands for. -/
def Represents (s : DB) (u : User) (m : Member) : Prop :=
  s.members.get m.id = some m ∧ m.userId = u.id ∧ m.isDeleted = false

theorem roleRequirement_readOnly : (roleRequirement allowedRoles u).ReadOnly :=
  (readOnly_raiseIf _ _).bind fun _ => trivial

theorem currentMember_readOnly : (currentMember u).ReadOnly :=
  Prog.ReadOnly.bind (p := MemberRepository.getByUserId _)
    (fun _ => readOnly_scalarOneOrNone _) fun _ => readOnly_orRaise _ _

theorem call_roleRequirement_ok (h : call (roleRequirement allowedRoles u) s = (.ok v, s')) :
    v = u ∧ u.role ∈ allowedRoles := by
  obtain ⟨_, hrole, h⟩ := (readOnly_raiseIf _ _).call_bind_ok h
  cases h
  exact ⟨rfl, not_not.mp (call_raiseIf_ok hrole)⟩

theorem call_scalarOneOrNone_ok {xs : List α} {a : α}
    (h : call (scalarOneOrNone xs) s = (.ok (some a), s')) : a ∈ xs := by
  match xs with
  | [] => cases h
  | [b] =>
    cases h
    exact List.mem_cons_self
  | _ :: _ :: _ => cases h

theorem call_currentMember_ok (h : call (currentMember u) s = (.ok m, s')) : Represents s u m := by
  obtain ⟨o, ho, h⟩ := Prog.ReadOnly.call_bind_ok (p := MemberRepository.getByUserId _)
    (fun _ => readOnly_scalarOneOrNone _) h
  obtain rfl := call_orRaise_ok h
  obtain ⟨rows, hrows, hone⟩ := Prog.ReadOnly.call_bind_ok (p := select _) (fun _ => trivial) ho
  cases hrows
  obtain ⟨hmem, hm⟩ := List.mem_filter.mp (call_scalarOneOrNone_ok hone)
  simp only [Bool.and_eq_true, decide_eq_true_eq, Bool.not_eq_true'] at hm
  exact ⟨Table.get_of_mem hmem, hm.1, hm.2⟩

/-- What a route asks for before it calls its service, and the call. -/
inductive Dispatched (api : Api) (now : Int) (credentials : Option HTTPAuthorizationCredentials)
    (s : DB) : Route → Op → Prop
  | createBook {title author isbn : String} {totalCopies : Int} {genre : Option String} {u : User} :
      Allowed api now credentials s [.librarian, .admin] u → Dispatched api now credentials s
        (.createBook title author isbn totalCopies genre)
          (.createBook title author isbn totalCopies genre)
  | updateBook {bookId : UUID} {body : BookUpdate} {u : User} :
      Allowed api now credentials s [.librarian, .admin] u →
      Dispatched api now credentials s (.updateBook bookId body) (.updateBook bookId body)
  | deleteBook {bookId : UUID} {u : User} : Allowed api now credentials s [.librarian, .admin] u →
      Dispatched api now credentials s (.deleteBook bookId) (.deleteBook bookId)
  | borrowBook {text : String} {bookId : UUID} {u : User} {m : Member} :
      Authenticated api now credentials s u →
      Represents s u m → api.parseUUID text = some bookId →
      Dispatched api now credentials s (.borrowBook text) (.borrowBook m.id bookId)
  | returnBook {borrowId : UUID} : Dispatched api now credentials s (.returnBook borrowId)
      (.returnBook borrowId)
  | renewBook {borrowId : UUID} : Dispatched api now credentials s (.renewBook borrowId)
      (.renewBook borrowId)
  | placeReservation {bookId : UUID} {u : User} {m : Member} :
      Allowed api now credentials s [.member] u → Represents s u m →
      Dispatched api now credentials s (.placeReservation bookId) (.placeReservation m.id bookId)
  | cancelReservation {id : UUID} {u : User} {m : Member} :
      Allowed api now credentials s [.member] u → Represents s u m →
      Dispatched api now credentials s (.cancelReservation id) (.cancelReservation id m.id)
  | sweepExpiredHolds {u : User} : Allowed api now credentials s [.librarian, .admin] u →
      Dispatched api now credentials s .sweepExpiredHolds .processExpiredHolds

theorem allowed_of_call {f : User → Tx α} {a : α}
    (h : call ((api.getCurrentUser now credentials).bind fun u =>
      (roleRequirement allowedRoles u).bind f) s = (.ok a, s')) :
    ∃ u, Allowed api now credentials s allowedRoles u ∧ call (f u) s = (.ok a, s') := by
  obtain ⟨u, hu, h⟩ := api.getCurrentUser_readOnly.call_bind_ok h
  obtain ⟨v, hv, hf⟩ := roleRequirement_readOnly.call_bind_ok h
  obtain ⟨rfl, hrole⟩ := call_roleRequirement_ok hv
  exact ⟨v, ⟨getCurrentUser_iff.mp hu, hrole⟩, hf⟩

theorem Api.dispatch_readOnly (route : Route) : (api.dispatch now credentials route).ReadOnly := by
  cases route <;> simp only [Api.dispatch, Prog.bind_eq, Prog.pure_eq]
  case returnBook => trivial
  case renewBook => trivial
  case borrowBook =>
    refine api.getCurrentUser_readOnly.bind fun _ => currentMember_readOnly.bind fun _ => ?_
    exact (readOnly_orRaise _ _).bind fun _ => trivial
  case placeReservation | cancelReservation =>
    refine api.getCurrentUser_readOnly.bind fun _ => roleRequirement_readOnly.bind fun _ => ?_
    exact currentMember_readOnly.bind fun _ => trivial
  all_goals exact api.getCurrentUser_readOnly.bind fun _ =>
    roleRequirement_readOnly.bind fun _ => trivial

theorem dispatched_of_call {route : Route} {op : Op}
    (h : call (api.dispatch now credentials route) s = (.ok op, s')) :
    Dispatched api now credentials s route op := by
  cases route <;> simp only [Api.dispatch, Prog.bind_eq, Prog.pure_eq] at h
  case returnBook =>
    cases h
    exact .returnBook
  case renewBook =>
    cases h
    exact .renewBook
  case borrowBook =>
    obtain ⟨u, hu, h⟩ := api.getCurrentUser_readOnly.call_bind_ok h
    obtain ⟨m, hm, h⟩ := currentMember_readOnly.call_bind_ok h
    obtain ⟨bookId, hbook, h⟩ := (readOnly_orRaise _ _).call_bind_ok h
    cases h
    exact .borrowBook (getCurrentUser_iff.mp hu) (call_currentMember_ok hm) (call_orRaise_ok hbook)
  case placeReservation =>
    obtain ⟨u, hu, h⟩ := allowed_of_call h
    obtain ⟨m, hm, h⟩ := currentMember_readOnly.call_bind_ok h
    cases h
    exact .placeReservation hu (call_currentMember_ok hm)
  case cancelReservation =>
    obtain ⟨u, hu, h⟩ := allowed_of_call h
    obtain ⟨m, hm, h⟩ := currentMember_readOnly.call_bind_ok h
    cases h
    exact .cancelReservation hu (call_currentMember_ok hm)
  all_goals
    obtain ⟨u, hu, h⟩ := allowed_of_call h
    cases h
    constructor
    exact hu

/-- A cancellation is made for the member that the caller stands for. -/
theorem Dispatched.cancels {route : Route} {id memberId : UUID}
    (h : Dispatched api now credentials s route (.cancelReservation id memberId)) :
    ∃ u m, Allowed api now credentials s [.member] u ∧ Represents s u m ∧ m.id = memberId := by
  generalize hop : Op.cancelReservation id memberId = op at h
  cases h with
  | cancelReservation hu hm => exact ⟨_, _, hu, hm, (Op.cancelReservation.inj hop).2.symm⟩
  | _ => cases hop

/-- A request is refused by its route, or does what the call of the service does. -/
theorem call_handle (api : Api) (now : Int) (credentials : Option HTTPAuthorizationCredentials)
    (env : Env) (route : Route) (s : DB) :
    (∃ e, call (api.handle now credentials env route) s = (.error e, s)) ∨
    ∃ op, Dispatched api now credentials s route op ∧
    call (api.handle now credentials env route) s = call (op.run api.reservations env) s := by
  rcases (api.dispatch_readOnly route).call_bind (fun op =>
    transactional route.inTransaction (op.run api.reservations env)) s with
    ⟨op, hop, hcall⟩ | ⟨e, _, hcall⟩
  · have hbody : call (transactional route.inTransaction (op.run api.reservations env)) s =
      call (op.run api.reservations env) s := by
      unfold transactional
      cases route.inTransaction <;> rfl
    exact .inr ⟨op, dispatched_of_call hop, hcall.trans hbody⟩
  · exact .inl ⟨e, hcall⟩

/-- The routes of returns and renewals make the call whoever asks. -/
theorem call_handle_returnBook (borrowId : UUID) (env : Env) :
    call (api.handle now credentials env (.returnBook borrowId)) s =
      call (Op.run api.reservations env (.returnBook borrowId)) s := rfl

theorem call_handle_renewBook (borrowId : UUID) (env : Env) :
    call (api.handle now credentials env (.renewBook borrowId)) s =
      call (Op.run api.reservations env (.renewBook borrowId)) s := rfl

end

end LibraryPlatform

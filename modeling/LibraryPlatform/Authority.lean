import LibraryPlatform.Answers
import LibraryPlatform.BookChanges
import LibraryPlatform.Holds

/-!
# Who may change what

The dependencies of a route read who is asking, and the service commits later. No visit changes
an account or a membership, so that what was read holds when it is used.
-/
namespace LibraryPlatform

open KeyedTable Transaction

/-! ## What no operation changes -/

theorem Handed.users {D : Discipline DB RowKey} {s v v' : DB} {next : DB → Option Reservation}
    {expiresAt : Int} {bookId : UUID} (h : Handed D s next expiresAt bookId v v') :
    v'.users = v.users := by
  cases h <;> rfl

theorem Expiring.users {D : Discipline DB RowKey} {s v v' : DB} {svc : ReservationService}
    {env : Env} {rest : List Reservation} {n : Nat} (h : Expiring D s svc env rest n v v') :
    v'.users = v.users := by
  induction h with
  | nil => rfl
  | cons _ hh _ ih => exact ih.trans hh.users

section

variable {D : Discipline DB RowKey} {guard : Guard} {s v v' : DB} {svc : ReservationService}
  {env : Env} {op : Op}

theorem Op.Effect.users (h : op.Effect D guard s svc env v v') : v'.users = v.users := by
  cases op with
  | createBook => rw [h.stored]; rfl
  | updateBook => cases h <;> rfl
  | deleteBook => cases h; rfl
  | borrowBook => cases h <;> rfl
  | returnBook =>
    cases h with
    | again => rfl
    | handed _ _ _ _ _ _ hh => exact hh.users
  | renewBook => cases h; rfl
  | placeReservation => rw [h.stored]; rfl
  | cancelReservation =>
    cases h with
    | waiting => rfl
    | held _ _ _ hh => exact hh.users
  | processExpiredHolds =>
    obtain ⟨_, _, _, he⟩ := h
    exact he.users

end

/-- Nobody's account or membership is another. -/
structure SameAccounts (s t : DB) : Prop where
  users : t.users = s.users
  members : t.members = s.members

variable {n : Nat} {api : Api} {visits : Fin n → Visit} {s₀ : DB} {s s' : Traffic n}
  {D : Discipline DB RowKey} {guard : Guard} {svc : ReservationService} {v : Visit} {t u : DB}

theorem SameAccounts.refl (t : DB) : SameAccounts t t := ⟨rfl, rfl⟩

theorem SameAccounts.symm (h : SameAccounts t u) : SameAccounts u t :=
  ⟨h.users.symm, h.members.symm⟩

theorem SameAccounts.trans {w : DB} (h : SameAccounts t u) (h' : SameAccounts u w) :
    SameAccounts t w := ⟨h'.users.trans h.users, h'.members.trans h.members⟩

theorem SameAccounts.tokens (h : TokensOnly t u) : SameAccounts t u := by
  obtain ⟨_, rfl⟩ := h
  exact ⟨rfl, rfl⟩

theorem Visit.Commits.accounts (h : v.Commits D (Op.effects D guard svc) api t u) :
    SameAccounts t u := by
  cases h with
  | nothing => exact .refl t
  | op _ _ he => exact ⟨he.users, he.members⟩
  | tokens ht => exact .tokens ht

/-! ## Rights -/

/-- The visit is a request of a librarian or an administrator. -/
def Visit.OfStaff (api : Api) (s : DB) (v : Visit) : Prop :=
  ∃ now credentials env route u, v = .write now credentials env route ∧
    Allowed api now credentials s [.librarian, .admin] u

/-- The visit is a request of the account of the member. -/
def Visit.OfMember (api : Api) (s : DB) (v : Visit) (memberId : UUID) : Prop :=
  ∃ now credentials env route u m, v = .write now credentials env route ∧
    Authenticated api now credentials s u ∧ Represents s u m ∧ m.id = memberId

/-- The visit asks for the return or the renewal of the loan. -/
def Visit.Names (v : Visit) (borrowId : UUID) : Prop :=
  ∃ now credentials env, v = .write now credentials env (.returnBook borrowId) ∨
    v = .write now credentials env (.renewBook borrowId)

/-- A loan is made for the member who asks. Nobody can hand it over to somebody else. -/
inductive LoanRight (member names : UUID → Prop) : Option BorrowRecord → Option BorrowRecord → Prop
  | same {o : Option BorrowRecord} : LoanRight member names o o
  | lent {r : BorrowRecord} : member r.memberId → LoanRight member names none (some r)
  | changed {r r' : BorrowRecord} : names r.id → r'.id = r.id → r'.memberId = r.memberId →
      r'.bookId = r.bookId → r'.borrowDate = r.borrowDate →
      LoanRight member names (some r) (some r')

/-- A reservation is made and ended by the member whose it is, or it is swept up by the staff. -/
structure Ended (staff : Prop) (member : UUID → Prop) (r r' : Reservation) : Prop where
  memberId : r'.memberId = r.memberId
  bookId : r'.bookId = r.bookId
  reservedAt : r'.reservedAt = r.reservedAt
  byMember : r'.status = .cancelled ∨ r'.status = .completed →
    r'.status = r.status ∨ member r.memberId
  byStaff : r'.status = .expired → r.status = .expired ∨ staff

inductive ReservationRight (staff : Prop) (member : UUID → Prop) :
    Option Reservation → Option Reservation → Prop
  | same {o : Option Reservation} : ReservationRight staff member o o
  | placed {r : Reservation} : member r.memberId → (r.status = .expired → staff) →
      ReservationRight staff member none (some r)
  | changed {r r' : Reservation} : Ended staff member r r' →
      ReservationRight staff member (some r) (some r')

/-- What the store was and what it is now, if nobody did more than was theirs to do. -/
structure Entitled (staff : Prop) (member names : UUID → Prop) (s t : DB) : Prop where
  accounts : SameAccounts s t
  books : ∀ x, Counted (s.books.get x) (t.books.get x) ∨ staff
  loans : ∀ x, LoanRight member names (s.borrowRecords.get x) (t.borrowRecords.get x)
  reservations : ∀ x, ReservationRight staff member (s.reservations.get x) (t.reservations.get x)

variable {staff : Prop} {member names : UUID → Prop}

namespace LoanRight

variable {o o' o'' : Option BorrowRecord}

theorem mono {member' names' : UUID → Prop} (hmember : ∀ x, member x → member' x)
    (hnames : ∀ x, names x → names' x) (h : LoanRight member names o o') :
    LoanRight member' names' o o' := by
  cases h with
  | same => exact .same
  | lent hm => exact .lent (hmember _ hm)
  | changed hn hid hm hb hd => exact .changed (hnames _ hn) hid hm hb hd

theorem trans (h : LoanRight member names o o') (h' : LoanRight member names o' o'') :
    LoanRight member names o o'' := by
  cases h with
  | same => exact h'
  | lent hm =>
    cases h' with
    | same => exact .lent hm
    | changed _ _ hm' => exact .lent (hm'.symm ▸ hm)
  | changed hn hid hm hb hd =>
    cases h' with
    | same => exact .changed hn hid hm hb hd
    | changed _ hid' hm' hb' hd' =>
      exact .changed hn (hid'.trans hid) (hm'.trans hm) (hb'.trans hb) (hd'.trans hd)

end LoanRight

namespace ReservationRight

variable {o o' o'' : Option Reservation}

theorem mono {staff' : Prop} {member' : UUID → Prop} (hstaff : staff → staff')
    (hmember : ∀ x, member x → member' x) (h : ReservationRight staff member o o') :
    ReservationRight staff' member' o o' := by
  cases h with
  | same => exact .same
  | placed hm hs => exact .placed (hmember _ hm) fun he => hstaff (hs he)
  | changed he =>
    exact .changed ⟨he.memberId, he.bookId, he.reservedAt,
      fun hend => (he.byMember hend).imp id (hmember _),
      fun hend => (he.byStaff hend).imp id hstaff⟩

theorem trans (h : ReservationRight staff member o o') (h' : ReservationRight staff member o' o'') :
    ReservationRight staff member o o'' := by
  cases h with
  | same => exact h'
  | @placed r hm hs =>
    cases h' with
    | same => exact .placed hm hs
    | changed he' =>
      refine .placed (he'.memberId.symm ▸ hm) fun hend => ?_
      exact (he'.byStaff hend).elim hs id
  | @changed r r' he =>
    cases h' with
    | same => exact .changed he
    | changed he' =>
      refine .changed ⟨he'.memberId.trans he.memberId, he'.bookId.trans he.bookId,
        he'.reservedAt.trans he.reservedAt, fun hend => ?_, fun hend => ?_⟩
      · rcases he'.byMember hend with heq | hm
        · rw [heq]
          exact he.byMember (heq ▸ hend)
        · exact .inr (he.memberId ▸ hm)
      · rcases he'.byStaff hend with heq | hs
        · exact he.byStaff heq
        · exact .inr hs

end ReservationRight

namespace Entitled

theorem refl (t : DB) : Entitled staff member names t t :=
  ⟨.refl t, fun _ => .inl .same, fun _ => .same, fun _ => .same⟩

theorem mono {staff' : Prop} {member' names' : UUID → Prop} (hstaff : staff → staff')
    (hmember : ∀ x, member x → member' x) (hnames : ∀ x, names x → names' x)
    (h : Entitled staff member names t u) : Entitled staff' member' names' t u where
  accounts := h.accounts
  books x := (h.books x).imp id hstaff
  loans x := (h.loans x).mono hmember hnames
  reservations x := (h.reservations x).mono hstaff hmember

/-- Rights do not add up to more than they are. -/
theorem trans {w : DB} (h : Entitled staff member names t u)
    (h' : Entitled staff member names u w) :
    Entitled staff member names t w where
  accounts := h.accounts.trans h'.accounts
  books x := by
    rcases h.books x with hb | hs
    · exact (h'.books x).imp hb.trans id
    · exact .inr hs
  loans x := (h.loans x).trans (h'.loans x)
  reservations x := (h.reservations x).trans (h'.reservations x)

end Entitled

/-! ## What the dependencies ask for -/

/-- The member in whose name the call is made. -/
def Op.actsFor : Op → Option UUID
  | .borrowBook memberId _ | .placeReservation memberId _ | .cancelReservation _ memberId =>
    some memberId
  | _ => none

/-- The calls for librarians and administrators only. -/
def Op.isStaff : Op → Bool
  | .processExpiredHolds => true
  | op => op.isInventory

section

variable {env : Env} {op : Op} {c : Call} {now : Int}
  {credentials : Option HTTPAuthorizationCredentials} {route : Route} {w : DB}

theorem StatusChange.right {o o' : Option Reservation} (h : StatusChange c t u o o')
    (hstaff : c.op.isStaff → staff) (hmember : ∀ x, c.op.actsFor = some x → member x) :
    ReservationRight staff member o o' := by
  cases h with
  | same => exact .same
  | placed hop hs =>
    refine .placed (hmember _ (by rw [hop]; rfl)) fun he => ?_
    rw [hs] at he
    cases he
  | promoted => exact .changed ⟨rfl, rfl, rfl, by simp, by simp⟩
  | cancelled hop =>
    exact .changed ⟨rfl, rfl, rfl, fun _ => .inr (hmember _ (by rw [hop]; rfl)), by simp⟩
  | completed hlends =>
    exact .changed ⟨rfl, rfl, rfl, fun _ => .inr (hmember _ (by rw [hlends.call]; rfl)), by simp⟩
  | expired hop =>
    exact .changed ⟨rfl, rfl, rfl, by simp, fun _ => .inr (hstaff (by rw [hop]; rfl))⟩

/-- One loan is written over. -/
theorem LoanRight.put {id : UUID} {r r' : BorrowRecord} (hr : t.borrowRecords.get id = some r)
    (hright : LoanRight member names (some r) (some { r' with id := id })) (x : UUID) :
    LoanRight member names (t.borrowRecords.get x)
      ((t.put (.borrowRecord id) (.borrowRecord r')).borrowRecords.get x) := by
  rw [get_putBorrowRecord]
  split
  · rename_i hx
    rw [hx, hr]
    exact hright
  · exact .same

theorem Op.Effect.loanRight (h : op.Effect D guard t svc env t u)
    (hmember : ∀ x, op.actsFor = some x → member x)
    (hnames : ∀ x, op = .returnBook x ∨ op = .renewBook x → names x) (x : UUID) :
    LoanRight member names (t.borrowRecords.get x) (u.borrowRecords.get x) := by
  rcases Op.Effect.borrowRecords h with he | ⟨memberId, bookId, rfl⟩ | ⟨id, rfl⟩ | ⟨id, rfl⟩
  · rw [he]
    exact .same
  · have hlent : Borrowed D t (getBorrowService svc) env memberId bookId t u := h
    rw [hlent.borrowRecords, Table.get_put]
    split
    · rename_i hx
      have hx : x = env.newId := hx
      rw [hx, hlent.fresh]
      exact .lent (hmember _ rfl)
    · exact .same
  · cases h with
    | again => exact .same
    | handed _ _ _ _ _ hget hh =>
      obtain rfl := Table.key_of_get hget
      rw [hh.borrowRecords]
      refine LoanRight.put hget ?_ x
      exact .changed (hnames _ (.inl rfl)) rfl rfl rfl rfl
  · cases h with
    | mk _ _ _ _ _ _ _ hget _ =>
      obtain rfl := Table.key_of_get hget
      refine LoanRight.put hget ?_ x
      exact .changed (hnames _ (.inr rfl)) rfl rfl rfl rfl

/-- A call does to the store what is the right of those who may make it. -/
theorem Op.Effect.entitled (h : op.Effect D guard t svc env t u) (hstaff : op.isStaff → staff)
    (hmember : ∀ x, op.actsFor = some x → member x)
    (hnames : ∀ x, op = .returnBook x ∨ op = .renewBook x → names x) :
    Entitled staff member names t u where
  accounts := ⟨h.users, h.members⟩
  books x := by
    cases hop : op.isInventory with
    | true => exact .inr (hstaff (by cases op <;> first | rfl | cases hop))
    | false => exact .inl (h.counted hop x)
  loans := h.loanRight hmember hnames
  reservations x := (Call.Commits.change (c := ⟨op, env⟩) h x).right hstaff hmember

theorem Authenticated.of_accounts {x : User} (h : Authenticated api now credentials t x)
    (ha : SameAccounts t u) : Authenticated api now credentials u x := by
  obtain ⟨hc, hscheme, hp, hsub, hne, hget, hactive⟩ := h
  exact ⟨hc, hscheme, hp, hsub, hne, ha.users ▸ hget, hactive⟩

theorem Represents.of_accounts {x : User} {m : Member} (h : Represents t x m)
    (ha : SameAccounts t u) : Represents u x m := ⟨ha.members ▸ h.1, h.2⟩

theorem Dispatched.of_accounts (h : Dispatched api now credentials t route op)
    (ha : SameAccounts t u) : Dispatched api now credentials u route op := by
  cases h with
  | createBook hx => exact .createBook ⟨hx.1.of_accounts ha, hx.2⟩
  | updateBook hx => exact .updateBook ⟨hx.1.of_accounts ha, hx.2⟩
  | deleteBook hx => exact .deleteBook ⟨hx.1.of_accounts ha, hx.2⟩
  | borrowBook hx hm hid => exact .borrowBook (hx.of_accounts ha) (hm.of_accounts ha) hid
  | returnBook => exact .returnBook
  | renewBook => exact .renewBook
  | placeReservation hx hm =>
    exact .placeReservation ⟨hx.1.of_accounts ha, hx.2⟩ (hm.of_accounts ha)
  | cancelReservation hx hm =>
    exact .cancelReservation ⟨hx.1.of_accounts ha, hx.2⟩ (hm.of_accounts ha)
  | sweepExpiredHolds hx => exact .sweepExpiredHolds ⟨hx.1.of_accounts ha, hx.2⟩

theorem Dispatched.ofStaff (h : Dispatched api now credentials t route op) (hop : op.isStaff) :
    (Visit.write now credentials env route).OfStaff api t := by
  cases h with
  | createBook hu => exact ⟨_, _, _, _, _, rfl, hu⟩
  | updateBook hu => exact ⟨_, _, _, _, _, rfl, hu⟩
  | deleteBook hu => exact ⟨_, _, _, _, _, rfl, hu⟩
  | sweepExpiredHolds hu => exact ⟨_, _, _, _, _, rfl, hu⟩
  | _ => cases hop

theorem Dispatched.ofMember (h : Dispatched api now credentials t route op) {x : UUID}
    (hop : op.actsFor = some x) : (Visit.write now credentials env route).OfMember api t x := by
  cases h with
  | borrowBook hu hm => exact ⟨_, _, _, _, _, _, rfl, hu, hm, Option.some.inj hop⟩
  | placeReservation hu hm => exact ⟨_, _, _, _, _, _, rfl, hu.1, hm, Option.some.inj hop⟩
  | cancelReservation hu hm => exact ⟨_, _, _, _, _, _, rfl, hu.1, hm, Option.some.inj hop⟩
  | _ => cases hop

theorem Dispatched.ofNames (h : Dispatched api now credentials t route op) {x : UUID}
    (hop : op = .returnBook x ∨ op = .renewBook x) :
    (Visit.write now credentials env route).Names x := by
  cases h with
  | returnBook =>
    simp only [Op.returnBook.injEq, reduceCtorEq, or_false] at hop
    exact ⟨_, _, _, .inl (by rw [hop])⟩
  | renewBook =>
    simp only [Op.renewBook.injEq, reduceCtorEq, false_or] at hop
    exact ⟨_, _, _, .inr (by rw [hop])⟩
  | _ => rcases hop with hop | hop <;> cases hop

theorem Visit.OfStaff.of_accounts (h : v.OfStaff api t) (ha : SameAccounts t u) :
    v.OfStaff api u := by
  obtain ⟨now, credentials, env, route, x, hv, hx, hrole⟩ := h
  exact ⟨now, credentials, env, route, x, hv, hx.of_accounts ha, hrole⟩

theorem Visit.OfMember.of_accounts {memberId : UUID} (h : v.OfMember api t memberId)
    (ha : SameAccounts t u) : v.OfMember api u memberId := by
  obtain ⟨now, credentials, env, route, x, m, hv, hx, hm, hid⟩ := h
  exact ⟨now, credentials, env, route, x, m, hv, hx.of_accounts ha, hm.of_accounts ha, hid⟩

end

/-! ## Any run -/

/-- The visit does to the store what is the right of whoever makes it. -/
def Visit.Entitles (api : Api) (v : Visit) (s t : DB) : Prop :=
  Entitled (v.OfStaff api s) (v.OfMember api s) v.Names s t

def theirs (s₀ : DB) : Discipline DB RowKey := keeping (SameAccounts s₀)

theorem Visit.Commits.entitles 
    (h : v.Commits (theirs s₀) (Op.effects (theirs s₀) guard svc) api t u)
    (ht : SameAccounts s₀ t) : v.Entitles api t u := by
  cases h with
  | nothing => exact .refl t
  | op hpast hd he =>
    have ha := SameAccounts.trans (SameAccounts.symm hpast.1) ht
    exact he.entitled (fun hop => (hd.ofStaff hop).of_accounts ha)
      (fun x hop => (hd.ofMember hop).of_accounts ha) fun x hop => hd.ofNames hop
  | tokens ht =>
    obtain ⟨_, rfl⟩ := ht
    exact ⟨⟨rfl, rfl⟩, fun _ => .inl .same, fun _ => .same, fun _ => .same⟩

theorem theirs_kept : Keeping (theirs s₀) api visits :=
  keeping_of fun _ _ _ hc hi => ⟨SameAccounts.trans hi hc.accounts, fun _ => trivial⟩

theorem visit_entitles (h : Sys.Reach Sys.Any (Traffic.start api visits s₀) s) {i : Fin n}
    {m : Move RowKey} (hs : s.step i m = some s') : (visits i).Entitles api s.db s'.db := by
  have hinv := (theirs_kept.good (.refl s₀) (Traffic.unguarded h)).inv
  rcases theirs_kept.move (.refl s₀) (Traffic.unguarded h) (fun _ _ _ _ _ _ => trivial) hs
    with he | hc
  · rw [he]
    exact .refl _
  · exact hc.entitles hinv

/-- However the visits are interleaved, each of them does no more than whoever makes it may do, and
together they do no more than some of them may: accounts and memberships stay as they are, books
are registered, described and withdrawn by the staff, loans are made for the member who asks and
never for somebody else, reservations are made, taken up and cancelled by their member and expire
by a sweep of the staff. -/
theorem nobody_oversteps (h : Sys.Reach Sys.Any (Traffic.start api visits s₀) s) :
    (∀ i m s', s.step i m = some s' → (visits i).Entitles api s.db s'.db) ∧
    Entitled (∃ i, (visits i).OfStaff api s₀) (fun x => ∃ i, (visits i).OfMember api s₀ x)
      (fun x => ∃ i, (visits i).Names x) s₀ s.db := by
  refine ⟨fun i m s' hs => visit_entitles h hs, ?_⟩
  induction h with
  | refl => exact .refl s₀
  | tail i m hr _ hs ih =>
    refine ih.trans ((visit_entitles hr hs).mono ?_ ?_ fun x hx => ⟨i, hx⟩)
    · exact fun hstaff => ⟨i, hstaff.of_accounts ih.accounts.symm⟩
    · exact fun x hmember => ⟨i, hmember.of_accounts ih.accounts.symm⟩

/-- The loan that is made while the librarian counts is the right of the member who asks for it. -/
theorem nobody_oversteps_demo :
    ∃ s r, (Traffic.start demoApi demoVisits demoCatalog).runs (demoMeanwhile 0 1) = some s ∧
      s.db.borrowRecords.rows = [r] ∧ r.memberId = 11 ∧
      Entitled (∃ i, (demoVisits i).OfStaff demoApi demoCatalog)
        (fun x => ∃ i, (demoVisits i).OfMember demoApi demoCatalog x)
        (fun x => ∃ i, (demoVisits i).Names x) demoCatalog s.db := by
  have hruns : ((Traffic.start demoApi demoVisits demoCatalog).runs
      (demoMeanwhile 0 1)).any fun s =>
      s.db.borrowRecords.rows = [demoLoan100] := by decide
  obtain ⟨s, hs, hloan⟩ := (Option.any_eq_true _ _).mp hruns
  exact ⟨s, demoLoan100, hs, of_decide_eq_true hloan, rfl,
    (nobody_oversteps (Sys.reach_of_runs hs)).2⟩

end LibraryPlatform

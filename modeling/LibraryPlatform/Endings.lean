import Mathlib.Tactic.FinCases
import LibraryPlatform.Answers
import LibraryPlatform.Completion
import LibraryPlatform.VisitLocks

/-!
# Every request ends

Each request inserts one row at most, under a key that was made for it, and touches no other row
that it has not seen stored. So nobody waits to insert, and where nothing moves and no two lock
orders cross, every request has ended. Only the locks of rows are modelled: the gaps that InnoDB
locks as well for the queries of the queue and of the holds are not, in which a placement can wait
for a return or a sweep.
-/
namespace LibraryPlatform

open KeyedTable Transaction ReservationRepository

/-- The row that the operation may insert. -/
def Op.mint (env : Env) : Op → Option RowKey
  | .createBook _ _ _ _ _ => some (.book env.newId)
  | .borrowBook _ _ => some (.borrowRecord env.newId)
  | .placeReservation _ _ => some (.reservation env.newId)
  | _ => none

def Route.mint (env : Env) : Route → Option RowKey
  | .createBook _ _ _ _ _ => some (.book env.newId)
  | .borrowBook _ => some (.borrowRecord env.newId)
  | .placeReservation _ => some (.reservation env.newId)
  | _ => none

def Visit.mint : Visit → Option RowKey
  | .write _ _ env route => route.mint env
  | .sign env (.login _ _ _) => some (.refreshToken env.newId)
  | .sign env (.refreshToken _ _) => some (.refreshToken env.newId)
  | _ => none

/-! ## Rows that have been seen -/

section

variable {α β : Type} {S : DB → Prop} {T : RowKey → Prop} {mint : Option RowKey}
  {svc : ReservationService} {env : Env} {s : DB} {id bookId memberId : UUID}

theorem tidy_orRaise {o : Option α} {e : Exc} {f : α → Tx β}
    (h : ∀ a, o = some a → (f a).Tidy S T mint) : ((orRaise o e).bind f).Tidy S T mint := by
  cases o with
  | none => trivial
  | some a => exact h a rfl

theorem tidy_raiseIf {c : Prop} [Decidable c] {e : Exc} {f : Unit → Tx β}
    (h : (f ()).Tidy S T mint) : ((raiseIf c e).bind f).Tidy S T mint :=
  (readOnly_raiseIf c e).tidy.bind fun _ => h

theorem tidy_scalarOneOrNone {xs : List α} {f : Option α → Tx β}
    (h : ∀ o, (∀ a, o = some a → a ∈ xs) → (f o).Tidy S T mint) :
    ((scalarOneOrNone xs).bind f).Tidy S T mint := by
  match xs with
  | [] => exact h none (by simp)
  | [a] => exact h (some a) (by simp)
  | _ :: _ :: _ => trivial

theorem readOnly_refuseBorrowed (records : List BorrowRecord) :
    (ReservationService.refuseBorrowed bookId records).ReadOnly := by
  induction records with
  | nil => trivial
  | cons r rest ih => exact (readOnly_raiseIf _ _).bind fun _ => ih

theorem readOnly_validateMember (borrow : BorrowService) (m : Member) :
    (borrow.validateMemberForBorrow env m).ReadOnly := by
  refine (readOnly_raiseIf _ _).bind fun _ => (readOnly_raiseIf _ _).bind fun _ => fun _ => ?_
  exact (readOnly_raiseIf _ _).bind fun _ => fun _ => readOnly_raiseIf _ _

theorem tidy_createBook {title author isbn : String} {totalCopies : Int} {genre : Option String} :
    (BookService.createBook env title author isbn totalCopies genre).Tidy S T
      (some (.book env.newId)) := by
  refine Prog.Tidy.bind (p := BookRepository.getByIsbn isbn)
    (fun s _ => (readOnly_scalarOneOrNone _).tidy) fun _ => tidy_raiseIf ⟨rfl, fun s _ => ?_⟩
  exact (readOnly_orRaise _ _).tidy

theorem tidy_adjustCopies (book : Book) (totalCopies : Option (Option Int)) :
    (BookService.adjustCopies book totalCopies).Tidy S T none := by
  cases totalCopies with
  | none => trivial
  | some total =>
    cases total with
    | none => trivial
    | some total => exact tidy_raiseIf (tidy_raiseIf trivial)

variable (hT : Touches S T)

include hT

theorem touch_book {b : Book} (hs : S s) (h : s.books.get id = some b) : T (.book id) :=
  hT s _ hs (by simp [Store.row, DB.row, h])

theorem touch_member {m : Member} (hs : S s) (h : s.members.get id = some m) : T (.member id) :=
  hT s _ hs (by simp [Store.row, DB.row, h])

theorem touch_borrowRecord {r : BorrowRecord} (hs : S s) (h : s.borrowRecords.get id = some r) :
    T (.borrowRecord id) :=
  hT s _ hs (by simp [Store.row, DB.row, h])

theorem touch_reservation {r : Reservation} (hs : S s) (h : r ∈ s.reservations.rows) :
    T (.reservation r.id) := by
  have hget : s.reservations.get r.id = some r := Table.get_of_mem h
  exact hT s _ hs (by simp [Store.row, DB.row, hget])

theorem touch_refreshToken {r : RefreshToken} (hs : S s) (h : r ∈ s.refreshTokens.rows) :
    T (.refreshToken r.id) := by
  have hget : s.refreshTokens.get r.id = some r := Table.get_of_mem h
  exact hT s _ hs (by simp [Store.row, DB.row, hget])

theorem tidy_bookForUpdate {f : Option Book → Tx β}
    (h : ∀ o, (∀ b, o = some b → b.id = bookId ∧ T (.book bookId)) → (f o).Tidy S T mint) :
    ((BookRepository.getByIdForUpdate bookId).bind f).Tidy S T mint := by
  refine fun s hs => ⟨fun k hk => ?_, h _ fun b hb => ?_⟩
  · obtain ⟨b, hb, rfl⟩ := List.mem_map.mp hk
    exact touch_book hT hs (by simpa using hb)
  · obtain ⟨hget, _⟩ := activeBook_eq_some.mp hb
    exact ⟨Table.key_of_get hget, touch_book hT hs hget⟩

theorem tidy_bookById {f : Option Book → Tx β}
    (h : ∀ o, (∀ b, o = some b → T (.book bookId)) → (f o).Tidy S T mint) :
    ((BookRepository.getById bookId).bind f).Tidy S T mint :=
  fun _ hs => h _ fun _ hb => touch_book hT hs (activeBook_eq_some.mp hb).1

theorem tidy_loanById {f : Option BorrowRecord → Tx β}
    (h : ∀ o, (∀ r, o = some r → T (.borrowRecord r.id)) → (f o).Tidy S T mint) :
    ((BorrowRecordRepository.getById id).bind f).Tidy S T mint := by
  refine fun s hs => h _ fun r hr => ?_
  have hget : s.borrowRecords.get id = some r := hr
  exact touch_borrowRecord hT hs ((Table.key_of_get hget : r.id = id) ▸ hget)

theorem tidy_memberForUpdate {f : Option Member → Tx β} (h : ∀ o, (f o).Tidy S T mint) :
    ((MemberRepository.getByIdForUpdate memberId).bind f).Tidy S T mint := by
  refine fun s hs => ⟨fun k hk => ?_, h _⟩
  obtain ⟨m, hm, rfl⟩ := List.mem_map.mp hk
  exact touch_member hT hs (by simpa using hm)

theorem tidy_reservationForUpdate {f : Option Reservation → Tx β}
    (h : ∀ o, (∀ r, o = some r → T (.reservation r.id)) → (f o).Tidy S T mint) :
    ((ReservationRepository.getByIdForUpdate id).bind f).Tidy S T mint := by
  have hfound : ∀ s, S s → ∀ r, s.reservations.get id = some r →
      r.id = id ∧ T (.reservation r.id) := fun s hs r hr =>
    ⟨Table.key_of_get hr, touch_reservation hT hs (Table.mem_of_get hr)⟩
  refine fun s hs => ⟨fun k hk => ?_, h _ fun r hr => (hfound s hs r hr).2⟩
  obtain ⟨r, hr, rfl⟩ := List.mem_map.mp hk
  obtain ⟨hid, ht⟩ := hfound s hs r (by simpa using hr)
  exact hid ▸ ht

theorem tidy_lockWhere {order : RowOrder Reservation} {p : Reservation → Bool}
    {f : List Reservation → Tx β}
    (h : ∀ rows, (∀ r ∈ rows, T (.reservation r.id)) → (f rows).Tidy S T mint) :
    ((lockWhere order p).bind f).Tidy S T mint := by
  have hrows : ∀ s, S s → ∀ r ∈ s.reservations.rows.filter p, T (.reservation r.id) :=
    fun s hs r hr => touch_reservation hT hs (List.mem_filter.mp hr).1
  refine fun s hs => ⟨fun k hk => ?_, h _ fun r hr => hrows s hs r ((order.perm _).mem_iff.mp hr)⟩
  obtain ⟨r, hr, rfl⟩ := List.mem_map.mp hk
  exact hrows s hs r hr

theorem tidy_fifo {order : RowOrder Reservation} {f : Option Reservation → Tx β}
    (h : ∀ o, (∀ r, o = some r → T (.reservation r.id)) → (f o).Tidy S T mint) :
    ((getFifoPendingByBookId order bookId).bind f).Tidy S T mint := by
  have hfound : ∀ s, S s → ∀ r, oldestPending order bookId s = some r → T (.reservation r.id) :=
    fun s hs r hr => touch_reservation hT hs (oldestPending_mem hr).1
  refine fun s hs => ⟨fun k hk => ?_, h _ fun r hr => hfound s hs r hr⟩
  obtain ⟨r, hr, rfl⟩ := List.mem_map.mp hk
  exact hfound s hs r (by simpa using hr)

/-! ## The operations -/

theorem tidy_restore :
    ((BookRepository.getByIdForUpdate bookId).bind fun
      | some book => (LibraryPlatform.updateBook bookId (fun _ b => do
          checkCopies b.totalCopies (book.availableCopies + 1)
          pure { b with availableCopies := book.availableCopies + 1 })).bind fun _ =>
            note (.restored bookId)
      | none => .ret ()).Tidy S T mint := by
  refine tidy_bookForUpdate hT fun o ho => ?_
  cases o with
  | none => trivial
  | some b => exact ⟨(ho b rfl).2, trivial⟩

theorem tidy_promote {order : RowOrder Reservation} {now : Int} :
    (svc.promoteNextReservation order now bookId).Tidy S T mint := by
  refine tidy_fifo hT fun o ho => ?_
  cases o with
  | none => exact tidy_restore hT
  | some r => exact ⟨ho r rfl, trivial⟩

theorem tidy_expireHolds {rest : List Reservation} (count : Nat)
    (hrest : ∀ r ∈ rest, T (.reservation r.id)) :
    (svc.expireHolds env rest count).Tidy S T none := by
  induction rest generalizing count with
  | nil => trivial
  | cons r rest ih =>
    refine ⟨hrest r List.mem_cons_self, ?_⟩
    refine Prog.Tidy.bind (p := svc.promoteNextReservation _ _ _) (tidy_promote hT) fun _ => ?_
    exact ih _ fun q hq => hrest q (List.mem_cons_of_mem _ hq)

theorem tidy_updateBook {body : BookUpdate} :
    (BookService.updateBook bookId body).Tidy S T none := by
  refine tidy_bookForUpdate hT fun o ho => tidy_orRaise fun b hb => ?_
  refine Prog.Tidy.bind (p := BookService.adjustCopies b _) (tidy_adjustCopies b _) fun _ => ?_
  exact ⟨(ho b hb).2, fun s _ => (readOnly_orRaise _ _).tidy⟩

theorem tidy_deleteBook : (BookService.deleteBook env bookId).Tidy S T none := by
  refine Prog.Tidy.bind (p := BookRepository.delete bookId _) (tidy_bookById hT fun o ho => ?_)
    fun _ => (readOnly_raiseIf _ _).tidy
  cases o with
  | none => trivial
  | some b => exact ⟨ho b rfl, trivial⟩

theorem tidy_borrowBook {borrow : BorrowService} :
    (borrow.borrowBook env memberId bookId).Tidy S T (some (.borrowRecord env.newId)) := by
  refine Prog.Tidy.mapError (tidy_memberForUpdate hT fun _ => tidy_orRaise fun m _ => ?_) _
  refine Prog.Tidy.bind (p := borrow.validateMemberForBorrow env m)
    (readOnly_validateMember borrow m).tidy fun _ => ?_
  refine tidy_bookForUpdate hT fun o ho => tidy_orRaise fun b hb => ?_
  obtain ⟨rfl, hbook⟩ := ho b hb
  refine tidy_lockWhere hT fun holds hholds => tidy_scalarOneOrNone fun hold hmem => ?_
  refine Prog.Tidy.bind (p := BorrowService.completeHold memberId hold) ?_ fun completed => ?_
  · cases hold with
    | none => trivial
    | some r => exact tidy_raiseIf ⟨hholds r (hmem r rfl), trivial⟩
  · refine tidy_raiseIf ?_
    cases completed with
    | true => exact ⟨rfl, trivial⟩
    | false => exact ⟨hbook, rfl, trivial⟩

theorem tidy_returnBook : ((getBorrowService svc).returnBook env id).Tidy S T none := by
  refine Prog.Tidy.mapError (tidy_loanById hT fun o ho => tidy_orRaise fun r hr => ?_) _
  split
  · trivial
  · refine ⟨ho r hr, ?_⟩
    exact Prog.Tidy.bind (p := svc.promoteNextReservation _ _ _) (tidy_promote hT) fun _ => trivial

theorem tidy_renewBook : ((getBorrowService svc).renewBook env id).Tidy S T none := by
  refine Prog.Tidy.mapError (tidy_loanById hT fun o ho => tidy_orRaise fun r hr => ?_) _
  exact tidy_raiseIf (tidy_raiseIf (tidy_raiseIf (tidy_raiseIf ⟨ho r hr, trivial⟩)))

theorem tidy_placeReservation :
    (ReservationService.placeReservation env memberId bookId).Tidy S T
      (some (.reservation env.newId)) := by
  refine tidy_bookForUpdate hT fun o ho => tidy_orRaise fun b hb => tidy_raiseIf fun s _ => ?_
  refine tidy_raiseIf ?_
  refine Prog.Tidy.bind (p := getActiveByMemberAndBook memberId bookId)
    (fun s _ => (readOnly_scalarOneOrNone _).tidy) fun _ => tidy_raiseIf ?_
  refine tidy_memberForUpdate hT fun _ => tidy_orRaise fun m _ => ?_
  refine tidy_raiseIf (tidy_raiseIf fun s _ => ?_)
  refine Prog.Tidy.bind (p := ReservationService.refuseBorrowed bookId _)
    (readOnly_refuseBorrowed _).tidy fun _ => ?_
  exact ⟨rfl, fun s _ => (readOnly_orRaise _ _).tidy⟩

theorem tidy_cancelReservation : (svc.cancelReservation env id memberId).Tidy S T none := by
  refine tidy_reservationForUpdate hT fun o ho => tidy_orRaise fun r hr => ?_
  refine tidy_raiseIf (tidy_raiseIf ⟨ho r hr, ?_⟩)
  have hlast : (do orRaise (← ReservationRepository.getById r.id) .staleData :
      Tx Reservation).Tidy S T none := fun s _ => (readOnly_orRaise _ _).tidy
  by_cases hs : r.status = .hold
  · simp only [hs, ↓reduceIte]
    exact Prog.Tidy.bind (p := svc.promoteNextReservation _ _ _) (tidy_promote hT) fun _ => hlast
  · simp only [hs, ↓reduceIte]
    exact hlast

theorem tidy_processExpiredHolds : (svc.processExpiredHolds env).Tidy S T none :=
  tidy_lockWhere hT fun _ hrows => tidy_expireHolds hT 0 hrows

/-- An operation touches what it has seen, and inserts its own row. -/
theorem tidy_op (op : Op) : (op.run svc env).Tidy S T (op.mint env) := by
  cases op <;> refine Prog.Tidy.followed ?_ fun _ => trivial
  case createBook => exact tidy_createBook
  case updateBook => exact tidy_updateBook hT
  case deleteBook => exact tidy_deleteBook hT
  case borrowBook => exact tidy_borrowBook hT
  case returnBook => exact tidy_returnBook hT
  case renewBook => exact tidy_renewBook hT
  case placeReservation => exact tidy_placeReservation hT
  case cancelReservation => exact tidy_cancelReservation hT
  case processExpiredHolds => exact tidy_processExpiredHolds hT

/-! ## The requests -/

theorem tidy_tokenByHash {hash : String} {f : Option RefreshToken → Tx β}
    (h : ∀ o, (∀ t, o = some t → T (.refreshToken t.id)) → (f o).Tidy S T mint) :
    ((RefreshTokenRepository.getByTokenHash hash).bind f).Tidy S T mint :=
  fun _ hs => tidy_scalarOneOrNone fun o ho => h o fun t ht =>
    touch_refreshToken hT hs (List.mem_filter.mp (ho t ht)).1

omit hT in
theorem tidy_revokeAll {toks : List RefreshToken} (h : ∀ t ∈ toks, T (.refreshToken t.id)) :
    (AuthService.revokeAll toks).Tidy S T none := by
  induction toks with
  | nil => trivial
  | cons tok rest ih =>
    exact ⟨h tok List.mem_cons_self, ih fun t ht => h t (List.mem_cons_of_mem _ ht)⟩

theorem tidy_refreshToken {auth : AuthService} {env : AuthEnv} {raw : String}
    {client : ClientMetadata} :
    (auth.refreshToken env raw client).Tidy S T (some (.refreshToken env.newId)) := by
  refine tidy_tokenByHash hT fun o ho => tidy_orRaise fun tok htok => ?_
  have hone : ∀ t ∈ [tok], T (.refreshToken t.id) := by simpa using ho tok htok
  split
  · refine fun s hs => Prog.Tidy.bind (p := AuthService.revokeAll _)
      (tidy_revokeAll fun t ht => ?_) fun _ => trivial
    have hmem := (List.mem_filter.mp ((env.tokenOrder.perm _).mem_iff.mp ht)).1
    exact touch_refreshToken hT hs (List.mem_filter.mp hmem).1
  · split
    · exact Prog.Tidy.bind (p := AuthService.revokeAll _) (tidy_revokeAll hone) fun _ => trivial
    · refine fun s _ => tidy_orRaise fun u _ => tidy_raiseIf ?_
      exact Prog.Tidy.bind (p := AuthService.revokeAll _) (tidy_revokeAll hone)
        fun _ => ⟨rfl, trivial⟩

theorem tidy_sign {api : Api} {env : AuthEnv} (op : AuthOp) :
    (op.run api.auth env).Tidy S T (Visit.sign env op).mint := by
  cases op <;> refine Prog.Tidy.followed ?_ fun _ => trivial
  case login email password client =>
    refine Prog.Tidy.bind (p := UserRepository.getByEmail email)
      (fun _ _ => (readOnly_scalarOneOrNone _).tidy) fun _ => tidy_orRaise fun u _ => ?_
    exact tidy_raiseIf (tidy_raiseIf ⟨rfl, trivial⟩)
  case refreshToken raw client => exact tidy_refreshToken hT
  case logout raw =>
    refine tidy_tokenByHash hT fun o ho => ?_
    cases o with
    | none => trivial
    | some tok =>
      refine tidy_revokeAll fun t ht => ?_
      obtain rfl := List.mem_singleton.mp (List.mem_filter.mp ht).1
      exact ho t rfl

omit hT in
/-- The call of a route inserts what the route may insert. -/
theorem tidy_dispatch (env : Env) {api : Api} {now : Int}
    {credentials : Option HTTPAuthorizationCredentials} {route : Route} {f : Op → Tx β}
    (h : ∀ op : Op, op.mint env = route.mint env → (f op).Tidy S T mint) :
    ((api.dispatch now credentials route).bind f).Tidy S T mint := by
  have hrole : ∀ roles g, (∀ u, (g u : Tx β).Tidy S T mint) →
      ((api.getCurrentUser now credentials).bind fun u =>
        (roleRequirement roles u).bind g).Tidy S T mint := fun roles g hg =>
    api.getCurrentUser_readOnly.tidy.bind fun u => roleRequirement_readOnly.tidy.bind hg
  cases route <;> simp only [Api.dispatch, Prog.bind_eq, Prog.bind_assoc]
  case createBook => exact hrole _ _ fun _ => h _ rfl
  case updateBook => exact hrole _ _ fun _ => h _ rfl
  case deleteBook => exact hrole _ _ fun _ => h _ rfl
  case borrowBook =>
    refine api.getCurrentUser_readOnly.tidy.bind fun u => ?_
    exact currentMember_readOnly.tidy.bind fun m => tidy_orRaise fun _ _ => h _ rfl
  case returnBook => exact h _ rfl
  case renewBook => exact h _ rfl
  case placeReservation =>
    exact hrole _ _ fun _ => currentMember_readOnly.tidy.bind fun m => h _ rfl
  case cancelReservation =>
    exact hrole _ _ fun _ => currentMember_readOnly.tidy.bind fun m => h _ rfl
  case sweepExpiredHolds => exact hrole _ _ fun _ => h _ rfl

theorem tidy_visit {api : Api} (v : Visit) : (v.run api).Tidy S T v.mint := by
  cases v with
  | write now credentials env route =>
    refine Prog.Tidy.followed ?_ fun _ => trivial
    refine tidy_dispatch env fun op hop => ?_
    have hrun : (op.run api.reservations env).Tidy S T (op.mint env) := tidy_op hT op
    rw [hop] at hrun
    unfold transactional
    cases route.inTransaction with
    | false => exact hrun
    | true => exact hrun
  | sign env op => exact tidy_sign hT op
  | ask now credentials env inquiry =>
    exact (Api.answer_readOnly inquiry).tidy.bind fun _ => trivial

end

/-! ## All of them -/

variable {n : Nat} {api : Api} {visits : Fin n → Visit} {s₀ : DB}

end LibraryPlatform

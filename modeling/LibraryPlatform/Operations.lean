import LibraryPlatform.BookEffects
import LibraryPlatform.BorrowEffects

/-!
# The operations of the library

One transaction of any of the operations, as the API runs it, and the serial runs.
-/
namespace LibraryPlatform

open KeyedTable Transaction

inductive Op where
  | createBook (title author isbn : String) (totalCopies : Int) (genre : Option String)
  | updateBook (bookId : UUID) (body : BookUpdate)
  | deleteBook (bookId : UUID)
  | borrowBook (memberId bookId : UUID)
  | returnBook (borrowRecordId : UUID)
  | renewBook (borrowRecordId : UUID)
  | placeReservation (memberId bookId : UUID)
  | cancelReservation (reservationId memberId : UUID)
  | processExpiredHolds
  deriving DecidableEq

inductive Reply where
  | book (b : Book)
  | deleted
  | loan (r : BorrowRecord)
  | returned (r : BorrowRecord) (fineAmount : Option Int)
  | reservation (r : Reservation)
  | swept (expiredCount : Nat)
  deriving DecidableEq

def Op.run (svc : ReservationService) (env : Env) : Op → Tx Reply
  | .createBook title author isbn totalCopies genre =>
    Reply.book <$> BookService.createBook env title author isbn totalCopies genre
  | .updateBook bookId body => Reply.book <$> BookService.updateBook bookId body
  | .deleteBook bookId => (fun _ => Reply.deleted) <$> BookService.deleteBook env bookId
  | .borrowBook memberId bookId =>
      Reply.loan <$> (getBorrowService svc).borrowBook env memberId bookId
  | .returnBook id => (fun a => Reply.returned a.1 a.2) <$> (getBorrowService svc).returnBook env id
  | .renewBook id => Reply.loan <$> (getBorrowService svc).renewBook env id
  | .placeReservation memberId bookId =>
    Reply.reservation <$> ReservationService.placeReservation env memberId bookId
  | .cancelReservation id memberId => Reply.reservation <$> svc.cancelReservation env id memberId
  | .processExpiredHolds => Reply.swept <$> svc.processExpiredHolds env

/-- What an operation commits, given what it is promised of the rows it writes over. -/
def Op.Effect (D : Discipline DB RowKey) (guard : RowKey → Option DB → DB → Prop) (s : DB)
    (svc : ReservationService) (env : Env) : Op → DB → DB → Prop
  | .createBook title author isbn totalCopies genre =>
      Created (createdBook env title author isbn totalCopies genre)
  | .updateBook bookId body => Updated D s bookId body
  | .deleteBook bookId => Deleted D s env bookId
  | .borrowBook memberId bookId => Borrowed D s (getBorrowService svc) env memberId bookId
  | .returnBook id => Returned D (guard (.borrowRecord id)) s (getBorrowService svc) env id
  | .renewBook id => Renewed D (guard (.borrowRecord id)) s (getBorrowService svc) env id
  | .placeReservation memberId bookId => Placed D s env memberId bookId
  | .cancelReservation id memberId => Cancelled D s svc env id memberId
  | .processExpiredHolds => Swept D s svc env

variable {α : Type} {D : Discipline DB RowKey} {T : Contract DB RowKey α} {svc : ReservationService}
  {env : Env}

theorem wp_op (hT : T.Quiet) {op : Op} {s : DB} :
    wp D T (op.run svc env)
    (AtCommit D fun _ _ t t' => op.Effect D T.guard t svc env t t') .init s := by
  cases op <;> simp only [Op.run, Prog.map_eq, wp_bind, wp_ret]
  case createBook => exact wp_createBook
  case updateBook => exact wp_bookService_updateBook hT
  case deleteBook => exact wp_deleteBook hT
  case borrowBook => exact wp_borrowBook hT
  case returnBook => exact wp_returnBook hT
  case renewBook => exact wp_renewBook hT rfl
  case placeReservation => exact wp_placeReservation hT
  case cancelReservation => exact wp_cancelReservation hT
  case processExpiredHolds => exact wp_processExpiredHolds hT

/-! ## Serial runs -/

/-- What a call that runs alone commits. -/
def Op.Alone (s : DB) (svc : ReservationService) (env : Env) (op : Op) (s' : DB) : Prop :=
  op.Effect (alone s) (fun _ _ _ => True) s svc env s s'

theorem call_op {op : Op} {s s' : DB} {r : Except Exc Reply}
    (h : call (op.run svc env) s = (r, s')) :
    (∃ a, r = .ok a ∧ op.Alone s svc env s') ∨ (∃ e, r = .error e ∧ s' = s) := by
  have hw : wp (alone s) (Contract.plain : Contract DB RowKey Unit) (op.run svc env) _ .init s :=
    wp_op Contract.plain_quiet
  cases r with
  | ok a =>
    obtain ⟨l, hQ, rfl⟩ := call_wp hw h
    exact .inl ⟨a, rfl, hQ s (.refl l rfl)⟩
  | error e => exact .inr ⟨e, rfl, call_raised hw h⟩

/-- What a call leaves of the store. -/
theorem after_op (svc : ReservationService) (env : Env) (op : Op) (s : DB) :
    op.Alone s svc env (call (op.run svc env) s).2 ∨ (call (op.run svc env) s).2 = s := by
  rcases call_op (Prod.eta (call (op.run svc env) s)).symm with ⟨_, _, he⟩ | ⟨_, _, he⟩
  · exact .inl he
  · exact .inr he

namespace DB

/-- What other requests do to accounts: they register, and statuses change. No
request removes or soft-deletes a member. -/
structure Accounts (s s' : DB) : Prop where
  frame : ∃ users members, s' = { s with users, members }
  kept : ∀ id, s.members.get id ≠ none → s'.members.get id ≠ none
  active : ∀ m ∈ s'.members.rows, m.isDeleted = false

end DB

/-- The states of the serial runs from empty tables whose calls all satisfy `G`. -/
inductive Runs (svc : ReservationService) (G : DB → Op → Prop) : DB → Prop
  | empty (collation : Collation) : Runs svc G (.empty collation)
  | call {s s' : DB} {op : Op} {r : Except Exc Reply} (env : Env) :
      Runs svc G s → G s op → call (op.run svc env) s = (r, s') → Runs svc G s'
  | accounts {s s' : DB} : Runs svc G s → s.Accounts s' → Runs svc G s'

def AnyOp (_ : DB) (_ : Op) : Prop := True

/-- The invariants of a serial run: true of the empty tables, and kept by the
commits of the operations and by account requests. -/
theorem Runs.invariant {G : DB → Op → Prop} {I : DB → Prop}
    (empty : ∀ collation, I (.empty collation))
    (op : ∀ s s' op env, I s → G s op → Op.Alone s svc env op s' → I s')
    (accounts : ∀ s s', I s → s.Accounts s' → I s') {s : DB} (h : Runs svc G s) : I s := by
  induction h with
  | empty collation => exact empty collation
  | call env _ hg hc ih =>
    rcases call_op hc with ⟨a, _, he⟩ | ⟨e, _, rfl⟩
    · exact op _ _ _ env ih hg he
    · exact ih
  | accounts _ ha ih => exact accounts _ _ ih ha

/-- One call of any operation, or one account request. -/
inductive SerialStep (svc : ReservationService) : DB → DB → Prop
  | call {s s' : DB} {op : Op} {r : Except Exc Reply} (env : Env) :
      call (op.run svc env) s = (r, s') → SerialStep svc s s'
  | accounts {s s' : DB} : s.Accounts s' → SerialStep svc s s'

theorem SerialStep.kept {P : DB → Prop} {s s' : DB} (h : SerialStep svc s s')
    (op : ∀ s' op env, Op.Alone s svc env op s' → P s') (accounts : ∀ s', s.Accounts s' → P s')
    (hs : P s) : P s' := by
  cases h with
  | call env hc =>
    rcases call_op hc with ⟨a, _, he⟩ | ⟨e, _, rfl⟩
    · exact op _ _ env he
    · exact hs
  | accounts ha => exact accounts _ ha

theorem Runs.members {G : DB → Op → Prop} (collation : Collation) (members : Table Member)
    (h : ∀ m ∈ members.rows, m.isDeleted = false) :
    Runs svc G { DB.empty collation with members } :=
  .accounts (.empty collation) ⟨⟨.empty, members, rfl⟩, by simp [DB.empty], h⟩

/-- What calls commit that are made one after the other. -/
def serial (svc : ReservationService) : List (Env × Op) → DB → DB
  | [], s => s
  | (env, op) :: rest, s => serial svc rest (call (op.run svc env) s).2

theorem SerialStep.of_call (svc : ReservationService) (env : Env) (op : Op) (s : DB) :
    SerialStep svc s (serial svc [(env, op)] s) := .call env rfl

theorem Runs.serial {G : DB → Op → Prop} {s : DB} (calls : List (Env × Op))
    (hG : ∀ c ∈ calls, ∀ s, G s c.2) (h : Runs svc G s) : Runs svc G (serial svc calls s) := by
  induction calls generalizing s with
  | nil => exact h
  | cons c rest ih =>
    exact ih (fun d hd => hG d (List.mem_cons_of_mem _ hd))
      (.call c.1 h (hG c List.mem_cons_self _) rfl)

def demoEnv (newId : UUID) (now : Int) : Env := ⟨fun _ => now, newId, .stored, .stored⟩

/-- Four members, and no books yet. -/
def demoStart : DB :=
  { DB.empty .ignoringCase with
    members := (((Table.empty.put ⟨10, 10, .active, false⟩).put ⟨11, 11, .active, false⟩).put
      ⟨12, 12, .active, false⟩).put ⟨13, 13, .active, false⟩ }

theorem demoStart_runs {svc : ReservationService} {G : DB → Op → Prop} : Runs svc G demoStart :=
  .members _ _ (by decide)

end LibraryPlatform

import LibraryPlatform.IsbnCheck

/-!
# The bodies of book requests

What the request schemas accept, what the service checks, and what the columns of a book take.
-/
namespace LibraryPlatform

open KeyedTable Transaction ReservationRepository

/-- `BookCreateRequest`: a value that cannot be built does not pass the schema. -/
structure BookCreateRequest where
  title : String
  author : String
  isbn : String
  genre : Option String
  totalCopies : Int
  title_length : 1 ≤ title.length ∧ title.length ≤ 255
  author_length : 1 ≤ author.length ∧ author.length ≤ 255
  isbn_length : 10 ≤ isbn.length ∧ isbn.length ≤ 13
  genre_length : ∀ v, genre = some v → v.length ≤ 100
  totalCopies_ge : 0 ≤ totalCopies

/-- `BookUpdateRequest`: every field may be absent or null. -/
structure BookUpdateRequest extends BookUpdate where
  title_length : ∀ v, title = some (some v) → 1 ≤ v.length ∧ v.length ≤ 255
  author_length : ∀ v, author = some (some v) → 1 ≤ v.length ∧ v.length ≤ 255
  isbn_length : ∀ v, isbn = some (some v) → 10 ≤ v.length ∧ v.length ≤ 13
  genre_length : ∀ v, genre = some (some v) → v.length ≤ 100
  totalCopies_ge : ∀ n, totalCopies = some (some n) → 0 ≤ n

inductive BookBody where
  | create (dto : BookCreateRequest)
  | update (bookId : UUID) (dto : BookUpdateRequest)

/-- The call the route makes. -/
def BookBody.op : BookBody → Op
  | .create dto => .createBook dto.title dto.author dto.isbn dto.totalCopies dto.genre
  | .update bookId dto => .updateBook bookId dto.toBookUpdate

/-! ## What the columns take -/

def Book.texts (b : Book) : BookTexts := ⟨some b.isbn, some b.title, some b.author, b.genre⟩

structure TextsAccepted (texts : BookTexts) : Prop where
  isbn : ∃ v, texts.isbn = some v ∧ v.length ≤ 20
  title : ∃ v, texts.title = some v ∧ v.length ≤ 500
  author : ∃ v, texts.author = some v ∧ v.length ≤ 255
  genre : ∀ v, texts.genre = some v → v.length ≤ 100

def SmallInt (v : Int) : Prop := -32768 ≤ v ∧ v ≤ 32767

structure ColumnsAccept (texts : BookTexts) (total available : Int) : Prop where
  texts : TextsAccepted texts
  total : SmallInt total
  available : SmallInt available

/-- The value is refused, not a key. -/
def DbError.isDataError : DbError → Bool
  | .duplicateEntry _ | .noReferencedRow _ => false
  | _ => true

variable {svc : ReservationService} {G : DB → Op → Prop} {env : Env} {s s' db : DB}
  {old b b' : Book} {texts : BookTexts} {total available : Int}

theorem checkLength_ok {column v : String} {max : Nat} {u : Unit}
    (h : checkLength column max v = .ok u) : v.length ≤ max := by
  unfold checkLength at h
  split at h
  · assumption
  · cases h

/-- What the table stores, its columns take. -/
theorem storeBook_columns (h : db.storeBook old texts total available = .ok b) :
    ColumnsAccept texts total available := by
  have hcopies := checkCopies_iff.mp (storeBook_copies h)
  simp only [DB.storeBook, except_bind_ok] at h
  obtain ⟨isbn, hisbn, title, htitle, author, hauthor, _, hi, _, ht, _, ha, _, hg, _⟩ := h
  refine ⟨⟨⟨isbn, checkNotNull_ok hisbn, checkLength_ok hi⟩,
    ⟨title, checkNotNull_ok htitle, checkLength_ok ht⟩,
    ⟨author, checkNotNull_ok hauthor, checkLength_ok ha⟩, fun v hv => ?_⟩, ?_, ?_⟩
  · rw [hv] at hg
    exact checkLength_ok hg
  · exact ⟨by omega, hcopies.1⟩
  · exact ⟨by omega, by omega⟩

/-- What the columns take, the table refuses for its key only. -/
theorem storeBook_accepted (h : ColumnsAccept texts total available) (hpos : 0 ≤ available)
    (hle : available ≤ total) :
    FailsWith (fun e => e.isDataError = false) (db.storeBook old texts total available) := by
  obtain ⟨⟨⟨isbn, hisbn, hi⟩, ⟨title, htitle, ht⟩, ⟨author, hauthor, ha⟩, hgenre⟩, htotal, _⟩ := h
  have hcopies : checkCopies total available = .ok () :=
    checkCopies_iff.mpr ⟨htotal.2, hpos, hle⟩
  have hlength : ∀ {column v : String} {max : Nat}, v.length ≤ max →
      checkLength column max v = .ok () := fun hv => if_pos hv
  have hgenres : texts.genre.elim (.ok ()) (checkLength "genre" 100) = .ok () := by
    cases hg : texts.genre with
    | none => rfl
    | some v => exact hlength (hgenre v hg)
  unfold DB.storeBook
  rw [hisbn, htitle, hauthor, hgenres, hcopies]
  simp only [checkNotNull, bind, Except.bind, hlength hi, hlength ht, hlength ha]
  exact .ite (fun _ => .error rfl) fun _ => .ok _

/-! ## What the table holds -/

/-- The texts of every book have passed the checks of their columns. -/
def TextsStored (db : DB) : Prop := ∀ b ∈ db.books.rows, TextsAccepted b.texts

theorem storeBook_texts (h : db.storeBook old texts total available = .ok b) :
    TextsAccepted b.texts := by
  have hcolumns := storeBook_columns h
  obtain ⟨_, _, isbn, title, author, hi, ht, ha, rfl⟩ := storeBook_ok h
  rw [show texts = ⟨some isbn, some title, some author, texts.genre⟩ by
    rw [← hi, ← ht, ← ha]] at hcolumns
  exact hcolumns.texts

namespace TextsStored

theorem write (h : TextsStored s) (hb : TextsAccepted b.texts)
    (hbooks : s'.books = s.books.put b) : TextsStored s' := by
  intro o ho
  rw [hbooks] at ho
  rcases Table.mem_put.mp ho with rfl | ⟨ho', _⟩
  · exact hb
  · exact h o ho'

theorem created {r : Except Exc Book} (h : TextsStored s) (hc : Creates b s r s') :
    TextsStored s' := by
  cases hc with
  | created _ hinsert =>
    obtain ⟨_, _, hstore⟩ := except_bind_ok.mp hinsert
    exact h.write (storeBook_texts hstore) rfl
  | _ => exact h

theorem updated {bookId : UUID} {body : BookUpdate} {r : Except Exc Book} (h : TextsStored s)
    (hu : Updates bookId body s r s') : TextsStored s' := by
  cases hu with
  | stored _ _ hwrite hbooks => exact h.write (storeBook_texts hwrite) hbooks
  | _ => exact h

theorem described (h : TextsStored s) (_ : s'.collation = s.collation)
    (hd : BooksDescribed s s') : TextsStored s' := by
  intro b' hb'
  obtain ⟨b, hb, _, _, _, rfl⟩ := hd b' hb'
  exact h b hb

theorem of_runs (h : Runs svc G s) : TextsStored s :=
  h.booksInvariant (fun _ => by simp [TextsStored, DB.empty, Table.empty]) created updated described

end TextsStored

/-! ## Accepted bodies -/

/-- What `create_book` and `update_book` refuse by their own checks. -/
def BookBody.OwnRefusal : BookBody → Exc → Prop
  | .create dto, e => e = duplicateIsbn dto.isbn
  | .update _ _, e => e = .application .bookNotFound none ∨
      e = .valueError "Total copies cannot be negative" ∨
      e = .valueError "Cannot reduce total copies below currently checked out copies"

/-- The columns take what the call writes. -/
def BookBody.Writable (s : DB) : BookBody → Prop
  | .create dto => ColumnsAccept ⟨some dto.isbn, some dto.title, some dto.author, dto.genre⟩
      dto.totalCopies dto.totalCopies
  | .update bookId dto => ∀ b, s.activeBook bookId = some b → ColumnsAccept (dto.texts b)
      (newCopies b dto.totalCopies).1 (newCopies b dto.totalCopies).2

/-- The call is refused by the checks of the service, or writes what the columns take. -/
structure StoredOrRefused (own : Exc → Prop) (writable : Prop) {α : Type} (r : Except Exc α) :
    Prop where
  written : (∃ e, r = .error e ∧ own e) ∨ writable
  typed : r ≠ .error .typeError
  clean : ∀ e, r = .error (.database e) → e.isDataError = false

def BookBody.Stored (svc : ReservationService) (env : Env) (body : BookBody) (s : DB) : Prop :=
  StoredOrRefused body.OwnRefusal (body.Writable s) (call (body.op.run svc env) s).1

/-- When an accepted body can be stored. A new book is refused as a duplicate, or the column has
room for its copies. An update, where the book is listed, has no null for the copies; where they
are not too few, it has no null for a text that must be there, and the column has room for them. -/
def BookBody.Storable (s : DB) : BookBody → Prop
  | .create dto =>
      (∃ o ∈ s.books.rows, s.weight o.isbn = s.weight dto.isbn ∧ o.isDeleted = false) ∨
      dto.totalCopies ≤ 32767
  | .update bookId dto => ∀ b, s.activeBook bookId = some b → dto.totalCopies ≠ some none ∧
      (CopiesAccepted b dto.totalCopies → dto.isbn ≠ some none ∧ dto.title ≠ some none ∧
        dto.author ≠ some none ∧ ∀ n, dto.totalCopies = some (some n) → n ≤ 32767)

theorem StoredOrRefused.map_iff {α β : Type} {own : Exc → Prop} {writable : Prop}
    {r : Except Exc α} (f : α → β) :
    StoredOrRefused own writable (r.map f) ↔ StoredOrRefused own writable r := by
  constructor
  · rintro ⟨hwritten, htyped, hclean⟩
    simp only [ne_eq, except_map_error] at hwritten htyped hclean
    exact ⟨hwritten, htyped, hclean⟩
  · rintro ⟨hwritten, htyped, hclean⟩
    constructor <;> simpa only [ne_eq, except_map_error]

theorem StoredOrRefused.of_ok {α : Type} {own : Exc → Prop} {writable : Prop} {a : α}
    (h : writable) : StoredOrRefused own writable (.ok a : Except Exc α) :=
  ⟨.inr h, by simp, by simp⟩

theorem StoredOrRefused.of_own {α : Type} {own : Exc → Prop} {writable : Prop} {e : Exc}
    (h : own e) (htyped : e ≠ .typeError) (hclean : ∀ x, e ≠ .database x) :
    StoredOrRefused own writable (.error e : Except Exc α) := by
  refine ⟨.inl ⟨e, rfl, h⟩, fun he => htyped (Except.error.inj he), fun x hx => ?_⟩
  exact absurd (Except.error.inj hx) (hclean x)

/-- A refusal by the table is none of the service, and is for a key where the columns accept. -/
theorem StoredOrRefused.failed_iff {α : Type} {own : Exc → Prop} {writable : Prop} {e : DbError}
    (hown : ¬own (.database e)) (hkey : writable → e.isDataError = false) :
    StoredOrRefused own writable (.error (.database e) : Except Exc α) ↔ writable := by
  constructor
  · rintro ⟨⟨_, he, h⟩ | h, _, _⟩
    · cases he
      exact absurd h hown
    · exact h
  · intro h
    refine ⟨.inr h, by simp, fun x hx => ?_⟩
    cases hx
    exact hkey h

theorem BookCreateRequest.accepted_iff (dto : BookCreateRequest) :
    ColumnsAccept ⟨some dto.isbn, some dto.title, some dto.author, dto.genre⟩
      dto.totalCopies dto.totalCopies ↔ dto.totalCopies ≤ 32767 := by
  have htitle := dto.title_length
  have hauthor := dto.author_length
  have hisbn := dto.isbn_length
  have hpos := dto.totalCopies_ge
  constructor
  · exact fun h => h.total.2
  · intro hmax
    refine ⟨⟨⟨_, rfl, by omega⟩, ⟨_, rfl, by omega⟩, ⟨_, rfl, by omega⟩, dto.genre_length⟩, ?_, ?_⟩
    · exact ⟨by omega, hmax⟩
    · exact ⟨by omega, hmax⟩

theorem Creates.storable_iff {dto : BookCreateRequest} {r : Except Exc Book}
    (hs : DistinctIsbns s) (hc : Creates (createdBook env dto.title dto.author dto.isbn
      dto.totalCopies dto.genre) s r s') :
    StoredOrRefused (BookBody.create dto).OwnRefusal ((BookBody.create dto).Writable s) r ↔
      (BookBody.create dto).Storable s := by
  have haccepted := dto.accepted_iff
  cases hc with
  | @listed o ho hisbn hlisted =>
    refine ⟨fun _ => .inl ⟨o, ho, hisbn, hlisted⟩, fun _ => ?_⟩
    exact .of_own rfl (by simp [duplicateIsbn]) (by simp [duplicateIsbn])
  | ambiguous ho ho' hne hisbn hisbn' =>
    exact absurd (hs _ ho _ ho' (hisbn.trans hisbn'.symm)) hne
  | refused hdeleted hinsert =>
    have hunlisted : (BookBody.create dto).Storable s ↔ dto.totalCopies ≤ 32767 := by
      refine or_iff_right ?_
      rintro ⟨o, ho, hisbn, hlisted⟩
      cases (hdeleted o ho hisbn).symm.trans hlisted
    obtain ⟨e, rfl, _⟩ := insertRow_fails s _ _ hinsert
    rw [hunlisted, ← haccepted]
    refine StoredOrRefused.failed_iff (by simp [BookBody.OwnRefusal, duplicateIsbn]) fun h => ?_
    have hkey : FailsWith (fun e => e.isDataError = false) (s.insertRow (createdBook env dto.title
        dto.author dto.isbn dto.totalCopies dto.genre)) := by
      refine .bind (.ite (fun _ => .ok ()) fun _ => .error rfl) fun _ _ => ?_
      exact storeBook_accepted h dto.totalCopies_ge le_rfl
    obtain ⟨_, he, hfalse⟩ := hkey _ hinsert
    cases he
    exact hfalse
  | created _ hinsert =>
    obtain ⟨_, _, hstore⟩ := except_bind_ok.mp hinsert
    have hcolumns := storeBook_columns hstore
    exact ⟨fun _ => .inr (haccepted.mp hcolumns), fun _ => .of_ok hcolumns⟩

/-- A text of an update is stored unless it is null: it is kept, or has passed the schema. -/
theorem field_accepted_iff {o : Option (Option String)} {v : String} {m n : Nat}
    (hnew : ∀ v, o = some (some v) → v.length ≤ m) (hmn : m ≤ n) (hold : v.length ≤ n) :
    (∃ w, o.getD (some v) = some w ∧ w.length ≤ n) ↔ o ≠ some none := by
  rcases o with _ | _ | w
  · simpa using hold
  · simp
  · have hw := hnew w rfl
    simp
    omega

/-- The new counters of a book are in order, and fit where the new total does. -/
theorem newCopies_order {o : Option (Option Int)} (h : CopiesAccepted b o)
    (hcopies : checkCopies b.totalCopies b.availableCopies = .ok ()) :
    0 ≤ (newCopies b o).2 ∧ (newCopies b o).2 ≤ (newCopies b o).1 := by
  have hold := checkCopies_iff.mp hcopies
  rcases o with _ | _ | n
  · exact hold.2
  · exact h.elim
  · simp only [CopiesAccepted, newCopies] at h ⊢
    omega

theorem newCopies_fit_iff {o : Option (Option Int)} (h : CopiesAccepted b o)
    (hcopies : checkCopies b.totalCopies b.availableCopies = .ok ()) :
    SmallInt (newCopies b o).1 ∧ SmallInt (newCopies b o).2 ↔
      ∀ n, o = some (some n) → n ≤ 32767 := by
  have hold := checkCopies_iff.mp hcopies
  rcases o with _ | _ | n
  · simp only [SmallInt, newCopies, reduceCtorEq, false_implies, implies_true, iff_true]
    omega
  · exact h.elim
  · simp only [SmallInt, CopiesAccepted, newCopies, Option.some.injEq, forall_eq'] at h ⊢
    omega

theorem BookUpdateRequest.accepted_iff (dto : BookUpdateRequest) (htexts : TextsAccepted b.texts)
    (hcopies : checkCopies b.totalCopies b.availableCopies = .ok ())
    (h : CopiesAccepted b dto.totalCopies) :
    ColumnsAccept (dto.texts b) (newCopies b dto.totalCopies).1 (newCopies b dto.totalCopies).2 ↔
      dto.isbn ≠ some none ∧ dto.title ≠ some none ∧ dto.author ≠ some none ∧
        ∀ n, dto.totalCopies = some (some n) → n ≤ 32767 := by
  obtain ⟨⟨_, hisbn, hi⟩, ⟨_, htitle, ht⟩, ⟨_, hauthor, ha⟩, hg⟩ := htexts
  cases hisbn
  cases htitle
  cases hauthor
  have hgenre : ∀ v, (dto.texts b).genre = some v → v.length ≤ 100 := by
    intro v hv
    cases hbody : dto.genre with
    | none => exact hg v (by simpa [BookUpdate.texts, hbody, Book.texts] using hv)
    | some field =>
      refine dto.genre_length v ?_
      simpa [BookUpdate.texts, hbody] using hv
  rw [← newCopies_fit_iff h hcopies,
    ← field_accepted_iff (fun v hv => (dto.isbn_length v hv).2) (by omega) hi,
    ← field_accepted_iff (fun v hv => (dto.title_length v hv).2) (by omega) ht,
    ← field_accepted_iff (fun v hv => (dto.author_length v hv).2) (by omega) ha]
  constructor
  · exact fun hc => ⟨hc.texts.isbn, hc.texts.title, hc.texts.author, hc.total, hc.available⟩
  · rintro ⟨hi', ht', ha', htotal, havail⟩
    exact ⟨⟨hi', ht', ha', hgenre⟩, htotal, havail⟩

/-- An update that gets as far as the table is stored exactly when the columns take it. -/
theorem Updates.stored_iff {bookId : UUID} {dto : BookUpdateRequest} {r : Except Exc Book}
    (hcopies : CopiesChecked s) (hb : s.activeBook bookId = some b)
    (hok : CopiesAccepted b dto.totalCopies) (hu : Updates bookId dto.toBookUpdate s r s') :
    StoredOrRefused (BookBody.update bookId dto).OwnRefusal
      ((BookBody.update bookId dto).Writable s) r ↔ (BookBody.update bookId dto).Writable s := by
  have hwritable : (BookBody.update bookId dto).Writable s ↔ ColumnsAccept (dto.texts b)
      (newCopies b dto.totalCopies).1 (newCopies b dto.totalCopies).2 := by
    simp [BookBody.Writable, hb]
  obtain ⟨hpos, hle⟩ := newCopies_order hok (hcopies _ _ (activeBook_eq_some.mp hb).1)
  cases hu with
  | missing hmissing => cases hmissing.symm.trans hb
  | copiesRefused hb' hnot =>
    obtain rfl := Option.some.inj (hb.symm.trans hb')
    exact absurd hok hnot
  | refused hb' _ hwrite =>
    obtain rfl := Option.some.inj (hb.symm.trans hb')
    obtain ⟨e, rfl, _⟩ := storeBook_fails _ _ _ _ _ _ hwrite
    refine StoredOrRefused.failed_iff (by simp [BookBody.OwnRefusal]) fun h => ?_
    obtain ⟨_, he, hkey⟩ := storeBook_accepted (hwritable.mp h) hpos hle _ hwrite
    cases he
    exact hkey
  | stored hb' _ hwrite =>
    obtain rfl := Option.some.inj (hb.symm.trans hb')
    have hcolumns := hwritable.mpr (storeBook_columns hwrite)
    exact ⟨fun _ => hcolumns, fun _ => .of_ok hcolumns⟩

theorem update_storable_iff (htexts : TextsStored s) (hcopies : CopiesChecked s) (bookId : UUID)
    (dto : BookUpdateRequest) :
    StoredOrRefused (BookBody.update bookId dto).OwnRefusal
      ((BookBody.update bookId dto).Writable s)
      (call (BookService.updateBook bookId dto.toBookUpdate) s).1 ↔
    (BookBody.update bookId dto).Storable s := by
  have hu := call_updateBook bookId dto.toBookUpdate s
  cases hb : s.activeBook bookId with
  | none =>
    rw [show (BookBody.update bookId dto).Storable s ↔ True by simp [BookBody.Storable, hb],
      iff_true]
    generalize call (BookService.updateBook bookId dto.toBookUpdate) s = answer at hu ⊢
    obtain ⟨r, s'⟩ := answer
    cases hu with
    | missing => exact .of_own (.inl rfl) (by simp) (by simp)
    | copiesRefused hb' | refused hb' | stored hb' => cases hb.symm.trans hb'
  | some b =>
    by_cases hok : CopiesAccepted b dto.totalCopies
    · have hnull : dto.totalCopies ≠ some none := by
        intro hnull
        rw [hnull] at hok
        exact hok
      have hrow := (activeBook_eq_some.mp hb).1
      rw [hu.stored_iff hcopies hb hok]
      simp only [BookBody.Writable, BookBody.Storable, hb, Option.some.injEq, forall_eq', hok,
        forall_const]
      rw [dto.accepted_iff (htexts b (Table.mem_of_get hrow)) (hcopies _ _ hrow) hok]
      exact (and_iff_right hnull).symm
    · rw [call_updateBook_refused hb hok]
      simp only [BookBody.Storable, hb, Option.some.injEq, forall_eq', hok, false_implies,
        and_true]
      rcases ho : dto.totalCopies with _ | _ | n
      · rw [ho] at hok
        exact absurd trivial hok
      · exact ⟨fun h => absurd rfl h.typed, fun h => absurd rfl h⟩
      · refine ⟨fun _ => by simp, fun _ => ?_⟩
        by_cases hneg : n < 0
        · rw [copiesRefusal, if_pos hneg]
          exact .of_own (.inr (.inl rfl)) (by simp) (by simp)
        · rw [copiesRefusal, if_neg hneg]
          exact .of_own (.inr (.inr rfl)) (by simp) (by simp)

/-- An accepted body is refused by the checks of the service, or writes what the columns take,
exactly when it is a duplicate or the columns have room, and no null stands where one cannot. -/
theorem body_stored_iff (h : Runs svc AnyOp s) (body : BookBody) (env : Env) :
    body.Stored svc env s ↔ body.Storable s := by
  cases body with
  | create dto =>
    simp only [BookBody.Stored, BookBody.op, Op.run, call_map, StoredOrRefused.map_iff]
    have hc := call_createBook env dto.title dto.author dto.isbn dto.totalCopies dto.genre s
    exact hc.storable_iff (.of_runs h)
  | update bookId dto =>
    simp only [BookBody.Stored, BookBody.op, Op.run, call_map, StoredOrRefused.map_iff]
    exact update_storable_iff (.of_runs h) (.of_runs h) bookId dto

/-- `{"total_copies": n}`. -/
def demoTotal (n : Option Nat) : BookUpdateRequest where
  title := none
  author := none
  isbn := none
  genre := none
  totalCopies := some (n.map Int.ofNat)
  title_length := by simp
  author_length := by simp
  isbn_length := by simp
  genre_length := by simp
  totalCopies_ge := by
    cases n <;> simp

/-- More copies than the column has room for, under the ISBN of a listed book. -/
def demoMany : BookCreateRequest where
  title := "Persuasion"
  author := "Austen"
  isbn := "080442957x"
  genre := none
  totalCopies := 40000
  title_length := by decide
  author_length := by decide
  isbn_length := by decide
  genre_length := by simp
  totalCopies_ge := by decide

/-- Three copies can be stored, and too many are refused as a duplicate first. -/
theorem body_stored_demo :
    (BookBody.update 1 (demoTotal (some 3))).Stored ⟨48⟩ (demoEnv 0 hour) demoStock ∧
    (BookBody.create demoMany).Stored ⟨48⟩ (demoEnv 2 hour) demoLettered := by
  have hruns : Runs ⟨48⟩ AnyOp demoStock := demoStart_runs.serial _ fun _ _ _ => trivial
  have hlettered : Runs ⟨48⟩ AnyOp demoLettered := demoStart_runs.serial _ fun _ _ _ => trivial
  constructor
  · refine (body_stored_iff hruns _ _).mpr fun b hb => ⟨by simp [demoTotal], fun _ => ?_⟩
    simp [demoTotal]
  · have hlisted : (⟨1, "080442957X", "Persuasion", "Austen", none, 2, 2, false, none⟩ : Book) ∈
      demoLettered.books.rows := by decide
    exact (body_stored_iff hlettered _ _).mpr (.inl ⟨_, hlisted, by decide, rfl⟩)

/-- A null for the total of a listed book is compared with zero. -/
theorem null_total_raises :
    ¬∀ s, Runs ⟨48⟩ AnyOp s → ∀ (body : BookBody) env, body.Stored ⟨48⟩ env s := by
  intro hclaim
  have hruns : Runs ⟨48⟩ AnyOp demoStock := demoStart_runs.serial _ fun _ _ _ => trivial
  have hstored := hclaim demoStock hruns (.update 1 (demoTotal none)) (demoEnv 0 hour)
  have hraise : (call (Op.run ⟨48⟩ (demoEnv 0 hour)
      (.updateBook 1 (demoTotal none).toBookUpdate)) demoStock).1 = .error .typeError := by
    decide
  exact hstored.typed hraise

end LibraryPlatform

import LibraryPlatform.Checkout
import LibraryPlatform.ErrorResponses

/-!
# What create_book and update_book answer

The two calls alone on the store: what their own checks refuse, and what the table of books does.
-/
namespace LibraryPlatform

open KeyedTable Transaction

/-! ## Why the table of books refuses a row -/

/-- A failure is an error of the database that satisfies `P`. -/
def FailsWith {α : Type} (P : DbError → Prop) (r : Except Exc α) : Prop :=
  ∀ x, r = .error x → ∃ e, x = .database e ∧ P e

namespace FailsWith

variable {α β : Type} {P : DbError → Prop}

theorem ok (a : α) : FailsWith P (.ok a) := fun _ h => by cases h

theorem error {e : DbError} (h : P e) : FailsWith P (.error (.database e) : Except Exc α) :=
  fun _ he => by cases he; exact ⟨e, rfl, h⟩

theorem bind {r : Except Exc α} {f : α → Except Exc β} (h : FailsWith P r)
    (hf : ∀ a, r = .ok a → FailsWith P (f a)) : FailsWith P (r >>= f) := by
  cases r with
  | error x => exact fun y hy => h y (by cases hy; rfl)
  | ok a => exact hf a rfl

theorem ite {c : Prop} [Decidable c] {r q : Except Exc α} (hr : c → FailsWith P r)
    (hq : ¬c → FailsWith P q) : FailsWith P (if c then r else q) := by
  split
  · exact hr ‹_›
  · exact hq ‹_›

end FailsWith

section

variable {P : DbError → Prop} (hP : ∀ e : DbError, e.isIntegrityError = false → P e)

include hP

theorem checkLength_fails (column : String) (max : Nat) (v : String) :
    FailsWith P (checkLength column max v) :=
  .ite (fun _ => .ok ()) fun _ => .error (hP _ rfl)

theorem checkCopies_fails (total available : Int) : FailsWith P (checkCopies total available) := by
  have hsmall : ∀ column v, FailsWith P (checkSmallInt column v) :=
    fun _ _ => .ite (fun _ => .ok ()) fun _ => .error (hP _ rfl)
  have hthat : ∀ name p, FailsWith P (checkThat name p) :=
    fun _ _ => .ite (fun _ => .ok ()) fun _ => .error (hP _ rfl)
  refine .bind (hsmall _ _) fun _ _ => .bind (hsmall _ _) fun _ _ => ?_
  exact .bind (hthat _ _) fun _ _ => .bind (hthat _ _) fun _ _ => hthat _ _

end

/-- What makes the table refuse a row with an `IntegrityError`: a null, or an ISBN in use. -/
def Clashes (db : DB) (old : Book) (texts : BookTexts) : Prop :=
  texts.isbn = none ∨ texts.title = none ∨ texts.author = none ∨
    ∃ isbn, texts.isbn = some isbn ∧
      ∃ o ∈ db.books.rows, o.id ≠ old.id ∧ db.weight o.isbn = db.weight isbn

theorem checkNotNull_fails {P : DbError → Prop} {column : String} {o : Option String}
    (h : o = none → P (.badNull column)) : FailsWith P (checkNotNull column o) := by
  cases o with
  | none => exact .error (h rfl)
  | some v => exact .ok v

theorem storeBook_fails (db : DB) (old : Book) (texts : BookTexts) (total available : Int) :
    FailsWith (fun e => e.isIntegrityError → Clashes db old texts)
      (db.storeBook old texts total available) := by
  have hdata : ∀ e : DbError, e.isIntegrityError = false →
      e.isIntegrityError → Clashes db old texts := fun e he hi => by rw [he] at hi; cases hi
  unfold DB.storeBook
  refine .bind (checkNotNull_fails fun h _ => .inl h) fun isbn hisbn => ?_
  refine .bind (checkNotNull_fails fun h _ => .inr (.inl h)) fun title _ => ?_
  refine .bind (checkNotNull_fails fun h _ => .inr (.inr (.inl h))) fun author _ => ?_
  refine .bind (checkLength_fails hdata _ _ _) fun _ _ => ?_
  refine .bind (checkLength_fails hdata _ _ _) fun _ _ => ?_
  refine .bind (checkLength_fails hdata _ _ _) fun _ _ => .bind ?_ fun _ _ => ?_
  · cases texts.genre with
    | none => exact .ok ()
    | some genre => exact checkLength_fails hdata _ _ _
  refine .bind (checkCopies_fails hdata _ _) fun _ _ => .ite (fun hdup => ?_) fun _ => .ok _
  obtain ⟨o, ho, hne⟩ := List.any_eq_true.mp hdup
  obtain ⟨hid, he⟩ := of_decide_eq_true hne
  exact .error fun _ => .inr (.inr (.inr ⟨isbn, checkNotNull_ok hisbn, o, ho, hid, he⟩))

/-- A row that is stored has an ISBN of its own. -/
theorem storeBook_unique {db : DB} {old b : Book} {texts : BookTexts} {total available : Int}
    (h : db.storeBook old texts total available = .ok b) :
    ∀ o ∈ db.books.rows, o.id ≠ old.id → db.weight o.isbn ≠ db.weight b.isbn := by
  simp only [DB.storeBook, except_bind_ok] at h
  obtain ⟨isbn, _, _, _, _, _, _, _, _, _, _, _, _, _, _, _, h⟩ := h
  split at h
  · cases h
  · rename_i hnone
    cases h
    intro o ho hid he
    exact hnone (List.any_eq_true.mpr ⟨o, ho, by simp [hid, he]⟩)

/-! ## create_book -/

def duplicateIsbn (isbn : String) : Exc := .valueError s!"Book with ISBN {isbn} already exists"

/-- The insert of a new row. -/
def DB.insertRow (db : DB) (b : Book) : Except Exc Book := do
  checkFresh "books" (db.books.get b.id)
  db.storeBook b ⟨some b.isbn, some b.title, some b.author, b.genre⟩ b.totalCopies b.availableCopies

theorem insertRow_ok {db : DB} {b b' : Book} (h : db.insertRow b = .ok b') :
    b' = b ∧ db.books.get b.id = none ∧
      ∀ o ∈ db.books.rows, db.weight o.isbn ≠ db.weight b.isbn := by
  obtain ⟨_, hfresh, h⟩ := except_bind_ok.mp h
  have hunique := storeBook_unique h
  obtain ⟨_, _, _, _, _, hi, ht, ha, rfl⟩ := storeBook_ok h
  cases hi
  cases ht
  cases ha
  refine ⟨rfl, checkFresh_ok hfresh, fun o ho => hunique o ho fun hid => ?_⟩
  have hget : db.books.get o.id = some o := Table.get_of_mem ho
  rw [hid, checkFresh_ok hfresh] at hget
  cases hget

/-- A new row is refused with an `IntegrityError` for its key or its ISBN only. -/
theorem insertRow_fails (db : DB) (b : Book) :
    FailsWith (fun e => e.isIntegrityError → db.books.get b.id ≠ none ∨
      ∃ o ∈ db.books.rows, db.weight o.isbn = db.weight b.isbn) (db.insertRow b) := by
  refine .bind ?_ fun _ _ => ?_
  · unfold checkFresh
    refine .ite (fun _ => .ok ()) fun hused => .error fun _ => .inl ?_
    simpa using hused
  · intro x hx
    obtain ⟨e, rfl, he⟩ := storeBook_fails _ _ _ _ _ x hx
    refine ⟨e, rfl, fun hi => ?_⟩
    rcases he hi with h | h | h | ⟨_, hisbn, o, ho, _, hsame⟩
    · cases h
    · cases h
    · cases h
    · cases hisbn
      exact .inr ⟨o, ho, hsame⟩

theorem insertRow_used {db : DB} {b : Book} (h : db.books.get b.id ≠ none) :
    db.insertRow b = .error (.database (.duplicateEntry "books.PRIMARY")) := by
  obtain ⟨o, ho⟩ := Option.ne_none_iff_exists'.mp h
  have hused : checkFresh "books" (db.books.get b.id) =
      .error (.database (.duplicateEntry "books.PRIMARY")) := by
    rw [ho]
    rfl
  rw [DB.insertRow, hused]
  rfl

theorem exec_insertBook_ok {b : Book} {base w : DB} (h : w.insertRow b = .ok b) :
    (insertBook b).exec base w = (.ok (), base, w.put (.book b.id) (.book b)) := by
  obtain ⟨_, hfresh, hstore⟩ := except_bind_ok.mp h
  simp only [insertBook, Prog.exec]
  rw [hfresh]
  simp only [bind, Except.bind, hstore, Except.map]
  rfl

theorem exec_insertBook_error {b : Book} {base w : DB} {x : Exc} (h : w.insertRow b = .error x) :
    (insertBook b).exec base w = (.error x, base, w) := by
  unfold DB.insertRow at h
  simp only [insertBook, Prog.exec]
  cases hf : checkFresh "books" (w.books.get b.id) with
  | error y =>
    rw [hf] at h
    cases h
    rfl
  | ok u =>
    rw [hf] at h
    simp only [bind, Except.bind] at h ⊢
    rw [h]
    rfl

/-- No listed book has the ISBN, as its column compares them. -/
def Unlisted (isbn : String) (s : DB) : Prop :=
  ∀ o ∈ s.books.rows, s.weight o.isbn = s.weight isbn → o.isDeleted = true

/-- The outcomes of `create_book` for the new row `b`. -/
inductive Creates (b : Book) (s : DB) : Except Exc Book → DB → Prop
  | listed {o : Book} : o ∈ s.books.rows → s.weight o.isbn = s.weight b.isbn →
      o.isDeleted = false → Creates b s (.error (duplicateIsbn b.isbn)) s
  | ambiguous {o o' : Book} : o ∈ s.books.rows → o' ∈ s.books.rows → o ≠ o' →
      s.weight o.isbn = s.weight b.isbn → s.weight o'.isbn = s.weight b.isbn →
      Creates b s (.error .multipleResultsFound) s
  | refused {x : Exc} : Unlisted b.isbn s → s.insertRow b = .error x → Creates b s (.error x) s
  | created : Unlisted b.isbn s → s.insertRow b = .ok b →
      Creates b s (.ok b) (s.put (.book b.id) (.book b))

theorem call_createBook (env : Env) (title author isbn : String) (totalCopies : Int)
    (genre : Option String) (s : DB) :
    Creates (createdBook env title author isbn totalCopies genre) s
      (call (BookService.createBook env title author isbn totalCopies genre) s).1
      (call (BookService.createBook env title author isbn totalCopies genre) s).2 := by
  have hmem : ∀ o, o ∈ s.books.rows.filter (fun b =>
      s.weight b.isbn = s.weight isbn && !b.isDeleted) ↔
      o ∈ s.books.rows ∧ s.weight o.isbn = s.weight isbn ∧ o.isDeleted = false := by
    simp [List.mem_filter]
  have hnodup : (s.books.rows.filter (fun b =>
      s.weight b.isbn = s.weight isbn && !b.isDeleted)).Nodup := s.books.unique.of_map.filter _
  cases hrows : s.books.rows.filter (fun b =>
      s.weight b.isbn = s.weight isbn && !b.isDeleted) with
  | nil =>
    have hdeleted : Unlisted isbn s := by
      intro o ho hisbn
      by_contra hne
      have hin := (hmem o).mpr ⟨ho, hisbn, by simpa using hne⟩
      rw [hrows] at hin
      cases hin
    have hget : (BookRepository.getByIsbn isbn).exec s s = (.ok none, s, s) :=
      Prog.exec_bind_ok (a := []) (by rw [← hrows]; rfl) rfl
    cases hinsert : s.insertRow (createdBook env title author isbn totalCopies genre) with
    | error x =>
      have hexec : (BookService.createBook env title author isbn totalCopies genre).exec s s =
          (.error x, s, s) :=
        Prog.exec_bind_ok hget (Prog.exec_bind_ok rfl
          (Prog.exec_bind_error (exec_insertBook_error hinsert)))
      rw [call_error hexec]
      exact .refused hdeleted hinsert
    | ok b =>
      obtain ⟨rfl, _⟩ := insertRow_ok hinsert
      have hexec : (BookService.createBook env title author isbn totalCopies genre).exec s s =
          (.ok (createdBook env title author isbn totalCopies genre), s,
            s.put (.book env.newId)
              (.book (createdBook env title author isbn totalCopies genre))) := by
        refine Prog.exec_bind_ok hget (Prog.exec_bind_ok rfl
          (Prog.exec_bind_ok (exec_insertBook_ok hinsert) ?_))
        refine Prog.exec_bind_ok rfl (exec_orRaise (activeBook_eq_some.mpr ⟨?_, rfl⟩))
        exact (get_putBook s env.newId env.newId _).trans (if_pos rfl)
      rw [call_ok hexec]
      exact .created hdeleted hinsert
  | cons o rest =>
    obtain ⟨ho, hisbn, hlisted⟩ := (hmem o).mp (by rw [hrows]; exact List.mem_cons_self)
    cases rest with
    | nil =>
      have hget : (BookRepository.getByIsbn isbn).exec s s = (.ok (some o), s, s) :=
        Prog.exec_bind_ok rfl (exec_scalarOneOrNone hrows)
      have hexec : (BookService.createBook env title author isbn totalCopies genre).exec s s =
          (.error (duplicateIsbn isbn), s, s) :=
        Prog.exec_bind_ok hget (Prog.exec_bind_error (exec_raiseIf_error rfl))
      rw [call_error hexec]
      exact .listed ho hisbn hlisted
    | cons o' rest =>
      obtain ⟨ho', hisbn', _⟩ := (hmem o').mp (by rw [hrows]; simp)
      rw [hrows] at hnodup
      have hne : o ≠ o' := fun he => (List.nodup_cons.mp hnodup).1 (he ▸ List.mem_cons_self)
      have hget : (BookRepository.getByIsbn isbn).exec s s = (.error .multipleResultsFound, s, s) :=
        Prog.exec_bind_ok (a := o :: o' :: rest) (by rw [← hrows]; rfl) rfl
      have hexec : (BookService.createBook env title author isbn totalCopies genre).exec s s =
          (.error .multipleResultsFound, s, s) := Prog.exec_bind_error hget
      rw [call_error hexec]
      exact .ambiguous ho ho' hne hisbn hisbn'

/-! ## update_book -/

/-- The change of the total passes the checks of the service. -/
def CopiesAccepted (b : Book) : Option (Option Int) → Prop
  | none => True
  | some none => False
  | some (some newTotal) => 0 ≤ newTotal ∧ 0 ≤ b.availableCopies + (newTotal - b.totalCopies)

def newCopies (b : Book) : Option (Option Int) → Int × Int
  | some (some newTotal) => (newTotal, b.availableCopies + (newTotal - b.totalCopies))
  | _ => (b.totalCopies, b.availableCopies)

/-- What the service raises over a new total. -/
def copiesRefusals : List Exc :=
  [.typeError, .valueError "Total copies cannot be negative",
    .valueError "Cannot reduce total copies below currently checked out copies"]

theorem exec_adjustCopies_ok {b : Book} {o : Option (Option Int)} (h : CopiesAccepted b o)
    (base w : DB) :
    ∃ w', (BookService.adjustCopies b o).exec base w = (.ok (newCopies b o), base, w') ∧
      w'.books = w.books ∧ w'.collation = w.collation := by
  rcases o with _ | _ | newTotal
  · exact ⟨w, rfl, rfl, rfl⟩
  · exact h.elim
  · obtain ⟨htotal, havail⟩ := h
    refine ⟨w.record (.retotalled b.id (newTotal - b.totalCopies)), ?_, rfl, rfl⟩
    refine Prog.exec_bind_ok (exec_raiseIf (not_lt.mpr htotal)) ?_
    exact Prog.exec_bind_ok (exec_raiseIf (not_lt.mpr havail)) rfl

/-- What the service raises over `o`, where it does not accept it. -/
def copiesRefusal : Option (Option Int) → Exc
  | some (some newTotal) =>
    if newTotal < 0 then .valueError "Total copies cannot be negative"
    else .valueError "Cannot reduce total copies below currently checked out copies"
  | _ => .typeError

theorem copiesRefusal_mem (o : Option (Option Int)) : copiesRefusal o ∈ copiesRefusals := by
  rcases o with _ | _ | newTotal
  · simp [copiesRefusal, copiesRefusals]
  · simp [copiesRefusal, copiesRefusals]
  · by_cases htotal : newTotal < 0 <;> simp [copiesRefusal, copiesRefusals, htotal]

theorem exec_adjustCopies_error {b : Book} {o : Option (Option Int)} (h : ¬CopiesAccepted b o)
    (base w : DB) :
    (BookService.adjustCopies b o).exec base w = (.error (copiesRefusal o), base, w) := by
  rcases o with _ | _ | newTotal
  · exact absurd trivial h
  · rfl
  · by_cases htotal : newTotal < 0
    · rw [copiesRefusal, if_pos htotal]
      exact Prog.exec_bind_error (exec_raiseIf_error htotal)
    · rw [copiesRefusal, if_neg htotal]
      have havail : b.availableCopies + (newTotal - b.totalCopies) < 0 := by
        by_contra hpos
        exact h ⟨not_lt.mp htotal, not_lt.mp hpos⟩
      refine Prog.exec_bind_ok (exec_raiseIf htotal) ?_
      exact Prog.exec_bind_error (exec_raiseIf_error havail)

theorem call_updateBook_refused {bookId : UUID} {body : BookUpdate} {s : DB} {b : Book}
    (hb : s.activeBook bookId = some b) (h : ¬CopiesAccepted b body.totalCopies) :
    call (BookService.updateBook bookId body) s =
      (.error (copiesRefusal body.totalCopies), s) := by
  have hget : (BookRepository.getByIdForUpdate bookId).exec s s = (.ok (some b), s, s) := by
    rw [← hb]
    rfl
  have hexec : (BookService.updateBook bookId body).exec s s =
      (.error (copiesRefusal body.totalCopies), s, s) :=
    Prog.exec_bind_ok hget (Prog.exec_bind_ok rfl
      (Prog.exec_bind_error (exec_adjustCopies_error h s s)))
  exact call_error hexec

/-- The row that an update of `b` leaves, if the table takes it. -/
def DB.rewrite (db : DB) (b : Book) (body : BookUpdate) : Except Exc Book :=
  db.storeBook b (body.texts b) (newCopies b body.totalCopies).1 (newCopies b body.totalCopies).2

/-- The outcomes of `update_book`. -/
inductive Updates (bookId : UUID) (body : BookUpdate) (s : DB) : Except Exc Book → DB → Prop
  | missing : s.activeBook bookId = none →
      Updates bookId body s (.error (.application .bookNotFound none)) s
  | copiesRefused {b : Book} {x : Exc} : s.activeBook bookId = some b →
      ¬CopiesAccepted b body.totalCopies → x ∈ copiesRefusals →
      Updates bookId body s (.error x) s
  | refused {b : Book} {x : Exc} : s.activeBook bookId = some b →
      CopiesAccepted b body.totalCopies → s.rewrite b body = .error x →
      Updates bookId body s (.error x) s
  | stored {b b' : Book} {s' : DB} : s.activeBook bookId = some b →
      CopiesAccepted b body.totalCopies → s.rewrite b body = .ok b' →
      s'.books = s.books.put b' → s'.collation = s.collation → Updates bookId body s (.ok b') s'

theorem rewrite_ok {db : DB} {b b' : Book} {body : BookUpdate} (h : db.rewrite b body = .ok b') :
    b'.id = b.id ∧ b'.isDeleted = b.isDeleted := by
  obtain ⟨_, _, _, _, _, _, _, _, rfl⟩ := storeBook_ok h
  exact ⟨rfl, rfl⟩

theorem rewrite_isbn {db : DB} {b b' : Book} {body : BookUpdate} {isbn : String}
    (hisbn : body.isbn = some (some isbn)) (h : db.rewrite b body = .ok b') : b'.isbn = isbn := by
  obtain ⟨_, _, i, _, _, hi, _, _, rfl⟩ := storeBook_ok h
  simp only [BookUpdate.texts, hisbn, Option.getD_some, Option.some.injEq] at hi
  exact hi.symm

/-- What an update that sets an ISBN can clash over. -/
theorem clashes_iff {db : DB} {b : Book} {body : BookUpdate} {isbn : String}
    (hisbn : body.isbn = some (some isbn)) :
    Clashes db b (body.texts b) ↔ body.title = some none ∨ body.author = some none ∨
      ∃ o ∈ db.books.rows, o.id ≠ b.id ∧ db.weight o.isbn = db.weight isbn := by
  have hnull : ∀ (o : Option (Option String)) (v : String),
      o.getD (some v) = none ↔ o = some none := by
    rintro (_ | _) v <;> simp
  simp only [Clashes, BookUpdate.texts, hisbn, Option.getD_some, reduceCtorEq, false_or, hnull,
    Option.some.injEq, exists_eq_left']

/-- A null where a text is required. -/
theorem rewrite_null (db : DB) (b : Book) {body : BookUpdate} {isbn : String}
    (hisbn : body.isbn = some (some isbn))
    (hnull : body.title = some none ∨ body.author = some none) :
    ∃ column, db.rewrite b body = .error (.database (.badNull column)) := by
  unfold DB.rewrite DB.storeBook BookUpdate.texts
  rcases hnull with h | h
  · rw [hisbn, h]
    exact ⟨"title", rfl⟩
  · cases htitle : body.title.getD b.title with
    | none =>
      rw [hisbn]
      exact ⟨"title", rfl⟩
    | some title =>
      rw [hisbn, h]
      exact ⟨"author", rfl⟩

theorem exec_updateBook_error {id : UUID} {f : DB → Book → Except Exc Book} {base w : DB} {b : Book}
    {x : Exc} (h : w.books.get id = some b) (hf : f w b = .error x) :
    (updateBook id f).exec base w = (.error x, base, w) := by
  simp [updateBook, Prog.exec, h, hf, Except.map]

theorem call_updateBook (bookId : UUID) (body : BookUpdate) (s : DB) :
    Updates bookId body s (call (BookService.updateBook bookId body) s).1
      (call (BookService.updateBook bookId body) s).2 := by
  have hget : (BookRepository.getByIdForUpdate bookId).exec s s =
    (.ok (s.activeBook bookId), s, s) := rfl
  cases hb : s.activeBook bookId with
  | none =>
    rw [hb] at hget
    have hexec : (BookService.updateBook bookId body).exec s s =
        (.error (.application .bookNotFound none), s, s) :=
      Prog.exec_bind_ok hget (Prog.exec_bind_error rfl)
    rw [call_error hexec]
    exact .missing hb
  | some b =>
    rw [hb] at hget
    obtain ⟨hrow, hlisted⟩ := activeBook_eq_some.mp hb
    obtain rfl : b.id = bookId := Table.key_of_get hrow
    by_cases hcopies : CopiesAccepted b body.totalCopies
    · obtain ⟨w, hadjust, hbooks, hcollation⟩ := exec_adjustCopies_ok hcopies s s
      have hrow' : w.books.get b.id = some b := by rw [hbooks, hrow]
      have hsame : w.rewrite b body = s.rewrite b body := by
        simp only [DB.rewrite, DB.storeBook, hbooks, DB.weight_congr hcollation]
      cases hwrite : s.rewrite b body with
      | error x =>
        have hexec : (BookService.updateBook b.id body).exec s s = (.error x, s, w) := by
          refine Prog.exec_bind_ok hget (Prog.exec_bind_ok rfl (Prog.exec_bind_ok hadjust ?_))
          exact Prog.exec_bind_error (exec_updateBook_error hrow' (hsame.trans hwrite))
        rw [call_error hexec]
        exact .refused hb hcopies hwrite
      | ok b' =>
        obtain ⟨hid, hdel⟩ := rewrite_ok hwrite
        have hput : (w.put (.book b.id) (.book b')).books = s.books.put b' := by
          rw [← hid, ← hbooks]
          rfl
        have hexec : (BookService.updateBook b.id body).exec s s =
            (.ok b', s, w.put (.book b.id) (.book b')) := by
          refine Prog.exec_bind_ok hget (Prog.exec_bind_ok rfl (Prog.exec_bind_ok hadjust ?_))
          refine Prog.exec_bind_ok (exec_updateBook hrow' (hsame.trans hwrite)) ?_
          refine Prog.exec_bind_ok rfl (exec_orRaise (activeBook_eq_some.mpr ⟨?_, ?_⟩))
          · rw [hput, ← hid]
            exact Table.get_put_same s.books b'
          · rw [hdel, hlisted]
        rw [call_ok hexec]
        exact .stored hb hcopies hwrite hput ((DB.collation_put _ _ w).trans hcollation)
    · rw [call_updateBook_refused hb hcopies]
      exact .copiesRefused hb hcopies (copiesRefusal_mem _)

end LibraryPlatform

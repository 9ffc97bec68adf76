import LibraryPlatform.BookCalls
import LibraryPlatform.BookChanges

/-!
# The ISBN check and the unique index

`create_book` looks for the ISBN among the listed books only, and `update_book` does not look for
it. The unique index on `isbn` covers every row, soft-deleted or not.
-/
namespace LibraryPlatform

open KeyedTable Transaction ReservationRepository

/-- UNIQUE(isbn), as the column compares texts. -/
def DistinctIsbns (db : DB) : Prop :=
  ∀ b ∈ db.books.rows, ∀ o ∈ db.books.rows, db.weight b.isbn = db.weight o.isbn → b = o

/-- The books are those there were, under the ISBNs they had. -/
structure IsbnsKept (v v' : DB) : Prop where
  collation : v'.collation = v.collation
  books : ∀ b' ∈ v'.books.rows, ∃ b ∈ v.books.rows, b.id = b'.id ∧ b.isbn = b'.isbn

variable {svc : ReservationService} {G : DB → Op → Prop} {env : Env} {s s' v v' w : DB}

/-- What creations, updates and the changes to books as described all keep, holds in every run. -/
theorem Runs.booksInvariant {I : DB → Prop} (hempty : ∀ collation, I (.empty collation))
    (hcreated : ∀ {b s r s'}, I s → Creates b s r s' → I s')
    (hupdated : ∀ {bookId body s r s'}, I s → Updates bookId body s r s' → I s')
    (hdescribed : ∀ {s s'}, I s → s'.collation = s.collation → BooksDescribed s s' → I s')
    (h : Runs svc G s) : I s := by
  induction h with
  | empty collation => exact hempty collation
  | @call s s' op _ env _ _ hc ih =>
    by_cases hcreate : ∃ title author isbn n genre, op = .createBook title author isbn n genre
    · obtain ⟨title, author, isbn, n, genre, rfl⟩ := hcreate
      rw [Op.run, call_map] at hc
      obtain rfl := congrArg Prod.snd hc
      exact hcreated ih (call_createBook env title author isbn n genre s)
    by_cases hupdate : ∃ bookId body, op = .updateBook bookId body
    · obtain ⟨bookId, body, rfl⟩ := hupdate
      rw [Op.run, call_map] at hc
      obtain rfl := congrArg Prod.snd hc
      exact hupdated ih (call_updateBook bookId body s)
    have hcollation : s'.collation = s.collation := by
      rw [← call_collation (op.run svc env) s, hc]
    rcases call_op hc with ⟨_, _, he⟩ | ⟨_, _, rfl⟩
    · refine hdescribed ih hcollation (he.described ?_ ?_)
      · exact fun title author isbn n genre hop => hcreate ⟨title, author, isbn, n, genre, hop⟩
      · exact fun bookId body hop => hupdate ⟨bookId, body, hop⟩
    · exact ih
  | accounts _ ha ih =>
    obtain ⟨_, _, rfl⟩ := ha.frame
    exact hdescribed ih rfl (.of_books rfl)

namespace DistinctIsbns

theorem kept (h : DistinctIsbns v) (hk : IsbnsKept v v') : DistinctIsbns v' := by
  intro b hb o ho hisbn
  obtain ⟨b₀, hb₀, hbid, hbi⟩ := hk.books b hb
  obtain ⟨o₀, ho₀, hoid, hoi⟩ := hk.books o ho
  rw [DB.weight_congr hk.collation, DB.weight_congr hk.collation] at hisbn
  have hsame : b₀ = o₀ := h b₀ hb₀ o₀ ho₀ (by rw [hbi, hoi, hisbn])
  have hid : b.id = o.id := by rw [← hbid, ← hoid, hsame]
  exact List.inj_on_of_nodup_map v'.books.unique hb ho hid

/-- A row is written whose ISBN no other row has. -/
theorem write (h : DistinctIsbns v) {b : Book} (hbooks : v'.books = v.books.put b)
    (hcollation : v'.collation = v.collation)
    (hown : ∀ o ∈ v.books.rows, o.id ≠ b.id → v.weight o.isbn ≠ v.weight b.isbn) :
    DistinctIsbns v' := by
  intro o ho q hq hisbn
  rw [hbooks] at ho hq
  rw [DB.weight_congr hcollation, DB.weight_congr hcollation] at hisbn
  rcases Table.mem_put.mp ho with rfl | ⟨ho', hoid⟩ <;>
    rcases Table.mem_put.mp hq with rfl | ⟨hq', hqid⟩
  · rfl
  · exact absurd hisbn.symm (hown q hq' hqid)
  · exact absurd hisbn (hown o ho' hoid)
  · exact h o ho' q hq' hisbn

theorem created {b : Book} {r : Except Exc Book} (h : DistinctIsbns s) (hc : Creates b s r s') :
    DistinctIsbns s' := by
  cases hc with
  | created _ hinsert =>
    obtain ⟨_, _, hown⟩ := insertRow_ok hinsert
    exact h.write rfl rfl fun o ho _ => hown o ho
  | _ => exact h

theorem updated {bookId : UUID} {body : BookUpdate} {r : Except Exc Book} (h : DistinctIsbns s)
    (hu : Updates bookId body s r s') : DistinctIsbns s' := by
  cases hu with
  | stored _ _ hwrite hbooks hcollation =>
    have hown := storeBook_unique hwrite
    rw [← (rewrite_ok hwrite).1] at hown
    exact h.write hbooks hcollation hown
  | _ => exact h

theorem described (h : DistinctIsbns s) (hcollation : s'.collation = s.collation)
    (hd : BooksDescribed s s') : DistinctIsbns s' := by
  refine h.kept ⟨hcollation, fun b' hb' => ?_⟩
  obtain ⟨b, hb, _, _, _, rfl⟩ := hd b' hb'
  exact ⟨b, hb, rfl, rfl⟩

theorem of_runs (h : Runs svc G s) : DistinctIsbns s :=
  h.booksInvariant (fun _ => by simp [DistinctIsbns, DB.empty, Table.empty])
    created updated described

end DistinctIsbns

/-! ## The check and the index -/

def Op.SetsIsbn (isbn : String) : Op → Prop
  | .createBook _ _ i _ _ => i = isbn
  | .updateBook _ body => body.isbn = some (some isbn)
  | _ => False

/-- The update gets as far as writing the row. -/
def ReachesWrite (bookId : UUID) (body : BookUpdate) (s : DB) : Prop :=
  ∃ b, s.activeBook bookId = some b ∧ CopiesAccepted b body.totalCopies

/-- The write of the call would put one ISBN on two rows. -/
def Op.BreaksUnique (isbn : String) (s : DB) : Op → Prop
  | .createBook _ _ _ _ _ => ∃ o ∈ s.books.rows, s.weight o.isbn = s.weight isbn
  | .updateBook bookId body => ReachesWrite bookId body s ∧
      ∃ o ∈ s.books.rows, o.id ≠ bookId ∧ s.weight o.isbn = s.weight isbn
  | _ => False

/-- The service refuses the call as a duplicate exactly when the index would, and what it lets
through does not end in an `IntegrityError`. -/
structure IsbnChecked (svc : ReservationService) (env : Env) (op : Op) (isbn : String) (s : DB) :
    Prop where
  agrees : (call (op.run svc env) s).1 = .error (duplicateIsbn isbn) ↔ op.BreaksUnique isbn s
  clean : ∀ e, (call (op.run svc env) s).1 = .error (.database e) → e.isIntegrityError = false

/-- When check and index agree: a new book has the ISBN of a listed book, or of none at all and an
unused key; an update that is written sets an ISBN that no other row has, and no null. Two ISBNs
are one if the column compares them so. -/
def Op.IsbnAgreed (env : Env) (isbn : String) (s : DB) : Op → Prop
  | .createBook _ _ _ _ _ =>
      (∃ o ∈ s.books.rows, s.weight o.isbn = s.weight isbn ∧ o.isDeleted = false) ∨
      (∀ o ∈ s.books.rows, s.weight o.isbn ≠ s.weight isbn) ∧ s.books.get env.newId = none
  | .updateBook bookId body => ReachesWrite bookId body s →
      (∀ o ∈ s.books.rows, s.weight o.isbn = s.weight isbn → o.id = bookId) ∧
      body.title ≠ some none ∧ body.author ≠ some none
  | _ => True

theorem duplicate_not_refusal (isbn : String) : duplicateIsbn isbn ∉ copiesRefusals := by
  have hhead : ∀ msg : String, s!"Book with ISBN {isbn} already exists" = msg →
      msg.toList.head? = some 'B' := by
    rintro _ rfl
    simp [toString]
  intro h
  simp only [copiesRefusals, duplicateIsbn, List.mem_cons, List.not_mem_nil, or_false,
    reduceCtorEq, false_or, Exc.valueError.injEq] at h
  rcases h with h | h
  · exact absurd (hhead _ h) (by decide)
  · exact absurd (hhead _ h) (by decide)

theorem Creates.checked_iff {b : Book} {r : Except Exc Book} (hs : DistinctIsbns s)
    (hc : Creates b s r s') :
    ((r = .error (duplicateIsbn b.isbn) ↔
        ∃ o ∈ s.books.rows, s.weight o.isbn = s.weight b.isbn) ∧
      ∀ e, r = .error (.database e) → e.isIntegrityError = false) ↔
    (∃ o ∈ s.books.rows, s.weight o.isbn = s.weight b.isbn ∧ o.isDeleted = false) ∨
      (∀ o ∈ s.books.rows, s.weight o.isbn ≠ s.weight b.isbn) ∧ s.books.get b.id = none := by
  cases hc with
  | @listed o ho hisbn hlisted =>
    constructor
    · exact fun _ => .inl ⟨o, ho, hisbn, hlisted⟩
    · refine fun _ => ⟨⟨fun _ => ⟨o, ho, hisbn⟩, fun _ => rfl⟩, fun e he => ?_⟩
      cases he
  | ambiguous ho ho' hne hisbn hisbn' =>
    exact absurd (hs _ ho _ ho' (hisbn.trans hisbn'.symm)) hne
  | refused hdeleted hinsert =>
    obtain ⟨e, rfl, he⟩ := insertRow_fails s b _ hinsert
    have hother : (.error (.database e) : Except Exc Book) ≠ .error (duplicateIsbn b.isbn) := by
      simp [duplicateIsbn]
    constructor
    · rintro ⟨hagrees, hclean⟩
      refine .inr ⟨fun o ho hisbn => hother (hagrees.mpr ⟨o, ho, hisbn⟩), ?_⟩
      by_contra hused
      rw [insertRow_used hused] at hinsert
      cases hinsert
      exact absurd (hclean _ rfl) (by decide)
    · rintro (⟨o, ho, hisbn, hlisted⟩ | ⟨hnone, hfresh⟩)
      · cases (hdeleted o ho hisbn).symm.trans hlisted
      · refine ⟨⟨fun h => absurd h hother, ?_⟩, fun e' h' => ?_⟩
        · rintro ⟨o, ho, hisbn⟩
          exact absurd hisbn (hnone o ho)
        · cases h'
          by_contra hintegrity
          rcases he (by simpa using hintegrity) with hused | ⟨o, ho, hisbn⟩
          · exact hused hfresh
          · exact hnone o ho hisbn
  | created _ hinsert =>
    obtain ⟨_, hfresh, hnone⟩ := insertRow_ok hinsert
    constructor
    · exact fun _ => .inr ⟨hnone, hfresh⟩
    · refine fun _ => ⟨⟨fun h => ?_, ?_⟩, fun e he => ?_⟩
      · cases h
      · rintro ⟨o, ho, hisbn⟩
        exact absurd hisbn (hnone o ho)
      · cases he

theorem Updates.checked_iff {bookId : UUID} {body : BookUpdate} {isbn : String}
    {r : Except Exc Book} (hisbn : body.isbn = some (some isbn)) (hu : Updates bookId body s r s') :
    ((r = .error (duplicateIsbn isbn) ↔
        ReachesWrite bookId body s ∧
          ∃ o ∈ s.books.rows, o.id ≠ bookId ∧ s.weight o.isbn = s.weight isbn) ∧
      ∀ e, r = .error (.database e) → e.isIntegrityError = false) ↔
    (ReachesWrite bookId body s →
      (∀ o ∈ s.books.rows, s.weight o.isbn = s.weight isbn → o.id = bookId) ∧
      body.title ≠ some none ∧ body.author ≠ some none) := by
  cases hu with
  | missing hmissing =>
    have hnot : ¬ReachesWrite bookId body s := by
      rintro ⟨b, hb, _⟩
      cases hmissing.symm.trans hb
    refine ⟨fun _ h => absurd h hnot, fun _ => ⟨⟨fun h => ?_, fun h => absurd h.1 hnot⟩,
      fun e he => ?_⟩⟩
    · cases h
    · cases he
  | @copiesRefused b x hb hcopies hx =>
    have hnot : ¬ReachesWrite bookId body s := by
      rintro ⟨o, ho, hok⟩
      obtain rfl := Option.some.inj (hb.symm.trans ho)
      exact hcopies hok
    refine ⟨fun _ h => absurd h hnot, fun _ => ⟨⟨fun h => ?_, fun h => absurd h.1 hnot⟩,
      fun e he => ?_⟩⟩
    · cases h
      exact absurd hx (duplicate_not_refusal isbn)
    · cases he
      simp [copiesRefusals] at hx
  | @refused b x hb hcopies hwrite =>
    have hreach : ReachesWrite bookId body s := ⟨b, hb, hcopies⟩
    have hid : b.id = bookId := Table.key_of_get (activeBook_eq_some.mp hb).1
    obtain ⟨e, rfl, he⟩ := storeBook_fails _ _ _ _ _ x hwrite
    have hother : (.error (.database e) : Except Exc Book) ≠ .error (duplicateIsbn isbn) := by
      simp [duplicateIsbn]
    constructor
    · rintro ⟨hagrees, hclean⟩ _
      have hnull : ¬(body.title = some none ∨ body.author = some none) := by
        intro hnull
        obtain ⟨column, hbad⟩ := rewrite_null s b hisbn hnull
        cases hwrite.symm.trans hbad
        cases hclean _ rfl
      refine ⟨fun o ho hsame => ?_, fun h => hnull (.inl h), fun h => hnull (.inr h)⟩
      by_contra hne
      exact hother (hagrees.mpr ⟨hreach, o, ho, hne, hsame⟩)
    · intro hagreed
      obtain ⟨hown, htitle, hauthor⟩ := hagreed hreach
      refine ⟨⟨fun h => absurd h hother, ?_⟩, fun e' h' => ?_⟩
      · rintro ⟨_, o, ho, hne, hsame⟩
        exact absurd (hown o ho hsame) hne
      · cases h'
        by_contra hintegrity
        rcases (clashes_iff hisbn).mp (he (by simpa using hintegrity)) with h | h | h
        · exact htitle h
        · exact hauthor h
        · obtain ⟨o, ho, hne, hsame⟩ := h
          exact hne ((hown o ho hsame).trans hid.symm)
  | @stored b b' _ hb hcopies hwrite _ =>
    have hid : b.id = bookId := Table.key_of_get (activeBook_eq_some.mp hb).1
    have hnone : ∀ o ∈ s.books.rows, s.weight o.isbn = s.weight isbn → o.id = bookId := by
      intro o ho hsame
      by_contra hne
      refine storeBook_unique hwrite o ho (hid.symm ▸ hne) ?_
      rw [hsame, rewrite_isbn hisbn hwrite]
    have hnull : ¬(body.title = some none ∨ body.author = some none) := by
      intro hnull
      obtain ⟨column, hbad⟩ := rewrite_null s b hisbn hnull
      cases hwrite.symm.trans hbad
    constructor
    · exact fun _ _ => ⟨hnone, fun h => hnull (.inl h), fun h => hnull (.inr h)⟩
    · refine fun _ => ⟨⟨fun h => ?_, ?_⟩, fun e he => ?_⟩
      · cases h
      · rintro ⟨_, o, ho, hne, hsame⟩
        exact absurd (hnone o ho hsame) hne
      · cases he

/-- The check of the service and the unique index agree on a call exactly when a new book has the
ISBN of a listed one, or one that no book ever had, and when an update that is written sets an
ISBN that no other row has, whatever the collation takes for one ISBN. -/
theorem isbn_checked_iff (h : Runs svc G s) {op : Op} {isbn : String} (hop : op.SetsIsbn isbn)
    (env : Env) : IsbnChecked svc env op isbn s ↔ op.IsbnAgreed env isbn s := by
  have hsplit : IsbnChecked svc env op isbn s ↔
      ((call (op.run svc env) s).1 = .error (duplicateIsbn isbn) ↔ op.BreaksUnique isbn s) ∧
      ∀ e, (call (op.run svc env) s).1 = .error (.database e) → e.isIntegrityError = false :=
    ⟨fun hc => ⟨hc.agrees, hc.clean⟩, fun hc => ⟨hc.1, hc.2⟩⟩
  rw [hsplit]
  cases op with
  | createBook title author i n genre =>
    obtain rfl : i = isbn := hop
    simp only [Op.run, call_map, except_map_error]
    exact (call_createBook env title author i n genre s).checked_iff (.of_runs h)
  | updateBook bookId body =>
    simp only [Op.run, call_map, except_map_error]
    exact (call_updateBook bookId body s).checked_iff hop
  | _ => exact hop.elim

/-- The operations on books. -/
def OnBooks (_ : DB) : Op → Prop
  | .createBook _ _ _ _ _ | .updateBook _ _ | .deleteBook _ => True
  | _ => False

theorem demoStock_runs : Runs ⟨48⟩ OnBooks demoStock :=
  demoStart_runs.serial [(demoEnv 1 0, .createBook "Emma" "Austen" "9780141439587" 2 none)]
    (by simp [OnBooks])

/-- An ISBN that ends in a letter. -/
def demoLettered : DB :=
  serial ⟨48⟩ [(demoEnv 1 0, .createBook "Persuasion" "Austen" "080442957X" 2 none)] demoStart

theorem demoLettered_runs : Runs ⟨48⟩ OnBooks demoLettered :=
  demoStart_runs.serial [(demoEnv 1 0, .createBook "Persuasion" "Austen" "080442957X" 2 none)]
    (by simp [OnBooks])

/-- A second book under the ISBN of a listed one is refused by the service, in either case. -/
theorem isbn_checked_demo :
    IsbnChecked ⟨48⟩ (demoEnv 2 hour) (.createBook "Persuasion" "Austen" "080442957x" 1 none)
      "080442957x" demoLettered := by
  have hlisted : (⟨1, "080442957X", "Persuasion", "Austen", none, 2, 2, false, none⟩ : Book) ∈
    demoLettered.books.rows := by decide
  have hop : Op.SetsIsbn "080442957x" (.createBook "Persuasion" "Austen" "080442957x" 1 none) := rfl
  exact (isbn_checked_iff demoLettered_runs hop _).mpr (.inl ⟨_, hlisted, by decide, rfl⟩)

/-- The ISBN of a book that has been deleted passes the check, and breaks the index. -/
theorem deleted_isbn_clashes :
    ¬∀ s, Runs ⟨48⟩ OnBooks s → ∀ (op : Op) isbn, op.SetsIsbn isbn → ∀ env,
      IsbnChecked ⟨48⟩ env op isbn s := by
  intro hclaim
  have hruns : Runs ⟨48⟩ OnBooks (serial ⟨48⟩ [(demoEnv 0 hour, .deleteBook 1)] demoStock) :=
    demoStock_runs.serial _ (by simp [OnBooks])
  have hraise : (call (Op.run ⟨48⟩ (demoEnv 2 (2 * hour))
      (.createBook "Emma" "Austen" "9780141439587" 1 none))
      (serial ⟨48⟩ [(demoEnv 0 hour, .deleteBook 1)] demoStock)).1 =
      .error (.database (.duplicateEntry "books.isbn")) := by decide
  have hclean := (hclaim _ hruns (.createBook "Emma" "Austen" "9780141439587" 1 none) _ rfl
    (demoEnv 2 (2 * hour))).clean _ hraise
  exact absurd hclean (by decide)

end LibraryPlatform

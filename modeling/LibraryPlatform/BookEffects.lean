import LibraryPlatform.Services
import LibraryPlatform.StatementRules

/-!
# What the book service commits
-/
namespace LibraryPlatform

open KeyedTable Transaction

variable {α : Type} {D : Discipline DB RowKey} {T : Contract DB RowKey α}
  {l : Local DB RowKey Row Event} {s : DB}

/-! ## create_book -/

def createdBook (env : Env) (title author isbn : String) (totalCopies : Int)
    (genre : Option String) : Book :=
  ⟨env.newId, isbn, title, author, genre, totalCopies, totalCopies, false, none⟩

structure Created (b : Book) (v v' : DB) : Prop where
  fresh : v.books.get b.id = none
  nonneg : 0 ≤ b.totalCopies
  stored : v' = v.put (.book b.id) (.book b)
  copies : checkCopies b.totalCopies b.availableCopies = .ok ()

theorem wp_createBook {env : Env} {title author isbn : String} {totalCopies : Int}
    {genre : Option String} :
    wp D T (BookService.createBook env title author isbn totalCopies genre)
    (AtCommit D fun _ _ t t' =>
      Created (createdBook env title author isbn totalCopies genre) t t') .init s := by
  unfold BookService.createBook
  simp only [BookRepository.getByIsbn, Prog.bind_eq, wp_bind]
  refine wp_select fun s₁ h₁ => wp_scalarOneOrNone (fun _ => ?_)
    (fun b _ => wp_raiseIf fun h => absurd rfl h)
  refine wp_raiseIf fun _ => wp_insertBook fun s₂ h₂ hfresh hcopies => wp_select fun s₃ h₃ =>
    wp_orRaise fun _ _ t ht => ?_
  have h₂t := h₃.trans ht.unsnap
  exact ⟨(later_book h₂t.unwrite (List.mem_cons_self)).trans hfresh,
    (checkCopies_ok hcopies).1, rfl, hcopies⟩

/-! ## update_book -/

def BookUpdate.texts (body : BookUpdate) (b : Book) : BookTexts :=
  ⟨body.isbn.getD b.isbn, body.title.getD b.title, body.author.getD b.author,
    body.genre.getD b.genre⟩

/-- The row stored by an update of the book `b`, `w` being the view at the flush. -/
inductive Updated (D : Discipline DB RowKey) (s : DB) (bookId : UUID) (body : BookUpdate) (v : DB) :
    DB → Prop
  | texts {w : DB} {b b' : Book} : v.books.get bookId = some b → b.isDeleted = false →
      body.totalCopies = none →
      w.storeBook b (body.texts b) b.totalCopies b.availableCopies = .ok b' →
      Updated D s bookId body v (v.put (.book bookId) (.book b'))
  | copies {w : DB} {b b' : Book} {total : Int} :
      v.books.get bookId = some b → b.isDeleted = false →
      body.totalCopies = some (some total) → 0 ≤ total →
        0 ≤ b.availableCopies + (total - b.totalCopies) →
      w.storeBook b (body.texts b) total (b.availableCopies + (total - b.totalCopies)) = .ok b' →
      Updated D s bookId body v
        ((v.record (.retotalled bookId (total - b.totalCopies))).put (.book bookId) (.book b'))

/-! ## delete_book -/

inductive Deleted (D : Discipline DB RowKey) (s : DB) (env : Env) (bookId : UUID) (v : DB) :
    DB → Prop
  | mk {w : DB} {b : Book} : D.Past w s → (w.activeBook bookId).isSome →
      v.books.get bookId = some b →
      Deleted D s env bookId v
        (v.put (.book bookId) (.book
          { b with isDeleted := true, deletedAt := some (toDatetime (env.clock 0)) }))

section

variable (hT : T.Quiet)

include hT

theorem wp_bookService_updateBook {bookId : UUID} {body : BookUpdate} :
    wp D T (BookService.updateBook bookId body)
    (AtCommit D fun _ _ t t' => Updated D t bookId body t t') .init s := by
  unfold BookService.updateBook
  simp only [Prog.bind_eq, wp_bind]
  refine wp_bookForUpdate hT fun A s₁ h₁ hA => wp_orRaise fun b hb => ?_
  obtain ⟨hget, hdel⟩ := activeBook_eq_some.mp hb
  obtain rfl : b.id = bookId := Table.key_of_get hget
  have hk := hA b hget
  cases hbody : body.totalCopies with
  | none =>
    simp only [BookService.adjustCopies, Prog.pure_eq, wp_ret]
    refine wp_updateBook hT fun A' s₂ b₂ b' h₂ _ hb₂ hf => wp_select fun s₃ h₃ =>
      wp_orRaise fun _ _ t ht => ?_
    obtain rfl : b₂ = b := Option.some.inj (hb₂.symm.trans ((later_book h₂ hk).trans hget))
    have h₂t := (h₃.trans ht.unsnap).unwrite.unhold
    exact .texts ((later_book h₂t hk).trans hb₂) hdel hbody hf
  | some field =>
    cases field with
    | none => exact wp_raise
    | some total =>
      simp only [BookService.adjustCopies, Prog.pure_eq, Prog.bind_eq, wp_bind, wp_note, wp_ret]
      refine wp_raiseIf fun htotal => wp_raiseIf fun havail => ?_
      refine wp_updateBook hT fun A' s₂ b₂ b' h₂ _ hb₂ hf => wp_select fun s₃ h₃ =>
        wp_orRaise fun _ _ t ht => ?_
      obtain rfl : b₂ = b := Option.some.inj (hb₂.symm.trans ((later_book h₂.unnote hk).trans hget))
      have h₂t := (h₃.trans ht.unsnap).unwrite.unhold.unnote
      exact .copies ((later_book h₂t hk).trans hb₂) hdel hbody (not_lt.mp htotal)
        (not_lt.mp havail) hf

theorem wp_deleteBook {env : Env} {bookId : UUID} :
    wp D T (BookService.deleteBook env bookId)
    (AtCommit D fun _ _ t t' => Deleted D t env bookId t t') .init s := by
  unfold BookService.deleteBook BookRepository.delete
  simp only [Prog.bind_eq, wp_bind]
  refine wp_select fun s₁ h₁ => ?_
  cases hb : (Local.init.seen s₁ : DB).activeBook bookId with
  | none => exact wp_raiseIf fun h => absurd rfl h
  | some b =>
    simp only [wp_bind]
    refine wp_updateBook hT fun A s₂ b₂ b' h₂ hk hb₂ hf => wp_raiseIf fun _ t ht => ?_
    cases hf
    have h₂t := ht.unwrite
    exact .mk ((h₂.trans h₂t.unhold).past h₁.inv) (Option.isSome_of_eq_some hb)
      ((later_book h₂t hk).trans hb₂)

end

end LibraryPlatform

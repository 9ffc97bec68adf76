import LibraryPlatform.Operations

/-!
# What becomes of a book

A committed call changes the row of a book in one of a few ways. What holds of the books over a
run is read off them.
-/
namespace LibraryPlatform

open KeyedTable Transaction

/-- The row is as it was, or its copies on the shelf have been counted anew. -/
inductive Counted : Option Book → Option Book → Prop
  | same {o : Option Book} : Counted o o
  | copies {b : Book} (n : Int) : b.isDeleted = false →
      Counted (some b) (some { b with availableCopies := n })

/-- What a committed call of `op` may make of a book. -/
inductive BookChange (op : Op) : Option Book → Option Book → Prop
  | counted {o o' : Option Book} : Counted o o' → BookChange op o o'
  | created {title author isbn : String} {n : Int} {genre : Option String} {b : Book} :
      op = .createBook title author isbn n genre → BookChange op none (some b)
  | updated {id : UUID} {body : BookUpdate} {b b' : Book} : op = .updateBook id body →
      b.isDeleted = false → BookChange op (some b) (some b')
  | deleted {b : Book} (deletedAt : Option Int) : b.isDeleted = false →
      BookChange op (some b) (some { b with isDeleted := true, deletedAt })

variable {svc : ReservationService} {env : Env} {s s' v v' : DB} {D : Discipline DB RowKey}

namespace Counted

theorem trans {o o' o'' : Option Book} (h : Counted o o') (h' : Counted o' o'') :
    Counted o o'' := by
  cases h with
  | same => exact h'
  | copies n hdel =>
    cases h' with
    | same => exact .copies n hdel
    | copies m _ => exact .copies m hdel

theorem of_books (h : v'.books = v.books) (x : UUID) :
    Counted (v.books.get x) (v'.books.get x) := by
  rw [h]
  exact .same

theorem putBook {id : UUID} {b : Book} (hb : v.books.get id = some b) (hdel : b.isDeleted = false)
    (n : Int) (x : UUID) :
    Counted (v.books.get x)
      ((v.put (.book id) (.book { b with availableCopies := n })).books.get x) := by
  rw [get_putBook]
  split
  · rename_i hx
    obtain rfl : b.id = id := Table.key_of_get hb
    rw [hx, hb]
    exact .copies n hdel
  · exact .same

theorem handed {next : DB → Option Reservation} {expiresAt : Int} {bookId : UUID}
    (h : Handed D s next expiresAt bookId v v') (x : UUID) :
    Counted (v.books.get x) (v'.books.get x) := by
  cases h with
  | promoted => exact .same
  | restored _ _ hb hdel _ => exact putBook hb hdel _ x
  | gone => exact .same

theorem expiring {rest : List Reservation} {n : Nat} (h : Expiring D s svc env rest n v v')
    (x : UUID) : Counted (v.books.get x) (v'.books.get x) := by
  induction h with
  | nil => exact .same
  | cons _ hh _ ih => exact (of_books (by rfl) x).trans ((handed hh x).trans ih)

end Counted

/-- The operations of the librarians on the inventory. -/
def Op.isInventory : Op → Bool
  | .createBook .. | .updateBook .. | .deleteBook .. => true
  | _ => false

/-- The other operations count copies, and do no more to a book. -/
theorem Op.Effect.counted {guard : RowKey → Option DB → DB → Prop} {op : Op}
    (h : op.Effect D guard s svc env v v') (hop : op.isInventory = false) (x : UUID) :
    Counted (v.books.get x) (v'.books.get x) := by
  cases op with
  | createBook => cases hop
  | updateBook => cases hop
  | deleteBook => cases hop
  | borrowBook memberId bookId =>
    cases h with
    | held => exact .same
    | shelf hready _ _ hb _ _ =>
      obtain ⟨b, hget, hdel⟩ := hready.book
      obtain rfl := Option.some.inj (hget.symm.trans hb)
      exact Counted.putBook hb hdel _ x
  | returnBook =>
    cases h with
    | again => exact .same
    | handed _ _ _ _ _ _ hh => exact (Counted.of_books (by rfl) x).trans (.handed hh x)
  | renewBook => cases h; exact .same
  | placeReservation => rw [h.stored]; exact .same
  | cancelReservation =>
    cases h with
    | waiting => exact .same
    | held _ _ _ hh => exact (Counted.of_books (by rfl) x).trans (.handed hh x)
  | processExpiredHolds =>
    obtain ⟨_, _, _, he⟩ := h
    exact .expiring he x

theorem Op.Alone.counted {op : Op} (h : op.Alone s svc env s') (hop : op.isInventory = false)
    (x : UUID) : Counted (s.books.get x) (s'.books.get x) := Op.Effect.counted h hop x

/-- What one commit makes of each book. -/
theorem Op.Alone.book {op : Op} (h : op.Alone s svc env s') (x : UUID) :
    BookChange op (s.books.get x) (s'.books.get x) := by
  have written : ∀ {v : DB} {id : UUID} {b : Book}, v.books = s.books →
      (x = id → BookChange op (s.books.get x) (some b)) → b.id = id →
      BookChange op (s.books.get x) ((v.put (.book id) (.book b)).books.get x) := by
    rintro v id b hv hx rfl
    rw [get_putBook, hv]
    split
    · exact hx ‹_›
    · exact .counted .same
  cases op with
  | createBook =>
    rw [h.stored]
    refine written rfl (fun hx => ?_) rfl
    rw [hx, h.fresh]
    exact .created rfl
  | updateBook bookId body =>
    cases h with
    | texts hb hdel _ hf =>
      obtain ⟨_, _, _, _, _, _, _, _, rfl⟩ := storeBook_ok hf
      refine written rfl (fun hx => ?_) (Table.key_of_get hb)
      rw [hx, hb]
      exact .updated rfl hdel
    | copies hb hdel _ _ _ hf =>
      obtain ⟨_, _, _, _, _, _, _, _, rfl⟩ := storeBook_ok hf
      refine written rfl (fun hx => ?_) (Table.key_of_get hb)
      rw [hx, hb]
      exact .updated rfl hdel
  | deleteBook bookId =>
    cases h with
    | @mk w b hw hsome hb =>
      obtain rfl := alone_past hw
      obtain ⟨q, hq⟩ := Option.isSome_iff_exists.mp hsome
      obtain ⟨hget, hdel⟩ := activeBook_eq_some.mp hq
      obtain rfl := Option.some.inj (hget.symm.trans hb)
      refine written rfl (fun hx => ?_) (Table.key_of_get hb)
      rw [hx, hb]
      exact .deleted _ hdel
  | borrowBook | returnBook | renewBook | placeReservation | cancelReservation
  | processExpiredHolds => exact .counted (h.counted rfl x)

/-- The books are those there were, with the texts and the totals they had. -/
def BooksDescribed (s s' : DB) : Prop :=
  ∀ b' ∈ s'.books.rows, ∃ b ∈ s.books.rows, ∃ n isDeleted deletedAt,
    b' = { b with availableCopies := n, isDeleted, deletedAt }

theorem BooksDescribed.of_books (h : s'.books = s.books) : BooksDescribed s s' := by
  intro b hb
  exact ⟨b, h ▸ hb, b.availableCopies, b.isDeleted, b.deletedAt, rfl⟩

/-- The operations that set no texts keep those of every book. -/
theorem Op.Alone.described {op : Op} (h : op.Alone s svc env s')
    (hcreate : ∀ title author isbn n genre, op ≠ .createBook title author isbn n genre)
    (hupdate : ∀ bookId body, op ≠ .updateBook bookId body) : BooksDescribed s s' := by
  intro b' hb'
  have hchange := Op.Alone.book h b'.id
  rw [show s'.books.get b'.id = some b' from Table.get_of_mem hb'] at hchange
  generalize hb : s.books.get b'.id = o at hchange
  cases hchange with
  | counted hcounted =>
    cases hcounted with
    | same => exact ⟨b', Table.mem_of_get hb, b'.availableCopies, b'.isDeleted, b'.deletedAt, rfl⟩
    | @copies b n => exact ⟨b, Table.mem_of_get hb, n, b.isDeleted, b.deletedAt, rfl⟩
  | created hop => exact absurd hop (hcreate _ _ _ _ _)
  | updated hop => exact absurd hop (hupdate _ _)
  | @deleted b deletedAt =>
    exact ⟨b, Table.mem_of_get hb, b.availableCopies, true, deletedAt, rfl⟩

end LibraryPlatform

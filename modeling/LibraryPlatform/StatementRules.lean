import LibraryPlatform.Repositories
import LibraryPlatform.TransactionLogic

/-!
# One rule for each statement

What the transaction may assume after each kind of statement of the services.
-/
namespace LibraryPlatform

open KeyedTable Transaction

variable {α β : Type} {D : Discipline DB RowKey} {T : Contract DB RowKey α}
  {l : Local DB RowKey Row Event} {s : DB}

@[simp] theorem store_put (k : RowKey) (r : Row) (s : DB) : Store.put k r s = s.put k r := rfl

/-- A sequence of checks passes when each one does. -/
theorem except_bind_ok {ε γ δ : Type} {x : Except ε γ} {f : γ → Except ε δ} {d : δ} :
    x >>= f = .ok d ↔ ∃ c, x = .ok c ∧ f c = .ok d := by
  cases x <;> simp [bind, Except.bind]

theorem except_map_ok {ε γ δ : Type} {x : Except ε γ} {f : γ → δ} {d : δ} :
    x.map f = .ok d ↔ ∃ c, x = .ok c ∧ f c = d := by
  cases x <;> simp [Except.map]

theorem except_map_error {ε γ δ : Type} {x : Except ε γ} {f : γ → δ} {e : ε} :
    x.map f = .error e ↔ x = .error e := by
  cases x <;> simp [Except.map]

theorem get_putBook (s : DB) (id x : UUID) (b : Book) :
    (s.put (.book id) (.book b)).books.get x = if x = id then some { b with id := id }
    else s.books.get x :=
  Table.get_put _ _ x

theorem get_putBorrowRecord (s : DB) (id x : UUID) (r : BorrowRecord) :
    (s.put (.borrowRecord id) (.borrowRecord r)).borrowRecords.get x =
      if x = id then some { r with id := id } else s.borrowRecords.get x := Table.get_put _ _ x

theorem get_putReservation (s : DB) (id x : UUID) (r : Reservation) :
    (s.put (.reservation id) (.reservation r)).reservations.get x =
      if x = id then some { r with id := id } else s.reservations.get x := Table.get_put _ _ x

/-- A row of a written table is the new one or an old one. -/
theorem mem_putReservation {s : DB} {id : UUID} {r q : Reservation}
    (hq : q ∈ (s.put (.reservation id) (.reservation r)).reservations.rows) :
    q = { r with id := id } ∨ q ∈ s.reservations.rows := (Table.mem_put.mp hq).imp_right And.left

theorem mem_putBorrowRecord {s : DB} {id : UUID} {r q : BorrowRecord}
    (hq : q ∈ (s.put (.borrowRecord id) (.borrowRecord r)).borrowRecords.rows) :
    q = { r with id := id } ∨ q ∈ s.borrowRecords.rows := (Table.mem_put.mp hq).imp_right And.left

theorem call_collation (p : Tx β) (s : DB) : (call p s).2.collation = s.collation :=
  call_keeps DB.collation_put (fun _ _ => rfl) p s

theorem view_collation (l : Local DB RowKey Row Event) (s : DB) :
    (l.view s).collation = s.collation :=
  l.view_keeps DB.collation_put (fun _ _ => rfl) s

/-! ## A locked row -/

theorem same_book {s t : DB} {id : UUID} (h : Store.row (.book id) s = Store.row (.book id) t) :
    s.books.get id = t.books.get id := Option.map_injective (fun _ _ h => Row.book.inj h) h

theorem same_member {s t : DB} {id : UUID}
    (h : Store.row (.member id) s = Store.row (.member id) t) :
    s.members.get id = t.members.get id := Option.map_injective (fun _ _ h => Row.member.inj h) h

theorem same_borrowRecord {s t : DB} {id : UUID}
    (h : Store.row (.borrowRecord id) s = Store.row (.borrowRecord id) t) :
    s.borrowRecords.get id = t.borrowRecords.get id :=
  Option.map_injective (fun _ _ h => Row.borrowRecord.inj h) h

theorem same_reservation {s t : DB} {id : UUID}
    (h : Store.row (.reservation id) s = Store.row (.reservation id) t) :
    s.reservations.get id = t.reservations.get id :=
  Option.map_injective (fun _ _ h => Row.reservation.inj h) h

theorem same_refreshToken {s t : DB} {id : UUID}
    (h : Store.row (.refreshToken id) s = Store.row (.refreshToken id) t) :
    s.refreshTokens.get id = t.refreshTokens.get id :=
  Option.map_injective (fun _ _ h => Row.refreshToken.inj h) h

/-- A locked row of the transaction's view, later on. -/
theorem later_book {t : DB} (h : Later D l s t) {id : UUID} (hk : .book id ∈ l.locks) :
    (l.view t).books.get id = (l.view s).books.get id := same_book (h.view hk)

theorem later_member {t : DB} (h : Later D l s t) {id : UUID} (hk : .member id ∈ l.locks) :
    (l.view t).members.get id = (l.view s).members.get id := same_member (h.view hk)

theorem later_borrowRecord {t : DB} (h : Later D l s t) {id : UUID}
    (hk : .borrowRecord id ∈ l.locks) :
    (l.view t).borrowRecords.get id = (l.view s).borrowRecords.get id :=
  same_borrowRecord (h.view hk)

theorem later_reservation {t : DB} (h : Later D l s t) {id : UUID}
    (hk : .reservation id ∈ l.locks) :
    (l.view t).reservations.get id = (l.view s).reservations.get id := same_reservation (h.view hk)

theorem later_refreshToken {t : DB} (h : Later D l s t) {id : UUID}
    (hk : .refreshToken id ∈ l.locks) :
    (l.view t).refreshTokens.get id = (l.view s).refreshTokens.get id :=
  same_refreshToken (h.view hk)

theorem activeBook_eq_some {s : DB} {id : UUID} {b : Book} :
    s.activeBook id = some b ↔ s.books.get id = some b ∧ b.isDeleted = false := by
  simp [DB.activeBook, Option.filter_eq_some_iff]

theorem activeMember_eq_some {s : DB} {id : UUID} {m : Member} :
    s.activeMember id = some m ↔ s.members.get id = some m ∧ m.isDeleted = false := by
  simp [DB.activeMember, Option.filter_eq_some_iff]

/-! ## Control -/

@[simp] theorem wp_raise {e : Exc} {Q : β → Local DB RowKey Row Event → DB → Prop} :
    wp D T (raise e) Q l s := trivial

@[simp] theorem wp_note {e : Event} {Q : Unit → Local DB RowKey Row Event → DB → Prop} :
    wp D T (note e) Q l s = Q () (l.noted e) s := rfl

theorem wp_raiseIf {c : Prop} [Decidable c] {e : Exc}
    {Q : Unit → Local DB RowKey Row Event → DB → Prop} (h : ¬c → Q () l s) :
    wp D T (raiseIf c e) Q l s := by
  unfold raiseIf
  split
  · trivial
  · rename_i hc
    exact h hc

theorem wp_orRaise {o : Option β} {e : Exc} {Q : β → Local DB RowKey Row Event → DB → Prop}
    (h : ∀ a, o = some a → Q a l s) : wp D T (orRaise o e) Q l s := by
  cases o with
  | none => trivial
  | some a => exact h a rfl

theorem wp_scalarOneOrNone {xs : List β} {Q : Option β → Local DB RowKey Row Event → DB → Prop}
    (hnone : xs = [] → Q none l s) (hsome : ∀ a, xs = [a] → Q (some a) l s) :
    wp D T (scalarOneOrNone xs) Q l s := by
  match xs with
  | [] => exact hnone rfl
  | [a] => exact hsome a rfl
  | _ :: _ :: _ => trivial

/-! ## Reads -/

theorem wp_select {q : DB → β} {Q : β → Local DB RowKey Row Event → DB → Prop}
    (h : ∀ s', Later D l s s' → Q (q (l.seen s')) (l.snap s') s') : wp D T (select q) Q l s := h

section Locking

variable (hT : T.Quiet)

include hT

theorem wp_selectForUpdate {keys : DB → List RowKey} {q : DB → β}
    {Q : β → Local DB RowKey Row Event → DB → Prop}
    (h : ∀ A s', Later D l s s' → (∀ k ∈ keys (l.view s'), k ∈ A ++ l.locks) →
      Q (q (l.view s')) (l.hold A) s') : wp D T (selectForUpdate keys q) Q l s :=
  ⟨fun _ _ _ => hT _ _ _, fun A s' ha hk => h A s' ha.later hk⟩

theorem wp_memberForUpdate {id : UUID} {Q : Option Member → Local DB RowKey Row Event → DB → Prop}
    (h : ∀ A s', Later D l s s' →
      (∀ m, (l.view s').members.get id = some m → .member id ∈ A ++ l.locks) →
    Q ((l.view s').activeMember id) (l.hold A) s') :
    wp D T (MemberRepository.getByIdForUpdate id) Q l s := by
  refine wp_selectForUpdate hT fun A s' hs hk => h A s' hs fun m hm => ?_
  exact hk _ (by simp [hm])

theorem wp_bookForUpdate {id : UUID} {Q : Option Book → Local DB RowKey Row Event → DB → Prop}
    (h : ∀ A s', Later D l s s' →
      (∀ b, (l.view s').books.get id = some b → .book id ∈ A ++ l.locks) →
    Q ((l.view s').activeBook id) (l.hold A) s') :
    wp D T (BookRepository.getByIdForUpdate id) Q l s := by
  refine wp_selectForUpdate hT fun A s' hs hk => h A s' hs fun b hb => ?_
  exact hk _ (by simp [hb])

theorem wp_reservationForUpdate {id : UUID}
    {Q : Option Reservation → Local DB RowKey Row Event → DB → Prop}
    (h : ∀ A s', Later D l s s' →
      (∀ r, (l.view s').reservations.get id = some r → .reservation id ∈ A ++ l.locks) →
    Q ((l.view s').reservations.get id) (l.hold A) s') :
    wp D T (ReservationRepository.getByIdForUpdate id) Q l s := by
  refine wp_selectForUpdate hT fun A s' hs hk => h A s' hs fun r hr => ?_
  exact hk _ (by simp [hr])

theorem wp_lockWhere {order : RowOrder Reservation} {p : Reservation → Bool}
    {Q : List Reservation → Local DB RowKey Row Event → DB → Prop}
    (h : ∀ A s', Later D l s s' →
      (∀ r ∈ (l.view s').reservations.rows, p r → .reservation r.id ∈ A ++ l.locks) →
    Q (order.apply ((l.view s').reservations.rows.filter p)) (l.hold A) s') :
    wp D T (ReservationRepository.lockWhere order p) Q l s := by
  refine wp_selectForUpdate hT fun A s' hs hk => h A s' hs fun r hr hp => ?_
  exact hk _ (List.mem_map.mpr ⟨r, List.mem_filter.mpr ⟨hr, hp⟩, rfl⟩)

theorem wp_fifoPending {order : RowOrder Reservation} {bookId : UUID}
    {Q : Option Reservation → Local DB RowKey Row Event → DB → Prop}
    (h : ∀ A s', Later D l s s' →
      (∀ r, ReservationRepository.oldestPending order bookId (l.view s') = some r →
      .reservation r.id ∈ A ++ l.locks) →
    Q (ReservationRepository.oldestPending order bookId (l.view s')) (l.hold A) s') :
    wp D T (ReservationRepository.getFifoPendingByBookId order bookId) Q l s := by
  refine wp_selectForUpdate hT fun A s' hs hk => h A s' hs fun r hr => ?_
  exact hk _ (by simp [hr])

/-! ## Writes -/

theorem wp_updateBook {id : UUID} {f : DB → Book → Except Exc Book}
    {Q : Unit → Local DB RowKey Row Event → DB → Prop}
    (h : ∀ A s' b b', Later D l s s' → .book id ∈ A ++ l.locks → (l.view s').books.get id = some b →
      f (l.view s') b = .ok b' → Q () ((l.hold A).write (.book id) (.book b')) s') :
    wp D T (updateBook id f) Q l s := by
  refine ⟨fun _ _ => hT _ _ _, fun A s' ha hk _ r hr => ?_⟩
  cases hb : (l.view s').books.get id with
  | none => simp only [hb] at hr; cases hr
  | some b =>
    simp only [hb] at hr
    obtain ⟨b', hf, rfl⟩ := except_map_ok.mp hr
    exact h A s' b b' ha.later hk hb hf

theorem wp_updateReservation {id : UUID} {f : Reservation → Reservation}
    {Q : Unit → Local DB RowKey Row Event → DB → Prop}
    (h : ∀ A s' r, Later D l s s' → .reservation id ∈ A ++ l.locks →
      (l.view s').reservations.get id = some r → Q ()
    ((l.hold A).write (.reservation id) (.reservation (f r))) s') :
    wp D T (updateReservation id f) Q l s := by
  refine ⟨fun _ _ => hT _ _ _, fun A s' ha hk _ r hr => ?_⟩
  cases hb : (l.view s').reservations.get id with
  | none => simp only [hb] at hr; cases hr
  | some b =>
    simp only [hb] at hr
    cases hr
    exact h A s' b ha.later hk hb

theorem wp_updateBorrowRecord {id : UUID} {f : BorrowRecord → Except Exc BorrowRecord}
    {Q : Unit → Local DB RowKey Row Event → DB → Prop}
    (h : ∀ A s' r r', Later D l s s' → .borrowRecord id ∈ A ++ l.locks →
      T.guard (.borrowRecord id) l.snapshot s' → (l.view s').borrowRecords.get id = some r →
    f r = .ok r' → Q () ((l.hold A).write (.borrowRecord id) (.borrowRecord r')) s') :
    wp D T (updateBorrowRecord id f) Q l s := by
  refine ⟨fun _ _ => hT _ _ _, fun A s' ha hk hg r hr => ?_⟩
  cases hb : (l.view s').borrowRecords.get id with
  | none => simp only [hb] at hr; cases hr
  | some b =>
    simp only [hb] at hr
    obtain ⟨b', hf, rfl⟩ := except_map_ok.mp hr
    exact h A s' b b' ha.later hk hg hb hf

theorem wp_updateRefreshToken {id : UUID} {f : RefreshToken → RefreshToken}
    {Q : Unit → Local DB RowKey Row Event → DB → Prop}
    (h : ∀ A s' r, Later D l s s' → .refreshToken id ∈ A ++ l.locks →
      T.guard (.refreshToken id) l.snapshot s' → (l.view s').refreshTokens.get id = some r →
      Q () ((l.hold A).write (.refreshToken id) (.refreshToken (f r))) s') :
    wp D T (updateRefreshToken id f) Q l s := by
  refine ⟨fun _ _ => hT _ _ _, fun A s' ha hk hg r hr => ?_⟩
  cases hb : (l.view s').refreshTokens.get id with
  | none => simp only [hb] at hr; cases hr
  | some b =>
    simp only [hb] at hr
    cases hr
    exact h A s' b ha.later hk hg hb

end Locking

theorem checkFresh_ok {table : String} {o : Option β} (h : checkFresh table o = .ok ()) :
    o = none := by
  cases o with
  | none => rfl
  | some a => simp [checkFresh] at h

theorem checkThat_ok {name : String} {p : Bool} {u : Unit} (h : checkThat name p = .ok u) :
    p = true := by
  cases p with
  | true => rfl
  | false => simp [checkThat] at h

theorem checkCopies_ok {total available : Int} {u : Unit}
    (h : checkCopies total available = .ok u) : 0 ≤ available ∧ available ≤ total := by
  simp only [checkCopies, except_bind_ok] at h
  obtain ⟨_, _, _, _, _, _, _, h0, h1⟩ := h
  exact ⟨by simpa using checkThat_ok h0, by simpa using checkThat_ok h1⟩

/-- The two counters fit their columns. -/
theorem checkCopies_iff {total available : Int} :
    checkCopies total available = .ok () ↔ total ≤ 32767 ∧ 0 ≤ available ∧ available ≤ total := by
  constructor
  · intro h
    obtain ⟨hpos, hle⟩ := checkCopies_ok h
    simp only [checkCopies, except_bind_ok] at h
    obtain ⟨_, htotal, _⟩ := h
    unfold checkSmallInt at htotal
    split at htotal
    · omega
    · cases htotal
  · rintro ⟨hmax, hpos, hle⟩
    have htotal : checkSmallInt "total_copies" total = .ok () := if_pos (by omega)
    have havail : checkSmallInt "available_copies" available = .ok () := if_pos (by omega)
    have h₀ : checkThat "chk_books_total_copies_non_negative" (0 ≤ total) = .ok () :=
      if_pos (by simp; omega)
    have h₁ : checkThat "chk_books_available_copies_non_negative" (0 ≤ available) = .ok () :=
      if_pos (by simpa using hpos)
    have h₂ : checkThat "chk_books_available_copies_lte_total" (available ≤ total) = .ok () :=
      if_pos (by simpa using hle)
    rw [checkCopies, htotal, havail, h₀, h₁, h₂]
    rfl

theorem checkNotNull_ok {column : String} {o : Option String} {v : String}
    (h : checkNotNull column o = .ok v) : o = some v := by
  cases o with
  | none => cases h
  | some w => cases h; rfl

/-- What a flush stores of a book. -/
theorem storeBook_ok {db : DB} {old b : Book} {texts : BookTexts} {total available : Int}
    (h : db.storeBook old texts total available = .ok b) :
    0 ≤ available ∧ available ≤ total ∧ ∃ isbn title author, texts.isbn = some isbn ∧
    texts.title = some title ∧ texts.author = some author ∧
    b = { old with isbn, title, author, genre := texts.genre, totalCopies := total,
                   availableCopies := available } := by
  simp only [DB.storeBook, except_bind_ok] at h
  obtain ⟨isbn, hisbn, title, htitle, author, hauthor, _, _, _, _, _, _, _, _, _, hc, h⟩ := h
  obtain ⟨hpos, hle⟩ := checkCopies_ok hc
  split at h
  · cases h
  · cases h
    exact ⟨hpos, hle, isbn, title, author, checkNotNull_ok hisbn, checkNotNull_ok htitle,
      checkNotNull_ok hauthor, rfl⟩

theorem storeBook_copies {db : DB} {old b : Book} {texts : BookTexts} {total available : Int}
    (h : db.storeBook old texts total available = .ok b) :
    checkCopies total available = .ok () := by
  simp only [DB.storeBook, except_bind_ok] at h
  obtain ⟨_, _, _, _, _, _, _, _, _, _, _, _, _, _, _, hc, _⟩ := h
  exact hc

/-- The new row is locked, and its key was free. -/
theorem wp_insertBook {b : Book} {Q : Unit → Local DB RowKey Row Event → DB → Prop}
    (h : ∀ s', Later D l s s' → (l.view s').books.get b.id = none →
      checkCopies b.totalCopies b.availableCopies = .ok () → Q ()
    ((l.hold [.book b.id]).write (.book b.id) (.book b)) s') : wp D T (insertBook b) Q l s := by
  intro s' hs row hr
  simp only [except_bind_ok, except_map_ok] at hr
  obtain ⟨_, hf, b', hb, rfl⟩ := hr
  have hcopies := storeBook_copies hb
  obtain ⟨_, _, _, _, _, hi, ht, ha, rfl⟩ := storeBook_ok hb
  cases hi
  cases ht
  cases ha
  exact h s' hs (checkFresh_ok hf) hcopies

theorem wp_insertBorrowRecord {r : BorrowRecord} {Q : Unit → Local DB RowKey Row Event → DB → Prop}
    (h : ∀ s', Later D l s s' → (l.view s').borrowRecords.get r.id = none →
      (l.view s').checkParents r.memberId r.bookId = .ok () →
      Q () ((l.hold [.borrowRecord r.id]).write (.borrowRecord r.id) (.borrowRecord r)) s') :
    wp D T (insertBorrowRecord r) Q l s := by
  intro s' hs row hr
  simp only [except_bind_ok] at hr
  obtain ⟨_, hf, _, _, _, hp, hrow⟩ := hr
  cases hrow
  exact h s' hs (checkFresh_ok hf) hp

theorem wp_insertReservation {r : Reservation} {Q : Unit → Local DB RowKey Row Event → DB → Prop}
    (h : ∀ s', Later D l s s' → (l.view s').reservations.get r.id = none →
      (l.view s').checkParents r.memberId r.bookId = .ok () →
      Q () ((l.hold [.reservation r.id]).write (.reservation r.id) (.reservation r)) s') :
    wp D T (insertReservation r) Q l s := by
  intro s' hs row hr
  simp only [except_bind_ok] at hr
  obtain ⟨_, hf, _, hp, hrow⟩ := hr
  cases hrow
  exact h s' hs (checkFresh_ok hf) hp

theorem wp_insertRefreshToken {r : RefreshToken} {Q : Unit → Local DB RowKey Row Event → DB → Prop}
    (h : ∀ s', Later D l s s' → (l.view s').refreshTokens.get r.id = none →
      Q () ((l.hold [.refreshToken r.id]).write (.refreshToken r.id) (.refreshToken r)) s') :
    wp D T (insertRefreshToken r) Q l s := by
  intro s' hs row hr
  simp only [except_bind_ok] at hr
  obtain ⟨_, hf, _, _, _, _, _, _, _, _, hr⟩ := hr
  split at hr
  · cases hr
  · cases hr
    exact h s' hs (checkFresh_ok hf)

theorem wp_commit {Q : Unit → Local DB RowKey Row Event → DB → Prop}
    (h : ∀ s', Later D l s s' → T.publish none l.locks s' (l.view s') ∧ Q () .init (l.view s')) :
    wp D T commit Q l s := h

/-! ## Alone on the store -/

@[simp] theorem exec_select (q : DB → β) (base w : DB) :
    (select q).exec base w = (.ok (q w), base, w) := rfl
@[simp] theorem exec_raise (e : Exc) (base w : DB) :
    (raise e : Tx β).exec base w = (.error e, base, w) := rfl

@[simp] theorem exec_orRaise_some (b : β) (e : Exc) (base w : DB) :
    (orRaise (some b) e).exec base w = (.ok b, base, w) := rfl

theorem exec_orRaise {o : Option β} {b : β} {e : Exc} {base w : DB} (h : o = some b) :
    (orRaise o e).exec base w = (.ok b, base, w) := by
  rw [h]
  rfl

theorem exec_scalarOneOrNone {xs : List β} {b : β} {base w : DB} (h : xs = [b]) :
    (scalarOneOrNone xs).exec base w = (.ok (some b), base, w) := by
  rw [h]
  rfl

theorem exec_raiseIf {c : Prop} [Decidable c] {e : Exc} {base w : DB} (h : ¬c) :
    (raiseIf c e).exec base w = (.ok (), base, w) := by
  simp [raiseIf, h, Prog.exec]

theorem exec_raiseIf_error {c : Prop} [Decidable c] {e : Exc} {base w : DB} (h : c) :
    (raiseIf c e).exec base w = (.error e, base, w) := by
  simp [raiseIf, h, Prog.exec]

theorem readOnly_orRaise (o : Option β) (e : Exc) : (orRaise o e).ReadOnly := by cases o <;> trivial

theorem readOnly_raiseIf (c : Prop) [Decidable c] (e : Exc) : (raiseIf c e).ReadOnly := by
  unfold raiseIf
  split <;> trivial

theorem readOnly_scalarOneOrNone (xs : List β) : (scalarOneOrNone xs).ReadOnly := by
  match xs with
  | [] => trivial
  | [_] => trivial
  | _ :: _ :: _ => trivial

theorem call_orRaise_ok {o : Option β} {b : β} {e : Exc} {s s' : DB}
    (h : call (orRaise o e) s = (.ok b, s')) : o = some b := by
  cases o with
  | none => cases h
  | some a =>
    cases h
    rfl

theorem call_raiseIf_ok {c : Prop} [Decidable c] {u : Unit} {e : Exc} {s s' : DB}
    (h : call (raiseIf c e) s = (.ok u, s')) : ¬c := by
  intro hc
  simp only [raiseIf, hc, ↓reduceIte] at h
  cases h

end LibraryPlatform

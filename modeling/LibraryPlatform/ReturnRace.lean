import LibraryPlatform.Concurrency
import LibraryPlatform.Inventory

/-!
# Returns and renewals of one loan

`return_book` and `renew_book` read the loan without a lock and write over it later.
What they promise holds of the runs in which no update is flushed over a return it
has not seen.
-/
namespace LibraryPlatform

open KeyedTable Transaction ReservationRepository

def hasReturned (id : UUID) (db : DB) : Bool :=
  (db.borrowRecords.get id).any (fun r => r.status = .returned)

/-- The flush of an update of the loan: the committed row is not RETURNED, or a renewal
writes it that read RENEWED and so leaves the status column out. -/
def LoanCurrent (id : UUID) (op : Op) : Guard := fun k read committed =>
  k = .borrowRecord id → hasReturned id committed = false ∨
    op = .renewBook id ∧ ∃ w r, read = some w ∧ w.borrowRecords.get id = some r ∧
      r.status = .renewed

/-- Somebody can take the copy: the shelf of the book, or a waiting reservation. -/
def HasTaker (bookId : UUID) (db : DB) : Prop :=
  (db.activeBook bookId).isSome ∨ ∃ r ∈ db.reservations.rows, isPendingOf bookId r

/-- The shelf and the holds of the book have gained the loan's copy exactly if the loan is
returned, and neither has lost anything. -/
structure HandedOnce (id bookId : UUID) (shelf₀ holds₀ : Int) (db : DB) : Prop where
  loan : ∃ r, db.borrowRecords.get id = some r ∧ r.bookId = bookId
  copies : ∃ b, db.books.get bookId = some b ∧ shelf₀ ≤ b.availableCopies ∧
    holds₀ ≤ db.holds bookId ∧
    b.availableCopies + db.holds bookId = shelf₀ + holds₀ + if hasReturned id db then 1 else 0
  taker : hasReturned id db = false → HasTaker bookId db

/-- A loan once returned stays so, and till then nobody touches books and reservations. -/
def racing (id bookId : UUID) (shelf₀ holds₀ : Int) : Discipline DB RowKey where
  inv := HandedOnce id bookId shelf₀ holds₀
  rely _ s t := (hasReturned id s → hasReturned id t) ∧
    (hasReturned id t = false → t.books = s.books ∧ t.reservations = s.reservations)
  refl _ _ := ⟨fun h => h, fun _ => ⟨rfl, rfl⟩⟩
  trans := by
    intro _ s t u h h'
    refine ⟨h'.1 ∘ h.1, fun hu => ?_⟩
    have ht : hasReturned id t = false := by
      by_contra hne
      simp [h'.1 (by simpa using hne)] at hu
    exact ⟨(h'.2 hu).1.trans (h.2 ht).1, (h'.2 hu).2.trans (h.2 ht).2⟩
  anti _ h := h

section

variable {id bookId : UUID} {shelf₀ holds₀ : Int} {s t v v' w : DB}

theorem hasReturned_put (r : BorrowRecord) (db : DB) :
    hasReturned id (db.put (.borrowRecord id) (.borrowRecord r)) =
      decide (r.status = .returned) := by
  simp [hasReturned, get_putBorrowRecord]

theorem hasReturned_eq {r : BorrowRecord} {db : DB} (h : db.borrowRecords.get id = some r) :
    hasReturned id db = decide (r.status = .returned) := by simp [hasReturned, h]

/-- What the transaction saw of books and reservations before the loan was returned is
what there is. -/
theorem saw_unreturned (h : (racing id bookId shelf₀ holds₀).Saw s w v)
    (hs : hasReturned id s = false) :
    (∀ x, w.books.get x = v.books.get x) ∧ ∀ x, w.reservations.get x = v.reservations.get x := by
  obtain ⟨l, u, ⟨_, hr⟩, rfl, rfl⟩ := h
  obtain ⟨hb, hv⟩ := hr.2 hs
  refine ⟨fun x => same_book (l.view_congr ?_), fun x => same_reservation (l.view_congr ?_)⟩
  · show (u.books.get x).map Row.book = (s.books.get x).map Row.book
    rw [hb]
  · show (u.reservations.get x).map Row.reservation = (s.reservations.get x).map Row.reservation
    rw [hv]

/-- A promotion adds one hold. -/
theorem holds_promote {q : Reservation} {e : Int} (hget : v.reservations.get q.id = some q)
    (hq : isPendingOf bookId q) :
    (v.put (.reservation q.id) (.reservation { q with status := .hold, expiresAt := some e })).holds
    bookId = v.holds bookId + 1 := by
  obtain ⟨rfl, hs⟩ := isPendingOf_iff.mp hq
  rw [DB.holds_put, hget]
  simp [isHoldOf, hs]

/-- The shelf or the holds gain the copy, unless nobody takes it. -/
theorem Handed.gains {D : Discipline DB RowKey} {next : DB → Option Reservation} {expiresAt : Int}
    {b : Book} (h : Handed D s next expiresAt bookId v v')
    (hnext : ∀ w q, next w = some q → isPendingOf bookId q) (hb : v.books.get bookId = some b) :
    (∃ w w', D.Saw s w v ∧ next w = none ∧ D.Saw s w' v ∧ w'.activeBook bookId = none) ∨
    ∃ b', v'.books.get bookId = some b' ∧ b.availableCopies ≤ b'.availableCopies ∧
    v.holds bookId ≤ v'.holds bookId ∧ b'.availableCopies + v'.holds bookId =
      b.availableCopies + v.holds bookId + 1 := by
  cases h with
  | @promoted w q _ hq hget =>
    have hput := holds_promote (e := toDatetime expiresAt) hget (hnext w q hq)
    have hrecord : ∀ db e, (DB.record e db).holds bookId = db.holds bookId := fun _ _ => rfl
    refine .inr ⟨b, hb, le_refl _, ?_, ?_⟩
    · rw [hrecord, hput]
      omega
    · rw [hrecord, hput]
      omega
  | @restored w b' _ _ hb' _ _ =>
    cases hb.symm.trans hb'
    refine .inr ⟨{ b with id := bookId, availableCopies := b.availableCopies + 1 }, ?_,
      ?_, le_refl _, ?_⟩
    · exact (get_putBook v bookId bookId _).trans (if_pos rfl)
    · show b.availableCopies ≤ b.availableCopies + 1
      omega
    · show b.availableCopies + 1 + v.holds bookId = _
      omega
  | @gone w w' hw hn hw' hn' => exact .inl ⟨w, w', hw, hn, hw', hn'⟩

/-- Before the loan is returned, whoever hands its copy on finds the taker. -/
theorem HasTaker.found {svc : ReservationService} {env : Env} {w' : DB} (h : HasTaker bookId s)
    (hs : hasReturned id s = false) (hbooks : v.books = s.books)
    (hres : v.reservations = s.reservations) (hw : (racing id bookId shelf₀ holds₀).Saw s w v)
    (hn : (getBorrowService svc).waiting env bookId w = none)
    (hw' : (racing id bookId shelf₀ holds₀).Saw s w' v) : w'.activeBook bookId ≠ none := by
  rcases h with hactive | ⟨q, hq, hp⟩
  · have hget : w'.books.get bookId =
      s.books.get bookId := by rw [(saw_unreturned hw' hs).1, hbooks]
    intro hnone
    rw [DB.activeBook, hget] at hnone
    rw [DB.activeBook, hnone] at hactive
    cases hactive
  · have hget : w.reservations.get q.id = some q := by
      rw [(saw_unreturned hw hs).2, hres]
      exact Table.get_of_mem hq
    rw [getBorrowService_waiting] at hn
    exact absurd hp (oldestPending_none hn q (Table.mem_of_get hget))

/-- Whoever returns the loan first hands its copy on. -/
theorem HandedOnce.handed {svc : ReservationService} {env : Env} {expiresAt : Int}
    {r : BorrowRecord} (h : HandedOnce id bookId shelf₀ holds₀ s) (hs : hasReturned id s = false)
    (hr : r.bookId = bookId) (hret : r.status = .returned)
    (hh : Handed (racing id bookId shelf₀ holds₀) s ((getBorrowService svc).waiting env bookId)
      expiresAt bookId (s.put (.borrowRecord id) (.borrowRecord r)) t) :
    HandedOnce id bookId shelf₀ holds₀ t := by
  have hloan : t.borrowRecords.get id = some { r with id := id } := by
    rw [hh.borrowRecords, get_putBorrowRecord]
    simp
  have hreturned : hasReturned id t = true := by simp [hasReturned_eq hloan, hret]
  refine ⟨⟨_, hloan, hr⟩, ?_, by simp [hreturned]⟩
  obtain ⟨b, hb, hshelf, hholds, hsum⟩ := h.copies
  have hput : (s.put (.borrowRecord id) (.borrowRecord r)).holds bookId = s.holds bookId := rfl
  simp only [hs, Bool.false_eq_true, ↓reduceIte, add_zero] at hsum
  simp only [hreturned, ↓reduceIte]
  rcases hh.gains (fun w q hq => waiting_pending hq) hb with ⟨w, w', hw, hn, hw', hn'⟩ | ⟨b',
    hb', hle, hle', hsum'⟩
  · exact absurd hn' ((h.taker hs).found hs (by rfl) (by rfl) hw hn hw')
  · exact ⟨b', hb', by omega, by omega, by omega⟩

/-- However the loan was read, it is returned when the call returns. -/
theorem Returned.hasReturned {guard : Option DB → DB → Prop} {svc : BorrowService} {env : Env}
    (hr : Returned (racing id bookId shelf₀ holds₀) guard s svc env id s t) : hasReturned id t := by
  cases hr with
  | again hw hget hret => exact hw.2.1 (by simp [hasReturned_eq hget, hret])
  | @handed w u record r v' _ _ _ _ _ _ hh =>
    have hloan := get_putBorrowRecord s id id
      { r with returnDate := some (toDatetime (env.clock 0)), status := .returned }
    rw [← hh.borrowRecords] at hloan
    simp only [↓reduceIte] at hloan
    simp [hasReturned_eq hloan]

theorem HandedOnce.returned {svc : ReservationService} {env : Env}
    (h : HandedOnce id bookId shelf₀ holds₀ s)
    (hr : Returned (racing id bookId shelf₀ holds₀)
      (LoanCurrent id (.returnBook id) (.borrowRecord id)) s (getBorrowService svc) env id s t) :
    HandedOnce id bookId shelf₀ holds₀ t := by
  cases hr with
  | again => exact h
  | @handed w u record r v' hw hread hopen hguard hu hget hh =>
    have hs : hasReturned id s = false := by
      rcases hguard rfl with hu' | ⟨ho, _⟩
      · rwa [hasReturned_eq hget, ← hasReturned_eq hu]
      · cases ho
    obtain ⟨r', hr', hbook⟩ := h.loan
    cases hget.symm.trans hr'
    obtain ⟨r₀, hr₀, hbook₀⟩ := hw.1.loan
    cases hread.symm.trans hr₀
    rw [hbook₀] at hh
    exact h.handed hs (by exact hbook) (by rfl) hh

/-- A renewal leaves the loan out or returned, as it finds it. -/
theorem HandedOnce.renewed {svc : ReservationService} {env : Env}
    (h : HandedOnce id bookId shelf₀ holds₀ s)
    (hr : Renewed (racing id bookId shelf₀ holds₀)
      (LoanCurrent id (.renewBook id) (.borrowRecord id)) s (getBorrowService svc) env id s t) :
    HandedOnce id bookId shelf₀ holds₀ t ∧ hasReturned id t = hasReturned id s ∧ t.books = s.books ∧
    t.reservations = s.reservations := by
  cases hr with
  | @mk w u record r hw hread hopen _ _ hguard hu hget _ =>
    have hsame : hasReturned id (s.put
        (.borrowRecord id) (.borrowRecord (renewedRecord (getBorrowService svc) record r))) =
        hasReturned id s := by
      rw [hasReturned_put, hasReturned_eq hget]
      rcases hguard rfl with hu' | ⟨_, w', r', hw', hr', hs'⟩
      · rw [hasReturned_eq hu] at hu'
        by_cases hs : record.status = .renewed <;> simp [renewedRecord, hs, hu']
      · cases hw'
        cases hread.symm.trans hr'
        simp [renewedRecord, hs']
    obtain ⟨r', hr', hbook⟩ := h.loan
    cases hget.symm.trans hr'
    refine ⟨⟨⟨_, (get_putBorrowRecord s id id _).trans (if_pos rfl), hbook⟩, ?_, ?_⟩, hsame, rfl,
      rfl⟩
    · rw [hsame]
      exact h.copies
    · rw [hsame]
      exact h.taker

variable {n : Nat} {svc : ReservationService} {calls : Fin n → Call} {s₀ : DB} {l l' : Library n}

theorem racing_keeps (hcalls : ∀ i, OnLoan id (calls i)) :
    Keeps (racing id bookId shelf₀ holds₀) (fun i => LoanCurrent id (calls i).op) svc calls := by
  intro i s t hc hs
  obtain hop | hop := hcalls i
  · simp only [Call.Commits, hop, Op.Effect] at hc
    refine ⟨hs.returned hc, fun _ => ⟨fun _ => hc.hasReturned, fun hno => ?_⟩⟩
    rw [hc.hasReturned] at hno
    cases hno
  · simp only [Call.Commits, hop, Op.Effect] at hc
    obtain ⟨ht, hsame, hbooks, hres⟩ := HandedOnce.renewed hs hc
    exact ⟨ht, fun _ => ⟨fun h => hsame.trans h, fun _ => ⟨hbooks, hres⟩⟩⟩

/-- The runs that flush no update of the loan over a return they have not seen. -/
def FreshRuns (id : UUID) (calls : Fin n → Call) : Library n → Library n → Prop :=
  Sys.Reach (Sys.WhereGuarded fun i => LoanCurrent id (calls i).op)

/-- The copy of a loan that is out goes once to the shelf or to a hold, and from the first
return on the loan stays returned. -/
theorem returned_copy_handed_on_once (hcalls : ∀ i, OnLoan id (calls i)) {r₀ : BorrowRecord}
    {b₀ : Book} (hloan : s₀.borrowRecords.get id = some r₀) (hout : r₀.status ≠ .returned)
    (hbook : s₀.books.get r₀.bookId = some b₀) (htaker : HasTaker r₀.bookId s₀)
    (h : FreshRuns id calls (Library.start svc calls s₀) l) :
    (∃ b, l.db.books.get r₀.bookId = some b ∧ b₀.availableCopies ≤ b.availableCopies ∧
      s₀.holds r₀.bookId ≤ l.db.holds r₀.bookId ∧ b.availableCopies + l.db.holds r₀.bookId =
      b₀.availableCopies + s₀.holds r₀.bookId + if hasReturned id l.db then 1 else 0) ∧
    ∀ i a, (calls i).op = .returnBook id → l.txn i = .ended (.returned a) →
    ∀ l', FreshRuns id calls l l' → hasReturned id l'.db := by
  have hkeeps : Keeps (racing id r₀.bookId b₀.availableCopies (s₀.holds r₀.bookId)) _ svc calls :=
    racing_keeps hcalls
  have h₀ : HandedOnce id r₀.bookId b₀.availableCopies (s₀.holds r₀.bookId) s₀ := by
    refine ⟨⟨r₀, hloan, rfl⟩, ⟨b₀, hbook, le_refl _, le_refl _, ?_⟩, fun _ => htaker⟩
    simp [hasReturned_eq hloan, hout]
  have hgood := hkeeps.good h₀ h
  refine ⟨hgood.inv.copies, fun i a hop hend l' h' => ?_⟩
  obtain ⟨L, t, u, hc, hrely⟩ := hgood.ended i a hend
  simp only [Call.contract, Call.Commits, hop, Op.Effect] at hc
  exact (hkeeps.onward h₀ h h').1 (hrely.1 (Returned.hasReturned hc))

end

/-- Both copies of a book are out. -/
def demoBothOut : DB :=
  serial ⟨48⟩ [(demoEnv 1 0, .createBook "Emma" "Austen" "9780141439587" 2 none),
    (demoEnv 100 hour, .borrowBook 10 1),
    (demoEnv 101 hour, .borrowBook 11 1)] demoStart

def demoReturns : Fin 2 → Call
  | 0 => ⟨.returnBook 100, demoEnv 0 (2 * hour)⟩
  | 1 => ⟨.returnBook 100, demoEnv 0 (2 * hour)⟩

def demoReturnRenew : Fin 2 → Call
  | 0 => ⟨.returnBook 100, demoEnv 0 (2 * hour)⟩
  | 1 => ⟨.renewBook 100, demoEnv 0 (2 * hour)⟩

/-- The moves of a return that nobody disturbs, after its first read. -/
def demoHandBack (i : Fin 2) : List (Fin 2 × Move RowKey) :=
  [(i, .acquire (.borrowRecord 100)), (i, .run), (i, .acquire (.book 1)), (i, .run),
    (i, .run), (i, .run)]

/-- Both calls read the loan, and then it is renewed. -/
def demoRenewed (i j : Fin 2) : List (Fin 2 × Move RowKey) :=
  [(i, .run), (j, .run), (j, .acquire (.borrowRecord 100)), (j, .run)]

theorem returned_copy_handed_on_once_demo : ∃ l : Library 2,
    (Library.start ⟨48⟩ demoReturnRenew demoBothOut).runs (demoRenewed 0 1 ++ demoHandBack 0) =
      some l ∧ (l.txn 1).hasReturned ∧
    ∃ b, l.db.books.get 1 = some b ∧ b.availableCopies + l.db.holds 1 = 0 + 0 + 1 := by
  have hsome : ((Library.start ⟨48⟩ demoReturnRenew demoBothOut).runs
      (demoRenewed 0 1 ++ demoHandBack 0)).map
    (fun l => ((l.txn 1).hasReturned, hasReturned 100 l.db)) = some (true, true) := by decide
  obtain ⟨l, hl, hboth⟩ := Option.map_eq_some_iff.mp hsome
  obtain ⟨hrenewed, hret⟩ := Prod.mk.inj hboth
  have hfresh : FreshRuns 100 demoReturnRenew
      (Library.start ⟨48⟩ demoReturnRenew demoBothOut) l := by
    refine Sys.reach_of_along (P := fun l => !hasReturned 100 l.db)
      (fun s i m hs _ k f next l' _ _ => ?_) (by decide) hl
    exact .inl (by simpa using hs)
  have hcalls : ∀ i, OnLoan 100 (demoReturnRenew i) := Fin.forall_fin_two.mpr ⟨.inl rfl, .inr rfl⟩
  have hloan : demoBothOut.borrowRecords.get 100 =
    some ⟨100, 10, 1, hour, hour + 14 * day, none, 0, .borrowed⟩ := by rfl
  have hbook : demoBothOut.books.get 1 =
    some ⟨1, "9780141439587", "Emma", "Austen", none, 2, 0, false, none⟩ := by rfl
  obtain ⟨⟨b, hb, _, _, hsum⟩, _⟩ :=
    returned_copy_handed_on_once hcalls hloan (by decide) hbook (.inl (by decide)) hfresh
  have hholds : demoBothOut.holds 1 = 0 := by decide
  rw [hret, hholds] at hsum
  exact ⟨l, hl, hrenewed, b, hb, hsum⟩

/-- Two returns that both read the loan as out hand its copy on twice; and a renewal
that read it as BORROWED brings a returned loan back as RENEWED. -/
theorem return_race :
    (¬∀ l, Sys.Reach Sys.Any (Library.start ⟨48⟩ demoReturns demoBothOut) l →
      ∃ b, l.db.books.get 1 = some b ∧
    b.availableCopies + l.db.holds 1 = 0 + 0 + if hasReturned 100 l.db then 1 else 0) ∧
    ¬∀ l l' : Library 2, Sys.Reach Sys.Any (Library.start ⟨48⟩ demoReturnRenew demoBothOut) l →
    (∃ a, l.txn 0 = .ended (.returned a)) → Sys.Reach Sys.Any l l' → hasReturned 100 l'.db := by
  constructor
  · intro hclaim
    have hrun : ((Library.start ⟨48⟩ demoReturns demoBothOut).runs
        ([(0, .run), (1, .run)] ++ demoHandBack 0 ++ demoHandBack 1)).map
        (fun l => (hasReturned 100 l.db, l.db.holds 1,
          (l.db.books.get 1).map Book.availableCopies)) =
        some (true, 0, some 2) := by decide
    obtain ⟨l, hl, hfacts⟩ := Option.map_eq_some_iff.mp hrun
    simp only [Prod.mk.injEq] at hfacts
    obtain ⟨hret, hholds, hshelf⟩ := hfacts
    obtain ⟨b, hb, hsum⟩ := hclaim l (Sys.reach_of_runs hl)
    rw [hb, Option.map_some, Option.some.injEq] at hshelf
    rw [hret, hholds, hshelf] at hsum
    exact absurd hsum (by decide)
  · intro hclaim
    have hreturn : ((Library.start ⟨48⟩ demoReturnRenew demoBothOut).runs
        ([(0, .run), (1, .run)] ++ demoHandBack 0)).any
        (fun l => (l.txn 0).hasReturned &&
          (l.runs [(1, .acquire (.borrowRecord 100)), (1, .run)]).any
          (fun l' => !hasReturned 100 l'.db)) := by decide
    obtain ⟨l, hl, hfacts⟩ := (Option.any_eq_true _ _).mp hreturn
    simp only [Bool.and_eq_true] at hfacts
    obtain ⟨l', hl', hret⟩ := (Option.any_eq_true _ _).mp hfacts.2
    have hend := Txn.hasReturned_iff.mp hfacts.1
    rw [hclaim l l' (Sys.reach_of_runs hl) hend (Sys.reach_of_runs hl')] at hret
    cases hret

end LibraryPlatform

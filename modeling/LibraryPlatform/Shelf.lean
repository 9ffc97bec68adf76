import LibraryPlatform.Postings

/-!
# No lost update of the shelf count

`available_copies` is read into an object and written back as an absolute value. Every
operation reads it under the lock of the book's row, so no committed change is lost: the
count moves by what the commits make of the loans, the reservations and the total.
-/
namespace LibraryPlatform

open KeyedTable Transaction

variable {bookId : UUID} {s t s₀ : DB} {n : Nat} {svc : ReservationService}
  {calls : Fin n → Call} {l l' : Library n}

/-- No call returns or renews the loan that another one returns. -/
def ReturnsApart (calls : Fin n → Call) : Prop :=
  ∀ i j id, (calls i).op = .returnBook id → OnLoan id (calls j) → i = j

/-- The loan that a return has read is as it was. -/
def Call.current (c : Call) : Guard := fun k read committed => ∀ id w r,
  k = .borrowRecord id → c.op = .returnBook id → read = some w → w.borrowRecords.get id = some r →
    committed.borrowRecords.get id = some r

/-- Only a return and a renewal of a loan write it again. -/
theorem Call.Commits.loan_kept {D : Discipline DB RowKey} {guard : Guard} {c : Call} {id : UUID}
    {r : BorrowRecord} (hc : c.Commits D guard svc s t) (hnot : ¬OnLoan id c)
    (hr : s.borrowRecords.get id = some r) : t.borrowRecords.get id = some r := by
  obtain ⟨op, env⟩ := c
  rcases hc.borrowRecords with he | ⟨memberId, bookId, rfl⟩ | ⟨x, rfl⟩ | ⟨x, rfl⟩
  · rwa [he]
  · have hfresh := Borrowed.fresh hc
    have hne : id ≠ env.newId := by
      rintro rfl
      cases hr.symm.trans hfresh
    rw [Borrowed.borrowRecords hc]
    exact (Table.get_put_other _ hne).trans hr
  · have hne : id ≠ x := fun he => hnot (he ▸ .inl rfl)
    cases hc with
    | again => exact hr
    | handed _ _ _ _ _ _ hh =>
      rw [hh.borrowRecords]
      exact (get_putBorrowRecord s x id _).trans ((if_neg hne).trans hr)
  · have hne : id ≠ x := fun he => hnot (he ▸ .inr rfl)
    cases hc with
    | mk => exact (get_putBorrowRecord s x id _).trans ((if_neg hne).trans hr)

theorem ReturnsApart.current (hapart : ReturnsApart calls)
    (h : Sys.Reach Sys.Any (Library.start svc calls s₀) l) (i : Fin n) (m : Move RowKey) :
    Sys.WhereGuarded (fun i => (calls i).current) l i m := by
  intro _ k f next loc ht id w r _ hi hw
  refine Sys.snapshot_current (i := i) (R := fun w t => w.borrowRecords.get id = some r →
    t.borrowRecords.get id = some r) (fun _ hr => hr) ?_ ?_ h ht hw
  · intro x x' j m w hx hji hstep hread hw
    rcases library_step hx hstep with he | hc
    · rw [he]
      exact hread hw
    · exact hc.loan_kept (fun hj => hji (hapart i j id hi hj).symm) (hread hw)
  · intro p loc hp
    cases hp
    rfl

theorem ReturnsApart.reach (hapart : ReturnsApart calls)
    (h : Sys.Reach Sys.Any (Library.start svc calls s₀) l) :
    Sys.Reach (Sys.WhereGuarded fun i => (calls i).current) (Library.start svc calls s₀) l := by
  induction h with
  | refl => exact .refl
  | tail i m hr _ hs ih => exact .tail i m ih (hapart.current hr i m) hs

theorem Call.Commits.posted {c : Call} (hc : c.Commits (keeping (Listed bookId)) c.current svc s t)
    (hop : c.op ≠ .deleteBook bookId) (hs : Listed bookId s) : Posted bookId s 0 t := by
  obtain ⟨op, env⟩ := c
  cases op with
  | createBook => exact .created hs hc
  | updateBook => exact .updated hs hc
  | deleteBook id => exact .deleted hs (fun he => hop (he ▸ rfl)) hc
  | borrowBook => exact .borrowed hs hc
  | returnBook id => exact .returned hs (fun w u r hg hr => hg id w r rfl rfl rfl hr) hc
  | renewBook => exact .renewed hs hc
  | placeReservation => exact .placed hs hc
  | cancelReservation => exact .cancelled hs hc
  | processExpiredHolds => exact .swept hs hc

theorem listed_keeps (hdelete : ∀ i, (calls i).op ≠ .deleteBook bookId) :
    Keeps (keeping (Listed bookId)) (fun i => (calls i).current) svc calls :=
  fun i _ _ hc hs => ⟨(hc.posted (hdelete i) hs).listed, fun _ => trivial⟩

theorem posted_step (hapart : ReturnsApart calls) (hdelete : ∀ i, (calls i).op ≠ .deleteBook bookId)
    (h₀ : Listed bookId s₀) (h : Sys.Reach Sys.Any (Library.start svc calls s₀) l) {i : Fin n}
    {m : Move RowKey} (hs : l.step i m = some l') : Posted bookId l.db 0 l'.db := by
  have hkeeps : Keeps (keeping (Listed bookId)) _ svc calls := listed_keeps hdelete
  have hlisted : Listed bookId l.db := (hkeeps.good h₀ (hapart.reach h)).inv
  rcases hkeeps.step h₀ (hapart.reach h) (hapart.current h i m) hs with he | hc
  · rw [he]
    exact .refl hlisted
  · exact hc.posted (hdelete i) hlisted

theorem listed_reachable (hapart : ReturnsApart calls)
    (hdelete : ∀ i, (calls i).op ≠ .deleteBook bookId) (h₀ : Listed bookId s₀)
    (h : Sys.Reach Sys.Any (Library.start svc calls s₀) l) :
    Listed bookId l.db ∧ (0 ≤ s₀.available bookId → 0 ≤ l.db.available bookId) := by
  induction h with
  | refl => exact ⟨h₀, fun hpos => hpos⟩
  | tail i m hr _ hs ih =>
    have hposted := posted_step hapart hdelete h₀ hr hs
    exact ⟨hposted.listed, hposted.nonneg ∘ ih.2⟩

/-- What the steps of a run make of a value, the run makes of it in all. -/
theorem summed_posted {g : DB → Int} {f : DB → DB → Int} (hapart : ReturnsApart calls)
    (hdelete : ∀ i, (calls i).op ≠ .deleteBook bookId) (h₀ : Listed bookId s₀)
    (hposted : ∀ {s t}, Posted bookId s 0 t → g t = g s + f s t)
    {moves : List (Fin n × Move RowKey)}
    (h : (Library.start svc calls s₀).runs moves = some l) :
    g l.db = g s₀ + (Library.start svc calls s₀).summed f moves :=
  Sys.value_of_runs (G := Sys.Reach Sys.Any (Library.start svc calls s₀))
    (fun _ i m _ hr hs => .tail i m hr trivial hs)
    (fun _ _ _ _ hr hs => hposted (posted_step hapart hdelete h₀ hr hs)) .refl h

/-- No lost update and no oversell: after any run the shelf count of the book is what it was, less
the checkouts without a hold that have been committed, plus the restores to the shelf and the
changes of the total, and it is not negative. -/
theorem shelf_count_exact {b₀ : Book} (hapart : ReturnsApart calls)
    (hdelete : ∀ i, (calls i).op ≠ .deleteBook b₀.id) (hb : s₀.books.get b₀.id = some b₀)
    (hdel : b₀.isDeleted = false) (hpos : 0 ≤ b₀.availableCopies)
    {moves : List (Fin n × Move RowKey)}
    (h : (Library.start svc calls s₀).runs moves = some l) :
    ∃ b, l.db.books.get b₀.id = some b ∧ b.isDeleted = false ∧ 0 ≤ b.availableCopies ∧
      b.availableCopies = b₀.availableCopies -
        (Library.start svc calls s₀).summed (checkouts b₀.id) moves +
        (Library.start svc calls s₀).summed (restores b₀.id) moves +
        (Library.start svc calls s₀).summed (totalDifference b₀.id) moves := by
  have hlisted : Listed b₀.id s₀ := ⟨b₀, hb, hdel⟩
  have hsum := summed_posted (g := fun db => db.available b₀.id)
    (f := fun s t => totalDifference b₀.id s t + restores b₀.id s t - checkouts b₀.id s t)
    hapart hdelete hlisted (fun hp => by have := hp.shelf; omega) h
  rw [Sys.summed_sub, Sys.summed_add] at hsum
  obtain ⟨⟨b, hget, hkept⟩, hnonneg⟩ :=
    listed_reachable hapart hdelete hlisted (Sys.reach_of_runs h)
  simp only [DB.available, hb, hget, Option.elim_some] at hsum hnonneg
  exact ⟨b, hget, hkept, hnonneg hpos, by omega⟩

/-- The journal notes nothing else, and misses nothing. -/
theorem journal_exact (hapart : ReturnsApart calls)
    (hdelete : ∀ i, (calls i).op ≠ .deleteBook bookId) (h₀ : Listed bookId s₀)
    {moves : List (Fin n × Move RowKey)}
    (h : (Library.start svc calls s₀).runs moves = some l) :
    l.db.noted (Event.checkouts bookId) = s₀.noted (Event.checkouts bookId) +
      (Library.start svc calls s₀).summed (checkouts bookId) moves ∧
    l.db.noted (Event.restores bookId) = s₀.noted (Event.restores bookId) +
      (Library.start svc calls s₀).summed (restores bookId) moves ∧
    l.db.noted (Event.totalDifference bookId) = s₀.noted (Event.totalDifference bookId) +
      (Library.start svc calls s₀).summed (totalDifference bookId) moves :=
  ⟨summed_posted hapart hdelete h₀ Posted.notedCheckouts h,
    summed_posted hapart hdelete h₀ (fun hp => (add_zero _).symm.trans hp.notedRestores) h,
    summed_posted hapart hdelete h₀ Posted.notedDifference h⟩

def demoBook : Book := ⟨1, "9780141439587", "Emma", "Austen", none, 2, 2, false, none⟩

def demoStock : DB :=
  serial ⟨48⟩ [(demoEnv 1 0, .createBook "Emma" "Austen" "9780141439587" 2 none)] demoStart

/-- The moves of a loan from the lock of the book on. -/
def demoLend (i : Fin 2) : List (Fin 2 × Move RowKey) :=
  (i, .acquire (.book 1)) :: List.replicate 5 (i, .run)

/-- One copy of two is out. -/
def demoLentOut : DB := serial ⟨48⟩ [(demoEnv 100 hour, .borrowBook 10 1)] demoStock

def demoOneLeft : Book := { demoBook with availableCopies := 1 }

/-- A loan, the return of the other copy, and a third copy bought. -/
def demoTrade : Fin 3 → Call
  | 0 => ⟨.borrowBook 11 1, demoEnv 101 (2 * hour)⟩
  | 1 => ⟨.returnBook 100, demoEnv 0 (2 * hour)⟩
  | 2 => ⟨.updateBook 1 ⟨none, none, none, none, some (some 3)⟩, demoEnv 0 (2 * hour)⟩

def demoTrading (i j k : Fin 3) : List (Fin 3 × Move RowKey) :=
  [(j, .run), (i, .acquire (.member 11)), (j, .acquire (.borrowRecord 100)), (i, .run), (i, .run),
    (k, .acquire (.book 1))] ++ List.replicate 4 (k, .run) ++
    (i, .acquire (.book 1)) :: (j, .run) :: List.replicate 5 (i, .run) ++
    (j, .acquire (.book 1)) :: List.replicate 3 (j, .run)

theorem demoTrade_apart : ReturnsApart demoTrade := by
  have hreturn : ∀ i id, (demoTrade i).op = .returnBook id → i = 1 := by
    intro i id h
    match i with
    | 0 => cases h
    | 1 => rfl
    | 2 => cases h
  have hon : ∀ j id, OnLoan id (demoTrade j) → j = 1 := by
    intro j id h
    match j with
    | 0 => rcases h with h | h <;> cases h
    | 1 => rfl
    | 2 => rcases h with h | h <;> cases h
  exact fun i j id hi hj => (hreturn i id hi).trans (hon j id hj).symm

theorem shelf_count_exact_demo :
    ∃ s b, (Library.start ⟨48⟩ demoTrade demoLentOut).runs (demoTrading 0 1 2) = some s ∧
      s.db.books.get 1 = some b ∧ 0 ≤ b.availableCopies ∧
      b.availableCopies = 1 - 1 + 1 + 1 := by
  have hsome : ((Library.start ⟨48⟩ demoTrade demoLentOut).runs (demoTrading 0 1 2)).isSome := by
    decide
  obtain ⟨s, hs⟩ := Option.isSome_iff_exists.mp hsome
  have hstock : demoLentOut.books.get demoOneLeft.id = some demoOneLeft := rfl
  have hdelete : ∀ i, (demoTrade i).op ≠ .deleteBook demoOneLeft.id := by decide
  obtain ⟨b, hb, _, hpos, hcount⟩ :=
    shelf_count_exact demoTrade_apart hdelete hstock rfl (by decide) hs
  have hcheckouts : (Library.start ⟨48⟩ demoTrade demoLentOut).summed (checkouts demoOneLeft.id)
    (demoTrading 0 1 2) = 1 := by decide
  have hrestores : (Library.start ⟨48⟩ demoTrade demoLentOut).summed (restores demoOneLeft.id)
    (demoTrading 0 1 2) = 1 := by decide
  have hdifference : (Library.start ⟨48⟩ demoTrade demoLentOut).summed
    (totalDifference demoOneLeft.id) (demoTrading 0 1 2) = 1 := by decide
  rw [hcheckouts, hrestores, hdifference] at hcount
  exact ⟨s, b, hs, hb, hpos, hcount⟩

end LibraryPlatform

import Mathlib.Data.List.Dedup
import LibraryPlatform.Reconciliation
import LibraryPlatform.Sorting

/-!
# The popular books

The five most borrowed books of a window. Books that tie in count and title come in any order,
also across the cut, and the total of the window is the sum over what the cut leaves.
-/
namespace LibraryPlatform

open KeyedTable Transaction DashboardRepository Arrangement

variable {c : Collation} {days now start : Int} {s : DB}

/-! ## Ties -/

/-- Borrowed more often, or as often under a smaller title. -/
def comesAhead (c : Collation) (a b : PopularBook) : Bool :=
  b.checkoutCount < a.checkoutCount ||
    (a.checkoutCount = b.checkoutCount && c.weight a.title < c.weight b.title)

/-- Two books that the sort does not tell apart, and not five books ahead of them. -/
def TiedAtTop (c : Collation) (start : Int) (s : DB) (a b : PopularBook) : Prop :=
  a.checkoutCount = b.checkoutCount ∧ c.weight a.title = c.weight b.title ∧
    (borrowedBooks start s).countP (fun r => comesAhead c r a) < 5

theorem popularKey_lt {a b : PopularBook} :
    popularKey c a < popularKey c b ↔ comesAhead c a b := by
  simp [popularKey, comesAhead, Prod.Lex.toLex_lt_toLex]

theorem popularKey_eq {a b : PopularBook} :
    popularKey c a = popularKey c b ↔
      a.checkoutCount = b.checkoutCount ∧ c.weight a.title = c.weight b.title := by
  simp [popularKey]

theorem before_popularKey (a : PopularBook) (rows : List PopularBook) :
    before (popularKey c) rows (popularKey c a) = rows.countP (fun r => comesAhead c r a) :=
  List.countP_congr fun r _ => by simp [popularKey_lt]

theorem call_getPopularBooks (order : RowOrder PopularBook) (c : Collation) (days now : Int)
    (s : DB) : call (getPopularBooks order c days now) s =
      (.ok (((order.apply (borrowedBooks (startOfWindow now days) s)).insertionSort
        (fun a b => popularKey c a ≤ popularKey c b)).take 5), s) := rfl

theorem Summarises.popularBooks {env : DashboardEnv} {r : DashboardSummary}
    (h : Summarises env days s r) :
    r.popularBooks = ((env.popularOrder.apply (borrowedBooks (startOfWindow (env.clock 2) days)
      s)).insertionSort (fun a b => popularKey env.collation a ≤ popularKey env.collation b)).take
        5 := by
  have hpopular := h.popular
  rw [call_getPopularBooks] at hpopular
  exact (Except.ok.inj (congrArg Prod.fst hpopular)).symm

/-- The list is the same whatever the database does with ties exactly when no two books tie in
the first five places. -/
theorem popular_books_unique_iff (c : Collation) (days now : Int) (s : DB) :
    (∀ order order', call (getPopularBooks order c days now) s =
      call (getPopularBooks order' c days now) s) ↔
    ∀ a ∈ borrowedBooks (startOfWindow now days) s,
      ∀ b ∈ borrowedBooks (startOfWindow now days) s,
        TiedAtTop c (startOfWindow now days) s a b → a = b := by
  simp only [call_getPopularBooks, TiedAtTop]
  generalize borrowedBooks (startOfWindow now days) s = rows
  have hties := take_unique_iff (popularKey c) rows 5
  simp only [before_popularKey] at hties
  constructor
  · rintro hall a ha b hb ⟨hcount, htitle, hahead⟩
    refine hties.mp (fun l l' hl hl' => ?_) a ha b hb (popularKey_eq.mpr ⟨hcount, htitle⟩) hahead
    have hsame := hall (.giving rows l hl.1) (.giving rows l' hl'.1)
    rw [RowOrder.giving_sorted hl, RowOrder.giving_sorted hl'] at hsame
    simpa using hsame
  · intro hnone order order'
    have hsame := hties.mpr (fun a ha b hb hkey hahead => hnone a ha b hb
      ⟨(popularKey_eq.mp hkey).1, (popularKey_eq.mp hkey).2, hahead⟩) _ _
      (order.arranged (popularKey c) rows) (order'.arranged (popularKey c) rows)
    rw [hsame]

/-- Two editions of one title, each borrowed once. -/
def demoEditions : DB :=
  serial ⟨48⟩ [(demoEnv 1 0, .createBook "Emma" "Austen" "9780141439587" 1 none),
    (demoEnv 2 0, .createBook "Emma" "Austen" "9780143107712" 1 none),
    (demoEnv 100 hour, .borrowBook 10 1), (demoEnv 101 hour, .borrowBook 11 2)] demoStart

/-- Either edition may come first. -/
theorem editions_tie :
    ¬∀ s, Runs ⟨48⟩ AnyOp s → ∀ order order' c days now,
      call (getPopularBooks order c days now) s = call (getPopularBooks order' c days now) s := by
  intro hclaim
  have hsame := hclaim demoEditions (demoStart_runs.serial _ fun _ _ _ => trivial) .stored .reversed
    ⟨fun title => title.toList.map Char.toNat⟩ 30 0
  rw [call_getPopularBooks, call_getPopularBooks] at hsame
  have hfirst := congrArg (fun r => r.1.toOption.bind fun rows => rows.head?.map PopularBook.bookId)
    hsame
  revert hfirst
  decide

/-! ## The total of the window -/

/-- The loans of the window. -/
def windowLoans (start : Int) (s : DB) : Nat := s.borrowRecords.count (inWindow start)

/-- Every loan of the window is of a listed book, and at most five different books were
borrowed in it. -/
structure FewTitles (start : Int) (s : DB) : Prop where
  listed : ∀ r ∈ s.borrowRecords.rows, inWindow start r → ∃ b ∈ s.listed, b.id = r.bookId
  few : ((s.borrowRecords.rows.filter (inWindow start)).map BorrowRecord.bookId).dedup.length ≤ 5

theorem mem_borrowedBooks {row : PopularBook} :
    row ∈ borrowedBooks start s ↔ ∃ b ∈ s.listed,
      s.borrowRecords.count (fun r => r.bookId = b.id && inWindow start r) ≠ 0 ∧
      row = ⟨b.id, b.title, b.author,
        s.borrowRecords.count (fun r => r.bookId = b.id && inWindow start r)⟩ := by
  simp only [borrowedBooks, List.mem_filter, List.mem_map, decide_eq_true_eq]
  constructor
  · rintro ⟨⟨b, hb, rfl⟩, hpos⟩
    exact ⟨b, hb, hpos.ne', rfl⟩
  · rintro ⟨b, hb, hne, rfl⟩
    exact ⟨⟨b, hb, rfl⟩, Nat.pos_of_ne_zero hne⟩

theorem count_book_ne_zero {id : UUID} :
    s.borrowRecords.count (fun r => r.bookId = id && inWindow start r) ≠ 0 ↔
      ∃ r ∈ s.borrowRecords.rows, inWindow start r ∧ r.bookId = id := by
  simp [Table.count_eq_zero, and_comm]

/-- The counts add up to the loans of listed books. -/
theorem borrowedBooks_sum (start : Int) (s : DB) :
    ((borrowedBooks start s).map PopularBook.checkoutCount).sum =
      s.borrowRecords.count (fun r => r.bookId ∈ s.listed.map Book.id && inWindow start r) := by
  have hdrop : ∀ l : List PopularBook,
      ((l.filter (fun row => 0 < row.checkoutCount)).map PopularBook.checkoutCount).sum =
        (l.map PopularBook.checkoutCount).sum := by
    intro l
    induction l with
    | nil => rfl
    | cons row l ih =>
      by_cases hrow : 0 < row.checkoutCount
      · simp [hrow, ih]
      · simp [ih, Nat.eq_zero_of_not_pos hrow]
  have hsum := Grouping.sum_countP (f := BorrowRecord.bookId) (p := inWindow start) _
    (listed_nodup s) s.borrowRecords.rows
  rw [List.map_map] at hsum
  rw [borrowedBooks, hdrop, List.map_map, Table.count, ← hsum]
  rfl

/-- The groups are the books that were borrowed. -/
theorem borrowedBooks_length (hlisted : ∀ r ∈ s.borrowRecords.rows, inWindow start r →
    ∃ b ∈ s.listed, b.id = r.bookId) :
    (borrowedBooks start s).length =
      ((s.borrowRecords.rows.filter (inWindow start)).map BorrowRecord.bookId).dedup.length := by
  have hids : (borrowedBooks start s).map PopularBook.bookId =
      (s.listed.filter (fun b => 0 < s.borrowRecords.count
        (fun r => r.bookId = b.id && inWindow start r))).map Book.id := by
    rw [borrowedBooks, List.filter_map, List.map_map]
    rfl
  have hnodup : ((borrowedBooks start s).map PopularBook.bookId).Nodup := by
    rw [hids]
    exact (listed_nodup s).sublist (List.filter_sublist.map _)
  have hperm : ((borrowedBooks start s).map PopularBook.bookId).Perm
      ((s.borrowRecords.rows.filter (inWindow start)).map BorrowRecord.bookId).dedup := by
    refine (List.perm_ext_iff_of_nodup hnodup (List.nodup_dedup _)).mpr fun id => ?_
    simp only [List.mem_dedup, List.mem_map, List.mem_filter]
    constructor
    · rintro ⟨row, hrow, rfl⟩
      obtain ⟨b, hb, hne, rfl⟩ := mem_borrowedBooks.mp hrow
      obtain ⟨r, hr, hin, hbook⟩ := count_book_ne_zero.mp hne
      exact ⟨r, ⟨hr, hin⟩, hbook⟩
    · rintro ⟨r, ⟨hr, hin⟩, rfl⟩
      obtain ⟨b, hb, hid⟩ := hlisted r hr hin
      exact ⟨_, mem_borrowedBooks.mpr ⟨b, hb, count_book_ne_zero.mpr ⟨r, hr, hin, hid.symm⟩, rfl⟩,
        hid⟩
  simpa using hperm.length_eq

/-- Five groups hold all the loans of the window only if there are no more groups, and no loans
outside of them. -/
theorem top_five_sum_iff {l : List PopularBook} (hl : l.Perm (borrowedBooks start s)) :
    ((l.take 5).map PopularBook.checkoutCount).sum = windowLoans start s ↔ FewTitles start s := by
  have hpos : ∀ x ∈ l.map PopularBook.checkoutCount, 0 < x := by
    intro x hx
    obtain ⟨row, hrow, rfl⟩ := List.mem_map.mp hx
    obtain ⟨b, _, hne, rfl⟩ := mem_borrowedBooks.mp (hl.mem_iff.mp hrow)
    exact Nat.pos_of_ne_zero hne
  have htake := Grouping.sum_take_eq_iff hpos 5
  have hsplit : (l.map PopularBook.checkoutCount).sum =
      ((l.map PopularBook.checkoutCount).take 5).sum +
        ((l.map PopularBook.checkoutCount).drop 5).sum := by
    rw [← List.sum_append, List.take_append_drop]
  have hsum := (hl.map PopularBook.checkoutCount).sum_eq.trans (borrowedBooks_sum start s)
  have hle := count_listed_le (s := s) s.borrowRecords BorrowRecord.bookId (inWindow start)
  have hall := Grouping.countP_and_eq_iff (p := inWindow start) s.borrowRecords.rows
    (fun r => r.bookId ∈ s.listed.map Book.id)
  have hlisted : (∀ r ∈ s.borrowRecords.rows, inWindow start r →
      decide (r.bookId ∈ s.listed.map Book.id) = true) ↔
      ∀ r ∈ s.borrowRecords.rows, inWindow start r → ∃ b ∈ s.listed, b.id = r.bookId := by
    simp
  rw [hlisted] at hall
  have hlength : (l.map PopularBook.checkoutCount).length = (borrowedBooks start s).length := by
    rw [List.length_map, hl.length_eq]
  unfold Table.count at hsum hle
  rw [List.map_take, windowLoans, Table.count]
  constructor
  · intro htotal
    have hmem := hall.mp (by omega)
    refine ⟨hmem, ?_⟩
    rw [← borrowedBooks_length hmem, ← hlength]
    exact htake.mp (by omega)
  · rintro ⟨hmem, hfew⟩
    rw [← borrowedBooks_length hmem, ← hlength] at hfew
    rw [htake.mpr hfew, hsum]
    exact hall.mpr hmem

/-- The total of a summary is the number of loans of the window, and for thirty days that of the
velocity, exactly when the list of the popular books leaves no loan out. -/
theorem window_total_iff (env : DashboardEnv) (days : Int) (s : DB) :
    ∃ r, call (DashboardService.getSummary env days) s = (.ok r, s) ∧
      (r.circulation.totalBorrowsInWindow = windowLoans (startOfWindow (env.clock 2) days) s ↔
        FewTitles (startOfWindow (env.clock 2) days) s) ∧
      (days = 30 → env.clock 3 = env.clock 2 →
        (r.circulation.totalBorrowsInWindow = r.circulation.borrowingVelocity.last30Days ↔
          FewTitles (startOfWindow (env.clock 2) days) s)) := by
  obtain ⟨r, hr, hparts⟩ := call_getSummary env days s
  have hbooks := hparts.popularBooks
  have hsorted := (env.popularOrder.arranged (popularKey env.collation)
    (borrowedBooks (startOfWindow (env.clock 2) days) s)).1
  have hiff := top_five_sum_iff hsorted
  rw [← hbooks, ← hparts.total] at hiff
  refine ⟨r, hr, hiff, ?_⟩
  rintro rfl hclock
  rw [hparts.velocity, hclock]
  exact hiff

/-- Six books, each borrowed once. -/
def demoSixTitles : DB :=
  serial ⟨48⟩ [(demoEnv 1 0, .createBook "Emma" "Austen" "9780141439587" 1 none),
    (demoEnv 2 0, .createBook "Persuasion" "Austen" "9780141439686" 1 none),
    (demoEnv 3 0, .createBook "Middlemarch" "Eliot" "9780141439549" 1 none),
    (demoEnv 4 0, .createBook "Villette" "Bronte" "9780140434798" 1 none),
    (demoEnv 5 0, .createBook "Cranford" "Gaskell" "9780141439884" 1 none),
    (demoEnv 6 0, .createBook "Evelina" "Burney" "9780140433470" 1 none),
    (demoEnv 100 hour, .borrowBook 10 1), (demoEnv 101 hour, .borrowBook 10 2),
    (demoEnv 102 hour, .borrowBook 10 3), (demoEnv 103 hour, .borrowBook 11 4),
    (demoEnv 104 hour, .borrowBook 11 5), (demoEnv 105 hour, .borrowBook 11 6)] demoStart

/-- The total of the window is five. -/
theorem sixth_title_lost :
    ¬∀ s env days, ∃ r, call (DashboardService.getSummary env days) s = (.ok r, s) ∧
      r.circulation.totalBorrowsInWindow = windowLoans (startOfWindow (env.clock 2) days) s := by
  intro hclaim
  obtain ⟨r, hr, htotal⟩ := hclaim demoSixTitles demoDashboardEnv 30
  rw [(getSummary_ok hr).total, (getSummary_ok hr).popularBooks] at htotal
  exact absurd htotal (by decide)

end LibraryPlatform

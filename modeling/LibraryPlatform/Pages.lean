import LibraryPlatform.BookSearch
import LibraryPlatform.Sorting

/-!
# Pages of a listing

Every page is a request of its own, and the database may order the rows anew for each. The pages
partition the listing as long as no page ends between rows that the order does not tell apart.
-/
namespace LibraryPlatform

open KeyedTable Transaction Arrangement

def BorrowService.getBorrowHistory (order : RowOrder BorrowRecord) (memberId : UUID)
    (page pageSize : Nat) : Tx (List BorrowRecord) :=
  BorrowRecordRepository.getHistoryByMemberId order memberId ((page - 1) * pageSize) pageSize

/-- The pages that cover `n` rows. -/
def pageCount (n pageSize : Nat) : Nat := (n + pageSize - 1) / pageSize

/-- The requests for the pages from 1 on bring every row, and each once. -/
def PagesPartition {ρ : Type} (request : Nat → Tx (List ρ)) (pageSize : Nat) (rows : List ρ)
    (s : DB) : Prop :=
  ∃ pages : Nat → List ρ, (∀ p, call (request p) s = (.ok (pages p), s)) ∧
    ((List.range (pageCount rows.length pageSize)).flatMap fun p => pages (p + 1)).Perm rows

variable {ρ : Type} {rules : TextRules} {query author genre : Option String} {s : DB}
  {memberId : UUID} {pageSize n : Nat} {rows : List ρ}

theorem pageCount_covers (h : 1 ≤ pageSize) (n : Nat) : n ≤ pageCount n pageSize * pageSize := by
  have hdiv := Nat.div_add_mod (n + pageSize - 1) pageSize
  have hmod := Nat.mod_lt (n + pageSize - 1) h
  rw [pageCount, Nat.mul_comm]
  omega

theorem pagesPartition_iff {request : Nat → Tx (List ρ)} {pages : Nat → List ρ}
    (h : ∀ p, call (request p) s = (.ok (pages p), s)) :
    PagesPartition request pageSize rows s ↔
      ((List.range (pageCount rows.length pageSize)).flatMap fun p => pages (p + 1)).Perm rows := by
  constructor
  · rintro ⟨pages', h', hperm⟩
    have hsame : pages' = pages :=
      funext fun p => Except.ok.inj (congrArg Prod.fst ((h' p).symm.trans (h p)))
    rwa [hsame] at hperm
  · exact fun hperm => ⟨pages, h, hperm⟩

/-- Each page is cut out of an order of its own. -/
theorem sorted_pages_iff [DecidableEq ρ] {κ : Type} [LinearOrder κ] (key : ρ → κ)
    (hrows : rows.Nodup) (h : 1 ≤ pageSize) :
    (∀ orders : Nat → RowOrder ρ, ((List.range (pageCount rows.length pageSize)).flatMap fun p =>
      page pageSize (((orders (p + 1)).apply rows).insertionSort
        (fun a b => key a ≤ key b)) p).Perm rows) ↔
    ∀ a ∈ rows, ∀ p, ¬Split key rows pageSize p (key a) := by
  rw [← pages_perm_iff hrows (pageCount_covers h rows.length)]
  constructor
  · intro hall l hl
    have hperm := hall fun p => .giving rows (l (p - 1)) (hl (p - 1)).1
    simp only [Nat.add_sub_cancel, RowOrder.giving_sorted (hl _)] at hperm
    exact hperm
  · exact fun hall orders => hall _ fun p => (orders (p + 1)).arranged key rows

/-! ## Books -/

/-- The items of a page of `GET /books`. -/
def booksPage (rules : TextRules) (orders : Nat → RowOrder Book)
    (query author genre : Option String) (pageSize page : Nat) : Tx (List Book) :=
  PaginatedDataEnvelope.items <$>
    searchBooksRoute rules (orders page) page pageSize query author genre

theorem call_booksPage (rules : TextRules) (orders : Nat → RowOrder Book)
    (query author genre : Option String) (pageSize p : Nat) (s : DB) :
    call (booksPage rules orders query author genre pageSize p) s =
      (.ok ((((orders p).apply (matching rules query author genre s)).drop
        ((p - 1) * pageSize)).take pageSize), s) := rfl

/-- Nothing is sorted: every boundary with rows on either side runs through them. -/
theorem split_unit {p : Nat} :
    Split (fun _ : ρ => ()) rows pageSize p () ↔ 0 < p * pageSize ∧ p * pageSize < rows.length := by
  simp [Split, before, upTo]

theorem books_pages_iff (h : 1 ≤ pageSize) :
    (∀ orders, PagesPartition (booksPage rules orders query author genre pageSize) pageSize
      (matching rules query author genre s) s) ↔
    (matching rules query author genre s).length ≤ pageSize := by
  simp only [pagesPartition_iff fun p => call_booksPage rules _ query author genre pageSize p s]
  have hrows : (matching rules query author genre s).Nodup := s.books.unique.of_map.filter _
  generalize matching rules query author genre s = rows at hrows ⊢
  have hsorted := sorted_pages_iff (fun _ : Book => ()) hrows h
  have hunsorted : ∀ l : List Book, l.insertionSort (fun _ _ => () ≤ ()) = l :=
    fun l => List.Pairwise.insertionSort_eq (List.pairwise_of_forall fun _ _ => le_refl _)
  simp only [hunsorted, split_unit, page] at hsorted
  simp only [Nat.add_sub_cancel]
  rw [hsorted]
  constructor
  · intro hnone
    by_contra hlong
    obtain ⟨a, ha⟩ := List.exists_mem_of_length_pos (l := rows) (by omega)
    exact hnone a ha 1 ⟨by omega, by omega⟩
  · rintro hshort a - p ⟨hpos, hlt⟩
    have hp : 0 < p := Nat.pos_of_ne_zero fun h0 => by simp [h0] at hpos
    have hle := Nat.le_mul_of_pos_left pageSize hp
    omega

/-! ## Loans -/

/-- The loans of a member. -/
def loansOf (memberId : UUID) (s : DB) : List BorrowRecord :=
  s.borrowRecords.rows.filter (fun r => r.memberId = memberId)

/-- A page ends between two loans of the date of `r`. -/
def SplitDate (rows : List BorrowRecord) (pageSize p : Nat) (r : BorrowRecord) : Prop :=
  rows.countP (fun q => r.borrowDate < q.borrowDate) < p * pageSize ∧
    p * pageSize < rows.countP (fun q => r.borrowDate ≤ q.borrowDate)

theorem call_getBorrowHistory (order : RowOrder BorrowRecord) (memberId : UUID) (p pageSize : Nat)
    (s : DB) :
    call (BorrowService.getBorrowHistory order memberId p pageSize) s =
      (.ok ((((order.apply (loansOf memberId s)).insertionSort (fun a b =>
        OrderDual.toDual a.borrowDate ≤ OrderDual.toDual b.borrowDate)).drop
          ((p - 1) * pageSize)).take pageSize), s) := rfl

theorem history_pages_iff (h : 1 ≤ pageSize) :
    (∀ orders : Nat → RowOrder BorrowRecord, PagesPartition
      (fun p => BorrowService.getBorrowHistory (orders p) memberId p pageSize) pageSize
      (loansOf memberId s) s) ↔
    ∀ r ∈ loansOf memberId s, ∀ p, ¬SplitDate (loansOf memberId s) pageSize p r := by
  simp only [pagesPartition_iff fun p => call_getBorrowHistory _ memberId p pageSize s]
  have hrows : (loansOf memberId s).Nodup := s.borrowRecords.unique.of_map.filter _
  generalize loansOf memberId s = rows at hrows ⊢
  have hsorted := sorted_pages_iff (fun r : BorrowRecord => OrderDual.toDual r.borrowDate) hrows h
  simp only [page] at hsorted
  simp only [Nat.add_sub_cancel]
  exact hsorted

/-- The pages of the search partition the books that match exactly when they fit on one page, and
the pages of the history exactly when no page ends between loans of one date. -/
theorem pages_partition_iff (h : 1 ≤ pageSize) (rules : TextRules)
    (query author genre : Option String) (memberId : UUID) (s : DB) :
    ((∀ orders, PagesPartition (booksPage rules orders query author genre pageSize) pageSize
      (matching rules query author genre s) s) ↔
        (matching rules query author genre s).length ≤ pageSize) ∧
    ((∀ orders : Nat → RowOrder BorrowRecord, PagesPartition
      (fun p => BorrowService.getBorrowHistory (orders p) memberId p pageSize) pageSize
      (loansOf memberId s) s) ↔
        ∀ r ∈ loansOf memberId s, ∀ p, ¬SplitDate (loansOf memberId s) pageSize p r) :=
  ⟨books_pages_iff h, history_pages_iff h⟩

/-- A member has borrowed two books, one after the other. -/
def demoTwoLoans : DB :=
  serial ⟨48⟩ [(demoEnv 1 0, .createBook "Emma" "Austen" "9780141439587" 1 none),
    (demoEnv 2 0, .createBook "Villette" "Bronte" "9780140434798" 1 none),
    (demoEnv 100 hour, .borrowBook 10 1), (demoEnv 101 (2 * hour), .borrowBook 10 2)] demoStart

/-- The two loans come on a page each. -/
theorem pages_partition_demo :
    PagesPartition (fun p => BorrowService.getBorrowHistory .stored 10 p 1) 1
      (loansOf 10 demoTwoLoans) demoTwoLoans := by
  refine (pages_partition_iff (le_refl 1) demoRules none none none 10 demoTwoLoans).2.mpr ?_
    fun _ => .stored
  have hcounts : ∀ r ∈ loansOf 10 demoTwoLoans,
      (loansOf 10 demoTwoLoans).countP (fun q => r.borrowDate ≤ q.borrowDate) =
        (loansOf 10 demoTwoLoans).countP (fun q => r.borrowDate < q.borrowDate) + 1 := by decide
  rintro r hr p ⟨hlow, hhigh⟩
  rw [hcounts r hr] at hhigh
  omega

/-- The database has turned the rows over when it is asked for the second page. -/
def demoTurned (page : Nat) : RowOrder Book := if page = 1 then .stored else .reversed

/-- The first book comes on both pages, and the second on none. -/
theorem page_repeats :
    ¬∀ rules query author genre memberId pageSize s, Runs ⟨48⟩ AnyOp s → 1 ≤ pageSize →
      (∀ orders, PagesPartition (booksPage rules orders query author genre pageSize) pageSize
        (matching rules query author genre s) s) ∧
      ∀ orders : Nat → RowOrder BorrowRecord, PagesPartition
        (fun p => BorrowService.getBorrowHistory (orders p) memberId p pageSize) pageSize
        (loansOf memberId s) s := by
  intro hclaim
  have hpages := (hclaim demoRules none none none 10 1 demoTwoLoans
    (demoStart_runs.serial _ fun _ _ _ => trivial) (le_refl 1)).1 demoTurned
  rw [pagesPartition_iff fun p => call_booksPage demoRules _ none none none 1 p _] at hpages
  revert hpages
  decide

end LibraryPlatform

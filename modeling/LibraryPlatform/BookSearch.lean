import Mathlib.Data.List.Range
import LibraryPlatform.Like
import LibraryPlatform.Operations

/-!
# The search for books

`search_books` puts what the user typed between two wildcards and does not escape it. The
search is one for substrings as long as nobody types a wildcard.
-/
namespace LibraryPlatform

open KeyedTable Transaction

/-- A backslash escapes unless the server is told otherwise. -/
def likeWildcards (backslashEscapes : Bool) : Like.Wildcards Char :=
  ⟨'%', '_', if backslashEscapes then some '\\' else none, by decide⟩

/-- How the database treats texts: `lower` maps letters only. -/
structure TextRules where
  backslashEscapes : Bool
  lower : Char → Char
  respects : Like.Respects (likeWildcards backslashEscapes) lower

namespace TextRules

def lowered (rules : TextRules) (text : String) : List Char := text.toList.map rules.lower

/-- `lower(column) LIKE concat('%', lower(value), '%')`. -/
def icontains (rules : TextRules) (column value : String) : Bool :=
  Like.finds (likeWildcards rules.backslashEscapes) (rules.lowered value) (rules.lowered column)

end TextRules

/-- What the user has typed; an empty text is no filter. -/
def given (o : Option String) : Option String := o.filter (fun x => x ≠ "")

namespace BookRepository

/-- The filters of the search. A book without a genre does not match any. -/
def isMatch (rules : TextRules) (query author genre : Option String) (b : Book) : Bool :=
  !b.isDeleted &&
  (given query).elim true (fun x =>
    rules.icontains b.title x || rules.icontains b.author x || rules.icontains b.isbn x) &&
  (given author).elim true (fun x => rules.icontains b.author x) &&
  (given genre).elim true (fun x => b.genre.elim false (fun g => rules.icontains g x))

/-- The statement has no `ORDER BY`. -/
def searchBooks (rules : TextRules) (order : RowOrder Book) (query author genre : Option String)
    (skip limit : Nat) : Tx (List Book) :=
  select (fun db => ((order.apply
    (db.books.rows.filter (isMatch rules query author genre))).drop skip).take limit)

end BookRepository

namespace BookService

def searchBooks (rules : TextRules) (order : RowOrder Book) (query author genre : Option String)
    (skip limit : Nat) : Tx (List Book) :=
  BookRepository.searchBooks rules order query author genre skip limit

end BookService

structure PaginatedDataEnvelope where
  items : List Book
  page : Nat
  pageSize : Nat
  total : Nat
  pages : Nat
  deriving DecidableEq

/-- `GET /books`. The total is that of the page. -/
def searchBooksRoute (rules : TextRules) (order : RowOrder Book) (page pageSize : Nat)
    (query author genre : Option String) : Tx PaginatedDataEnvelope := do
  let skip := (page - 1) * pageSize
  let items ← BookService.searchBooks rules order query author genre skip pageSize
  let totalRecords := items.length
  let totalPages := if totalRecords ≤ pageSize then 1 else (totalRecords + pageSize - 1) / pageSize
  pure ⟨items, page, pageSize, totalRecords, totalPages⟩

/-! ## Substrings -/

variable {rules : TextRules} {query author genre : Option String} {s : DB} {x : String}

/-- The value occurs in the column, whatever the case of the letters. -/
def Occurs (rules : TextRules) (column value : String) : Prop :=
  rules.lowered value <:+: rules.lowered column

/-- What the search is for. -/
structure SubstringMatch (rules : TextRules) (query author genre : Option String) (b : Book) :
    Prop where
  listed : b.isDeleted = false
  query : ∀ x, given query = some x →
    Occurs rules b.title x ∨ Occurs rules b.author x ∨ Occurs rules b.isbn x
  author : ∀ x, given author = some x → Occurs rules b.author x
  genre : ∀ x, given genre = some x → ∃ g, b.genre = some g ∧ Occurs rules g x

/-- Whatever the table and the order, the search returns the books that match, each once. -/
def SearchesSubstrings (rules : TextRules) (query author genre : Option String) : Prop :=
  ∀ (s : DB) (order : RowOrder Book) (limit : Nat), s.books.rows.length ≤ limit →
    ∃ l, call (BookService.searchBooks rules order query author genre 0 limit) s = (.ok l, s) ∧
      l.Nodup ∧ ∀ b, b ∈ l ↔ b ∈ s.books.rows ∧ SubstringMatch rules query author genre b

/-- The text has no wildcard and nothing that escapes one. -/
def Literal (rules : TextRules) (x : String) : Prop :=
  Like.Plain (likeWildcards rules.backslashEscapes) x.toList

theorem icontains_iff (h : Literal rules x) (column : String) :
    rules.icontains column x ↔ Occurs rules column x :=
  Like.finds_plain (rules.respects.plain.mpr h)

/-- A text that the pattern made of `x` finds. -/
def sampleText (rules : TextRules) (x : String) : String :=
  String.ofList (Like.sample (likeWildcards rules.backslashEscapes) x.toList)

theorem lowered_sampleText (rules : TextRules) (x : String) :
    rules.lowered (sampleText rules x) =
      Like.sample (likeWildcards rules.backslashEscapes) (rules.lowered x) := by
  rw [TextRules.lowered, sampleText, String.toList_ofList, ← rules.respects.sample]
  rfl

theorem icontains_sampleText (rules : TextRules) (x : String) :
    rules.icontains (sampleText rules x) x := by
  rw [TextRules.icontains, lowered_sampleText]
  exact Like.finds_sample _ _

theorem occurs_sampleText : Occurs rules (sampleText rules x) x ↔ Literal rules x := by
  rw [Occurs, lowered_sampleText, Like.infix_sample_iff]
  exact rules.respects.plain

/-- What occurs in a text without wildcards has none. -/
theorem Occurs.literal {column : String} (h : Occurs rules column x)
    (hcolumn : Literal rules column) : Literal rules x := by
  refine rules.respects.plain.mp fun c hc => ?_
  exact rules.respects.plain.mpr hcolumn c (h.subset hc)

theorem literal_empty (rules : TextRules) : Literal rules "" := List.forall_mem_nil _

theorem given_eq_some {o : Option String} : given o = some x ↔ o = some x ∧ x ≠ "" := by
  simp [given, Option.filter_eq_some_iff]

/-- Every filter that is given is literal. -/
def LiteralFilters (rules : TextRules) (query author genre : Option String) : Prop :=
  ∀ x, some x ∈ [query, author, genre] → Literal rules x

theorem LiteralFilters.match_iff (h : LiteralFilters rules query author genre) (b : Book) :
    BookRepository.isMatch rules query author genre b ↔
      SubstringMatch rules query author genre b := by
  have hgiven : ∀ o ∈ [query, author, genre], ∀ x, given o = some x → Literal rules x :=
    fun o ho x hx => h x ((given_eq_some.mp hx).1 ▸ ho)
  have hquery : ∀ x, given query = some x → ∀ column, rules.icontains column x ↔
      Occurs rules column x := fun x hx => icontains_iff (hgiven query (by simp) x hx)
  have hauthor : ∀ x, given author = some x → ∀ column, rules.icontains column x ↔
      Occurs rules column x := fun x hx => icontains_iff (hgiven author (by simp) x hx)
  have hgenre : ∀ x, given genre = some x → ∀ column, rules.icontains column x ↔
      Occurs rules column x := fun x hx => icontains_iff (hgiven genre (by simp) x hx)
  unfold BookRepository.isMatch
  simp only [Bool.and_eq_true, Bool.not_eq_true']
  constructor
  · rintro ⟨⟨⟨hdel, hq⟩, ha⟩, hg⟩
    refine ⟨hdel, fun x hx => ?_, fun x hx => ?_, fun x hx => ?_⟩
    · simpa [hx, hquery x hx, or_assoc] using hq
    · simpa [hx, hauthor x hx] using ha
    · rw [hx, Option.elim_some] at hg
      cases hb : b.genre with
      | none => simp [hb] at hg
      | some g => exact ⟨g, rfl, (hgenre x hx g).mp (by simpa [hb] using hg)⟩
  · rintro ⟨hdel, hq, ha, hg⟩
    refine ⟨⟨⟨hdel, ?_⟩, ?_⟩, ?_⟩
    · cases hx : given query with
      | none => rfl
      | some x => simpa [hquery x hx, or_assoc] using hq x hx
    · cases hx : given author with
      | none => rfl
      | some x => simpa [hauthor x hx] using ha x hx
    · cases hx : given genre with
      | none => rfl
      | some x =>
        obtain ⟨g, hb, hoccurs⟩ := hg x hx
        simpa [hb] using (hgenre x hx g).mpr hoccurs

/-- A book that the search finds by its texts, though they do not contain a filter that has
wildcards. -/
def sampleBook (rules : TextRules) (query author genre : Option String) : Book :=
  ⟨1, "", sampleText rules (query.getD ""), sampleText rules (author.getD ""),
    some (sampleText rules (genre.getD "")), 0, 0, false, none⟩

/-- The table that holds just this book. -/
def sampleTable (rules : TextRules) (query author genre : Option String) : DB :=
  { DB.empty .ignoringCase with books := Table.empty.put (sampleBook rules query author genre) }

theorem sampleBook_found (rules : TextRules) (query author genre : Option String) :
    BookRepository.isMatch rules query author genre (sampleBook rules query author genre) := by
  have hfound : ∀ o x, given o = some x → rules.icontains (sampleText rules (o.getD "")) x := by
    intro o x hx
    obtain ⟨rfl, _⟩ := given_eq_some.mp hx
    exact icontains_sampleText rules x
  unfold BookRepository.isMatch sampleBook
  simp only [Bool.and_eq_true, Option.elim_some]
  refine ⟨⟨⟨rfl, ?_⟩, ?_⟩, ?_⟩
  · cases hx : given query with
    | none => rfl
    | some x => simp [hfound query x hx]
  · cases hx : given author with
    | none => rfl
    | some x => simp [hfound author x hx]
  · cases hx : given genre with
    | none => rfl
    | some x => simp [hfound genre x hx]

theorem literal_getD {o : Option String} (h : ∀ x, given o = some x → Literal rules x) :
    Literal rules (o.getD "") := by
  cases o with
  | none => exact literal_empty rules
  | some x =>
    by_cases hx : x = ""
    · rw [hx]
      exact literal_empty rules
    · exact h x (given_eq_some.mpr ⟨rfl, hx⟩)

theorem sampleText_literal (h : Literal rules x) : sampleText rules x = x := by
  rw [sampleText, Like.sample_plain h, String.ofList_toList]

/-- The book contains the filters only if they have no wildcards. -/
theorem sampleBook_matches (h : SubstringMatch rules query author genre
    (sampleBook rules query author genre)) : LiteralFilters rules query author genre := by
  have hauthor : Literal rules (author.getD "") := by
    refine literal_getD fun x hx => ?_
    have hoccurs := h.author x hx
    obtain ⟨rfl, _⟩ := given_eq_some.mp hx
    exact occurs_sampleText.mp hoccurs
  have hgenre : Literal rules (genre.getD "") := by
    refine literal_getD fun x hx => ?_
    obtain ⟨g, hg, hoccurs⟩ := h.genre x hx
    obtain rfl := Option.some.inj hg
    obtain ⟨rfl, _⟩ := given_eq_some.mp hx
    exact occurs_sampleText.mp hoccurs
  have hquery : Literal rules (query.getD "") := by
    refine literal_getD fun x hx => ?_
    rcases h.query x hx with hoccurs | hoccurs | hoccurs
    · obtain ⟨rfl, _⟩ := given_eq_some.mp hx
      exact occurs_sampleText.mp hoccurs
    -- the other two texts of the book are literal, and so is what occurs in them
    · refine hoccurs.literal (?_ : Literal rules (sampleText rules (author.getD "")))
      rwa [sampleText_literal hauthor]
    · exact hoccurs.literal (literal_empty rules)
  intro x hx
  simp only [List.mem_cons, List.not_mem_nil, or_false] at hx
  rcases hx with rfl | rfl | rfl
  · exact hquery
  · exact hauthor
  · exact hgenre

/-- The rows that the statement selects. -/
def matching (rules : TextRules) (query author genre : Option String) (s : DB) : List Book :=
  s.books.rows.filter (BookRepository.isMatch rules query author genre)

theorem call_searchBooks (rules : TextRules) (order : RowOrder Book)
    (query author genre : Option String) (skip limit : Nat) (s : DB) :
    call (BookService.searchBooks rules order query author genre skip limit) s =
      (.ok (((order.apply (matching rules query author genre s)).drop skip).take limit), s) := rfl

/-- The search is one for substrings, on every table of books, exactly when no filter has a
wildcard or an escape. -/
theorem search_substrings_iff (rules : TextRules) (query author genre : Option String) :
    SearchesSubstrings rules query author genre ↔ LiteralFilters rules query author genre := by
  constructor
  · intro h
    obtain ⟨l, hl, _, hmem⟩ := h (sampleTable rules query author genre) .stored 1 (le_refl 1)
    have hrows : matching rules query author genre (sampleTable rules query author genre) =
        [sampleBook rules query author genre] :=
      List.filter_cons_of_pos (sampleBook_found rules query author genre)
    rw [call_searchBooks, hrows] at hl
    have hfound : sampleBook rules query author genre ∈ l := by
      rw [← Except.ok.inj (congrArg Prod.fst hl)]
      exact List.mem_singleton_self _
    exact sampleBook_matches ((hmem _).mp hfound).2
  · intro h s order limit hlimit
    have hperm := order.perm (matching rules query author genre s)
    have hlength : (order.apply (matching rules query author genre s)).length ≤ limit := by
      rw [hperm.length_eq]
      exact (List.length_filter_le _ _).trans hlimit
    refine ⟨_, ?_, hperm.nodup_iff.mpr (s.books.unique.of_map.filter _), fun b => ?_⟩
    · rw [call_searchBooks, List.drop_zero, List.take_of_length_le hlength]
    · rw [hperm.mem_iff, matching, List.mem_filter, h.match_iff]

/-- Only letters are lowered. -/
theorem toLower_eq_iff {e : Char} (he : e.val.toNat < 65 ∨ 90 < e.val.toNat ∧ e.val.toNat < 97)
    (c : Char) : c.toLower = e ↔ c = e := by
  unfold Char.toLower
  split
  · rename_i h
    have hlow : 65 ≤ c.val.toNat := UInt32.le_iff_toNat_le.mp h.1
    have hhigh : c.val.toNat ≤ 90 := UInt32.le_iff_toNat_le.mp h.2
    constructor
    · rintro rfl
      have hval : (c.val + ('a'.val - 'A'.val)).toNat = c.val.toNat + 32 := by
        rw [UInt32.toNat_add, show ('a'.val - 'A'.val).toNat = 32 from rfl]
        omega
      simp only [hval] at he
      omega
    · rintro rfl
      omega
  · rfl

/-- Letters of ASCII, and backslashes that escape. -/
def demoRules : TextRules where
  backslashEscapes := true
  lower := Char.toLower
  respects := by
    refine ⟨toLower_eq_iff (by decide), toLower_eq_iff (by decide), fun c => ?_⟩
    simp only [likeWildcards, ↓reduceIte, Option.some.injEq, eq_comm (a := '\\')]
    exact toLower_eq_iff (by decide) c

def demoEmma : Book := ⟨1, "9780141439587", "Emma", "Austen", none, 1, 1, false, none⟩

/-- Who looks for an underscore is shown a book without one. -/
theorem underscore_finds_all :
    ¬∀ rules query author genre, SearchesSubstrings rules query author genre := by
  intro hclaim
  obtain ⟨l, hl, _, hmem⟩ := hclaim demoRules (some "_") none none
    { DB.empty .ignoringCase with books := Table.empty.put demoEmma } .stored 1 (le_refl 1)
  rw [call_searchBooks] at hl
  have hfound : demoEmma ∈ l := by
    rw [← Except.ok.inj (congrArg Prod.fst hl)]
    decide
  have hoccurs := ((hmem demoEmma).mp hfound).2.query "_" rfl
  revert hoccurs
  unfold Occurs
  decide

end LibraryPlatform

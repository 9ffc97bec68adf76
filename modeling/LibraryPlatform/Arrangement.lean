import Mathlib.Data.List.Perm.Basic
import Mathlib.Data.List.Sort
import Mathlib.Data.List.Nodup
import Mathlib.Order.Lattice

/-!
# Rows sorted by a key

A sort by a key leaves open how rows of equal keys come. What is cut out of the sorted rows, a
prefix or a page, is the same for every such order unless a cut runs through equal keys.
-/
namespace Arrangement

variable {ρ κ : Type} [LinearOrder κ] {key : ρ → κ} {rows l l' : List ρ} {k : κ} {i j n s : Nat}

/-- An order in which a sort by the key may give the rows. -/
def Arranged (key : ρ → κ) (rows l : List ρ) : Prop :=
  l.Perm rows ∧ l.Pairwise (fun a b => key a ≤ key b)

/-- The number of rows that come before those of the key. -/
def before (key : ρ → κ) (rows : List ρ) (k : κ) : Nat := rows.countP (fun r => key r < k)

/-- The number of rows up to the last one of the key. -/
def upTo (key : ρ → κ) (rows : List ρ) (k : κ) : Nat := rows.countP (fun r => key r ≤ k)

theorem upTo_le (key : ρ → κ) (rows : List ρ) (k : κ) : upTo key rows k ≤ rows.length :=
  List.countP_le_length

/-! ## Sorting -/

theorem arranged_sort {p : List ρ} (h : p.Perm rows) :
    Arranged key rows (p.insertionSort (fun a b => key a ≤ key b)) := by
  have : Std.Total (fun a b : ρ => key a ≤ key b) := ⟨fun a b => le_total (key a) (key b)⟩
  have : IsTrans ρ (fun a b => key a ≤ key b) := ⟨fun _ _ _ h h' => le_trans h h'⟩
  exact ⟨(List.perm_insertionSort _ _).trans h, List.pairwise_insertionSort _ _⟩

theorem Arranged.sort_eq (h : Arranged key rows l) :
    l.insertionSort (fun a b => key a ≤ key b) = l := h.2.insertionSort_eq

/-- The keys come in one order only. -/
theorem Arranged.map_eq (h : Arranged key rows l) (h' : Arranged key rows l') :
    l.map key = l'.map key := by
  refine List.Perm.eq_of_pairwise' (r := (· ≤ ·)) ?_ ?_ ((h.1.trans h'.1.symm).map key)
  · exact List.pairwise_map.mpr h.2
  · exact List.pairwise_map.mpr h'.2

theorem Arranged.of_map (h : Arranged key rows l) (hp : l'.Perm l)
    (hmap : l'.map key = l.map key) : Arranged key rows l' := by
  refine ⟨hp.trans h.1, List.pairwise_map.mp ?_⟩
  rw [hmap]
  exact List.pairwise_map.mpr h.2

/-! ## Places -/

/-- In a list whose first rows satisfy `p`, place `i` is one of theirs when there are more. -/
theorem getElem_iff_lt_countP {p : ρ → Bool} (h : l.Pairwise (fun a b => p b → p a))
    (hi : i < l.length) : p l[i] ↔ i < l.countP p := by
  induction l generalizing i with
  | nil => simp at hi
  | cons a l ih =>
    obtain ⟨ha, hl⟩ := List.pairwise_cons.mp h
    by_cases hp : p a
    · cases i with
      | zero => simp [hp]
      | succ i => simpa [hp] using ih hl (by simpa using hi)
    · have hnone : ∀ b ∈ l, ¬p b := fun b hb hpb => hp (ha b hb hpb)
      have hzero : (a :: l).countP p = 0 := by
        rw [List.countP_eq_zero]
        exact List.forall_mem_cons.mpr ⟨hp, hnone⟩
      rw [hzero]
      have hall : ∀ b ∈ a :: l, ¬p b := List.forall_mem_cons.mpr ⟨hp, hnone⟩
      exact ⟨fun hpi => absurd hpi (hall _ (List.getElem_mem hi)), fun hlt => by cases hlt⟩

theorem Arranged.lt_iff (h : Arranged key rows l) (hi : i < l.length) :
    key l[i] < k ↔ i < before key rows k := by
  have hplace := getElem_iff_lt_countP (p := fun r => key r < k)
    (h.2.imp fun hle hlt => by simpa using lt_of_le_of_lt hle (by simpa using hlt)) hi
  rw [h.1.countP_eq] at hplace
  simpa [before] using hplace

theorem Arranged.le_iff (h : Arranged key rows l) (hi : i < l.length) :
    key l[i] ≤ k ↔ i < upTo key rows k := by
  have hplace := getElem_iff_lt_countP (p := fun r => key r ≤ k)
    (h.2.imp fun hle hlt => by simpa using le_trans hle (by simpa using hlt)) hi
  rw [h.1.countP_eq] at hplace
  simpa [upTo] using hplace

/-- A row stands among those of its key. -/
theorem Arranged.place (h : Arranged key rows l) (hi : i < l.length) :
    before key rows (key l[i]) ≤ i ∧ i < upTo key rows (key l[i]) :=
  ⟨not_lt.mp fun hlt => lt_irrefl _ ((h.lt_iff hi).mpr hlt), (h.le_iff hi).mp (le_refl _)⟩

theorem Arranged.key_eq (h : Arranged key rows l) (hi : i < l.length)
    (hlow : before key rows k ≤ i) (hhigh : i < upTo key rows k) : key l[i] = k :=
  le_antisymm ((h.le_iff hi).mpr hhigh)
    (not_lt.mp fun hlt => not_lt.mpr hlow ((h.lt_iff hi).mp hlt))

/-- Rows of one key may change places. -/
theorem Arranged.swap (h : Arranged key rows l) (hi : i < l.length) (hj : j < l.length)
    (hkey : key l[i] = key l[j]) : Arranged key rows ((l.set i l[j]).set j l[i]) := by
  refine h.of_map (List.set_set_perm hi hj) ?_
  have hset : ∀ {m : List κ} {x : κ} {i : Nat} (hi : i < m.length), x = m[i] → m.set i x = m := by
    rintro m x i hi rfl
    exact List.set_getElem_self hi
  have hinner : (l.map key).set i (key l[j]) = l.map key :=
    hset (by simpa using hi) (by simpa using hkey.symm)
  rw [List.map_set, List.map_set, hinner, hset (by simpa using hj) (by simpa using hkey)]

/-! ## The first rows -/

/-- The first `n` rows are the same in every order exactly when no two rows of one key begin
before the cut. -/
theorem take_unique_iff (key : ρ → κ) (rows : List ρ) (n : Nat) :
    (∀ l l', Arranged key rows l → Arranged key rows l' → l.take n = l'.take n) ↔
      ∀ a ∈ rows, ∀ b ∈ rows, key a = key b → before key rows (key a) < n → a = b := by
  constructor
  · intro hunique a ha b hb hkey hcut
    have hl : Arranged key rows _ := arranged_sort (.refl rows)
    generalize rows.insertionSort (fun a b => key a ≤ key b) = l at hl
    -- the first row of the key can be exchanged for any other
    have hfirst : ∀ c ∈ rows, key c = key a → l[before key rows (key a)]? = some c := by
      intro c hc hca
      obtain ⟨j, hj, rfl⟩ := List.mem_iff_getElem.mp (hl.1.mem_iff.mpr hc)
      have hplace := hl.place hj
      rw [hca] at hplace
      have hi : before key rows (key a) < l.length := by omega
      have hki : key l[before key rows (key a)] = key a :=
        hl.key_eq hi (le_refl _) (lt_of_le_of_lt hplace.1 hplace.2)
      have hsame := hunique _ _ hl (hl.swap hj hi (hca.trans hki.symm))
      have hget := congrArg (fun m : List ρ => m[before key rows (key a)]?) hsame
      simp only [List.getElem?_take, if_pos hcut] at hget
      rw [hget, List.getElem?_set_self (by simpa using hi)]
    exact Option.some.inj ((hfirst a ha rfl).symm.trans (hfirst b hb hkey.symm))
  · intro hties l l' hl hl'
    have hlength : l.length = l'.length := (hl.1.trans hl'.1.symm).length_eq
    refine List.ext_getElem (by simp [hlength]) fun i hi hi' => ?_
    rw [List.getElem_take, List.getElem_take]
    obtain ⟨hin, hil⟩ : i < n ∧ i < l.length := by simpa using hi
    have hil' : i < l'.length := hlength ▸ hil
    have hkey : key l[i] = key l'[i] := by
      have hmap := hl.map_eq hl'
      have hget : (l.map key)[i]? = (l'.map key)[i]? := by rw [hmap]
      simpa [hil, hil'] using hget
    refine hties _ (hl.1.mem_iff.mp (List.getElem_mem hil)) _
      (hl'.1.mem_iff.mp (List.getElem_mem hil')) hkey ?_
    exact lt_of_le_of_lt (hl.place hil).1 hin

/-! ## Pages -/

/-- The page after `p` pages of `s` rows. -/
def page (s : Nat) (l : List ρ) (p : Nat) : List ρ := (l.drop (p * s)).take s

/-- The boundary after `p` pages runs through the rows of the key. -/
def Split (key : ρ → κ) (rows : List ρ) (s p : Nat) (k : κ) : Prop :=
  before key rows k < p * s ∧ p * s < upTo key rows k

theorem mem_page {s p : Nat} {a : ρ} :
    a ∈ page s l p ↔ ∃ i, ∃ hi : i < l.length, l[i] = a ∧ p * s ≤ i ∧ i < (p + 1) * s := by
  have hs : (p + 1) * s = p * s + s := Nat.succ_mul p s
  constructor
  · intro ha
    obtain ⟨j, hj, rfl⟩ := List.mem_iff_getElem.mp ha
    simp only [page, List.length_take, List.length_drop] at hj
    refine ⟨p * s + j, by omega, ?_, by omega, by omega⟩
    simp [page]
  · rintro ⟨i, hi, rfl, hlow, hhigh⟩
    refine List.mem_iff_getElem.mpr ⟨i - p * s, ?_, ?_⟩
    · simp only [page, List.length_take, List.length_drop]
      omega
    · simp only [page, List.getElem_take, List.getElem_drop]
      congr 1
      omega

theorem flatMap_page (l : List ρ) (s m : Nat) :
    (List.range m).flatMap (page s l) = l.take (m * s) := by
  induction m with
  | zero => simp
  | succ m ih =>
    rw [List.range_succ, List.flatMap_append, ih, Nat.succ_mul, List.take_add]
    simp [page]

/-- What is on a page when no boundary splits a key. -/
theorem Arranged.mem_page_iff (h : Arranged key rows l) {s p : Nat}
    (hsplit : ∀ a ∈ rows, ∀ p, ¬Split key rows s p (key a)) {a : ρ} :
    a ∈ page s l p ↔
      a ∈ rows ∧ p * s ≤ before key rows (key a) ∧ before key rows (key a) < (p + 1) * s := by
  rw [mem_page]
  constructor
  · rintro ⟨i, hi, rfl, hlow, hhigh⟩
    have hmem : l[i] ∈ rows := h.1.mem_iff.mp (List.getElem_mem hi)
    have hplace := h.place hi
    refine ⟨hmem, ?_, by omega⟩
    by_contra hlt
    exact hsplit _ hmem p ⟨by omega, by omega⟩
  · rintro ⟨ha, hlow, hhigh⟩
    obtain ⟨i, hi, rfl⟩ := List.mem_iff_getElem.mp (h.1.mem_iff.mpr ha)
    have hplace := h.place hi
    refine ⟨i, hi, rfl, by omega, ?_⟩
    by_contra hle
    exact hsplit _ ha (p + 1) ⟨hhigh, by omega⟩

theorem page_nodup {s p : Nat} (h : l.Nodup) : (page s l p).Nodup :=
  h.sublist ((List.take_sublist _ _).trans (List.drop_sublist _ _))

/-- Pages that are each cut out of an order of their own contain every row once, whatever the
orders, exactly when no boundary splits the rows of a key. -/
theorem pages_perm_iff (hrows : rows.Nodup) {m : Nat} (hm : rows.length ≤ m * s) :
    (∀ l : Nat → List ρ, (∀ p, Arranged key rows (l p)) →
      ((List.range m).flatMap fun p => page s (l p) p).Perm rows) ↔
    ∀ a ∈ rows, ∀ p, ¬Split key rows s p (key a) := by
  have hl : Arranged key rows _ := arranged_sort (.refl rows)
  generalize rows.insertionSort (fun a b => key a ≤ key b) = o at hl
  have ho : o.Nodup := hl.1.nodup_iff.mpr hrows
  constructor
  · rintro hall a - p ⟨hlow, hhigh⟩
    -- the last row of the page before and the first row of the page after change places
    have hle := upTo_le key rows (key a)
    have hlength := hl.1.length_eq
    have hs : 0 < s := Nat.pos_of_ne_zero fun h0 => by simp [h0] at hlow
    have hp : 0 < p := Nat.pos_of_ne_zero fun h0 => by simp [h0] at hlow
    have hpm : p < m := Nat.lt_of_mul_lt_mul_right (a := s) (by omega)
    obtain ⟨q, rfl⟩ : ∃ q, p = q + 1 := ⟨p - 1, by omega⟩
    have hmul : (q + 1) * s = q * s + s := Nat.succ_mul q s
    have hi : q * s + (s - 1) < o.length := by omega
    have hj : (q + 1) * s < o.length := by omega
    have hki : key o[q * s + (s - 1)] = key a := hl.key_eq hi (by omega) (by omega)
    have hkj : key o[(q + 1) * s] = key a := hl.key_eq hj (by omega) (by omega)
    have hswap := hl.swap hi hj (hki.trans hkj.symm)
    generalize hx : o[q * s + (s - 1)] = x at hswap
    have hperm := hall (fun r => if r = q + 1 then (o.set _ o[(q + 1) * s]).set _ x else o)
      (fun r => by split <;> assumption)
    have hdisjoint := (List.nodup_flatMap.mp (hperm.nodup_iff.mpr hrows)).2
    have hapart := List.pairwise_iff_getElem.mp hdisjoint q (q + 1) (by simp; omega) (by simpa)
      (by omega)
    simp only [List.getElem_range, Function.onFun, if_neg (Nat.succ_ne_self q).symm, ↓reduceIte]
      at hapart
    refine hapart (a := x) (mem_page.mpr ⟨_, hi, hx, by omega, by omega⟩) (mem_page.mpr
      ⟨(q + 1) * s, by simpa using hj, ?_, le_refl _, by rw [Nat.succ_mul (q + 1)]; omega⟩)
    simp
  · intro hsplit l hl'
    have hpage : ∀ p ∈ List.range m, (page s (l p) p).Perm (page s o p) := by
      intro p _
      refine (List.perm_ext_iff_of_nodup (page_nodup ((hl' p).1.nodup_iff.mpr hrows))
        (page_nodup ho)).mpr fun a => ?_
      rw [(hl' p).mem_page_iff hsplit, hl.mem_page_iff hsplit]
    refine (List.Perm.flatMap_left _ hpage).trans ?_
    rw [flatMap_page, List.take_of_length_le (by rw [hl.1.length_eq]; exact hm)]
    exact hl.1

end Arrangement

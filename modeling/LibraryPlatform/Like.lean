import Mathlib.Data.List.Infix

/-!
# Patterns with wildcards

The patterns of the SQL operator `LIKE`, over any alphabet. A text put between two wildcards for
any run of characters finds the texts that contain it, unless it has wildcards of its own.
-/
namespace Like

variable {α : Type} [DecidableEq α]

/-- The characters that a pattern does not take literally. -/
structure Wildcards (α : Type) where
  many : α
  one : α
  escape : Option α
  many_ne_one : many ≠ one

inductive Item (α : Type) where
  | exactly (c : α)
  | anyOne
  | anyMany
  deriving DecidableEq

def parse (w : Wildcards α) : List α → List (Item α)
  | [] => []
  | c :: cs =>
    if c = w.many then .anyMany :: parse w cs
    else if c = w.one then .anyOne :: parse w cs
    else if w.escape = some c then
      match cs with
      | [] => [.exactly c]
      | d :: ds => .exactly d :: parse w ds
    else .exactly c :: parse w cs

def accepts : List (Item α) → List α → Bool
  | [], t => t.isEmpty
  | .exactly c :: items, t =>
    match t with
    | [] => false
    | d :: t => d = c && accepts items t
  | .anyOne :: items, t =>
    match t with
    | [] => false
    | _ :: t => accepts items t
  | .anyMany :: items, t => t.tails.any fun u => accepts items u

/-- The text matches the pattern between two wildcards. -/
def finds (w : Wildcards α) (p t : List α) : Bool :=
  accepts (parse w (w.many :: p ++ [w.many])) t

def Special (w : Wildcards α) (c : α) : Prop := c = w.many ∨ c = w.one ∨ w.escape = some c

def Plain (w : Wildcards α) (p : List α) : Prop := ∀ c ∈ p, ¬Special w c

variable {w : Wildcards α} {p t : List α}

omit [DecidableEq α] in
theorem plain_cons {c : α} : Plain w (c :: p) ↔ ¬Special w c ∧ Plain w p := List.forall_mem_cons

theorem accepts_anyMany {items : List (Item α)} :
    accepts (.anyMany :: items) t ↔ ∃ u, u <:+ t ∧ accepts items u := by
  simp [accepts, List.mem_tails]

theorem parse_many : parse w (w.many :: p) = .anyMany :: parse w p := by
  rw [parse.eq_def]
  simp

theorem parse_one : parse w (w.one :: p) = .anyOne :: parse w p := by
  rw [parse.eq_def]
  simp [w.many_ne_one.symm]

theorem parse_literal {c : α} (h : ¬Special w c) :
    parse w (c :: p) = .exactly c :: parse w p := by
  simp only [Special, not_or] at h
  rw [parse.eq_def]
  simp [h]

theorem parse_escape {c d : α} (hmany : c ≠ w.many) (hone : c ≠ w.one) (h : w.escape = some c) :
    parse w (c :: d :: p) = .exactly d :: parse w p := by
  rw [parse.eq_def]
  simp [hmany, hone, h]

theorem accepts_all : accepts [.anyMany] t :=
  accepts_anyMany.mpr ⟨[], List.nil_suffix, rfl⟩

/-! ## Texts without wildcards -/

theorem parse_plain (h : Plain w p) :
    parse w (p ++ [w.many]) = p.map .exactly ++ [.anyMany] := by
  induction p with
  | nil => exact parse_many
  | cons c p ih =>
    obtain ⟨hc, hp⟩ := plain_cons.mp h
    rw [List.cons_append, parse_literal hc, ih hp]
    rfl

theorem accepts_start : accepts (p.map .exactly ++ [.anyMany]) t ↔ p <+: t := by
  induction p generalizing t with
  | nil => simp [accepts_all]
  | cons c p ih =>
    cases t with
    | nil => simp [accepts]
    | cons d t =>
      simp only [List.map_cons, List.cons_append, accepts, Bool.and_eq_true, decide_eq_true_eq, ih,
        List.cons_prefix_cons]
      rw [eq_comm]

theorem finds_plain (h : Plain w p) : finds w p t ↔ p <:+: t := by
  rw [finds, List.cons_append, parse_many, parse_plain h, accepts_anyMany,
    List.infix_iff_prefix_suffix]
  refine exists_congr fun u => ?_
  rw [accepts_start, and_comm]

/-! ## Texts with wildcards -/

/-- A text that the pattern finds: a run of none for any run, some character for any one, and
what an escape stands for. The last wildcard is literal after an escape. -/
def sample (w : Wildcards α) : List α → List α
  | [] => []
  | c :: cs =>
    if c = w.many then sample w cs
    else if c = w.one then w.many :: sample w cs
    else if w.escape = some c then
      match cs with
      | [] => [w.many]
      | d :: ds => d :: sample w ds
    else c :: sample w cs

theorem accepts_sample (w : Wildcards α) (p : List α) :
    accepts (parse w (p ++ [w.many])) (sample w p) := by
  fun_induction sample w p with
  | case1 =>
    rw [List.nil_append, parse_many]
    exact accepts_all
  | case2 ds ih =>
    rw [List.cons_append, parse_many, accepts_anyMany]
    exact ⟨_, List.suffix_refl _, ih⟩
  | case3 ds _ ih =>
    rw [List.cons_append, parse_one]
    exact ih
  | case4 c hmany hone hescape =>
    rw [List.singleton_append, parse_escape hmany hone hescape]
    simp [accepts, parse]
  | case5 c hmany hone hescape d ds ih =>
    rw [List.cons_append, List.cons_append, parse_escape hmany hone hescape]
    simp [accepts, ih]
  | case6 c ds hmany hone hescape ih =>
    rw [List.cons_append, parse_literal (by simp [Special, hmany, hone, hescape])]
    simp [accepts, ih]

theorem finds_sample (w : Wildcards α) (p : List α) : finds w p (sample w p) := by
  rw [finds, List.cons_append, parse_many, accepts_anyMany]
  exact ⟨_, List.suffix_refl _, accepts_sample w p⟩

theorem sample_plain (h : Plain w p) : sample w p = p := by
  induction p with
  | nil => rfl
  | cons c p ih =>
    obtain ⟨hc, hp⟩ := plain_cons.mp h
    simp only [Special, not_or] at hc
    rw [sample.eq_def]
    simp [hc, ih hp]

theorem sample_length_le (w : Wildcards α) (p : List α) : (sample w p).length ≤ p.length := by
  fun_induction sample w p <;> simp only [List.length_cons, List.length_nil] <;> omega

theorem plain_of_sample (h : sample w p = p) : Plain w p := by
  fun_induction sample w p with
  | case1 => exact List.forall_mem_nil _
  | case2 ds =>
    have hle := sample_length_le w ds
    rw [h, List.length_cons] at hle
    omega
  | case3 ds hone =>
    exact absurd (List.cons.inj h).1.symm hone
  | case4 c hmany => exact absurd (List.cons.inj h).1.symm hmany
  | case5 c hmany hone hescape d ds =>
    have hle := sample_length_le w ds
    have hlength := congrArg List.length h
    simp only [List.length_cons] at hlength
    omega
  | case6 c ds hmany hone hescape ih =>
    exact plain_cons.mpr ⟨by simp [Special, hmany, hone, hescape], ih (List.cons.inj h).2⟩

/-- A text with wildcards is found in a text that does not contain it. -/
theorem infix_sample_iff : p <:+: sample w p ↔ Plain w p := by
  constructor
  · intro h
    exact plain_of_sample (h.sublist.eq_of_length_le (sample_length_le w p)).symm
  · intro h
    rw [sample_plain h]

/-! ## Characters mapped -/

/-- The map takes no character to or from one that is special. -/
structure Respects (w : Wildcards α) (f : α → α) : Prop where
  many : ∀ c, f c = w.many ↔ c = w.many
  one : ∀ c, f c = w.one ↔ c = w.one
  escape : ∀ c, w.escape = some (f c) ↔ w.escape = some c

namespace Respects

variable {f : α → α}

omit [DecidableEq α] in
theorem special (h : Respects w f) (c : α) : Special w (f c) ↔ Special w c := by
  simp only [Special, h.many, h.one, h.escape]

omit [DecidableEq α] in
theorem plain (h : Respects w f) : Plain w (p.map f) ↔ Plain w p := by
  simp [Plain, h.special]

theorem sample (h : Respects w f) (p : List α) :
    sample w (p.map f) = (sample w p).map f := by
  have hmany : f w.many = w.many := (h.many _).mpr rfl
  fun_induction Like.sample w p with
  | case1 => rfl
  | case2 ds ih =>
    rw [List.map_cons, hmany, sample.eq_def]
    simpa using ih
  | case3 ds hne ih =>
    rw [List.map_cons, (h.one _).mpr rfl, sample.eq_def]
    simp [hne, hmany, ih]
  | case4 c hne hone hescape =>
    rw [List.map_singleton, sample.eq_def]
    simp [h.many, h.one, hne, hone, (h.escape c).mpr hescape, hmany]
  | case5 c hne hone hescape d ds ih =>
    rw [List.map_cons, List.map_cons, sample.eq_def]
    simp [h.many, h.one, hne, hone, (h.escape c).mpr hescape, ih]
  | case6 c ds hne hone hescape ih =>
    rw [List.map_cons, sample.eq_def]
    simp [h.many, h.one, h.escape, hne, hone, hescape, ih]

end Respects

end Like

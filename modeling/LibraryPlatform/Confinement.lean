import LibraryPlatform.TransactionLogic

/-!
# Programs that write certain rows only

Whatever such a program reads and whenever it commits, the rest of the store stays.
-/
namespace Transaction

variable {σ κ ρ ν ε α β : Type} {K : κ → Prop}

/-- Every row that the program writes is one of `K`, and it notes nothing. -/
def Prog.Confined (K : κ → Prop) : Prog σ κ ρ ν ε α → Prop
  | .ret _ => True
  | .raise _ => True
  | .select _ next => ∀ b, (next b).Confined K
  | .lock _ _ next => ∀ b, (next b).Confined K
  | .update k _ next => K k ∧ next.Confined K
  | .insert k _ next => K k ∧ next.Confined K
  | .note _ _ => False
  | .commit next => next.Confined K

theorem Prog.Confined.bind {p : Prog σ κ ρ ν ε α} {f : α → Prog σ κ ρ ν ε β} (hp : p.Confined K)
    (hf : ∀ a, (f a).Confined K) : (p.bind f).Confined K := by
  induction p with
  | ret a => exact hf a
  | raise e => trivial
  | select q next ih => exact fun b => ih b (hp b)
  | lock keys q next ih => exact fun b => ih b (hp b)
  | update k w next ih => exact ⟨hp.1, ih hp.2⟩
  | insert k w next ih => exact ⟨hp.1, ih hp.2⟩
  | note e next ih => exact hp.elim
  | commit next ih => exact ih hp

theorem Prog.ReadOnly.confined {p : Prog σ κ ρ ν ε α} (hp : p.ReadOnly) : p.Confined K := by
  induction p with
  | ret a => trivial
  | raise e => trivial
  | select q next ih => exact fun b => ih b (hp b)
  | _ => exact hp.elim

/-- The transaction has written rows of `K` only. -/
def Local.Within (K : κ → Prop) (l : Local σ κ ρ ν) : Prop :=
  ∀ e ∈ l.log, ∃ k r, e = .put k r ∧ K k

theorem Local.Within.init : (Local.init : Local σ κ ρ ν).Within K := by simp [Within, Local.init]

theorem Local.Within.write {l : Local σ κ ρ ν} (h : l.Within K) {k : κ} (hk : K k) (r : ρ) :
    (l.write k r).Within K := by
  intro e he
  rcases List.mem_append.mp he with he | he
  · exact h e he
  · exact ⟨k, r, List.mem_singleton.mp he, hk⟩

variable [Store σ κ ρ ν]

/-- What the writes of rows of `K` keep, the view keeps. -/
theorem Local.Within.view {l : Local σ κ ρ ν} (h : l.Within K) {P : σ → Prop}
    (hput : ∀ s k r, K k → P s → P (Store.put k r s)) {s : σ} (hs : P s) : P (l.view s) := by
  obtain ⟨snapshot, log, locks⟩ := l
  induction log generalizing s with
  | nil => exact hs
  | cons e log ih =>
    obtain ⟨k, r, rfl, hk⟩ := h e List.mem_cons_self
    exact ih (hput s k r hk hs) fun e' he' => h e' (List.mem_cons_of_mem _ he')

/-- All that a confined program commits is writes of rows of `K`. -/
theorem wp_confined {D : Discipline σ κ} {T : Contract σ κ α} (hT : T.Quiet)
    (hpublish : ∀ L s (l : Local σ κ ρ ν), l.Within K → T.publish none L s (l.view s))
    {p : Prog σ κ ρ ν ε β} (hp : p.Confined K) {l : Local σ κ ρ ν} {s : σ} (hl : l.Within K) :
    wp D T p (fun _ l' _ => l'.Within K) l s := by
  induction p generalizing l s with
  | ret a => exact hl
  | raise e => trivial
  | select q next ih => exact fun s' _ => ih _ (hp _) hl
  | lock keys q next ih => exact ⟨fun _ _ _ => hT _ _ _, fun A s' _ _ => ih _ (hp _) hl⟩
  | update k f next ih =>
    exact ⟨fun _ _ => hT _ _ _, fun A s' _ _ _ r _ => ih hp.2 (Local.Within.write hl hp.1 r)⟩
  | insert k f next ih => exact fun s' _ r _ => ih hp.2 (Local.Within.write hl hp.1 r)
  | note e next ih => exact hp.elim
  | commit next ih => exact fun s' _ => ⟨hpublish _ _ l hl, ih hp .init⟩

end Transaction

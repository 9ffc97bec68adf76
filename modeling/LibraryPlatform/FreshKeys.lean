import LibraryPlatform.Moves
import LibraryPlatform.TransactionLogic

/-!
# Rows with fresh keys

A row that one transaction alone inserts, and that the others lock and write only if they have
seen it stored, is free when it is inserted: nobody waits to insert a row.
-/
namespace Transaction

variable {σ κ ρ ν ε α β : Type} {n : Nat}

/-! ## Programs that insert one row -/

/-- Whatever states of `S` the program sees, it locks and writes rows of `T` only; and it inserts
the row `mint` at most, and that once. -/
def Prog.Tidy (S : σ → Prop) (T : κ → Prop) (mint : Option κ) : Prog σ κ ρ ν ε α → Prop
  | .ret _ => True
  | .raise _ => True
  | .select q next => ∀ s, S s → (next (q s)).Tidy S T mint
  | .lock keys q next => ∀ s, S s → (∀ k ∈ keys s, T k) ∧ (next (q s)).Tidy S T mint
  | .update k _ next => T k ∧ next.Tidy S T mint
  | .insert k _ next => mint = some k ∧ next.Tidy S T none
  | .note _ next => next.Tidy S T mint
  | .commit next => next.Tidy S T mint

namespace Prog

variable {S : σ → Prop} {T : κ → Prop} {mint : Option κ} {p : Prog σ κ ρ ν ε α}
  {f : α → Prog σ κ ρ ν ε β}

theorem Tidy.weaken (h : p.Tidy S T none) : p.Tidy S T mint := by
  induction p with
  | ret a => trivial
  | raise e => trivial
  | select q next ih => exact fun s hs => ih _ (h s hs)
  | lock keys q next ih => exact fun s hs => ⟨(h s hs).1, ih _ (h s hs).2⟩
  | update k w next ih => exact ⟨h.1, ih h.2⟩
  | insert k w next ih => cases h.1
  | note e next ih => exact ih h
  | commit next ih => exact ih h

/-- What inserts nothing leaves the insertion to what follows. -/
theorem Tidy.bind (hp : p.Tidy S T none) (hf : ∀ a, (f a).Tidy S T mint) :
    (p.bind f).Tidy S T mint := by
  induction p with
  | ret a => exact hf a
  | raise e => trivial
  | select q next ih => exact fun s hs => ih _ (hp s hs)
  | lock keys q next ih => exact fun s hs => ⟨(hp s hs).1, ih _ (hp s hs).2⟩
  | update k w next ih => exact ⟨hp.1, ih hp.2⟩
  | insert k w next ih => cases hp.1
  | note e next ih => exact ih hp
  | commit next ih => exact ih hp

/-- What follows an insertion inserts nothing. -/
theorem Tidy.followed (hp : p.Tidy S T mint) (hf : ∀ a, (f a).Tidy S T none) :
    (p.bind f).Tidy S T mint := by
  induction p generalizing mint with
  | ret a => exact (hf a).weaken
  | raise e => trivial
  | select q next ih => exact fun s hs => ih _ (hp s hs)
  | lock keys q next ih => exact fun s hs => ⟨(hp s hs).1, ih _ (hp s hs).2⟩
  | update k w next ih => exact ⟨hp.1, ih hp.2⟩
  | insert k w next ih => exact ⟨hp.1, ih hp.2⟩
  | note e next ih => exact ih hp
  | commit next ih => exact ih hp

theorem Tidy.mapError (hp : p.Tidy S T mint) (h : ε → ε) : (p.mapError h).Tidy S T mint := by
  induction p generalizing mint with
  | ret a => trivial
  | raise e => trivial
  | select q next ih => exact fun s hs => ih _ (hp s hs)
  | lock keys q next ih => exact fun s hs => ⟨(hp s hs).1, ih _ (hp s hs).2⟩
  | update k w next ih => exact ⟨hp.1, ih hp.2⟩
  | insert k w next ih => exact ⟨hp.1, ih hp.2⟩
  | note e next ih => exact ih hp
  | commit next ih => exact ih hp

theorem bind_assoc {γ : Type} (p : Prog σ κ ρ ν ε α) (f : α → Prog σ κ ρ ν ε β)
    (g : β → Prog σ κ ρ ν ε γ) : (p.bind f).bind g = p.bind fun a => (f a).bind g := by
  induction p with
  | ret a => rfl
  | raise e => rfl
  | select q next ih => simp only [Prog.bind, ih]
  | lock keys q next ih => simp only [Prog.bind, ih]
  | update k w next ih => simp only [Prog.bind, ih]
  | insert k w next ih => simp only [Prog.bind, ih]
  | note e next ih => simp only [Prog.bind, ih]
  | commit next ih => simp only [Prog.bind, ih]

theorem ReadOnly.tidy (hp : p.ReadOnly) : p.Tidy S T mint := by
  induction p with
  | ret a => trivial
  | raise e => trivial
  | select q next ih => exact fun s _ => ih _ (hp _)
  | _ => exact hp.elim

end Prog

/-- The rows that may be touched are those that may have been seen. -/
def Touches [Store σ κ ρ ν] (S : σ → Prop) (T : κ → Prop) : Prop :=
  ∀ s k, S s → Store.row k s ≠ none → T k

/-- Any state may be seen, and any row touched. -/
def Anything {τ : Type} (_ : τ) : Prop := True

variable [Store σ κ ρ ν]

theorem touches_anything : Touches (Anything : σ → Prop) (Anything : κ → Prop) :=
  fun _ _ _ _ => trivial

/-- The transaction has neither locked nor written the row, and has seen no state that stores it. -/
structure Local.Lacks (k : κ) (l : Local σ κ ρ ν) : Prop where
  owned : l.Owned
  locks : k ∉ l.locks
  snapshot : ∀ w, l.snapshot = some w → Store.row k w = none

namespace Local.Lacks

variable {k : κ} {l : Local σ κ ρ ν} {s : σ}

theorem init : (Local.init : Local σ κ ρ ν).Lacks k :=
  ⟨by simp [Owned, Local.init], by simp, by simp [Local.init]⟩

theorem view (h : l.Lacks k) (hs : Store.row k s = none) : Store.row k (l.view s) = none :=
  (h.owned.row h.locks s).trans hs

theorem seen (h : l.Lacks k) (hs : Store.row k s = none) : Store.row k (l.seen s) = none := by
  unfold Local.seen
  cases hw : l.snapshot with
  | none => exact h.view hs
  | some w => exact h.view (h.snapshot w hw)

theorem snap (h : l.Lacks k) (hs : Store.row k s = none) : (l.snap s).Lacks k := by
  refine ⟨h.owned, h.locks, fun w hw => ?_⟩
  cases hl : l.snapshot with
  | none =>
    obtain rfl : s = w := by simpa [Local.snap, hl] using hw
    exact hs
  | some v =>
    obtain rfl : v = w := by simpa [Local.snap, hl] using hw
    exact h.snapshot v hl

theorem hold (h : l.Lacks k) {A : List κ} (hA : k ∉ A) : (l.hold A).Lacks k :=
  ⟨h.owned.hold A, by simp [hA, h.locks], h.snapshot⟩

theorem write (h : l.Lacks k) {k' : κ} (hk : k' ∈ l.locks) (r : ρ) : (l.write k' r).Lacks k :=
  ⟨h.owned.write hk r, h.locks, h.snapshot⟩

theorem noted (h : l.Lacks k) (e : ν) : (l.noted e).Lacks k :=
  ⟨h.owned.noted e, h.locks, h.snapshot⟩

end Local.Lacks

/-- The transaction inserts nothing but the row `mint`, and that once. -/
inductive Txn.Tidy (mint : Option κ) : Txn σ κ ρ ν ε α → Prop
  | running {p : Prog σ κ ρ ν ε α} {l : Local σ κ ρ ν} : p.Tidy Anything Anything mint →
      Tidy mint (.running p l)
  | ended (o : Outcome ε α) : Tidy mint (.ended o)

/-- The transaction has nothing to do with the row as long as it is not stored, but that it may
insert it. -/
inductive Txn.Spares (k : κ) (mint : Option κ) : Txn σ κ ρ ν ε α → Prop
  | running {p : Prog σ κ ρ ν ε α} {l : Local σ κ ρ ν} :
      p.Tidy (fun s => Store.row k s = none) (fun k' => k' ≠ k) mint → l.Lacks k →
      Spares k mint (.running p l)
  | ended (o : Outcome ε α) : Spares k mint (.ended o)

variable [DecidableEq κ]

section

variable {k : κ} {mint : Option κ} {p : Prog σ κ ρ ν ε α} {l : Local σ κ ρ ν} {s u : σ}
  {free : κ → Bool} {t : Txn σ κ ρ ν ε α}

/-- One statement: an insertion is the last. -/
theorem Prog.Tidy.step (h : p.Tidy Anything Anything mint)
    (hs : p.step l s free = some (u, t)) :
    t.Tidy mint ∧ ∀ k f next, p = .insert k f next → t.Tidy none := by
  cases p with
  | ret a =>
    cases hs
    exact ⟨.ended _, by simp⟩
  | raise e =>
    cases hs
    exact ⟨.ended _, by simp⟩
  | select q next =>
    cases hs
    exact ⟨.running (h _ trivial), by simp⟩
  | lock keys q next =>
    simp only [Prog.step] at hs
    split at hs <;> cases hs
    exact ⟨.running (h _ trivial).2, by simp⟩
  | update k' f next =>
    simp only [Prog.step] at hs
    split at hs
    · split at hs <;> cases hs
      · exact ⟨.running h.2, by simp⟩
      · exact ⟨.ended _, by simp⟩
    · cases hs
  | insert k' f next =>
    simp only [Prog.step] at hs
    split at hs
    · split at hs <;> cases hs
      · exact ⟨.running h.2.weaken, fun _ _ _ _ => .running h.2⟩
      · exact ⟨.ended _, fun _ _ _ _ => .ended _⟩
    · cases hs
  | note e next =>
    cases hs
    exact ⟨.running h, by simp⟩
  | commit next =>
    cases hs
    exact ⟨.running h, by simp⟩

variable (h : p.Tidy (fun s => Store.row k s = none) (fun k' => k' ≠ k) mint) (hl : l.Lacks k)
  (hk : Store.row k s = none)

include h hl hk

/-- The row is none of those that a statement waits for. -/
theorem Prog.Tidy.needs : k ∉ p.needs l s := by
  intro hneed
  have hw := (List.mem_filter.mp hneed).1
  cases p with
  | lock keys q next => exact (h _ (hl.view hk)).1 k hw rfl
  | update k' f next => exact h.1 (List.mem_singleton.mp hw).symm
  | _ => cases hw

/-- One statement, while the row is not stored. -/
theorem Prog.Tidy.spares (hs : p.step l s free = some (u, t)) :
    (Store.row k u = none ∧ t.Spares k mint) ∨
      (mint = some k ∧ ∃ f next, p = .insert k f next) := by
  cases p with
  | ret a =>
    cases hs
    exact .inl ⟨hl.view hk, .ended _⟩
  | raise e =>
    cases hs
    exact .inl ⟨hk, .ended _⟩
  | select q next =>
    cases hs
    exact .inl ⟨hk, .running (h _ (hl.seen hk)) (hl.snap hk)⟩
  | lock keys q next =>
    simp only [Prog.step] at hs
    split at hs <;> cases hs
    exact .inl ⟨hk, .running (h _ (hl.view hk)).2 hl⟩
  | update k' f next =>
    simp only [Prog.step] at hs
    split at hs
    · rename_i hk'
      split at hs <;> cases hs
      · exact .inl ⟨hk, .running h.2 (hl.write hk' _)⟩
      · exact .inl ⟨hk, .ended _⟩
    · cases hs
  | insert k' f next =>
    by_cases hne : k' = k
    · subst hne
      exact .inr ⟨h.1, f, next, rfl⟩
    · simp only [Prog.step] at hs
      split at hs
      · split at hs <;> cases hs
        · have hl' : (l.hold [k']).Lacks k := hl.hold (by simpa using Ne.symm hne)
          exact .inl ⟨hk, .running h.2.weaken (hl'.write (by simp) _)⟩
        · exact .inl ⟨hk, .ended _⟩
      · cases hs
  | note e next =>
    cases hs
    exact .inl ⟨hk, .running h (hl.noted e)⟩
  | commit next =>
    cases hs
    exact .inl ⟨hl.view hk, .running h .init⟩

end

/-! ## Any run -/

namespace Sys

variable {s s' : Sys σ κ ρ ν ε α n} {i : Fin n} {m : Move κ} {k : κ}

/-- The locks that a move takes are among those the statement waits for. -/
theorem step_takes (h : s.step i m = some s') :
    ∃ p l, s.txn i = .running p l ∧
      (s' = s.set i (s.db, .ended .aborted) ∨
        ∃ A, (∀ a ∈ A, a ∈ p.needs l s.db) ∧
          ((∃ u t, p.step (l.hold A) s.db (s.free i) = some (u, t) ∧ s' = s.set i (u, t)) ∨
            (A ≠ [] ∧ s' = s.set i (s.db, .running p (l.hold A))))) := by
  unfold step at h
  split at h
  · cases h
  · rename_i p l ht
    refine ⟨p, l, ht, ?_⟩
    cases m with
    | run =>
      simp only [Option.map_eq_some_iff] at h
      obtain ⟨⟨u, t⟩, hr, rfl⟩ := h
      exact .inr ⟨[], by simp, .inl ⟨u, t, hr, rfl⟩⟩
    | acquire k =>
      simp only at h
      split at h
      · rename_i hk
        refine .inr ⟨[k], by simpa using hk.1, ?_⟩
        split at h
        · simp only [Option.map_eq_some_iff] at h
          obtain ⟨⟨u, t⟩, hr, rfl⟩ := h
          exact .inl ⟨u, t, hr, rfl⟩
        · cases h
          exact .inr ⟨by simp, rfl⟩
      · cases h
    | abort =>
      cases h
      exact .inl rfl

variable {mint : Fin n → Option κ}

theorem tidy_step {mint : Option κ} (h : (s.txn i).Tidy mint) {j : Fin n}
    (hs : s.step j m = some s') : (s'.txn i).Tidy mint := by
  by_cases hij : i = j
  · subst hij
    obtain ⟨p, l, ht, hmoves⟩ := step_cases hs
    rw [ht] at h
    cases h with
    | running hp =>
      rcases hmoves with ⟨A, u, t, hstep, rfl⟩ | ⟨A, rfl⟩ | rfl
      · simpa [Sys.set] using (hp.step hstep).1
      · simpa [Sys.set] using Txn.Tidy.running hp
      · have hended : (.ended .aborted : Txn σ κ ρ ν ε α).Tidy mint := .ended _
        simpa [Sys.set] using hended
  · rwa [step_others hs hij]

/-- The row is not stored, and only transaction `i` is to insert it. -/
structure Unminted (mint : Fin n → Option κ) (k : κ) (i : Fin n) (s : Sys σ κ ρ ν ε α n) :
    Prop where
  stored : Store.row k s.db = none
  spares : ∀ j, (s.txn j).Spares k (mint j)
  tidy : (s.txn i).Tidy (mint i)

omit [DecidableEq κ] in
theorem Unminted.set (h : Unminted mint k i s) {j : Fin n} {u : σ} {t : Txn σ κ ρ ν ε α}
    (hu : Store.row k u = none) (ht : t.Spares k (mint j)) (htidy : j = i → t.Tidy (mint i)) :
    Unminted mint k i (s.set j (u, t)) := by
  refine ⟨hu, fun j' => ?_, ?_⟩
  · by_cases hj : j' = j
    · subst hj
      simpa [Sys.set] using ht
    · simpa [Sys.set, hj] using h.spares j'
  · by_cases hj : i = j
    · subst hj
      simpa [Sys.set] using htidy rfl
    · simpa [Sys.set, hj] using h.tidy

/-- It stays so until `i` has inserted the row. -/
theorem Unminted.step (hmint : ∀ j, mint j = some k → j = i) (h : Unminted mint k i s)
    {j : Fin n} (hs : s.step j m = some s') :
    Unminted mint k i s' ∨ (s'.txn i).Tidy none := by
  have htidy := tidy_step h.tidy hs
  obtain ⟨p, l, ht, hmoves⟩ := step_takes hs
  have hj := h.spares j
  rw [ht] at hj
  cases hj with
  | running hp hl =>
    rcases hmoves with rfl | ⟨A, hA, hmove⟩
    · exact .inl (h.set h.stored (.ended _) fun _ => .ended _)
    · have hhold : (l.hold A).Lacks k := hl.hold fun hk => hp.needs hl h.stored (hA k hk)
      rcases hmove with ⟨u, t, hstep, rfl⟩ | ⟨_, rfl⟩
      · rcases hp.spares hhold h.stored hstep with ⟨hu, hspares⟩ | ⟨hk, f, next, hins⟩
        · refine .inl (h.set hu hspares ?_)
          rintro rfl
          simpa [Sys.set] using htidy
        · obtain rfl := hmint j hk
          have hown := h.tidy
          rw [ht] at hown
          cases hown with
          | running hown => exact .inr (by simpa [Sys.set] using (hown.step hstep).2 k f next hins)
      · refine .inl (h.set h.stored (.running hp hhold) ?_)
        rintro rfl
        simpa [Sys.set] using htidy

variable {p : Fin n → Prog σ κ ρ ν ε α} {s₀ : σ}

end Sys

end Transaction

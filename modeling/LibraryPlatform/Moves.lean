import LibraryPlatform.Transaction

/-!
# What one move changes

A transaction's snapshot is a committed state, and a transaction that commits has no
locks afterwards.
-/
namespace Transaction

variable {σ κ ρ ν ε α : Type} [Store σ κ ρ ν] [DecidableEq κ]

theorem Prog.step_snapshot {p p' : Prog σ κ ρ ν ε α} {l l' : Local σ κ ρ ν} {s u w : σ}
    {free : κ → Bool} (h : p.step l s free = some (u, .running p' l')) (hw : l'.snapshot = some w) :
    l.snapshot = some w ∨ w = s := by
  cases p with
  | ret a => cases h
  | raise e => cases h
  | select q next =>
    cases h
    simp only [Local.snap, Option.some.injEq] at hw
    cases hs : l.snapshot with
    | none => exact .inr (by simpa [hs] using hw.symm)
    | some v => exact .inl (by simpa [hs] using hw)
  | lock keys q next =>
    simp only [Prog.step] at h
    split at h <;> cases h
    exact .inl hw
  | update k f next =>
    simp only [Prog.step] at h
    split at h
    · split at h <;> cases h
      exact .inl hw
    · cases h
  | insert k f next =>
    simp only [Prog.step] at h
    split at h
    · split at h <;> cases h
      exact .inl hw
    · cases h
  | note e next =>
    cases h
    exact .inl hw
  | commit next =>
    cases h
    cases hw

/-- A statement leaves the committed state alone, or is a commit and drops the locks. -/
theorem Prog.step_commit {p : Prog σ κ ρ ν ε α} {l : Local σ κ ρ ν} {s u : σ} {t : Txn σ κ ρ ν ε α}
    {free : κ → Bool} (h : p.step l s free = some (u, t)) : u = s ∨ t.locks = [] := by
  cases p with
  | ret a => cases h; exact .inr rfl
  | raise e => cases h; exact .inr rfl
  | select q next => cases h; exact .inl rfl
  | lock keys q next =>
    simp only [Prog.step] at h
    split at h <;> cases h
    exact .inl rfl
  | update k f next =>
    simp only [Prog.step] at h
    split at h
    · split at h <;> cases h
      · exact .inl rfl
      · exact .inl rfl
    · cases h
  | insert k f next =>
    simp only [Prog.step] at h
    split at h
    · split at h <;> cases h
      · exact .inl rfl
      · exact .inl rfl
    · cases h
  | note e next => cases h; exact .inl rfl
  | commit next => cases h; exact .inr rfl

namespace Sys

variable {n : Nat} {s s' : Sys σ κ ρ ν ε α n} {i : Fin n} {m : Move κ}

/-- The move gives transaction `i` the row lock. -/
def Takes (s : Sys σ κ ρ ν ε α n) (i : Fin n) (m : Move κ) (k : κ) : Prop :=
  k ∉ (s.txn i).locks ∧ ∃ s', s.step i m = some s' ∧ k ∈ (s'.txn i).locks

/-- A move is a statement of a running transaction, with a lock more maybe, or it only
waits, or it aborts. -/
theorem step_cases (h : s.step i m = some s') :
    ∃ p l, s.txn i = .running p l ∧
    ((∃ A u t, p.step (l.hold A) s.db (s.free i) = some (u, t) ∧ s' = s.set i (u, t)) ∨
      (∃ A, s' = s.set i (s.db, .running p (l.hold A))) ∨
    s' = s.set i (s.db, .ended .aborted)) := by
  unfold step at h
  split at h
  · cases h
  · rename_i p l ht
    refine ⟨p, l, ht, ?_⟩
    cases m with
    | run =>
      simp only [Option.map_eq_some_iff] at h
      obtain ⟨⟨u, t⟩, hr, rfl⟩ := h
      exact .inl ⟨[], u, t, hr, rfl⟩
    | acquire k =>
      simp only at h
      split at h
      · split at h
        · simp only [Option.map_eq_some_iff] at h
          obtain ⟨⟨u, t⟩, hr, rfl⟩ := h
          exact .inl ⟨[k], u, t, hr, rfl⟩
        · cases h
          exact .inr (.inl ⟨[k], rfl⟩)
      · cases h
    | abort =>
      cases h
      exact .inr (.inr rfl)

theorem step_others (h : s.step i m = some s') {j : Fin n} (hj : j ≠ i) : s'.txn j = s.txn j := by
  obtain ⟨p, l, _, ⟨A, u, t, _, rfl⟩ | ⟨A, rfl⟩ | rfl⟩ := step_cases h <;> simp [set, hj]

theorem step_commit (h : s.step i m = some s') : s'.db = s.db ∨ (s'.txn i).locks = [] := by
  obtain ⟨p, l, _, ⟨A, u, t, hs, rfl⟩ | ⟨A, rfl⟩ | rfl⟩ := step_cases h
  · simpa [set] using Prog.step_commit hs
  · exact .inl rfl
  · exact .inl rfl

/-- What holds of every committed state of a run holds of every snapshot. -/
theorem reach_snapshot {G : Sys σ κ ρ ν ε α n → Fin n → Move κ → Prop} {P : σ → Prop}
    {s₀ : Sys σ κ ρ ν ε α n} (hnone : ∀ i p l, s₀.txn i = .running p l → l.snapshot = none)
    (hP : ∀ t, Reach G s₀ t → P t.db) (h : Reach G s₀ s) {p : Prog σ κ ρ ν ε α} {l : Local σ κ ρ ν}
    {w : σ} (ht : s.txn i = .running p l) (hw : l.snapshot = some w) : P w := by
  induction h generalizing i p l w with
  | refl =>
    rw [hnone i p l ht] at hw
    cases hw
  | @tail t u j m hr _ hs ih =>
    by_cases hij : i = j
    · subst hij
      obtain ⟨q, l₀, ht₀, ⟨A, v, t', hstep, rfl⟩ | ⟨A, rfl⟩ | rfl⟩ := step_cases hs
      · obtain rfl : t' = .running p l := by simpa [set] using ht
        rcases Prog.step_snapshot hstep hw with hold | rfl
        · exact ih ht₀ hold
        · exact hP t hr
      · have ht : Txn.running q (l₀.hold A) = .running p l := by simpa [set] using ht
        cases ht
        exact ih ht₀ hw
      · simp [set] at ht
    · rw [step_others hs hij] at ht
      exact ih ht hw

end Sys

end Transaction

import LibraryPlatform.Deadlock
import LibraryPlatform.FreshKeys

/-!
# From a lock to the commit

A lock that is held was taken at one move of the run. Until its transaction commits, the locks of
that transaction only grow, and no row under them is written over.
-/
namespace Transaction

variable {σ κ ρ ν ε α β : Type} [Store σ κ ρ ν]

/-- A program of which nothing is asked. -/
theorem wp_unasked {D : Discipline σ κ} {T : Contract σ κ α} (hT : T.Quiet)
    (hpublish : ∀ o L s t, T.publish o L s t) (p : Prog σ κ ρ ν ε β) {l : Local σ κ ρ ν} {s : σ} :
    wp D T p (fun _ _ _ => True) l s := by
  induction p generalizing l s with
  | ret a => trivial
  | raise e => trivial
  | select q next ih => exact fun _ _ => ih _
  | lock keys q next ih => exact ⟨fun _ _ _ => hT _ _ _, fun _ _ _ _ => ih _⟩
  | update k f next ih => exact ⟨fun _ _ => hT _ _ _, fun _ _ _ _ _ _ _ => ih⟩
  | insert k f next ih => exact fun _ _ _ _ => ih
  | note e next ih => exact ih
  | commit next ih => exact fun _ _ => ⟨hpublish _ _ _ _, ih⟩

variable [DecidableEq κ] {n : Nat}

section

variable {p : Prog σ κ ρ ν ε α} {l : Local σ κ ρ ν} {s u : σ} {free : κ → Bool}
  {t : Txn σ κ ρ ν ε α} {k : κ}

/-- A statement that does not end the transaction or commit keeps the store and the locks. -/
theorem Prog.step_locks (h : p.step l s free = some (u, t)) :
    (u = s ∧ ∀ k ∈ l.locks, k ∈ t.locks) ∨ t.locks = [] := by
  cases p with
  | ret a => cases h; exact .inr rfl
  | raise e => cases h; exact .inr rfl
  | select q next => cases h; exact .inl ⟨rfl, fun _ hk => hk⟩
  | lock keys q next =>
    simp only [Prog.step] at h
    split at h <;> cases h
    exact .inl ⟨rfl, fun _ hk => hk⟩
  | update k f next =>
    simp only [Prog.step] at h
    split at h
    · split at h <;> cases h
      · exact .inl ⟨rfl, fun _ hk => hk⟩
      · exact .inr rfl
    · cases h
  | insert k f next =>
    simp only [Prog.step] at h
    split at h
    · split at h <;> cases h
      · exact .inl ⟨rfl, fun _ hk => List.mem_cons_of_mem _ hk⟩
      · exact .inr rfl
    · cases h
  | note e next => cases h; exact .inl ⟨rfl, fun _ hk => hk⟩
  | commit next => cases h; exact .inr rfl

/-- A statement locks nothing that it has not waited for, but what it inserts. -/
theorem Prog.step_inserts (h : p.step l s free = some (u, t)) (hk : k ∈ t.locks)
    (hnew : k ∉ l.locks) : ∃ f next, p = .insert k f next := by
  cases p with
  | insert k' f next =>
    simp only [Prog.step] at h
    split at h
    · split at h <;> cases h
      · obtain rfl : k = k' := (List.mem_cons.mp hk).resolve_right hnew
        exact ⟨f, next, rfl⟩
      · cases hk
    · cases h
  | lock keys q next =>
    simp only [Prog.step] at h
    split at h <;> cases h
    exact absurd hk hnew
  | update k' f next =>
    simp only [Prog.step] at h
    split at h
    · split at h <;> cases h
      · exact absurd hk hnew
      · cases hk
    · cases h
  | select q next | note e next => cases h; exact absurd hk hnew
  | ret a | raise e | commit next => cases h; cases hk

/-- What a statement commits is the view of its transaction. -/
theorem Prog.step_store (h : p.step l s free = some (u, t)) : u = s ∨ u = l.view s := by
  cases p with
  | ret a | commit next => cases h; exact .inr rfl
  | raise e | select q next | note e next => cases h; exact .inl rfl
  | lock keys q next =>
    simp only [Prog.step] at h
    split at h <;> cases h
    exact .inl rfl
  | update k f next | insert k f next =>
    simp only [Prog.step] at h
    split at h
    · split at h <;> cases h <;> exact .inl rfl
    · cases h

end

namespace Sys

variable {G : Sys σ κ ρ ν ε α n → Fin n → Move κ → Prop} {s₀ s s' t : Sys σ κ ρ ν ε α n}
  {i : Fin n} {m : Move κ} {k x : κ}

theorem step_locks (h : s.step i m = some s') :
    (s'.db = s.db ∧ ∀ k ∈ (s.txn i).locks, k ∈ (s'.txn i).locks) ∨ (s'.txn i).locks = [] := by
  obtain ⟨p, l, ht, ⟨A, u, t, hs, rfl⟩ | ⟨A, rfl⟩ | rfl⟩ := step_cases h
  · rw [ht]
    rcases Prog.step_locks hs with ⟨rfl, hlocks⟩ | hnone
    · refine .inl ⟨rfl, fun k hk => ?_⟩
      simpa [set] using hlocks k (List.mem_append_right _ hk)
    · exact .inr (by simpa [set] using hnone)
  · rw [ht]
    exact .inl ⟨rfl, fun k hk => by simpa [set, Txn.locks] using .inr hk⟩
  · exact .inr (by simp [set, Txn.locks])

/-- A lock is taken where it is waited for, or by an insertion. -/
theorem step_needs (h : s.step i m = some s') (hnew : k ∉ (s.txn i).locks)
    (hk : k ∈ (s'.txn i).locks) :
    k ∈ (s.txn i).needs s.db ∨ ∃ f next l, s.txn i = .running (.insert k f next) l := by
  obtain ⟨p, l, ht, rfl | ⟨A, hA, ⟨u, t, hs, rfl⟩ | ⟨_, rfl⟩⟩⟩ := step_takes h
  · simp [set, Txn.locks] at hk
  · rw [ht] at hnew ⊢
    have hk : k ∈ t.locks := by simpa [set] using hk
    by_cases hkA : k ∈ A
    · exact .inl (hA k hkA)
    · obtain ⟨f, next, rfl⟩ := Prog.step_inserts hs hk fun hmem =>
        (List.mem_append.mp hmem).elim hkA hnew
      exact .inr ⟨f, next, l, rfl⟩
  · rw [ht] at hnew ⊢
    have hk : k ∈ (l.hold A).locks := by simpa [set, Txn.locks] using hk
    exact .inl (hA k ((List.mem_append.mp hk).resolve_right hnew))

/-- Rows that the transaction has not locked stay as they are. -/
theorem Good.step_row {D : Discipline σ κ} {T : Fin n → Contract σ κ α} (hgood : Good D T s)
    (h : s.step i m = some s') (hx : x ∉ (s.txn i).locks) :
    Store.row x s'.db = Store.row x s.db := by
  obtain ⟨p, l, ht, ⟨A, u, t, hs, rfl⟩ | ⟨A, rfl⟩ | rfl⟩ := step_cases h
  · obtain ⟨q, B, v, hst⟩ := hgood.standing i p l ht
    have howned : l.Owned := hst.holds ▸ hst.owned.hold B
    rw [ht] at hx
    rcases Prog.step_store hs with rfl | rfl
    · rfl
    · rw [Local.view_hold]
      exact howned.row hx s.db
  · rfl
  · rfl

/-- Transaction `i` takes the lock at the state `t` of the run and has it ever since. -/
structure HeldSince (G : Sys σ κ ρ ν ε α n → Fin n → Move κ → Prop) (s₀ : Sys σ κ ρ ν ε α n)
    (i : Fin n) (k : κ) (t s : Sys σ κ ρ ν ε α n) : Prop where
  reached : Reach G s₀ t
  free : k ∉ (t.txn i).locks
  taken : ∃ m t', G t i m ∧ t.step i m = some t' ∧ k ∈ (t'.txn i).locks ∧
    Reach (fun u j m => G u j m ∧ k ∈ (u.txn i).locks) t' s

/-- Every lock has been taken. -/
theorem held_since (h₀ : (s₀.txn i).locks = []) (h : Reach G s₀ s) (hk : k ∈ (s.txn i).locks) :
    ∃ t, HeldSince G s₀ i k t s := by
  induction h with
  | refl =>
    rw [h₀] at hk
    cases hk
  | @tail u v j m hr hg hs ih =>
    by_cases hold : k ∈ (u.txn i).locks
    · obtain ⟨t, hreached, hfree, m', t', hg', hs', hk', hspan⟩ := ih hold
      exact ⟨t, hreached, hfree, m', t', hg', hs', hk', .tail j m hspan ⟨hg, hold⟩ hs⟩
    · obtain rfl : i = j := by
        by_contra hij
        rw [step_others hs hij] at hk
        exact hold hk
      exact ⟨u, hr, hold, m, v, hg, hs, hk, .refl⟩

/-- Until the commit the transaction keeps this lock and those it had before, and what is stored
under them is not written over. -/
theorem HeldSince.keeps {D : Discipline σ κ} {T : Fin n → Contract σ κ α}
    (hgood : ∀ u, Reach G s₀ u → Good D T u) (h : HeldSince G s₀ i k t s)
    (hk : k ∈ (s.txn i).locks) (hx : x = k ∨ x ∈ (t.txn i).locks) :
    x ∈ (s.txn i).locks ∧ Store.row x s.db = Store.row x t.db := by
  obtain ⟨hreached, _, m, t', hg, hs, hk', hspan⟩ := h
  have hnonempty : ∀ {u : Sys σ κ ρ ν ε α n}, k ∈ (u.txn i).locks → (u.txn i).locks ≠ [] :=
    fun hmem => List.ne_nil_of_mem hmem
  obtain ⟨hdb, hgrow⟩ := (step_locks hs).resolve_right (hnonempty hk')
  induction hspan with
  | refl =>
    refine ⟨?_, by rw [hdb]⟩
    rcases hx with rfl | hx
    · exact hk'
    · exact hgrow x hx
  | @tail u v j m' hr hheld hs' ih =>
    obtain ⟨hxu, hrow⟩ := ih hheld.2
    by_cases hij : i = j
    · subst hij
      obtain ⟨hdb', hgrow'⟩ := (step_locks hs').resolve_right (hnonempty hk)
      exact ⟨hgrow' x hxu, by rw [hdb', hrow]⟩
    · have hu : Good D T u := hgood u ((Reach.tail i m hreached hg hs).trans
        (hr.mono fun _ _ _ hm => hm.1))
      refine ⟨by rwa [step_others hs' hij], ?_⟩
      rw [hu.step_row hs' (hu.exclusive i j x hij hxu), hrow]

end Sys

end Transaction

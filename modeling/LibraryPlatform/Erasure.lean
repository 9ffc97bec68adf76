import LibraryPlatform.Moves
import LibraryPlatform.TransactionLogic

/-!
# Transactions that leave no trace

Where the transactions of a set have committed nothing, the others might have gone the same way
without them: all that they have done is keep rows locked.
-/
namespace Transaction

variable {σ κ ρ ν ε α β : Type} {n : Nat}

/-! ## Programs that commit in the end -/

/-- The program commits what it has written when it returns; what it commits before is nothing
(nothing has been written, `blank`), or it raises an exception of `E` then and there. -/
def Prog.Settles (E : ε → Prop) : Prog σ κ ρ ν ε α → Bool → Prop
  | .ret _, _ => True
  | .raise _, _ => True
  | .select _ next, blank => ∀ b, (next b).Settles E blank
  | .lock _ _ next, blank => ∀ b, (next b).Settles E blank
  | .update _ _ next, _ => next.Settles E false
  | .insert _ _ next, _ => next.Settles E false
  | .note _ next, _ => next.Settles E false
  | .commit next, blank =>
    (blank = true → next.Settles E true) ∧ (blank = false → ∃ e, E e ∧ next = .raise e)

variable {E : ε → Prop} {b : Bool} {p : Prog σ κ ρ ν ε α} {f : α → Prog σ κ ρ ν ε β}

theorem Prog.Settles.blank (h : p.Settles E false) : p.Settles E b := by
  induction p generalizing b with
  | ret a => trivial
  | raise e => trivial
  | select q next ih => exact fun x => ih x (h x)
  | lock keys q next ih => exact fun x => ih x (h x)
  | update k g next ih => exact h
  | insert k g next ih => exact h
  | note e next ih => exact h
  | commit next ih =>
    obtain ⟨e, he, rfl⟩ := h.2 rfl
    exact ⟨fun _ => trivial, fun _ => ⟨e, he, rfl⟩⟩

theorem Prog.ReadOnly.settles_bind (hp : p.ReadOnly) (hf : ∀ a, (f a).Settles E b) :
    (p.bind f).Settles E b := by
  induction p with
  | ret a => exact hf a
  | raise e => trivial
  | select q next ih => exact fun x => ih x (hp x)
  | _ => exact hp.elim

theorem Prog.CommitFree.settles_bind (hp : p.CommitFree) (hf : ∀ a, (f a).Settles E false) :
    (p.bind f).Settles E b := by
  induction p generalizing b with
  | ret a => exact (hf a).blank
  | raise e => trivial
  | select q next ih => exact fun x => ih x (hp x)
  | lock keys q next ih => exact fun x => ih x (hp x)
  | update k g next ih => exact ih hp
  | insert k g next ih => exact ih hp
  | note e next ih => exact ih hp
  | commit next ih => exact hp.elim

theorem Prog.CommitFree.settles (hp : p.CommitFree) : p.Settles E b := by
  induction p generalizing b with
  | ret a => trivial
  | raise e => trivial
  | select q next ih => exact fun x => ih x (hp x)
  | lock keys q next ih => exact fun x => ih x (hp x)
  | update k g next ih => exact ih hp
  | insert k g next ih => exact ih hp
  | note e next ih => exact ih hp
  | commit next ih => exact hp.elim

theorem Prog.Settles.bind (hp : p.Settles E b) (hf : ∀ a, (f a).CommitFree) :
    (p.bind f).Settles E b := by
  induction p generalizing b with
  | ret a => exact (hf a).settles
  | raise e => trivial
  | select q next ih => exact fun x => ih x (hp x)
  | lock keys q next ih => exact fun x => ih x (hp x)
  | update k g next ih => exact ih hp
  | insert k g next ih => exact ih hp
  | note e next ih => exact ih hp
  | commit next ih =>
    refine ⟨fun hb => ih (hp.1 hb), fun hb => ?_⟩
    obtain ⟨e, he, rfl⟩ := hp.2 hb
    exact ⟨e, he, rfl⟩

/-! ## Transactions that have committed -/

/-- The transaction has returned, or may have committed before it raised, or was about to raise,
an exception of `E`. -/
inductive Txn.Settled (E : ε → Prop) : Txn σ κ ρ ν ε α → Prop
  | returned (a : α) : Settled E (.ended (.returned a))
  | raising {e : ε} {l : Local σ κ ρ ν} : E e → Settled E (.running (.raise e) l)
  | raised {e : ε} : E e → Settled E (.ended (.raised e))
  | aborted {e : ε} : E e → Settled E (.ended .aborted)

/-- The transaction has committed nothing. -/
inductive Txn.Blank (E : ε → Prop) : Txn σ κ ρ ν ε α → Prop
  | running {p : Prog σ κ ρ ν ε α} {l : Local σ κ ρ ν} : p.Settles E l.log.isEmpty →
      Blank E (.running p l)
  | ended {o : Outcome ε α} : (∀ a, o ≠ .returned a) → Blank E (.ended o)

variable [Store σ κ ρ ν] [DecidableEq κ]

/-- One statement of a transaction that has committed nothing. -/
theorem Prog.Settles.step {l : Local σ κ ρ ν} {s u : σ} {free : κ → Bool}
    {t : Txn σ κ ρ ν ε α} (h : p.Settles E l.log.isEmpty) (hs : p.step l s free = some (u, t)) :
    (u = s ∧ t.Blank E) ∨ t.Settled E := by
  have hwritten : ∀ {q : Prog σ κ ρ ν ε α} {l' : Local σ κ ρ ν} {e : Entry κ ρ ν},
      l'.log = l.log ++ [e] → q.Settles E false → (Txn.running q l').Blank E := by
    intro q l' e hl hq
    have hlog : (l.log ++ [e]).isEmpty = false := by simp
    exact .running (by rwa [hl, hlog])
  cases p with
  | ret a =>
    cases hs
    exact .inr (.returned a)
  | raise e =>
    cases hs
    exact .inl ⟨rfl, .ended (by simp)⟩
  | select q next =>
    cases hs
    exact .inl ⟨rfl, .running (h _)⟩
  | lock keys q next =>
    simp only [Prog.step] at hs
    split at hs <;> cases hs
    exact .inl ⟨rfl, .running (h _)⟩
  | update k g next | insert k g next =>
    simp only [Prog.step] at hs
    split at hs
    · split at hs <;> cases hs
      · exact .inl ⟨rfl, hwritten rfl h⟩
      · exact .inl ⟨rfl, .ended (by simp)⟩
    · cases hs
  | note e next =>
    cases hs
    exact .inl ⟨rfl, hwritten rfl h⟩
  | commit next =>
    cases hs
    cases hlog : l.log with
    | nil =>
      rw [hlog] at h
      exact .inl ⟨by simp [Local.view, hlog], .running (h.1 rfl)⟩
    | cons e log =>
      rw [hlog] at h
      obtain ⟨x, hx, rfl⟩ := h.2 rfl
      exact .inr (.raising hx)

namespace Sys

variable {s₀ s s' : Sys σ κ ρ ν ε α n} {i : Fin n} {m : Move κ}

theorem blank_step (h : (s.txn i).Blank E) (hs : s.step i m = some s') :
    (s'.db = s.db ∧ (s'.txn i).Blank E) ∨ (s'.txn i).Settled E := by
  obtain ⟨q, l, ht, hstep⟩ := step_cases hs
  rw [ht] at h
  cases h with
  | running hq =>
    rcases hstep with ⟨A, u, t, hp, rfl⟩ | ⟨A, rfl⟩ | rfl
    · have hnext := Prog.Settles.step (l := l.hold A) hq hp
      simpa [set] using hnext
    · exact .inl ⟨rfl, by simpa [set] using Txn.Blank.running (l := l.hold A) hq⟩
    · exact .inl ⟨rfl, by simpa [set] using Txn.Blank.ended (by simp)⟩

theorem settled_step (h : (s.txn i).Settled E) (hs : s.step i m = some s') :
    (s'.txn i).Settled E := by
  obtain ⟨q, l, ht, hstep⟩ := step_cases hs
  rw [ht] at h
  cases h with
  | raising he =>
    rcases hstep with ⟨A, u, t, hp, rfl⟩ | ⟨A, rfl⟩ | rfl
    · cases hp
      simpa [set] using Txn.Settled.raised he
    · simpa [set] using Txn.Settled.raising he
    · simpa [set] using Txn.Settled.aborted he

theorem blank_or_settled {G : Sys σ κ ρ ν ε α n → Fin n → Move κ → Prop}
    (hi : s₀.txn i = .running p .init) (hp : p.Settles E true) (h : Reach G s₀ s) :
    (s.txn i).Blank E ∨ (s.txn i).Settled E := by
  induction h with
  | refl => exact .inl (hi ▸ .running hp)
  | @tail t u j m _ _ hs ih =>
    by_cases hij : i = j
    · subst hij
      rcases ih with hb | hset
      · exact (blank_step hb hs).imp_left And.right
      · exact .inr (settled_step hset hs)
    · rwa [step_others hs hij]

/-- A statement that is made where some rows are free is made where more are. -/
theorem step_more {q : Prog σ κ ρ ν ε α} {l : Local σ κ ρ ν} {u : σ} {free free' : κ → Bool}
    {x : σ × Txn σ κ ρ ν ε α} (hfree : ∀ k, free k = true → free' k = true)
    (h : q.step l u free = some x) : q.step l u free' = some x := by
  cases q with
  | insert k g next =>
    simp only [Prog.step] at h ⊢
    split at h
    · rename_i hk
      rwa [if_pos (hfree k hk)]
    · cases h
  | _ => exact h

/-! ## The run without them -/

/-- A move of the transaction in the schedule changes the committed store. -/
def Changes (i : Fin n) (s : Sys σ κ ρ ν ε α n) : List (Fin n × Move κ) → Prop
  | [] => False
  | (j, m) :: rest =>
    ∃ s', s.step j m = some s' ∧ (j = i ∧ s'.db ≠ s.db ∨ s'.Changes i rest)

section

variable (marked : Fin n → Txn σ κ ρ ν ε α → Prop) {moves : List (Fin n × Move κ)}
  (hstay : ∀ {t u i m}, Reach Any s₀ t → t.step i m = some u → marked i (t.txn i) →
    marked i (u.txn i))

include hstay

theorem marked_stays (hr : Reach Any s₀ s) (h : s.runs moves = some s')
    (hi : marked i (s.txn i)) : marked i (s'.txn i) := by
  induction moves generalizing s with
  | nil =>
    cases h
    exact hi
  | cons m rest ih =>
    obtain ⟨j, m⟩ := m
    obtain ⟨t, ht, hrest⟩ := Option.bind_eq_some_iff.mp h
    refine ih (.tail j m hr trivial ht) hrest ?_
    by_cases hij : i = j
    · subst hij
      exact hstay hr ht hi
    · rwa [step_others ht hij]

/-- Where whoever changes the store has left a mark that stays, the unmarked have changed
nothing. -/
theorem changes_marked
    (hmark : ∀ {t u i m}, Reach Any s₀ t → t.step i m = some u →
      u.db = t.db ∨ marked i (u.txn i))
    (hr : Reach Any s₀ s) (h : s.runs moves = some s') (hi : s.Changes i moves) :
    marked i (s'.txn i) := by
  induction moves generalizing s with
  | nil => exact hi.elim
  | cons m rest ih =>
    obtain ⟨j, m⟩ := m
    obtain ⟨t, ht, hrest⟩ := Option.bind_eq_some_iff.mp h
    obtain ⟨t', ht', hi⟩ := hi
    obtain rfl := Option.some.inj (ht.symm.trans ht')
    have hreach : Reach Any s₀ t := .tail j m hr trivial ht
    rcases hi with ⟨rfl, hne⟩ | hi
    · exact marked_stays marked hstay hreach hrest ((hmark hr ht).resolve_left hne)
    · exact ih hreach hrest hi

end

/-- `t` is `s` without the transactions of `I`: they hold no locks in `t`. -/
structure Without (I : Fin n → Prop) (s t : Sys σ κ ρ ν ε α n) : Prop where
  db : t.db = s.db
  others : ∀ i, ¬I i → t.txn i = s.txn i
  idle : ∀ i, I i → (t.txn i).locks = []

omit [Store σ κ ρ ν] in
theorem Without.free {I : Fin n → Prop} {t : Sys σ κ ρ ν ε α n} (h : Without I s t) {k : κ}
    (hk : s.free i k = true) : t.free i k = true := by
  refine free_iff.mpr fun j hj => ?_
  by_cases hI : I j
  · simp [h.idle j hI]
  · rw [h.others j hI]
    exact free_iff.mp hk j hj

theorem Without.step {I : Fin n → Prop} {t : Sys σ κ ρ ν ε α n} (h : Without I s t) (hI : ¬I i)
    (hs : s.step i m = some s') : ∃ t', t.step i m = some t' ∧ Without I s' t' := by
  have hset : ∀ x : σ × Txn σ κ ρ ν ε α, Without I (s.set i x) (t.set i x) := by
    intro x
    refine ⟨rfl, fun j hj => ?_, fun j hj => ?_⟩
    · by_cases hji : j = i
      · subst hji
        simp [set]
      · simp [set, hji, h.others j hj]
    · have hji : j ≠ i := by
        rintro rfl
        exact hI hj
      simp [set, hji, h.idle j hj]
  have hfree : ∀ k, s.free i k = true → t.free i k = true := fun _ => h.free
  unfold Sys.step at hs ⊢
  rw [h.others i hI]
  split at hs
  · cases hs
  · rename_i p l ht
    cases m with
    | run =>
      simp only [Option.map_eq_some_iff] at hs
      obtain ⟨x, hx, rfl⟩ := hs
      refine ⟨t.set i x, ?_, hset x⟩
      simp only [h.db, step_more hfree hx, Option.map_some]
    | acquire k =>
      simp only at hs ⊢
      split at hs
      · rename_i hk
        rw [h.db, if_pos ⟨hk.1, hfree k hk.2⟩]
        split at hs
        · rename_i hlast
          simp only [Option.map_eq_some_iff] at hs
          obtain ⟨x, hx, rfl⟩ := hs
          refine ⟨t.set i x, ?_, hset x⟩
          rw [if_pos hlast, step_more hfree hx, Option.map_some]
        · rename_i hshort
          cases hs
          exact ⟨_, if_neg hshort, hset _⟩
      · cases hs
    | abort =>
      cases hs
      exact ⟨_, rfl, by rw [h.db]; exact hset _⟩

/-- Whoever changes nothing might as well not have been there: the schedule goes on without. -/
theorem Without.runs {kept : Fin n → Bool} {moves : List (Fin n × Move κ)}
    {t : Sys σ κ ρ ν ε α n} (h : Without (fun i => ¬kept i) s t)
    (hkept : ∀ i, s.Changes i moves → kept i) (hs : s.runs moves = some s') :
    ∃ t', t.runs (moves.filter fun m => kept m.1) = some t' ∧
      Without (fun i => ¬kept i) s' t' := by
  induction moves generalizing s t with
  | nil =>
    cases hs
    exact ⟨t, rfl, h⟩
  | cons m rest ih =>
    obtain ⟨i, m⟩ := m
    obtain ⟨u, hu, hrest⟩ := Option.bind_eq_some_iff.mp hs
    have hlater : ∀ j, u.Changes j rest → kept j := fun j hj => hkept j ⟨u, hu, .inr hj⟩
    by_cases hi : kept i
    · obtain ⟨v, hv, hwithout⟩ := h.step (not_not.mpr hi) hu
      obtain ⟨t', ht', hend⟩ := ih hwithout hlater hrest
      refine ⟨t', ?_, hend⟩
      rw [List.filter_cons_of_pos (by exact hi)]
      simp only [Sys.runs, hv, Option.bind_some, ht']
    · have hsame : u.db = s.db := by
        by_contra hne
        exact hi (hkept i ⟨u, hu, .inl ⟨rfl, hne⟩⟩)
      have hothers : ∀ j, ¬¬kept j → t.txn j = u.txn j := by
        intro j hj
        have hji : j ≠ i := by
          rintro rfl
          exact hj hi
        rw [h.others j hj, step_others hu hji]
      obtain ⟨t', ht', hend⟩ := ih ⟨h.db.trans hsame.symm, hothers, h.idle⟩ hlater hrest
      exact ⟨t', by rwa [List.filter_cons_of_neg (by exact hi)], hend⟩

/-- Where the transactions that are left out hold no locks to begin with. -/
theorem runs_without {kept : Fin n → Bool} {moves : List (Fin n × Move κ)}
    (hidle : ∀ i, (s.txn i).locks = []) (hkept : ∀ i, s.Changes i moves → kept i)
    (hs : s.runs moves = some s') :
    ∃ t, s.runs (moves.filter fun m => kept m.1) = some t ∧ t.db = s'.db ∧
      ∀ i, kept i → t.txn i = s'.txn i := by
  have hstart : Without (fun i => ¬kept i) s s := ⟨rfl, fun _ _ => rfl, fun i _ => hidle i⟩
  obtain ⟨t, ht, hwithout⟩ := hstart.runs hkept hs
  exact ⟨t, ht, hwithout.db, fun i hi => hwithout.others i (not_not.mpr hi)⟩

end Sys

end Transaction

import LibraryPlatform.Moves
import LibraryPlatform.TransactionLogic

/-!
# Transactions that only read

A transaction without locks and writes answers as it does alone on the state in which it
first read, whatever the others commit meanwhile.
-/
namespace Transaction

variable {σ κ ρ ν ε α β : Type} {n : Nat}

/-- What the transaction has returned. -/
def Txn.result : Txn σ κ ρ ν ε α → Option α
  | .ended (.returned a) => some a
  | _ => none

theorem Txn.result_eq_some {t : Txn σ κ ρ ν ε α} {a : α} :
    t.result = some a ↔ t = .ended (.returned a) := by
  rcases t with ⟨p, l⟩ | ⟨b | e | _⟩ <;> simp [result]

/-- What the transaction has raised. -/
def Txn.error : Txn σ κ ρ ν ε α → Option ε
  | .ended (.raised e) => some e
  | _ => none

theorem Txn.error_eq_some {t : Txn σ κ ρ ν ε α} {e : ε} :
    t.error = some e ↔ t = .ended (.raised e) := by
  rcases t with ⟨p, l⟩ | ⟨b | e' | _⟩ <;> simp [error]

/-- The transaction has neither written nor kept a snapshot. -/
def Local.Blank (l : Local σ κ ρ ν) : Prop := l.snapshot = none ∧ l.log = []

variable [Store σ κ ρ ν] [DecidableEq κ]

/-- How far a transaction that only reads can have come in the state `s` of a run from `s₀`:
it has read nothing, or goes on from the state `t`, or has answered as on the state `t`. -/
inductive Reading (G : Sys σ κ ρ ν ε α n → Fin n → Move κ → Prop) (s₀ : Sys σ κ ρ ν ε α n)
    (p : Prog σ κ ρ ν ε α) (s : Sys σ κ ρ ν ε α n) : Txn σ κ ρ ν ε α → Prop
  | fresh {l : Local σ κ ρ ν} : l.Blank → Reading G s₀ p s (.running p l)
  | since {q : Prog σ κ ρ ν ε α} {l : Local σ κ ρ ν} {t : Sys σ κ ρ ν ε α n} :
      Sys.Reach G s₀ t → Sys.Reach G t s → l.snapshot = some t.db → l.log = [] → q.ReadOnly →
      call q t.db = call p t.db → Reading G s₀ p s (.running q l)
  | ended {t : Sys σ κ ρ ν ε α n} : Sys.Reach G s₀ t → Sys.Reach G t s →
      Reading G s₀ p s (.ended (Outcome.of (call p t.db).1))
  | aborted : Reading G s₀ p s (.ended .aborted)

namespace Reading

variable {G : Sys σ κ ρ ν ε α n → Fin n → Move κ → Prop} {s₀ s s' : Sys σ κ ρ ν ε α n}
  {p q : Prog σ κ ρ ν ε α} {i : Fin n} {m : Move κ}

/-- The others go on. -/
theorem later {x : Txn σ κ ρ ν ε α} (h : Reading G s₀ p s x) (hs : Sys.Reach G s s') :
    Reading G s₀ p s' x := by
  cases h with
  | fresh hl => exact .fresh hl
  | since h₀ ht hl hlog hq hcall => exact .since h₀ (ht.trans hs) hl hlog hq hcall
  | ended h₀ ht => exact .ended h₀ (ht.trans hs)
  | aborted => exact .aborted

/-- Whatever it waits for, it holds its place. -/
theorem hold {l : Local σ κ ρ ν} (h : Reading G s₀ p s (.running q l)) (A : List κ) :
    Reading G s₀ p s (.running q (l.hold A)) := by
  cases h with
  | fresh hl => exact .fresh hl
  | since h₀ ht hl hlog hq hcall => exact .since h₀ ht hl hlog hq hcall

/-- The state of the snapshot, which is the present one if nothing has been read. -/
theorem source {l : Local σ κ ρ ν} (hp : p.ReadOnly) (h₀ : Sys.Reach G s₀ s)
    (h : Reading G s₀ p s (.running q l)) :
    ∃ t, Sys.Reach G s₀ t ∧ Sys.Reach G t s ∧ l.snapshot.getD s.db = t.db ∧ l.log = [] ∧
      q.ReadOnly ∧ call q t.db = call p t.db := by
  cases h with
  | fresh hl => exact ⟨s, h₀, .refl, by rw [hl.1]; rfl, hl.2, hp, rfl⟩
  | since h₀ ht hl hlog hq hcall => exact ⟨_, h₀, ht, by rw [hl]; rfl, hlog, hq, hcall⟩

/-- One statement of the transaction. -/
theorem statement {l : Local σ κ ρ ν} {u : σ} {x : Txn σ κ ρ ν ε α} {free : κ → Bool}
    (hp : p.ReadOnly) (h₀ : Sys.Reach G s₀ s) (h : Reading G s₀ p s (.running q l))
    (hs : q.step l s.db free = some (u, x)) : u = s.db ∧ Reading G s₀ p s x := by
  obtain ⟨t, ht, hts, hsnap, hlog, hq, hcall⟩ := h.source hp h₀
  have hview : ∀ w, l.view w = w := fun w => by simp [Local.view, hlog]
  cases q with
  | ret a =>
    cases hs
    have hout : Outcome.of (call p t.db).1 = .returned a := by rw [← hcall]; rfl
    exact ⟨hview _, hout ▸ .ended ht hts⟩
  | raise e =>
    cases hs
    have hout : Outcome.of (call p t.db).1 = .raised e := by rw [← hcall]; rfl
    exact ⟨rfl, hout ▸ .ended ht hts⟩
  | select query next =>
    cases hs
    have hseen : l.seen s.db = t.db := (hview _).trans hsnap
    refine ⟨rfl, .since ht hts (by rw [← hsnap]; rfl) hlog (hq _) ?_⟩
    rw [hseen, ← hcall]
    rfl
  | _ => exact hq.elim

theorem step (hp : p.ReadOnly) (h₀ : Sys.Reach G s₀ s) (h : Reading G s₀ p s (s.txn i)) {j : Fin n}
    (hg : G s j m) (hs : s.step j m = some s') : Reading G s₀ p s' (s'.txn i) := by
  have hlater : Sys.Reach G s s' := .tail j m .refl hg hs
  by_cases hij : i = j
  · subst hij
    obtain ⟨q, l, ht, ⟨A, u, x, hstep, rfl⟩ | ⟨A, rfl⟩ | rfl⟩ := Sys.step_cases hs
    · rw [ht] at h
      have hx := ((h.hold A).statement hp h₀ hstep).2.later hlater
      simpa [Sys.set] using hx
    · rw [ht] at h
      simpa [Sys.set] using (h.hold A).later hlater
    · simpa [Sys.set] using Reading.aborted
  · rw [Sys.step_others hs hij]
    exact h.later hlater

theorem of_reach (hp : p.ReadOnly) {l : Local σ κ ρ ν} (hl : l.Blank)
    (hi : s₀.txn i = .running p l) (h : Sys.Reach G s₀ s) : Reading G s₀ p s (s.txn i) := by
  induction h with
  | refl => exact hi ▸ .fresh hl
  | tail j m hr hg hs ih => exact ih.step hp hr hg hs

end Reading

/-- What a transaction that only reads has answered, it answers alone on one committed state
that the run has gone through. -/
theorem Sys.reads_one_state {G : Sys σ κ ρ ν ε α n → Fin n → Move κ → Prop}
    {s₀ s : Sys σ κ ρ ν ε α n} {p : Prog σ κ ρ ν ε α} {i : Fin n} {o : Outcome ε α}
    (hp : p.ReadOnly) (hi : s₀.txn i = .running p .init) (h : Reach G s₀ s)
    (ho : s.txn i = .ended o) (hdone : o ≠ .aborted) :
    ∃ t, Reach G s₀ t ∧ Reach G t s ∧ o = Outcome.of (call p t.db).1 := by
  have hread : Reading G s₀ p s (s.txn i) := Reading.of_reach hp ⟨rfl, rfl⟩ hi h
  rw [ho] at hread
  cases hread with
  | @ended t h₀ ht => exact ⟨t, h₀, ht, rfl⟩
  | aborted => exact absurd rfl hdone

/-- A transaction that only reads commits nothing. -/
theorem Sys.reader_step {G : Sys σ κ ρ ν ε α n → Fin n → Move κ → Prop}
    {s₀ s s' : Sys σ κ ρ ν ε α n}
    {p : Prog σ κ ρ ν ε α} {i : Fin n} {m : Move κ} (hp : p.ReadOnly)
    (hi : s₀.txn i = .running p .init) (h : Reach G s₀ s) (hs : s.step i m = some s') :
    s'.db = s.db := by
  have hread : Reading G s₀ p s (s.txn i) := Reading.of_reach hp ⟨rfl, rfl⟩ hi h
  obtain ⟨q, l, ht, ⟨A, u, x, hstep, rfl⟩ | ⟨A, rfl⟩ | rfl⟩ := Sys.step_cases hs
  · rw [ht] at hread
    exact ((hread.hold A).statement hp h hstep).1
  · rfl
  · rfl

/-! ## Reading two states alike -/

namespace Prog

/-- Alone, the program ends alike on both states. -/
def Alike (p : Prog σ κ ρ ν ε α) (s t : σ) : Prop := (call p s).1 = (call p t).1

variable {s t : σ}

omit [DecidableEq κ] in
theorem alike_select {q : σ → β} {next : β → Prog σ κ ρ ν ε α} (hq : q s = q t)
    (h : (next (q s)).Alike s t) : (select q next).Alike s t := by
  unfold Alike at h ⊢
  rw [hq] at h
  exact (congrArg (fun b => (call (next b) s).1) hq).trans h

omit [DecidableEq κ] in
theorem Alike.bind {p : Prog σ κ ρ ν ε β} {f : β → Prog σ κ ρ ν ε α} (hp : p.ReadOnly)
    (h : p.Alike s t) (hf : ∀ b, call p s = (.ok b, s) → (f b).Alike s t) :
    (p.bind f).Alike s t := by
  unfold Alike at h hf ⊢
  rcases hp.call_bind f s with ⟨a, ha, has⟩ | ⟨e, he, hes⟩ <;>
    rcases hp.call_bind f t with ⟨b, hb, hbt⟩ | ⟨e', he', het⟩
  · rw [ha, hb] at h
    cases h
    rw [has, hbt]
    exact hf a ha
  · rw [ha, he'] at h
    cases h
  · rw [he, hb] at h
    cases h
  · rw [he, he'] at h
    cases h
    rw [hes, het]

end Prog

/-! ## Reading before writing -/

section

variable {D : Discipline σ κ} {T : Contract σ κ α}

omit [DecidableEq κ] in
/-- After its first read a program that only reads answers from the snapshot. -/
theorem wp_reads_on {p : Prog σ κ ρ ν ε β} (hp : p.ReadOnly) {l : Local σ κ ρ ν} {s w : σ}
    (hl : l.snapshot = some w) (hlog : l.log = []) :
    wp D T p (fun a l' s' => l'.log = [] ∧ l'.locks = l.locks ∧ (D.inv s → Later D l s s') ∧
      call p w = (.ok a, w)) l s := by
  induction p generalizing l s with
  | ret a => exact ⟨hlog, rfl, .refl l, rfl⟩
  | raise e => trivial
  | select q next ih =>
    intro s' hs'
    have hseen : l.seen s' = w := by simp [Local.seen, Local.view, hl, hlog]
    rw [hseen]
    refine wp_mono ?_ (ih (q w) (hp (q w)) (l := l.snap s') (s := s') (by simp [Local.snap, hl])
      hlog)
    rintro a l' s'' ⟨hlog', hlocks, hlater, hcall⟩
    exact ⟨hlog', hlocks, fun _ => hs'.trans (hlater hs'.inv).unsnap, hcall⟩
  | _ => exact hp.elim

omit [DecidableEq κ] in
/-- A program that only reads answers as it does alone on one committed state. -/
theorem wp_reads {p : Prog σ κ ρ ν ε β} (hp : p.ReadOnly) {l : Local σ κ ρ ν} {s : σ}
    (hs : D.inv s) (hl : l.Blank) :
    wp D T p (fun a l' s' => l'.log = [] ∧ l'.locks = l.locks ∧
      ∃ w, Later D l s w ∧ Later D l w s' ∧ call p w = (.ok a, w)) l s := by
  obtain ⟨hsnap, hlog⟩ := hl
  cases p with
  | ret a => exact ⟨hlog, rfl, s, .refl l hs, .refl l hs, rfl⟩
  | raise e => trivial
  | select q next =>
    intro s' hs'
    have hseen : l.seen s' = s' := by simp [Local.seen, Local.view, hsnap, hlog]
    rw [hseen]
    refine wp_mono ?_ (wp_reads_on (hp (q s')) (l := l.snap s') (s := s') (w := s')
      (by simp [Local.snap, hsnap]) hlog)
    rintro a l' s'' ⟨hlog', hlocks, hlater, hcall⟩
    exact ⟨hlog', hlocks, s', hs', (hlater hs'.inv).unsnap, hcall⟩
  | _ => exact hp.elim

omit [DecidableEq κ] in
theorem Later.rely_nil {l : Local σ κ ρ ν} {s t : σ} (h : Later D l s t) : D.rely [] s t :=
  D.anti (by simp) h.rely

omit [DecidableEq κ] in
/-- A program without a commit in mid-course ends later than a state before its start. -/
theorem wp_since {p : Prog σ κ ρ ν ε β} (hp : p.CommitFree) {Q : β → Local σ κ ρ ν → σ → Prop}
    {l : Local σ κ ρ ν} {s u : σ} (hu : D.rely [] u s) (h : wp D T p Q l s) :
    wp D T p (fun a l' s' => D.rely [] u s' ∧ Q a l' s') l s := by
  induction p generalizing l s with
  | ret a => exact ⟨hu, h⟩
  | raise e => trivial
  | select q next ih =>
    exact fun s' hs' => ih _ (hp _) (D.trans hu hs'.rely_nil) (h s' hs')
  | lock keys q next ih =>
    exact ⟨h.1, fun A s' ha hk => ih _ (hp _) (D.trans hu ha.later.rely_nil) (h.2 A s' ha hk)⟩
  | update k f next ih =>
    exact ⟨h.1, fun A s' ha hk hg r hr =>
      ih hp (D.trans hu ha.later.rely_nil) (h.2 A s' ha hk hg r hr)⟩
  | insert k f next ih =>
    exact fun s' hs' r hr => ih hp (D.trans hu hs'.rely_nil) (h s' hs' r hr)
  | note e next ih => exact ih hp hu h
  | commit next ih => exact hp.elim

end

/-! ## What stays as it was read -/

/-- A statement that commits leaves no snapshot, and one that takes a snapshot takes the present
state. -/
theorem Prog.step_kept {p p' : Prog σ κ ρ ν ε α} {l l' : Local σ κ ρ ν} {s u w : σ}
    {free : κ → Bool} (h : p.step l s free = some (u, .running p' l')) (hw : l'.snapshot = some w) :
    u = s ∧ (l.snapshot = some w ∨ w = s) := by
  refine ⟨?_, Prog.step_snapshot h hw⟩
  cases p with
  | commit next =>
    cases h
    cases hw
  | ret a => cases h
  | raise e => cases h
  | select q next => cases h; rfl
  | lock keys q next =>
    simp only [Prog.step] at h
    split at h <;> cases h
    rfl
  | update k f next | insert k f next =>
    simp only [Prog.step] at h
    split at h
    · split at h <;> cases h
      rfl
    · cases h
  | note e next => cases h; rfl

/-- What holds of a state and itself, and what the commits of the others keep, holds of a
transaction's snapshot and the committed state. -/
theorem Sys.snapshot_current {G : Sys σ κ ρ ν ε α n → Fin n → Move κ → Prop}
    {s₀ s : Sys σ κ ρ ν ε α n} {i : Fin n} {R : σ → σ → Prop} (hrefl : ∀ t, R t t)
    (hothers : ∀ t t' j m w, Sys.Reach G s₀ t → j ≠ i → t.step j m = some t' → R w t.db →
      R w t'.db)
    (hnone : ∀ p l, s₀.txn i = .running p l → l.snapshot = none) (h : Sys.Reach G s₀ s)
    {p : Prog σ κ ρ ν ε α} {l : Local σ κ ρ ν} {w : σ} (ht : s.txn i = .running p l)
    (hw : l.snapshot = some w) : R w s.db := by
  induction h generalizing p l w with
  | refl =>
    rw [hnone p l ht] at hw
    cases hw
  | @tail t u j m hr _ hs ih =>
    by_cases hij : j = i
    · subst hij
      obtain ⟨q, l₀, ht₀, ⟨A, v, t', hstep, rfl⟩ | ⟨A, rfl⟩ | rfl⟩ := step_cases hs
      · obtain rfl : t' = .running p l := by simpa [set] using ht
        obtain ⟨rfl, hold | rfl⟩ := Prog.step_kept hstep hw
        · exact ih ht₀ hold
        · exact hrefl _
      · have ht : Txn.running q (l₀.hold A) = .running p l := by simpa [set] using ht
        cases ht
        exact ih ht₀ hw
      · simp [set] at ht
    · rw [step_others hs (Ne.symm hij)] at ht
      exact hothers t u j m w hr hij hs (ih ht hw)

end Transaction

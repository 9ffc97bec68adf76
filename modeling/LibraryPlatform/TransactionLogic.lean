import LibraryPlatform.Transaction

/-!
# Reasoning about one transaction among others

`wp` is the weakest precondition of a program whose transaction is interleaved
with others. Between two of its statements the committed store may change, but
only as the discipline's `rely` allows, and never in a row it has locked.
`Good.step` shows that programs verified one by one may be run together.
-/
namespace Transaction

variable {σ κ ρ ν ε α β : Type}

/-- What all transactions of a system keep (`inv`), and how the committed store
may change while one of them holds the given row locks (`rely`). -/
structure Discipline (σ κ : Type) where
  inv : σ → Prop
  rely : List κ → σ → σ → Prop
  refl : ∀ L s, rely L s s
  trans : ∀ {L s t u}, rely L s t → rely L t u → rely L s u
  anti : ∀ {L L' s t}, (∀ k ∈ L, k ∈ L') → rely L' s t → rely L s t

/-- What one transaction promises of its commits (`publish`) and of the places
where it may wait for a lock (`point`: the rows it wants, those it holds, the
committed store), and what it is promised when it writes a row (`guard`). -/
structure Contract (σ κ α : Type) where
  publish : Option α → List κ → σ → σ → Prop
  guard : κ → Option σ → σ → Prop
  point : List κ → List κ → σ → Prop

/-- Nothing is promised of the places where the transaction may wait. -/
def Contract.Quiet (T : Contract σ κ α) : Prop := ∀ ks L s, T.point ks L s

/-- The committed store was once `t` and is `s` now. -/
def Discipline.Past (D : Discipline σ κ) (t s : σ) : Prop := D.inv t ∧ D.rely [] t s

variable [Store σ κ ρ ν]

/-- The committed store was `s` at the transaction's last statement and is `s'` now. -/
structure Later (D : Discipline σ κ) (l : Local σ κ ρ ν) (s s' : σ) : Prop where
  rely : D.rely l.locks s s'
  rows : ∀ k ∈ l.locks, Store.row k s' = Store.row k s
  inv : D.inv s'

theorem Later.refl {D : Discipline σ κ} (l : Local σ κ ρ ν) {s : σ} (h : D.inv s) : Later D l s s :=
  ⟨D.refl _ _, fun _ _ => rfl, h⟩

theorem Later.trans {D : Discipline σ κ} {l : Local σ κ ρ ν} {s t u : σ}
    (h : Later D l s t) (h' : Later D l t u) : Later D l s u :=
  ⟨D.trans h.rely h'.rely, fun k hk => (h'.rows k hk).trans (h.rows k hk), h'.inv⟩

theorem Later.mono {D : Discipline σ κ} {l l' : Local σ κ ρ ν} {s t : σ}
    (hl : ∀ k ∈ l.locks, k ∈ l'.locks) (h : Later D l' s t) : Later D l s t :=
  ⟨D.anti hl h.rely, fun k hk => h.rows k (hl k hk), h.inv⟩

theorem Later.unhold {D : Discipline σ κ} {l : Local σ κ ρ ν} {A : List κ} {s t : σ}
    (h : Later D (l.hold A) s t) : Later D l s t := h.mono (fun _ hk => List.mem_append_right _ hk)

theorem Later.unwrite {D : Discipline σ κ} {l : Local σ κ ρ ν} {k : κ} {r : ρ} {s t : σ}
    (h : Later D (l.write k r) s t) : Later D l s t := ⟨h.rely, h.rows, h.inv⟩

theorem Later.unnote {D : Discipline σ κ} {l : Local σ κ ρ ν} {e : ν} {s t : σ}
    (h : Later D (l.noted e) s t) : Later D l s t := ⟨h.rely, h.rows, h.inv⟩

theorem Later.unsnap {D : Discipline σ κ} {l : Local σ κ ρ ν} {s₀ s t : σ}
    (h : Later D (l.snap s₀) s t) : Later D l s t := ⟨h.rely, h.rows, h.inv⟩

theorem Later.past {D : Discipline σ κ} {l : Local σ κ ρ ν} {s t : σ} (hs : D.inv s)
    (h : Later D l s t) : D.Past s t := ⟨hs, D.anti (by simp) h.rely⟩

/-- A locked row of the transaction's view stays as it is. -/
theorem Later.view {D : Discipline σ κ} {l : Local σ κ ρ ν} {s t : σ} (h : Later D l s t) {k : κ}
    (hk : k ∈ l.locks) : Store.row k (l.view t) = Store.row k (l.view s) :=
  l.view_congr (h.rows k hk)

/-- A transaction whose view is `v` now, over the store `s`, had the view `w` before. -/
def Discipline.Saw (D : Discipline σ κ) (s w v : σ) : Prop :=
  ∃ (l : Local σ κ ρ ν) (u : σ), D.Past u s ∧ w = l.view u ∧ v = l.view s

theorem Later.saw {D : Discipline σ κ} {l : Local σ κ ρ ν} {s t : σ} (hs : D.inv s)
    (h : Later D l s t) : D.Saw t (l.view s) (l.view t) := ⟨l, s, h.past hs, rfl, rfl⟩

/-- From one point of a transaction to a later one, with no commit between them. -/
structure Onward (D : Discipline σ κ) (l : Local σ κ ρ ν) (s : σ) (l' : Local σ κ ρ ν) (s' : σ) :
    Prop where
  later : Later D l s s'
  keeps : ∀ k ∈ l.locks, k ∈ l'.locks

namespace Onward

variable {D : Discipline σ κ} {l l' m : Local σ κ ρ ν} {s s' t u : σ}

theorem refl (hs : D.inv s) : Onward D l s l s := ⟨.refl l hs, fun _ hk => hk⟩

theorem hold (h : Onward D l s l' s') (h' : Later D l' s' t) (A : List κ) :
    Onward D l s (l'.hold A) t :=
  ⟨h.later.trans (h'.mono h.keeps), fun k hk => List.mem_append_right _ (h.keeps k hk)⟩

theorem write (h : Onward D l s l' s') (k : κ) (r : ρ) : Onward D l s (l'.write k r) s' :=
  ⟨h.later, h.keeps⟩

theorem noted (h : Onward D l s l' s') (e : ν) : Onward D l s (l'.noted e) s' := ⟨h.later, h.keeps⟩

theorem snap (h : Onward D l s l' s') (h' : Later D l' s' t) : Onward D l s (l'.snap t) t :=
  ⟨h.later.trans (h'.mono h.keeps), h.keeps⟩

theorem then_later (h : Onward D l s l' s') (h' : Later D l' s' t) : Later D l s t :=
  h.later.trans (h'.mono h.keeps)

theorem trans (h : Onward D l s l' s') (h' : Onward D l' s' m t) : Onward D l s m t :=
  ⟨h.then_later h'.later, fun k hk => h'.keeps k (h.keeps k hk)⟩

end Onward

/-- The transaction came to a statement that wants `keys` when the store was `s`, has
locked the rows `A` of it since, and still waits: none of them was the only row it
wanted. Now the store is `s'`. -/
structure Waiting (D : Discipline σ κ) (keys : σ → List κ) (l : Local σ κ ρ ν) (A : List κ)
    (s s' : σ) : Prop where
  later : Later D l s s'
  taken : ∀ a ∈ A, ∃ t, Later D l s t ∧ a ∈ keys (l.view t) ∧ (∃ k ∈ keys (l.view t), k ≠ a) ∧
    Store.row a s' = Store.row a t

/-- The statement is about to be made, maybe because it has got its last lock just now. -/
inductive Acquired (D : Discipline σ κ) (keys : σ → List κ) (l : Local σ κ ρ ν) :
    List κ → σ → σ → Prop
  | waited {A : List κ} {s s' : σ} : Waiting D keys l A s s' → Acquired D keys l A s s'
  | last {A : List κ} {s s' : σ} {k : κ} : Waiting D keys l A s s' → k ∈ keys (l.view s') →
      Acquired D keys l (k :: A) s s'

section Locking

variable {D : Discipline σ κ} {keys : σ → List κ} {l : Local σ κ ρ ν} {A : List κ} {s t : σ}

theorem Acquired.later (h : Acquired D keys l A s t) : Later D l s t := by
  cases h with
  | waited h => exact h.later
  | last h _ => exact h.later

/-- Each of the rows was wanted once, and nobody has written it since. -/
theorem Acquired.taken (h : Acquired D keys l A s t) :
    ∀ a ∈ A, ∃ u, Later D l s u ∧ a ∈ keys (l.view u) ∧ Store.row a t = Store.row a u := by
  have hwaiting : ∀ B, Waiting D keys l B s t → ∀ a ∈ B, ∃ u, Later D l s u ∧ a ∈ keys (l.view u) ∧
      Store.row a t = Store.row a u := by
    intro B hB a ha
    obtain ⟨u, hu, hk, _, hr⟩ := hB.taken a ha
    exact ⟨u, hu, hk, hr⟩
  cases h with
  | waited hB => exact hwaiting _ hB
  | last hB hk =>
    intro a ha
    rcases List.mem_cons.mp ha with rfl | ha
    · exact ⟨t, hB.later, hk, rfl⟩
    · exact hwaiting _ hB a ha

/-- A statement that wants one row has no lock of it while it waits. -/
theorem Waiting.eq_nil (h : Waiting D keys l A s t)
    (hone : ∀ v, ∀ k ∈ keys v, ∀ a ∈ keys v, k = a) : A = [] := by
  apply List.eq_nil_iff_forall_not_mem.mpr
  intro a ha
  obtain ⟨u, _, hk, ⟨k, hk', hne⟩, _⟩ := h.taken a ha
  exact hne (hone _ k hk' a hk)

theorem Acquired.mem_of_one (h : Acquired D keys l A s t)
    (hone : ∀ v, ∀ k ∈ keys v, ∀ a ∈ keys v, k = a) : ∀ a ∈ A, a ∈ keys (l.view t) := by
  cases h with
  | waited h => simp [h.eq_nil hone]
  | last h hk => simpa [h.eq_nil hone] using hk

theorem Acquired.eq_nil (h : Acquired D keys l A s t) (hnone : ∀ v, keys v = []) : A = [] := by
  have hone : ∀ v, ∀ k ∈ keys v, ∀ a ∈ keys v, k = a := by simp [hnone]
  have hmem := h.mem_of_one hone
  rw [hnone] at hmem
  exact List.eq_nil_iff_forall_not_mem.mpr fun a ha => List.not_mem_nil (hmem a ha)

/-- All the wanted rows can be locked before anybody moves. -/
theorem Acquired.all (hs : D.inv s) :
    ∃ A, Acquired D keys l A s s ∧ ∀ k ∈ keys (l.view s), k ∈ A := by
  by_cases hone : ∃ a ∈ keys (l.view s), ∀ k ∈ keys (l.view s), k = a
  · obtain ⟨a, ha, hone⟩ := hone
    exact ⟨[a], .last ⟨.refl l hs, by simp⟩ ha, fun k hk => by simp [hone k hk]⟩
  · refine ⟨_, .waited ⟨.refl l hs, fun a ha => ⟨s, .refl l hs, ha, ?_, rfl⟩⟩, fun _ hk => hk⟩
    by_contra hno
    exact hone ⟨a, ha, fun k hk => by_contra fun hne => hno ⟨k, hk, hne⟩⟩

theorem Acquired.row (hs : D.inv s) (k : κ) : Acquired D (fun _ => [k]) l [k] s s :=
  .last ⟨.refl l hs, by simp⟩ (by simp)

end Locking

/-- Every way the rest of the program returns, among transactions that keep the
discipline, ends in `Q`. -/
def wp (D : Discipline σ κ) (T : Contract σ κ α) :
    Prog σ κ ρ ν ε β → (β → Local σ κ ρ ν → σ → Prop) → Local σ κ ρ ν → σ → Prop
  | .ret a, Q, l, s => Q a l s
  | .raise _, _, _, _ => True
  | .select q next, Q, l, s => ∀ s', Later D l s s' → wp D T (next (q (l.seen s'))) Q (l.snap s') s'
  | .lock keys q next, Q, l, s =>
      (∀ A s', Waiting D keys l A s s' → T.point (keys (l.view s')) (A ++ l.locks) s') ∧
      ∀ A s', Acquired D keys l A s s' → (∀ k ∈ keys (l.view s'), k ∈ A ++ l.locks) →
        wp D T (next (q (l.view s'))) Q (l.hold A) s'
  | .update k f next, Q, l, s =>
      (∀ s', Later D l s s' → T.point [k] l.locks s') ∧
      ∀ A s', Acquired D (fun _ => [k]) l A s s' → k ∈ A ++ l.locks → T.guard k l.snapshot s' →
        ∀ r, f (l.view s') = .ok r → wp D T next Q ((l.hold A).write k r) s'
  | .insert k f next, Q, l, s => ∀ s', Later D l s s' → ∀ r, f (l.view s') = .ok r →
      wp D T next Q ((l.hold [k]).write k r) s'
  | .note e next, Q, l, s => wp D T next Q (l.noted e) s
  | .commit next, Q, l, s => ∀ s', Later D l s s' →
      T.publish none l.locks s' (l.view s') ∧ wp D T next Q .init (l.view s')

section Rules

variable {D : Discipline σ κ} {T : Contract σ κ α}

@[simp] theorem wp_ret (a : β) (Q : β → Local σ κ ρ ν → σ → Prop) (l : Local σ κ ρ ν) (s : σ) :
    wp D T (.ret a : Prog σ κ ρ ν ε β) Q l s = Q a l s := rfl

theorem wp_mono {p : Prog σ κ ρ ν ε β} {Q Q' : β → Local σ κ ρ ν → σ → Prop} {l : Local σ κ ρ ν}
    {s : σ} (hQ : ∀ a l s, Q a l s → Q' a l s) (h : wp D T p Q l s) : wp D T p Q' l s := by
  induction p generalizing l s with
  | ret a => exact hQ a l s h
  | raise e => trivial
  | select q next ih => exact fun s' hs => ih _ (h s' hs)
  | lock keys q next ih => exact ⟨h.1, fun A s' ha hk => ih _ (h.2 A s' ha hk)⟩
  | update k f next ih => exact ⟨h.1, fun A s' ha hk hg r hr => ih (h.2 A s' ha hk hg r hr)⟩
  | insert k f next ih => exact fun s' hs r hr => ih (h s' hs r hr)
  | note e next ih => exact ih h
  | commit next ih => exact fun s' hs => ⟨(h s' hs).1, ih (h s' hs).2⟩

theorem wp_bind {γ : Type} (p : Prog σ κ ρ ν ε β) (f : β → Prog σ κ ρ ν ε γ)
    (Q : γ → Local σ κ ρ ν → σ → Prop) (l : Local σ κ ρ ν) (s : σ) :
    wp D T (p.bind f) Q l s = wp D T p (fun a l s => wp D T (f a) Q l s) l s := by
  induction p generalizing l s with
  | ret a => rfl
  | raise e => rfl
  | select q next ih => simp only [Prog.bind, wp, ih]
  | lock keys q next ih => simp only [Prog.bind, wp, ih]
  | update k g next ih => simp only [Prog.bind, wp, ih]
  | insert k g next ih => simp only [Prog.bind, wp, ih]
  | note e next ih => simp only [Prog.bind, wp, ih]
  | commit next ih => simp only [Prog.bind, wp, ih]

theorem mapError_eq_ok {e : Except ε β} {h : ε → ε} {b : β} : e.mapError h = .ok b ↔ e = .ok b := by
  cases e <;> simp [Except.mapError]

/-- A handler that only re-raises is invisible to what returns. -/
theorem wp_mapError (h : ε → ε) (p : Prog σ κ ρ ν ε β) (Q : β → Local σ κ ρ ν → σ → Prop)
    (l : Local σ κ ρ ν) (s : σ) : wp D T (p.mapError h) Q l s = wp D T p Q l s := by
  induction p generalizing l s with
  | ret a => rfl
  | raise e => rfl
  | select q next ih => simp only [Prog.mapError, wp, ih]
  | lock keys q next ih => simp only [Prog.mapError, wp, ih]
  | update k f next ih => simp only [Prog.mapError, wp, mapError_eq_ok, ih]
  | insert k f next ih => simp only [Prog.mapError, wp, mapError_eq_ok, ih]
  | note e next ih => simp only [Prog.mapError, wp, ih]
  | commit next ih => simp only [Prog.mapError, wp, ih]

end Rules

/-! ## Alone on the store -/

/-- Nobody else commits: the store stays as it is. -/
def alone (s₀ : σ) : Discipline σ κ where
  inv s := s = s₀
  rely _ _ _ := True
  refl _ _ := trivial
  trans _ _ := trivial
  anti _ _ := trivial

/-- No promise asked or given, and no commit before the end. -/
def Contract.plain : Contract σ κ α where
  publish _ _ _ _ := False
  guard _ _ _ := True
  point _ _ _ := True

/-- Alone on the store, what a transaction saw is what there is. -/
theorem alone_saw {s w v : σ} (h : (alone s).Saw s w v) : w = v := by
  obtain ⟨l, u, ⟨rfl, _⟩, rfl, rfl⟩ := h
  rfl

theorem alone_past {s w t : σ} (h : (alone s : Discipline σ κ).Past w t) : w = s := h.1

theorem Contract.plain_quiet : (Contract.plain : Contract σ κ α).Quiet := fun _ _ _ => trivial

theorem exec_wp {p : Prog σ κ ρ ν ε α} {Q : α → Local σ κ ρ ν → σ → Prop} {l : Local σ κ ρ ν}
    {s base b w : σ} {a : α} (hl : l.snapshot.getD s = s)
    (h : wp (alone s) (Contract.plain : Contract σ κ β) p Q l s)
    (he : p.exec base (l.view s) = (.ok a, b, w)) : ∃ l', Q a l' s ∧ w = l'.view s := by
  induction p generalizing l base with
  | ret a => cases he; exact ⟨l, h, rfl⟩
  | raise e => cases he
  | select q next ih =>
    have hn := h s (.refl l rfl)
    simp only [Local.seen, hl] at hn
    exact ih _ (by simp [Local.snap, hl]) hn he
  | lock keys q next ih =>
    obtain ⟨A, ha, hA⟩ : ∃ A, Acquired (alone s) keys l A s s ∧ ∀ k ∈ keys (l.view s), k ∈ A :=
      Acquired.all rfl
    exact ih _ (by simpa [Local.hold] using hl)
      (h.2 A s ha (fun k hk => List.mem_append_left _ (hA k hk))) he
  | update k f next ih =>
    simp only [Prog.exec] at he
    cases hf : f (l.view s) with
    | error e => rw [hf] at he; cases he
    | ok r =>
      rw [hf] at he
      have ha : Acquired (alone s) (fun _ => [k]) l [k] s s := .row rfl k
      exact ih (by simpa [Local.hold, Local.write] using hl)
        (h.2 _ s ha (by simp) trivial r hf) (by simpa using he)
  | insert k f next ih =>
    simp only [Prog.exec] at he
    cases hf : f (l.view s) with
    | error e => rw [hf] at he; cases he
    | ok r =>
      rw [hf] at he
      exact ih (by simpa [Local.hold, Local.write] using hl) (h s (.refl l rfl) r hf)
        (by simpa using he)
  | note e next ih =>
    exact ih (by simpa [Local.noted] using hl) h (by rw [Local.view_noted]; exact he)
  | commit next ih => exact (h s (.refl l rfl)).1.elim

/-- Without a commit in mid-course the state to roll back to stays the first one. -/
theorem exec_base {p : Prog σ κ ρ ν ε α} {Q : α → Local σ κ ρ ν → σ → Prop} {l : Local σ κ ρ ν}
    {s base : σ} (hl : l.snapshot.getD s = s)
    (h : wp (alone s) (Contract.plain : Contract σ κ β) p Q l s) :
    (p.exec base (l.view s)).2.1 = base := by
  induction p generalizing l with
  | ret a => rfl
  | raise e => rfl
  | select q next ih =>
    have hn := h s (.refl l rfl)
    simp only [Local.seen, hl] at hn
    exact ih _ (l := l.snap s) (by simp [Local.snap, hl]) hn
  | lock keys q next ih =>
    obtain ⟨A, ha, hA⟩ : ∃ A, Acquired (alone s) keys l A s s ∧ ∀ k ∈ keys (l.view s), k ∈ A :=
      Acquired.all rfl
    exact ih _ (l := l.hold A) (by simpa [Local.hold] using hl)
      (h.2 A s ha (fun k hk => List.mem_append_left _ (hA k hk)))
  | update k f next ih =>
    simp only [Prog.exec]
    cases hf : f (l.view s) with
    | error e => rfl
    | ok r =>
      have ha : Acquired (alone s) (fun _ => [k]) l [k] s s := .row rfl k
      simpa using ih (by simpa [Local.hold, Local.write] using hl)
        (h.2 _ s ha (by simp) trivial r hf)
  | insert k f next ih =>
    simp only [Prog.exec]
    cases hf : f (l.view s) with
    | error e => rfl
    | ok r => simpa using ih (by simpa [Local.hold, Local.write] using hl) (h s (.refl l rfl) r hf)
  | note e next ih => simpa [Prog.exec] using ih (by simpa [Local.noted] using hl) h
  | commit next ih => exact (h s (.refl l rfl)).1.elim

/-- A call that raises leaves the committed state alone. -/
theorem call_raised {p : Prog σ κ ρ ν ε α} {Q : α → Local σ κ ρ ν → σ → Prop} {s s' : σ} {e : ε}
    (h : wp (alone s) (Contract.plain : Contract σ κ β) p Q .init s)
    (hc : call p s = (.error e, s')) : s' = s := by
  have hb : (p.exec s s).2.1 = s := exec_base rfl h
  unfold call at hc
  split at hc
  · cases hc
  · rename_i he
    cases hc
    rwa [he] at hb

/-- A call that returns has committed the view of some end the program's `wp` allows. -/
theorem call_wp {p : Prog σ κ ρ ν ε α} {Q : α → Local σ κ ρ ν → σ → Prop} {s s' : σ} {a : α}
    (h : wp (alone s) (Contract.plain : Contract σ κ β) p Q .init s) (hc : call p s = (.ok a, s')) :
    ∃ l, Q a l s ∧ s' = l.view s := by
  unfold call at hc
  split at hc
  · rename_i he
    cases hc
    exact exec_wp rfl h he
  · cases hc

/-! ## Among others -/

/-- What is left to show when the program returns: its commit, whenever it comes,
takes the store from one state to another as `P` says. -/
def AtCommit (D : Discipline σ κ) (P : β → List κ → σ → σ → Prop) (a : β) (l : Local σ κ ρ ν)
    (s : σ) : Prop :=
  ∀ s', Later D l s s' → P a l.locks s' (l.view s')

def Final (D : Discipline σ κ) (T : Contract σ κ α) : α → Local σ κ ρ ν → σ → Prop :=
  AtCommit D (fun a => T.publish (some a))

/-- Every commit keeps the invariant and disturbs nobody who holds other rows. -/
def Lawful (D : Discipline σ κ) (T : Contract σ κ α) : Prop :=
  ∀ o L s t, T.publish o L s t → D.inv s → D.inv t ∧ ∀ L', (∀ k ∈ L', k ∉ L) → D.rely L' s t

/-- The transaction has the rows `A` of the statement it came to, and maybe all it wants. -/
structure Granted (D : Discipline σ κ) (T : Contract σ κ α) (p : Prog σ κ ρ ν ε α)
    (l' : Local σ κ ρ ν) (s : σ) (l : Local σ κ ρ ν) (A : List κ) (t : σ) : Prop where
  holds : l' = l.hold A
  pre : wp D T p (Final D T) l t
  acquired : Acquired D p.wanted l A t s
  owned : l.Owned

/-- Between two moves a verified transaction stands before a statement. -/
structure Standing (D : Discipline σ κ) (T : Contract σ κ α) (p : Prog σ κ ρ ν ε α)
    (l' : Local σ κ ρ ν) (s : σ) (l : Local σ κ ρ ν) (A : List κ) (t : σ) : Prop where
  holds : l' = l.hold A
  pre : wp D T p (Final D T) l t
  waiting : Waiting D p.wanted l A t s
  owned : l.Owned

namespace Standing

variable {D : Discipline σ κ} {T : Contract σ κ α} {p : Prog σ κ ρ ν ε α} {l l' : Local σ κ ρ ν}
  {A : List κ} {s t u : σ}

theorem start (hw : wp D T p (Final D T) l s) (hi : D.inv s) (ho : l.Owned) :
    Standing D T p l s l [] s :=
  ⟨rfl, hw, ⟨.refl l hi, by simp⟩, ho⟩

theorem granted (h : Standing D T p l' s l A t) : Granted D T p l' s l A t :=
  ⟨h.holds, h.pre, .waited h.waiting, h.owned⟩

/-- Others may move the store as their own discipline allows. -/
theorem others (h : Standing D T p l' s l A t) (hu : Later D l' s u) :
    Standing D T p l' u l A t := by
  have hl : ∀ k ∈ l.locks, k ∈ l'.locks := by
    intro k hk
    rw [h.holds]
    exact List.mem_append_right _ hk
  refine ⟨h.holds, h.pre, ⟨h.waiting.later.trans (hu.mono hl), ?_⟩, h.owned⟩
  intro a ha
  obtain ⟨v, hv, hk, hne, hr⟩ := h.waiting.taken a ha
  refine ⟨v, hv, hk, hne, (hu.rows a ?_).trans hr⟩
  rw [h.holds]
  exact List.mem_append_left _ ha

theorem grant (h : Standing D T p l' s l A t) {k : κ} (hk : k ∈ p.wanted (l'.view s)) :
    Granted D T p (l'.hold [k]) s l (k :: A) t := by
  obtain ⟨rfl, hw, ha, ho⟩ := h
  exact ⟨rfl, hw, .last ha hk, ho⟩

/-- One lock more, and not the last. -/
theorem acquire [DecidableEq κ] (h : Standing D T p l' s l A t) {k : κ}
    (hk : k ∈ p.wanted (l'.view s)) (hshort : p.needs (l'.hold [k]) s ≠ []) :
    Standing D T p (l'.hold [k]) s l (k :: A) t := by
  obtain ⟨x, hx⟩ := List.exists_mem_of_ne_nil _ hshort
  obtain ⟨hwanted, hfree⟩ := List.mem_filter.mp hx
  obtain ⟨rfl, hw, ha, ho⟩ := h
  refine ⟨rfl, hw, ⟨ha.later, ?_⟩, ho⟩
  intro a hm
  rcases List.mem_cons.mp hm with rfl | hm
  · refine ⟨s, ha.later, hk, ⟨x, hwanted, ?_⟩, rfl⟩
    rintro rfl
    simp at hfree
  · exact ha.taken a hm

end Standing

section Run

variable [DecidableEq κ]

/-- What one statement of a verified transaction does to the store, to its locks
and to what is left of it. -/
structure Ran (D : Discipline σ κ) (T : Contract σ κ α) (l : Local σ κ ρ ν) (s : σ)
    (free : κ → Bool) (u : σ) (t : Txn σ κ ρ ν ε α) : Prop where
  publish : u = s ∨ ∃ o, T.publish o l.locks s u
  returns : ∀ a, t = .ended (.returned a) → T.publish (some a) l.locks s u
  standing : ∀ p' l', t = .running p' l' → D.inv u → ∃ m A v, Standing D T p' l' u m A v
  locks : ∀ k ∈ t.locks, k ∈ l.locks ∨ free k
  rows : ∀ k, k ∉ l.locks → Store.row k u = Store.row k s

section

variable {D : Discipline σ κ} {T : Contract σ κ α} {p : Prog σ κ ρ ν ε α} {l m : Local σ κ ρ ν}
  {A : List κ} {s t u : σ} {free : κ → Bool}

omit [DecidableEq κ] in
theorem Ran.raised (e : ε) : Ran D T l s free s (.ended (.raised e) : Txn σ κ ρ ν ε α) :=
  ⟨.inl rfl, by simp, by simp, by simp [Txn.locks], fun _ _ => rfl⟩

omit [DecidableEq κ] in
/-- A statement that commits nothing, and the program goes on. -/
theorem Ran.goes_on {l' : Local σ κ ρ ν} (hlocks : ∀ k ∈ l'.locks, k ∈ l.locks ∨ free k)
    (h : D.inv s → Standing D T p l' s m A t) : Ran D T l s free s (.running p l') := by
  refine ⟨.inl rfl, by simp, fun p' m' hp hi => ?_, hlocks, fun _ _ => rfl⟩
  cases hp
  exact ⟨m, A, t, h hi⟩

theorem Granted.run {t' : Txn σ κ ρ ν ε α} (h : Granted D T p l s m A t)
    (hg : ∀ k f next, p = .update k f next → T.guard k l.snapshot s)
    (hs : p.step l s free = some (u, t')) : Ran D T l s free u t' := by
  have hkept : ∀ k ∈ l.locks, k ∈ l.locks ∨ free k := fun k hk => .inl hk
  cases p with
  | ret a =>
    cases hs
    obtain rfl := h.acquired.eq_nil (fun _ => rfl)
    obtain ⟨rfl, hw, ha, ho⟩ := h
    have hp : T.publish (some a) m.locks s (m.view s) := hw s ha.later
    refine ⟨.inr ⟨_, hp⟩, ?_, by simp, by simp [Txn.locks], fun k hk => ho.row hk s⟩
    intro b hb
    cases hb
    exact hp
  | raise e =>
    cases hs
    exact .raised e
  | select q next =>
    cases hs
    obtain rfl := h.acquired.eq_nil (fun _ => rfl)
    obtain ⟨rfl, hw, ha, ho⟩ := h
    exact .goes_on hkept fun hi => .start (hw s ha.later) hi ho
  | lock keys q next =>
    simp only [Prog.step] at hs
    split at hs
    · rename_i hk
      cases hs
      obtain ⟨rfl, hw, ha, ho⟩ := h
      exact .goes_on hkept fun hi => .start (hw.2 A s ha hk) hi (ho.hold A)
    · cases hs
  | update k f next =>
    have hg := hg k f next rfl
    simp only [Prog.step] at hs
    split at hs
    · rename_i hk
      obtain ⟨rfl, hw, ha, ho⟩ := h
      split at hs
      · rename_i r hf
        cases hs
        exact .goes_on hkept fun hi => .start (hw.2 A s ha hk hg r hf) hi ((ho.hold A).write hk r)
      · cases hs
        exact .raised _
    · cases hs
  | insert k f next =>
    simp only [Prog.step] at hs
    split at hs
    · rename_i hk
      obtain rfl := h.acquired.eq_nil (fun _ => rfl)
      obtain ⟨rfl, hw, ha, ho⟩ := h
      split at hs
      · rename_i r hf
        cases hs
        refine .goes_on (fun k' hk' => ?_) fun hi =>
          .start (hw s ha.later r hf) hi ((ho.hold [k]).write (by simp) r)
        rcases List.mem_cons.mp hk' with rfl | hk'
        · exact .inr hk
        · exact .inl hk'
      · cases hs
        exact .raised _
    · cases hs
  | note e next =>
    cases hs
    obtain rfl := h.acquired.eq_nil (fun _ => rfl)
    obtain ⟨rfl, hw, ha, ho⟩ := h
    exact .goes_on hkept fun hi =>
      ⟨rfl, hw, ⟨⟨ha.later.rely, ha.later.rows, hi⟩, by simp⟩, ho.noted e⟩
  | commit next =>
    cases hs
    obtain rfl := h.acquired.eq_nil (fun _ => rfl)
    obtain ⟨rfl, hw, ha, ho⟩ := h
    obtain ⟨hp, hn⟩ := hw s ha.later
    refine ⟨.inr ⟨_, hp⟩, by simp, ?_, by simp [Txn.locks, Local.init], fun k hk => ho.row hk s⟩
    intro p' l' hp' hi
    cases hp'
    exact ⟨_, _, _, .start hn hi (by simp [Local.Owned, Local.init])⟩

end

end Run

/-- A statement that locks or updates rows commits nothing. -/
theorem Prog.step_of_wanted [DecidableEq κ] {p : Prog σ κ ρ ν ε α} {l : Local σ κ ρ ν} {s v u : σ}
    {free : κ → Bool} {t : Txn σ κ ρ ν ε α} {k : κ} (hk : k ∈ p.wanted v)
    (hs : p.step l s free = some (u, t)) : u = s ∧ ∀ a, t ≠ .ended (.returned a) := by
  cases p with
  | lock keys q next =>
    simp only [Prog.step] at hs
    split at hs <;> cases hs
    simp
  | update k' f next =>
    simp only [Prog.step] at hs
    split at hs
    · split at hs <;> cases hs <;> simp
    · cases hs
  | _ => cases hk

namespace Sys

variable {n : Nat}

/-- What holds of every state of a run of verified transactions. -/
structure Good (D : Discipline σ κ) (T : Fin n → Contract σ κ α) (s : Sys σ κ ρ ν ε α n) :
    Prop where
  inv : D.inv s.db
  standing : ∀ i p l', s.txn i = .running p l' → ∃ l A t, Standing D (T i) p l' s.db l A t
  exclusive : ∀ i j k, i ≠ j → k ∈ (s.txn i).locks → k ∉ (s.txn j).locks
  ended : ∀ i a, s.txn i = .ended (.returned a) →
    ∃ L t u, (T i).publish (some a) L t u ∧ D.rely [] u s.db

variable {D : Discipline σ κ} {T : Fin n → Contract σ κ α}

theorem good_start {s : σ} {p : Fin n → Prog σ κ ρ ν ε α} (hs : D.inv s)
    (hp : ∀ i, wp D (T i) (p i) (Final D (T i)) .init s) : Good D T (start s p) where
  inv := hs
  standing := by
    intro i q l' h
    cases h
    exact ⟨_, _, _, .start (hp i) hs (by simp [Local.Owned, Local.init])⟩
  exclusive := by intro i j k _ hk; simp [start, Txn.locks, Local.init] at hk
  ended := by intro i a h; cases h

variable [DecidableEq κ]

/-- A move that writes over a row does so where the writer's guard holds. -/
def WhereGuarded (guard : Fin n → κ → Option σ → σ → Prop) (s : Sys σ κ ρ ν ε α n) (i : Fin n)
    (m : Move κ) : Prop :=
  m ≠ .abort → ∀ k f next l, s.txn i = .running (.update k f next) l → guard i k l.snapshot s.db

/-- The runs in which every transaction is given what its contract asks for. -/
def Guarded (T : Fin n → Contract σ κ α) : Sys σ κ ρ ν ε α n → Fin n → Move κ → Prop :=
  WhereGuarded fun i => (T i).guard

/-- What a move of transaction `i` does, from a good state. -/
structure Moved (T : Fin n → Contract σ κ α) (s : Sys σ κ ρ ν ε α n) (i : Fin n)
    (s' : Sys σ κ ρ ν ε α n) : Prop where
  others : ∀ j, j ≠ i → s'.txn j = s.txn j
  before : ∀ o, s.txn i ≠ .ended o
  publish : s'.db = s.db ∨ ∃ o, (T i).publish o (s.txn i).locks s.db s'.db
  returns : ∀ a, s'.txn i = .ended (.returned a) → (T i).publish (some a) (s.txn i).locks s.db s'.db

theorem Good.moved {s s' : Sys σ κ ρ ν ε α n} {i : Fin n} {m : Move κ} (h : Good D T s)
    (hg : Guarded T s i m) (hs : s.step i m = some s') : Moved T s i s' := by
  unfold step at hs
  split at hs
  · cases hs
  · rename_i p l ht
    have hbefore : ∀ o, s.txn i ≠ .ended o := by intro o ho; rw [ht] at ho; cases ho
    obtain ⟨m', A, t, hst⟩ := h.standing i p l ht
    cases m with
    | run =>
      simp only [Option.map_eq_some_iff] at hs
      obtain ⟨⟨u, t'⟩, hr, rfl⟩ := hs
      have hran := hst.granted.run (fun k f next hp => hg (by simp) k f next l (by rw [ht, hp])) hr
      refine ⟨fun j hj => by simp [set, hj], hbefore, ?_, ?_⟩
      · simpa [set, ht, Txn.locks] using hran.publish
      · intro a ha
        simpa [set, ht, Txn.locks] using hran.returns a (by simpa [set] using ha)
    | acquire k =>
      simp only at hs
      split at hs
      · rename_i hk
        split at hs
        · simp only [Option.map_eq_some_iff] at hs
          obtain ⟨⟨u, t'⟩, hr, rfl⟩ := hs
          obtain ⟨rfl, hret⟩ := Prog.step_of_wanted (List.mem_filter.mp hk.1).1 hr
          exact ⟨fun j hj => by simp [set, hj], hbefore, .inl rfl,
            fun a ha => absurd (by simpa [set] using ha) (hret a)⟩
        · cases hs
          exact ⟨fun j hj => by simp [set, hj], hbefore, .inl rfl, by simp [set]⟩
      · cases hs
    | abort =>
      cases hs
      exact ⟨fun j hj => by simp [set, hj], hbefore, .inl rfl, by simp [set]⟩

omit [Store σ κ ρ ν] in
theorem free_iff {s : Sys σ κ ρ ν ε α n} {i : Fin n} {k : κ} :
    s.free i k = true ↔ ∀ j, j ≠ i → k ∉ (s.txn j).locks := by simp [free]

/-- A good state stays good when transaction `i` is replaced, if its new locks are
old or free, it stands well, and its commit (if any) kept its promise. -/
theorem Good.set (hT : ∀ i, Lawful D (T i)) {s : Sys σ κ ρ ν ε α n} {i : Fin n} (h : Good D T s)
    {u : σ} {t : Txn σ κ ρ ν ε α} (hb : ∀ o, s.txn i ≠ .ended o)
    (hu : u = s.db ∨ ∃ o, (T i).publish o (s.txn i).locks s.db u)
    (hrow : ∀ k, k ∉ (s.txn i).locks → Store.row k u = Store.row k s.db)
    (hret : ∀ a, t = .ended (.returned a) → (T i).publish (some a) (s.txn i).locks s.db u)
    (hstand : ∀ p l, t = .running p l → D.inv u → ∃ m A v, Standing D (T i) p l u m A v)
    (hlock : ∀ k ∈ t.locks, k ∈ (s.txn i).locks ∨ s.free i k) : Good D T (s.set i (u, t)) := by
  have hmove : D.inv u ∧ ∀ L, (∀ k ∈ L, k ∉ (s.txn i).locks) → D.rely L s.db u := by
    rcases hu with rfl | ⟨o, ho⟩
    · exact ⟨h.inv, fun L _ => D.refl L _⟩
    · exact hT i o _ _ _ ho h.inv
  have hfree : ∀ j k, j ≠ i → k ∈ (s.txn j).locks → k ∉ t.locks := by
    intro j k hj hk hkt
    rcases hlock k hkt with hi | hf
    · exact h.exclusive j i k hj hk hi
    · exact free_iff.mp hf j hj hk
  constructor
  · exact hmove.1
  · intro j p l hj
    by_cases hji : j = i
    · subst hji
      exact hstand p l (by simpa [Sys.set] using hj) hmove.1
    · have hj' : s.txn j = .running p l := by simpa [Sys.set, hji] using hj
      obtain ⟨m, A, v, hst⟩ := h.standing j p l hj'
      have hdis : ∀ k ∈ l.locks, k ∉ (s.txn i).locks :=
        fun k hk => h.exclusive j i k hji (by simpa [hj', Txn.locks] using hk)
      exact ⟨m, A, v, hst.others ⟨hmove.2 _ hdis, fun k hk => hrow k (hdis k hk), hmove.1⟩⟩
  · intro j k x hjk hx
    by_cases hji : j = i
    · subst hji
      have hkj : k ≠ j := fun he => hjk he.symm
      have hx : x ∈ t.locks := by simpa [Sys.set] using hx
      simpa [Sys.set, hkj] using fun hk => hfree k x hkj hk hx
    · by_cases hki : k = i
      · subst hki
        simpa [Sys.set] using hfree j x hji (by simpa [Sys.set, hji] using hx)
      · simpa [Sys.set, hki] using h.exclusive j k x hjk (by simpa [Sys.set, hji] using hx)
  · intro j a hj
    by_cases hji : j = i
    · subst hji
      have hp := hret a (by simpa [Sys.set] using hj)
      exact ⟨_, _, _, hp, D.refl _ _⟩
    · obtain ⟨L, v, w, hp, hr⟩ := h.ended j a (by simpa [Sys.set, hji] using hj)
      exact ⟨L, v, w, hp, D.trans hr (hmove.2 [] (by simp))⟩

theorem Good.step (hT : ∀ i, Lawful D (T i)) {s s' : Sys σ κ ρ ν ε α n} {i : Fin n} {m : Move κ}
    (h : Good D T s) (hg : Guarded T s i m) (hs : s.step i m = some s') : Good D T s' := by
  unfold Sys.step at hs
  split at hs
  · cases hs
  · rename_i p l ht
    have hb : ∀ o, s.txn i ≠ .ended o := by intro o ho; rw [ht] at ho; cases ho
    have hl : (s.txn i).locks = l.locks := by rw [ht]; rfl
    obtain ⟨m', A, t, hst⟩ := h.standing i p l ht
    cases m with
    | run =>
      simp only [Option.map_eq_some_iff] at hs
      obtain ⟨⟨u, t'⟩, hr, rfl⟩ := hs
      have hran := hst.granted.run (fun k f next hp => hg (by simp) k f next l (by rw [ht, hp])) hr
      refine h.set hT hb ?_ ?_ ?_ hran.standing ?_
      · rw [hl]; exact hran.publish
      · rw [hl]; exact fun k hk => hran.rows k hk
      · rw [hl]; exact hran.returns
      · rw [hl]; exact hran.locks
    | acquire k =>
      simp only at hs
      split at hs
      · rename_i hk
        have hw : k ∈ p.wanted (l.view s.db) := (List.mem_filter.mp hk.1).1
        have hlocks : ∀ x ∈ (l.hold [k]).locks, x ∈ (s.txn i).locks ∨ s.free i x := by
          intro x hx
          rw [hl]
          rcases List.mem_cons.mp hx with rfl | hx
          · exact .inr hk.2
          · exact .inl hx
        split at hs
        · simp only [Option.map_eq_some_iff] at hs
          obtain ⟨⟨u, t'⟩, hr, rfl⟩ := hs
          obtain ⟨rfl, hret⟩ := Prog.step_of_wanted hw hr
          have hran := (hst.grant hw).run (fun k' f next hp =>
            hg (by simp) k' f next l (by rw [ht, hp])) hr
          refine h.set hT hb (.inl rfl) (fun _ _ => rfl)
            (fun a ha => absurd ha (hret a)) hran.standing fun x hx => ?_
          rcases hran.locks x hx with hx | hx
          · exact hlocks x hx
          · exact .inr hx
        · rename_i hshort
          cases hs
          refine h.set hT hb (.inl rfl) (fun _ _ => rfl) (by simp) ?_ hlocks
          intro p' l' hp _
          cases hp
          exact ⟨_, _, _, hst.acquire hw hshort⟩
      · cases hs
    | abort =>
      cases hs
      exact h.set hT hb (.inl rfl) (fun _ _ => rfl) (by simp) (by simp) (by simp [Txn.locks])

/-- Verified transactions run together, in any order, from a good start. -/
theorem good_of_reach (hT : ∀ i, Lawful D (T i)) {s₀ s : Sys σ κ ρ ν ε α n} (h₀ : Good D T s₀)
    (hr : Reach (Guarded T) s₀ s) : Good D T s := by
  induction hr with
  | refl => exact h₀
  | tail i m _ hg hs ih => exact ih.step hT hg hs

/-- Over a run of verified transactions the store changes as the discipline allows. -/
theorem Good.onward (hT : ∀ i, Lawful D (T i)) {s s' : Sys σ κ ρ ν ε α n} (h : Good D T s)
    (hr : Reach (Guarded T) s s') : D.rely [] s.db s'.db := by
  induction hr with
  | refl => exact D.refl [] _
  | @tail t u i m hr hg hs ih =>
    have ht := good_of_reach hT h hr
    refine D.trans ih ?_
    rcases (ht.moved hg hs).publish with he | ⟨o, hp⟩
    · rw [he]
      exact D.refl [] _
    · exact (hT i o _ _ _ hp ht.inv).2 [] (by simp)

omit [DecidableEq κ] in
/-- A commit in mid-course keeps what was promised of it. -/
theorem Good.commit {s : Sys σ κ ρ ν ε α n} {i : Fin n} {next : Prog σ κ ρ ν ε α}
    {l : Local σ κ ρ ν} (h : Good D T s) (ht : s.txn i = .running (.commit next) l) :
    (T i).publish none l.locks s.db (l.view s.db) := by
  obtain ⟨m, A, t, hst⟩ := h.standing i _ l ht
  obtain rfl := hst.granted.acquired.eq_nil (fun _ => rfl)
  obtain ⟨rfl, hw, ha, _⟩ := hst
  exact (hw s.db ha.later).1

omit [DecidableEq κ] in
/-- A transaction that runs may be verified anew from where it is, under another contract. -/
theorem Good.anew {s : Sys σ κ ρ ν ε α n} {i : Fin n} {p : Prog σ κ ρ ν ε α} {l : Local σ κ ρ ν}
    {C : Contract σ κ α} (h : Good D T s) (ht : s.txn i = .running p l)
    (hw : wp D C p (Final D C) l s.db) (ho : l.Owned) : Good D (Function.update T i C) s := by
  refine ⟨h.inv, fun j q m hj => ?_, h.exclusive, fun j a hj => ?_⟩
  · by_cases hji : j = i
    · subst hji
      rw [ht] at hj
      cases hj
      exact ⟨l, [], s.db, by simpa using Standing.start hw h.inv ho⟩
    · simpa [hji] using h.standing j q m hj
  · have hji : j ≠ i := by
      rintro rfl
      rw [ht] at hj
      cases hj
    simpa [hji] using h.ended j a hj

/-- If whoever of `I` returns finds `¬P` and leaves `P`, and `P` stays, then at most one of `I`
returns. -/
theorem Good.one_return_among (hT : ∀ i, Lawful D (T i)) {I : Fin n → Prop} {P : σ → Prop}
    (hstay : ∀ s t, D.rely [] s t → P s → P t)
    (hret : ∀ i, I i → ∀ a L s t, (T i).publish (some a) L s t → D.inv s → ¬P s ∧ P t)
    {s₀ s : Sys σ κ ρ ν ε α n} (h₀ : Good D T s₀) (hnone : ∀ i a, s₀.txn i ≠ .ended (.returned a))
    (hr : Reach (Guarded T) s₀ s) :
    (∀ i, I i → ∀ a, s.txn i = .ended (.returned a) → P s.db) ∧ ∀ i j, I i → I j → ∀ a b,
    s.txn i = .ended (.returned a) → s.txn j = .ended (.returned b) → i = j := by
  induction hr with
  | refl => exact ⟨fun i _ a h => absurd h (hnone i a), fun i j _ _ a b h => absurd h (hnone i a)⟩
  | @tail t u k m hr hg hs ih =>
    obtain ⟨ihP, ihone⟩ := ih
    have ht := good_of_reach hT h₀ hr
    have hmoved := ht.moved hg hs
    have hnew : I k → ∀ a, u.txn k = .ended (.returned a) → ¬P t.db ∧ P u.db :=
      fun hk a ha => hret k hk a _ _ _ (hmoved.returns a ha) ht.inv
    have hkeep : P t.db → P u.db := hstay _ _ (ht.onward hT (.tail k m .refl hg hs))
    have hold : ∀ i a, i ≠ k → u.txn i = .ended (.returned a) → t.txn i = .ended (.returned a) :=
      fun i a hi ha => (hmoved.others i hi) ▸ ha
    constructor
    · intro i hI a ha
      by_cases hi : i = k
      · subst hi
        exact (hnew hI a ha).2
      · exact hkeep (ihP i hI a (hold i a hi ha))
    · intro i j hI hJ a b ha hb
      by_cases hi : i = k <;> by_cases hj : j = k
      · rw [hi, hj]
      · subst hi
        exact absurd (ihP j hJ b (hold j b hj hb)) (hnew hI a ha).1
      · subst hj
        exact absurd (ihP i hI a (hold i a hi ha)) (hnew hJ b hb).1
      · exact ihone i j hI hJ a b (hold i a hi ha) (hold j b hj hb)

/-- If whoever returns finds `¬P` and leaves `P`, and `P` stays, then at most one returns. -/
theorem Good.one_return (hT : ∀ i, Lawful D (T i)) {P : σ → Prop}
    (hstay : ∀ s t, D.rely [] s t → P s → P t)
    (hret : ∀ i a L s t, (T i).publish (some a) L s t → D.inv s → ¬P s ∧ P t)
    {s₀ s : Sys σ κ ρ ν ε α n} (h₀ : Good D T s₀) (hnone : ∀ i a, s₀.txn i ≠ .ended (.returned a))
    (hr : Reach (Guarded T) s₀ s) :
    (∀ i a, s.txn i = .ended (.returned a) → P s.db) ∧ ∀ i j a b, s.txn i = .ended (.returned a) →
    s.txn j = .ended (.returned b) → i = j := by
  obtain ⟨hP, hone⟩ := h₀.one_return_among hT (I := fun _ => True) hstay (fun i _ => hret i)
    hnone hr
  exact ⟨fun i => hP i trivial, fun i j => hone i j trivial trivial⟩

end Sys

end Transaction

import LibraryPlatform.Transaction

/-!
# The exceptions a program may end in

A program that runs alone ends in an exception or in a result. What it has to find, so that it
raises none but the exceptions of a class, is read off its statements one by one.
-/
namespace Transaction

variable {σ κ ρ ν ε α β : Type} [Store σ κ ρ ν] {E : ε → Prop} {p : Prog σ κ ρ ν ε α}
  {Q : α → σ → σ → Prop} {base w s : σ}

namespace Prog

/-- From `w`, in a transaction begun in `base`, the program raises an exception of `E`, or ends in
a result and two states that satisfy `Q`. -/
def Ends (E : ε → Prop) (p : Prog σ κ ρ ν ε α) (base w : σ) (Q : α → σ → σ → Prop) : Prop :=
  match p.exec base w with
  | (.ok a, base', w') => Q a base' w'
  | (.error e, _, _) => E e

@[simp] theorem ends_ret {a : α} :
    (ret a : Prog σ κ ρ ν ε α).Ends E base w Q ↔ Q a base w := Iff.rfl

@[simp] theorem ends_raise {e : ε} :
    (raise e : Prog σ κ ρ ν ε α).Ends E base w Q ↔ E e := Iff.rfl

@[simp] theorem ends_select {q : σ → β} {next : β → Prog σ κ ρ ν ε α} :
    (select q next).Ends E base w Q ↔ (next (q w)).Ends E base w Q := Iff.rfl

@[simp] theorem ends_lock {keys : σ → List κ} {q : σ → β} {next : β → Prog σ κ ρ ν ε α} :
    (lock keys q next).Ends E base w Q ↔ (next (q w)).Ends E base w Q := Iff.rfl

@[simp] theorem ends_note {e : ν} :
    (note e p).Ends E base w Q ↔ p.Ends E base (Store.record e w) Q := Iff.rfl

@[simp] theorem ends_commit : (commit p).Ends E base w Q ↔ p.Ends E w w Q := Iff.rfl

theorem ends_insert {k : κ} {f : σ → Except ε ρ} {next : Prog σ κ ρ ν ε α} :
    (insert k f next).Ends E base w Q ↔ (∀ e, f w = .error e → E e) ∧
      ∀ r, f w = .ok r → next.Ends E base (Store.put k r w) Q := by
  unfold Ends
  rw [exec]
  cases f w <;> simp

/-- Where nothing may be raised, the row is stored. -/
theorem ends_insert_iff {k : κ} {f : σ → Except ε ρ} {next : Prog σ κ ρ ν ε α} :
    (insert k f next).Ends (fun _ => False) base w Q ↔
      ∃ r, f w = .ok r ∧ next.Ends (fun _ => False) base (Store.put k r w) Q := by
  rw [ends_insert]
  cases f w <;> simp

theorem ends_bind {f : α → Prog σ κ ρ ν ε β} {R : β → σ → σ → Prop} :
    (p.bind f).Ends E base w R ↔ p.Ends E base w fun a base' w' => (f a).Ends E base' w' R := by
  unfold Ends
  rw [exec_bind]
  rcases p.exec base w with ⟨a | e, base', w'⟩ <;> rfl

theorem Ends.mono {R : α → σ → σ → Prop} (h : p.Ends E base w Q)
    (hQ : ∀ a base' w', Q a base' w' → R a base' w') : p.Ends E base w R := by
  unfold Ends at h ⊢
  split <;> rename_i he <;> rw [he] at h
  · exact hQ _ _ _ h
  · exact h

theorem ends_mapError {h : ε → ε} :
    (p.mapError h).Ends E base w Q ↔ p.Ends (fun e => E (h e)) base w Q := by
  unfold Ends
  rw [exec_mapError]
  rcases p.exec base w with ⟨a | e, base', w'⟩ <;> rfl

theorem ends_of_exec {a : α} {base' w' : σ} (h : p.exec base w = (.ok a, base', w')) :
    p.Ends E base w Q ↔ Q a base' w' := by
  unfold Ends
  rw [h]

/-- What a call may raise. -/
theorem ends_call_iff :
    p.Ends E s s (fun _ _ _ => True) ↔ ∀ e, (call p s).1 = .error e → E e := by
  unfold Ends call
  rcases p.exec s s with ⟨a | e, base', w'⟩ <;> simp

end Prog

end Transaction

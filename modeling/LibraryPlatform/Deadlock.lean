import Mathlib.Logic.Relation
import Mathlib.Order.Defs.PartialOrder
import LibraryPlatform.TransactionLogic

/-!
# Circular waits

A transaction holds the rows it has locked while it waits for others. If the transactions
that wait have ranks that go up along the waits, no wait is circular. `wp` gives the ranks:
a contract tells in its `point` what a transaction wants and has where it may wait.
-/
namespace Transaction

variable {σ κ ρ ν ε α β : Type}

/-! ## A rank along the waits -/

section Rank

variable {ι γ : Type} [Preorder γ] {waits : ι → ι → Prop} {rank : ι → γ → Prop}
  (hrank : ∀ i j, waits i j → ∃ a, rank i a)
  (hlt : ∀ i j a b, waits i j → (∃ k, waits j k) → rank i a → rank j b → a < b)

include hrank hlt

end Rank

section Store

variable [Store σ κ ρ ν]

/-! ## Contracts about waiting -/

/-- Nothing is asked of the store. -/
def lax : Discipline σ κ where
  inv _ := True
  rely _ _ _ := True
  refl _ _ := trivial
  trans _ _ := trivial
  anti _ h := h

/-- A promise about the places where a transaction may wait, and about nothing else. -/
def Contract.waitsAt (point : List κ → List κ → σ → Prop) : Contract σ κ α where
  publish _ _ _ _ := True
  guard _ _ _ := True
  point := point

section Rules

variable {D : Discipline σ κ} {T : Contract σ κ α} {l : Local σ κ ρ ν} {s : σ}

/-- A locking read of one row at most. -/
theorem wp_lockOne {keys : σ → List κ} {q : σ → β} {Q : β → Local σ κ ρ ν → σ → Prop}
    (hone : ∀ v, ∀ k ∈ keys v, ∀ a ∈ keys v, k = a)
    (hpoint : ∀ s', Later D l s s' → T.point (keys (l.view s')) l.locks s')
    (h : ∀ A s', Later D l s s' → (∀ a ∈ A, a ∈ keys (l.view s')) →
      (∀ k ∈ keys (l.view s'), k ∈ A ++ l.locks) → Q (q (l.view s')) (l.hold A) s') :
    wp D T (.lock keys q .ret : Prog σ κ ρ ν ε β) Q l s := by
  constructor
  · intro A s' hw
    obtain rfl := hw.eq_nil hone
    exact hpoint s' hw.later
  · exact fun A s' ha hk => h A s' ha.later (ha.mem_of_one hone) hk

theorem wp_updateRow {k : κ} {f : σ → Except ε ρ} {Q : Unit → Local σ κ ρ ν → σ → Prop}
    (hpoint : ∀ s', Later D l s s' → T.point [k] l.locks s')
    (h : ∀ A s' r, Later D l s s' → (∀ a ∈ A, a = k) → k ∈ A ++ l.locks →
      Q () ((l.hold A).write k r) s') :
    wp D T (.update k f (.ret ()) : Prog σ κ ρ ν ε Unit) Q l s := by
  refine ⟨hpoint, fun A s' ha hk _ r _ => h A s' r ha.later (fun a hm => ?_) hk⟩
  simpa using ha.mem_of_one (by simp) a hm

end Rules

namespace Sys

variable {n : Nat} [DecidableEq κ]

instance (s : Sys σ κ ρ ν ε α n) (i j : Fin n) : Decidable (s.WaitsFor i j) :=
  inferInstanceAs (Decidable (∃ k ∈ (s.txn i).needs s.db, k ∈ (s.txn j).locks))

/-- Where a transaction waits, its point holds. -/
theorem Good.point {D : Discipline σ κ} {T : Fin n → Contract σ κ α} {s : Sys σ κ ρ ν ε α n}
    (h : Good D T s) {i : Fin n} {k : κ} (hk : k ∈ (s.txn i).needs s.db) :
    ∃ keys, (s.txn i).needs s.db = keys.filter (fun x => x ∉ (s.txn i).locks) ∧
    (T i).point keys (s.txn i).locks s.db := by
  cases ht : s.txn i with
  | ended o =>
    rw [ht] at hk
    cases hk
  | running p l =>
    rw [ht] at hk
    obtain ⟨m, A, t, rfl, hp, ha, _⟩ := h.standing i p l ht
    refine ⟨p.wanted ((m.hold A).view s.db), rfl, ?_⟩
    have hw := (List.mem_filter.mp hk).1
    cases p with
    | lock keys q next => exact hp.1 A _ ha
    | update x f next =>
      obtain rfl : A = [] := ha.eq_nil (by simp [Prog.wanted])
      exact hp.1 _ ha.later
    | _ => cases hw

theorem WaitsFor.ne {s : Sys σ κ ρ ν ε α n} {i j : Fin n} (h : s.WaitsFor i j) : i ≠ j := by
  rintro rfl
  obtain ⟨k, hk, hl⟩ := h
  cases ht : s.txn i with
  | ended o =>
    rw [ht] at hl
    cases hl
  | running p l =>
    rw [ht] at hk hl
    have hfree : k ∉ l.locks := by simpa using (List.mem_filter.mp hk).2
    exact hfree hl

end Sys

end Store

end Transaction

import LibraryPlatform.KeyedTable
import LibraryPlatform.TransactionLogic

/-!
# Unique indexes

A unique index is a table of its own: under each value of a column it has the primary
key of the one row with that value. A row is inserted together with its entry, and
neither of them over another one.
-/
namespace KeyedTable

open Keyed (key)

/-- The row with a value of the indexed column. -/
structure IndexEntry (ν κ : Type) where
  value : ν
  row : κ
  deriving DecidableEq

instance {ν κ : Type} : Keyed ν (IndexEntry ν κ) := ⟨IndexEntry.value⟩

variable {ν κ ρ : Type} [Keyed κ ρ] [DecidableEq κ] [DecidableEq ν]

theorem Table.get_eq_none {t : Table ρ} {k : κ} : t.get k = none ↔ ∀ r ∈ t.rows, key r ≠ k := by
  rw [Option.eq_none_iff_forall_ne_some]
  exact ⟨fun h r hr hk => h r (get_eq_some.mpr ⟨hr, hk⟩),
    fun h r hr => h r (mem_of_get hr) (key_of_get hr)⟩

/-- A row whose key was free is added to the others. -/
theorem Table.mem_put_fresh {t : Table ρ} {x z : ρ} (h : t.get (key x) = none) :
    z ∈ (t.put x).rows ↔ z = x ∨ z ∈ t.rows :=
  mem_put.trans (or_congr_right ⟨And.left, fun hz => ⟨hz, get_eq_none.mp h z hz⟩⟩)

/-- The entries of the index are those of the rows of the table. -/
def Indexes (index : Table (IndexEntry ν κ)) (t : Table ρ) (column : ρ → ν) : Prop :=
  ∀ v k, index.get v = some ⟨v, k⟩ ↔ ∃ r, t.get k = some r ∧ column r = v

namespace Indexes

variable {index : Table (IndexEntry ν κ)} {t : Table ρ} {column : ρ → ν} {r q : ρ} {v : ν}

theorem empty (column : ρ → ν) :
    Indexes (.empty : Table (IndexEntry ν κ)) (.empty : Table ρ) column := by simp [Indexes]

theorem entry (h : Indexes index t column) (hr : r ∈ t.rows) :
    index.get (column r) = some ⟨column r, key r⟩ :=
  (h _ _).mpr ⟨r, Table.get_of_mem hr, rfl⟩

/-- No two rows have one value. -/
theorem injective (h : Indexes index t column) (hr : r ∈ t.rows) (hq : q ∈ t.rows)
    (hcolumn : column r = column q) : r = q := by
  have hrow : key r = key q := by
    have hentry := h.entry hr
    rw [hcolumn, h.entry hq] at hentry
    exact (IndexEntry.mk.inj (Option.some.inj hentry)).2.symm
  have hget := Table.get_of_mem hr
  rw [hrow, Table.get_of_mem hq] at hget
  exact (Option.some.inj hget).symm

/-- A value without an entry is free. -/
theorem get_eq_none (h : Indexes index t column) :
    index.get v = none ↔ ∀ r ∈ t.rows, column r ≠ v := by
  constructor
  · rintro hnone r hr rfl
    cases hnone.symm.trans (h.entry hr)
  · intro hfree
    cases hv : index.get v with
    | none => rfl
    | some e =>
      obtain rfl : e.value = v := Table.key_of_get hv
      obtain ⟨r, hr, hcolumn⟩ := (h _ _).mp hv
      exact absurd hcolumn (hfree r (Table.mem_of_get hr))

/-- A row and its entry are inserted where there are neither. -/
theorem insert (h : Indexes index t column) (hrow : t.get (key r) = none)
    (hfree : index.get (column r) = none) :
    Indexes (index.put ⟨column r, key r⟩) (t.put r) column := by
  intro v k
  rw [Table.get_put, Table.get_put]
  by_cases hk : k = key r
  · subst hk
    have hno : ∀ v', index.get v' ≠ some ⟨v', key r⟩ := by
      intro v' he
      obtain ⟨q, hq, _⟩ := (h _ _).mp he
      cases hrow.symm.trans hq
    by_cases hv : v = column r
    · subst hv
      simp [Keyed.key]
    · have hne : v ≠ Keyed.key (IndexEntry.mk (column r) (key r)) := hv
      rw [if_neg hne, if_pos rfl]
      exact ⟨fun he => absurd he (hno v), by rintro ⟨_, ⟨⟩, rfl⟩; exact absurd rfl hv⟩
  · rw [if_neg hk]
    split
    · rename_i hv
      subst hv
      constructor
      · rintro ⟨⟩
        exact absurd rfl hk
      · rintro ⟨q, hq, hcolumn⟩
        cases hfree.symm.trans (hcolumn ▸ h.entry (Table.mem_of_get hq))
    · exact h v k

end Indexes

end KeyedTable

namespace Transaction

/-! ## What a transaction inserts -/

variable {σ κ ρ ν ε α β : Type} [Store σ κ ρ ν] {D : Discipline σ κ} {T : Contract σ κ α}
  {l : Local σ κ ρ ν} {s t : σ} {P : σ → Prop}

/-- Whenever the transaction commits, `P` will hold of the store. -/
def Stays (D : Discipline σ κ) (l : Local σ κ ρ ν) (s : σ) (P : σ → Prop) : Prop :=
  ∀ t, Later D l s t → P t

theorem Stays.next (h : Stays D l s P) (hs : Later D l s t) (A : List κ) (k : κ) (r : ρ) :
    Stays D ((l.hold A).write k r) t P := fun _ hu => h _ (hs.trans hu.unwrite.unhold)

/-- Nobody touches the row between its insertion and the commit. -/
theorem wp_insert {k : κ} {f : σ → Except ε ρ} {next : Prog σ κ ρ ν ε β}
    {Q : β → Local σ κ ρ ν → σ → Prop} (hP : Stays D l s P)
    (h : ∀ s' r, Later D l s s' → f (l.view s') = .ok r →
      Stays D ((l.hold [k]).write k r) s'
        (fun t => P t ∧ Store.row k (l.view t) = Store.row k (l.view s')) →
      wp D T next Q ((l.hold [k]).write k r) s') :
    wp D T (.insert k f next) Q l s := by
  intro s' hs r hr
  refine h s' r hs hr fun t ht => ⟨hP.next hs [k] k r t ht, ?_⟩
  exact ht.unwrite.view (l := l.hold [k]) (by simp)

end Transaction

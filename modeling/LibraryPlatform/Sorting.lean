import LibraryPlatform.Arrangement
import LibraryPlatform.Database

/-!
# What an ORDER BY may return

The orders in which the database may hand out rows, sorted by a key, are the arrangements of the
rows by the key.
-/
namespace LibraryPlatform

open Arrangement

namespace RowOrder

variable {ρ κ : Type} [LinearOrder κ] {key : ρ → κ} {rows l : List ρ}

theorem arranged (order : RowOrder ρ) (key : ρ → κ) (rows : List ρ) :
    Arranged key rows ((order.apply rows).insertionSort (fun a b => key a ≤ key b)) :=
  arranged_sort (order.perm rows)

/-- The database hands out just these rows in this order. -/
def giving [DecidableEq ρ] (rows l : List ρ) (h : l.Perm rows) : RowOrder ρ where
  apply rows' := if rows' = rows then l else rows'
  perm rows' := by
    split
    · rename_i heq
      rwa [heq]
    · exact .refl _

theorem giving_sorted [DecidableEq ρ] (h : Arranged key rows l) :
    ((giving rows l h.1).apply rows).insertionSort (fun a b => key a ≤ key b) = l := by
  have hgiven : (giving rows l h.1).apply rows = l := if_pos rfl
  rw [hgiven, h.sort_eq]

/-- Nothing comes first or last for the database. -/
def reversed : RowOrder ρ := ⟨List.reverse, List.reverse_perm⟩

end RowOrder

end LibraryPlatform

import LibraryPlatform.LockOrder
import LibraryPlatform.Traffic

/-!
# Where requests wait for each other

A request of a route that writes waits where its operation does: before that it only reads. A
rotation or a logout waits for refresh tokens and has locked no others. So a circular wait is
one of operations whose lock orders cross.
-/
namespace LibraryPlatform

open KeyedTable Transaction

variable {n : Nat} {api : Api} {visits : Fin n → Visit} {s₀ : DB} {s : Traffic n}

/-- Waits of the first route for the second that go against the order of the others. -/
def Route.againstOrder : Route → Route → Bool
  | .placeReservation _, .borrowBook _ => true
  | .cancelReservation _, .borrowBook _ => true
  | .sweepExpiredHolds, .borrowBook _ => true
  | .sweepExpiredHolds, .sweepExpiredHolds => true
  | _, _ => false

def Visit.againstOrder : Visit → Visit → Bool
  | .write _ _ _ route, .write _ _ _ route' => route.againstOrder route'
  | _, _ => false

theorem Dispatched.againstOrder {now now' : Int}
    {credentials credentials' : Option HTTPAuthorizationCredentials} {u u' : DB}
    {route route' : Route} {op op' : Op} (h : Dispatched api now credentials u route op)
    (h' : Dispatched api now' credentials' u' route' op') :
    op.againstOrder op' = route.againstOrder route' := by
  cases h <;> cases h' <;> rfl

/-- Where a rotation or a logout waits, it wants one token and has locked earlier ones only. -/
def AtToken (keys locks : List RowKey) : Prop :=
  ∃ id, keys = [.refreshToken id] ∧ ∀ k ∈ locks, ∃ id' ≤ id, k = .refreshToken id'

/-- Where a visit wants `keys`. -/
def Visit.Point (api : Api) (keys locks : List RowKey) (s : DB) : Visit → Prop
  | .write now credentials _ route =>
    ∃ u op, Dispatched api now credentials u route op ∧ op.Point keys locks s
  | .sign _ _ => AtToken keys locks
  | .ask _ _ _ _ => False

/-- The contract of a visit about its waiting. -/
def Visit.waits (api : Api) (v : Visit) : Contract DB RowKey Response :=
  .waitsAt fun keys locks s => v.Point api keys locks s

/-! ## One visit -/

section

variable {σ κ ρ ν ε α β γ : Type} [Store σ κ ρ ν]

end

section

variable {l : Local DB RowKey Row Event} {db : DB}

variable {T : Contract DB RowKey Response}

end

/-! ## Visits together -/

/-- How late in the order a waiting visit is: without locks it comes first, and of those that
wait for tokens who waits for a later one comes later. -/
inductive VisitRank (api : Api) (visits : Fin n → Visit) (s : Traffic n) (i : Fin n) : Nat → Prop
  | nothing : (s.txn i).locks = [] → VisitRank api visits s i 0
  | phase {now : Int} {credentials : Option HTTPAuthorizationCredentials} {env : Env}
      {route : Route} {u : DB} {op : Op} {φ : Phase} :
      visits i = .write now credentials env route → Dispatched api now credentials u route op →
      AtPhase op φ ((s.txn i).needs s.db) (s.txn i).locks s.db → VisitRank api visits s i φ.rank
  | token {id : UUID} : (s.txn i).needs s.db = [.refreshToken id] →
      (∀ k ∈ (s.txn i).locks, ∃ id' < id, k = .refreshToken id') →
      VisitRank api visits s i (id + 1)

abbrev Spaced (api : Api) (visits : Fin n → Visit) (s : Traffic n) : Prop :=
  Sys.Good lax (fun i => (visits i).waits api) s

theorem Spaced.rank (h : Spaced api visits s) {i j : Fin n} (hij : s.WaitsFor i j) :
    ∃ r, VisitRank api visits s i r := by
  obtain ⟨k, hk, _⟩ := hij
  obtain ⟨keys, hneeds, hpoint⟩ := h.point hk
  rw [hneeds] at hk
  obtain ⟨hkey, hfree⟩ := List.mem_filter.mp hk
  have hfree : k ∉ (s.txn i).locks := by simpa using hfree
  cases hv : visits i with
  | write now credentials env route =>
    rw [hv] at hpoint
    obtain ⟨u, op, hd, hnone | hheld | ⟨φ, hφ⟩⟩ := hpoint
    · exact ⟨0, .nothing hnone⟩
    · exact absurd (hheld k hkey) hfree
    · rw [← hneeds] at hφ
      exact ⟨φ.rank, .phase hv hd hφ⟩
  | sign env op =>
    rw [hv] at hpoint
    obtain ⟨id, rfl, hlocks⟩ := hpoint
    obtain rfl : k = .refreshToken id := List.mem_singleton.mp hkey
    refine ⟨id + 1, .token ?_ fun k hk' => ?_⟩
    · rw [hneeds]
      simp [hfree]
    · obtain ⟨id', hle, rfl⟩ := hlocks k hk'
      refine ⟨id', lt_of_le_of_ne hle ?_, rfl⟩
      rintro rfl
      exact hfree hk'
  | ask now credentials env inquiry =>
    rw [hv] at hpoint
    exact hpoint.elim

end LibraryPlatform

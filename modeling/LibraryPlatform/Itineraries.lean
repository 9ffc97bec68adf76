import LibraryPlatform.DeskWork

/-!
# The way of every copy

The tables only count the copies of a book. In any run of the traffic they can be told apart all
the way: each goes from the shelf into a loan, from a loan to the shelf or into the hold of a
member who waits, and from a hold into a loan of the same member.
-/
namespace LibraryPlatform

open KeyedTable Transaction ReservationRepository Tracing

variable {n : Nat} {api : Api} {visits : Fin n → Visit} {s₀ : DB} {s s' : Traffic n} {x : UUID}
  {db : DB} {p : Placement ℕ Whereabouts}

/-- The copies of a book, told apart, as the tables count them. -/
structure DB.Traced (x : UUID) (db : DB) (p : Placement ℕ Whereabouts) : Prop where
  shelf : p.count .shelf = db.shelf x
  lent : ∀ r ∈ db.borrowRecords.rows, isLoanOf x r → ∃! u, p.place u = some (.lent r.id r.memberId)
  held : ∀ r ∈ db.reservations.rows, isHoldOf x r → ∃! u, p.place u = some (.held r.id r.memberId)
  loan : ∀ u id m, p.place u = some (.lent id m) →
    ∃ r ∈ db.borrowRecords.rows, isLoanOf x r ∧ r.id = id ∧ r.memberId = m
  hold : ∀ u id m, p.place u = some (.held id m) →
    ∃ r ∈ db.reservations.rows, isHoldOf x r ∧ r.id = id ∧ r.memberId = m

theorem loanPlace_iff {id m : UUID} :
    loanPlace x (db.borrowRecords.get id) = some (.lent id m) ↔
      ∃ r ∈ db.borrowRecords.rows, isLoanOf x r ∧ r.id = id ∧ r.memberId = m := by
  constructor
  · intro h
    obtain ⟨r, hr, hc⟩ := loanPlace_eq_some h
    by_cases hloan : isLoanOf x r
    · cases hc
      exact ⟨r, Table.mem_of_get hr, hloan, rfl, rfl⟩
    · rw [hr, loanPlace_none hloan] at h
      cases h
  · rintro ⟨r, hr, hloan, rfl, rfl⟩
    have hget : db.borrowRecords.get r.id = some r := Table.get_of_mem hr
    rw [hget, loanPlace_of hloan]

theorem holdPlace_iff {id m : UUID} :
    holdPlace x (db.reservations.get id) = some (.held id m) ↔
      ∃ r ∈ db.reservations.rows, isHoldOf x r ∧ r.id = id ∧ r.memberId = m := by
  constructor
  · intro h
    obtain ⟨r, hr, hc⟩ := holdPlace_eq_some h
    by_cases hhold : isHoldOf x r
    · cases hc
      exact ⟨r, Table.mem_of_get hr, hhold, rfl, rfl⟩
    · rw [hr, holdPlace_none hhold] at h
      cases h
  · rintro ⟨r, hr, hhold, rfl, rfl⟩
    have hget : db.reservations.get r.id = some r := Table.get_of_mem hr
    rw [hget, holdPlace_of hhold]

theorem DB.Traced.count (h : db.Traced x p) : p.count = db.whereabouts x := by
  funext c
  cases c with
  | shelf => exact h.shelf
  | lent id m =>
    simp only [DB.whereabouts]
    split
    · rename_i hl
      obtain ⟨r, hr, hloan, rfl, rfl⟩ := loanPlace_iff.mp hl
      exact Placement.count_eq_one.mpr (h.lent r hr hloan)
    · rename_i hl
      exact Placement.count_eq_zero.mpr fun u hu => hl (loanPlace_iff.mpr (h.loan u id m hu))
  | held id m =>
    simp only [DB.whereabouts]
    split
    · rename_i hl
      obtain ⟨r, hr, hhold, rfl, rfl⟩ := holdPlace_iff.mp hl
      exact Placement.count_eq_one.mpr (h.held r hr hhold)
    · rename_i hl
      exact Placement.count_eq_zero.mpr fun u hu => hl (holdPlace_iff.mpr (h.hold u id m hu))

/-- What a visit does at the desk of `x` in a move that takes the store from `s` to `t`: nothing, or
what the call does there that the route makes for whoever sends the request. -/
inductive Visit.Deeds (api : Api) (x : UUID) (s t : DB) : Visit → List Deed → Prop
  | nothing {v : Visit} : SameStock s t → Deeds api x s t v []
  | op {now : Int} {credentials : Option HTTPAuthorizationCredentials} {env : Env} {route : Route}
      {op : Op} {deeds : List Deed} : Dispatched api now credentials s route op →
      op.Deeds x env s t deeds → Deeds api x s t (.write now credentials env route) deeds

theorem Visit.Commits.serves {v : Visit} {t u : DB}
    (h : v.Commits (soundly api.reservations s₀)
      (orderly (soundly api.reservations s₀) api.reservations) api t u)
    (haccounts : SameAccounts s₀ t) (ht : Sound api.reservations t) :
    ∃ deeds, v.Deeds api x t u deeds ∧ t.Serves x deeds u := by
  cases h with
  | nothing => exact ⟨[], .nothing ⟨rfl, rfl, rfl⟩, .nil⟩
  | op hpast hd he =>
    rcases Op.Orderly.serves (x := x) he ht with rfl | ⟨deeds, hdeeds, hserves⟩
    · exact ⟨[], .nothing ⟨rfl, rfl, rfl⟩, .nil⟩
    · -- the caller was looked up in an earlier state, with the same accounts
      have hsame := SameAccounts.trans (SameAccounts.symm hpast.1.1) haccounts
      exact ⟨deeds, .op (hd.of_accounts hsame) hdeeds, hserves⟩
  | tokens htok =>
    have hsame := SameStock.tokens htok
    exact ⟨[], .nothing hsame,
      .of_eq (DB.desk_congr hsame.books hsame.borrowRecords hsame.reservations)⟩

end LibraryPlatform

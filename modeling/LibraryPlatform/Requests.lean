import LibraryPlatform.StatementRules

/-!
# Requests

A request reads before its transaction: who is asking, and for which member.
`@transactional` commits the implicit transaction of these reads first.
-/
namespace LibraryPlatform

open KeyedTable Transaction

variable {α : Type}

/-- The wrapper of `@transactional` at depth 0: an implicit transaction is committed, and
the body is run in a transaction of its own. -/
def transactional (inTransaction : Bool) (body : Tx α) : Tx α := do
  if inTransaction then commit
  body

/-- Queries made one after the other, each of which may refuse the request. -/
def queries : List (DB → Except Exc Unit) → Tx Unit
  | [] => pure ()
  | q :: rest => do
    match ← select q with
    | .ok () => queries rest
    | .error e => raise e

def request (earlier : List (DB → Except Exc Unit)) (body : Tx α) : Tx α := do
  queries earlier
  transactional (!earlier.isEmpty) body

variable {D : Discipline DB RowKey} {T : Contract DB RowKey α} {s : DB}

theorem wp_queries {earlier : List (DB → Except Exc Unit)} {l : Local DB RowKey Row Event}
    (hs : D.inv s) (hl : l.log = []) :
    wp D T (queries earlier) (fun _ l s => l.log = [] ∧ D.inv s) l s := by
  induction earlier generalizing l s with
  | nil => exact ⟨hl, hs⟩
  | cons q rest ih =>
    simp only [queries, Prog.bind_eq, wp_bind]
    refine wp_select fun s' hs' => ?_
    cases q (l.seen s') with
    | ok u => exact ih hs'.inv hl
    | error e => trivial

/-- A transaction that can be verified on its own can be verified after the reads of its request. -/
theorem wp_request {earlier : List (DB → Except Exc Unit)} {body : Tx α}
    {Q : α → Local DB RowKey Row Event → DB → Prop} (hpublish : ∀ L s, T.publish none L s s)
    (hbody : ∀ s, D.inv s → wp D T body Q .init s) (hs : D.inv s) :
    wp D T (request earlier body) Q .init s := by
  unfold request transactional
  cases earlier with
  | nil => exact hbody s hs
  | cons q rest =>
    simp only [List.isEmpty_cons, Bool.not_false, ↓reduceIte, Prog.bind_eq, wp_bind]
    refine wp_mono ?_ (wp_queries hs rfl)
    rintro _ l s ⟨hlog, _⟩
    refine wp_commit fun s' hs' => ?_
    have hview : l.view s' = s' := by simp [Local.view, hlog]
    rw [hview]
    exact ⟨hpublish _ _, hbody s' hs'.inv⟩

end LibraryPlatform

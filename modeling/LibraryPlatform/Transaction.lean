import Mathlib.Data.List.Basic
import Mathlib.Logic.Function.Basic

/-!
# Transactions over a store of rows

A program is a tree of statements: plain and locking reads, row writes, and a
commit in mid-course. It has two meanings. `call` runs it alone, from one
committed state to the next. `Sys.step` interleaves any number of programs,
statement by statement: a plain read sees the snapshot taken at the first plain
read and the transaction's own writes, a locking read and a write see the latest
committed rows and its own writes, and row locks are held to the end.
-/
namespace Transaction

/-- Rows that can be locked and written one by one, and a journal nobody reads. -/
class Store (σ : Type) (κ ρ ν : outParam Type) where
  row : κ → σ → Option ρ
  put : κ → ρ → σ → σ
  record : ν → σ → σ
  row_put : ∀ (k k' : κ) (r : ρ) (s : σ), k' ≠ k → row k' (put k r s) = row k' s
  row_congr : ∀ (k k' : κ) (r : ρ) (s t : σ), row k' s = row k' t →
    row k' (put k r s) = row k' (put k r t)
  row_record : ∀ (k : κ) (e : ν) (s : σ), row k (record e s) = row k s

inductive Prog (σ κ ρ ν ε α : Type) : Type 1 where
  | ret : α → Prog σ κ ρ ν ε α
  | raise : ε → Prog σ κ ρ ν ε α
  | select : {β : Type} → (σ → β) → (β → Prog σ κ ρ ν ε α) → Prog σ κ ρ ν ε α
  | lock : {β : Type} → (σ → List κ) → (σ → β) → (β → Prog σ κ ρ ν ε α) → Prog σ κ ρ ν ε α
  | update : κ → (σ → Except ε ρ) → Prog σ κ ρ ν ε α → Prog σ κ ρ ν ε α
  | insert : κ → (σ → Except ε ρ) → Prog σ κ ρ ν ε α → Prog σ κ ρ ν ε α
  | note : ν → Prog σ κ ρ ν ε α → Prog σ κ ρ ν ε α
  | commit : Prog σ κ ρ ν ε α → Prog σ κ ρ ν ε α

variable {σ κ ρ ν ε α β : Type}

namespace Prog

def bind : Prog σ κ ρ ν ε α → (α → Prog σ κ ρ ν ε β) → Prog σ κ ρ ν ε β
  | .ret a, f => f a
  | .raise e, _ => .raise e
  | .select q next, f => .select q (fun b => (next b).bind f)
  | .lock keys q next, f => .lock keys q (fun b => (next b).bind f)
  | .update k w next, f => .update k w (next.bind f)
  | .insert k w next, f => .insert k w (next.bind f)
  | .note e next, f => .note e (next.bind f)
  | .commit next, f => .commit (next.bind f)

instance : Monad (Prog σ κ ρ ν ε) where
  pure := .ret
  bind := bind

@[simp] theorem pure_eq (a : α) : (pure a : Prog σ κ ρ ν ε α) = .ret a := rfl
@[simp] theorem bind_eq (p : Prog σ κ ρ ν ε α) (f : α → Prog σ κ ρ ν ε β) : p >>= f = p.bind f :=
  rfl
@[simp] theorem map_eq (f : α → β) (p : Prog σ κ ρ ν ε α) :
    f <$> p = p.bind (fun a => .ret (f a)) := rfl

/-- What a handler that re-raises does: every exception of the body is replaced. -/
def mapError (h : ε → ε) : Prog σ κ ρ ν ε α → Prog σ κ ρ ν ε α
  | .ret a => .ret a
  | .raise e => .raise (h e)
  | .select q next => .select q (fun b => (next b).mapError h)
  | .lock keys q next => .lock keys q (fun b => (next b).mapError h)
  | .update k w next => .update k (fun s => (w s).mapError h) (next.mapError h)
  | .insert k w next => .insert k (fun s => (w s).mapError h) (next.mapError h)
  | .note e next => .note e (next.mapError h)
  | .commit next => .commit (next.mapError h)

/-- The program leaves it to others to commit. -/
def CommitFree : Prog σ κ ρ ν ε α → Prop
  | .ret _ => True
  | .raise _ => True
  | .select _ next => ∀ b, (next b).CommitFree
  | .lock _ _ next => ∀ b, (next b).CommitFree
  | .update _ _ next => next.CommitFree
  | .insert _ _ next => next.CommitFree
  | .note _ next => next.CommitFree
  | .commit _ => False

theorem CommitFree.bind {p : Prog σ κ ρ ν ε α} {f : α → Prog σ κ ρ ν ε β} (hp : p.CommitFree)
    (hf : ∀ a, (f a).CommitFree) : (p.bind f).CommitFree := by
  induction p with
  | ret a => exact hf a
  | raise e => trivial
  | select q next ih => exact fun b => ih b (hp b)
  | lock keys q next ih => exact fun b => ih b (hp b)
  | update k w next ih => exact ih hp
  | insert k w next ih => exact ih hp
  | note e next ih => exact ih hp
  | commit next ih => exact hp.elim

theorem CommitFree.mapError {p : Prog σ κ ρ ν ε α} (hp : p.CommitFree) (h : ε → ε) :
    (p.mapError h).CommitFree := by
  induction p with
  | ret a => trivial
  | raise e => trivial
  | select q next ih => exact fun b => ih b (hp b)
  | lock keys q next ih => exact fun b => ih b (hp b)
  | update k w next ih => exact ih hp
  | insert k w next ih => exact ih hp
  | note e next ih => exact ih hp
  | commit next ih => exact hp.elim

/-- The program reads without locking and does nothing else. -/
def ReadOnly : Prog σ κ ρ ν ε α → Prop
  | .ret _ => True
  | .raise _ => True
  | .select _ next => ∀ b, (next b).ReadOnly
  | _ => False

theorem ReadOnly.bind {p : Prog σ κ ρ ν ε α} {f : α → Prog σ κ ρ ν ε β} (hp : p.ReadOnly)
    (hf : ∀ a, (f a).ReadOnly) : (p.bind f).ReadOnly := by
  induction p with
  | ret a => exact hf a
  | raise e => trivial
  | select q next ih => exact fun b => ih b (hp b)
  | _ => exact hp.elim

/-- The rows the next statement has to lock, read off the transaction's view. -/
def wanted : Prog σ κ ρ ν ε α → σ → List κ
  | .lock keys _ _, v => keys v
  | .update k _ _, _ => [k]
  | _, _ => []

end Prog

inductive Entry (κ ρ ν : Type) where
  | put : κ → ρ → Entry κ ρ ν
  | note : ν → Entry κ ρ ν

/-- What a running transaction has read, written and locked so far. -/
structure Local (σ κ ρ ν : Type) where
  snapshot : Option σ
  log : List (Entry κ ρ ν)
  locks : List κ

namespace Local

def init : Local σ κ ρ ν := ⟨none, [], []⟩

def snap (l : Local σ κ ρ ν) (s : σ) : Local σ κ ρ ν :=
  { l with snapshot := some (l.snapshot.getD s) }
def write (l : Local σ κ ρ ν) (k : κ) (r : ρ) : Local σ κ ρ ν :=
  { l with log := l.log ++ [.put k r] }
def noted (l : Local σ κ ρ ν) (e : ν) : Local σ κ ρ ν := { l with log := l.log ++ [.note e] }
def hold (l : Local σ κ ρ ν) (ks : List κ) : Local σ κ ρ ν := { l with locks := ks ++ l.locks }

@[simp] theorem locks_init : (init : Local σ κ ρ ν).locks = [] := rfl
@[simp] theorem locks_snap (l : Local σ κ ρ ν) (s : σ) : (l.snap s).locks = l.locks := rfl
@[simp] theorem locks_write (l : Local σ κ ρ ν) (k : κ) (r : ρ) : (l.write k r).locks = l.locks :=
  rfl
@[simp] theorem locks_noted (l : Local σ κ ρ ν) (e : ν) : (l.noted e).locks = l.locks := rfl
@[simp] theorem hold_hold (l : Local σ κ ρ ν) (ks ks' : List κ) :
    (l.hold ks).hold ks' = l.hold (ks' ++ ks) := by simp [hold]

@[simp] theorem hold_nil (l : Local σ κ ρ ν) : l.hold [] = l := rfl
@[simp] theorem locks_hold (l : Local σ κ ρ ν) (ks : List κ) : (l.hold ks).locks = ks ++ l.locks :=
  rfl

/-- Every row the transaction has written is one it has locked. -/
def Owned (l : Local σ κ ρ ν) : Prop := ∀ k r, Entry.put k r ∈ l.log → k ∈ l.locks

theorem Owned.write {l : Local σ κ ρ ν} (h : l.Owned) {k : κ} (hk : k ∈ l.locks) (r : ρ) :
    (l.write k r).Owned := by
  intro k' r' hm
  rcases List.mem_append.mp hm with hm | hm
  · exact h k' r' hm
  · cases List.mem_singleton.mp hm
    exact hk

theorem Owned.noted {l : Local σ κ ρ ν} (h : l.Owned) (e : ν) : (l.noted e).Owned := by
  intro k r hm
  rcases List.mem_append.mp hm with hm | hm
  · exact h k r hm
  · cases List.mem_singleton.mp hm

theorem Owned.hold {l : Local σ κ ρ ν} (h : l.Owned) (A : List κ) : (l.hold A).Owned :=
  fun k r hm => List.mem_append_right _ (h k r hm)

end Local

section Store

variable [Store σ κ ρ ν]

def Entry.apply (s : σ) : Entry κ ρ ν → σ
  | .put k r => Store.put k r s
  | .note e => Store.record e s

/-! ## A program alone -/

/-- Runs a program with nobody else on the store. The two states are the last
committed one, to which an exception rolls back, and the working one. -/
def Prog.exec : Prog σ κ ρ ν ε α → σ → σ → Except ε α × σ × σ
  | .ret a, base, w => (.ok a, base, w)
  | .raise e, base, w => (.error e, base, w)
  | .select q next, base, w => (next (q w)).exec base w
  | .lock _ q next, base, w => (next (q w)).exec base w
  | .update k f next, base, w =>
    match f w with
    | .ok r => next.exec base (Store.put k r w)
    | .error e => (.error e, base, w)
  | .insert k f next, base, w =>
    match f w with
    | .ok r => next.exec base (Store.put k r w)
    | .error e => (.error e, base, w)
  | .note e next, base, w => next.exec base (Store.record e w)
  | .commit next, _, w => next.exec w w

/-- The committed state and the answer of one call: commit on return, roll back
on an exception. -/
def call (p : Prog σ κ ρ ν ε α) (s : σ) : Except ε α × σ :=
  match p.exec s s with
  | (.ok a, _, w) => (.ok a, w)
  | (.error e, base, _) => (.error e, base)

theorem call_ok {p : Prog σ κ ρ ν ε α} {s base w : σ} {a : α} (h : p.exec s s = (.ok a, base, w)) :
    call p s = (.ok a, w) := by simp only [call, h]

theorem call_error {p : Prog σ κ ρ ν ε α} {s base w : σ} {e : ε}
    (h : p.exec s s = (.error e, base, w)) : call p s = (.error e, base) := by simp only [call, h]

theorem Prog.exec_bind (p : Prog σ κ ρ ν ε α) (f : α → Prog σ κ ρ ν ε β) (base w : σ) :
    (p.bind f).exec base w = match p.exec base w with
      | (.ok a, base', w') => (f a).exec base' w'
      | (.error e, base', w') => (.error e, base', w') := by
  induction p generalizing base w with
  | ret a => rfl
  | raise e => rfl
  | select q next ih => exact ih (q w) base w
  | lock keys q next ih => exact ih (q w) base w
  | update k g next ih =>
    simp only [Prog.bind, Prog.exec]
    cases g w with
    | ok r => exact ih base _
    | error e => rfl
  | insert k g next ih =>
    simp only [Prog.bind, Prog.exec]
    cases g w with
    | ok r => exact ih base _
    | error e => rfl
  | note e next ih => exact ih base _
  | commit next ih => exact ih w w

theorem Prog.exec_bind_ok {p : Prog σ κ ρ ν ε α} {f : α → Prog σ κ ρ ν ε β} {base w base' w' : σ}
    {a : α} {x : Except ε β × σ × σ} (hp : p.exec base w = (.ok a, base', w'))
    (hf : (f a).exec base' w' = x) : (p.bind f).exec base w = x := by
  rw [Prog.exec_bind, hp]
  exact hf

theorem Prog.exec_bind_error {p : Prog σ κ ρ ν ε α} {f : α → Prog σ κ ρ ν ε β} {base w base' w' : σ}
    {e : ε} (hp : p.exec base w = (.error e, base', w')) :
    (p.bind f).exec base w = (.error e, base', w') := by
  rw [Prog.exec_bind, hp]

theorem call_map (f : α → β) (p : Prog σ κ ρ ν ε α) (s : σ) :
    call (f <$> p) s = ((call p s).1.map f, (call p s).2) := by
  simp only [Prog.map_eq, call, Prog.exec_bind]
  rcases p.exec s s with ⟨a | e, base, w⟩ <;> rfl

theorem Prog.exec_mapError (h : ε → ε) (p : Prog σ κ ρ ν ε α) (base w : σ) :
    (p.mapError h).exec base w = ((p.exec base w).1.mapError h, (p.exec base w).2) := by
  induction p generalizing base w with
  | ret a => rfl
  | raise e => rfl
  | select q next ih => exact ih (q w) base w
  | lock keys q next ih => exact ih (q w) base w
  | update k g next ih =>
    simp only [Prog.mapError, Prog.exec]
    cases g w with
    | ok r => exact ih base _
    | error e => rfl
  | insert k g next ih =>
    simp only [Prog.mapError, Prog.exec]
    cases g w with
    | ok r => exact ih base _
    | error e => rfl
  | note e next ih => exact ih base _
  | commit next ih => exact ih w w

theorem Prog.exec_mapError_ok {h : ε → ε} {p : Prog σ κ ρ ν ε α} {base w base' w' : σ} {a : α}
    (hp : p.exec base w = (.ok a, base', w')) :
    (p.mapError h).exec base w = (.ok a, base', w') := by
  rw [Prog.exec_mapError, hp]
  rfl

theorem Prog.exec_mapError_error {h : ε → ε} {p : Prog σ κ ρ ν ε α} {base w base' w' : σ} {e : ε}
    (hp : p.exec base w = (.error e, base', w')) :
    (p.mapError h).exec base w = (.error (h e), base', w') := by
  rw [Prog.exec_mapError, hp]
  rfl

/-- What no write and no note changes, no program changes. -/
theorem Prog.exec_keeps {f : σ → β} (hput : ∀ k r s, f (Store.put k r s) = f s)
    (hrecord : ∀ e s, f (Store.record e s) = f s) (p : Prog σ κ ρ ν ε α) {base w : σ}
    (hw : f w = f base) :
    f (p.exec base w).2.1 = f base ∧ f (p.exec base w).2.2 = f base := by
  induction p generalizing base w with
  | ret a => exact ⟨rfl, hw⟩
  | raise e => exact ⟨rfl, hw⟩
  | select q next ih => exact ih (q w) hw
  | lock keys q next ih => exact ih (q w) hw
  | update k g next ih =>
    simp only [Prog.exec]
    cases g w with
    | ok r => exact ih ((hput k r w).trans hw)
    | error e => exact ⟨rfl, hw⟩
  | insert k g next ih =>
    simp only [Prog.exec]
    cases g w with
    | ok r => exact ih ((hput k r w).trans hw)
    | error e => exact ⟨rfl, hw⟩
  | note e next ih => exact ih ((hrecord e w).trans hw)
  | commit next ih =>
    obtain ⟨hbase, hlast⟩ := @ih w w rfl
    exact ⟨hbase.trans hw, hlast.trans hw⟩

theorem call_keeps {f : σ → β} (hput : ∀ k r s, f (Store.put k r s) = f s)
    (hrecord : ∀ e s, f (Store.record e s) = f s) (p : Prog σ κ ρ ν ε α) (s : σ) :
    f (call p s).2 = f s := by
  obtain ⟨hbase, hlast⟩ := p.exec_keeps hput hrecord (rfl : f s = f s)
  unfold call
  rcases h : p.exec s s with ⟨e | a, base, w⟩
  · rw [h] at hbase
    exact hbase
  · rw [h] at hlast
    exact hlast

/-- A program that only reads leaves the store as it is, and what follows it starts there. -/
theorem Prog.ReadOnly.call_bind {p : Prog σ κ ρ ν ε α} (hp : p.ReadOnly) (f : α → Prog σ κ ρ ν ε β)
    (s : σ) :
    (∃ a, call p s = (.ok a, s) ∧ call (p.bind f) s = call (f a) s) ∨
    ∃ e, call p s = (.error e, s) ∧ call (p.bind f) s = (.error e, s) := by
  induction p with
  | ret a => exact .inl ⟨a, rfl, rfl⟩
  | raise e => exact .inr ⟨e, rfl, rfl⟩
  | select q next ih => exact ih (q s) (hp (q s))
  | _ => exact hp.elim

theorem Prog.ReadOnly.call_bind_ok {p : Prog σ κ ρ ν ε α} (hp : p.ReadOnly)
    {f : α → Prog σ κ ρ ν ε β} {s s' : σ} {b : β} (h : call (p.bind f) s = (.ok b, s')) :
    ∃ a, call p s = (.ok a, s) ∧ call (f a) s = (.ok b, s') := by
  rcases hp.call_bind f s with ⟨a, ha, hf⟩ | ⟨e, _, he⟩
  · exact ⟨a, ha, hf.symm.trans h⟩
  · cases he.symm.trans h

/-! ## Any number of programs, interleaved -/

namespace Local

/-- The store with the transaction's own uncommitted writes on top. -/
def view (l : Local σ κ ρ ν) (s : σ) : σ := l.log.foldl Entry.apply s

/-- The state a plain read sees. -/
def seen (l : Local σ κ ρ ν) (s : σ) : σ := l.view (l.snapshot.getD s)

@[simp] theorem view_init (s : σ) : (init : Local σ κ ρ ν).view s = s := rfl
@[simp] theorem view_snap (l : Local σ κ ρ ν) (s t : σ) : (l.snap s).view t = l.view t := rfl
@[simp] theorem view_hold (l : Local σ κ ρ ν) (ks : List κ) (t : σ) :
    (l.hold ks).view t = l.view t := rfl
@[simp] theorem view_write (l : Local σ κ ρ ν) (k : κ) (r : ρ) (t : σ) :
    (l.write k r).view t = Store.put k r (l.view t) := by simp [view, write, Entry.apply]
@[simp] theorem view_noted (l : Local σ κ ρ ν) (e : ν) (t : σ) :
    (l.noted e).view t = Store.record e (l.view t) := by simp [view, noted, Entry.apply]

/-- What no write and no note changes, the view shows as the store has it. -/
theorem view_keeps {f : σ → β} (hput : ∀ k r s, f (Store.put k r s) = f s)
    (hrecord : ∀ e s, f (Store.record e s) = f s) (l : Local σ κ ρ ν) (s : σ) :
    f (l.view s) = f s := by
  have hlog : ∀ (log : List (Entry κ ρ ν)) (s : σ), f (log.foldl Entry.apply s) = f s := by
    intro log
    induction log with
    | nil => exact fun _ => rfl
    | cons e log ih =>
      intro s
      rw [List.foldl_cons, ih]
      cases e with
      | put k r => exact hput k r s
      | note e => exact hrecord e s
  exact hlog l.log s

/-- A row of the view depends on that row of the store only. -/
theorem view_congr (l : Local σ κ ρ ν) {k : κ} {s t : σ} (h : Store.row k s = Store.row k t) :
    Store.row k (l.view s) = Store.row k (l.view t) := by
  have hlog : ∀ (log : List (Entry κ ρ ν)) (s t : σ), Store.row k s = Store.row k t →
      Store.row k (log.foldl Entry.apply s) = Store.row k (log.foldl Entry.apply t) := by
    intro log
    induction log with
    | nil => exact fun s t h => h
    | cons e log ih =>
      intro s t h
      apply ih
      cases e with
      | put k' r => exact Store.row_congr k' k r s t h
      | note e => simpa only [Entry.apply, Store.row_record] using h
  exact hlog l.log s t h

theorem Owned.row {l : Local σ κ ρ ν} (h : l.Owned) {k : κ} (hk : k ∉ l.locks) (s : σ) :
    Store.row k (l.view s) = Store.row k s := by
  have hlog : ∀ log : List (Entry κ ρ ν), (∀ k' r, Entry.put k' r ∈ log → k' ∈ l.locks) →
      ∀ s : σ, Store.row k (log.foldl Entry.apply s) = Store.row k s := by
    intro log
    induction log with
    | nil => intro _ s; rfl
    | cons e log ih =>
      intro ho s
      rw [List.foldl_cons, ih (fun k' r hm => ho k' r (List.mem_cons_of_mem _ hm))]
      cases e with
      | put k' r =>
        have hne : k ≠ k' := by rintro rfl; exact hk (ho k r List.mem_cons_self)
        exact Store.row_put k' k r s hne
      | note e => exact Store.row_record k e s
  exact hlog l.log h s

end Local

inductive Outcome (ε α : Type) where
  | returned : α → Outcome ε α
  | raised : ε → Outcome ε α
  | aborted : Outcome ε α
  deriving DecidableEq

/-- How a call that is not aborted ends. -/
def Outcome.of : Except ε α → Outcome ε α
  | .ok a => .returned a
  | .error e => .raised e

omit [Store σ κ ρ ν] in
theorem Outcome.of_eq_returned {r : Except ε α} {a : α} :
    Outcome.of r = .returned a ↔ r = .ok a := by cases r <;> simp [of]

inductive Txn (σ κ ρ ν ε α : Type) : Type 1 where
  | running : Prog σ κ ρ ν ε α → Local σ κ ρ ν → Txn σ κ ρ ν ε α
  | ended : Outcome ε α → Txn σ κ ρ ν ε α

def Txn.locks : Txn σ κ ρ ν ε α → List κ
  | .running _ l => l.locks
  | .ended _ => []

def Txn.hasReturned : Txn σ κ ρ ν ε α → Bool
  | .ended (.returned _) => true
  | _ => false

omit [Store σ κ ρ ν] in
theorem Txn.hasReturned_iff {t : Txn σ κ ρ ν ε α} :
    t.hasReturned = true ↔ ∃ a, t = .ended (.returned a) := by
  match t with
  | .ended (.returned a) => simp [hasReturned]
  | .ended (.raised e) => simp [hasReturned]
  | .ended .aborted => simp [hasReturned]
  | .running p l => simp [hasReturned]

/-- The next statement is a commit in mid-course. -/
def Txn.isCommitting : Txn σ κ ρ ν ε α → Bool
  | .running (.commit _) _ => true
  | _ => false

omit [Store σ κ ρ ν] in
theorem Txn.isCommitting_iff {t : Txn σ κ ρ ν ε α} :
    t.isCommitting = true ↔ ∃ next l, t = .running (.commit next) l := by
  cases t with
  | running p l => cases p <;> simp [isCommitting]
  | ended o => simp [isCommitting]

inductive Move (κ : Type) where
  | run : Move κ
  | acquire : κ → Move κ
  | abort : Move κ

variable [DecidableEq κ]

/-- The row locks the transaction is short of for its next statement. -/
def Prog.needs (p : Prog σ κ ρ ν ε α) (l : Local σ κ ρ ν) (s : σ) : List κ :=
  (p.wanted (l.view s)).filter (fun k => k ∉ l.locks)

def Txn.needs (t : Txn σ κ ρ ν ε α) (s : σ) : List κ :=
  match t with
  | .running p l => p.needs l s
  | .ended _ => []

/-- One statement of a transaction that has the locks it wants. `free` tells the
rows that no other transaction has locked. -/
def Prog.step (p : Prog σ κ ρ ν ε α) (l : Local σ κ ρ ν) (s : σ) (free : κ → Bool) :
    Option (σ × Txn σ κ ρ ν ε α) :=
  match p with
  | .ret a => some (l.view s, .ended (.returned a))
  | .raise e => some (s, .ended (.raised e))
  | .select q next => some (s, .running (next (q (l.seen s))) (l.snap s))
  | .lock keys q next =>
    if ∀ k ∈ keys (l.view s), k ∈ l.locks then some (s, .running (next (q (l.view s))) l) else none
  | .update k f next =>
    if k ∈ l.locks then
      match f (l.view s) with
      | .ok r => some (s, .running next (l.write k r))
      | .error e => some (s, .ended (.raised e))
    else none
  | .insert k f next =>
    if free k then
      match f (l.view s) with
      | .ok r => some (s, .running next ((l.hold [k]).write k r))
      | .error e => some (s, .ended (.raised e))
    else none
  | .note e next => some (s, .running next (l.noted e))
  | .commit next => some (l.view s, .running next .init)

structure Sys (σ κ ρ ν ε α : Type) (n : Nat) : Type 1 where
  db : σ
  txn : Fin n → Txn σ κ ρ ν ε α

namespace Sys

variable {n : Nat}

def start (s : σ) (p : Fin n → Prog σ κ ρ ν ε α) : Sys σ κ ρ ν ε α n :=
  ⟨s, fun i => .running (p i) .init⟩

def free (s : Sys σ κ ρ ν ε α n) (i : Fin n) (k : κ) : Bool := ∀ j, j ≠ i → k ∉ (s.txn j).locks

def set (s : Sys σ κ ρ ν ε α n) (i : Fin n) (t : σ × Txn σ κ ρ ν ε α) : Sys σ κ ρ ν ε α n :=
  ⟨t.1, Function.update s.txn i t.2⟩

/-- One move of transaction `i`: its next statement, one row lock of those the
statement waits for, or an abort by the database. A statement that waits is made
as soon as it has its last lock. -/
def step (s : Sys σ κ ρ ν ε α n) (i : Fin n) (m : Move κ) : Option (Sys σ κ ρ ν ε α n) :=
  match s.txn i with
  | .ended _ => none
  | .running p l =>
    match m with
    | .run => (p.step l s.db (s.free i)).map (s.set i)
    | .acquire k =>
      if k ∈ p.needs l s.db ∧ s.free i k then
        if p.needs (l.hold [k]) s.db = [] then (p.step (l.hold [k]) s.db (s.free i)).map (s.set i)
        else some (s.set i (s.db, .running p (l.hold [k])))
      else none
    | .abort => some (s.set i (s.db, .ended .aborted))

/-- Transaction `i` needs a row that `j` has locked. -/
def WaitsFor (s : Sys σ κ ρ ν ε α n) (i j : Fin n) : Prop :=
  ∃ k ∈ (s.txn i).needs s.db, k ∈ (s.txn j).locks

/-- The states of all runs from `s₀` whose moves all satisfy `G`. -/
inductive Reach (G : Sys σ κ ρ ν ε α n → Fin n → Move κ → Prop) (s₀ : Sys σ κ ρ ν ε α n) :
    Sys σ κ ρ ν ε α n → Prop
  | refl : Reach G s₀ s₀
  | tail {s s' : Sys σ κ ρ ν ε α n} (i : Fin n) (m : Move κ) :
      Reach G s₀ s → G s i m → s.step i m = some s' → Reach G s₀ s'

theorem Reach.trans {G : Sys σ κ ρ ν ε α n → Fin n → Move κ → Prop} {a b c : Sys σ κ ρ ν ε α n}
    (h : Reach G a b) (h' : Reach G b c) : Reach G a c := by
  induction h' with
  | refl => exact h
  | tail i m _ hg hs ih => exact .tail i m ih hg hs

theorem Reach.mono {G G' : Sys σ κ ρ ν ε α n → Fin n → Move κ → Prop} {a b : Sys σ κ ρ ν ε α n}
    (hG : ∀ s i m, G s i m → G' s i m) (h : Reach G a b) : Reach G' a b := by
  induction h with
  | refl => exact .refl
  | tail i m _ hg hs ih => exact .tail i m ih (hG _ i m hg) hs

/-- No restriction on the moves. -/
def Any (_ : Sys σ κ ρ ν ε α n) (_ : Fin n) (_ : Move κ) : Prop := True

/-- Runs a schedule move by move. -/
def runs (s : Sys σ κ ρ ν ε α n) : List (Fin n × Move κ) → Option (Sys σ κ ρ ν ε α n)
  | [] => some s
  | (i, m) :: rest => (s.step i m).bind (fun s' => s'.runs rest)

/-- `P` holds wherever a move of the schedule starts. -/
def along (P : Sys σ κ ρ ν ε α n → Bool) (s : Sys σ κ ρ ν ε α n) : List (Fin n × Move κ) → Bool
  | [] => true
  | (i, m) :: rest => P s && (s.step i m).all (fun s' => s'.along P rest)

theorem reach_of_along {G : Sys σ κ ρ ν ε α n → Fin n → Move κ → Prop}
    {P : Sys σ κ ρ ν ε α n → Bool} (hG : ∀ s i m, P s → G s i m) {s s' : Sys σ κ ρ ν ε α n}
    {moves : List (Fin n × Move κ)} (hP : s.along P moves) (h : s.runs moves = some s') :
    Reach G s s' := by
  induction moves generalizing s with
  | nil => cases h; exact .refl
  | cons m rest ih =>
    obtain ⟨i, m⟩ := m
    simp only [runs, Option.bind_eq_some_iff] at h
    obtain ⟨t, ht, hr⟩ := h
    simp only [along, ht, Option.all_some, Bool.and_eq_true] at hP
    exact (Reach.tail i m .refl (hG s i m hP.1) ht).trans (ih hP.2 hr)

theorem runs_append (s : Sys σ κ ρ ν ε α n) (first rest : List (Fin n × Move κ)) :
    s.runs (first ++ rest) = (s.runs first).bind fun t => t.runs rest := by
  induction first generalizing s with
  | nil => rfl
  | cons m first ih => simp only [List.cons_append, runs, ih, Option.bind_assoc]

theorem along_append {P : Sys σ κ ρ ν ε α n → Bool} {s t : Sys σ κ ρ ν ε α n}
    {first rest : List (Fin n × Move κ)} (h : s.along P (first ++ rest))
    (ht : s.runs first = some t) : s.along P first ∧ t.along P rest := by
  induction first generalizing s with
  | nil =>
    cases ht
    exact ⟨rfl, h⟩
  | cons m first ih =>
    simp only [runs, Option.bind_eq_some_iff] at ht
    obtain ⟨u, hu, ht⟩ := ht
    simp only [List.cons_append, along, hu, Option.all_some, Bool.and_eq_true] at h ⊢
    obtain ⟨hfirst, hrest⟩ := ih h.2 ht
    exact ⟨⟨h.1, hfirst⟩, hrest⟩

theorem along_true (s : Sys σ κ ρ ν ε α n) (moves : List (Fin n × Move κ)) :
    s.along (fun _ => true) moves := by
  induction moves generalizing s with
  | nil => rfl
  | cons m rest ih =>
    simp only [along, Bool.true_and]
    cases s.step m.1 m.2 with
    | none => rfl
    | some t => exact ih t

/-- What `f` makes of each committed state and the next, summed up along a schedule. -/
def summed (f : σ → σ → Int) (s : Sys σ κ ρ ν ε α n) : List (Fin n × Move κ) → Int
  | [] => 0
  | (i, m) :: rest => (s.step i m).elim 0 fun s' => f s.db s'.db + s'.summed f rest

theorem summed_add (f g : σ → σ → Int) (s : Sys σ κ ρ ν ε α n) (moves : List (Fin n × Move κ)) :
    s.summed (fun t u => f t u + g t u) moves = s.summed f moves + s.summed g moves := by
  induction moves generalizing s with
  | nil => rfl
  | cons m rest ih =>
    simp only [summed]
    cases s.step m.1 m.2 with
    | none => rfl
    | some t =>
      simp only [Option.elim_some, ih]
      omega

theorem summed_sub (f g : σ → σ → Int) (s : Sys σ κ ρ ν ε α n) (moves : List (Fin n × Move κ)) :
    s.summed (fun t u => f t u - g t u) moves = s.summed f moves - s.summed g moves := by
  induction moves generalizing s with
  | nil => rfl
  | cons m rest ih =>
    simp only [summed]
    cases s.step m.1 m.2 with
    | none => rfl
    | some t =>
      simp only [Option.elim_some, ih]
      omega

/-- If every move changes a value by `f`, a run changes it by the sum. -/
theorem value_of_runs {G : Sys σ κ ρ ν ε α n → Prop} {f : σ → σ → Int} {value : σ → Int}
    (hkept : ∀ s i m s', G s → s.step i m = some s' → G s')
    (hstep : ∀ s i m s', G s → s.step i m = some s' → value s'.db = value s.db + f s.db s'.db)
    {s s' : Sys σ κ ρ ν ε α n} {moves : List (Fin n × Move κ)} (hs : G s)
    (h : s.runs moves = some s') : value s'.db = value s.db + s.summed f moves := by
  induction moves generalizing s with
  | nil =>
    cases h
    simp [summed]
  | cons m rest ih =>
    obtain ⟨i, m⟩ := m
    simp only [runs, Option.bind_eq_some_iff] at h
    obtain ⟨t, ht, hr⟩ := h
    have hlast := ih (hkept s i m t hs ht) hr
    have hfirst := hstep s i m t hs ht
    simp only [summed, ht, Option.elim_some]
    omega

theorem reach_of_runs {s s' : Sys σ κ ρ ν ε α n} {moves : List (Fin n × Move κ)}
    (h : s.runs moves = some s') : Reach Any s s' :=
  reach_of_along (fun _ _ _ _ => trivial) (s.along_true moves) h

end Sys

end Store

end Transaction

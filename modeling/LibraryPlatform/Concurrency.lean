import LibraryPlatform.Operations
import LibraryPlatform.SerialRuns

/-!
# Operations interleaved statement by statement
-/
namespace LibraryPlatform

open KeyedTable Transaction

/-- A call: the operation, and what it takes from outside. -/
structure Call where
  op : Op
  env : Env

abbrev Library (n : Nat) := Sys DB RowKey Row Event Exc Reply n

variable {n : Nat} {svc : ReservationService}

/-- The calls, none of which has done anything yet. -/
def Library.start (svc : ReservationService) (calls : Fin n → Call) (s : DB) : Library n :=
  Sys.start s fun i => (calls i).op.run svc (calls i).env

abbrev Guard := RowKey → Option DB → DB → Prop

def NoGuard : Guard := fun _ _ _ => True

def Call.Commits (D : Discipline DB RowKey) (guard : Guard) (svc : ReservationService) (c : Call)
    (s t : DB) : Prop :=
  c.op.Effect D guard s svc c.env s t

def Call.contract (D : Discipline DB RowKey) (guard : Guard) (svc : ReservationService) (c : Call) :
    Contract DB RowKey Reply where
  publish _ _ s t := c.Commits D guard svc s t
  guard := guard
  point _ _ _ := True

variable {D : Discipline DB RowKey} {guard : Fin n → Guard} {calls : Fin n → Call} {s₀ : DB}
  {s s' : Library n}

/-- The commits of the calls keep the discipline, whatever locks the others hold. -/
def Keeps (D : Discipline DB RowKey) (guard : Fin n → Guard) (svc : ReservationService)
    (calls : Fin n → Call) : Prop :=
  ∀ i s t, (calls i).Commits D (guard i) svc s t → D.inv s → D.inv t ∧ ∀ L, D.rely L s t

theorem Keeps.lawful (h : Keeps D guard svc calls) (i : Fin n) :
    Lawful D ((calls i).contract D (guard i) svc) := by
  intro _ L s t hp hi
  obtain ⟨ht, hr⟩ := h i s t hp hi
  exact ⟨ht, fun L' _ => hr L'⟩

/-- Calls whose commits keep the discipline may be run together. -/
theorem Keeps.good (hkeeps : Keeps D guard svc calls) (h₀ : D.inv s₀)
    (h : Sys.Reach (Sys.WhereGuarded guard) (Library.start svc calls s₀) s) :
    Sys.Good D (fun i => (calls i).contract D (guard i) svc) s :=
  Sys.good_of_reach hkeeps.lawful (Sys.good_start h₀ fun _ => wp_op fun _ _ _ => trivial) h

theorem Keeps.onward (hkeeps : Keeps D guard svc calls) (h₀ : D.inv s₀)
    (h : Sys.Reach (Sys.WhereGuarded guard) (Library.start svc calls s₀) s)
    (h' : Sys.Reach (Sys.WhereGuarded guard) s s') : D.rely [] s.db s'.db :=
  (hkeeps.good h₀ h).onward hkeeps.lawful h'

theorem unguarded (h : Sys.Reach Sys.Any s s') :
    Sys.Reach (Sys.WhereGuarded fun _ => NoGuard) s s' :=
  h.mono fun _ _ _ _ _ _ _ _ _ _ => trivial

/-- The commits keep `inv`, and nothing is asked of the other transactions. -/
def keeping (inv : DB → Prop) : Discipline DB RowKey where
  inv := inv
  rely _ _ _ := True
  refl _ _ := trivial
  trans _ _ := trivial
  anti _ _ := trivial

theorem library_invariant {inv : DB → Prop}
    (hkeeps : ∀ i s t, (calls i).Commits (keeping inv) NoGuard svc s t → inv s → inv t)
    (h₀ : inv s₀) (h : Sys.Reach Sys.Any (Library.start svc calls s₀) s) : inv s.db := by
  have hkeeps : Keeps (keeping inv) (fun _ => NoGuard) svc calls :=
    fun i s t hc hi => ⟨hkeeps i s t hc hi, fun _ => trivial⟩
  exact (hkeeps.good h₀ (unguarded h)).inv

/-- Every move leaves the committed store alone or is a commit. -/
theorem Keeps.step (hkeeps : Keeps D guard svc calls) (h₀ : D.inv s₀)
    (h : Sys.Reach (Sys.WhereGuarded guard) (Library.start svc calls s₀) s) {i : Fin n}
    {m : Move RowKey} (hm : Sys.WhereGuarded guard s i m) (hs : s.step i m = some s') :
    s'.db = s.db ∨ (calls i).Commits D (guard i) svc s.db s'.db := by
  rcases ((hkeeps.good h₀ h).moved hm hs).publish with he | ⟨_, hc⟩
  · exact .inl he
  · exact .inr hc

theorem library_step (h : Sys.Reach Sys.Any (Library.start svc calls s₀) s) {i : Fin n}
    {m : Move RowKey} (hs : s.step i m = some s') :
    s'.db = s.db ∨ (calls i).Commits (keeping fun _ => True) NoGuard svc s.db s'.db := by
  have hkeeps : Keeps (keeping fun _ => True) (fun _ => NoGuard) svc calls :=
    fun _ _ _ _ _ => ⟨trivial, fun _ => trivial⟩
  exact hkeeps.step trivial (unguarded h) (fun _ _ _ _ _ _ => trivial) hs

/-- The call returns or renews the loan. -/
def OnLoan (id : UUID) (c : Call) : Prop := c.op = .returnBook id ∨ c.op = .renewBook id

/-- What every commit keeps, a run keeps. -/
theorem library_kept {P : DB → Prop} (h : Sys.Reach Sys.Any (Library.start svc calls s₀) s)
    (hkeeps : ∀ i s t, (calls i).Commits (keeping fun _ => True) NoGuard svc s t → P s → P t)
    (hP : P s.db) (h' : Sys.Reach Sys.Any s s') : P s'.db := by
  induction h' with
  | refl => exact hP
  | tail i m hr _ hs ih =>
    rcases library_step (h.trans hr) hs with he | hc
    · rwa [he]
    · exact hkeeps i _ _ hc ih

/-! ## Serial runs -/

end LibraryPlatform

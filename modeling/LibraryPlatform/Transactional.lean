import LibraryPlatform.Operations
import LibraryPlatform.Requests

/-!
# Nested transactions

`wrapper` is what `@transactional` makes of a method; `_transactional_depth` is an
attribute of the session, absent before the first call. A `Method` is the tree of
what one call does: reads, writes, nested calls of decorated methods with whatever
the caller does about their exceptions, and an outcome. The number of open calls
and the trace of moments are not in the source: they say what the depth means.
-/
namespace LibraryPlatform

open EStateM (Result)
open Transaction

variable {σ D ε α β : Type}

/-! ## Results of actions -/

section

variable {τ : Type} {x : EStateM ε τ α} {f : α → EStateM ε τ β}

@[simp] theorem run_pure (a : α) (t : τ) : (pure a : EStateM ε τ α) t = .ok a t := rfl
@[simp] theorem run_throw (e : ε) (t : τ) : (throw e : EStateM ε τ α) t = .error e t := rfl
@[simp] theorem run_get (t : τ) : (get : EStateM ε τ τ) t = .ok t t := rfl
@[simp] theorem run_modify (f : τ → τ) (t : τ) : (modify f : EStateM ε τ Unit) t = .ok ⟨⟩ (f t) :=
  rfl

theorem run_bind_ok {t u : τ} {a : α} (h : x t = .ok a u) : (x >>= f) t = f a u := by
  simp only [bind, EStateM.bind, h]

theorem run_bind_error {t u : τ} {e : ε} (h : x t = .error e u) : (x >>= f) t = .error e u := by
  simp only [bind, EStateM.bind, h]

def outcome : Result ε τ α → Except ε α
  | .ok a _ => .ok a
  | .error e _ => .error e

def after : Result ε τ α → τ
  | .ok _ t => t
  | .error _ t => t

def settle (g : τ → τ) : Result ε τ α → Result ε τ α
  | .ok a t => .ok a (g t)
  | .error e t => .error e (g t)

theorem run_caught (t : τ) :
    (do try Except.ok <$> x catch e => pure (Except.error e) : EStateM ε τ (Except ε α)) t =
      .ok (outcome (x t)) (after (x t)) := by
  change EStateM.tryCatch (EStateM.map Except.ok x) (fun e => pure (Except.error e)) t = _
  simp only [EStateM.tryCatch, EStateM.map]
  cases x t <;> rfl

theorem run_tryCatch_ok {handle : ε → EStateM ε τ α} {t u : τ} {a : α} (h : x t = .ok a u) :
    (tryCatch x handle) t = .ok a u := by
  change EStateM.tryCatch x handle t = _
  simp only [EStateM.tryCatch, h]

theorem run_tryCatch_error {handle : ε → EStateM ε τ α} {t u : τ} {e : ε} (h : x t = .error e u) :
    (tryCatch x handle) t = handle e u := by
  change EStateM.tryCatch x handle t = _
  simp only [EStateM.tryCatch, h]
  rfl

theorem run_finally {last : EStateM ε τ Unit} {g : τ → τ} (hlast : ∀ t, last t = .ok ⟨⟩ (g t))
    (t : τ) : (tryFinally x last) t = settle g (x t) := by
  simp only [tryFinally, tryFinally', Functor.map, EStateM.map]
  cases x t <;> simp [hlast, settle]

end

/-! ## The session and the decorator -/

/-- What the decorator and the methods use of an SQLAlchemy session over a database with
contents `D`. -/
structure AsyncSession (σ D ε : Type) where
  inTransaction : σ → Bool
  begin : σ → Except ε σ
  commit : σ → Except ε σ
  rollback : σ → σ
  write : (D → D) → σ → σ
  view : σ → D
  committed : σ → D

/-- What SQLAlchemy documents of it, over a database that accepts every commit. -/
structure AsyncSession.Documented (api : AsyncSession σ D ε) : Prop where
  idle : ∀ s, api.inTransaction s = false → api.view s = api.committed s
  begins : ∀ s, api.inTransaction s = false → ∃ t, api.begin s = .ok t ∧
    api.inTransaction t = true ∧
    api.view t = api.view s ∧ api.committed t = api.committed s
  commits : ∀ s, api.inTransaction s = true → ∃ t, api.commit s = .ok t ∧
    api.inTransaction t = false ∧
    api.committed t = api.view s
  rollsBack : ∀ s, api.inTransaction s = true → api.inTransaction (api.rollback s) = false ∧
    api.committed (api.rollback s) = api.committed s
  writes : ∀ s f, api.inTransaction s = true → api.inTransaction (api.write f s) = true ∧
    api.view (api.write f s) = f (api.view s) ∧ api.committed (api.write f s) = api.committed s

inductive Happening where
  | entered | left | began | committed | rolledBack | read | wrote
  deriving DecidableEq

/-- Begin, commit or rollback of the session. -/
def Happening.isControl : Happening → Bool
  | .began | .committed | .rolledBack => true
  | _ => false

structure Moment where
  opened : Nat
  depth : Option Int
  what : Happening
  deriving DecidableEq

structure Running (σ : Type) where
  session : σ
  depth : Option Int
  trace : List Moment

abbrev Action (σ ε : Type) := EStateM ε (Running σ)

def Running.happen (s : Running σ) (opened : Nat) (what : Happening) : Running σ :=
  { s with trace := s.trace ++ [⟨opened, s.depth, what⟩] }

def happens (opened : Nat) (what : Happening) : Action σ ε Unit := modify (·.happen opened what)

theorem run_happens (opened : Nat) (what : Happening) (s : Running σ) :
    (happens opened what : Action σ ε Unit) s = .ok ⟨⟩ (s.happen opened what) := rfl

def attempt (op : σ → Except ε σ) : Action σ ε Unit := do
  match op (← get).session with
  | .ok session => modify fun s => { s with session }
  | .error e => throw e

/-- `async with session.begin(): return await func(...)`. -/
def withBegin (api : AsyncSession σ D ε) (opened : Nat) (func : Action σ ε α) : Action σ ε α := do
  attempt api.begin
  happens opened .began
  try
    let a ← func
    attempt api.commit
    happens opened .committed
    pure a
  catch e =>
    modify fun s => { s with session := api.rollback s.session }
    happens opened .rolledBack
    throw e

/-- The implicit transaction of earlier reads is committed first. -/
def explicitBlock (api : AsyncSession σ D ε) (opened : Nat) (func : Action σ ε α) : Action σ ε α :=
  do
  if api.inTransaction (← get).session then
    attempt api.commit
    happens opened .committed
  withBegin api opened func

/-- `_transactional_depth += n`. -/
def addDepth (n : Int) : Action σ ε Unit := modify fun s => { s with depth := s.depth.map (· + n) }

/-- The `finally` of the wrapper. -/
def leave (opened : Nat) : Action σ ε Unit := do
  addDepth (-1)
  happens (opened - 1) .left

/-- `opened` counts the calls that are open, this one among them. -/
def wrapper (api : AsyncSession σ D ε) (opened : Nat) (func : Action σ ε α) : Action σ ε α := do
  if (← get).depth.isNone then
    modify fun s => { s with depth := some 0 }
  if (← get).depth.any (0 < ·) then
    addDepth 1
    happens opened .entered
    try func
    finally leave opened
  else
    modify fun s => { s with depth := some 1 }
    happens opened .entered
    try explicitBlock api opened func
    finally leave opened

/-! ## Trees of calls -/

inductive Method (D ε : Type) : Type → Type 1 where
  | ret {α : Type} : α → Method D ε α
  | raise {α : Type} : ε → Method D ε α
  | read {α : Type} : (D → Method D ε α) → Method D ε α
  | write {α : Type} : (D → D) → Method D ε α → Method D ε α
  | call {α β : Type} : Method D ε β → (Except ε β → Method D ε α) → Method D ε α

namespace Method

/-- A call whose exception the caller lets through. -/
def through (callee : Method D ε β) (next : β → Method D ε α) : Method D ε α :=
  .call callee fun o => match o with
    | .ok b => next b
    | .error e => .raise e

/-- What the tree means without transactions: an outcome and new contents. -/
def flat : {α : Type} → Method D ε α → EStateM ε D α
  | _, ret a => pure a
  | _, raise e => throw e
  | _, read next => do (next (← get)).flat
  | _, write f next => do
    modify f
    next.flat
  | _, call callee next => do
    let outcome ← try Except.ok <$> callee.flat catch e => pure (Except.error e)
    (next outcome).flat

theorem flat_call (callee : Method D ε β) (next : Except ε β → Method D ε α) (d : D) :
    (call callee next).flat d = (next (outcome (callee.flat d))).flat (after (callee.flat d)) := by
  rw [flat, run_bind_ok (run_caught d)]

/-- The body of the method in the innermost of `opened` calls. -/
def run (api : AsyncSession σ D ε) : {α : Type} → Method D ε α → Nat → Action σ ε α
  | _, ret a, _ => pure a
  | _, raise e, _ => throw e
  | _, read next, opened => do
    happens opened .read
    (next (api.view (← get).session)).run api opened
  | _, write f next, opened => do
    modify fun s => { s with session := api.write f s.session }
    happens opened .wrote
    next.run api opened
  | _, call callee next, opened => do
    let outcome ← try Except.ok <$> wrapper api (opened + 1) (callee.run api (opened + 1))
      catch e => pure (Except.error e)
    (next outcome).run api opened

end Method

/-! ## Inside a transaction -/

/-- From `s` to `t` the depth has been the number of open calls at every moment, and the
session has begun, committed and rolled back as in `controls`. -/
def Traced (s t : Running σ) (controls : List Moment) : Prop :=
  ∃ ms, t.trace = s.trace ++ ms ∧ (∀ m ∈ ms, m.depth = some (m.opened : Int)) ∧
    ms.filter (·.what.isControl) = controls

theorem Traced.refl (s : Running σ) : Traced s s [] := ⟨[], by simp⟩

theorem Traced.trans {s t u : Running σ} {controls controls' : List Moment}
    (h : Traced s t controls) (h' : Traced t u controls') : Traced s u (controls ++ controls') := by
  obtain ⟨ms, htrace, hdepths, hcontrols⟩ := h
  obtain ⟨ms', htrace', hdepths', hcontrols'⟩ := h'
  refine ⟨ms ++ ms', by rw [htrace', htrace, List.append_assoc], fun m hm => ?_, ?_⟩
  · rcases List.mem_append.mp hm with hm | hm
    · exact hdepths m hm
    · exact hdepths' m hm
  · rw [List.filter_append, hcontrols, hcontrols']

theorem Traced.happen {s t : Running σ} {controls : List Moment} (h : Traced s t controls)
    (opened : Nat) (hdepth : t.depth = some (opened : Int)) (what : Happening) :
    Traced s (t.happen opened what)
    (controls ++ if what.isControl then [⟨opened, t.depth, what⟩] else []) := by
  obtain ⟨ms, htrace, hdepths, hcontrols⟩ := h
  refine ⟨ms ++ [⟨opened, t.depth, what⟩], by simp [Running.happen, htrace], fun m hm => ?_, ?_⟩
  · rcases List.mem_append.mp hm with hm | hm
    · exact hdepths m hm
    · rw [List.mem_singleton.mp hm]
      exact hdepth
  · rw [List.filter_append, hcontrols]
    cases hw : what.isControl <;> simp [hw]

/-- `opened` calls deep in the transaction that was begun at `s`, with contents `d` in view. -/
structure Inside (api : AsyncSession σ D ε) (opened : Nat) (s t : Running σ) (d : D) : Prop where
  depth : t.depth = some (opened : Int)
  inTransaction : api.inTransaction t.session = true
  view : api.view t.session = d
  committed : api.committed t.session = api.committed s.session
  traced : Traced s t []

/-- Two results end alike, in states that belong together. -/
inductive Agrees {σ τ : Type} (P E : σ → τ → Prop) : Result ε σ α → Result ε τ α → Prop
  | ok {a : α} {s : σ} {t : τ} : P s t → Agrees P E (.ok a s) (.ok a t)
  | error {e : ε} {s : σ} {t : τ} : E s t → Agrees P E (.error e s) (.error e t)

theorem Agrees.settle {σ τ : Type} {P E P' E' : σ → τ → Prop} {g : σ → σ} {r : Result ε σ α}
    {r' : Result ε τ α} (h : Agrees P E r r') (hok : ∀ s t, P s t → P' (g s) t)
    (herror : ∀ s t, E s t → E' (g s) t) : Agrees P' E' (settle g r) r' := by
  cases h with
  | ok h => exact .ok (hok _ _ h)
  | error h => exact .error (herror _ _ h)

theorem Agrees.after {σ τ : Type} {P : σ → τ → Prop} {r : Result ε σ α} {r' : Result ε τ α}
    (h : Agrees P P r r') : outcome r = outcome r' ∧ P (after r) (after r') := by
  cases h with
  | ok h => exact ⟨rfl, h⟩
  | error h => exact ⟨rfl, h⟩

variable {api : AsyncSession σ D ε} {opened : Nat} {s t : Running σ} {d : D}

theorem Inside.happen (h : Inside api opened s t d) (what : Happening)
    (hw : what.isControl = false) : Inside api opened s (t.happen opened what) d := by
  refine ⟨h.depth, h.inTransaction, h.view, h.committed, ?_⟩
  simpa [hw] using h.traced.happen opened h.depth what

theorem Inside.write (hapi : api.Documented) (h : Inside api opened s t d) (f : D → D) :
    Inside api opened s { t with session := api.write f t.session } (f d) := by
  obtain ⟨hin, hview, hcommitted⟩ := hapi.writes t.session f h.inTransaction
  exact ⟨h.depth, hin, by rw [hview, h.view], hcommitted.trans h.committed, h.traced⟩

theorem Inside.deeper (h : Inside api opened s t d) :
    Inside api (opened + 1) s
    (Running.happen { t with depth := some (opened + 1 : Int) } (opened + 1) .entered) d := by
  refine ⟨by simp [Running.happen], h.inTransaction, h.view, h.committed, ?_⟩
  have htraced : Traced s { t with depth := some (opened + 1 : Int) } [] := h.traced
  simpa [Happening.isControl] using htraced.happen (opened + 1) (by simp) .entered

def Running.leave (t : Running σ) (opened : Nat) : Running σ :=
  Running.happen { t with depth := t.depth.map (· + -1) } (opened - 1) .left

theorem run_leave (t : Running σ) : (leave opened : Action σ ε Unit) t = .ok ⟨⟩ (t.leave opened) :=
  rfl

theorem Inside.leave (h : Inside api (opened + 1) s t d) :
    Inside api opened s (t.leave (opened + 1)) d := by
  have hdepth : t.depth.map (· + -1) = some (opened : Int) := by
    rw [h.depth]
    simp
  refine ⟨hdepth, h.inTransaction, h.view, h.committed, ?_⟩
  have htraced : Traced s { t with depth := t.depth.map (· + -1) } [] := h.traced
  simpa [Running.leave, Happening.isControl] using htraced.happen opened hdepth .left

/-- A nested call only counts itself in and out. -/
theorem wrapper_nested (func : Action σ ε α) (hopen : 0 < opened)
    (hdepth : t.depth = some (opened : Int)) :
    wrapper api (opened + 1) func t = settle (·.leave (opened + 1))
    (func (Running.happen { t with depth := some (opened + 1 : Int) } (opened + 1) .entered)) := by
  have hpos : (0 : Int) < opened := by exact_mod_cast hopen
  simp only [wrapper, addDepth, happens, run_bind_ok (run_get _), run_bind_ok (run_modify _ _),
    run_finally run_leave,
    hdepth, Option.isNone_some, Option.any_some, hpos, decide_true, ↓reduceIte,
      Bool.false_eq_true, Option.map_some]

theorem wrapper_inside {func : Action σ ε α} {r : Result ε D α} (hopen : 0 < opened)
    (h : Inside api opened s t d)
    (hfunc : ∀ u, Inside api (opened + 1) s u d →
      Agrees (Inside api (opened + 1) s) (Inside api (opened + 1) s) (func u) r) :
    Agrees (Inside api opened s) (Inside api opened s) (wrapper api (opened + 1) func t) r := by
  rw [wrapper_nested func hopen h.depth]
  exact (hfunc _ h.deeper).settle (fun _ _ hu => hu.leave) fun _ _ hu => hu.leave

theorem Method.run_inside (hapi : api.Documented) (m : Method D ε α) (hopen : 0 < opened)
    (h : Inside api opened s t d) :
    Agrees (Inside api opened s) (Inside api opened s) (m.run api opened t) (m.flat d) := by
  induction m generalizing opened t d with
  | ret a => exact .ok h
  | raise e => exact .error h
  | read next ih =>
    have hread := ih d hopen (h.happen .read rfl)
    have hview : api.view (t.happen opened .read).session = d := h.view
    simpa only [Method.run, Method.flat, happens, run_bind_ok (run_modify _ _),
      run_bind_ok (run_get _), hview] using hread
  | write f next ih =>
    have hwrote := ih hopen ((h.write hapi f).happen .wrote rfl)
    simpa only [Method.run, Method.flat, happens, run_bind_ok (run_modify _ _)] using hwrote
  | call callee next ihcallee ihnext =>
    have hcall := wrapper_inside hopen h fun u hu => ihcallee (Nat.succ_pos _) hu
    obtain ⟨houtcome, hafter⟩ := hcall.after
    have hnext := ihnext (outcome (callee.flat d)) hopen hafter
    simpa only [Method.run, Method.flat, run_bind_ok (run_caught _), houtcome] using hnext

/-! ## The outermost call -/

theorem run_attempt {op : σ → Except ε σ} {session : σ} (h : op t.session = .ok session) :
    attempt op t = .ok ⟨⟩ { t with session } := by
  simp only [attempt, run_bind_ok (run_get _), h, run_modify]

/-- The outermost call, before it begins its transaction: what was open at `s` is committed. -/
structure Ready (api : AsyncSession σ D ε) (s t : Running σ) : Prop where
  depth : t.depth = some 1
  idle : api.inTransaction t.session = false
  committed : api.committed t.session = api.view s.session
  traced : Traced s t (if api.inTransaction s.session then [⟨1, some 1, .committed⟩] else [])

/-- From `s` to `t` an outermost call has come and gone, `last` its end and `d` what is
committed after it. -/
structure Closed (api : AsyncSession σ D ε) (last : Happening) (s t : Running σ) (d : D) :
    Prop where
  depth : t.depth = some 0
  idle : api.inTransaction t.session = false
  committed : api.committed t.session = d
  traced : Traced s t ((if api.inTransaction s.session then [⟨1, some 1, .committed⟩] else []) ++
    [⟨1, some 1, .began⟩, ⟨1, some 1, last⟩])

/-- The call commits what the tree means when it returns, and only what was there before
when it raises. -/
def TopLevel (api : AsyncSession σ D ε) (s : Running σ) (m : Method D ε α) : Prop :=
  Agrees (fun t d => Closed api .committed s t d)
    (fun t _ => Closed api .rolledBack s t (api.view s.session))
    (wrapper api 1 (m.run api 1) s) (m.flat (api.view s.session))

/-- Outside every call: the attribute has not been set yet, or it is back at 0. -/
def Running.Outside (s : Running σ) : Prop := s.depth = none ∨ s.depth = some 0

theorem wrapper_outermost (func : Action σ ε α) (hs : s.Outside) :
    wrapper api 1 func s = settle (·.leave 1)
    (explicitBlock api 1 func (Running.happen { s with depth := some 1 } 1 .entered)) := by
  rcases hs with hs | hs <;>
    simp only [wrapper, happens, run_bind_ok (run_get _), run_bind_ok (run_modify _ _),
      run_finally run_leave, hs,
      Option.isNone_none, Option.isNone_some, ↓reduceIte, Bool.false_eq_true, Option.any_some,
        lt_self_iff_false,
      decide_false]

theorem entered_traced (s : Running σ) :
    Traced s (Running.happen { s with depth := some 1 } 1 .entered) [] := by
  have hrefl : Traced s { s with depth := some 1 } [] := .refl s
  simpa [Happening.isControl] using hrefl.happen 1 rfl .entered

/-- Once the implicit transaction is out of the way, only the explicit one is left to run. -/
theorem explicitBlock_ready (hapi : api.Documented) (func : Action σ ε α) :
    ∃ t, Ready api s t ∧
    explicitBlock api 1 func (Running.happen { s with depth := some 1 } 1 .entered) =
      withBegin api 1 func t := by
  cases hin : api.inTransaction s.session with
  | false =>
    refine ⟨Running.happen { s with depth := some 1 } 1 .entered,
      ⟨rfl, hin, (hapi.idle _ hin).symm, ?_⟩, ?_⟩
    · simpa [hin] using entered_traced s
    · simp only [explicitBlock, run_bind_ok (run_get _), Running.happen, hin,
        Bool.false_eq_true, ↓reduceIte]
  | true =>
    obtain ⟨session, hcommit, hidle, hcommitted⟩ := hapi.commits _ hin
    have htraced : Traced s { Running.happen { s with depth := some 1 } 1 .entered with session }
      [] := entered_traced s
    refine ⟨Running.happen { Running.happen { s with depth := some 1 } 1 .entered with session } 1
      .committed,
      ⟨rfl, hidle, hcommitted, ?_⟩, ?_⟩
    · simpa [hin, Happening.isControl, Running.happen] using htraced.happen 1 rfl .committed
    · have hblock : api.inTransaction
        (Running.happen { s with depth := some 1 } 1 .entered).session = true := hin
      rw [explicitBlock, run_bind_ok (run_get _), if_pos hblock,
        run_bind_ok (run_attempt (t := Running.happen { s with depth := some 1 } 1 .entered)
          hcommit),
        run_bind_ok (run_happens 1 .committed _)]

theorem Traced.leave {controls : List Moment} (h : Traced s t controls)
    (hdepth : t.depth = some 1) : Traced s (t.leave 1) controls := by
  have htraced : Traced s { t with depth := t.depth.map (· + -1) } controls := h
  simpa [Running.leave, Happening.isControl] using htraced.happen 0 (by simp [hdepth]) .left

/-- The last session operation of the outermost call. -/
theorem Closed.of_inside {session : σ} (what : Happening) {u : Running σ} (hr : Ready api s t)
    (hbegan : u = Running.happen { t with session } 1 .began) {v : Running σ}
    (h : Inside api 1 u v d) {ended : σ} {d' : D} (hwhat : what.isControl = true)
    (hidle : api.inTransaction ended = false) (hcommitted : api.committed ended = d') :
    Closed api what s ((Running.happen { v with session := ended } 1 what).leave 1) d' := by
  have hdepth : v.depth = some 1 := h.depth
  have hfrom : Traced s u ((if api.inTransaction s.session then [⟨1, some 1, .committed⟩]
      else []) ++
      [⟨1, some 1, .began⟩]) := by
    have htraced : Traced s { t with session } _ := hr.traced
    simpa [hbegan, Happening.isControl, hr.depth] using htraced.happen 1 hr.depth .began
  have hto : Traced u (Running.happen { v with session := ended } 1 what) [⟨1, some 1, what⟩] := by
    have htraced : Traced u { v with session := ended } [] := h.traced
    simpa [hwhat, hdepth] using htraced.happen 1 hdepth what
  refine ⟨by simp [Running.leave, Running.happen, hdepth], hidle, hcommitted, ?_⟩
  simpa using (hfrom.trans hto).leave hdepth

theorem withBegin_closed (hapi : api.Documented) (m : Method D ε α) (h : Ready api s t) :
    Agrees (fun u d => Closed api .committed s (u.leave 1) d)
      (fun u _ => Closed api .rolledBack s (u.leave 1) (api.view s.session))
      (withBegin api 1 (m.run api 1) t) (m.flat (api.view s.session)) := by
  obtain ⟨session, hbegin, hin, hview, hcommitted⟩ := hapi.begins _ h.idle
  have hcontents : api.view session = api.view s.session :=
    hview.trans ((hapi.idle _ h.idle).trans h.committed)
  have hagrees := m.run_inside (t := Running.happen { t with session } 1 .began) hapi Nat.one_pos
    ⟨h.depth, hin, hcontents, rfl, .refl _⟩
  rw [withBegin, run_bind_ok (run_attempt hbegin), run_bind_ok (run_happens 1 .began _)]
  generalize hrun : m.run api 1 _ = r at hagrees
  generalize m.flat _ = r' at hagrees
  cases hagrees with
  | @ok a u d hu =>
    obtain ⟨ended, hcommit, hidle, hnew⟩ := hapi.commits _ hu.inTransaction
    have hlast := Closed.of_inside .committed h rfl hu rfl hidle (hnew.trans hu.view)
    rw [run_tryCatch_ok (a := a) (u := Running.happen { u with session := ended } 1 .committed)]
    · exact .ok hlast
    · rw [run_bind_ok hrun, run_bind_ok (run_attempt hcommit),
        run_bind_ok (run_happens 1 .committed _), run_pure]
  | @error e u d hu =>
    obtain ⟨hidle, hkept⟩ := hapi.rollsBack _ hu.inTransaction
    have hold : api.committed (api.rollback u.session) = api.view s.session :=
      hkept.trans (hu.committed.trans (hcommitted.trans h.committed))
    have hlast := Closed.of_inside .rolledBack h rfl hu rfl hidle hold
    rw [run_tryCatch_error (run_bind_error hrun), run_bind_ok (run_modify _ _),
      run_bind_ok (run_happens 1 .rolledBack _), run_throw]
    exact .error hlast

theorem topLevel (hapi : api.Documented) (m : Method D ε α) (hs : s.Outside) :
    TopLevel api s m := by
  obtain ⟨t, hready, hrun⟩ := explicitBlock_ready hapi (m.run api 1) (s := s)
  rw [TopLevel, wrapper_outermost _ hs, hrun]
  exact (withBegin_closed hapi m hready).settle (fun _ _ h => h) fun _ _ h => h

theorem TopLevel.after {m : Method D ε α} (h : TopLevel api s m) :
    (after (wrapper api 1 (m.run api 1) s)).depth = some 0 ∧
      api.inTransaction (after (wrapper api 1 (m.run api 1) s)).session = false := by
  unfold TopLevel at h
  generalize wrapper api 1 (m.run api 1) s = r at h ⊢
  generalize m.flat (api.view s.session) = r' at h
  cases h with
  | ok h => exact ⟨h.depth, h.idle⟩
  | error h => exact ⟨h.depth, h.idle⟩

/-- Every tree of nested calls is one transaction, the outermost call's, and leaves the
session so that the next call begins a transaction of its own. -/
theorem nested_transactions (hapi : api.Documented) (m : Method D ε α) (next : Method D ε β)
    (hs : s.Outside) :
    TopLevel api s m ∧ api.inTransaction (after (wrapper api 1 (m.run api 1) s)).session = false ∧
    TopLevel api (after (wrapper api 1 (m.run api 1) s)) next := by
  have hm := topLevel hapi m hs
  exact ⟨hm, hm.after.2, topLevel hapi next (.inr hm.after.1)⟩

/-- A session over contents of any kind, alone on its database. -/
structure Session (D : Type) where
  stored : D
  pending : Option D

/-- An SQLAlchemy session with nobody else on the database; `busy` is what a second
`begin` raises. -/
def session (busy : ε) : AsyncSession (Session D) D ε where
  inTransaction s := s.pending.isSome
  begin s := if s.pending.isSome then .error busy else .ok { s with pending := some s.stored }
  commit s := .ok ⟨s.pending.getD s.stored, none⟩
  rollback s := { s with pending := none }
  write f s := { s with pending := some (f (s.pending.getD s.stored)) }
  view s := s.pending.getD s.stored
  committed s := s.stored

theorem session_documented (busy : ε) :
    (session busy : AsyncSession (Session D) D ε).Documented where
  idle s hidle := by
    have hnone : s.pending = none := by simpa [session] using hidle
    simp [session, hnone]
  begins s hidle := by
    have hnone : s.pending = none := by simpa [session] using hidle
    exact ⟨{ s with pending := some s.stored }, by simp [session, hnone]⟩
  commits s _ := ⟨_, rfl, rfl, rfl⟩
  rollsBack s _ := ⟨rfl, rfl⟩
  writes s f _ := ⟨rfl, rfl, rfl⟩

/-- A write, a nested call that writes and fails and is caught, and a nested call within
a nested call. -/
def demoTree : Method (List Nat) String Unit :=
  .write (1 :: ·) (.call (.write (2 :: ·) (.raise (α := Unit) "refused")) fun _ =>
    .call (.call (.write (3 :: ·) (.ret ())) fun _ => .write (4 :: ·) (.ret ())) fun _ => .ret ())

/-- The exception of a nested call propagates. -/
def demoFailing : Method (List Nat) String Unit :=
  .write (5 :: ·) (demoTree.through fun _ => (Method.raise "refused").through .ret)

/-- An implicit transaction is open before the first call. -/
def demoSession : Running (Session (List Nat)) := ⟨⟨[], some [0]⟩, none, []⟩

theorem nested_transactions_demo :
    (after (wrapper (session "busy") 1
      (demoTree.run (session "busy") 1) demoSession)).session.stored = [4, 3, 2, 1, 0] ∧
    TopLevel (session "busy") demoSession demoTree ∧ TopLevel (session "busy")
    (after (wrapper (session "busy") 1 (demoTree.run (session "busy") 1) demoSession))
    demoFailing := by
  have h := nested_transactions (session_documented "busy") demoTree demoFailing (s := demoSession)
    (.inl rfl)
  exact ⟨by decide, h.1, h.2.2⟩

/-! ## The operations -/

/-- The body of a decorated method, statement by statement. -/
def method {α : Type} : Tx α → Method DB Exc α
  | .ret a => .ret a
  | .raise e => .raise e
  | .select q next => .read fun db => method (next (q db))
  | .lock _ q next => .read fun db => method (next (q db))
  | .update k w next => .read fun db => match w db with
    | .ok r => .write (Store.put k r) (method next)
    | .error e => .raise e
  | .insert k w next => .read fun db => match w db with
    | .ok r => .write (Store.put k r) (method next)
    | .error e => .raise e
  | .note e next => .write (Store.record e) (method next)
  | .commit next => method next

theorem method_flat {p : Tx α} (hp : p.CommitFree) (base w : DB) :
    outcome ((method p).flat w) = (p.exec base w).1 ∧
    after ((method p).flat w) = (p.exec base w).2.2 ∧ (p.exec base w).2.1 = base := by
  induction p generalizing w with
  | ret a => exact ⟨rfl, rfl, rfl⟩
  | raise e => exact ⟨rfl, rfl, rfl⟩
  | select q next ih => exact ih (q w) (hp _) w
  | lock keys q next ih => exact ih (q w) (hp _) w
  | update k f next ih =>
    have hread : (method (.update k f next)).flat w = (match f w with
      | .ok r => .write (Store.put k r) (method next)
      | .error e => .raise e : Method DB Exc _).flat w := rfl
    rw [hread, Prog.exec]
    cases f w with
    | ok r => exact ih hp _
    | error e => exact ⟨rfl, rfl, rfl⟩
  | insert k f next ih =>
    have hread : (method (.insert k f next)).flat w = (match f w with
      | .ok r => .write (Store.put k r) (method next)
      | .error e => .raise e : Method DB Exc _).flat w := rfl
    rw [hread, Prog.exec]
    cases f w with
    | ok r => exact ih hp _
    | error e => exact ⟨rfl, rfl, rfl⟩
  | note e next ih => exact ih hp _
  | commit next ih => exact hp.elim

/-- A decorated method alone on its session is one `call` on what the session sees. -/
theorem decorated_call {api : AsyncSession σ DB Exc} {s : Running σ} (hapi : api.Documented)
    {p : Tx α} (hp : p.CommitFree) (hs : s.Outside) :
    outcome (wrapper api 1 ((method p).run api 1) s) = (call p (api.view s.session)).1 ∧
    api.committed (after (wrapper api 1 ((method p).run api 1) s)).session =
      (call p (api.view s.session)).2 := by
  have htop := topLevel hapi (method p) hs
  obtain ⟨houtcome, hafter, hbase⟩ := method_flat hp (api.view s.session) (api.view s.session)
  unfold TopLevel at htop
  revert htop houtcome hafter
  generalize wrapper api 1 ((method p).run api 1) s = r
  generalize (method p).flat (api.view s.session) = r'
  intro htop houtcome hafter
  rcases hexec : p.exec (api.view s.session) (api.view s.session) with ⟨x, base, w⟩
  rw [hexec] at houtcome hafter hbase
  cases htop with
  | @ok a u d h =>
    cases houtcome
    rw [call_ok hexec]
    exact ⟨rfl, h.committed.trans hafter⟩
  | @error e u d h =>
    cases houtcome
    rw [call_error hexec]
    exact ⟨rfl, h.committed.trans hbase.symm⟩

/-- Inlining a nested call whose exceptions propagate does not change what the tree means. -/
theorem flat_through (p : Tx β) (f : β → Tx α) (db : DB) :
    ((method p).through fun b => method (f b)).flat db = (method (p.bind f)).flat db := by
  rw [Method.through, Method.flat_call]
  induction p generalizing db with
  | ret b => rfl
  | raise e => rfl
  | select q next ih => exact ih (q db) db
  | lock keys q next ih => exact ih (q db) db
  | update k g next ih =>
    simp only [method, Prog.bind, Method.flat, run_bind_ok (run_get _)]
    cases g db with
    | ok r => exact ih _
    | error e => rfl
  | insert k g next ih =>
    simp only [method, Prog.bind, Method.flat, run_bind_ok (run_get _)]
    cases g db with
    | ok r => exact ih _
    | error e => rfl
  | note e next ih => exact ih _
  | commit next ih => exact ih _

theorem raiseIf_commitFree {c : Prop} [Decidable c] {e : Exc} : (raiseIf c e).CommitFree := by
  unfold raiseIf
  split <;> trivial

theorem orRaise_commitFree {o : Option α} {e : Exc} : (orRaise o e).CommitFree := by
  cases o <;> trivial

theorem scalarOneOrNone_commitFree : ∀ rows : List α, (scalarOneOrNone rows).CommitFree
  | [] => trivial
  | [_] => trivial
  | _ :: _ :: _ => trivial

theorem promoteNextReservation_commitFree (svc : ReservationService) (order : RowOrder Reservation)
    (now : Int) (bookId : UUID) : (svc.promoteNextReservation order now bookId).CommitFree := by
  intro next
  cases next with
  | some next => trivial
  | none =>
    intro book
    cases book <;> trivial

theorem refuseBorrowed_commitFree {bookId : UUID} (rows : List BorrowRecord) :
    (ReservationService.refuseBorrowed bookId rows).CommitFree := by
  induction rows with
  | nil => trivial
  | cons br rest ih => exact raiseIf_commitFree.bind fun _ => ih

theorem expireHolds_commitFree {svc : ReservationService} {env : Env} (rows : List Reservation)
    (count : Nat) : (svc.expireHolds env rows count).CommitFree := by
  induction rows generalizing count with
  | nil => trivial
  | cons res rest ih =>
    exact (promoteNextReservation_commitFree svc env.reservationOrder _ _).bind
      fun _ => ih (count + 1)

theorem op_commitFree (svc : ReservationService) (env : Env) (op : Op) :
    (op.run svc env).CommitFree := by
  cases op with
  | createBook title author isbn totalCopies genre =>
    refine .bind (fun rows => (scalarOneOrNone_commitFree rows).bind fun _ =>
      raiseIf_commitFree.bind fun _ => ?_) fun _ => trivial
    exact fun _ => orRaise_commitFree
  | updateBook bookId body =>
    refine .bind (fun o => orRaise_commitFree.bind fun book => .bind ?_ fun _ => fun _ =>
      orRaise_commitFree) fun _ => trivial
    rcases body.totalCopies with _ | _ | newTotal
    · trivial
    · trivial
    · exact raiseIf_commitFree.bind fun _ => raiseIf_commitFree.bind fun _ => trivial
  | deleteBook bookId =>
    refine .bind (.bind (fun o => ?_) fun _ => raiseIf_commitFree) fun _ => trivial
    cases o <;> trivial
  | borrowBook memberId bookId =>
    refine .bind (.mapError ?_ _) fun _ => trivial
    refine fun o => orRaise_commitFree.bind fun member => .bind ?_ fun _ => fun o =>
        orRaise_commitFree.bind fun book =>
      fun holds => (scalarOneOrNone_commitFree holds).bind fun hold => .bind ?_ fun completed =>
        raiseIf_commitFree.bind fun _ => ?_
    · exact raiseIf_commitFree.bind fun _ => raiseIf_commitFree.bind fun _ => fun _ =>
        raiseIf_commitFree.bind fun _ =>
        fun _ => raiseIf_commitFree
    · cases hold with
      | none => trivial
      | some hold => exact raiseIf_commitFree.bind fun _ => trivial
    · cases completed <;> trivial
  | returnBook id =>
    refine .bind (.mapError ?_ _) fun _ => trivial
    refine fun o => orRaise_commitFree.bind fun record => ?_
    dsimp only
    split
    · trivial
    · exact (promoteNextReservation_commitFree svc env.reservationOrder _ _).bind fun _ => trivial
  | renewBook id =>
    refine .bind (.mapError ?_ _) fun _ => trivial
    exact fun o => orRaise_commitFree.bind fun record => raiseIf_commitFree.bind fun _ =>
        raiseIf_commitFree.bind fun _ =>
      raiseIf_commitFree.bind fun _ => raiseIf_commitFree.bind fun _ => trivial
  | placeReservation memberId bookId =>
    refine .bind ?_ fun _ => trivial
    exact fun o => orRaise_commitFree.bind fun book => raiseIf_commitFree.bind fun _ => fun count =>
      raiseIf_commitFree.bind fun _ => fun rows => (scalarOneOrNone_commitFree rows).bind fun _ =>
          raiseIf_commitFree.bind fun _ =>
      fun o => orRaise_commitFree.bind fun member => raiseIf_commitFree.bind fun _ =>
          raiseIf_commitFree.bind fun _ =>
      fun rows => (refuseBorrowed_commitFree rows).bind fun _ => fun _ => orRaise_commitFree
  | cancelReservation id memberId =>
    refine .bind (fun o => orRaise_commitFree.bind fun res => raiseIf_commitFree.bind fun _ =>
      raiseIf_commitFree.bind fun _ => ?_)
      fun _ => trivial
    by_cases hhold : res.status = .hold
    · simp only [hhold, ↓reduceIte]
      exact (promoteNextReservation_commitFree svc env.reservationOrder _ _).bind fun _ => fun _ =>
        orRaise_commitFree
    · simp only [hhold, ↓reduceIte]
      exact fun _ => orRaise_commitFree
  | processExpiredHolds =>
    exact .bind (fun rows => expireHolds_commitFree rows 0) fun _ => trivial

/-- Every operation of the library, under the decorator, is one `call`. -/
theorem decorated_op {api : AsyncSession σ DB Exc} {s : Running σ} (hapi : api.Documented)
    (svc : ReservationService) (env : Env) (op : Op) (hs : s.Outside) :
    outcome (wrapper api 1 ((method (op.run svc env)).run api 1) s) =
      (call (op.run svc env) (api.view s.session)).1 ∧
    api.committed (after (wrapper api 1 ((method (op.run svc env)).run api 1) s)).session =
      (call (op.run svc env) (api.view s.session)).2 :=
  decorated_call hapi (op_commitFree svc env op) hs

end LibraryPlatform

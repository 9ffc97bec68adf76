import LibraryPlatform.Concurrency
import LibraryPlatform.Confinement
import LibraryPlatform.Inquiries
import LibraryPlatform.Snapshots
import LibraryPlatform.Transactional

/-!
# Requests, interleaved statement by statement

A visit is one request, from the lookup of its caller to the commit of its service: of a route
that writes, of a login, a rotation or a logout, or of a route that answers a `GET`. A
registration (`POST /auth/register`) is none: registrations are interleaved with one another, not
with visits.
-/
namespace LibraryPlatform

open KeyedTable Transaction

inductive Visit where
  | write (now : Int) (credentials : Option HTTPAuthorizationCredentials) (env : Env)
      (route : Route)
  | sign (env : AuthEnv) (op : AuthOp)
  | ask (now : Int) (credentials : Option HTTPAuthorizationCredentials) (env : InquiryEnv)
      (inquiry : Inquiry)

inductive Response where
  | reply (r : Reply)
  | credentials (c : Credentials)
  | loggedOut
  | answer (a : Answer)
  deriving DecidableEq

def AuthOp.run (svc : AuthService) (env : AuthEnv) : AuthOp → Tx Response
  | .login email password client => Response.credentials <$> svc.login env email password client
  | .refreshToken raw client => Response.credentials <$> svc.refreshToken env raw client
  | .logout raw => (fun _ => Response.loggedOut) <$> svc.logout raw

def Visit.run (api : Api) : Visit → Tx Response
  | .write now credentials env route => Response.reply <$> api.handle now credentials env route
  | .sign env op => op.run api.auth env
  | .ask now credentials env inquiry => Response.answer <$> api.answer now credentials env inquiry

abbrev Traffic (n : Nat) := Sys DB RowKey Row Event Exc Response n

variable {n : Nat} {api : Api}

/-- The visits, none of which has done anything yet. -/
def Traffic.start (api : Api) (visits : Fin n → Visit) (s : DB) : Traffic n :=
  Sys.start s fun i => (visits i).run api

/-- What is known of the commits of the operations. -/
abbrev Effects := Op → Env → DB → DB → Prop

def Op.effects (D : Discipline DB RowKey) (guard : Guard) (svc : ReservationService) : Effects :=
  fun op env s t => op.Effect D guard s svc env s t

/-- What a visit commits. Who is asking and for which member it has read in the state `u`. -/
inductive Visit.Commits (D : Discipline DB RowKey) (E : Effects) (api : Api) (s : DB) :
    Visit → DB → Prop
  | nothing {v : Visit} : Commits D E api s v s
  | op {now : Int} {credentials : Option HTTPAuthorizationCredentials} {env : Env} {route : Route}
      {op : Op} {u t : DB} : D.Past u s → Dispatched api now credentials u route op →
      E op env s t → Commits D E api s (.write now credentials env route) t
  | tokens {env : AuthEnv} {op : AuthOp} {t : DB} : TokensOnly s t →
      Commits D E api s (.sign env op) t

def Visit.contract (D : Discipline DB RowKey) (guard : Guard) (E : Effects) (api : Api)
    (v : Visit) : Contract DB RowKey Response where
  publish _ _ s t := v.Commits D E api s t
  guard := guard
  point _ _ _ := True

/-! ## One visit among others -/

section

variable {α : Type} {D : Discipline DB RowKey} {T : Contract DB RowKey α} {s : DB}

/-- Rows of refresh tokens. -/
def IsToken (k : RowKey) : Prop := ∃ id, k = .refreshToken id

theorem TokensOnly.refl (s : DB) : TokensOnly s s := ⟨s.refreshTokens, rfl⟩

theorem TokensOnly.view {l : Local DB RowKey Row Event} (h : l.Within IsToken) (s : DB) :
    TokensOnly s (l.view s) := by
  refine h.view (P := TokensOnly s) (fun t k r hk ht => ?_) (.refl s)
  obtain ⟨id, rfl⟩ := hk
  cases r with
  | refreshToken r => exact ht.put id r
  | _ => exact ht

theorem confined_revokeAll (toks : List RefreshToken) :
    (AuthService.revokeAll toks).Confined IsToken := by
  induction toks with
  | nil => trivial
  | cons t rest ih => exact ⟨⟨_, rfl⟩, ih⟩

theorem confined_insertRefreshToken (r : RefreshToken) :
    (insertRefreshToken r).Confined IsToken := ⟨⟨_, rfl⟩, trivial⟩

theorem AuthOp.run_confined (svc : AuthService) (env : AuthEnv) (op : AuthOp) :
    (op.run svc env).Confined IsToken := by
  cases op <;> simp only [AuthOp.run, Prog.map_eq]
  case login email password client =>
    refine Prog.Confined.bind ?_ fun _ => trivial
    refine Prog.Confined.bind (p := UserRepository.getByEmail email)
      (fun _ => (readOnly_scalarOneOrNone _).confined) fun _ => ?_
    refine Prog.Confined.bind (readOnly_orRaise _ _).confined fun user => ?_
    refine Prog.Confined.bind (readOnly_raiseIf _ _).confined fun _ => ?_
    refine Prog.Confined.bind (readOnly_raiseIf _ _).confined fun _ => ?_
    exact (confined_insertRefreshToken _).bind fun _ => trivial
  case refreshToken raw client =>
    refine Prog.Confined.bind ?_ fun _ => trivial
    refine Prog.Confined.bind (p := RefreshTokenRepository.getByTokenHash _)
      (fun _ => (readOnly_scalarOneOrNone _).confined) fun _ => ?_
    refine Prog.Confined.bind (readOnly_orRaise _ _).confined fun token => ?_
    split
    · exact fun _ => (confined_revokeAll _).bind fun _ => trivial
    · split
      · exact (confined_revokeAll _).bind fun _ => trivial
      · refine Prog.Confined.bind (p := UserRepository.getById _) (fun _ => trivial) fun _ => ?_
        refine Prog.Confined.bind (readOnly_orRaise _ _).confined fun user => ?_
        refine Prog.Confined.bind (readOnly_raiseIf _ _).confined fun _ => ?_
        exact (confined_revokeAll _).bind fun _ => (confined_insertRefreshToken _).bind fun _ =>
          trivial
  case logout raw =>
    refine Prog.Confined.bind ?_ fun _ => trivial
    refine Prog.Confined.bind (p := RefreshTokenRepository.getByTokenHash _)
      (fun _ => (readOnly_scalarOneOrNone _).confined) fun o => ?_
    cases o with
    | some t => exact confined_revokeAll _
    | none => trivial

/-- What the calls commit that the route may end in. -/
def Does (D : Discipline DB RowKey) (T : Contract DB RowKey α) (svc : ReservationService)
    (env : Env) (E : Effects) (op : Op) : Prop :=
  ∀ s, D.inv s → wp D T (op.run svc env) (AtCommit D fun _ _ t t' => E op env t t') .init s

theorem op_does (hT : T.Quiet) (svc : ReservationService) (env : Env) (op : Op) :
    Does D T svc env (Op.effects D T.guard svc) op := fun _ _ => wp_op hT

/-- The routes that read nothing before they call their service. -/
theorem dispatched_of_direct {now : Int} {credentials : Option HTTPAuthorizationCredentials}
    {route : Route} (hroute : route.inTransaction = false) :
    ∃ op, api.dispatch now credentials route = .ret op ∧
      ∀ u, Dispatched api now credentials u route op := by
  obtain ⟨op, hret⟩ : ∃ op, api.dispatch now credentials route = .ret op := by
    cases route <;> first | exact ⟨_, rfl⟩ | cases hroute
  refine ⟨op, hret, fun u => ?_⟩
  have hcall : call (api.dispatch now credentials route) u = (.ok op, u) := by rw [hret]; rfl
  exact dispatched_of_call hcall

/-- A request of a route that writes: its dependencies read one committed state, and then it
does what the call of the service does. -/
theorem wp_handle (hpublish : ∀ L u, T.publish none L u u) {now : Int}
    {credentials : Option HTTPAuthorizationCredentials} {env : Env} {route : Route} {E : Effects}
    (hE : ∀ u op, Dispatched api now credentials u route op → Does D T api.reservations env E op)
    (hs : D.inv s) :
    wp D T (api.handle now credentials env route) (AtCommit D fun _ _ t t' =>
      ∃ u op, D.Past u t ∧ Dispatched api now credentials u route op ∧ E op env t t') .init s := by
  simp only [Api.handle, Prog.bind_eq, wp_bind]
  cases hin : route.inTransaction with
  | false =>
    obtain ⟨op, hret, hop⟩ := dispatched_of_direct hin
    rw [hret]
    simp only [wp_ret, transactional, Bool.false_eq_true, ↓reduceIte]
    have hdoes := hE s op (hop s) s hs
    refine wp_mono ?_ (wp_since (op_commitFree _ _ _) (D.refl [] s) hdoes)
    rintro _ l' s' ⟨hrely, hfinal⟩ t ht
    exact ⟨s, op, ⟨hs, D.trans hrely ht.rely_nil⟩, hop s, hfinal t ht⟩
  | true =>
    refine wp_mono ?_ (wp_reads (api.dispatch_readOnly route) hs ⟨rfl, rfl⟩)
    rintro op l' s₁ ⟨hlog, _, w, hw, hws, hcall⟩
    simp only [transactional, ↓reduceIte, Prog.bind_eq, wp_bind]
    refine wp_commit fun s₂ h₂ => ?_
    have hview : l'.view s₂ = s₂ := by simp [Local.view, hlog]
    rw [hview]
    refine ⟨hpublish _ _, ?_⟩
    have hsince : D.rely [] w s₂ := D.trans hws.rely_nil h₂.rely_nil
    have hdoes := hE w op (dispatched_of_call hcall) s₂ h₂.inv
    refine wp_mono ?_ (wp_since (op_commitFree _ _ _) hsince hdoes)
    rintro _ l'' s' ⟨hrely, hfinal⟩ t ht
    exact ⟨w, op, ⟨hw.inv, D.trans hrely ht.rely_nil⟩, dispatched_of_call hcall, hfinal t ht⟩

/-- `E` tells what the calls of the visit commit. -/
def Visit.Told (D : Discipline DB RowKey) (guard : Guard) (E : Effects) (api : Api) (v : Visit) :
    Prop :=
  ∀ now credentials env route, v = .write now credentials env route →
    ∀ u op, Dispatched api now credentials u route op →
      Does D (v.contract D guard E api) api.reservations env E op

/-- What a visit commits, among others that keep the discipline. -/
theorem wp_visit {guard : Guard} {E : Effects} {v : Visit} (hE : v.Told D guard E api)
    (hs : D.inv s) :
    wp D (v.contract D guard E api) (v.run api) (Final D (v.contract D guard E api)) .init s := by
  have hT : (v.contract D guard E api).Quiet := fun _ _ _ => trivial
  cases v with
  | write now credentials env route =>
    simp only [Visit.run, Prog.map_eq, wp_bind, wp_ret]
    have hdoes := hE now credentials env route rfl
    refine wp_mono ?_ (wp_handle (fun _ _ => Visit.Commits.nothing) hdoes hs)
    intro _ l' s' h t ht
    obtain ⟨u, op, hu, hd, he⟩ := h t ht
    exact .op hu hd he
  | sign env op =>
    refine wp_mono ?_ (wp_confined hT (fun _ u l hl => .tokens (.view hl u))
      (op.run_confined api.auth env) .init)
    exact fun _ l' s' hl t _ => .tokens (.view hl t)
  | ask now credentials env inquiry =>
    simp only [Visit.run, Prog.map_eq, wp_bind, wp_ret]
    refine wp_mono ?_ (wp_reads (Api.answer_readOnly inquiry) hs ⟨rfl, rfl⟩)
    rintro _ l' s' ⟨hlog, _⟩ t _
    have hview : l'.view t = t := by simp [Local.view, hlog]
    rw [hview]
    exact .nothing

end

/-! ## Visits together -/

variable {D : Discipline DB RowKey} {guard : Fin n → Guard} {E : Fin n → Effects}
  {visits : Fin n → Visit} {s₀ : DB} {s s' : Traffic n}

theorem Traffic.unguarded (h : Sys.Reach Sys.Any s s') :
    Sys.Reach (Sys.WhereGuarded fun _ => NoGuard) s s' :=
  h.mono fun _ _ _ _ _ _ _ _ _ _ => trivial

/-- The commits of the visits are told by `E`, and keep the discipline, whatever locks the others
hold. -/
structure Upholds (D : Discipline DB RowKey) (guard : Fin n → Guard) (E : Fin n → Effects)
    (api : Api) (visits : Fin n → Visit) : Prop where
  told : ∀ i, (visits i).Told D (guard i) (E i) api
  kept : ∀ i s t, (visits i).Commits D (E i) api s t → D.inv s → D.inv t ∧ ∀ L, D.rely L s t

/-- Visits that write each what its operation writes. -/
def Keeping (D : Discipline DB RowKey) (api : Api) (visits : Fin n → Visit) : Prop :=
  Upholds D (fun _ => NoGuard) (fun _ => Op.effects D NoGuard api.reservations) api visits

theorem keeping_of (h : ∀ i s t, (visits i).Commits D (Op.effects D NoGuard api.reservations) api
    s t → D.inv s → D.inv t ∧ ∀ L, D.rely L s t) : Keeping D api visits where
  told _ _ _ _ _ _ _ op _ := op_does (fun _ _ _ => trivial) _ _ op
  kept := h

namespace Upholds

theorem lawful (h : Upholds D guard E api visits) (i : Fin n) :
    Lawful D ((visits i).contract D (guard i) (E i) api) := by
  intro _ L s t hp hi
  obtain ⟨ht, hr⟩ := h.kept i s t hp hi
  exact ⟨ht, fun L' _ => hr L'⟩

/-- Visits whose commits keep the discipline may be made at the same time. -/
theorem good (hkeeps : Upholds D guard E api visits) (h₀ : D.inv s₀)
    (h : Sys.Reach (Sys.WhereGuarded guard) (Traffic.start api visits s₀) s) :
    Sys.Good D (fun i => (visits i).contract D (guard i) (E i) api) s :=
  Sys.good_of_reach hkeeps.lawful (Sys.good_start h₀ fun i => wp_visit (hkeeps.told i) h₀) h

theorem onward (hkeeps : Upholds D guard E api visits) (h₀ : D.inv s₀)
    (h : Sys.Reach (Sys.WhereGuarded guard) (Traffic.start api visits s₀) s)
    (h' : Sys.Reach (Sys.WhereGuarded guard) s s') : D.rely [] s.db s'.db :=
  (hkeeps.good h₀ h).onward hkeeps.lawful h'

/-- Every move leaves the committed store alone or is a commit. -/
theorem move (hkeeps : Upholds D guard E api visits) (h₀ : D.inv s₀)
    (h : Sys.Reach (Sys.WhereGuarded guard) (Traffic.start api visits s₀) s) {i : Fin n}
    {m : Move RowKey} (hg : Sys.WhereGuarded guard s i m) (hs : s.step i m = some s') :
    s'.db = s.db ∨ (visits i).Commits D (E i) api s.db s'.db := by
  rcases ((hkeeps.good h₀ h).moved hg hs).publish with he | ⟨_, hc⟩
  · exact .inl he
  · exact .inr hc

end Upholds

end LibraryPlatform

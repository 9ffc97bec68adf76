import LibraryPlatform.Authority
import LibraryPlatform.TokenBreach

/-!
# Where tokens come from

Whatever races the rotations run, a refresh token is never changed but revoked, and each new one
comes from a login with the password of its account or from an older token of its family.
-/
namespace LibraryPlatform

open KeyedTable Transaction

/-! ## What the calls write -/

/-- The row a login inserts. -/
def firstToken (svc : AuthService) (env : AuthEnv) (u : User) (client : ClientMetadata) :
    RefreshToken :=
  ⟨env.newId, u.id, env.familyId, svc.generateTokenFingerprint env.rawRefreshToken,
    toDatetime (env.clock 1 + 7 * day), false, client⟩

/-- The accounts are those they were, and their addresses are compared as they were. -/
structure SameUsers (s t : DB) : Prop where
  users : t.users = s.users
  collation : t.collation = s.collation

/-- The account of `s` has that address and password, and is active. -/
structure LogsIn (svc : AuthService) (s : DB) (email password : String) (u : User) : Prop where
  account : u ∈ s.users.rows
  email : s.weight u.email = s.weight email
  active : u.status = .active
  password : svc.verifyPassword password u.passwordHash = true

theorem SameUsers.refl (s : DB) : SameUsers s s := ⟨rfl, rfl⟩

theorem SameUsers.trans {s t u : DB} (h : SameUsers s t) (h' : SameUsers t u) :
    SameUsers s u := ⟨h'.users.trans h.users, h'.collation.trans h.collation⟩

theorem SameUsers.symm {s t : DB} (h : SameUsers s t) : SameUsers t s :=
  ⟨h.users.symm, h.collation.symm⟩

theorem LogsIn.among {svc : AuthService} {s t : DB} {email password : String} {u : User}
    (h : LogsIn svc s email password u) (hsame : SameUsers s t) :
    LogsIn svc t email password u where
  account := hsame.users ▸ h.account
  email := by
    rw [DB.weight_congr hsame.collation, DB.weight_congr hsame.collation, h.email]
  active := h.active
  password := h.password

/-- What a login, a rotation or a logout commits, and what it answers. -/
inductive TokenWrite (svc : AuthService) (env : AuthEnv) (s : DB) :
    AuthOp → Option Credentials → DB → Prop
  | revoked {op : AuthOp} (toks : List RefreshToken) :
      TokenWrite svc env s op none (s.revokeTokens toks)
  | issued {email password : String} {client : ClientMetadata} {u : User} :
      LogsIn svc s email password u → s.refreshTokens.get env.newId = none →
      TokenWrite svc env s (.login email password client)
        (some ⟨svc.jwtManager.createAccessToken u.id env.jti u.role (env.clock 0),
          env.rawRefreshToken⟩)
        (s.put (.refreshToken env.newId) (.refreshToken (firstToken svc env u client)))
  | rotated {raw : String} {client : ClientMetadata} {old : RefreshToken} {u : User} :
      s.refreshTokens.get old.id = some old →
      old.tokenHash = svc.generateTokenFingerprint raw → env.clock 0 ≤ old.expiresAt →
      s.users.get old.userId = some u → u.status = .active →
      s.refreshTokens.get env.newId = none →
      TokenWrite svc env s (.refreshToken raw client)
        (some ⟨svc.jwtManager.createAccessToken u.id env.jti u.role (env.clock 1),
          env.rawRefreshToken⟩)
        ((s.revoke old.id).put (.refreshToken env.newId)
          (.refreshToken (successor svc env old client)))

/-- Tokens stay as they are, but may be revoked. -/
def TokensFixed (s t : DB) : Prop :=
  ∀ x r, s.refreshTokens.get x = some r →
    t.refreshTokens.get x = some r ∨ t.refreshTokens.get x = some r.revoke

namespace TokensFixed

variable {s t u : DB}

theorem refl (s : DB) : TokensFixed s s := fun _ _ hr => .inl hr

theorem trans (h : TokensFixed s t) (h' : TokensFixed t u) : TokensFixed s u := by
  intro x r hr
  rcases h x r hr with hr | hr
  · exact h' x r hr
  · exact .inr ((h' x r.revoke hr).elim id id)

theorem revoke (h : TokensFixed s t) (id : UUID) : TokensFixed s (t.revoke id) := by
  intro x r hr
  rw [DB.get_revoke]
  split
  · rcases h x r hr with hr | hr <;> exact .inr (by rw [hr]; rfl)
  · exact h x r hr

theorem revokeTokens (h : TokensFixed s t) (toks : List RefreshToken) :
    TokensFixed s (t.revokeTokens toks) :=
  revokeTokens_keeps (P := TokensFixed s) (fun _ id h => h.revoke id) toks h

theorem insert (h : TokensFixed s t) {id : UUID} {new : RefreshToken}
    (hnew : t.refreshTokens.get id = none) :
    TokensFixed s (t.put (.refreshToken id) (.refreshToken new)) := by
  intro x r hr
  rw [DB.get_putRefreshToken]
  split
  · rename_i hx
    rw [hx] at hr
    rcases h id r hr with hr | hr <;> cases hnew.symm.trans hr
  · exact h x r hr

/-- The row, now, of a token read before. -/
theorem row (h : TokensFixed s t) {r q : RefreshToken} {x : UUID}
    (hr : s.refreshTokens.get x = some r) (hq : t.refreshTokens.get x = some q) :
    q = r ∨ q = r.revoke := by
  rcases h x r hr with h | h
  · exact .inl (Option.some.inj (hq.symm.trans h))
  · exact .inr (Option.some.inj (hq.symm.trans h))

end TokensFixed

section

variable {α : Type} {D : Discipline DB RowKey} {T : Contract DB RowKey α} {svc : AuthService}
  {env : AuthEnv} {raw email password : String} {client : ClientMetadata} {s : DB}
  {s₀ : DB}

theorem wp_login_writes (husers : ∀ u, D.inv u → SameUsers s₀ u) :
    wp D T (svc.login env email password client) (AtCommit D fun c _ t t' =>
      TokenWrite svc env t (.login email password client) (some c) t') .init s := by
  unfold AuthService.login
  simp only [UserRepository.getByEmail, Prog.bind_eq, wp_bind]
  refine wp_select fun s₁ h₁ => wp_scalarOneOrNone (fun _ => trivial) fun u hu =>
    wp_orRaise fun _ hsome => wp_raiseIf fun hactive => wp_raiseIf fun hpassword => ?_
  cases hsome
  obtain ⟨hmem, hemail⟩ := List.mem_filter.mp (hu ▸ List.mem_singleton_self u)
  refine wp_insertRefreshToken fun s₂ h₂ hfresh t ht => ?_
  have hfree : t.refreshTokens.get env.newId = none :=
    (later_refreshToken ht.unwrite (by simp)).trans hfresh
  have hlogs : LogsIn svc s₁ email password u :=
    ⟨hmem, of_decide_eq_true hemail, not_not.mp hactive, by simpa using hpassword⟩
  exact .issued (hlogs.among ((husers s₁ h₁.inv).symm.trans (husers t ht.inv))) hfree

variable (hT : T.Quiet) (husers : ∀ u, D.inv u → SameUsers s₀ u)
  (hfixed : ∀ L u v, D.rely L u v → TokensFixed u v)

include hT husers hfixed

/-- With no promise of the row it writes over, a rotation may revoke a token a second time, but it
follows the token that was presented. -/
theorem wp_refreshToken_writes
    (hreuse : ∀ L u toks, T.publish none L u (u.revokeTokens toks)) :
    wp D T (svc.refreshToken env raw client) (AtCommit D fun c _ t t' =>
      TokenWrite svc env t (.refreshToken raw client) (some c) t') .init s := by
  unfold AuthService.refreshToken
  simp only [RefreshTokenRepository.getByTokenHash, Prog.bind_eq, wp_bind]
  refine wp_select fun s₁ h₁ => wp_scalarOneOrNone (fun _ => trivial)
    (fun record hfound => wp_orRaise fun r hr => ?_)
  cases hr
  have hmem := List.mem_filter.mp (hfound ▸ List.mem_singleton_self record)
  split
  · simp only [RefreshTokenRepository.getFamily, wp_bind]
    refine wp_select fun s₂ h₂ => wp_revokeAll hT h₂.inv fun l' s' _ _ hview _ _ =>
      wp_commit fun t ht => ⟨?_, trivial⟩
    rw [hview t ht]
    exact hreuse _ _ _
  · split
    · simp only [wp_bind]
      exact wp_revokeAll hT h₁.inv fun _ _ _ _ _ _ _ => trivial
    · rename_i hexpired
      simp only [UserRepository.getById, AuthService.revokeAll, Prog.bind_eq, wp_bind]
      refine wp_select fun s₂ h₂ => wp_orRaise fun u hu => wp_raiseIf fun hactive => ?_
      refine wp_updateRefreshToken hT fun A s₃ r h₃ hk _ hr =>
        wp_insertRefreshToken fun s₄ h₄ hfresh t ht => ?_
      have h₃t := ((((Onward.refl h₃.inv).write _ _).hold h₄ _).write _ _).then_later ht
      have h₄t := ((Onward.refl h₄.inv).write _ _).then_later ht
      have hrecord : s₁.refreshTokens.get record.id = some record := Table.get_of_mem hmem.1
      have hhash : record.tokenHash = svc.generateTokenFingerprint raw := by simpa using hmem.2
      have hid : r.id = record.id := Table.key_of_get hr
      have hrt : t.refreshTokens.get record.id = some r := (later_refreshToken h₃t hk).trans hr
      have hsame := (hfixed _ _ _ (h₂.trans h₃.unsnap).rely).row hrecord hr
      have hput : t.revoke r.id = t.put (.refreshToken record.id) (.refreshToken r.revoke) := by
        rw [DB.revoke, hid, hrt]
      have hfree : (t.revoke r.id).refreshTokens.get env.newId = none := by
        rw [hput]
        exact (later_refreshToken h₄t (by simp)).trans hfresh
      have hsucc : successor svc env record client = successor svc env r client := by
        rcases hsame with rfl | rfl <;> rfl
      have hu : t.users.get r.userId = some u := by
        have husers₁ : s₁.users.get record.userId = some u := hu
        rw [(husers t ht.inv).users, ← (husers s₁ h₁.inv).users]
        rcases hsame with rfl | rfl <;> exact husers₁
      have hhash' : r.tokenHash = svc.generateTokenFingerprint raw := by
        rcases hsame with rfl | rfl <;> exact hhash
      have hlive : env.clock 0 ≤ r.expiresAt := by
        rcases hsame with rfl | rfl <;> exact not_lt.mp hexpired
      have hwrite : TokenWrite svc env t (.refreshToken raw client) _ _ :=
        .rotated (hid ▸ hrt) hhash' hlive hu (not_not.mp hactive) (DB.revoke_eq_none.mp hfree)
      rw [hput, ← hsucc] at hwrite
      exact hwrite

omit husers hfixed in
theorem wp_logout_writes (env : AuthEnv) :
    wp D T (svc.logout raw) (AtCommit D fun _ _ t t' =>
      TokenWrite svc env t (.logout raw) none t') .init s := by
  unfold AuthService.logout
  simp only [RefreshTokenRepository.getByTokenHash, Prog.bind_eq, wp_bind]
  refine wp_select fun s₁ h₁ => wp_scalarOneOrNone (fun _ t _ => .revoked []) fun record _ => ?_
  refine wp_revokeAll hT h₁.inv fun l' s' _ _ hview _ _ t ht => ?_
  rw [hview t ht]
  exact .revoked _

end

/-! ## Visits that leave the tokens alone -/

theorem Handed.refreshTokens {D : Discipline DB RowKey} {s v v' : DB}
    {next : DB → Option Reservation} {expiresAt : Int} {bookId : UUID}
    (h : Handed D s next expiresAt bookId v v') : v'.refreshTokens = v.refreshTokens := by
  cases h <;> rfl

theorem Expiring.refreshTokens {D : Discipline DB RowKey} {s v v' : DB} {svc : ReservationService}
    {env : Env} {rest : List Reservation} {n : Nat} (h : Expiring D s svc env rest n v v') :
    v'.refreshTokens = v.refreshTokens := by
  induction h with
  | nil => rfl
  | cons _ hh _ ih => exact ih.trans hh.refreshTokens

theorem Op.Effect.refreshTokens {D : Discipline DB RowKey} {guard : Guard} {s v v' : DB}
    {svc : ReservationService} {env : Env} {op : Op} (h : op.Effect D guard s svc env v v') :
    v'.refreshTokens = v.refreshTokens := by
  cases op with
  | createBook => rw [h.stored]; rfl
  | updateBook => cases h <;> rfl
  | deleteBook => cases h; rfl
  | borrowBook => cases h <;> rfl
  | returnBook =>
    cases h with
    | again => rfl
    | handed _ _ _ _ _ _ hh => exact hh.refreshTokens
  | renewBook => cases h; rfl
  | placeReservation => rw [h.stored]; rfl
  | cancelReservation =>
    cases h with
    | waiting => rfl
    | held _ _ _ hh => exact hh.refreshTokens
  | processExpiredHolds =>
    obtain ⟨_, _, _, he⟩ := h
    exact he.refreshTokens

/-! ## Any run -/

variable {n : Nat} {api : Api} {visits : Fin n → Visit} {s₀ : DB} {s : Traffic n} {t u : DB}

/-- The credentials that a visit answers with. -/
def Response.issued : Response → Option Credentials
  | .credentials c => some c
  | _ => none

/-- What a visit does to the tokens, and the credentials it answers with. -/
inductive Visit.Signs (api : Api) (s : DB) : Visit → Option Credentials → DB → Prop
  | other {v : Visit} {t : DB} : t.refreshTokens = s.refreshTokens → SameUsers s t →
      Signs api s v none t
  | sign {env : AuthEnv} {op : AuthOp} {c : Option Credentials} {t : DB} :
      TokenWrite api.auth env s op c t → Signs api s (.sign env op) c t

def Visit.signing (api : Api) (v : Visit) : Contract DB RowKey Response where
  publish o _ s t := v.Signs api s (o.bind Response.issued) t
  guard := NoGuard
  point _ _ _ := True

/-- Where a token of the run comes from: it or one of its family was there before, or an account
has logged in. -/
inductive Origin (api : Api) (visits : Fin n → Visit) (s₀ : DB) (r : RefreshToken) : Prop
  | stored {q : RefreshToken} : q ∈ s₀.refreshTokens.rows → r.familyId = q.familyId →
      r.userId = q.userId → Origin api visits s₀ r
  | login {i : Fin n} {env : AuthEnv} {email password : String} {client : ClientMetadata}
      {u : User} : visits i = .sign env (.login email password client) →
      LogsIn api.auth s₀ email password u → r.familyId = env.familyId → r.userId = u.id →
      Origin api visits s₀ r

theorem Origin.follow {r q : RefreshToken} (h : Origin api visits s₀ r)
    (hfamily : q.familyId = r.familyId) (huser : q.userId = r.userId) :
    Origin api visits s₀ q := by
  cases h with
  | stored hmem hf hu => exact .stored hmem (hfamily.trans hf) (huser.trans hu)
  | login hi hlogs hf hu => exact .login hi hlogs (hfamily.trans hf) (huser.trans hu)

/-- Accounts are as they were, and every token has its origin. -/
structure Rooted (api : Api) (visits : Fin n → Visit) (s₀ s : DB) : Prop where
  accounts : SameUsers s₀ s
  origin : ∀ r ∈ s.refreshTokens.rows, Origin api visits s₀ r

def rooted (api : Api) (visits : Fin n → Visit) (s₀ : DB) : Discipline DB RowKey where
  inv := Rooted api visits s₀
  rely _ s t := TokensFixed s t ∧ SameUsers s t
  refl _ s := ⟨.refl s, .refl s⟩
  trans h h' := ⟨h.1.trans h'.1, h.2.trans h'.2⟩
  anti _ h := h

theorem Rooted.revokeTokens (h : Rooted api visits s₀ t) (toks : List RefreshToken) :
    Rooted api visits s₀ (t.revokeTokens toks) := by
  refine revokeTokens_keeps (P := Rooted api visits s₀) (fun u id hu => ⟨?_, fun r hr => ?_⟩) toks h
  · refine hu.accounts.trans ?_
    unfold DB.revoke
    split <;> exact ⟨rfl, rfl⟩
  · obtain ⟨r₀, hr₀, ⟨rfl, _⟩ | ⟨rfl, _⟩⟩ := mem_revoke hr
    · exact hu.origin _ hr₀
    · exact (hu.origin r₀ hr₀).follow rfl rfl

theorem Visit.Signs.keeps {i : Fin n} {c : Option Credentials}
    (h : (visits i).Signs api t c u) (ht : Rooted api visits s₀ t) :
    Rooted api visits s₀ u ∧ TokensFixed t u := by
  generalize hv : visits i = v at h
  cases h with
  | other htokens hsame =>
    exact ⟨⟨ht.accounts.trans hsame, htokens ▸ ht.origin⟩, fun x r hr => .inl (htokens ▸ hr)⟩
  | sign hwrite =>
    cases hwrite with
    | revoked toks => exact ⟨ht.revokeTokens toks, (TokensFixed.refl t).revokeTokens toks⟩
    | issued hlogs hfresh =>
      refine ⟨⟨ht.accounts.trans ⟨rfl, rfl⟩, fun r hr => ?_⟩, (TokensFixed.refl t).insert hfresh⟩
      rcases (Table.mem_put.mp hr).imp_right And.left with rfl | hr
      · exact .login hv (hlogs.among ht.accounts.symm) rfl rfl
      · exact ht.origin r hr
    | @rotated _ _ old _ hold _ _ _ _ hfresh =>
      have hrevoked := ht.revokeTokens [old]
      refine ⟨⟨hrevoked.accounts.trans ⟨rfl, rfl⟩, fun r hr => ?_⟩,
        ((TokensFixed.refl t).revoke old.id).insert (DB.revoke_eq_none.mpr hfresh)⟩
      rcases (Table.mem_put.mp hr).imp_right And.left with rfl | hr
      · exact (ht.origin old (Table.mem_of_get hold)).follow rfl rfl
      · exact hrevoked.origin r hr

theorem rooted_lawful (i : Fin n) : Lawful (rooted api visits s₀) ((visits i).signing api) := by
  intro o L s t h hs
  obtain ⟨ht, hfixed⟩ := Visit.Signs.keeps h hs
  exact ⟨ht, fun _ _ => ⟨hfixed, hs.accounts.symm.trans ht.accounts⟩⟩

theorem wp_signing (v : Visit) (hs : Rooted api visits s₀ t) :
    wp (rooted api visits s₀) (v.signing api) (v.run api)
      (Final (rooted api visits s₀) (v.signing api)) .init t := by
  have hT : (v.signing api).Quiet := fun _ _ _ => trivial
  have husers : ∀ u, (rooted api visits s₀).inv u → SameUsers s₀ u := fun u hu => hu.accounts
  cases v with
  | write now credentials env route =>
    simp only [Visit.run, Prog.map_eq, wp_bind, wp_ret]
    refine wp_mono ?_ (wp_handle (fun _ _ => Visit.Signs.other rfl (.refl _))
      (fun _ op _ => op_does hT _ env op) hs)
    intro _ l' s' h t ht
    obtain ⟨_, _, _, _, he⟩ := h t ht
    exact .other (Op.Effect.refreshTokens he) ⟨Op.Effect.users he, view_collation l' t⟩
  | ask now credentials env inquiry =>
    simp only [Visit.run, Prog.map_eq, wp_bind, wp_ret]
    refine wp_mono ?_ (wp_reads (Api.answer_readOnly inquiry) hs ⟨rfl, rfl⟩)
    rintro _ l' s' ⟨hlog, _⟩ t _
    have hview : l'.view t = t := by simp [Local.view, hlog]
    rw [hview]
    exact .other rfl (.refl t)
  | sign env op =>
    cases op <;> simp only [Visit.run, AuthOp.run, Prog.map_eq, wp_bind, wp_ret]
    case login =>
      refine wp_mono ?_ (wp_login_writes husers)
      exact fun _ l' s' h t ht => .sign (h t ht)
    case refreshToken =>
      refine wp_mono ?_ (wp_refreshToken_writes hT husers (fun _ _ _ h => h.1)
        fun _ _ toks => .sign (.revoked toks))
      exact fun _ l' s' h t ht => .sign (h t ht)
    case logout =>
      refine wp_mono ?_ (wp_logout_writes hT env)
      exact fun _ l' s' h t ht => .sign (h t ht)

theorem rooted_start (api : Api) (visits : Fin n → Visit) (s₀ : DB) : Rooted api visits s₀ s₀ :=
  ⟨.refl s₀, fun _ hr => .stored hr rfl rfl⟩

theorem rooted_good (h : Sys.Reach Sys.Any (Traffic.start api visits s₀) s) :
    Sys.Good (rooted api visits s₀) (fun i => (visits i).signing api) s :=
  Sys.good_of_reach rooted_lawful
    (Sys.good_start (rooted_start api visits s₀) fun i => wp_signing (visits i) (rooted_start ..))
    (Traffic.unguarded h)

/-- The refresh token and the access token are those of one active account. -/
structure Granted (api : Api) (users : Table User) (env : AuthEnv) (c : Credentials)
    (r : RefreshToken) (u : User) : Prop where
  hash : r.tokenHash = api.auth.generateTokenFingerprint c.refreshToken
  account : users.get u.id = some u
  owner : r.userId = u.id
  active : u.status = .active
  access : ∃ k, c.accessToken =
    api.auth.jwtManager.createAccessToken u.id env.jti u.role (env.clock k)

theorem TokenWrite.granted {env : AuthEnv} {op : AuthOp} {c : Credentials}
    (h : TokenWrite api.auth env t op (some c) u) :
    u.users = t.users ∧
    ∃ r x, u.refreshTokens.get r.id = some r ∧ Granted api t.users env c r x := by
  cases h with
  | @issued _ _ client x hlogs _ =>
    exact ⟨rfl, firstToken api.auth env x client, x, Table.get_put_same _ _, rfl,
      Table.get_of_mem hlogs.account, rfl, hlogs.active, _, rfl⟩
  | @rotated _ client old x _ _ _ haccount hactive _ =>
    have hid : x.id = old.userId := Table.key_of_get haccount
    refine ⟨?_, successor api.auth env old client, x, Table.get_put_same _ _, rfl,
      hid ▸ haccount, hid.symm, hactive, _, rfl⟩
    unfold DB.revoke
    split <;> rfl

theorem Granted.revoke {env : AuthEnv} {c : Credentials} {users : Table User}
    {r : RefreshToken} {x : User} (h : Granted api users env c r x) :
    Granted api users env c r.revoke x := ⟨h.hash, h.account, h.owner, h.active, h.access⟩

theorem granted_of_returned (h : Sys.Reach Sys.Any (Traffic.start api visits s₀) s) {i : Fin n}
    {c : Credentials} (hc : s.txn i = .ended (.returned (.credentials c))) :
    ∃ env op r u, visits i = .sign env op ∧ s.db.refreshTokens.get r.id = some r ∧
      Granted api s₀.users env c r u := by
  have hgood := rooted_good h
  obtain ⟨L, t, u, hsigns, hfixed, haccounts⟩ := hgood.ended i _ hc
  replace hsigns : (visits i).Signs api t (some c) u := hsigns
  generalize hv : visits i = v at hsigns
  cases hsigns with
  | @sign env op _ _ hwrite =>
    obtain ⟨hsame, r, x, hr, hgranted⟩ := hwrite.granted
    rw [← hsame, ← haccounts.users, hgood.inv.accounts.users] at hgranted
    rcases hfixed r.id r hr with hr | hr
    · exact ⟨env, op, r, x, rfl, hr, hgranted⟩
    · exact ⟨env, op, r.revoke, x, rfl, hr, hgranted.revoke⟩

end LibraryPlatform

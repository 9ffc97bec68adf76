import LibraryPlatform.AuthService
import LibraryPlatform.StatementRules

/-!
# What the authentication service commits
-/
namespace LibraryPlatform

open KeyedTable Transaction

/-! ## Revoking tokens -/

def RefreshToken.revoke (t : RefreshToken) : RefreshToken := { t with revoked := true }

namespace DB

def revoke (db : DB) (id : UUID) : DB :=
  match db.refreshTokens.get id with
  | some t => db.put (.refreshToken id) (.refreshToken t.revoke)
  | none => db

def revokeTokens (db : DB) (toks : List RefreshToken) : DB :=
  toks.foldl (fun db t => db.revoke t.id) db

theorem get_putRefreshToken (db : DB) (id x : UUID) (t : RefreshToken) :
    (db.put (.refreshToken id) (.refreshToken t)).refreshTokens.get x =
      if x = id then some { t with id := id } else db.refreshTokens.get x := Table.get_put _ _ x

theorem get_revoke (db : DB) (id x : UUID) :
    (db.revoke id).refreshTokens.get x =
      if x = id then (db.refreshTokens.get x).map RefreshToken.revoke
    else db.refreshTokens.get x := by
  unfold revoke
  cases ht : db.refreshTokens.get id with
  | none =>
    by_cases hx : x = id
    · simp [hx, ht]
    · simp [hx]
  | some t =>
    obtain rfl : t.id = id := Table.key_of_get ht
    simp only [get_putRefreshToken]
    by_cases hx : x = t.id
    · simp [hx, ht, RefreshToken.revoke]
    · simp [hx]

theorem revoke_eq_none {db : DB} {id x : UUID} :
    (db.revoke id).refreshTokens.get x = none ↔ db.refreshTokens.get x = none := by
  rw [get_revoke]
  split <;> simp

@[simp] theorem revokeTokens_nil (db : DB) : db.revokeTokens [] = db := rfl

@[simp] theorem revokeTokens_cons (db : DB) (t : RefreshToken) (toks : List RefreshToken) :
    db.revokeTokens (t :: toks) = (db.revoke t.id).revokeTokens toks := rfl

theorem get_revokeTokens (db : DB) (toks : List RefreshToken) (x : UUID) :
    (db.revokeTokens toks).refreshTokens.get x =
      if x ∈ toks.map RefreshToken.id then (db.refreshTokens.get x).map RefreshToken.revoke
      else db.refreshTokens.get x := by
  induction toks generalizing db with
  | nil => simp
  | cons t rest ih =>
    rw [revokeTokens_cons, ih, get_revoke]
    by_cases hx : x = t.id
    · have htwice : ∀ o : Option RefreshToken, (o.map RefreshToken.revoke).map RefreshToken.revoke =
        o.map RefreshToken.revoke := by
        intro o
        cases o <;> rfl
      simp [hx, htwice]
    · simp [hx]

end DB

theorem exec_revokeAll {toks : List RefreshToken} {base w : DB}
    (h : ∀ t ∈ toks, (w.refreshTokens.get t.id).isSome) :
    (AuthService.revokeAll toks).exec base w = (.ok (), base, w.revokeTokens toks) := by
  induction toks generalizing w with
  | nil => rfl
  | cons t rest ih =>
    obtain ⟨r, hr⟩ := Option.isSome_iff_exists.mp (h t List.mem_cons_self)
    have hstep : (updateRefreshToken t.id (fun t => { t with revoked := true })).exec base w =
        (.ok (), base, w.revoke t.id) := by
      simp [updateRefreshToken, Prog.exec, hr, DB.revoke, RefreshToken.revoke]
    refine Prog.exec_bind_ok hstep (ih fun q hq => ?_)
    have hq := h q (List.mem_cons_of_mem _ hq)
    rw [DB.get_revoke]
    split
    · simpa using hq
    · exact hq

/-! ## One call alone -/

/-- The row that `get_by_token_hash` finds. -/
def Presented (svc : AuthService) (rawRefreshToken : String) (s : DB) (t : RefreshToken) : Prop :=
  s.refreshTokens.rows.filter (fun t => t.tokenHash =
    svc.generateTokenFingerprint rawRefreshToken) = [t]

theorem Presented.get {svc : AuthService} {raw : String} {s : DB} {t : RefreshToken}
    (h : Presented svc raw s t) :
    s.refreshTokens.get t.id = some t ∧ t.tokenHash = svc.generateTokenFingerprint raw := by
  have hm : t ∈ s.refreshTokens.rows.filter (fun t => t.tokenHash =
      svc.generateTokenFingerprint raw) := by
    rw [show _ = [t] from h]
    exact List.mem_cons_self
  obtain ⟨hmem, hhash⟩ := List.mem_filter.mp hm
  exact ⟨Table.get_of_mem hmem, by simpa using hhash⟩

theorem Presented.unique {svc : AuthService} {raw : String} {s : DB} {t q : RefreshToken}
    (h : Presented svc raw s t) (hq : Presented svc raw s q) : q = t := by
  unfold Presented at h hq
  rw [h] at hq
  exact (List.singleton_inj.mp hq).symm

theorem Presented.exec {svc : AuthService} {raw : String} {s : DB} {t : RefreshToken}
    (h : Presented svc raw s t) (base : DB) :
    (RefreshTokenRepository.getByTokenHash (svc.generateTokenFingerprint raw)).exec base s =
      (.ok (some t), base, s) := Prog.exec_bind_ok rfl (exec_scalarOneOrNone h)

/-- The tokens of a family that a flush has to update. -/
def unrevokedOf (env : AuthEnv) (s : DB) (familyId : UUID) : List RefreshToken :=
  env.tokenOrder.apply ((s.refreshTokens.rows.filter (fun t => t.familyId = familyId)).filter
    (fun t => !t.revoked))

theorem mem_unrevokedOf {env : AuthEnv} {s : DB} {familyId : UUID} {t : RefreshToken} :
    t ∈ unrevokedOf env s familyId ↔ t ∈ s.refreshTokens.rows ∧ t.familyId = familyId ∧
    t.revoked = false := by
  rw [unrevokedOf, (env.tokenOrder.perm _).mem_iff, List.mem_filter, List.mem_filter]
  simp [and_assoc]

/-- The row a rotation inserts. -/
def successor (svc : AuthService) (env : AuthEnv) (t : RefreshToken) (client : ClientMetadata) :
    RefreshToken :=
  ⟨env.newId, t.userId, t.familyId, svc.generateTokenFingerprint env.rawRefreshToken,
    toDatetime (env.clock 2 + 7 * day), false, client⟩

/-- The outcomes of `refresh_token`: nothing is committed, or the family of a revoked
token is revoked, or the token is rotated. -/
inductive Refreshed (svc : AuthService) (env : AuthEnv) (raw : String) (client : ClientMetadata)
    (s : DB) : Except Exc Credentials → DB → Prop
  | refused {e : Exc} : (∀ t, Presented svc raw s t → t.revoked = false) →
      Refreshed svc env raw client s (.error e) s
  | reused {t : RefreshToken} {e : Exc} : Presented svc raw s t → t.revoked = true →
      Refreshed svc env raw client s (.error e) (s.revokeTokens (unrevokedOf env s t.familyId))
  | rotated {t : RefreshToken} {u : User} {c : Credentials} :
      Presented svc raw s t → t.revoked = false →
      env.clock 0 ≤ t.expiresAt → s.users.get t.userId = some u → u.status = .active →
      s.refreshTokens.get env.newId = none → c.refreshToken = env.rawRefreshToken →
      Refreshed svc env raw client s (.ok c)
        ((s.revoke t.id).put (.refreshToken env.newId) (.refreshToken (successor svc env t client)))

theorem exec_getByTokenHash (svc : AuthService) (raw : String) (base w : DB) :
    (∃ t, Presented svc raw w t ∧
      (RefreshTokenRepository.getByTokenHash (svc.generateTokenFingerprint raw)).exec base w =
      (.ok (some t), base, w)) ∨ (∀ t, ¬Presented svc raw w t) ∧
    ((RefreshTokenRepository.getByTokenHash (svc.generateTokenFingerprint raw)).exec base w =
      (.ok none, base, w) ∨
    ∃ e, (RefreshTokenRepository.getByTokenHash (svc.generateTokenFingerprint raw)).exec base w =
      (.error e, base, w)) := by
  simp only [Presented, RefreshTokenRepository.getByTokenHash, Prog.bind_eq,
    Prog.exec_bind, exec_select]
  generalize w.refreshTokens.rows.filter (fun t => t.tokenHash = svc.generateTokenFingerprint raw) =
    rows
  match rows with
  | [] => exact .inr ⟨by simp, .inl rfl⟩
  | [t] => exact .inl ⟨t, rfl, rfl⟩
  | _ :: _ :: _ => exact .inr ⟨by simp, .inr ⟨_, rfl⟩⟩

/-- The insert takes a free key, or is refused. -/
theorem exec_insertRefreshToken (r : RefreshToken) (base w : DB) :
    (∃ e, (insertRefreshToken r).exec base w = (.error e, base, w)) ∨
    w.refreshTokens.get r.id = none ∧ (insertRefreshToken r).exec base w =
      (.ok (), base, w.put (.refreshToken r.id) (.refreshToken r)) := by
  simp only [insertRefreshToken, Prog.exec]
  split
  · rename_i row hrow
    simp only [except_bind_ok] at hrow
    obtain ⟨_, hfresh, _, _, _, _, _, _, _, _, hrow⟩ := hrow
    split at hrow
    · cases hrow
    · cases hrow
      exact .inr ⟨checkFresh_ok hfresh, rfl⟩
  · rename_i e _
    exact .inl ⟨e, rfl⟩

section

variable {svc : AuthService} {raw : String} {s : DB} {t : RefreshToken} (env : AuthEnv)
  (client : ClientMetadata)

theorem exec_reuse
    (hget : (RefreshTokenRepository.getByTokenHash (svc.generateTokenFingerprint raw)).exec s s =
      (.ok (some t), s, s))
    (hrevoked : t.revoked = true) :
    ∃ e, (svc.refreshToken env raw client).exec s s =
      (.error e, s.revokeTokens (unrevokedOf env s t.familyId),
      s.revokeTokens (unrevokedOf env s t.familyId)) := by
  have hrows : ∀ q ∈ unrevokedOf env s t.familyId, (s.refreshTokens.get q.id).isSome := by
    intro q hq
    have hget := Table.get_of_mem (mem_unrevokedOf.mp hq).1
    exact Option.isSome_of_eq_some hget
  refine ⟨.application .tokenRevoked
    (some "This token session has been revoked due to reuse detection. All family keys invalidated."), ?_⟩
  simp only [AuthService.refreshToken, Prog.bind_eq, Prog.exec_bind, hget, exec_orRaise_some,
    hrevoked, ↓reduceIte,
    RefreshTokenRepository.getFamily, exec_select]
  rw [unrevokedOf] at hrows ⊢
  rw [exec_revokeAll hrows]
  rfl

/-- What is left to do with a token that is not revoked. -/
theorem exec_live (hp : Presented svc raw s t)
    (hget : (RefreshTokenRepository.getByTokenHash (svc.generateTokenFingerprint raw)).exec s s =
      (.ok (some t), s, s))
    (hlive : t.revoked = false) :
    (∃ e w, (svc.refreshToken env raw client).exec s s = (.error e, s, w)) ∨
    ∃ c w, (svc.refreshToken env raw client).exec s s = (.ok c, s, w) ∧
    Refreshed svc env raw client s (.ok c) w := by
  have hrow : (AuthService.revokeAll [t]).exec s s = (.ok (), s, s.revoke t.id) :=
    exec_revokeAll (by simp [hp.get.1])
  simp only [AuthService.refreshToken, Prog.bind_eq, Prog.exec_bind, hget, exec_orRaise_some, hlive,
    Bool.false_eq_true,
    ↓reduceIte, UserRepository.getById]
  by_cases hexpired : t.expiresAt < env.clock 0
  · simp only [hexpired, ↓reduceIte, Prog.exec_bind, hrow, exec_raise]
    exact .inl ⟨_, _, rfl⟩
  simp only [hexpired, ↓reduceIte, Prog.exec_bind, exec_select]
  cases hu : s.users.get t.userId with
  | none => exact .inl ⟨_, _, rfl⟩
  | some u =>
    simp only [exec_orRaise_some]
    by_cases hactive : u.status = .active
    · rw [exec_raiseIf (by simp [hactive])]
      simp only [hrow]
      rcases exec_insertRefreshToken (successor svc env t client) s (s.revoke t.id) with ⟨e,
        he⟩ | ⟨hfresh, he⟩
      · simp only [successor] at he
        rw [he]
        exact .inl ⟨_, _, rfl⟩
      · simp only [successor] at he
        rw [he]
        refine .inr ⟨_, _, rfl, .rotated hp hlive (not_lt.mp hexpired) hu hactive ?_ rfl⟩
        exact DB.revoke_eq_none.mp hfresh
    · rw [exec_raiseIf_error hactive]
      exact .inl ⟨_, _, rfl⟩

theorem call_refreshToken (svc : AuthService) (raw : String) (s : DB) :
    Refreshed svc env raw client s (call (svc.refreshToken env raw client) s).1
    (call (svc.refreshToken env raw client) s).2 := by
  rcases exec_getByTokenHash svc raw s s with ⟨t, hp, hget⟩ | ⟨hnone, hget⟩
  · cases hrevoked : t.revoked with
    | true =>
      obtain ⟨e, he⟩ := exec_reuse env client hget hrevoked
      rw [call_error he]
      exact .reused hp hrevoked
    | false =>
      rcases exec_live env client hp hget hrevoked with ⟨e, w, he⟩ | ⟨c, w, hc, hr⟩
      · rw [call_error he]
        refine .refused fun q hq => ?_
        rwa [hp.unique hq]
      · rw [call_ok hc]
        exact hr
  · have hexec : ∃ e, (svc.refreshToken env raw client).exec s s = (.error e, s, s) := by
      rcases hget with hget | ⟨e, hget⟩
      · exact ⟨_, Prog.exec_bind_ok hget (Prog.exec_bind_error rfl)⟩
      · exact ⟨_, Prog.exec_bind_error hget⟩
    obtain ⟨e, he⟩ := hexec
    rw [call_error he]
    exact .refused fun q hq => absurd hq (hnone q)

/-- The outcomes of `login`. -/
inductive LoggedIn (svc : AuthService) (env : AuthEnv) (client : ClientMetadata) (s : DB) :
    Except Exc Credentials → DB → Prop
  | refused {e : Exc} : LoggedIn svc env client s (.error e) s
  | issued {u : User} {c : Credentials} {expiresAt : Int} : u ∈ s.users.rows → u.status = .active →
      s.refreshTokens.get env.newId = none → c.refreshToken = env.rawRefreshToken →
      LoggedIn svc env client s (.ok c) (s.put (.refreshToken env.newId) (.refreshToken
        ⟨env.newId, u.id, env.familyId, svc.generateTokenFingerprint env.rawRefreshToken,
          expiresAt, false, client⟩))

theorem call_login (svc : AuthService) (email password : String) (s : DB) :
    LoggedIn svc env client s (call (svc.login env email password client) s).1
      (call (svc.login env email password client) s).2 := by
  have hexec : (∃ e w, (svc.login env email password client).exec s s = (.error e, s, w)) ∨
      ∃ c w, (svc.login env email password client).exec s s = (.ok c, s, w) ∧
          LoggedIn svc env client s (.ok c) w := by
    simp only [AuthService.login, UserRepository.getByEmail, Prog.bind_eq,
      Prog.exec_bind, exec_select]
    cases hrows : s.users.rows.filter (fun u => s.weight u.email = s.weight email) with
    | nil => exact .inl ⟨_, _, rfl⟩
    | cons u rest =>
      have hu : u ∈ s.users.rows := (List.mem_filter.mp (hrows ▸ List.mem_cons_self)).1
      cases rest with
      | cons => exact .inl ⟨_, _, rfl⟩
      | nil =>
        rw [exec_scalarOneOrNone rfl]
        simp only [exec_orRaise_some]
        by_cases hactive : u.status = .active
        · rw [exec_raiseIf (by simp [hactive])]
          dsimp only
          by_cases hpassword : svc.verifyPassword password u.passwordHash = true
          · rw [exec_raiseIf (by simp [hpassword])]
            dsimp only
            rcases exec_insertRefreshToken ⟨env.newId, u.id, env.familyId,
              svc.generateTokenFingerprint env.rawRefreshToken,
              toDatetime (env.clock 1 + 7 * day), false, client⟩ s s with ⟨e, he⟩ | ⟨hfresh, he⟩
            · rw [he]
              exact .inl ⟨_, _, rfl⟩
            · rw [he]
              exact .inr ⟨_, _, rfl, .issued hu hactive hfresh rfl⟩
          · rw [exec_raiseIf_error (by simp [hpassword])]
            exact .inl ⟨_, _, rfl⟩
        · rw [exec_raiseIf_error hactive]
          exact .inl ⟨_, _, rfl⟩
  rcases hexec with ⟨e, w, he⟩ | ⟨c, w, hc, hr⟩
  · rw [call_error he]
    exact .refused
  · rw [call_ok hc]
    exact hr

omit env client in
/-- A logout with a stored token revokes that token, if it is not revoked yet. -/
theorem call_logout_presented (hp : Presented svc raw s t) :
    call (svc.logout raw) s = (.ok (), s.revokeTokens ([t].filter (fun t => !t.revoked))) := by
  refine call_ok (Prog.exec_bind_ok (hp.exec s) (exec_revokeAll fun q hq => ?_))
  obtain rfl := List.mem_singleton.mp (List.mem_filter.mp hq).1
  exact Option.isSome_of_eq_some hp.get.1

omit env client in
theorem call_logout (svc : AuthService) (raw : String) (s : DB) :
    (call (svc.logout raw) s).2 = s ∨ ∃ t, Presented svc raw s t ∧ t.revoked = false ∧
    (call (svc.logout raw) s).2 = s.revoke t.id := by
  rcases exec_getByTokenHash svc raw s s with ⟨t, hp, _⟩ | ⟨_, hget | ⟨e, hget⟩⟩
  · rw [call_logout_presented hp]
    cases hrevoked : t.revoked with
    | true => exact .inl (by simp [hrevoked])
    | false => exact .inr ⟨t, hp, hrevoked, by simp [hrevoked]⟩
  · exact .inl (congrArg Prod.snd (call_ok (Prog.exec_bind_ok hget rfl)))
  · exact .inl (congrArg Prod.snd (call_error (Prog.exec_bind_error hget)))

end

end LibraryPlatform

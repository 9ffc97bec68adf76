import LibraryPlatform.TokenFamilies

/-!
# The end of a session

A session is the family of a login. `logout` revokes the one token that it is given, and a
refresh of an expired token raises before the transaction that revokes it has committed.
-/
namespace LibraryPlatform

open KeyedTable Transaction

variable {svc : AuthService} {env : AuthEnv} {raw : String} {client : ClientMetadata} {s₀ s : DB}
  {t : RefreshToken}

/-! ## Logout -/

/-- The family has no live token but `t`. -/
def NoOtherLive (t : RefreshToken) (s : DB) : Prop :=
  ∀ q ∈ s.refreshTokens.rows, q.familyId = t.familyId → q.revoked = false → q = t

theorem dead_of_logout (env : AuthEnv) (hp : Presented svc raw s t) (hlive : NoOtherLive t s) :
    Dead t.familyId ((AuthOp.logout raw).after svc env s) := by
  have ht := Table.mem_of_get hp.get.1
  have hknown : Known t.familyId s := ⟨t, ht, rfl⟩
  change Dead _ (call (svc.logout raw) s).2
  rw [call_logout_presented hp]
  refine ⟨revokeTokens_keeps (fun _ _ => Known.revoke) _ hknown, fun q hq hf => ?_⟩
  obtain ⟨q₀, hq₀, _, hf', hrevoked | ⟨rfl, hnot⟩⟩ := mem_revokeTokens hq
  · exact hrevoked
  · by_contra hne
    have hq' : q.revoked = false := by simpa using hne
    obtain rfl := hlive q hq₀ hf hq'
    exact hnot (List.mem_filter.mpr ⟨List.mem_cons_self, by simp [hq']⟩)

/-- A logout ends the session for good if the family has no live token but the one it is given;
otherwise it leaves everything as it is. -/
theorem logout_ends_session (hempty : s₀.refreshTokens = .empty) (h : AuthRuns svc s₀ s)
    (ht : t ∈ s.refreshTokens.rows) (hraw : svc.generateTokenFingerprint raw = t.tokenHash)
    (env : AuthEnv) :
    (NoOtherLive t s → ∀ s', AuthRuns svc ((AuthOp.logout raw).after svc env s) s' →
      ∀ q ∈ s'.refreshTokens.rows, q.familyId = t.familyId →
      ∀ env' raw' client c, svc.generateTokenFingerprint raw' = q.tokenHash →
      (call (svc.refreshToken env' raw' client) s').1 ≠ .ok c) ∧
    (¬NoOtherLive t s → (AuthOp.logout raw).after svc env s = s) := by
  have hfamilies : Families s := .of_empty hempty h
  have hp : Presented svc raw s t := hfamilies.hashes.presented ht hraw
  constructor
  · intro hlive s' h' q hq hf env' raw' client c hraw'
    exact ((dead_of_logout env hp hlive).run h').refused hq hf hraw' client c
  · intro hother
    cases hr : t.revoked with
    | true =>
      change (call (svc.logout raw) s).2 = s
      rw [call_logout_presented hp]
      simp [hr]
    | false => exact absurd (fun q hq hf hq' => hfamilies.live q hq t ht hf hq' hr) hother

theorem demoLoggedIn_runs : AuthRuns demoAuth demoUsers demoLoggedIn := by
  refine .call _ _ .refl ⟨?_, ?_⟩ <;> decide

/-- The only token of the session is no good after the logout. -/
theorem logout_ends_session_demo :
    (call (demoAuth.refreshToken (demoAuthEnv 2 "b" (2 * hour)) "a" demoClient)
      ((AuthOp.logout "a").after demoAuth (demoAuthEnv 0 "" hour) demoLoggedIn)).1.toOption =
      none := by
  have ht : (⟨1, 10, 1, "a", 7 * day, false, demoClient⟩ : RefreshToken) ∈
    demoLoggedIn.refreshTokens.rows := by decide
  have hlive : NoOtherLive ⟨1, 10, 1, "a", 7 * day, false, demoClient⟩ demoLoggedIn := by
    unfold NoOtherLive
    decide
  have hends := (logout_ends_session rfl demoLoggedIn_runs ht rfl (demoAuthEnv 0 "" hour)).1 hlive
  have hrefused := hends _ .refl ⟨1, 10, 1, "a", 7 * day, true, demoClient⟩ (by decide) rfl
    (demoAuthEnv 2 "b" (2 * hour)) "a" demoClient
  generalize (call (demoAuth.refreshToken _ _ _) _).1 = reply at hrefused
  cases reply with
  | ok c => exact absurd rfl (hrefused c rfl)
  | error e => rfl

/-- The client rotates its token `a` into `b` and logs out with `a`; `b` is still good. -/
theorem logout_leaves_successor :
    ¬∀ s, AuthRuns demoAuth demoUsers s → ∀ t ∈ s.refreshTokens.rows, ∀ env raw,
      demoAuth.generateTokenFingerprint raw = t.tokenHash →
      ∀ s', AuthRuns demoAuth ((AuthOp.logout raw).after demoAuth env s) s' →
      ∀ q ∈ s'.refreshTokens.rows, q.familyId = t.familyId →
      ∀ env' raw' client c, demoAuth.generateTokenFingerprint raw' = q.tokenHash →
      (call (demoAuth.refreshToken env' raw' client) s').1 ≠ .ok c := by
  intro hclaim
  have ht : (⟨1, 10, 1, "a", 7 * day, true, demoClient⟩ : RefreshToken) ∈
    demoReused.refreshTokens.rows := by decide
  have hcredentials : (call (demoAuth.refreshToken (demoAuthEnv 3 "c" (3 * hour)) "b" demoClient)
      ((AuthOp.logout "a").after demoAuth (demoAuthEnv 0 "" (2 * hour)) demoReused)).1 =
      .ok ⟨"jwt", "c"⟩ := by decide
  exact hclaim demoReused demoReused_runs _ ht (demoAuthEnv 0 "" (2 * hour)) "a" rfl _ .refl
    ⟨2, 10, 1, "b", hour + 7 * day, false, demoClient⟩ (by decide) rfl _ "b" _ _ rfl hcredentials

/-! ## Expired tokens -/

/-- The refresh is rejected as expired, and the token is left revoked, all others as they were. -/
structure RejectionRecorded (svc : AuthService) (env : AuthEnv) (raw : String)
    (client : ClientMetadata) (t : RefreshToken) (s : DB) : Prop where
  raised : (call (svc.refreshToken env raw client) s).1 = .error (.application .tokenExpired none)
  recorded : (call (svc.refreshToken env raw client) s).2.refreshTokens.get t.id = some t.revoke
  others : ∀ id, id ≠ t.id → (call (svc.refreshToken env raw client) s).2.refreshTokens.get id =
    s.refreshTokens.get id

/-- The token is revoked in the transaction that the exception then rolls back. -/
theorem call_refresh_expired (hp : Presented svc raw s t) (hlive : t.revoked = false)
    (hexpired : t.expiresAt < env.clock 0) :
    call (svc.refreshToken env raw client) s = (.error (.application .tokenExpired none), s) := by
  have hrow : (AuthService.revokeAll [t]).exec s s = (.ok (), s, s.revoke t.id) :=
    exec_revokeAll (by simp [hp.get.1])
  have hexec : (svc.refreshToken env raw client).exec s s =
      (.error (.application .tokenExpired none), s, s.revoke t.id) := by
    refine Prog.exec_bind_ok (hp.exec s) (Prog.exec_bind_ok rfl ?_)
    simp only [hlive, Bool.false_eq_true, ↓reduceIte, hexpired]
    exact Prog.exec_bind_ok hrow rfl
  exact call_error hexec

/-- No rejection of an expired token is recorded: the call raises, and changes nothing. -/
theorem expired_rejection_lost (hempty : s₀.refreshTokens = .empty) (h : AuthRuns svc s₀ s)
    (ht : t ∈ s.refreshTokens.rows) (hlive : t.revoked = false)
    (hexpired : t.expiresAt < env.clock 0)
    (hraw : svc.generateTokenFingerprint raw = t.tokenHash) (client : ClientMetadata) :
    call (svc.refreshToken env raw client) s = (.error (.application .tokenExpired none), s) ∧
    ¬RejectionRecorded svc env raw client t s := by
  have hp : Presented svc raw s t := (Families.of_empty hempty h).hashes.presented ht hraw
  have hcall : call (svc.refreshToken env raw client) s =
      (.error (.application .tokenExpired none), s) := call_refresh_expired hp hlive hexpired
  refine ⟨hcall, fun hrecorded => ?_⟩
  have hget := hrecorded.recorded
  rw [hcall, hp.get.1] at hget
  have hrevoked : t.revoked = true := congrArg RefreshToken.revoked (Option.some.inj hget)
  exact Bool.false_ne_true (hlive.symm.trans hrevoked)

theorem expired_rejection_lost_demo :
    call (demoAuth.refreshToken (demoAuthEnv 2 "b" (8 * day)) "a" demoClient) demoLoggedIn =
      (.error (.application .tokenExpired none), demoLoggedIn) := by
  have ht : (⟨1, 10, 1, "a", 7 * day, false, demoClient⟩ : RefreshToken) ∈
    demoLoggedIn.refreshTokens.rows := by decide
  exact (expired_rejection_lost rfl demoLoggedIn_runs ht rfl (by decide) rfl demoClient).1

/-- A day after it has expired the token is presented, and stays unrevoked. -/
theorem expired_token_unrevoked :
    ¬∀ s, AuthRuns demoAuth demoUsers s → ∀ t ∈ s.refreshTokens.rows, t.revoked = false →
      ∀ env raw client, t.expiresAt < env.clock 0 →
      demoAuth.generateTokenFingerprint raw = t.tokenHash →
      RejectionRecorded demoAuth env raw client t s := by
  intro hclaim
  have ht : (⟨1, 10, 1, "a", 7 * day, false, demoClient⟩ : RefreshToken) ∈
    demoLoggedIn.refreshTokens.rows := by decide
  have hrecorded := (hclaim _ demoLoggedIn_runs _ ht rfl (demoAuthEnv 2 "b" (8 * day)) "a"
    demoClient (by decide) rfl).recorded
  exact absurd hrecorded (by decide)

end LibraryPlatform

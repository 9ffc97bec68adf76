import LibraryPlatform.TokenEffects

/-!
# Families of refresh tokens

A login starts a family, a rotation replaces the one token of it that is not revoked,
and a revoked token that is presented again revokes the whole family.
-/
namespace LibraryPlatform

open KeyedTable Transaction

/-! ## What holds of the tokens -/

def OneLive (db : DB) : Prop :=
  ∀ t ∈ db.refreshTokens.rows, ∀ q ∈ db.refreshTokens.rows, t.familyId = q.familyId →
  t.revoked = false → q.revoked = false → t = q

def OneOwner (db : DB) : Prop :=
  ∀ t ∈ db.refreshTokens.rows, ∀ q ∈ db.refreshTokens.rows, t.familyId = q.familyId →
  t.userId = q.userId

def DistinctHashes (db : DB) : Prop := ∀ t ∈ db.refreshTokens.rows, ∀ q ∈ db.refreshTokens.rows,
  t.tokenHash = q.tokenHash → t = q

section

variable {db : DB} {id : UUID} {t q r : RefreshToken}

/-- A row after a revocation is an old row, or the revoked one. -/
theorem mem_revoke (hq : q ∈ (db.revoke id).refreshTokens.rows) :
    ∃ q₀ ∈ db.refreshTokens.rows, q = q₀ ∧ q₀.id ≠ id ∨ q = q₀.revoke ∧ q₀.id = id := by
  have hget : (db.revoke id).refreshTokens.get q.id = some q := Table.get_of_mem hq
  rw [DB.get_revoke] at hget
  split at hget
  · rename_i hid
    obtain ⟨q₀, hq₀, rfl⟩ := Option.map_eq_some_iff.mp hget
    exact ⟨q₀, Table.mem_of_get hq₀, .inr ⟨rfl, hid⟩⟩
  · rename_i hid
    exact ⟨q, Table.mem_of_get hget, .inl ⟨rfl, hid⟩⟩

/-- Nothing but the flag is changed. -/
theorem mem_revoke_fields (hq : q ∈ (db.revoke id).refreshTokens.rows) :
    ∃ q₀ ∈ db.refreshTokens.rows, q.id = q₀.id ∧ q.userId = q₀.userId ∧ q.familyId = q₀.familyId ∧
    q.tokenHash = q₀.tokenHash := by
  obtain ⟨q₀, hq₀, hcase⟩ := mem_revoke hq
  refine ⟨q₀, hq₀, ?_⟩
  rcases hcase with ⟨rfl, _⟩ | ⟨rfl, _⟩
  · exact ⟨rfl, rfl, rfl, rfl⟩
  · exact ⟨rfl, rfl, rfl, rfl⟩

theorem mem_putRefreshToken
    (hq : q ∈ (db.put (.refreshToken r.id) (.refreshToken r)).refreshTokens.rows) :
    q = r ∨ q ∈ db.refreshTokens.rows := (Table.mem_put.mp hq).imp_right And.left

theorem OneLive.revoke (h : OneLive db) : OneLive (db.revoke id) := by
  intro t ht q hq hf htl hql
  obtain ⟨t₀, ht₀, ⟨rfl, _⟩ | ⟨rfl, _⟩⟩ := mem_revoke ht
  · obtain ⟨q₀, hq₀, ⟨rfl, _⟩ | ⟨rfl, _⟩⟩ := mem_revoke hq
    · exact h t ht₀ q hq₀ hf htl hql
    · cases hql
  · cases htl

theorem OneLive.insert (h : OneLive db)
    (hlive : ∀ q ∈ db.refreshTokens.rows, q.familyId = r.familyId → q.revoked = true) :
    OneLive (db.put (.refreshToken r.id) (.refreshToken r)) := by
  intro t ht q hq hf htl hql
  rcases mem_putRefreshToken ht with rfl | ht' <;> rcases mem_putRefreshToken hq with rfl | hq'
  · rfl
  · rw [hlive q hq' hf.symm] at hql
    cases hql
  · rw [hlive t ht' hf] at htl
    cases htl
  · exact h t ht' q hq' hf htl hql

theorem OneOwner.revoke (h : OneOwner db) : OneOwner (db.revoke id) := by
  intro t ht q hq hf
  obtain ⟨t₀, ht₀, _, htu, htf, _⟩ := mem_revoke_fields ht
  obtain ⟨q₀, hq₀, _, hqu, hqf, _⟩ := mem_revoke_fields hq
  rw [htu, hqu]
  exact h t₀ ht₀ q₀ hq₀ (by rw [← htf, ← hqf, hf])

theorem OneOwner.insert (h : OneOwner db)
    (howner : ∀ q ∈ db.refreshTokens.rows, q.familyId = r.familyId → q.userId = r.userId) :
    OneOwner (db.put (.refreshToken r.id) (.refreshToken r)) := by
  intro t ht q hq hf
  rcases mem_putRefreshToken ht with rfl | ht' <;> rcases mem_putRefreshToken hq with rfl | hq'
  · rfl
  · exact (howner q hq' hf.symm).symm
  · exact howner t ht' hf
  · exact h t ht' q hq' hf

/-- Two rows after a revocation are one if the rows they come from are. -/
theorem eq_of_revoke (ht : t ∈ (db.revoke id).refreshTokens.rows)
    (hq : q ∈ (db.revoke id).refreshTokens.rows)
    (h : ∀ t₀ ∈ db.refreshTokens.rows, ∀ q₀ ∈ db.refreshTokens.rows, t.tokenHash = t₀.tokenHash →
      q.tokenHash = q₀.tokenHash → t₀ = q₀) : t = q := by
  obtain ⟨t₀, ht₀, htid, _, _, hth⟩ := mem_revoke_fields ht
  obtain ⟨q₀, hq₀, hqid, _, _, hqh⟩ := mem_revoke_fields hq
  have htq : t₀ = q₀ := h t₀ ht₀ q₀ hq₀ hth hqh
  exact List.inj_on_of_nodup_map (db.revoke id).refreshTokens.unique ht hq
    (htid.trans ((congrArg _ htq).trans hqid.symm))

theorem DistinctHashes.revoke (h : DistinctHashes db) : DistinctHashes (db.revoke id) := by
  intro t ht q hq hhash
  refine eq_of_revoke ht hq fun t₀ ht₀ q₀ hq₀ hth hqh => h t₀ ht₀ q₀ hq₀ ?_
  rw [← hth, ← hqh, hhash]

theorem DistinctHashes.insert (h : DistinctHashes db)
    (hhash : ∀ q ∈ db.refreshTokens.rows, q.tokenHash ≠ r.tokenHash) :
    DistinctHashes (db.put (.refreshToken r.id) (.refreshToken r)) := by
  intro t ht q hq he
  rcases mem_putRefreshToken ht with rfl | ht' <;> rcases mem_putRefreshToken hq with rfl | hq'
  · rfl
  · exact absurd he.symm (hhash q hq')
  · exact absurd he (hhash t ht')
  · exact h t ht' q hq' he

/-- What each revocation keeps, a list of them keeps. -/
theorem revokeTokens_keeps {P : DB → Prop} (h : ∀ db id, P db → P (db.revoke id))
    (toks : List RefreshToken) {db : DB} (hdb : P db) : P (db.revokeTokens toks) := by
  induction toks generalizing db with
  | nil => exact hdb
  | cons t rest ih => exact ih (h db t.id hdb)

theorem mem_revokeTokens {toks : List RefreshToken}
    (hq : q ∈ (db.revokeTokens toks).refreshTokens.rows) :
    ∃ q₀ ∈ db.refreshTokens.rows, q₀.id = q.id ∧ q.familyId = q₀.familyId ∧
    (q.revoked = true ∨ q = q₀ ∧ q₀ ∉ toks) := by
  have hget := Table.get_of_mem hq
  change (db.revokeTokens toks).refreshTokens.get q.id = some q at hget
  rw [DB.get_revokeTokens] at hget
  split at hget
  · obtain ⟨q₀, hq₀, rfl⟩ := Option.map_eq_some_iff.mp hget
    exact ⟨q₀, Table.mem_of_get hq₀, rfl, rfl, .inl rfl⟩
  · rename_i hnot
    exact ⟨q, Table.mem_of_get hget, rfl, rfl,
      .inr ⟨rfl, fun hmem => hnot (List.mem_map_of_mem hmem)⟩⟩

end

/-! ## Serial runs -/

inductive AuthOp where
  | login (email password : String) (client : ClientMetadata)
  | refreshToken (rawRefreshToken : String) (client : ClientMetadata)
  | logout (rawRefreshToken : String)

/-- The committed state after a call. -/
def AuthOp.after (svc : AuthService) (env : AuthEnv) (s : DB) : AuthOp → DB
  | .login email password client => (call (svc.login env email password client) s).2
  | .refreshToken raw client => (call (svc.refreshToken env raw client) s).2
  | .logout raw => (call (svc.logout raw) s).2

/-- The family that a call is about: the one it starts, or that of the token presented. -/
def AuthOp.On (svc : AuthService) (env : AuthEnv) (s : DB) (familyId : UUID) : AuthOp → Prop
  | .login _ _ _ => familyId = env.familyId
  | .refreshToken raw _ | .logout raw => ∃ t, Presented svc raw s t ∧ t.familyId = familyId

/-- What a call commits. -/
inductive TokenStep (svc : AuthService) (env : AuthEnv) (s : DB) : AuthOp → DB → Prop
  | nothing {op : AuthOp} : TokenStep svc env s op s
  | issued {email password : String} {client : ClientMetadata} {r : RefreshToken} :
      r.familyId = env.familyId →
      r.tokenHash = svc.generateTokenFingerprint env.rawRefreshToken →
        s.refreshTokens.get r.id = none →
      TokenStep svc env s (.login email password client)
        (s.put (.refreshToken r.id) (.refreshToken r))
  | rotated {raw : String} {client : ClientMetadata} {t : RefreshToken} :
      Presented svc raw s t → t.revoked = false →
      s.refreshTokens.get env.newId = none → TokenStep svc env s (.refreshToken raw client)
        ((s.revoke t.id).put (.refreshToken env.newId) (.refreshToken (successor svc env t client)))
  | reused {raw : String} {client : ClientMetadata} {t : RefreshToken} :
      Presented svc raw s t → t.revoked = true →
      TokenStep svc env s (.refreshToken raw client) (s.revokeTokens (unrevokedOf env s t.familyId))
  | loggedOut {raw : String} {t : RefreshToken} :
      Presented svc raw s t → TokenStep svc env s (.logout raw) (s.revoke t.id)

theorem tokenStep (svc : AuthService) (env : AuthEnv) (s : DB) (op : AuthOp) :
    TokenStep svc env s op (op.after svc env s) := by
  cases op with
  | login email password client =>
    have hcall := call_login env client svc email password s
    show TokenStep svc env s _ (call (svc.login env email password client) s).2
    generalize (call (svc.login env email password client) s).1 = r,
      (call (svc.login env email password client) s).2 = s' at hcall ⊢
    cases hcall with
    | refused => exact .nothing
    | @issued u c expiresAt _ _ hfresh =>
      exact .issued (r := ⟨env.newId, u.id, env.familyId,
        svc.generateTokenFingerprint env.rawRefreshToken, expiresAt, false,
        client⟩) rfl rfl hfresh
  | refreshToken raw client =>
    have hcall := call_refreshToken env client svc raw s
    show TokenStep svc env s _ (call (svc.refreshToken env raw client) s).2
    generalize (call (svc.refreshToken env raw client) s).1 = r,
      (call (svc.refreshToken env raw client) s).2 = s' at hcall ⊢
    cases hcall with
    | refused => exact .nothing
    | reused hp hr => exact .reused hp hr
    | rotated hp hr _ _ _ hfresh => exact .rotated hp hr hfresh
  | logout raw =>
    show TokenStep svc env s _ (call (svc.logout raw) s).2
    rcases call_logout svc raw s with he | ⟨t, hp, _, he⟩
    · rw [he]
      exact .nothing
    · rw [he]
      exact .loggedOut hp

/-- Of one state to the other nothing but the tokens has changed. -/
def TokensOnly (s s' : DB) : Prop := ∃ refreshTokens, s' = { s with refreshTokens }

theorem TokensOnly.put {s s' : DB} (h : TokensOnly s s') (id : UUID) (r : RefreshToken) :
    TokensOnly s (s'.put (.refreshToken id) (.refreshToken r)) := by
  obtain ⟨_, rfl⟩ := h
  exact ⟨_, rfl⟩

theorem TokensOnly.revoke {s s' : DB} (h : TokensOnly s s') (id : UUID) :
    TokensOnly s (s'.revoke id) := by
  unfold DB.revoke
  split
  · exact h.put id _
  · exact h

theorem TokenStep.tokensOnly {svc : AuthService} {env : AuthEnv} {s s' : DB} {op : AuthOp}
    (h : TokenStep svc env s op s') : TokensOnly s s' := by
  have hsame : TokensOnly s s := ⟨s.refreshTokens, rfl⟩
  cases h with
  | nothing => exact hsame
  | issued => exact hsame.put _ _
  | rotated => exact (hsame.revoke _).put _ _
  | reused => exact revokeTokens_keeps (fun _ id h => h.revoke id) _ hsame
  | loggedOut => exact hsame.revoke _

/-- What a call generates has not been generated before. -/
structure Fresh (svc : AuthService) (env : AuthEnv) (s : DB) : Prop where
  family : ∀ t ∈ s.refreshTokens.rows, t.familyId ≠ env.familyId
  token : ∀ t ∈ s.refreshTokens.rows, t.tokenHash ≠ svc.generateTokenFingerprint env.rawRefreshToken

/-- Runs of calls one after the other, from one state to another. Other requests may
change anything but the tokens. -/
inductive AuthRuns (svc : AuthService) (s₀ : DB) : DB → Prop
  | refl : AuthRuns svc s₀ s₀
  | call {s : DB} (env : AuthEnv) (op : AuthOp) : AuthRuns svc s₀ s → Fresh svc env s →
      AuthRuns svc s₀ (op.after svc env s)
  | other {s s' : DB} : AuthRuns svc s₀ s → s'.refreshTokens = s.refreshTokens → AuthRuns svc s₀ s'

/-- What holds of the tokens in every state. -/
structure Families (db : DB) : Prop where
  live : OneLive db
  owner : OneOwner db
  hashes : DistinctHashes db

def Known (familyId : UUID) (db : DB) : Prop := ∃ t ∈ db.refreshTokens.rows, t.familyId = familyId

/-- The tokens of the family, of which there are some, are all revoked. -/
structure Dead (familyId : UUID) (db : DB) : Prop where
  known : Known familyId db
  revoked : ∀ t ∈ db.refreshTokens.rows, t.familyId = familyId → t.revoked = true

section

variable {svc : AuthService} {env : AuthEnv} {op : AuthOp} {s s' : DB} {familyId : UUID}

theorem Families.revoke {id : UUID} (h : Families s) : Families (s.revoke id) :=
  ⟨h.live.revoke, h.owner.revoke, h.hashes.revoke⟩

theorem Families.insert {r : RefreshToken} (h : Families s)
    (hlive : ∀ q ∈ s.refreshTokens.rows, q.familyId = r.familyId → q.revoked = true ∧
      q.userId = r.userId)
    (hhash : ∀ q ∈ s.refreshTokens.rows, q.tokenHash ≠ r.tokenHash) :
    Families (s.put (.refreshToken r.id) (.refreshToken r)) :=
  ⟨h.live.insert fun q hq hf => (hlive q hq hf).1, h.owner.insert fun q hq hf => (hlive q hq hf).2,
    h.hashes.insert hhash⟩

/-- When the live token of a family is revoked, none is live. -/
theorem OneLive.revoked {t : RefreshToken} (h : OneLive s) (ht : t ∈ s.refreshTokens.rows)
    (hr : t.revoked = false) :
    ∀ q ∈ (s.revoke t.id).refreshTokens.rows, q.familyId = t.familyId → q.revoked = true := by
  intro q hq hf
  obtain ⟨q₀, hq₀, ⟨rfl, hid⟩ | ⟨rfl, _⟩⟩ := mem_revoke hq
  · cases hq' : q.revoked with
    | true => rfl
    | false => exact absurd (congrArg RefreshToken.id (h q hq₀ t ht hf hq' hr)) hid
  · rfl

/-- Every commit keeps the families. -/
theorem Families.step (h : Families s) (hfresh : Fresh svc env s) (hs : TokenStep svc env s op s') :
    Families s' := by
  cases hs with
  | nothing => exact h
  | issued hf hh _ =>
    refine h.insert (fun q hq he => absurd (he.trans hf) (hfresh.family q hq)) fun q hq => ?_
    rw [hh]
    exact hfresh.token q hq
  | @rotated raw client t hp hr _ =>
    have ht := Table.mem_of_get hp.get.1
    refine Families.insert (r := successor svc env t client) h.revoke (fun q hq he =>
      ⟨?_, ?_⟩) fun q hq => ?_
    · exact h.live.revoked ht hr q hq he
    · obtain ⟨q₀, hq₀, _, hu, hf, _⟩ := mem_revoke_fields hq
      exact hu.trans (h.owner q₀ hq₀ t ht (hf.symm.trans he))
    · obtain ⟨q₀, hq₀, _, _, _, hh⟩ := mem_revoke_fields hq
      rw [hh]
      exact hfresh.token q₀ hq₀
  | reused => exact revokeTokens_keeps (fun _ _ => Families.revoke) _ h
  | loggedOut => exact h.revoke

theorem Known.revoke {id : UUID} (h : Known familyId s) : Known familyId (s.revoke id) := by
  obtain ⟨t, ht, hf⟩ := h
  have hget : (s.revoke id).refreshTokens.get t.id = if t.id = id then some t.revoke
      else some t := by
    rw [DB.get_revoke, show s.refreshTokens.get t.id = some t from Table.get_of_mem ht]
    rfl
  split at hget
  · exact ⟨t.revoke, Table.mem_of_get hget, hf⟩
  · exact ⟨t, Table.mem_of_get hget, hf⟩

theorem Dead.revoke {id : UUID} (h : Dead familyId s) : Dead familyId (s.revoke id) := by
  refine ⟨h.known.revoke, fun q hq hf => ?_⟩
  obtain ⟨q₀, hq₀, ⟨rfl, _⟩ | ⟨rfl, _⟩⟩ := mem_revoke hq
  · exact h.revoked q hq₀ hf
  · rfl

/-- An insert takes no row away. -/
theorem mem_insert {r t : RefreshToken} (hnew : s.refreshTokens.get r.id = none)
    (ht : t ∈ s.refreshTokens.rows) :
    t ∈ (s.put (.refreshToken r.id) (.refreshToken r)).refreshTokens.rows := by
  refine Table.mem_put.mpr (.inr ⟨ht, fun hid => ?_⟩)
  have hget : s.refreshTokens.get t.id = some t := Table.get_of_mem ht
  rw [show t.id = r.id from hid, hnew] at hget
  cases hget

theorem Dead.insert {r : RefreshToken} (h : Dead familyId s)
    (hnew : s.refreshTokens.get r.id = none) (hr : r.familyId ≠ familyId) :
    Dead familyId (s.put (.refreshToken r.id) (.refreshToken r)) := by
  refine ⟨?_, fun q hq hf => ?_⟩
  · obtain ⟨t, ht, hf⟩ := h.known
    exact ⟨t, mem_insert hnew ht, hf⟩
  · rcases mem_putRefreshToken hq with rfl | hq'
    · exact absurd hf hr
    · exact h.revoked q hq' hf

/-- A dead family stays dead. -/
theorem Dead.step (h : Dead familyId s) (hfresh : Fresh svc env s)
    (hs : TokenStep svc env s op s') : Dead familyId s' := by
  obtain ⟨t₀, ht₀, hf₀⟩ := h.known
  cases hs with
  | nothing => exact h
  | issued hf _ hnew =>
    refine h.insert hnew fun he => hfresh.family t₀ ht₀ ?_
    rw [hf₀, ← he, hf]
  | @rotated raw client t hp hr hnew =>
    refine Dead.insert (r := successor svc env t client) h.revoke
      (DB.revoke_eq_none.mpr hnew) fun he => ?_
    rw [h.revoked t (Table.mem_of_get hp.get.1) he] at hr
    cases hr
  | reused => exact revokeTokens_keeps (fun _ _ => Dead.revoke) _ h
  | loggedOut => exact h.revoke

/-- A token that is presented once it is revoked takes its family with it. -/
theorem dead_of_reuse {raw : String} {t : RefreshToken} (env : AuthEnv)
    (hp : Presented svc raw s t) :
    Dead t.familyId (s.revokeTokens (unrevokedOf env s t.familyId)) := by
  have hknown : Known t.familyId s := ⟨t, Table.mem_of_get hp.get.1, rfl⟩
  refine ⟨revokeTokens_keeps (fun _ _ => Known.revoke) _ hknown, fun q hq hf => ?_⟩
  obtain ⟨q₀, hq₀, hid, hf', hcase⟩ := mem_revokeTokens hq
  rcases hcase with hq' | ⟨rfl, hnot⟩
  · exact hq'
  · by_contra hne
    exact hnot (mem_unrevokedOf.mpr ⟨hq₀, hf, by simpa using hne⟩)

/-- Revoking tokens of other families leaves a family as it is. -/
theorem revokeTokens_frame {toks : List RefreshToken}
    (htoks : ∀ t ∈ toks, s.refreshTokens.get t.id = some t ∧ t.familyId ≠ familyId)
    {q : RefreshToken} (hq : q.familyId = familyId) :
    q ∈ (s.revokeTokens toks).refreshTokens.rows ↔ q ∈ s.refreshTokens.rows := by
  have hget := DB.get_revokeTokens s toks q.id
  rw [Table.mem_iff_get, Table.mem_iff_get]
  change (s.revokeTokens toks).refreshTokens.get q.id = some q ↔ s.refreshTokens.get q.id = some q
  rw [hget]
  split
  · rename_i hmem
    obtain ⟨t, ht, hid⟩ := List.mem_map.mp hmem
    obtain ⟨hrow, hf⟩ := htoks t ht
    rw [← hid, hrow]
    constructor
    · intro h
      cases h
      exact absurd hq hf
    · intro h
      cases h
      exact absurd hq hf
  · rfl

theorem insert_frame {r : RefreshToken} (hnew : s.refreshTokens.get r.id = none)
    (hr : r.familyId ≠ familyId) {q : RefreshToken} (hq : q.familyId = familyId) :
    q ∈ (s.put (.refreshToken r.id) (.refreshToken r)).refreshTokens.rows ↔
    q ∈ s.refreshTokens.rows := by
  constructor
  · intro h
    rcases mem_putRefreshToken h with rfl | h'
    · exact absurd hq hr
    · exact h'
  · exact mem_insert hnew

/-- A commit leaves the tokens of every other family as they are. -/
theorem TokenStep.frame (hs : TokenStep svc env s op s') (hother : ¬op.On svc env s familyId)
    {q : RefreshToken} (hq : q.familyId = familyId) :
    q ∈ s'.refreshTokens.rows ↔ q ∈ s.refreshTokens.rows := by
  cases hs with
  | nothing => rfl
  | issued hf _ hnew => exact insert_frame hnew (fun he => hother (he.symm.trans hf)) hq
  | @rotated raw client t hp _ hnew =>
    have hne : t.familyId ≠ familyId := fun he => hother ⟨t, hp, he⟩
    have hrow : ∀ r ∈ [t], s.refreshTokens.get r.id = some r ∧
      r.familyId ≠ familyId := by simp [hp.get.1, hne]
    have hrevoke := revokeTokens_frame hrow hq
    exact (insert_frame (r := successor svc env t client) (DB.revoke_eq_none.mpr hnew) hne hq).trans
      hrevoke
  | @reused raw client t hp =>
    have hne : t.familyId ≠ familyId := fun he => hother ⟨t, hp, he⟩
    refine revokeTokens_frame (fun r hr => ?_) hq
    obtain ⟨hmem, hf, _⟩ := mem_unrevokedOf.mp hr
    exact ⟨Table.get_of_mem hmem, hf ▸ hne⟩
  | @loggedOut raw t hp =>
    have hne : t.familyId ≠ familyId := fun he => hother ⟨t, hp, he⟩
    have hrow : ∀ r ∈ [t], s.refreshTokens.get r.id = some r ∧
      r.familyId ≠ familyId := by simp [hp.get.1, hne]
    exact revokeTokens_frame hrow hq

/-! ## Whole runs -/

theorem Families.run {s₀ : DB} (h₀ : Families s₀) (h : AuthRuns svc s₀ s) : Families s := by
  induction h with
  | refl => exact h₀
  | call env op _ hfresh ih => exact ih.step hfresh (tokenStep svc env _ op)
  | other _ he ih =>
    obtain ⟨hlive, howner, hhashes⟩ := ih
    constructor
    · rwa [OneLive, he]
    · rwa [OneOwner, he]
    · rwa [DistinctHashes, he]

/-- The families that begin without any token. -/
theorem Families.of_empty {s₀ : DB} (hempty : s₀.refreshTokens = .empty)
    (h : AuthRuns svc s₀ s) : Families s := by
  refine Families.run ⟨?_, ?_, ?_⟩ h <;> simp [OneLive, OneOwner, DistinctHashes,
    hempty, Table.empty]

theorem Dead.run (h₀ : Dead familyId s) (h : AuthRuns svc s s') : Dead familyId s' := by
  induction h with
  | refl => exact h₀
  | call env op _ hfresh ih => exact ih.step hfresh (tokenStep svc env _ op)
  | other _ he ih =>
    obtain ⟨hknown, hrevoked⟩ := ih
    constructor
    · rwa [Known, he]
    · rwa [he]

theorem DistinctHashes.presented (h : DistinctHashes s) {raw : String} {t : RefreshToken}
    (ht : t ∈ s.refreshTokens.rows) (hh : svc.generateTokenFingerprint raw = t.tokenHash) :
    Presented svc raw s t := by
  refine Table.filter_eq_singleton ht (by simp [hh]) fun q hq hp => h q hq t ht ?_
  simpa [hh] using hp

/-- Credentials are given for a token that is not revoked and not expired, to an active user. -/
theorem refresh_ok {raw : String} {client : ClientMetadata} {c : Credentials}
    (h : call (svc.refreshToken env raw client) s = (.ok c, s')) :
    ∃ t u, Presented svc raw s t ∧ t.revoked = false ∧ env.clock 0 ≤ t.expiresAt ∧
    s.users.get t.userId = some u ∧ u.status = .active := by
  have hcall := call_refreshToken env client svc raw s
  rw [h] at hcall
  cases hcall with
  | rotated hp hr hexp hu hactive => exact ⟨_, _, hp, hr, hexp, hu, hactive⟩

/-- No token of a dead family is good for anything. -/
theorem Dead.refused (h : Dead familyId s) {q : RefreshToken} (hq : q ∈ s.refreshTokens.rows)
    (hf : q.familyId = familyId) {raw : String}
    (hh : svc.generateTokenFingerprint raw = q.tokenHash) (client : ClientMetadata)
    (c : Credentials) : (call (svc.refreshToken env raw client) s).1 ≠ .ok c := by
  intro hok
  have hcall : call (svc.refreshToken env raw client) s =
    (.ok c, (call (svc.refreshToken env raw client) s).2) :=
    Prod.ext hok rfl
  obtain ⟨t, _, hp, hr, _⟩ := refresh_ok hcall
  have hmem : q ∈ s.refreshTokens.rows.filter (fun t => t.tokenHash =
    svc.generateTokenFingerprint raw) :=
    List.mem_filter.mpr ⟨hq, by simp [hh]⟩
  rw [show _ = [t] from hp, List.mem_singleton] at hmem
  subst hmem
  rw [h.revoked q hq hf] at hr
  cases hr

theorem refresh_reused {raw : String} {t : RefreshToken} (env : AuthEnv) (client : ClientMetadata)
    (hp : Presented svc raw s t) (hr : t.revoked = true) :
    ∃ e, call (svc.refreshToken env raw client) s =
      (.error e, s.revokeTokens (unrevokedOf env s t.familyId)) := by
  have hcall := call_refreshToken env client svc raw s
  generalize call (svc.refreshToken env raw client) s = r at hcall
  obtain ⟨a, s'⟩ := r
  cases hcall with
  | refused hno =>
    rw [hno t hp] at hr
    cases hr
  | reused hp' =>
    obtain rfl := hp.unique hp'
    exact ⟨_, rfl⟩
  | rotated hp' hr' =>
    rw [hp.unique hp', hr] at hr'
    cases hr'

/-- The life of the token families in every serial run: one live token and one owner each;
only the live token buys credentials; reuse kills the family for good, though the call
raises; and no call touches another family. -/
theorem token_family_lifecycle {s₀ : DB} (hempty : s₀.refreshTokens = .empty)
    (h : AuthRuns svc s₀ s) :
    (OneLive s ∧ OneOwner s) ∧
    (∀ env raw client c s', call (svc.refreshToken env raw client) s = (.ok c, s') →
      ∃ t ∈ s.refreshTokens.rows, ∃ u, t.tokenHash = svc.generateTokenFingerprint raw ∧
    t.revoked = false ∧ (∀ q ∈ s.refreshTokens.rows, q.familyId = t.familyId → q.revoked = false →
      q = t) ∧ env.clock 0 ≤ t.expiresAt ∧ s.users.get t.userId = some u ∧ u.status = .active) ∧
    (∀ t ∈ s.refreshTokens.rows, t.revoked = true →
      ∀ env raw client, svc.generateTokenFingerprint raw = t.tokenHash →
    ∃ e s', call (svc.refreshToken env raw client) s = (.error e, s') ∧
    (∀ q ∈ s'.refreshTokens.rows, q.familyId = t.familyId → q.revoked = true) ∧
    ∀ s'', AuthRuns svc s' s'' → ∀ q ∈ s''.refreshTokens.rows, q.familyId = t.familyId →
    ∀ env' raw' client' c, svc.generateTokenFingerprint raw' = q.tokenHash →
    (call (svc.refreshToken env' raw' client') s'').1 ≠ .ok c) ∧
    ∀ env (op : AuthOp) familyId, ¬op.On svc env s familyId →
    ∀ q : RefreshToken, q.familyId = familyId →
    (q ∈ (op.after svc env s).refreshTokens.rows ↔ q ∈ s.refreshTokens.rows) := by
  have hfamilies : Families s := .of_empty hempty h
  refine ⟨⟨hfamilies.live, hfamilies.owner⟩, fun env raw client c s' hc => ?_,
    fun t ht hr env raw client hh => ?_, ?_⟩
  · obtain ⟨t, u, hp, hr, hexp, hu, hactive⟩ := refresh_ok hc
    have ht := Table.mem_of_get hp.get.1
    exact ⟨t, ht, u, hp.get.2, hr, fun q hq hf hq' => hfamilies.live q hq t ht hf hq' hr,
      hexp, hu, hactive⟩
  · have hp := hfamilies.hashes.presented ht hh
    obtain ⟨e, he⟩ := refresh_reused env client hp hr
    have hdead := dead_of_reuse env hp
    exact ⟨e, _, he, hdead.revoked, fun s'' h'' q hq hf env' raw' client' c hh' =>
      (hdead.run h'').refused hq hf hh' client' c⟩
  · exact fun env op familyId hother q hq => (tokenStep svc env s op).frame hother hq

end

/-- Fingerprints that do not collide. -/
def demoAuth : AuthService :=
  ⟨⟨"library-management-platform", "library-management-platform-clients", 15, fun _ => "jwt"⟩,
  fun plain hashed => plain = hashed, fun raw => raw⟩

def demoAuthEnv (newId : UUID) (raw : String) (now : Int) : AuthEnv :=
  ⟨fun _ => now, newId, 0, newId, raw, .stored⟩

def demoClient : ClientMetadata := ⟨none, none, none⟩

def demoUsers : DB :=
  { DB.empty .ignoringCase with
    users := Table.empty.put ⟨10, "eve@example.com", "SecurePassword123!", .member, .active⟩ }

/-- A user has logged in. -/
def demoLoggedIn : DB :=
  (AuthOp.login "eve@example.com" "SecurePassword123!" demoClient).after demoAuth
    (demoAuthEnv 1 "a" 0) demoUsers

/-- A login whose token is rotated, and then presented once more. -/
def demoReused : DB :=
  (AuthOp.refreshToken "a" demoClient).after demoAuth (demoAuthEnv 2 "b" hour)
    ((AuthOp.login "eve@example.com" "SecurePassword123!" demoClient).after demoAuth
      (demoAuthEnv 1 "a" 0) demoUsers)

theorem demoReused_runs : AuthRuns demoAuth demoUsers demoReused := by
  refine .call _ _ (.call _ _ .refl ⟨?_, ?_⟩) ⟨?_, ?_⟩ <;> decide

theorem token_family_lifecycle_demo :
    ∃ t ∈ demoReused.refreshTokens.rows, t.revoked = true ∧
    ∃ e s', call (demoAuth.refreshToken (demoAuthEnv 3 "c" (2 * hour)) "a" demoClient) demoReused =
      (.error e, s') ∧ ∀ q ∈ s'.refreshTokens.rows, q.familyId = t.familyId → q.revoked = true := by
  have hlife := token_family_lifecycle rfl demoReused_runs
  have hmem : (⟨1, 10, 1, "a", 7 * day, true, demoClient⟩ : RefreshToken) ∈
    demoReused.refreshTokens.rows := by decide
  obtain ⟨e, s', hcall, hdead, _⟩ :=
    hlife.2.2.1 _ hmem rfl (demoAuthEnv 3 "c" (2 * hour)) "a" demoClient rfl
  exact ⟨_, hmem, rfl, e, s', hcall, hdead⟩

end LibraryPlatform

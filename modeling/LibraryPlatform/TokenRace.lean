import LibraryPlatform.TokenFamilies

/-!
# One refresh token presented many times

`refresh_token` reads the token without a lock and marks it revoked later. Single use
holds of the runs in which no rotation is flushed over another one.
-/
namespace LibraryPlatform

open KeyedTable Transaction

structure RefreshCall where
  env : AuthEnv
  client : ClientMetadata

/-- A rotation is flushed where the committed token is not revoked. -/
def TokenCurrent (svc : AuthService) (raw : String) (env : AuthEnv) :
    RowKey → Option DB → DB → Prop :=
  fun k read committed => ∀ w t r, read = some w → w.refreshTokens.get t.id = some t →
    t.tokenHash = svc.generateTokenFingerprint raw → t.revoked = false → env.clock 0 ≤ t.expiresAt →
    k = .refreshToken t.id → committed.refreshTokens.get t.id = some r → r.revoked = false

/-- Tokens are not removed, and revocations are not undone. -/
def TokensKept (s t : DB) : Prop :=
  ∀ id r, s.refreshTokens.get id = some r → ∃ r', t.refreshTokens.get id = some r' ∧
  r'.tokenHash = r.tokenHash ∧ r'.familyId = r.familyId ∧ (r.revoked = true → r'.revoked = true)

/-- Families have one live token each, and one token at most has the fingerprint. -/
structure SingleUse (hash : String) (db : DB) : Prop where
  live : OneLive db
  only : ∀ t ∈ db.refreshTokens.rows, ∀ q ∈ db.refreshTokens.rows, t.tokenHash = hash →
    q.tokenHash = hash → t = q

theorem TokensKept.refl (s : DB) : TokensKept s s := fun _ r h => ⟨r, h, rfl, rfl, fun hr => hr⟩

theorem TokensKept.trans {s t u : DB} (h : TokensKept s t) (h' : TokensKept t u) :
    TokensKept s u := by
  intro id r hr
  obtain ⟨r', hr', hhash, hfam, hrev⟩ := h id r hr
  obtain ⟨r'', hr'', hhash', hfam', hrev'⟩ := h' id r' hr'
  exact ⟨r'', hr'', hhash'.trans hhash, hfam'.trans hfam, hrev' ∘ hrev⟩

def rotating (hash : String) : Discipline DB RowKey where
  inv := SingleUse hash
  rely _ s t := TokensKept s t
  refl _ := TokensKept.refl
  trans := TokensKept.trans
  anti _ h := h

/-- The token with the fingerprint is replaced by a new one of its family. -/
structure Rotated (hash : String) (t new : RefreshToken) (s s' : DB) : Prop where
  row : s.refreshTokens.get t.id = some t
  hashed : t.tokenHash = hash
  live : t.revoked = false
  fresh : s.refreshTokens.get new.id = none
  family : new.familyId = t.familyId
  other : new.tokenHash ≠ hash
  stored : s' = (s.revoke t.id).put (.refreshToken new.id) (.refreshToken new)

/-- A live token is revoked under its lock, and a new one of its family is inserted. -/
structure Replaced (L : List RowKey) (t new : RefreshToken) (s s' : DB) : Prop where
  row : s.refreshTokens.get t.id = some t
  live : t.revoked = false
  locked : .refreshToken t.id ∈ L
  fresh : s.refreshTokens.get new.id = none
  family : new.familyId = t.familyId
  stored : s' = (s.revoke t.id).put (.refreshToken new.id) (.refreshToken new)

/-- What a refresh commits: a rotation when it returns, revocations when it raises. -/
def refreshContract (svc : AuthService) (raw : String) (env : AuthEnv) :
    Contract DB RowKey Credentials where
  publish o _ s s' := match o with
    | some _ => ∃ t new, Rotated (svc.generateTokenFingerprint raw) t new s s'
    | none => ∃ toks, s' = s.revokeTokens toks
  guard := TokenCurrent svc raw env
  point _ _ _ := True

section Rules

variable {α : Type} {D : Discipline DB RowKey} {T : Contract DB RowKey α}
  {l : Local DB RowKey Row Event} {s : DB}

/-- The rows that are revoked are locked, and the last of them is written where the guard holds. -/
theorem wp_revokeAll (hT : T.Quiet) {toks : List RefreshToken}
    {Q : Unit → Local DB RowKey Row Event → DB → Prop} (hs : D.inv s)
    (h : ∀ l' s', Onward D l s l' s' → l'.snapshot = l.snapshot →
      (∀ t, Later D l' s' t → l'.view t = (l.view t).revokeTokens toks) →
    (∀ tok ∈ toks, .refreshToken tok.id ∈ l'.locks) →
    (∀ tok ∈ toks.getLast?, T.guard (.refreshToken tok.id) l.snapshot s') → Q () l' s') :
    wp D T (AuthService.revokeAll toks) Q l s := by
  induction toks generalizing l s with
  | nil => exact h l s (.refl hs) rfl (fun _ _ => rfl) (by simp) (by simp)
  | cons tok rest ih =>
    simp only [AuthService.revokeAll, Prog.bind_eq, wp_bind]
    refine wp_updateRefreshToken hT fun A s₁ r h₁ hk hg hr => ?_
    have hone : ∀ l' s' t, Onward D
        ((l.hold A).write (.refreshToken tok.id) (.refreshToken { r with revoked := true })) s₁ l'
        s' →
        Later D l' s' t → l'.view t = (((l.hold A).write (.refreshToken tok.id)
          (.refreshToken { r with revoked := true })).view t).revokeTokens rest →
        l'.view t = (l.view t).revokeTokens (tok :: rest) := by
      intro l' s' t hon ht hview
      have hrow : (l.view t).refreshTokens.get tok.id = some r :=
        (later_refreshToken (hon.then_later ht).unwrite hk).trans hr
      rw [hview, DB.revokeTokens_cons, DB.revoke, hrow, Local.view_write, Local.view_hold]
      rfl
    have hon₁ := ((Onward.refl hs).hold h₁ A).write (.refreshToken tok.id)
      (.refreshToken { r with revoked := true })
    cases rest with
    | nil =>
      refine h _ s₁ hon₁ rfl (fun t ht => hone _ s₁ t (.refl h₁.inv) ht rfl) (by simpa using hk) ?_
      simpa using hg
    | cons tok' rest =>
      refine ih h₁.inv fun l' s' hon hsnap hview hlocks hlast => ?_
      refine h l' s' (hon₁.trans hon) hsnap (fun t ht => hone l' s' t hon ht (hview t ht))
        (fun q hq => ?_) ?_
      · rcases List.mem_cons.mp hq with rfl | hq
        · exact hon.keeps _ hk
        · exact hlocks q hq
      · intro q hq
        exact hlast q (by simpa using hq)

end Rules

section

variable {svc : AuthService} {raw : String} {env : AuthEnv} {client : ClientMetadata} {s t : DB}
  {hash : String}

theorem refreshContract_quiet : (refreshContract svc raw env).Quiet :=
  fun _ _ _ => show True from trivial

/-- Where the guard keeps rotations from one another, a refresh that returns replaces the token
presented, and one that commits and raises revokes tokens. -/
theorem wp_refreshToken_replaces {α : Type} {D : Discipline DB RowKey} {T : Contract DB RowKey α}
    (hT : T.Quiet) (hkept : ∀ L u v, D.rely L u v → TokensKept u v)
    (hguard : ∀ k w u, T.guard k w u → TokenCurrent svc raw env k w u)
    (hreuse : ∀ L u toks, T.publish none L u (u.revokeTokens toks)) :
    wp D T (svc.refreshToken env raw client)
    (AtCommit D fun _ L u v => ∃ old new, Replaced L old new u v ∧
      old.tokenHash = svc.generateTokenFingerprint raw ∧
    new.tokenHash = svc.generateTokenFingerprint env.rawRefreshToken) .init s := by
  unfold AuthService.refreshToken
  simp only [RefreshTokenRepository.getByTokenHash, Prog.bind_eq, wp_bind]
  refine wp_select fun s₁ h₁ => wp_scalarOneOrNone (fun _ => trivial)
    (fun record hfound => wp_orRaise fun r hr => ?_)
  cases hr
  have hmem := List.mem_filter.mp (hfound ▸ List.mem_singleton_self record)
  split
  · simp only [RefreshTokenRepository.getFamily, wp_bind]
    refine wp_select fun s₂ h₂ => wp_revokeAll hT h₂.inv fun l' s' _ _ hview _ _ =>
      wp_commit fun t ht => ⟨?_, trivial⟩
    rw [hview t ht]
    exact hreuse _ _ _
  · rename_i hlive
    split
    · simp only [wp_bind]
      exact wp_revokeAll hT h₁.inv fun _ _ _ _ _ _ _ => trivial
    · rename_i hexpired
      simp only [UserRepository.getById, AuthService.revokeAll, Prog.bind_eq, wp_bind]
      refine wp_select fun s₂ h₂ => wp_orRaise fun u hu => wp_raiseIf fun hactive => ?_
      refine wp_updateRefreshToken hT fun A s₃ r h₃ hk hg hr =>
        wp_insertRefreshToken fun s₄ h₄ hfresh t ht => ?_
      have h₃t := ((((Onward.refl h₃.inv).write _ _).hold h₄ _).write _ _).then_later ht
      have h₄t := ((Onward.refl h₄.inv).write _ _).then_later ht
      have hrecord : s₁.refreshTokens.get record.id = some record := Table.get_of_mem hmem.1
      have hhash : record.tokenHash = svc.generateTokenFingerprint raw := by simpa using hmem.2
      obtain ⟨r', hr', hrhash, hrfamily, _⟩ :=
        hkept _ _ _ (h₂.trans h₃.unsnap).rely record.id record hrecord
      obtain rfl : r' = r := Option.some.inj (hr'.symm.trans hr)
      have hid : r'.id = record.id := Table.key_of_get hr
      have hunrevoked : r'.revoked = false :=
        hguard _ _ _ hg s₁ record r' rfl hrecord hhash (by simpa using hlive)
          (not_lt.mp hexpired) rfl hr
      have hrt : t.refreshTokens.get record.id = some r' := (later_refreshToken h₃t hk).trans hr
      have hnone := (later_refreshToken h₄t (by simp)).trans hfresh
      have hput : t.revoke r'.id = t.put (.refreshToken record.id) (.refreshToken r'.revoke) := by
        rw [DB.revoke, hid, hrt]
      have hfree : (t.revoke r'.id).refreshTokens.get env.newId = none := by
        rw [hput]
        exact hnone
      refine ⟨r', successor svc env record client,
        ⟨hid ▸ hrt, hunrevoked, ?_, DB.revoke_eq_none.mp hfree, hrfamily.symm, ?_⟩,
        hrhash.trans hhash, rfl⟩
      · rw [hid]
        exact List.mem_append_right _ hk
      · rw [hput]
        rfl

theorem wp_refreshToken
    (hnew : svc.generateTokenFingerprint env.rawRefreshToken ≠ svc.generateTokenFingerprint raw) :
    wp (rotating hash) (refreshContract svc raw env) (svc.refreshToken env raw client)
    (Final (rotating hash) (refreshContract svc raw env)) .init s := by
  refine wp_mono ?_ (wp_refreshToken_replaces refreshContract_quiet (fun _ _ _ h =>
    h) (fun _ _ _ h => h)
    fun _ _ toks => ⟨toks, rfl⟩)
  intro c l u h t ht
  obtain ⟨old, new, hr, hold, hnew'⟩ := h t ht
  exact ⟨old, new, hr.row, hold, hr.live, hr.fresh, hr.family, hnew' ▸ hnew, hr.stored⟩

/-! ## What the commits keep -/

theorem TokensKept.revoke (h : TokensKept s t) (id : UUID) : TokensKept s (t.revoke id) := by
  intro x r hr
  obtain ⟨r', hr', hhash, hfam, hrev⟩ := h x r hr
  rw [DB.get_revoke, hr']
  split
  · exact ⟨r'.revoke, rfl, hhash, hfam, fun _ => rfl⟩
  · exact ⟨r', rfl, hhash, hfam, hrev⟩

theorem TokensKept.insert {new : RefreshToken} (h : TokensKept s t)
    (hnew : t.refreshTokens.get new.id = none) :
    TokensKept s (t.put (.refreshToken new.id) (.refreshToken new)) := by
  intro x r hr
  obtain ⟨r', hr', hfields⟩ := h x r hr
  refine ⟨r', ?_, hfields⟩
  rw [DB.get_putRefreshToken]
  split
  · rename_i hx
    rw [hx, hnew] at hr'
    cases hr'
  · exact hr'

theorem SingleUse.revoke (h : SingleUse hash s) (id : UUID) : SingleUse hash (s.revoke id) := by
  refine ⟨h.live.revoke, fun t ht q hq hth hqh => eq_of_revoke ht hq fun t₀ ht₀ q₀ hq₀ hth₀ hqh₀ =>
    ?_⟩
  exact h.only t₀ ht₀ q₀ hq₀ (hth₀ ▸ hth) (hqh₀ ▸ hqh)

theorem Rotated.keeps {old new : RefreshToken} (h : SingleUse hash s)
    (hr : Rotated hash old new s t) : SingleUse hash t ∧ TokensKept s t := by
  have hrevoke := h.revoke old.id
  have hfree : (s.revoke old.id).refreshTokens.get new.id = none := DB.revoke_eq_none.mpr hr.fresh
  rw [hr.stored]
  refine ⟨⟨hrevoke.live.insert fun q hq hf => ?_, fun t ht q hq hth hqh => ?_⟩,
    ((TokensKept.refl s).revoke _).insert hfree⟩
  · exact h.live.revoked (Table.mem_of_get hr.row) hr.live q hq (hf.trans hr.family)
  · rcases mem_putRefreshToken ht with rfl | ht'
    · exact absurd hth hr.other
    · rcases mem_putRefreshToken hq with rfl | hq'
      · exact absurd hqh hr.other
      · exact hrevoke.only t ht' q hq' hth hqh

theorem refresh_lawful :
    Lawful (rotating (svc.generateTokenFingerprint raw)) (refreshContract svc raw env) := by
  intro o L s t hp hs
  cases o with
  | some c =>
    obtain ⟨old, new, hr⟩ := hp
    obtain ⟨ht, hkept⟩ := Rotated.keeps hs hr
    exact ⟨ht, fun _ _ => hkept⟩
  | none =>
    obtain ⟨toks, rfl⟩ := hp
    exact ⟨revokeTokens_keeps (P := SingleUse (svc.generateTokenFingerprint raw)) (fun _ id h =>
      h.revoke id) toks hs,
      fun _ _ => revokeTokens_keeps (P := TokensKept s) (fun _ id h => h.revoke id) toks (.refl s)⟩

/-- The token with the fingerprint has been used. -/
def Spent (hash : String) (db : DB) : Prop :=
  ∃ t ∈ db.refreshTokens.rows, t.tokenHash = hash ∧ t.revoked = true

theorem Spent.kept (h : TokensKept s t) (hs : Spent hash s) : Spent hash t := by
  obtain ⟨r, hr, hhash, hrev⟩ := hs
  obtain ⟨r', hr', hhash', _, hrev'⟩ := h r.id r (Table.get_of_mem hr)
  exact ⟨r', Table.mem_of_get hr', hhash'.trans hhash, hrev' hrev⟩

theorem Rotated.spends {old new : RefreshToken} (h : SingleUse hash s)
    (hr : Rotated hash old new s t) : ¬Spent hash s ∧ Spent hash t := by
  constructor
  · rintro ⟨q, hq, hqh, hqr⟩
    obtain rfl := h.only q hq old (Table.mem_of_get hr.row) hqh hr.hashed
    rw [hr.live] at hqr
    cases hqr
  · have hget : (s.revoke old.id).refreshTokens.get old.id = some old.revoke := by
      rw [DB.get_revoke, hr.row]
      simp
    rw [hr.stored]
    exact ⟨old.revoke, mem_insert (DB.revoke_eq_none.mpr hr.fresh) (Table.mem_of_get hget),
      hr.hashed, rfl⟩

end

/-- Refreshes of one token, none of which has done anything yet. -/
def refreshes {n : Nat} (svc : AuthService) (raw : String) (calls : Fin n → RefreshCall) (s : DB) :
    Sys DB RowKey Row Event Exc Credentials n :=
  Sys.start s fun i => svc.refreshToken (calls i).env raw (calls i).client

/-- As long as no rotation is flushed over another one, a token buys one pair of
credentials at most, and no family has two live tokens. -/
theorem token_single_use {n : Nat} {svc : AuthService} {raw : String} {calls : Fin n → RefreshCall}
    {s₀ : DB}
    (hnew : ∀ i, svc.generateTokenFingerprint (calls i).env.rawRefreshToken ≠
      svc.generateTokenFingerprint raw)
    (h₀ : SingleUse (svc.generateTokenFingerprint raw) s₀)
    {s : Sys DB RowKey Row Event Exc Credentials n}
    (h : Sys.Reach (Sys.WhereGuarded fun i =>
      TokenCurrent svc raw (calls i).env) (refreshes svc raw calls s₀) s) :
    OneLive s.db ∧ ∀ i j a b, s.txn i = .ended (.returned a) →
    s.txn j = .ended (.returned b) → i = j := by
  have hstart : Sys.Good (rotating (svc.generateTokenFingerprint raw))
      (fun i => refreshContract svc raw (calls i).env)
      (refreshes svc raw calls s₀) := Sys.good_start h₀ fun i => wp_refreshToken (hnew i)
  have hgood := Sys.good_of_reach (fun _ => refresh_lawful) hstart h
  refine ⟨hgood.inv.live, (Sys.Good.one_return (P := Spent (svc.generateTokenFingerprint raw))
    (fun _ => refresh_lawful)
    (fun _ _ hk hs => hs.kept hk) ?_ hstart ?_ h).2⟩
  · rintro i a L s t ⟨old, new, hr⟩ hs
    exact hr.spends hs
  · rintro i a ⟨⟩

def demoRefreshes : Fin 2 → RefreshCall
  | 0 => ⟨demoAuthEnv 2 "b" hour, demoClient⟩
  | 1 => ⟨demoAuthEnv 3 "c" hour, demoClient⟩

/-- The moves of a rotation that has read its token and its user. -/
def demoRotate (i : Fin 2) : List (Fin 2 × Move RowKey) :=
  (i, .acquire (.refreshToken 1)) :: List.replicate 2 (i, .run)

theorem demoLoggedIn_singleUse :
    SingleUse (demoAuth.generateTokenFingerprint "a") demoLoggedIn := by
  constructor
  · unfold OneLive
    decide
  · decide

/-- The moves of a rotation that finds its token reused, and the new one unrevoked. -/
def demoSpent (i : Fin 2) : List (Fin 2 × Move RowKey) :=
  [(i, .run), (i, .run), (i, .acquire (.refreshToken 2)), (i, .run), (i, .run)]

/-- What the rotation has read of the token, if anything, is that it is revoked. -/
def sawRevoked (hash : String) : Txn DB RowKey Row Event Exc Credentials → Bool
  | .running _ l => l.snapshot.all fun w => w.refreshTokens.rows.all fun t =>
      t.tokenHash ≠ hash || t.revoked
  | .ended _ => true

theorem tokenCurrent_of_sawRevoked {svc : AuthService} {raw : String} {env : AuthEnv}
    {k key : RowKey} {f : DB → Except Exc Row} {next : Tx Credentials}
    {l : Local DB RowKey Row Event} {s : DB}
    (h : sawRevoked (svc.generateTokenFingerprint raw) (.running (.update k f next) l)) :
    TokenCurrent svc raw env key l.snapshot s := by
  intro w t _ hread hget hhash hlive
  simp only [sawRevoked, hread, Option.all_some] at h
  have ht := List.all_eq_true.mp h t (Table.mem_of_get hget)
  simp [hhash, hlive] at ht

/-- One rotation returns, and the other finds the token reused. -/
theorem token_single_use_demo :
    ∃ s : Sys DB RowKey Row Event Exc Credentials 2,
    (refreshes demoAuth "a" demoRefreshes demoLoggedIn).runs
    ([(0, .run), (0, .run)] ++ demoRotate 0 ++ demoSpent 1) = some s ∧ (s.txn 0).hasReturned ∧
    (s.txn 1).hasReturned = false ∧ OneLive s.db := by
  have hsome : ((refreshes demoAuth "a" demoRefreshes demoLoggedIn).runs
      ([(0, .run), (0, .run)] ++ demoRotate 0 ++ demoSpent 1)).map
      (fun s => ((s.txn 0).hasReturned, (s.txn 1).hasReturned)) = some (true, false) := by decide
  obtain ⟨s, hs, hboth⟩ := Option.map_eq_some_iff.mp hsome
  obtain ⟨hret, hreused⟩ := Prod.mk.inj hboth
  have hreach : Sys.Reach (Sys.WhereGuarded fun i =>
      TokenCurrent demoAuth "a" (demoRefreshes i).env)
      (refreshes demoAuth "a" demoRefreshes demoLoggedIn) s := by
    refine Sys.reach_of_along (P := fun s => s.db.refreshTokens.rows.all (fun t => !t.revoked) ||
      (List.finRange 2).all fun i => sawRevoked "a" (s.txn i)) ?_ (by decide) hs
    intro s i m hguard _ k f next l htxn
    rcases (Bool.or_eq_true _ _).mp hguard with hlive | hsaw
    · intro w t r _ _ _ _ _ _ hr
      simpa using List.all_eq_true.mp hlive r (Table.mem_of_get hr)
    · have hi := List.all_eq_true.mp hsaw i (List.mem_finRange i)
      rw [htxn] at hi
      exact tokenCurrent_of_sawRevoked hi
  have hnew : ∀ i, demoAuth.generateTokenFingerprint (demoRefreshes i).env.rawRefreshToken ≠
      demoAuth.generateTokenFingerprint "a" := by decide
  obtain ⟨hone, _⟩ := token_single_use hnew demoLoggedIn_singleUse hreach
  exact ⟨s, hs, hret, hreused, hone⟩

/-- Two requests that both read the token as unrevoked both return, and both of the new
tokens are live. -/
theorem refresh_race :
    (¬∀ s, Sys.Reach Sys.Any (refreshes demoAuth "a" demoRefreshes demoLoggedIn) s →
      ∀ i j a b, s.txn i = .ended (.returned a) → s.txn j = .ended (.returned b) → i = j) ∧
    ¬∀ s, Sys.Reach Sys.Any (refreshes demoAuth "a" demoRefreshes demoLoggedIn) s →
    OneLive s.db := by
  have hrun : ((refreshes demoAuth "a" demoRefreshes demoLoggedIn).runs
      ([(0, .run), (0, .run), (1, .run), (1, .run)] ++ demoRotate 0 ++ demoRotate 1)).map
      (fun s => ((s.txn 0).hasReturned && (s.txn 1).hasReturned, s.db.refreshTokens.rows)) =
        some (true,
        [⟨1, 10, 1, "a", 7 * day, true, demoClient⟩,
          ⟨2, 10, 1, "b", hour + 7 * day, false, demoClient⟩,
          ⟨3, 10, 1, "c", hour + 7 * day, false, demoClient⟩]) := by decide
  obtain ⟨s, hs, hfacts⟩ := Option.map_eq_some_iff.mp hrun
  simp only [Prod.mk.injEq, Bool.and_eq_true] at hfacts
  obtain ⟨⟨hleft, hright⟩, hrows⟩ := hfacts
  have hreach := Sys.reach_of_runs hs
  constructor
  · intro hclaim
    obtain ⟨a, ha⟩ := Txn.hasReturned_iff.mp hleft
    obtain ⟨b, hb⟩ := Txn.hasReturned_iff.mp hright
    exact absurd (hclaim s hreach 0 1 a b ha hb) (by decide)
  · intro hclaim
    have hlive := hclaim s hreach
    rw [OneLive, hrows] at hlive
    exact absurd hlive (by decide)

end LibraryPlatform

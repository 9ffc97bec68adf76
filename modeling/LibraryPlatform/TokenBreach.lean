import LibraryPlatform.SerialRuns
import LibraryPlatform.TokenRace

/-!
# The answer to a stolen token, among others

A revoked token that is presented again revokes its family as the call read it. What the
call did not read survives the answer, and so does what a rotation writes after it.
-/
namespace LibraryPlatform

open KeyedTable Transaction

inductive TokenCall where
  | refreshToken (env : AuthEnv) (rawRefreshToken : String) (client : ClientMetadata)
  | logout (rawRefreshToken : String)

def TokenCall.run (svc : AuthService) : TokenCall → Tx (Option Credentials)
  | .refreshToken env raw client => some <$> svc.refreshToken env raw client
  | .logout raw => (fun _ => none) <$> svc.logout raw

/-- Refreshes and logouts, none of which has done anything yet. -/
def tokenCalls {n : Nat} (svc : AuthService) (calls : Fin n → TokenCall) (s : DB) :
    Sys DB RowKey Row Event Exc (Option Credentials) n :=
  Sys.start s fun i => (calls i).run svc

/-- A call that read its token as revoked writes where every live token of the family is one
that it read as live. -/
def FamilyCurrent (svc : AuthService) (raw : String) (read : Option DB) (committed : DB) : Prop :=
  ∀ w t q, read = some w → Presented svc raw w t → t.revoked = true →
    q ∈ committed.refreshTokens.rows →
    q.familyId = t.familyId → q.revoked = false → ∃ o ∈ w.refreshTokens.rows, o.id = q.id ∧
      o.familyId = t.familyId ∧ o.revoked = false

/-- What has to hold where a call writes over a row. -/
def TokenCall.Current (svc : AuthService) : TokenCall → RowKey → Option DB → DB → Prop
  | .refreshToken env raw _, k, read, committed => TokenCurrent svc raw env k read committed ∧
      FamilyCurrent svc raw read committed
  | .logout _, _, _, _ => True

/-- Call `i` has read its token as revoked, it was `r`, and has just committed its answer. -/
inductive Answered {n : Nat}
    (G : Sys DB RowKey Row Event Exc (Option Credentials) n → Fin n → Move RowKey → Prop)
    (svc : AuthService) (calls : Fin n → TokenCall) (s₀ : DB) (i : Fin n) (r : RefreshToken) :
    Sys DB RowKey Row Event Exc (Option Credentials) n → Prop
  | mk {env : AuthEnv} {raw : String} {client : ClientMetadata}
      {s₁ s₂ s s' : Sys DB RowKey Row Event Exc (Option Credentials) n}
      {next : Tx (Option Credentials)} {l : Local DB RowKey Row Event} :
        calls i = .refreshToken env raw client →
      Sys.Reach G (tokenCalls svc calls s₀) s₁ →
        s₁.txn i = .running ((calls i).run svc) .init → G s₁ i .run →
      s₁.step i .run = some s₂ → Presented svc raw s₁.db r → r.revoked = true →
      Sys.Reach G s₂ s → s.txn i = .running (.commit next) l → G s i .run →
        s.step i .run = some s' →
      Answered G svc calls s₀ i r s'

/-! ## What others leave alone -/

/-- Every live token of the family is one of the rows. -/
def Covered (L : List RowKey) (familyId : UUID) (db : DB) : Prop :=
  ∀ q ∈ db.refreshTokens.rows, q.familyId = familyId → q.revoked = false → .refreshToken q.id ∈ L

/-- A family whose live tokens are all locked gets no others. -/
def covering : Discipline DB RowKey where
  inv _ := True
  rely L s t := TokensKept s t ∧ ∀ L₀ familyId, (∀ k ∈ L₀, k ∈ L) → Covered L₀ familyId s →
    Covered L₀ familyId t
  refl _ s := ⟨.refl s, fun _ _ _ h => h⟩
  trans h h' := ⟨h.1.trans h'.1, fun L₀ f hL hc => h'.2 L₀ f hL (h.2 L₀ f hL hc)⟩
  anti hL h := ⟨h.1, fun L₀ f hL₀ => h.2 L₀ f fun k hk => hL k (hL₀ k hk)⟩

def TokenCall.contract (svc : AuthService) (c : TokenCall) :
    Contract DB RowKey (Option Credentials) where
  publish _ L s s' := (∃ toks, s' = s.revokeTokens toks) ∨ ∃ old new, Replaced L old new s s'
  guard := c.Current svc
  point _ _ _ := True

/-- The contract of a call that has read a revoked token of the family. -/
def TokenCall.answering (svc : AuthService) (c : TokenCall) (familyId : UUID) :
    Contract DB RowKey (Option Credentials) where
  publish o L s s' := (c.contract svc).publish o L s s' ∧ (o = none → Covered [] familyId s')
  guard := c.Current svc
  point _ _ _ := True

section

variable {svc : AuthService} {env : AuthEnv} {raw : String} {client : ClientMetadata} {s s' : DB}
  {L : List RowKey} {familyId : UUID}

theorem Covered.revoke (h : Covered L familyId s) (id : UUID) :
    Covered L familyId (s.revoke id) := by
  intro q hq hf hlive
  obtain ⟨q₀, hq₀, ⟨rfl, _⟩ | ⟨rfl, _⟩⟩ := mem_revoke hq
  · exact h q hq₀ hf hlive
  · cases hlive

/-- Revoking all the rows that cover a family leaves no live token of it. -/
theorem Covered.revoked {toks : List RefreshToken}
    (h : Covered (toks.map fun t => .refreshToken t.id) familyId s) :
    Covered [] familyId (s.revokeTokens toks) := by
  intro q hq hf hlive
  have hget : (s.revokeTokens toks).refreshTokens.get q.id = some q := Table.get_of_mem hq
  rw [DB.get_revokeTokens] at hget
  split at hget
  · obtain ⟨q₀, _, rfl⟩ := Option.map_eq_some_iff.mp hget
    cases hlive
  · rename_i hnot
    have hrow := h q (Table.mem_of_get hget) hf hlive
    obtain ⟨t, ht, hid⟩ := List.mem_map.mp hrow
    exact absurd (List.mem_map.mpr ⟨t, ht, RowKey.refreshToken.inj hid⟩) hnot

theorem Replaced.kept {old new : RefreshToken} (h : Replaced L old new s s') : TokensKept s s' := by
  rw [h.stored]
  exact ((TokensKept.refl s).revoke _).insert (DB.revoke_eq_none.mpr h.fresh)

/-- The family of the token replaced has a live token that others have not locked. -/
theorem Replaced.covered {old new : RefreshToken} (h : Replaced L old new s s') {L' : List RowKey}
    (hL : ∀ k ∈ L', k ∉ L) (hc : Covered L' familyId s) : Covered L' familyId s' := by
  have hf : old.familyId ≠ familyId :=
    fun he => hL _ (hc old (Table.mem_of_get h.row) he h.live) h.locked
  rw [h.stored]
  intro q hq hqf hlive
  rcases mem_putRefreshToken hq with rfl | hq
  · exact absurd (h.family.symm.trans hqf) hf
  · exact hc.revoke _ q hq hqf hlive

theorem tokenCall_lawful (c : TokenCall) : Lawful covering (c.contract svc) := by
  intro o L s t h _
  rcases h with ⟨toks, rfl⟩ | ⟨old, new, hr⟩
  · refine ⟨trivial, fun L' _ => ⟨?_, fun L₀ f _ hc => ?_⟩⟩
    · exact revokeTokens_keeps (P := TokensKept s) (fun _ id h => h.revoke id) toks (.refl s)
    · exact revokeTokens_keeps (P := Covered L₀ f) (fun _ id h => h.revoke id) toks hc
  · exact ⟨trivial, fun L' hL =>
      ⟨hr.kept, fun L₀ f hL₀ hc => hr.covered (fun k hk => hL k (hL₀ k hk)) hc⟩⟩

theorem answering_lawful (c : TokenCall) : Lawful covering (c.answering svc familyId) :=
  fun o L s t h hs => tokenCall_lawful c o L s t h.1 hs

theorem wp_logout : wp covering ((TokenCall.logout raw).contract svc) (svc.logout raw)
    (AtCommit covering fun _ _ t t' => ∃ toks, t' = t.revokeTokens toks) .init s := by
  unfold AuthService.logout
  simp only [RefreshTokenRepository.getByTokenHash, Prog.bind_eq, wp_bind]
  refine wp_select fun s₁ h₁ => wp_scalarOneOrNone (fun _ t _ => ⟨[], rfl⟩) fun record _ => ?_
  exact wp_revokeAll (fun _ _ _ => trivial) h₁.inv fun l' s' _ _ hview _ _ t ht => ⟨_, hview t ht⟩

theorem wp_tokenCall (c : TokenCall) :
    wp covering (c.contract svc) (c.run svc) (Final covering (c.contract svc)) .init s := by
  have hT : (c.contract svc).Quiet := fun _ _ _ => show True from trivial
  cases c with
  | refreshToken env raw client =>
    simp only [TokenCall.run, Prog.map_eq, wp_bind, wp_ret]
    refine wp_mono ?_ (wp_refreshToken_replaces hT (fun _ _ _ h => h.1) (fun _ _ _ h =>
      h.1) fun _ _ toks => .inl ⟨toks, rfl⟩)
    intro a l u h t ht
    obtain ⟨old, new, hr, _⟩ := h t ht
    exact .inr ⟨old, new, hr⟩
  | logout raw =>
    simp only [TokenCall.run, Prog.map_eq, wp_bind, wp_ret]
    exact wp_mono (fun _ _ _ h t ht => .inl (h t ht)) wp_logout

/-! ## The answer -/

/-- A refresh reads its token first; what it does next depends on the rows found. -/
theorem refreshToken_reads (svc : AuthService) (env : AuthEnv) (raw : String)
    (client : ClientMetadata) :
    ∃ next, svc.refreshToken env raw client =
        .select (fun db => db.refreshTokens.rows.filter
          (fun t => t.tokenHash = svc.generateTokenFingerprint raw)) next ∧
      ∀ r : RefreshToken, r.revoked = true → next [r] = (do
        let familyTokens ← RefreshTokenRepository.getFamily r.familyId
        AuthService.revokeAll (env.tokenOrder.apply (familyTokens.filter (fun t => !t.revoked)))
        commit
        raise (.application .tokenRevoked
          (some "This token session has been revoked due to reuse detection. All family keys invalidated."))) := by
  refine ⟨_, rfl, fun r hr => ?_⟩
  simp [scalarOneOrNone, orRaise, hr, Prog.bind]

theorem wp_answer {α : Type} {T : Contract DB RowKey α} {r : RefreshToken} (hT : T.Quiet)
    (hp : Presented svc raw s r) (hr : r.revoked = true)
    (hguard : ∀ k w t, T.guard k w t → FamilyCurrent svc raw w t)
    (hanswer : ∀ L t toks, Covered [] r.familyId (t.revokeTokens toks) →
      T.publish none L t (t.revokeTokens toks))
    {Q : Credentials → Local DB RowKey Row Event → DB → Prop} : wp covering T (do
      let familyTokens ← RefreshTokenRepository.getFamily r.familyId
      AuthService.revokeAll (env.tokenOrder.apply (familyTokens.filter (fun t => !t.revoked)))
      commit
      raise (.application .tokenRevoked
        (some "This token session has been revoked due to reuse detection. All family keys invalidated."))) Q
      (Local.init.snap s) s := by
  simp only [RefreshTokenRepository.getFamily, Prog.bind_eq, wp_bind]
  refine wp_select fun s₂ h₂ => wp_revokeAll hT h₂.inv fun l' s' hon _ hview hlocks hlast =>
    wp_commit fun t ht => ⟨?_, trivial⟩
  change ∀ t, Later covering l' s' t →
    l'.view t = t.revokeTokens (unrevokedOf env s r.familyId) at hview
  change ∀ tok ∈ unrevokedOf env s r.familyId, .refreshToken tok.id ∈ l'.locks at hlocks
  change ∀ tok ∈ (unrevokedOf env s r.familyId).getLast?, T.guard (.refreshToken tok.id)
    (some s) s' at hlast
  generalize htoks : unrevokedOf env s r.familyId = toks at hview hlocks hlast
  rw [hview t ht]
  refine hanswer _ _ _ (Covered.revoked ?_)
  have hread : ∀ o ∈ s.refreshTokens.rows, o.familyId = r.familyId → o.revoked = false → o ∈ toks :=
    fun o ho hf hlive => htoks ▸ mem_unrevokedOf.mpr ⟨ho, hf, hlive⟩
  cases hlast? : toks.getLast? with
  | none =>
    -- nothing was live when the call read the family, and nothing has come to life since
    obtain rfl := List.getLast?_eq_none_iff.mp hlast?
    have hnone : Covered [] r.familyId s :=
      fun o ho hf hlive => absurd (hread o ho hf hlive) List.not_mem_nil
    exact (h₂.trans (hon.then_later ht).unsnap).rely.2 [] _ (by simp) hnone
  | some tok =>
    -- at the last flush everything live was one of the rows read, and is locked
    have hcurrent := hguard _ _ _ (hlast tok hlast?)
    have hcovered : Covered (toks.map fun t => .refreshToken t.id) r.familyId s' := by
      intro q hq hf hlive
      obtain ⟨o, ho, hid, hof, holive⟩ := hcurrent s r q rfl hp hr hq hf hlive
      exact List.mem_map.mpr ⟨o, hread o ho hof holive, by rw [hid]⟩
    refine ht.rely.2 _ _ (fun k hk => ?_) hcovered
    obtain ⟨t, ht, rfl⟩ := List.mem_map.mp hk
    exact hlocks t ht

theorem answering_guard {n : Nat} (svc : AuthService) (calls : Fin n → TokenCall) (i : Fin n)
    (familyId : UUID) (j : Fin n) :
    (Function.update (fun j => (calls j).contract svc) i
      ((calls i).answering svc familyId) j).guard = (calls j).Current svc := by
  by_cases hj : j = i
  · subst hj
    simp [TokenCall.answering]
  · simp [hj, TokenCall.contract]

/-- From the read on, the call can be held to its answer. -/
theorem good_of_read {n : Nat} {calls : Fin n → TokenCall} {i : Fin n} {r : RefreshToken}
    {s₁ s₂ : Sys DB RowKey Row Event Exc (Option Credentials) n}
    (hgood : Sys.Good covering (fun j => (calls j).contract svc) s₂)
    (hcall : calls i = .refreshToken env raw client)
    (ht : s₁.txn i = .running ((calls i).run svc) .init) (hs₂ : s₁.step i .run = some s₂)
    (hp : Presented svc raw s₁.db r) (hr : r.revoked = true) :
    Sys.Good covering (Function.update (fun j => (calls j).contract svc) i
      ((calls i).answering svc r.familyId)) s₂ := by
  obtain ⟨next, hprog, hnext⟩ := refreshToken_reads svc env raw client
  have hrun : (calls i).run svc =
      .select (fun db => db.refreshTokens.rows.filter (fun t => t.tokenHash =
      svc.generateTokenFingerprint raw))
      fun rows => (next rows).bind fun a => .ret (some a) := by
    rw [hcall, TokenCall.run, hprog]
    rfl
  rw [hrun] at ht
  rw [Sys.step_run ht] at hs₂
  cases hs₂
  refine hgood.anew (Sys.set_txn s₁ i _) ?_ (by simp [Local.Owned, Local.init, Local.snap])
  change wp covering _ ((next (s₁.db.refreshTokens.rows.filter _)).bind _) _ _ s₁.db
  rw [show s₁.db.refreshTokens.rows.filter _ = [r] from hp, hnext r hr, wp_bind]
  refine wp_answer (T := (calls i).answering svc r.familyId)
    (fun _ _ _ => show True from trivial) hp hr (fun k w t h => ?_)
    fun L t toks h => ⟨.inl ⟨toks, rfl⟩, fun _ => h⟩
  change (calls i).Current svc k w t at h
  rw [hcall] at h
  exact h.2

/-- The answer to a revoked token stands: in every run whose flushes find the tokens as they
were read, no committed state after it has a live token of the family. -/
theorem breach_answer_stands {n : Nat} {calls : Fin n → TokenCall} {s₀ : DB} {i : Fin n}
    {r : RefreshToken} {a b : Sys DB RowKey Row Event Exc (Option Credentials) n}
    (ha : Answered (Sys.WhereGuarded fun i => (calls i).Current svc) svc calls s₀ i r a)
    (hb : Sys.Reach (Sys.WhereGuarded fun i => (calls i).Current svc) a b) :
    ∀ q ∈ b.db.refreshTokens.rows, q.familyId = r.familyId → q.revoked = true := by
  obtain ⟨hcall, h₁, ht, hg, hs₂, hp, hr, hs, hcommit, hgc, hstep⟩ := ha
  have hstart : Sys.Good covering (fun j => (calls j).contract svc) (tokenCalls svc calls s₀) :=
    Sys.good_start trivial fun j => wp_tokenCall (calls j)
  have hlawful : ∀ j, Lawful covering ((calls j).contract svc) :=
    fun j => tokenCall_lawful (calls j)
  have hread := good_of_read ((Sys.good_of_reach hlawful hstart h₁).step hlawful hg hs₂)
    hcall ht hs₂ hp hr
  -- the guards are the same, so the rest of the run is one under the new contract
  have hlawful' : ∀ j, Lawful covering
      (Function.update (fun j => (calls j).contract svc) i
      ((calls i).answering svc r.familyId) j) := by
    intro j
    by_cases hj : j = i
    · subst hj
      simpa using answering_lawful (calls j)
    · simpa [hj] using hlawful j
  have hguard : ∀ (t : Sys DB RowKey Row Event Exc (Option Credentials) n) j m,
      Sys.WhereGuarded (fun j => (calls j).Current svc) t j m →
      Sys.Guarded (Function.update (fun j => (calls j).contract svc) i
          ((calls i).answering svc r.familyId)) t j m := by
    intro t j m h
    simpa only [Sys.Guarded, answering_guard] using h
  have hgood := Sys.good_of_reach hlawful' hread (hs.mono hguard)
  have hanswer := (hgood.commit hcommit)
  rw [Function.update_self] at hanswer
  have honward := (hgood.step hlawful' (hguard _ _ _ hgc) hstep).onward hlawful' (hb.mono hguard)
  rw [Sys.step_run hcommit] at hstep
  cases hstep
  intro q hq hf
  by_contra hlive
  have hcovered := honward.2 [] r.familyId (by simp) (hanswer.2 rfl)
  exact List.not_mem_nil (hcovered q hq hf (by simpa using hlive))

end

/-- A token that has been rotated is presented again, and so is the one that replaced it. -/
def demoStolen : Fin 2 → TokenCall
  | 0 => .refreshToken (demoAuthEnv 4 "d" (2 * hour)) "a" demoClient
  | 1 => .refreshToken (demoAuthEnv 3 "c" (2 * hour)) "b" demoClient

def demoThief : Sys DB RowKey Row Event Exc (Option Credentials) 2 :=
  tokenCalls demoAuth demoStolen demoReused

theorem demo_answered
    {G : Sys DB RowKey Row Event Exc (Option Credentials) 2 → Fin 2 → Move RowKey → Prop}
    {s₂ s a : Sys DB RowKey Row Event Exc (Option Credentials) 2}
    (hG : ∀ t, (∀ k f next l, t.txn 0 ≠ .running (.update k f next) l) → G t 0 .run)
    (hread : demoThief.step 0 .run = some s₂) (hs : Sys.Reach G s₂ s) (hc : (s.txn 0).isCommitting)
    (ha : s.step 0 .run = some a) :
    Answered G demoAuth demoStolen demoReused 0 ⟨1, 10, 1, "a", 7 * day, true, demoClient⟩ a := by
  obtain ⟨next, l, hcommit⟩ := Txn.isCommitting_iff.mp hc
  have hp : Presented demoAuth "a" demoReused ⟨1, 10, 1, "a", 7 * day, true, demoClient⟩ := by
    unfold Presented
    decide
  refine .mk rfl .refl rfl (hG _ fun k f next l h => by cases h) hread hp rfl hs hcommit
    (hG _ fun k f next l h => ?_) ha
  rw [hcommit] at h
  cases h

/-- Every running call has read the tokens that are committed now. -/
def demoUpToDate (s : Sys DB RowKey Row Event Exc (Option Credentials) 2) : Bool :=
  (List.finRange 2).all fun i => match s.txn i with
    | .running _ l => l.snapshot.all fun w => w.refreshTokens.rows = s.db.refreshTokens.rows
    | .ended _ => true

theorem demoUpToDate_current {s : Sys DB RowKey Row Event Exc (Option Credentials) 2} (i : Fin 2)
    (m : Move RowKey) (h : demoUpToDate s) :
    Sys.WhereGuarded (fun i => (demoStolen i).Current demoAuth) s i m := by
  intro _ k f next l ht
  have hrows : ∀ w, l.snapshot = some w → w.refreshTokens.rows = s.db.refreshTokens.rows := by
    intro w hw
    have hi := List.all_eq_true.mp h i (List.mem_finRange i)
    simpa [ht, hw] using hi
  have hcurrent : ∀ env raw, TokenCurrent demoAuth raw env k l.snapshot s.db ∧
      FamilyCurrent demoAuth raw l.snapshot s.db := by
    refine fun env raw => ⟨fun w t r hw hget _ hlive _ _ hr => ?_,
      fun w t q hw _ _ hq hf hlive => ?_⟩
    · have hmem : t ∈ s.db.refreshTokens.rows := hrows w hw ▸ Table.mem_of_get hget
      rwa [← Option.some.inj ((Table.get_of_mem hmem).symm.trans hr)]
    · exact ⟨q, hrows w hw ▸ hq, rfl, hf, hlive⟩
  match i with
  | 0 => exact hcurrent _ _
  | 1 => exact hcurrent _ _

/-- A schedule in which call 0 starts, commits its answer after the moves of `middle`, and
others go on. -/
theorem demo_schedule
    {G : Sys DB RowKey Row Event Exc (Option Credentials) 2 → Fin 2 → Move RowKey → Prop}
    {P : Sys DB RowKey Row Event Exc (Option Credentials) 2 → Bool} (hG : ∀ t i m, P t → G t i m)
    (hread : ∀ t, (∀ k f next l, t.txn 0 ≠ .running (.update k f next) l) → G t 0 .run)
    {middle rest : List (Fin 2 × Move RowKey)}
    {b : Sys DB RowKey Row Event Exc (Option Credentials) 2}
    (hP : demoThief.along P ([(0, .run)] ++ (middle ++ ([(0, .run)] ++ rest))))
    (hb : demoThief.runs ([(0, .run)] ++ (middle ++ ([(0, .run)] ++ rest))) = some b)
    (hc : (demoThief.runs ([(0, .run)] ++ middle)).all fun s => (s.txn 0).isCommitting) :
    ∃ a, Answered G demoAuth demoStolen demoReused 0 ⟨1, 10, 1, "a", 7 * day, true, demoClient⟩ a ∧
    Sys.Reach G a b := by
  rw [Sys.runs_append, Option.bind_eq_some_iff] at hb
  obtain ⟨s₂, hs₂, hb⟩ := hb
  obtain ⟨_, hP⟩ := Sys.along_append hP hs₂
  rw [Sys.runs_append, Option.bind_eq_some_iff] at hb
  obtain ⟨s, hs, hb⟩ := hb
  obtain ⟨hmiddle, hP⟩ := Sys.along_append hP hs
  rw [Sys.runs_append, Option.bind_eq_some_iff] at hb
  obtain ⟨a, ha, hb⟩ := hb
  obtain ⟨_, hrest⟩ := Sys.along_append hP ha
  rw [Sys.runs_append, hs₂, Option.bind_some, hs, Option.all_some] at hc
  have hone : ∀ t u : Sys DB RowKey Row Event Exc (Option Credentials) 2, t.runs [(0, .run)] =
      some u → t.step 0 .run = some u := by
    intro t u h
    simpa [Sys.runs] using h
  exact ⟨a, demo_answered hread (hone _ _ hs₂) (Sys.reach_of_along hG hmiddle hs) hc (hone _ _ ha),
    Sys.reach_of_along hG hrest hb⟩

/-- What is left for a call to do before it commits its answer: it reads the family, and revokes
the live token. -/
def demoAnswer (i : Fin 2) : List (Fin 2 × Move RowKey) :=
  [(i, .run), (i, .acquire (.refreshToken 2))]

/-- The second call comes when the answer to the first one has been committed. -/
theorem breach_answer_stands_demo :
    ∃ a b : Sys DB RowKey Row Event Exc (Option Credentials) 2,
    Answered (Sys.WhereGuarded fun i => (demoStolen i).Current demoAuth) demoAuth demoStolen
    demoReused 0 ⟨1, 10, 1, "a", 7 * day, true, demoClient⟩ a ∧
    b.db.refreshTokens.rows.map RefreshToken.id = [1, 2] ∧
    ∀ q ∈ b.db.refreshTokens.rows, q.familyId = 1 → q.revoked = true := by
  have hrun : (demoThief.runs ([(0, .run)] ++
      (demoAnswer 0 ++ ([(0, .run)] ++ [(1, .run), (1, .run), (1, .run)])))).map
      (fun b => b.db.refreshTokens.rows.map RefreshToken.id) = some [1, 2] := by decide
  obtain ⟨b, hb, hrows⟩ := Option.map_eq_some_iff.mp hrun
  obtain ⟨a, ha, hreach⟩ := demo_schedule (G := Sys.WhereGuarded fun i =>
    (demoStolen i).Current demoAuth) (P := demoUpToDate)
    (fun _ i m h => demoUpToDate_current i m h)
      (fun _ h _ k f next l ht => absurd ht (h k f next l)) (by decide) hb (by decide)
  exact ⟨a, b, ha, hrows, breach_answer_stands ha hreach⟩

/-- The second call has read the live token before the first one answers, and replaces
it afterwards. -/
theorem breach_answer_undone :
    ¬∀ a b : Sys DB RowKey Row Event Exc (Option Credentials) 2,
    Answered Sys.Any demoAuth demoStolen demoReused 0 ⟨1, 10, 1, "a", 7 * day, true, demoClient⟩ a →
    Sys.Reach Sys.Any a b → ∀ q ∈ b.db.refreshTokens.rows, q.familyId = 1 → q.revoked = true := by
  intro hclaim
  have hrun : (demoThief.runs ([(0, .run)] ++
      (([(1, .run), (1, .run)] ++ demoAnswer 0) ++ ([(0, .run)] ++
      [(1, .acquire (.refreshToken 2)), (1, .run), (1, .run)])))).map
      (fun b => b.db.refreshTokens.rows.any fun q => q.familyId = 1 && !q.revoked) =
        some true := by decide
  obtain ⟨b, hb, hlive⟩ := Option.map_eq_some_iff.mp hrun
  obtain ⟨a, ha, hreach⟩ := demo_schedule (fun _ _ _ _ => trivial) (fun _ _ => trivial)
    (Sys.along_true _ _) hb (by decide)
  obtain ⟨q, hq, hfacts⟩ := List.any_eq_true.mp hlive
  have hrevoked := hclaim a b ha hreach q hq (by simpa using (Bool.and_eq_true_iff.mp hfacts).1)
  simp [hrevoked] at hfacts

end LibraryPlatform

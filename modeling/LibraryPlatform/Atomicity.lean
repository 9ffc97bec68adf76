import LibraryPlatform.Conservation
import LibraryPlatform.Erasure

/-!
# Requests that leave no trace

A request that writes does so when it is answered. Until then, and if it is refused or aborted,
the store and all other requests are as they would be if it had never come; and so they are
whatever a `GET` has been told. Only the rotation that finds its token reused commits before it
refuses.
-/
namespace LibraryPlatform

open KeyedTable Transaction

/-- What a rotation raises that has revoked the family of a reused token. -/
def reuseDetected : Exc := .application .tokenRevoked
  (some "This token session has been revoked due to reuse detection. All family keys invalidated.")

/-- The exceptions that a visit may raise when it has committed. -/
def Visit.Admits : Visit → Exc → Prop
  | .sign _ (.refreshToken _ _) => fun e => e = reuseDetected
  | _ => fun _ => False

def Visit.isInquiry : Visit → Bool
  | .ask _ _ _ _ => true
  | _ => false

/-- The visit may have changed the store: it writes and has been answered, or is a rotation that
has found its token reused, or has been aborted and may have found so before. -/
def Visit.Effective (v : Visit) (t : Txn DB RowKey Row Event Exc Response) : Prop :=
  v.isInquiry = false ∧ t.Settled v.Admits

variable {n : Nat} {api : Api} {visits : Fin n → Visit} {s₀ : DB} {s s' : Traffic n}

/-! ## What a visit commits, and when -/

theorem insertRefreshToken_commitFree (r : RefreshToken) : (insertRefreshToken r).CommitFree :=
  trivial

theorem revokeAll_commitFree (toks : List RefreshToken) :
    (AuthService.revokeAll toks).CommitFree := by
  induction toks with
  | nil => trivial
  | cons t rest ih => exact ih

theorem login_commitFree (svc : AuthService) (env : AuthEnv) (email password : String)
    (client : ClientMetadata) : (svc.login env email password client).CommitFree := by
  refine Prog.CommitFree.bind (p := UserRepository.getByEmail email)
    (fun _ => scalarOneOrNone_commitFree _) fun _ => ?_
  refine orRaise_commitFree.bind fun user => raiseIf_commitFree.bind fun _ => ?_
  exact raiseIf_commitFree.bind fun _ => (insertRefreshToken_commitFree _).bind fun _ => trivial

theorem logout_commitFree (svc : AuthService) (raw : String) : (svc.logout raw).CommitFree := by
  refine Prog.CommitFree.bind (p := RefreshTokenRepository.getByTokenHash _)
    (fun _ => scalarOneOrNone_commitFree _) fun o => ?_
  cases o with
  | some t => exact revokeAll_commitFree _
  | none => trivial

theorem refreshToken_settles (svc : AuthService) (env : AuthEnv) (raw : String)
    (client : ClientMetadata) :
    (svc.refreshToken env raw client).Settles (fun e => e = reuseDetected) true := by
  refine Prog.CommitFree.settles_bind (p := RefreshTokenRepository.getByTokenHash _)
    (fun _ => scalarOneOrNone_commitFree _) fun _ => ?_
  refine Prog.CommitFree.settles_bind orRaise_commitFree fun token => ?_
  split
  · refine Prog.CommitFree.settles_bind (p := RefreshTokenRepository.getFamily _)
      (fun _ => trivial) fun _ => ?_
    refine Prog.CommitFree.settles_bind (revokeAll_commitFree _) fun _ => ?_
    exact ⟨fun h => Bool.noConfusion h, fun _ => ⟨_, rfl, rfl⟩⟩
  · split
    · exact Prog.CommitFree.settles ((revokeAll_commitFree _).bind fun _ => trivial)
    · refine Prog.CommitFree.settles (Prog.CommitFree.bind (p := UserRepository.getById _)
        (fun _ => trivial) fun _ => orRaise_commitFree.bind fun user => ?_)
      refine raiseIf_commitFree.bind fun _ => (revokeAll_commitFree _).bind fun _ => ?_
      exact (insertRefreshToken_commitFree _).bind fun _ => trivial

/-- Before its service is called a request has written nothing. -/
theorem handle_settles {E : Exc → Prop} {now : Int}
    {credentials : Option HTTPAuthorizationCredentials} {env : Env} {route : Route} :
    (api.handle now credentials env route).Settles E true := by
  refine Prog.ReadOnly.settles_bind (api.dispatch_readOnly route) fun op => ?_
  have hop : ∀ b, (op.run api.reservations env).Settles E b :=
    fun b => (op_commitFree _ _ op).settles
  unfold transactional
  cases route.inTransaction with
  | false => exact hop true
  | true => exact ⟨fun _ => hop true, fun h => Bool.noConfusion h⟩

theorem Visit.run_settles {v : Visit} (h : v.isInquiry = false) :
    (v.run api).Settles v.Admits true := by
  cases v with
  | write => exact handle_settles.bind fun _ => trivial
  | sign env op =>
    cases op with
    | login email password client =>
      exact Prog.CommitFree.settles ((login_commitFree _ _ _ _ _).bind fun _ => trivial)
    | refreshToken raw client => exact (refreshToken_settles _ _ _ _).bind fun _ => trivial
    | logout raw => exact Prog.CommitFree.settles ((logout_commitFree _ _).bind fun _ => trivial)
  | ask => cases h

theorem Visit.run_readOnly {v : Visit} (h : v.isInquiry = true) : (v.run api).ReadOnly := by
  cases v with
  | ask now credentials env inquiry => exact (Api.answer_readOnly inquiry).bind fun _ => trivial
  | write | sign => cases h

/-! ## Any run -/

/-- A move of a visit leaves the store alone, or has an effect that stays. -/
theorem effective_move (h : Sys.Reach Sys.Any (Traffic.start api visits s₀) s) {i : Fin n}
    {m : Move RowKey} (hs : s.step i m = some s') :
    (s'.db = s.db ∨ (visits i).Effective (s'.txn i)) ∧
      ((visits i).Effective (s.txn i) → (visits i).Effective (s'.txn i)) := by
  have hi : (Traffic.start api visits s₀).txn i = .running ((visits i).run api) .init := rfl
  refine ⟨?_, fun heff => ⟨heff.1, Sys.settled_step heff.2 hs⟩⟩
  cases hv : (visits i).isInquiry with
  | true => exact .inl (Sys.reader_step (Visit.run_readOnly hv) hi h hs)
  | false =>
    rcases Sys.blank_or_settled hi (Visit.run_settles hv) h with hblank | hset
    · exact (Sys.blank_step hblank hs).imp And.left fun hset => ⟨hv, hset⟩
    · exact .inr ⟨hv, Sys.settled_step hset hs⟩

/-- What a visit is refused has had no effect. -/
theorem Visit.refused {v : Visit} {e : Exc} (he : e ≠ reuseDetected) :
    ¬v.Effective (.ended (.raised e)) := by
  rintro ⟨_, hset⟩
  cases hset with
  | raised hadmits =>
    cases v with
    | sign env op =>
      cases op with
      | refreshToken => exact he hadmits
      | login | logout => exact hadmits
    | write | ask => exact hadmits

/-- However the requests are interleaved: only those change the store that write and are answered,
or that find their token reused; and whoever does not change it can be left out. The same schedule
without their moves runs to the same store, with the others where they were and answered alike. -/
theorem only_effects_leave_a_trace {moves : List (Fin n × Move RowKey)}
    (h : (Traffic.start api visits s₀).runs moves = some s) :
    (∀ i, (Traffic.start api visits s₀).Changes i moves → (visits i).Effective (s.txn i)) ∧
    ∀ kept : Fin n → Bool, (∀ i, (Traffic.start api visits s₀).Changes i moves → kept i) →
      ∃ t, (Traffic.start api visits s₀).runs (moves.filter fun m => kept m.1) = some t ∧
        t.db = s.db ∧ ∀ i, kept i → t.txn i = s.txn i := by
  refine ⟨fun i hi => ?_, fun kept hkept => Sys.runs_without (fun _ => rfl) hkept h⟩
  exact Sys.changes_marked (fun i => (visits i).Effective)
    (fun hr hs => (effective_move hr hs).2) (fun hr hs => (effective_move hr hs).1) .refl h hi

/-- The member asks for the book once more while somebody brings it back. -/
def demoImpatient : Fin 2 → Visit
  | 0 => .write 2 none (demoEnv 0 (2 * hour)) (.returnBook 100)
  | 1 => .write 2 (demoBearer "member") (demoEnv 101 (2 * hour))
    (.borrowBook "00000000-0000-0000-0000-000000000001")

/-- The return waits for the lock of the book, and finds it free when the member is refused. -/
def demoBlocked (i j : Fin 2) : List (Fin 2 × Move RowKey) :=
  List.replicate 3 (j, .run) ++ [(j, .acquire (.member 11)), (j, .run), (j, .run),
    (j, .acquire (.book 1)), (i, .run), (i, .acquire (.borrowRecord 100)), (i, .run), (j, .run),
    (j, .run), (i, .acquire (.book 1))] ++ List.replicate 3 (i, .run)

theorem only_effects_leave_a_trace_demo :
    ∃ s t, (Traffic.start demoApi demoImpatient demoLoaned).runs (demoBlocked 0 1) = some s ∧
      (s.txn 0).hasReturned ∧ (s.txn 1).error = some (.application .bookUnavailable none) ∧
      (Traffic.start demoApi demoImpatient demoLoaned).runs
        ((demoBlocked 0 1).filter fun m => m.1 = 0) = some t ∧
      t.db = s.db ∧ t.txn 0 = s.txn 0 := by
  have hruns : ((Traffic.start demoApi demoImpatient demoLoaned).runs
      (demoBlocked 0 1)).any fun s =>
      (s.txn 0).hasReturned ∧
      (s.txn 1).error = some (.application .bookUnavailable none) := by decide
  obtain ⟨s, hs, hend⟩ := (Option.any_eq_true _ _).mp hruns
  obtain ⟨hreturned, herror⟩ := of_decide_eq_true hend
  obtain ⟨heffective, hothers⟩ := only_effects_leave_a_trace hs
  have hone : ∀ i, (Traffic.start demoApi demoImpatient demoLoaned).Changes i (demoBlocked 0 1) →
      decide (i = 0) := by
    refine Fin.forall_fin_two.mpr ⟨fun _ => rfl, fun hi => ?_⟩
    have heff := heffective 1 hi
    rw [Txn.error_eq_some.mp herror] at heff
    exact absurd heff (Visit.refused (by decide))
  obtain ⟨t, ht, hdb, hsame⟩ := hothers (fun i => i = 0) hone
  exact ⟨s, t, hs, hreturned, herror, ht, hdb, hsame 0 (by decide)⟩

end LibraryPlatform

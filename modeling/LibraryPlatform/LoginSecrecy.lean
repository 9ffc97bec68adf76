import LibraryPlatform.TokenFamilies

/-!
# What a failed login tells

A login without the password is to tell nothing about the account. The status of the account
is checked before the password, and an account that is not active answers for itself.
-/
namespace LibraryPlatform

open KeyedTable Transaction

/-- `o` is the account registered under the address, if there is one. -/
def DB.Registered (s : DB) (email : String) (o : Option User) : Prop :=
  s.users.rows.filter (fun u => s.weight u.email = s.weight email) = o.toList

/-- The states differ at most in the account registered under the address. -/
structure DiffersOnlyAt (email : String) (s s' : DB) : Prop where
  frame : s' = { s with users := s'.users }
  others : ∀ u : User, s.weight u.email ≠ s.weight email → (u ∈ s.users.rows ↔ u ∈ s'.users.rows)

/-- There is an account, and it is not active. -/
def LockedOut (o : Option User) : Prop := ∃ u, o = some u ∧ u.status ≠ .active

variable {svc : AuthService} {env env' : AuthEnv} {email password : String}
  {client : ClientMetadata} {s s' : DB} {o o' : Option User}

theorem exec_getByEmail (h : s.Registered email o) (base : DB) :
    (UserRepository.getByEmail email).exec base s = (.ok o, base, s) := by
  refine Prog.exec_bind_ok (a := o.toList) (by rw [← h]; rfl) ?_
  cases o with
  | none => rfl
  | some u => rfl

/-- An account that is not active is refused before its password is looked at. -/
theorem call_login_locked (h : s.Registered email o) (hlocked : LockedOut o) :
    call (svc.login env email password client) s =
      (.error (.application .inactiveUser none), s) := by
  obtain ⟨u, rfl, hstatus⟩ := hlocked
  have hexec : (svc.login env email password client).exec s s =
      (.error (.application .inactiveUser none), s, s) := by
    refine Prog.exec_bind_ok (exec_getByEmail h s) (Prog.exec_bind_ok rfl ?_)
    exact Prog.exec_bind_error (exec_raiseIf_error hstatus)
  exact call_error hexec

theorem call_login_failed (h : s.Registered email o) (hopen : ¬LockedOut o)
    (hpassword : ∀ u, o = some u → svc.verifyPassword password u.passwordHash = false) :
    call (svc.login env email password client) s =
      (.error (.application .invalidCredentials none), s) := by
  have hexec : (svc.login env email password client).exec s s =
      (.error (.application .invalidCredentials none), s, s) := by
    refine Prog.exec_bind_ok (exec_getByEmail h s) ?_
    cases o with
    | none => exact Prog.exec_bind_error rfl
    | some u =>
      have hactive : ¬u.status ≠ .active := fun hstatus => hopen ⟨u, rfl, hstatus⟩
      refine Prog.exec_bind_ok rfl (Prog.exec_bind_ok (exec_raiseIf hactive) ?_)
      exact Prog.exec_bind_error (exec_raiseIf_error (by simp [hpassword u rfl]))
  exact call_error hexec

/-- Two logins are refused alike, and leave everything as it is. -/
def RefusedAlike (svc : AuthService) (env env' : AuthEnv) (email password : String)
    (client : ClientMetadata) (s s' : DB) : Prop :=
  ∃ e, call (svc.login env email password client) s = (.error e, s) ∧
    call (svc.login env' email password client) s' = (.error e, s')

/-- A login without the password does not tell two accounts apart, nor an account from none,
exactly when both are locked out or neither is. It changes nothing in any case. -/
theorem login_reveals_iff (h : s.Registered email o) (h' : s'.Registered email o')
    (hpassword : ∀ u, o = some u ∨ o' = some u →
      svc.verifyPassword password u.passwordHash = false) :
    (RefusedAlike svc env env' email password client s s' ↔ (LockedOut o ↔ LockedOut o')) ∧
    (call (svc.login env email password client) s).2 = s ∧
    (call (svc.login env' email password client) s').2 = s' := by
  have hopen : ¬LockedOut o → call (svc.login env email password client) s =
      (.error (.application .invalidCredentials none), s) :=
    fun hopen => call_login_failed h hopen fun u hu => hpassword u (.inl hu)
  have hopen' : ¬LockedOut o' → call (svc.login env' email password client) s' =
      (.error (.application .invalidCredentials none), s') :=
    fun hopen => call_login_failed h' hopen fun u hu => hpassword u (.inr hu)
  unfold RefusedAlike
  by_cases hl : LockedOut o <;> by_cases hl' : LockedOut o'
  · simp [call_login_locked h hl, call_login_locked h' hl', hl, hl']
  · simp [call_login_locked h hl, hopen' hl', hl, hl']
  · simp [hopen hl, call_login_locked h' hl', hl, hl']
  · simp [hopen hl, hopen' hl', hl, hl']

/-- An active account refuses a wrong password as if it did not exist. -/
theorem login_reveals_demo :
    RefusedAlike demoAuth (demoAuthEnv 1 "a" 0) (demoAuthEnv 1 "a" 0) "eve@example.com" "guess"
      demoClient demoUsers (DB.empty .ignoringCase) := by
  have heve : demoUsers.Registered "eve@example.com"
    (some ⟨10, "eve@example.com", "SecurePassword123!", .member, .active⟩) := rfl
  have hnone : (DB.empty .ignoringCase).Registered "eve@example.com" none := rfl
  refine (login_reveals_iff heve hnone ?_).1.mpr ?_
  · rintro u (hu | hu)
    · obtain rfl := Option.some.inj hu
      decide
    · cases hu
  · simp [LockedOut]

/-- The account of the demonstration, suspended. -/
def demoSuspended : DB :=
  { DB.empty .ignoringCase with
    users := Table.empty.put ⟨10, "eve@example.com", "SecurePassword123!", .member, .suspended⟩ }

/-- Whoever guesses learns that there is a suspended account. -/
theorem suspension_revealed :
    ¬∀ (email password : String) s s' o o', DiffersOnlyAt email s s' → s.Registered email o →
      s'.Registered email o' → (∀ u, o = some u ∨ o' = some u →
        demoAuth.verifyPassword password u.passwordHash = false) →
      ∀ env client, RefusedAlike demoAuth env env email password client s s' := by
  intro hclaim
  have hdiffers : DiffersOnlyAt "eve@example.com" (.empty .ignoringCase) demoSuspended := by
    refine ⟨rfl, fun u hu => ⟨fun h => (by cases h), fun h => ?_⟩⟩
    obtain rfl := List.mem_singleton.mp h
    exact absurd rfl hu
  obtain ⟨e, hnone, hsuspended⟩ := hclaim "eve@example.com" "guess" (.empty .ignoringCase)
    demoSuspended none (some ⟨10, "eve@example.com", "SecurePassword123!", .member, .suspended⟩)
    hdiffers rfl rfl
    (by
      rintro u (hu | hu)
      · cases hu
      · obtain rfl := Option.some.inj hu
        decide)
    (demoAuthEnv 1 "a" 0) demoClient
  have hsame :
      (call (demoAuth.login (demoAuthEnv 1 "a" 0) "eve@example.com" "guess" demoClient)
        (DB.empty .ignoringCase)).1 =
      (call (demoAuth.login (demoAuthEnv 1 "a" 0) "eve@example.com" "guess" demoClient)
        demoSuspended).1 := by
    rw [hnone, hsuspended]
  exact absurd hsame (by decide)

end LibraryPlatform

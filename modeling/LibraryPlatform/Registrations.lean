import LibraryPlatform.Authority
import LibraryPlatform.Refusals
import LibraryPlatform.Registration

/-!
# Registrations at one time

Nothing locks an address between the check and the insertion, so it is the unique
indexes that decide whose account it becomes.
-/
namespace LibraryPlatform

open KeyedTable Transaction

/-! ## What the tables promise -/

namespace Registry

/-- Each unique index agrees with its table, and each profile is one of an account. -/
structure Indexed (collation : Collation) (s : Registry) : Prop where
  emails : Indexes s.emails s.users fun u => collation.weight u.email
  membershipNumbers : Indexes s.membershipNumbers s.members
    fun m => collation.weight m.membershipNumber
  memberUsers : Indexes s.memberUsers s.members fun m => m.userId
  owned : ∀ m ∈ s.members.rows, s.users.get m.userId ≠ none

/-- No two accounts have one address as its column compares addresses, no two profiles one number or
one account, and each profile has its account. -/
structure Distinct (collation : Collation) (s : Registry) : Prop where
  emails : ∀ u ∈ s.users.rows, ∀ v ∈ s.users.rows,
    collation.weight u.email = collation.weight v.email → u = v
  membershipNumbers : ∀ m ∈ s.members.rows, ∀ m' ∈ s.members.rows,
    collation.weight m.membershipNumber = collation.weight m'.membershipNumber → m = m'
  memberUsers : ∀ m ∈ s.members.rows, ∀ m' ∈ s.members.rows, m.userId = m'.userId → m = m'
  owned : ∀ m ∈ s.members.rows, ∃ u ∈ s.users.rows, m.userId = u.id

/-- Rows are only added. -/
structure Grows (s t : Registry) : Prop where
  users : ∀ u ∈ s.users.rows, u ∈ t.users.rows
  members : ∀ m ∈ s.members.rows, m ∈ t.members.rows

theorem Grows.refl (s : Registry) : Grows s s := ⟨fun _ h => h, fun _ h => h⟩

theorem Grows.trans {s t u : Registry} (h : Grows s t) (h' : Grows t u) : Grows s u :=
  ⟨fun x hx => h'.users x (h.users x hx), fun x hx => h'.members x (h.members x hx)⟩

variable {collation : Collation} {s : Registry} {u : Account} {m : Membership}

theorem Indexed.empty (collation : Collation) : Registry.empty.Indexed collation :=
  ⟨.empty _, .empty _, .empty _, by simp [Registry.empty, Table.empty]⟩

theorem Indexed.distinct (h : s.Indexed collation) : s.Distinct collation where
  emails _ hu _ hv := h.emails.injective hu hv
  membershipNumbers _ hm _ hm' := h.membershipNumbers.injective hm hm'
  memberUsers _ hm _ hm' := h.memberUsers.injective hm hm'
  owned m hm := by
    obtain ⟨u, hu⟩ := Option.ne_none_iff_exists'.mp (h.owned m hm)
    exact ⟨u, Table.mem_of_get hu, (Table.key_of_get hu).symm⟩

theorem mem_users_add {v : Account} (h : s.Admits collation u m) :
    v ∈ (s.add collation u m).users.rows ↔ v = u ∨ v ∈ s.users.rows := Table.mem_put_fresh h.user

theorem mem_members_add {v : Membership} (h : s.Admits collation u m) :
    v ∈ (s.add collation u m).members.rows ↔ v = m ∨ v ∈ s.members.rows :=
  Table.mem_put_fresh h.member

theorem Admits.grows (h : s.Admits collation u m) : Grows s (s.add collation u m) :=
  ⟨fun _ hv => (mem_users_add h).mpr (.inr hv), fun _ hv => (mem_members_add h).mpr (.inr hv)⟩

theorem Indexed.add (hs : s.Indexed collation) (h : s.Admits collation u m) (hm : m.userId = u.id) :
    (s.add collation u m).Indexed collation where
  emails := hs.emails.insert h.user h.email
  membershipNumbers := hs.membershipNumbers.insert h.member h.membershipNumber
  memberUsers := hs.memberUsers.insert h.member h.memberUser
  owned := by
    intro v hv hnone
    have hfree := Table.get_eq_none.mp hnone
    rcases (mem_members_add h).mp hv with rfl | hv
    · exact hfree u ((mem_users_add h).mpr (.inl rfl)) hm.symm
    · obtain ⟨x, hx⟩ := Option.ne_none_iff_exists'.mp (hs.owned v hv)
      exact hfree x ((mem_users_add h).mpr (.inr (Table.mem_of_get hx))) (Table.key_of_get hx)

end Registry

/-- Somebody has the address. -/
def Registry.Taken (collation : Collation) (weight : List Nat) (s : Registry) : Prop :=
  ∃ u ∈ s.users.rows, collation.weight u.email = weight

/-! ## One request -/

/-- No account has the key, and no profile the key or the number. -/
structure Registry.Spare (collation : Collation) (u : Account) (m : Membership) (s : Registry) :
    Prop where
  user : ∀ v ∈ s.users.rows, v.id ≠ u.id
  member : ∀ v ∈ s.members.rows, v.id ≠ m.id
  membershipNumber : ∀ v ∈ s.members.rows,
    collation.weight v.membershipNumber ≠ collation.weight m.membershipNumber

section

variable {collation : Collation} {s : Registry} {u : Account} {m : Membership}

theorem Registry.Indexed.admits_iff (hs : s.Indexed collation) (hm : m.userId = u.id) :
    s.Admits collation u m ↔
      ¬s.Taken collation (collation.weight u.email) ∧ s.Spare collation u m := by
  constructor
  · intro h
    refine ⟨?_, Table.get_eq_none.mp h.user, Table.get_eq_none.mp h.member,
      hs.membershipNumbers.get_eq_none.mp h.membershipNumber⟩
    rintro ⟨v, hv, hweight⟩
    exact hs.emails.get_eq_none.mp h.email v hv hweight
  · rintro ⟨htaken, h⟩
    refine ⟨Table.get_eq_none.mpr h.user, ?_, Table.get_eq_none.mpr h.member,
      hs.membershipNumbers.get_eq_none.mpr h.membershipNumber, ?_⟩
    · exact hs.emails.get_eq_none.mpr fun v hv hweight => htaken ⟨v, hv, hweight⟩
    · -- a profile of the account would have its owner
      refine hs.memberUsers.get_eq_none.mpr fun v hv huser => ?_
      obtain ⟨x, hx, howner⟩ := hs.distinct.owned v hv
      exact h.user x hx (howner.symm.trans (huser.trans hm))

theorem withEmail_eq (hs : s.Indexed collation) (email : String) :
    (s.Taken collation (collation.weight email) ∧ ∃ u, s.withEmail collation email = [u]) ∨
    (¬s.Taken collation (collation.weight email) ∧ s.withEmail collation email = []) := by
  by_cases h : s.Taken collation (collation.weight email)
  · refine .inl ⟨h, ?_⟩
    obtain ⟨u, hu, hweight⟩ := h
    refine ⟨u, Table.filter_eq_singleton hu (by simpa using hweight) fun v hv hv' => ?_⟩
    exact hs.distinct.emails v hv u hu ((by simpa using hv' : _ = _).trans hweight.symm)
  · refine .inr ⟨h, List.filter_eq_nil_iff.mpr fun v hv hweight => h ⟨v, hv, ?_⟩⟩
    simpa using hweight

/-- Alone on the tables, a registration is refused for its address exactly when somebody has it,
and answered exactly when nobody has it, the texts fit their columns, and neither the new keys nor
the new number are taken. A refused one changes nothing. -/
theorem register_answers (hs : s.Indexed collation) (env : RegisterEnv)
    (dto : UserRegisterRequest) :
    ((call (register collation env dto) s).1 = .error (.application .emailAlreadyExists none) ↔
      s.Taken collation (collation.weight dto.email)) ∧
    ((∃ a, (call (register collation env dto) s).1 = .ok a) ↔
      ¬s.Taken collation (collation.weight dto.email) ∧
      Fits (env.account dto) env.membership ∧
      s.Spare collation (env.account dto) env.membership) ∧
    ∀ e, (call (register collation env dto) s).1 = .error e →
      (call (register collation env dto) s).2 = s := by
  have hw : wp (alone s) (Contract.plain : Contract Registry RegistryKey Unit)
    (register collation env dto) _ .init s := wp_register
  have hraised : ∀ e, (call (register collation env dto) s).1 = .error e →
      (call (register collation env dto) s).2 = s := fun e he => call_raised hw (Prod.ext he rfl)
  rcases withEmail_eq hs dto.email with ⟨htaken, u, hu⟩ | ⟨hfree, hnone⟩
  · have hcall : call (register collation env dto) s =
        (.error (.application .emailAlreadyExists none), s) := by
      simp only [register, call, Prog.exec, hu]
    refine ⟨by simp [hcall, htaken], ?_, hraised⟩
    rw [hcall]
    simp [htaken]
  · obtain ⟨hok, herror⟩ := insertions_end collation (env.account dto)
      (show env.membership.userId = (env.account dto).id from rfl) s rfl
    have hcall : call (register collation env dto) s = call (do
        insertUser collation (env.account dto)
        insertMember collation env.membership
        pure (env.account dto)) s := by
      unfold register
      simp only [call, Prog.exec, hnone]
    rw [← hcall, hs.admits_iff rfl] at hok
    rw [← hcall] at herror
    refine ⟨?_, hok.trans (by simp [hfree, RegisterEnv.account]), hraised⟩
    simp only [hfree, iff_false]
    intro he
    obtain ⟨d, hd⟩ := herror _ he
    cases hd

/-- Eve has registered. -/
def demoEve : Registry :=
  (call (register .ignoringCase ⟨0, 10, 11, 0, id⟩
    ⟨"Eve", "eve@example.com", "SecurePassword123!"⟩) .empty).2

theorem demoEve_indexed : demoEve.Indexed .ignoringCase :=
  (Registry.Indexed.empty .ignoringCase).add (u := (RegisterEnv.account ⟨0, 10, 11, 0, id⟩
    ⟨"Eve", "eve@example.com", "SecurePassword123!"⟩)) (m := RegisterEnv.membership
      ⟨0, 10, 11, 0, id⟩) ⟨rfl, rfl, rfl, rfl, rfl⟩ rfl

/-- Her address in other letters is her address. -/
theorem register_answers_demo :
    (call (register .ignoringCase ⟨0, 20, 21, 2 ^ 124, id⟩
      ⟨"Eva", "Eve@example.com", "SecurePassword456!"⟩) demoEve).1 =
        .error (.application .emailAlreadyExists none) := by
  have htaken : demoEve.users.rows.any fun u =>
      Collation.ignoringCase.weight u.email =
        Collation.ignoringCase.weight "Eve@example.com" := by decide
  obtain ⟨u, hu, hweight⟩ := List.any_eq_true.mp htaken
  exact (register_answers demoEve_indexed _ _).1.mpr ⟨u, hu, of_decide_eq_true hweight⟩

end

/-! ## The run -/

/-- A request to register. -/
structure SignUp where
  env : RegisterEnv
  dto : UserRegisterRequest

def SignUp.account (c : SignUp) : Account := c.env.account c.dto

variable {n : Nat} {collation : Collation} {calls : Fin n → SignUp} {s₀ t u : Registry}
  {s : Sys Registry RegistryKey RegistryRow Empty Exc Account n}

/-- Registrations, none of which has done anything yet. -/
def signUps (collation : Collation) (calls : Fin n → SignUp) (s : Registry) :
    Sys Registry RegistryKey RegistryRow Empty Exc Account n :=
  Sys.start s fun i => register collation (calls i).env (calls i).dto

/-- What was there is there, and what is new is whole: an account of a request with its profile. -/
structure Whole (calls : Fin n → SignUp) (s₀ s : Registry) : Prop where
  grows : s₀.Grows s
  users : ∀ u ∈ s.users.rows, u ∈ s₀.users.rows ∨
    ∃ i, u = (calls i).account ∧ (calls i).env.membership ∈ s.members.rows
  members : ∀ m ∈ s.members.rows, m ∈ s₀.members.rows ∨
    ∃ i, m = (calls i).env.membership ∧ (calls i).account ∈ s.users.rows

def registering (collation : Collation) (calls : Fin n → SignUp) (s₀ : Registry) :
    Discipline Registry RegistryKey where
  inv s := s.Indexed collation ∧ Whole calls s₀ s
  rely _ := Registry.Grows
  refl _ := .refl
  trans := .trans
  anti _ h := h

/-- The request adds its account and its profile, which nothing stood in the way of. -/
structure SignUp.Registers (collation : Collation) (c : SignUp) (s t : Registry) : Prop where
  admits : s.Admits collation c.account c.env.membership
  stored : t = s.add collation c.account c.env.membership

def SignUp.contract (D : Discipline Registry RegistryKey) (collation : Collation) (c : SignUp) :
    Contract Registry RegistryKey Account where
  publish o _ s t := o = some c.account ∧ D.inv s ∧ c.Registers collation s t
  guard _ _ _ := True
  point _ _ _ := True

namespace SignUp.Registers

variable {c : SignUp} {i : Fin n}

theorem grows (h : c.Registers collation t u) : t.Grows u := h.stored ▸ h.admits.grows

theorem account (h : c.Registers collation t u) : c.account ∈ u.users.rows :=
  h.stored ▸ (Registry.mem_users_add h.admits).mpr (.inl rfl)

theorem membership (h : c.Registers collation t u) : c.env.membership ∈ u.members.rows :=
  h.stored ▸ (Registry.mem_members_add h.admits).mpr (.inl rfl)

/-- Nobody had the address. -/
theorem free (h : c.Registers collation t u) (ht : t.Indexed collation) :
    ∀ v ∈ t.users.rows, collation.weight v.email ≠ collation.weight c.dto.email :=
  ht.emails.get_eq_none.mp h.admits.email

theorem whole (h : (calls i).Registers collation t u) (ht : Whole calls s₀ t) :
    Whole calls s₀ u where
  grows := ht.grows.trans h.grows
  users := by
    intro v hv
    rw [h.stored, Registry.mem_users_add h.admits] at hv
    rcases hv with rfl | hv
    · exact .inr ⟨i, rfl, h.membership⟩
    · exact (ht.users v hv).imp_right fun ⟨j, hj, hm⟩ => ⟨j, hj, h.grows.members _ hm⟩
  members := by
    intro v hv
    rw [h.stored, Registry.mem_members_add h.admits] at hv
    rcases hv with rfl | hv
    · exact .inr ⟨i, rfl, h.account⟩
    · exact (ht.members v hv).imp_right fun ⟨j, hj, hu⟩ => ⟨j, hj, h.grows.users _ hu⟩

end SignUp.Registers

/-- The contract of a request of the run. -/
def registers (collation : Collation) (calls : Fin n → SignUp) (s₀ : Registry) (i : Fin n) :
    Contract Registry RegistryKey Account :=
  (calls i).contract (registering collation calls s₀) collation

theorem registering_lawful (i : Fin n) :
    Lawful (registering collation calls s₀) (registers collation calls s₀ i) := by
  rintro o L s t ⟨_, _, h⟩ hs
  refine ⟨⟨?_, h.whole hs.2⟩, fun _ _ => h.grows⟩
  rw [h.stored]
  exact hs.1.add h.admits rfl

theorem registering_start (h₀ : s₀.Indexed collation) :
    Sys.Good (registering collation calls s₀) (registers collation calls s₀)
      (signUps collation calls s₀) := by
  refine Sys.good_start ⟨h₀, .refl s₀, fun _ h => .inl h, fun _ h => .inl h⟩
    fun i => wp_mono ?_ wp_register
  intro a l s h t ht
  obtain ⟨rfl, hadmits, hstored⟩ := h t ht
  exact ⟨rfl, ht.inv, hadmits, hstored⟩

theorem registering_unguarded {s s' : Sys Registry RegistryKey RegistryRow Empty Exc Account n}
    (h : Sys.Reach Sys.Any s s') : Sys.Reach (Sys.Guarded (registers collation calls s₀)) s s' :=
  h.mono fun _ _ _ _ _ _ _ _ _ _ => trivial

theorem registering_good (h₀ : s₀.Indexed collation)
    (h : Sys.Reach Sys.Any (signUps collation calls s₀) s) :
    Sys.Good (registering collation calls s₀) (registers collation calls s₀) s :=
  Sys.good_of_reach registering_lawful (registering_start h₀) (registering_unguarded h)

/-- A request that is answered has made its account, under an address that nobody had. -/
theorem registered (h₀ : s₀.Indexed collation)
    (h : Sys.Reach Sys.Any (signUps collation calls s₀) s) {i : Fin n} {a : Account}
    (ha : s.txn i = .ended (.returned a)) :
    a = (calls i).account ∧ a ∈ s.db.users.rows ∧ (calls i).env.membership ∈ s.db.members.rows ∧
    ∀ u ∈ s₀.users.rows, collation.weight u.email ≠ collation.weight a.email := by
  obtain ⟨L, t, u, ⟨ho, ht, hr⟩, hu⟩ := (registering_good h₀ h).ended i a ha
  cases ho
  exact ⟨rfl, hu.users _ hr.account, hu.members _ hr.membership,
    fun v hv => hr.free ht.1 v (ht.2.grows.users v hv)⟩

theorem registered_once (h₀ : s₀.Indexed collation)
    (h : Sys.Reach Sys.Any (signUps collation calls s₀) s) {i j : Fin n} {a b : Account}
    (ha : s.txn i = .ended (.returned a)) (hb : s.txn j = .ended (.returned b))
    (hsame : collation.weight a.email = collation.weight b.email) : i = j := by
  obtain ⟨rfl, _⟩ := registered h₀ h ha
  obtain ⟨rfl, _⟩ := registered h₀ h hb
  refine ((registering_start h₀).one_return_among registering_lawful
    (I := fun k => collation.weight (calls k).dto.email = collation.weight (calls i).dto.email)
    (P := Registry.Taken collation (collation.weight (calls i).dto.email)) ?_ ?_ ?_
    (registering_unguarded h)).2 i j rfl hsame.symm _ _ ha hb
  · rintro s t hgrows ⟨u, hu, hweight⟩
    exact ⟨u, hgrows.users u hu, hweight⟩
  · rintro k hk a L s t ⟨_, _, hr⟩ hs
    refine ⟨?_, _, hr.account, hk⟩
    rintro ⟨u, hu, hweight⟩
    exact hr.free hs.1 u hu (hweight.trans hk.symm)
  · rintro k a ⟨⟩

/-- However registrations are interleaved, no two accounts have one address, and no two profiles one
number or one account. Of the requests for an address at most one
is answered, none if somebody had it before; its account and its profile are stored, and nothing
else is written. -/
theorem addresses_taken_once (h₀ : s₀.Indexed collation)
    (h : Sys.Reach Sys.Any (signUps collation calls s₀) s) :
    s.db.Distinct collation ∧ Whole calls s₀ s.db ∧
    (∀ i a, s.txn i = .ended (.returned a) → a = (calls i).account ∧ a ∈ s.db.users.rows ∧
      (calls i).env.membership ∈ s.db.members.rows ∧
      ∀ u ∈ s₀.users.rows, collation.weight u.email ≠ collation.weight a.email) ∧
    ∀ i j a b, s.txn i = .ended (.returned a) → s.txn j = .ended (.returned b) →
      collation.weight a.email = collation.weight b.email → i = j := by
  have hinv := (registering_good h₀ h).inv
  exact ⟨hinv.1.distinct, hinv.2, fun i a ha => registered h₀ h ha,
    fun i j a b ha hb hsame => registered_once h₀ h ha hb hsame⟩

def demoSignUps : Fin 2 → SignUp
  | 0 => ⟨⟨0, 10, 11, 0, id⟩, ⟨"Eve", "eve@example.com", "SecurePassword123!"⟩⟩
  | 1 => ⟨⟨0, 20, 21, 2 ^ 124, id⟩, ⟨"Eva", "Eve@example.com", "SecurePassword456!"⟩⟩

/-- Both requests find the address free, and the second one finds its entry taken. -/
def demoBoth (i j : Fin 2) : List (Fin 2 × Move RegistryKey) :=
  [(i, .run), (j, .run)] ++ List.replicate 6 (i, .run) ++ List.replicate 2 (j, .run)

theorem addresses_taken_once_demo :
    ∃ s, (signUps .ignoringCase demoSignUps .empty).runs (demoBoth 0 1) = some s ∧
      s.txn 0 = .ended (.returned (demoSignUps 0).account) ∧
      s.txn 1 = .ended (.raised (.database (.duplicateEntry "users.email"))) ∧
      s.db.users.rows = [(demoSignUps 0).account] ∧ s.db.Distinct .ignoringCase := by
  have hruns : ((signUps .ignoringCase demoSignUps .empty).runs (demoBoth 0 1)).any fun s =>
      (s.txn 0).result = some (demoSignUps 0).account ∧
      (s.txn 1).error = some (.database (.duplicateEntry "users.email")) ∧
      s.db.users.rows = [(demoSignUps 0).account] := by decide
  obtain ⟨s, hs, hend⟩ := (Option.any_eq_true _ _).mp hruns
  obtain ⟨hfirst, hsecond, hrows⟩ := of_decide_eq_true hend
  exact ⟨s, hs, Txn.result_eq_some.mp hfirst, Txn.error_eq_some.mp hsecond, hrows,
    (addresses_taken_once (.empty .ignoringCase) (Sys.reach_of_runs hs)).1⟩

/-! ## Registrations between other calls -/

/-- The two tables as the other requests read them. -/
def Registry.inside (reg : Registry) (s : DB) : DB :=
  { s with
    users := reg.users.map Account.toUser fun _ => rfl
    members := reg.members.map Membership.toMember fun _ => rfl }

theorem Registry.mem_inside_users {reg : Registry} {s : DB} {u : User} :
    u ∈ (reg.inside s).users.rows ↔ ∃ x ∈ reg.users.rows, x.toUser = u :=
  List.mem_map

theorem Registry.mem_inside_members {reg : Registry} {s : DB} {m : Member} :
    m ∈ (reg.inside s).members.rows ↔ ∃ x ∈ reg.members.rows, x.toMember = m :=
  List.mem_map

/-- The states of the serial runs of the operations from empty tables, between which any number of
registrations may be made at one time. -/
inductive Opened (svc : ReservationService) (collation : Collation) : Registry → DB → Prop
  | empty : Opened svc collation .empty (.empty collation)
  | call {reg : Registry} {s s' : DB} {op : Op} {r : Except Exc Reply} (env : Env) :
      Opened svc collation reg s → call (op.run svc env) s = (r, s') → Opened svc collation reg s'
  | registrations {n : Nat} {calls : Fin n → SignUp} {reg : Registry} {s : DB}
      {t : Sys Registry RegistryKey RegistryRow Empty Exc Account n} :
      Opened svc collation reg s → Sys.Reach Sys.Any (signUps collation calls reg) t →
      Opened svc collation t.db (t.db.inside s)

/-- Each account is an active one of a member, who has an active profile. -/
def Registry.Profiled (reg : Registry) : Prop :=
  ∀ u ∈ reg.users.rows, u.role = .member ∧ u.status = .active ∧
    ∃ m ∈ reg.members.rows, m.userId = u.id ∧ m.membershipStatus = .active

theorem Whole.profiled {n : Nat} {calls : Fin n → SignUp} {s₀ s : Registry}
    (h : Whole calls s₀ s) (h₀ : s₀.Profiled) : s.Profiled := by
  intro u hu
  rcases h.users u hu with hold | ⟨i, rfl, hm⟩
  · obtain ⟨hrole, hstatus, m, hm, huser⟩ := h₀ u hold
    exact ⟨hrole, hstatus, m, h.grows.members m hm, huser⟩
  · exact ⟨rfl, rfl, _, hm, rfl, rfl⟩

variable {svc : ReservationService} {reg : Registry} {s s' : DB}

theorem Registry.inside_congr (husers : s'.users = s.users) (hmembers : s'.members = s.members)
    (h : reg.inside s = s) : reg.inside s' = s' := by
  have hu : s.users = reg.users.map Account.toUser fun _ => rfl := congrArg DB.users h.symm
  have hm : s.members = reg.members.map Membership.toMember fun _ => rfl :=
    congrArg DB.members h.symm
  rw [hu] at husers
  rw [hm] at hmembers
  cases s'
  simp_all [Registry.inside]

/-- To the operations, registrations are requests that change accounts. -/
theorem Whole.accounts {n : Nat} {calls : Fin n → SignUp} {t : Registry} (h : Whole calls reg t)
    (hreg : reg.inside s = s) (hs : ∀ m ∈ s.members.rows, m.isDeleted = false) :
    s.Accounts (t.inside s) where
  frame := ⟨_, _, rfl⟩
  kept := by
    intro id hid
    rw [← hreg] at hid
    obtain ⟨m, hm⟩ := Option.ne_none_iff_exists'.mp hid
    obtain ⟨x, hx, rfl⟩ := Registry.mem_inside_members.mp (Table.mem_of_get hm)
    obtain rfl : x.id = id := Table.key_of_get hm
    have hnew : x.toMember ∈ (t.inside s).members.rows :=
      Registry.mem_inside_members.mpr ⟨x, h.grows.members x hx, rfl⟩
    exact Option.ne_none_iff_exists'.mpr ⟨_, Table.get_of_mem hnew⟩
  active := by
    intro m hm
    obtain ⟨x, hx, rfl⟩ := Registry.mem_inside_members.mp hm
    rcases h.members x hx with hold | ⟨i, rfl, _⟩
    · exact hs x.toMember (hreg ▸ Registry.mem_inside_members.mpr ⟨x, hold, rfl⟩)
    · rfl

theorem Opened.sound (h : Opened svc collation reg s) :
    Runs svc AnyOp s ∧ reg.inside s = s ∧ reg.Indexed collation ∧ reg.Profiled := by
  induction h with
  | empty =>
    exact ⟨.empty collation, rfl, .empty collation, by simp [Registry.Profiled, Registry.empty,
      Table.empty]⟩
  | call env _ hc ih =>
    obtain ⟨hruns, hinside, hrest⟩ := ih
    refine ⟨.call env hruns trivial hc, ?_, hrest⟩
    rcases call_op hc with ⟨_, _, he⟩ | ⟨_, _, rfl⟩
    · exact Registry.inside_congr (Op.Effect.users he) (Op.Effect.members he) hinside
    · exact hinside
  | registrations _ hr ih =>
    obtain ⟨hruns, hinside, hindexed, hprofiled⟩ := ih
    obtain ⟨hinv, hwhole⟩ := (registering_good hindexed hr).inv
    exact ⟨.accounts hruns (hwhole.accounts hinside (member_not_deleted hruns)), rfl, hinv,
      hwhole.profiled hprofiled⟩

/-- From empty tables on, through any calls of the operations with any registrations at one time
between them: the state is one of the serial runs, each account stands for exactly one member, each
member for an account, and no two accounts have one address. -/
theorem accounts_stand_for_members (h : Opened svc collation reg s) :
    Runs svc AnyOp s ∧ DistinctUsers s ∧
    (∀ u ∈ s.users.rows, ∀ v ∈ s.users.rows,
      collation.weight u.email = collation.weight v.email → u = v) ∧
    (∀ m ∈ s.members.rows, ∃ u ∈ s.users.rows, m.userId = u.id) ∧
    ∀ u ∈ s.users.rows, u.role = .member ∧ u.status = .active ∧ ∃ m, Represents s u m ∧
      m.membershipStatus = .active ∧ ∀ m', Represents s u m' → m' = m := by
  obtain ⟨hruns, hinside, hindexed, hprofiled⟩ := h.sound
  have hactive := member_not_deleted hruns
  have husers : ∀ u, u ∈ s.users.rows ↔ ∃ x ∈ reg.users.rows, x.toUser = u := by
    intro u
    rw [← hinside]
    exact Registry.mem_inside_users
  have hmembers : ∀ m, m ∈ s.members.rows ↔ ∃ x ∈ reg.members.rows, x.toMember = m := by
    intro m
    rw [← hinside]
    exact Registry.mem_inside_members
  have hdistinct : DistinctUsers s := by
    intro m hm m' hm' huser
    obtain ⟨x, hx, rfl⟩ := (hmembers m).mp hm
    obtain ⟨y, hy, rfl⟩ := (hmembers m').mp hm'
    rw [hindexed.distinct.memberUsers x hx y hy huser]
  refine ⟨hruns, hdistinct, fun u hu v hv hsame => ?_, fun m hm => ?_, fun u hu => ?_⟩
  · obtain ⟨x, hx, rfl⟩ := (husers u).mp hu
    obtain ⟨y, hy, rfl⟩ := (husers v).mp hv
    rw [hindexed.distinct.emails x hx y hy hsame]
  · obtain ⟨x, hx, rfl⟩ := (hmembers m).mp hm
    obtain ⟨y, hy, howner⟩ := hindexed.distinct.owned x hx
    exact ⟨y.toUser, (husers _).mpr ⟨y, hy, rfl⟩, howner⟩
  · obtain ⟨x, hx, rfl⟩ := (husers u).mp hu
    obtain ⟨hrole, hstatus, y, hy, huser, hmembership⟩ := hprofiled x hx
    have hm : y.toMember ∈ s.members.rows := (hmembers _).mpr ⟨y, hy, rfl⟩
    refine ⟨hrole, hstatus, y.toMember, ⟨Table.get_of_mem hm, huser, hactive _ hm⟩, hmembership,
      fun m' hm' => ?_⟩
    exact hdistinct _ (Table.mem_of_get hm'.1) _ hm (hm'.2.1.trans huser.symm)

/-- A book is registered and borrowed by the member with the key 11. -/
def demoBorrowing (reg : Registry) : DB :=
  (call ((Op.borrowBook 11 1).run demoApi.reservations (demoEnv 100 hour))
    (call ((Op.createBook "Emma" "Austen" "9780141439587" 1 none).run demoApi.reservations
      (demoEnv 1 0)) (reg.inside (.empty .ignoringCase))).2).2

/-- The member who has won the address borrows a book. -/
theorem accounts_stand_for_members_demo :
    ∃ reg, Opened demoApi.reservations .ignoringCase reg (demoBorrowing reg) ∧
      (demoBorrowing reg).borrowRecords.rows.length = 1 ∧
      ∃ m, Represents (demoBorrowing reg) (demoSignUps 0).account.toUser m := by
  have hruns : ((signUps .ignoringCase demoSignUps .empty).runs (demoBoth 0 1)).any fun t =>
      (demoSignUps 0).account.toUser ∈ (demoBorrowing t.db).users.rows ∧
      (demoBorrowing t.db).borrowRecords.rows.length = 1 := by decide
  obtain ⟨t, ht, hend⟩ := (Option.any_eq_true _ _).mp hruns
  obtain ⟨huser, hloan⟩ := of_decide_eq_true hend
  have hopened : Opened demoApi.reservations .ignoringCase t.db (demoBorrowing t.db) :=
    .call (demoEnv 100 hour) (.call (demoEnv 1 0)
      (.registrations .empty (Sys.reach_of_runs ht)) (Prod.mk.eta.symm)) (Prod.mk.eta.symm)
  obtain ⟨_, _, m, hm, _⟩ := (accounts_stand_for_members hopened).2.2.2.2 _ huser
  exact ⟨t.db, hopened, hloan, m, hm⟩

/-- From empty tables on, the number of each member names the year in which the member joined. -/
theorem numbers_name_year (h : Opened svc collation reg s) :
    ∀ m ∈ reg.members.rows, m.NamesYear := by
  induction h with
  | empty => simp [Registry.empty, Table.empty]
  | call _ _ _ ih => exact ih
  | registrations hopened hr ih =>
    intro m hm
    have hwhole := (registering_good hopened.sound.2.2.1 hr).inv.2
    rcases hwhole.members m hm with hold | ⟨i, rfl, _⟩
    · exact ih m hold
    · exact RegisterEnv.membership_namesYear _

/-- One registers in the last microsecond of a year, and one in the first of the next. -/
def demoMidnight : Fin 2 → SignUp
  | 0 => ⟨⟨365 * day - 1, 10, 11, 0, id⟩, ⟨"Eve", "eve@example.com", "SecurePassword123!"⟩⟩
  | 1 => ⟨⟨365 * day, 20, 21, 13 * 2 ^ 124, id⟩, ⟨"Ann", "ann@example.com", "SecurePassword456!"⟩⟩

def demoTurnOfYear (i j : Fin 2) : List (Fin 2 × Move RegistryKey) :=
  [(i, .run), (j, .run)] ++ List.replicate 6 (j, .run) ++ List.replicate 6 (i, .run)

theorem numbers_name_year_demo :
    ∃ reg s, Opened demoApi.reservations .ignoringCase reg s ∧
      reg.members.rows.map Membership.membershipNumber = ["LMP-1971-D00000", "LMP-1970-000000"] ∧
      ∀ m ∈ reg.members.rows, m.NamesYear := by
  have hruns : ((signUps .ignoringCase demoMidnight .empty).runs (demoTurnOfYear 0 1)).any fun t =>
      t.db.members.rows.map Membership.membershipNumber =
        ["LMP-1971-D00000", "LMP-1970-000000"] := by decide
  obtain ⟨t, ht, hend⟩ := (Option.any_eq_true _ _).mp hruns
  have hopened : Opened demoApi.reservations .ignoringCase t.db (t.db.inside (.empty _)) :=
    .registrations .empty (Sys.reach_of_runs ht)
  exact ⟨t.db, _, hopened, of_decide_eq_true hend, numbers_name_year hopened⟩

end LibraryPlatform

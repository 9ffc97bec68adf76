import LibraryPlatform.Dashboard
import LibraryPlatform.Exits
import LibraryPlatform.StatementRules
import LibraryPlatform.UniqueIndex

/-!
# Registration

`POST /auth/register` writes an account and its member profile. Both tables are here
with the columns that only a registration writes and with their unique indexes, since
what decides a race of two registrations is who inserts the entry first.
-/
namespace LibraryPlatform

open KeyedTable Transaction

/-! ## The tables -/

/-- A row of `users`. -/
structure Account extends User where
  name : String
  deriving DecidableEq

/-- A row of `members`. -/
structure Membership extends Member where
  membershipNumber : String
  joinedDate : Int
  deriving DecidableEq

instance : Keyed UUID Account := ⟨fun u => u.id⟩
instance : Keyed UUID Membership := ⟨fun m => m.id⟩

structure Registry where
  users : Table Account
  emails : Table (IndexEntry (List Nat) UUID)
  members : Table Membership
  membershipNumbers : Table (IndexEntry (List Nat) UUID)
  memberUsers : Table (IndexEntry UUID UUID)

inductive RegistryKey where
  | user (id : UUID)
  | email (value : List Nat)
  | member (id : UUID)
  | membershipNumber (value : List Nat)
  | memberUser (value : UUID)
  deriving DecidableEq

inductive RegistryRow where
  | user (r : Account)
  | member (r : Membership)
  | entry (row : UUID)

namespace Registry

def empty : Registry := ⟨.empty, .empty, .empty, .empty, .empty⟩

def row : RegistryKey → Registry → Option RegistryRow
  | .user id, s => (s.users.get id).map .user
  | .email v, s => (s.emails.get v).map fun e => .entry e.row
  | .member id, s => (s.members.get id).map .member
  | .membershipNumber v, s => (s.membershipNumbers.get v).map fun e => .entry e.row
  | .memberUser v, s => (s.memberUsers.get v).map fun e => .entry e.row

def put : RegistryKey → RegistryRow → Registry → Registry
  | .user id, .user r, s => { s with users := s.users.put { r with id := id } }
  | .email v, .entry i, s => { s with emails := s.emails.put ⟨v, i⟩ }
  | .member id, .member r, s => { s with members := s.members.put { r with id := id } }
  | .membershipNumber v, .entry i, s =>
    { s with membershipNumbers := s.membershipNumbers.put ⟨v, i⟩ }
  | .memberUser v, .entry i, s => { s with memberUsers := s.memberUsers.put ⟨v, i⟩ }
  | _, _, s => s

theorem row_put (k k' : RegistryKey) (r : RegistryRow) (s : Registry) (h : k' ≠ k) :
    row k' (put k r s) = row k' s := by
  cases k <;> cases r <;> first | rfl | skip
  all_goals
    cases k' <;> first | rfl | skip
    rename_i v _ v'
    have hne : v' ≠ v := by rintro rfl; exact h rfl
    simp only [row, put]
    rw [Table.get_put_other _ hne]

theorem row_congr (k k' : RegistryKey) (r : RegistryRow) (s t : Registry)
    (h : row k' s = row k' t) : row k' (put k r s) = row k' (put k r t) := by
  by_cases hk : k' = k
  · subst hk
    cases k' <;> cases r <;> first | exact h | simp only [row, put, Table.get_put]
    all_goals split <;> first | rfl | exact h
  · rw [row_put k k' r s hk, row_put k k' r t hk, h]

/-- Nothing is noted of a registration. -/
instance : Store Registry RegistryKey RegistryRow Empty where
  row := row
  put := put
  record := fun _ s => s
  row_put := row_put
  row_congr := row_congr
  row_record := fun _ _ _ => rfl

end Registry

/-! ## The service -/

/-- A program of registrations. -/
abbrev Rx (α : Type) := Prog Registry RegistryKey RegistryRow Empty Exc α

def checkUnique {ρ : Type} (key : String) (old : Option ρ) : Except Exc Unit :=
  if old.isNone then .ok () else .error (.database (.duplicateEntry key))

/-- The row, and the entry of UNIQUE(email). -/
def insertUser (collation : Collation) (u : Account) : Rx Unit :=
  .insert (.user u.id) (fun s => do
    checkLength "name" 255 u.name
    checkLength "email" 255 u.email
    checkLength "password_hash" 255 u.passwordHash
    checkFresh "users" (s.users.get u.id)
    pure (.user u)) <|
  .insert (.email (collation.weight u.email)) (fun s => do
    checkUnique "users.email" (s.emails.get (collation.weight u.email))
    pure (.entry u.id)) (.ret ())

/-- The row, and the entries of UNIQUE(membership_number) and UNIQUE(user_id). -/
def insertMember (collation : Collation) (m : Membership) : Rx Unit :=
  .insert (.member m.id) (fun s => do
    checkLength "membership_number" 50 m.membershipNumber
    checkFresh "members" (s.members.get m.id)
    pure (.member m)) <|
  .insert (.membershipNumber (collation.weight m.membershipNumber)) (fun s => do
    checkUnique "members.membership_number"
      (s.membershipNumbers.get (collation.weight m.membershipNumber))
    pure (.entry m.id)) <|
  .insert (.memberUser m.userId) (fun s => do
    checkUnique "members.user_id" (s.memberUsers.get m.userId)
    if (s.users.get m.userId).isNone then .error (.database (.noReferencedRow "user_id"))
    pure (.entry m.id)) (.ret ())

/-- `datetime.year`: whole cycles of 400, 100, 4 and 1 years since the first of January of the
year 1, where the last day of a leap year does not make up a fourth year. -/
def year (t : Int) : Int :=
  let n := t / day + 719162
  let n400 := n / 146097
  let n100 := n % 146097 / 36524
  let n4 := n % 146097 % 36524 / 1461
  let n1 := n % 146097 % 36524 % 1461 / 365
  400 * n400 + 100 * n100 + 4 * n4 + n1 + if n1 = 4 ∨ n100 = 4 then 0 else 1

/-- The days before the first of January of a year, from that of the year 1 on. -/
def daysBeforeYear (y : Int) : Int := 365 * (y - 1) + (y - 1) / 4 - (y - 1) / 100 + (y - 1) / 400

def IsLeap (y : Int) : Prop := y % 4 = 0 ∧ (y % 100 ≠ 0 ∨ y % 400 = 0)

theorem daysBeforeYear_succ (y : Int) :
    daysBeforeYear y + 365 ≤ daysBeforeYear (y + 1) ∧
    (IsLeap y → daysBeforeYear (y + 1) = daysBeforeYear y + 366) := by
  unfold daysBeforeYear IsLeap
  omega

theorem daysBeforeYear_cycles (a : Int) {b c d : Int} (hb : 0 ≤ b ∧ b ≤ 3) (hc : 0 ≤ c ∧ c ≤ 24)
    (hd : 0 ≤ d ∧ d ≤ 3) : daysBeforeYear (400 * a + 100 * b + 4 * c + d + 1) =
      146097 * a + 36524 * b + 1461 * c + 365 * d := by
  have h4 : (400 * a + 100 * b + 4 * c + d) / 4 = 100 * a + 25 * b + c := by omega
  have h100 : (400 * a + 100 * b + 4 * c + d) / 100 = 4 * a + b := by omega
  have h400 : (400 * a + 100 * b + 4 * c + d) / 400 = a := by omega
  simp only [daysBeforeYear, add_sub_cancel_right, h4, h100, h400]
  omega

/-- The instant lies in its year. -/
theorem year_spec (t : Int) : daysBeforeYear (year t) ≤ t / day + 719162 ∧
    t / day + 719162 < daysBeforeYear (year t + 1) := by
  unfold year
  generalize t / day + 719162 = n
  obtain ⟨a, ha⟩ : ∃ a, n / 146097 = a := ⟨_, rfl⟩
  obtain ⟨b, hb⟩ : ∃ b, n % 146097 / 36524 = b := ⟨_, rfl⟩
  obtain ⟨c, hc⟩ : ∃ c, n % 146097 % 36524 / 1461 = c := ⟨_, rfl⟩
  obtain ⟨d, hd⟩ : ∃ d, n % 146097 % 36524 % 1461 / 365 = d := ⟨_, rfl⟩
  simp only [ha, hb, hc, hd]
  by_cases hb4 : b = 4
  · -- the last day of a cycle of 400 years
    have hcycles := daysBeforeYear_cycles a (b := 3) (c := 24) (d := 3) (by decide) (by decide)
      (by decide)
    have hnext := (daysBeforeYear_succ (400 * a + 100 * 3 + 4 * 24 + 3 + 1)).2
      ⟨by omega, by omega⟩
    have hyear : 400 * a + 100 * b + 4 * c + d + 0 = 400 * a + 100 * 3 + 4 * 24 + 3 + 1 := by omega
    rw [if_pos (.inr hb4), hyear]
    omega
  · by_cases hd4 : d = 4
    · -- the last day of a leap year
      have hcycles := daysBeforeYear_cycles a (b := b) (c := c) (d := 3) (by omega) (by omega)
        (by decide)
      have hnext := (daysBeforeYear_succ (400 * a + 100 * b + 4 * c + 3 + 1)).2
        ⟨by omega, by omega⟩
      have hyear : 400 * a + 100 * b + 4 * c + d + 0 = 400 * a + 100 * b + 4 * c + 3 + 1 := by omega
      rw [if_pos (.inl hd4), hyear]
      omega
    · have hcycles := daysBeforeYear_cycles a (b := b) (c := c) (d := d) (by omega) (by omega)
        (by omega)
      have hnext := (daysBeforeYear_succ (400 * a + 100 * b + 4 * c + d + 1)).1
      rw [if_neg (by simp [hd4, hb4])]
      omega

/-- `uuid.hex[:6].upper()`: the first six of 32 digits. -/
def randomSuffix (id : UUID) : String :=
  String.ofList ((List.range 6).map fun i => (Nat.digitChar (id / 16 ^ (31 - i) % 16)).toUpper)

def membershipNum (now : Int) (id : UUID) : String :=
  "LMP-" ++ toString (year now) ++ "-" ++ randomSuffix id

structure UserRegisterRequest where
  name : String
  email : String
  password : String

/-- What a registration takes from outside: the clock, the keys of its two rows, the identifier
its number is cut from, and `hash_password` with the salt that it draws. -/
structure RegisterEnv where
  now : Int
  userId : UUID
  memberId : UUID
  random : UUID
  hashPassword : String → String

def RegisterEnv.account (env : RegisterEnv) (dto : UserRegisterRequest) : Account :=
  { id := env.userId, email := dto.email, passwordHash := env.hashPassword dto.password,
    role := .member, status := .active, name := dto.name }

def RegisterEnv.membership (env : RegisterEnv) : Membership :=
  { id := env.memberId, userId := env.userId, membershipStatus := .active, isDeleted := false,
    membershipNumber := membershipNum env.now env.random, joinedDate := env.now / day }

/-- The number names the year in which the profile was opened, and ends in six digits to the base
16. -/
def Membership.NamesYear (m : Membership) : Prop :=
  ∃ (y : Int) (suffix : String), m.membershipNumber = "LMP-" ++ toString y ++ "-" ++ suffix ∧
    (daysBeforeYear y ≤ m.joinedDate + 719162 ∧ m.joinedDate + 719162 < daysBeforeYear (y + 1)) ∧
    suffix.length = 6 ∧ ∀ c ∈ suffix.toList, c ∈ "0123456789ABCDEF".toList

theorem digitChar_toUpper_mem :
    ∀ n < 16, (Nat.digitChar n).toUpper ∈ "0123456789ABCDEF".toList := by decide

theorem RegisterEnv.membership_namesYear (env : RegisterEnv) : env.membership.NamesYear := by
  refine ⟨year env.now, randomSuffix env.random, rfl, year_spec env.now, ?_, fun c hc => ?_⟩
  · simp [randomSuffix]
  · obtain ⟨i, _, rfl⟩ : ∃ i ∈ List.range 6,
        (Nat.digitChar (env.random / 16 ^ (31 - i) % 16)).toUpper = c := by
      simpa [randomSuffix] using hc
    exact digitChar_toUpper_mem _ (Nat.mod_lt _ (by decide))

/-- The accounts with the address. -/
def Registry.withEmail (collation : Collation) (email : String) (s : Registry) : List Account :=
  s.users.rows.filter fun u => collation.weight u.email = collation.weight email

def register (collation : Collation) (env : RegisterEnv) (dto : UserRegisterRequest) : Rx Account :=
  .select (Registry.withEmail collation dto.email) fun existing =>
    match existing with
    | [] => do
      insertUser collation (env.account dto)
      insertMember collation env.membership
      pure (env.account dto)
    | [_] => .raise (.application .emailAlreadyExists none)
    | _ :: _ :: _ => .raise .multipleResultsFound

/-! ## What a registration writes -/

namespace Registry

/-- The two rows with their entries. -/
def add (collation : Collation) (u : Account) (m : Membership) (s : Registry) : Registry where
  users := s.users.put u
  emails := s.emails.put ⟨collation.weight u.email, u.id⟩
  members := s.members.put m
  membershipNumbers := s.membershipNumbers.put ⟨collation.weight m.membershipNumber, m.id⟩
  memberUsers := s.memberUsers.put ⟨m.userId, m.id⟩

/-- No key of the two rows and no value that must be unique is taken. -/
structure Admits (collation : Collation) (u : Account) (m : Membership) (s : Registry) : Prop where
  user : s.users.get u.id = none
  email : s.emails.get (collation.weight u.email) = none
  member : s.members.get m.id = none
  membershipNumber : s.membershipNumbers.get (collation.weight m.membershipNumber) = none
  memberUser : s.memberUsers.get m.userId = none

end Registry

theorem checkUnique_ok {ρ : Type} {key : String} {o : Option ρ} (h : checkUnique key o = .ok ()) :
    o = none := by
  cases o with
  | none => rfl
  | some a => simp [checkUnique] at h

section

variable {α β : Type} {D : Discipline Registry RegistryKey} {T : Contract Registry RegistryKey α}
  {collation : Collation} {u : Account} {m : Membership} {s : Registry} {P : Registry → Prop}
  {l : Local Registry RegistryKey RegistryRow Empty}

/-- A row that is still as it was found missing. -/
theorem get_of_row {ρ : Type} {f : ρ → RegistryRow} {o o' : Option ρ}
    (h : o.map f = o'.map f) (hnone : o' = none) : o = none := by
  rw [hnone] at h
  simpa using h

theorem wp_insertUser {Q : Unit → Local Registry RegistryKey RegistryRow Empty → Registry → Prop}
    (hP : Stays D l s P)
    (h : ∀ l' s', (∀ t, l'.view t = .put (.email (collation.weight u.email)) (.entry u.id)
        (.put (.user u.id) (.user u) (l.view t))) →
      Stays D l' s' (fun t => P t ∧ (l.view t).users.get u.id = none ∧
        (l.view t).emails.get (collation.weight u.email) = none) → Q () l' s') :
    wp D T (insertUser collation u) Q l s := by
  refine wp_insert hP fun s₁ r₁ h₁ hr₁ hs₁ => wp_insert hs₁ fun s₂ r₂ h₂ hr₂ hs₂ => ?_
  simp only [except_bind_ok] at hr₁ hr₂
  obtain ⟨_, _, _, _, _, _, _, hid, hr₁⟩ := hr₁
  obtain ⟨_, hemail, hr₂⟩ := hr₂
  cases hr₁
  cases hr₂
  refine h _ _ (fun t => ?_) fun t ht => ?_
  · simp only [Local.view_write, Local.view_hold]
    rfl
  · obtain ⟨⟨hPt, hrow₁⟩, hrow₂⟩ := hs₂ t ht
    refine ⟨hPt, get_of_row hrow₁ (checkFresh_ok hid), ?_⟩
    simp only [Local.view_write, Local.view_hold] at hrow₂ hemail
    exact get_of_row hrow₂ (checkUnique_ok hemail)

theorem wp_insertMember {Q : Unit → Local Registry RegistryKey RegistryRow Empty → Registry → Prop}
    (hP : Stays D l s P)
    (h : ∀ l' s', (∀ t, l'.view t = .put (.memberUser m.userId) (.entry m.id)
        (.put (.membershipNumber (collation.weight m.membershipNumber)) (.entry m.id)
          (.put (.member m.id) (.member m) (l.view t)))) →
      Stays D l' s' (fun t => P t ∧ (l.view t).members.get m.id = none ∧
        (l.view t).membershipNumbers.get (collation.weight m.membershipNumber) = none ∧
        (l.view t).memberUsers.get m.userId = none) → Q () l' s') :
    wp D T (insertMember collation m) Q l s := by
  refine wp_insert hP fun s₁ r₁ h₁ hr₁ hs₁ => wp_insert hs₁ fun s₂ r₂ h₂ hr₂ hs₂ =>
    wp_insert hs₂ fun s₃ r₃ h₃ hr₃ hs₃ => ?_
  simp only [except_bind_ok] at hr₁ hr₂ hr₃
  obtain ⟨_, _, _, hid, hr₁⟩ := hr₁
  obtain ⟨_, hnumber, hr₂⟩ := hr₂
  obtain ⟨_, huser, hr₃⟩ := hr₃
  split at hr₃
  · cases hr₃
  · cases hr₁
    cases hr₂
    cases hr₃
    simp only [Local.view_write, Local.view_hold] at hnumber huser
    refine h _ _ (fun t => ?_) fun t ht => ?_
    · simp only [Local.view_write, Local.view_hold]
      rfl
    · obtain ⟨⟨⟨hPt, hrow₁⟩, hrow₂⟩, hrow₃⟩ := hs₃ t ht
      simp only [Local.view_write, Local.view_hold] at hrow₂ hrow₃
      exact ⟨hPt, get_of_row hrow₁ (checkFresh_ok hid), get_of_row hrow₂ (checkUnique_ok hnumber),
        get_of_row hrow₃ (checkUnique_ok huser)⟩

/-- Wherever it commits, a registration adds two rows that nothing stands in the way of. -/
theorem wp_register {env : RegisterEnv} {dto : UserRegisterRequest} :
    wp D T (register collation env dto) (AtCommit D fun a _ s t => a = env.account dto ∧
      s.Admits collation a env.membership ∧ t = s.add collation a env.membership) .init s := by
  intro s₁ h₁
  dsimp only
  split
  · simp only [Prog.bind_eq, wp_bind]
    refine wp_insertUser (P := fun _ => True) (fun _ _ => trivial) fun l₂ s₂ hview hs₂ =>
      wp_insertMember hs₂ fun l₃ s₃ hview' hs₃ t ht => ?_
    obtain ⟨⟨_, huser, hemail⟩, hmember, hnumber, hmemberUser⟩ := hs₃ t ht
    rw [hview] at hmember hnumber hmemberUser
    refine ⟨rfl, ⟨huser, hemail, hmember, hnumber, hmemberUser⟩, ?_⟩
    rw [hview', hview]
    rfl
  · trivial
  · trivial

end

/-! ## Who can register -/

/-- The texts fit their columns. -/
structure Fits (u : Account) (m : Membership) : Prop where
  name : u.name.length ≤ 255
  email : u.email.length ≤ 255
  passwordHash : u.passwordHash.length ≤ 255
  membershipNumber : m.membershipNumber.length ≤ 50

theorem checkLength_iff {column : String} {max : Nat} {v : String} {x : Unit} :
    checkLength column max v = .ok x ↔ v.length ≤ max := by
  unfold checkLength
  split <;> simp [*]

theorem checkFresh_iff {ρ : Type} {table : String} {o : Option ρ} {x : Unit} :
    checkFresh table o = .ok x ↔ o = none := by cases o <;> simp [checkFresh]

theorem checkUnique_iff {ρ : Type} {key : String} {o : Option ρ} {x : Unit} :
    checkUnique key o = .ok x ↔ o = none := by cases o <;> simp [checkUnique]

theorem insertUser_ends {collation : Collation} {u : Account} {base w : Registry}
    {Q : Unit → Registry → Registry → Prop} :
    (insertUser collation u).Ends (fun _ => False) base w Q ↔
      (u.name.length ≤ 255 ∧ u.email.length ≤ 255 ∧ u.passwordHash.length ≤ 255) ∧
      (w.users.get u.id = none ∧ w.emails.get (collation.weight u.email) = none) ∧
      Q () base (.put (.email (collation.weight u.email)) (.entry u.id)
        (.put (.user u.id) (.user u) w)) := by
  unfold insertUser
  simp only [Prog.ends_insert_iff, Prog.ends_ret, except_bind_ok, checkLength_iff, checkFresh_iff,
    checkUnique_iff]
  constructor
  · rintro ⟨_, ⟨_, hname, _, hemail, _, hhash, _, hid, hr⟩, _, ⟨_, hfree, hr'⟩, hQ⟩
    cases hr
    cases hr'
    exact ⟨⟨hname, hemail, hhash⟩, ⟨hid, hfree⟩, hQ⟩
  · rintro ⟨⟨hname, hemail, hhash⟩, ⟨hid, hfree⟩, hQ⟩
    exact ⟨_, ⟨(), hname, (), hemail, (), hhash, (), hid, rfl⟩, _, ⟨(), hfree, rfl⟩, hQ⟩

theorem insertMember_ends {collation : Collation} {m : Membership} {base w : Registry}
    {Q : Unit → Registry → Registry → Prop} (howner : w.users.get m.userId ≠ none) :
    (insertMember collation m).Ends (fun _ => False) base w Q ↔
      m.membershipNumber.length ≤ 50 ∧ (w.members.get m.id = none ∧
        w.membershipNumbers.get (collation.weight m.membershipNumber) = none ∧
        w.memberUsers.get m.userId = none) ∧
      Q () base (.put (.memberUser m.userId) (.entry m.id)
        (.put (.membershipNumber (collation.weight m.membershipNumber)) (.entry m.id)
          (.put (.member m.id) (.member m) w))) := by
  unfold insertMember
  simp only [Prog.ends_insert_iff, Prog.ends_ret, except_bind_ok, checkLength_iff, checkFresh_iff,
    checkUnique_iff]
  constructor
  · rintro ⟨_, ⟨_, hlength, _, hid, hr⟩, _, ⟨_, hnumber, hr'⟩, _, ⟨_, huser, hr''⟩, hQ⟩
    split at hr''
    · cases hr''
    · cases hr
      cases hr'
      cases hr''
      exact ⟨hlength, ⟨hid, hnumber, huser⟩, hQ⟩
  · rintro ⟨hlength, ⟨hid, hnumber, huser⟩, hQ⟩
    refine ⟨_, ⟨(), hlength, (), hid, rfl⟩, _, ⟨(), hnumber, rfl⟩, _, ⟨(), huser, ?_⟩, hQ⟩
    exact if_neg fun h => howner (Option.isNone_iff_eq_none.mp h)

/-- Only the database refuses. -/
def ByDatabase {α : Type} (x : Except Exc α) : Prop := ∀ e, x = .error e → ∃ d, e = .database d

theorem byDatabase_ok {α : Type} (a : α) : ByDatabase (.ok a) := by rintro e ⟨⟩

theorem byDatabase_bind {α β : Type} {x : Except Exc α} {f : α → Except Exc β} (hx : ByDatabase x)
    (hf : ∀ a, ByDatabase (f a)) : ByDatabase (x >>= f) := by
  cases x with
  | ok a => exact hf a
  | error e => exact fun e' he => hx e' (by cases he; rfl)

theorem byDatabase_ite {α : Type} {c : Prop} [Decidable c] {d : DbError} {a : α} :
    ByDatabase (if c then .ok a else .error (.database d)) := by
  split
  · exact byDatabase_ok a
  · rintro e ⟨⟩
    exact ⟨d, rfl⟩

theorem insertUser_raises (collation : Collation) (u : Account) (base w : Registry) :
    (insertUser collation u).Ends (fun e => ∃ d, e = .database d) base w fun _ _ _ => True := by
  refine Prog.ends_insert.mpr ⟨?_, fun _ _ => Prog.ends_insert.mpr ⟨?_, fun _ _ => trivial⟩⟩
  · exact byDatabase_bind byDatabase_ite fun _ => byDatabase_bind byDatabase_ite fun _ =>
      byDatabase_bind byDatabase_ite fun _ => byDatabase_bind byDatabase_ite fun _ =>
        byDatabase_ok _
  · exact byDatabase_bind byDatabase_ite fun _ => byDatabase_ok _

theorem insertMember_raises (collation : Collation) (m : Membership) (base w : Registry) :
    (insertMember collation m).Ends (fun e => ∃ d, e = .database d) base w fun _ _ _ => True := by
  refine Prog.ends_insert.mpr ⟨?_, fun _ _ => Prog.ends_insert.mpr ⟨?_, fun _ _ =>
    Prog.ends_insert.mpr ⟨?_, fun _ _ => trivial⟩⟩⟩
  · exact byDatabase_bind byDatabase_ite fun _ => byDatabase_bind byDatabase_ite fun _ =>
      byDatabase_ok _
  · exact byDatabase_bind byDatabase_ite fun _ => byDatabase_ok _
  · refine byDatabase_bind byDatabase_ite fun _ => ?_
    split
    · rintro e ⟨⟩
      exact ⟨_, rfl⟩
    · exact byDatabase_ok _

/-- The two insertions go through when the texts fit and the tables admit the rows, and otherwise
the database refuses. -/
theorem insertions_end (collation : Collation) (u : Account) {m : Membership}
    (hm : m.userId = u.id) (s : Registry) {p : Rx Account}
    (hp : p = do insertUser collation u; insertMember collation m; pure u) :
    ((∃ a, (call p s).1 = .ok a) ↔ Fits u m ∧ s.Admits collation u m) ∧
    ∀ e, (call p s).1 = .error e → ∃ d, e = .database d := by
  have howner : (Registry.put (.email (collation.weight u.email)) (.entry u.id)
      (.put (.user u.id) (.user u) s)).users.get m.userId ≠ none := by
    have hget : (s.users.put u).get u.id = some u := Table.get_put_same _ _
    intro hnone
    cases (hm ▸ hget).symm.trans hnone
  have hends : p.Ends (fun _ => False) s s (fun _ _ _ => True) ↔
      Fits u m ∧ s.Admits collation u m := by
    subst hp
    simp only [Prog.bind_eq, Prog.ends_bind, Prog.pure_eq, Prog.ends_ret]
    rw [insertUser_ends, insertMember_ends howner]
    constructor
    · rintro ⟨⟨hname, hemail, hhash⟩, ⟨huser, hfree⟩, hlength, ⟨hmember, hnumber, howned⟩, _⟩
      exact ⟨⟨hname, hemail, hhash, hlength⟩, huser, hfree, hmember, hnumber, howned⟩
    · rintro ⟨⟨hname, hemail, hhash, hlength⟩, huser, hfree, hmember, hnumber, howned⟩
      exact ⟨⟨hname, hemail, hhash⟩, ⟨huser, hfree⟩, hlength, ⟨hmember, hnumber, howned⟩, trivial⟩
  constructor
  · rw [← hends, Prog.ends_call_iff]
    cases (call p s).1 <;> simp
  · subst hp
    refine Prog.ends_call_iff.mp ?_
    simp only [Prog.bind_eq, Prog.ends_bind, Prog.pure_eq, Prog.ends_ret]
    exact (insertUser_raises collation u s s).mono fun _ base w _ =>
      insertMember_raises collation m base w

end LibraryPlatform

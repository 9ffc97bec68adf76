import Mathlib.Logic.Encodable.Basic
import Mathlib.Logic.Equiv.List
import LibraryPlatform.Descent

/-!
# How long an access token opens the routes

An access token is stored nowhere. It opens the routes of its account until it expires, and
no logout, rotation or breach takes it back.
-/
namespace LibraryPlatform

open KeyedTable Transaction

/-- `UserRole.value` -/
def UserRole.value : UserRole → String
  | .admin => "ADMIN"
  | .librarian => "LIBRARIAN"
  | .member => "MEMBER"

theorem UserRole.value_injective : Function.Injective UserRole.value := by
  intro a b h
  cases a <;> cases b <;> first | rfl | exact absurd h (by decide)

/-- The claims that `create_access_token` signs. -/
def JWTManager.claims (jwt : JWTManager) (subject jti : UUID) (role : UserRole) (now : Int) :
    AccessClaims :=
  ⟨subject, jti, jwt.issuer, jwt.audience, now.tdiv second, now.tdiv second,
    (now + jwt.accessTokenExpireMinutes * (60 * second)).tdiv second, role⟩

/-- The claims as a decoded token has them; `text` writes identifiers. -/
def AccessClaims.payload (text : UUID → String) (c : AccessClaims) : Payload :=
  [("sub", text c.sub), ("jti", text c.jti), ("iss", c.iss), ("aud", c.aud),
    ("iat", toString c.iat), ("nbf", toString c.nbf), ("exp", toString c.exp),
    ("role", c.role.value)]

/-- The `leeway` of `decode_and_validate_token`, in seconds. -/
def leeway : Int := 60

/-- The token is neither expired at the instant nor not yet valid. -/
def AccessClaims.ValidAt (c : AccessClaims) (now : Int) : Prop :=
  c.nbf ≤ now / second + leeway ∧ now / second - leeway ≤ c.exp

/-- What the library documents of `jwt.decode` on tokens that the manager has signed, and how the
text of an identifier is read back. -/
structure Jose (api : Api) (text : UUID → String) : Prop where
  accepts : ∀ now (c : AccessClaims), c.iss = api.auth.jwtManager.issuer →
    c.aud = api.auth.jwtManager.audience → c.ValidAt now →
    api.decode now (api.auth.jwtManager.encode c) = .ok (c.payload text)
  rejects : ∀ now (c : AccessClaims), ¬c.ValidAt now →
    ∃ e, api.decode now (api.auth.jwtManager.encode c) = .error e
  text_ne : ∀ id, text id ≠ ""
  keyOf_text : ∀ id, api.keyOf (text id) = id

/-- The token in the header of a request. -/
def bearer (token : String) : Option HTTPAuthorizationCredentials := some ⟨"Bearer", token⟩

theorem lower_bearer : lower "Bearer" = "bearer" := by decide

section

variable {api : Api} {text : UUID → String} {now t : Int} {s : DB} {u v : User} {jti : UUID}

theorem decodeAndValidate_signed (hj : Jose api text) (now : Int) (c : AccessClaims)
    (hiss : c.iss = api.auth.jwtManager.issuer) (haud : c.aud = api.auth.jwtManager.audience)
    (payload : Payload) :
    api.decodeAndValidateToken now (api.auth.jwtManager.encode c) = .ok payload ↔
      c.ValidAt now ∧ payload = c.payload text := by
  have hall : requiredClaims.filter (fun x => x ∉ (c.payload text).map Prod.fst) = [] := by
    simp [requiredClaims, AccessClaims.payload]
  unfold Api.decodeAndValidateToken
  rw [except_bind_ok]
  constructor
  · rintro ⟨p, hp, hchecked⟩
    by_cases hvalid : c.ValidAt now
    · rw [hj.accepts now c hiss haud hvalid] at hp
      cases hp
      rw [if_pos hall] at hchecked
      exact ⟨hvalid, (Except.ok.inj hchecked).symm⟩
    · obtain ⟨e, he⟩ := hj.rejects now c hvalid
      cases he.symm.trans hp
  · rintro ⟨hvalid, rfl⟩
    exact ⟨_, hj.accepts now c hiss haud hvalid, if_pos hall⟩

/-- Whole minutes pass in whole seconds. -/
theorem claims_exp (jwt : JWTManager) (subject jti : UUID) (role : UserRole) (ht : 0 ≤ t)
    (hminutes : 0 ≤ jwt.accessTokenExpireMinutes) :
    (jwt.claims subject jti role t).exp = t / second + 60 * jwt.accessTokenExpireMinutes := by
  have hpos : 0 ≤ t + jwt.accessTokenExpireMinutes * (60 * second) := by
    have hlasts := Int.mul_nonneg hminutes (show (0 : Int) ≤ 60 * second by decide)
    omega
  simp only [JWTManager.claims]
  rw [Int.tdiv_eq_ediv_of_nonneg hpos, ← mul_assoc, Int.add_mul_ediv_right _ _ (by decide)]
  ring

/-- The token was issued no more than a minute from now, and expired no more than a minute ago. -/
def InForce (minutes t now : Int) : Prop :=
  t / second - leeway ≤ now / second ∧ now / second ≤ t / second + 60 * minutes + leeway

/-- The access token of an account opens its routes, and no others, while it is fresh. -/
theorem authenticated_signed_iff (hj : Jose api text) (ht : 0 ≤ t)
    (hminutes : 0 ≤ api.auth.jwtManager.accessTokenExpireMinutes) :
    Authenticated api now
      (bearer (api.auth.jwtManager.createAccessToken u.id jti u.role t)) s v ↔
    (s.users.get u.id = some v ∧ v.status = .active) ∧
      InForce api.auth.jwtManager.accessTokenExpireMinutes t now := by
  have hsigned := decodeAndValidate_signed hj now
    (api.auth.jwtManager.claims u.id jti u.role t) rfl rfl
  have hvalid : (api.auth.jwtManager.claims u.id jti u.role t).ValidAt now ↔
      InForce api.auth.jwtManager.accessTokenExpireMinutes t now := by
    unfold AccessClaims.ValidAt InForce
    rw [claims_exp _ _ _ _ ht hminutes]
    simp only [JWTManager.claims, Int.tdiv_eq_ediv_of_nonneg ht]
    omega
  constructor
  · rintro ⟨hc, _, hp, hsub, _, hv, hactive⟩
    cases hc
    obtain ⟨hnow, rfl⟩ := (hsigned _).mp hp
    cases hsub
    rw [hj.keyOf_text] at hv
    exact ⟨⟨hv, hactive⟩, hvalid.mp hnow⟩
  · rintro ⟨⟨hv, hactive⟩, hnow⟩
    refine .mk rfl lower_bearer ((hsigned _).mpr ⟨hvalid.mpr hnow, rfl⟩) rfl (hj.text_ne u.id) ?_
      hactive
    rw [hj.keyOf_text]
    exact hv

end

theorem Response.issued_eq_some {r : Response} {c : Credentials} :
    r.issued = some c ↔ r = .credentials c := by
  cases r <;> simp [issued]

/-- The instants of a login, a rotation or a logout are after the epoch. -/
def Visit.Timely (v : Visit) : Prop := ∀ env op, v = .sign env op → ∀ k, 0 ≤ env.clock k

/-- Whatever logins, rotations, logouts and requests are interleaved: the access token of
credentials that were answered opens the routes of one account that was active, and of no other,
from a minute before it was issued to a minute after it expires, in every later state of the run. -/
theorem access_token_stands {n : Nat} {api : Api} {visits : Fin n → Visit} {s₀ : DB}
    {s : Traffic n} {text : UUID → String} (hj : Jose api text)
    (hminutes : 0 ≤ api.auth.jwtManager.accessTokenExpireMinutes)
    (htimely : ∀ i, (visits i).Timely)
    (h : Sys.Reach Sys.Any (Traffic.start api visits s₀) s) {i : Fin n} {c : Credentials}
    (hc : s.txn i = .ended (.returned (.credentials c))) :
    ∃ env op k u, visits i = .sign env op ∧ u ∈ s₀.users.rows ∧ u.status = .active ∧
      ∀ s', Sys.Reach Sys.Any s s' → ∀ now v,
        Authenticated api now (bearer c.accessToken) s'.db v ↔
          v = u ∧ InForce api.auth.jwtManager.accessTokenExpireMinutes (env.clock k) now := by
  obtain ⟨env, op, r, u, hi, _, hgranted⟩ := granted_of_returned h hc
  obtain ⟨k, haccess⟩ := hgranted.access
  refine ⟨env, op, k, u, hi, Table.mem_of_get hgranted.account, hgranted.active,
    fun s' h' now v => ?_⟩
  have husers : s'.db.users = s₀.users := (rooted_good (h.trans h')).inv.accounts.users
  rw [haccess, authenticated_signed_iff hj (htimely i env op hi k) hminutes, husers,
    hgranted.account]
  constructor
  · rintro ⟨⟨hv, _⟩, hnow⟩
    exact ⟨(Option.some.inj hv).symm, hnow⟩
  · rintro ⟨rfl, hnow⟩
    exact ⟨⟨rfl, hgranted.active⟩, hnow⟩

/-! ## A token after the logout -/

/-- A signature that nobody can read but `demoSigner`. -/
def demoEncode (c : AccessClaims) : String :=
  let codes (text : String) := text.toList.map Char.toNat
  String.ofList (List.replicate (Encodable.encode (c.sub, c.jti, codes c.iss, codes c.aud, c.iat,
    c.nbf, c.exp, codes c.role.value)) 'a')

theorem demoEncode_injective : Function.Injective demoEncode := by
  have hcodes : ∀ {a b : String}, a.toList.map Char.toNat = b.toList.map Char.toNat → a = b :=
    fun h => String.toList_inj.mp (List.map_injective_iff.mpr (fun _ _ => Char.toNat_inj.mp) h)
  rintro ⟨sub, jti, iss, aud, iat, nbf, exp, role⟩ ⟨sub', jti', iss', aud', iat', nbf', exp', role'⟩
    h
  have hlength := congrArg String.length h
  simp only [demoEncode, String.length_ofList, List.length_replicate] at hlength
  have htuple := Encodable.encode_injective hlength
  simp only [Prod.mk.injEq] at htuple
  obtain ⟨rfl, rfl, hiss, haud, rfl, rfl, rfl, hrole⟩ := htuple
  obtain rfl := hcodes hiss
  obtain rfl := hcodes haud
  obtain rfl := UserRole.value_injective (hcodes hrole)
  rfl

def demoText (id : UUID) : String := String.ofList (List.replicate (id + 1) 'a')

open Classical in
/-- The service with that signature. -/
noncomputable def demoSigner : Api :=
  { demoApi with
    auth := { demoAuth with jwtManager := { demoAuth.jwtManager with encode := demoEncode } }
    decode := fun now token =>
      if h : ∃ c : AccessClaims, demoEncode c = token ∧ c.ValidAt now then
        .ok (h.choose.payload demoText)
      else .error "Signature has expired."
    keyOf := fun text => text.length - 1 }

theorem demoSigner_jose : Jose demoSigner demoText where
  accepts now c _ _ hvalid := by
    have hex : ∃ d : AccessClaims, demoEncode d = demoEncode c ∧ d.ValidAt now := ⟨c, rfl, hvalid⟩
    have hsame : hex.choose = c := demoEncode_injective hex.choose_spec.1
    exact (dif_pos hex).trans (congrArg (fun d => Except.ok (d.payload demoText)) hsame)
  rejects now c hvalid := by
    refine ⟨_, dif_neg ?_⟩
    rintro ⟨d, hd, hd'⟩
    exact hvalid (demoEncode_injective hd ▸ hd')
  text_ne id h := by
    have hlength := congrArg String.length h
    simp [demoText] at hlength
  keyOf_text id := by simp [demoSigner, demoText]

def demoLeaving : Fin 2 → Visit
  | 0 => .sign (demoAuthEnv 1 "a" 0) (.login "eve@example.com" "SecurePassword123!" demoClient)
  | 1 => .sign (demoAuthEnv 0 "" hour) (.logout "a")

def demoLeft (i j : Fin 2) : List (Fin 2 × Move RowKey) :=
  List.replicate 3 (i, .run) ++ [(j, .run), (j, .acquire (.refreshToken 1)), (j, .run)]

/-- She logs in and out, and her access token opens the routes ten minutes later. -/
theorem access_token_stands_demo :
    ∃ (s : Traffic 2) (c : Credentials),
      (Traffic.start demoSigner demoLeaving demoUsers).runs (demoLeft 0 1) = some s ∧
      (∀ r ∈ s.db.refreshTokens.rows, r.revoked = true) ∧
      ∃ u, Authenticated demoSigner (600 * second) (bearer c.accessToken) s.db u := by
  have hruns : ((Traffic.start demoSigner demoLeaving demoUsers).runs (demoLeft 0 1)).any fun s =>
      (s.txn 0).result.any (fun r => r.issued.isSome) ∧
      ∀ r ∈ s.db.refreshTokens.rows, r.revoked = true := by decide
  obtain ⟨s, hs, hend⟩ := (Option.any_eq_true _ _).mp hruns
  obtain ⟨hissued, hrevoked⟩ := of_decide_eq_true hend
  obtain ⟨r, hr, hr'⟩ := (Option.any_eq_true _ _).mp hissued
  obtain ⟨c, hc⟩ := Option.isSome_iff_exists.mp hr'
  obtain rfl := Response.issued_eq_some.mp hc
  have htimely : ∀ i, (demoLeaving i).Timely := by
    refine Fin.forall_fin_two.mpr ⟨?_, ?_⟩ <;> rintro env op ⟨⟩ k
    · exact Int.le_refl 0
    · exact (by decide : (0 : Int) ≤ hour)
  obtain ⟨env, op, k, u, hi, _, _, hstands⟩ := access_token_stands (i := 0) demoSigner_jose
    (by decide) htimely (Sys.reach_of_runs hs) (Txn.result_eq_some.mp hr)
  cases hi
  have hnow : InForce 15 0 (600 * second) := by
    unfold InForce
    decide
  exact ⟨s, c, hs, hrevoked, u, (hstands s .refl _ u).mpr ⟨rfl, hnow⟩⟩

end LibraryPlatform

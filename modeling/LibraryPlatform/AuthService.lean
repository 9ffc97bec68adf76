import LibraryPlatform.Repositories

/-!
# Authentication service

Logins, rotations of refresh tokens and logouts. The session flushes nothing on its
own (`autoflush=False`), so an update stands where the flush sends it: the updates of
a flush before its inserts, and only of rows with a changed column.
-/
namespace LibraryPlatform

open KeyedTable Transaction

/-- The claims of an access token; the instants are in whole seconds. -/
structure AccessClaims where
  sub : UUID
  jti : UUID
  iss : String
  aud : String
  iat : Int
  nbf : Int
  exp : Int
  role : UserRole
  deriving DecidableEq

/-- `encode` is `jwt.encode` with the signing key and the algorithm. -/
structure JWTManager where
  issuer : String
  audience : String
  accessTokenExpireMinutes : Int
  encode : AccessClaims → String

def JWTManager.createAccessToken (jwt : JWTManager) (subject jti : UUID) (role : UserRole)
    (now : Int) : String :=
  jwt.encode ⟨subject, jti, jwt.issuer, jwt.audience, now.tdiv second, now.tdiv second,
    (now + jwt.accessTokenExpireMinutes * (60 * second)).tdiv second, role⟩

structure AuthService where
  jwtManager : JWTManager
  verifyPassword : (plainPassword hashedPassword : String) → Bool
  generateTokenFingerprint : String → String

/-- What a call takes from outside: the readings of the clock, the key of the row it
inserts, the other identifiers and the token it generates, and the order in which a
flush updates the rows of a family. -/
structure AuthEnv where
  clock : Nat → Int
  newId : UUID
  jti : UUID
  familyId : UUID
  rawRefreshToken : String
  tokenOrder : RowOrder RefreshToken

/-- An access token and a raw refresh token. -/
structure Credentials where
  accessToken : String
  refreshToken : String
  deriving DecidableEq

namespace AuthService

def login (svc : AuthService) (env : AuthEnv) (email password : String) (client : ClientMetadata) :
    Tx Credentials := do
  let user ← orRaise (← UserRepository.getByEmail email) (.application .invalidCredentials none)
  raiseIf (user.status ≠ .active) (.application .inactiveUser none)
  raiseIf (!svc.verifyPassword password user.passwordHash) (.application .invalidCredentials none)
  let accessToken := svc.jwtManager.createAccessToken user.id env.jti user.role (env.clock 0)
  let expiresAt := env.clock 1 + 7 * day
  insertRefreshToken ⟨env.newId, user.id, env.familyId,
    svc.generateTokenFingerprint env.rawRefreshToken,
    toDatetime expiresAt, false, client⟩
  pure ⟨accessToken, env.rawRefreshToken⟩

/-- The flush that marks the tokens revoked. -/
def revokeAll : List RefreshToken → Tx Unit
  | [] => pure ()
  | tok :: rest => do
    updateRefreshToken tok.id (fun t => { t with revoked := true })
    revokeAll rest

def refreshToken (svc : AuthService) (env : AuthEnv) (rawRefreshToken : String)
    (client : ClientMetadata) : Tx Credentials := do
  let tokenFingerprint := svc.generateTokenFingerprint rawRefreshToken
  let tokenRecord ← orRaise (← RefreshTokenRepository.getByTokenHash tokenFingerprint)
    (.application .invalidRefreshToken none)
  if tokenRecord.revoked then
    let familyTokens ← RefreshTokenRepository.getFamily tokenRecord.familyId
    revokeAll (env.tokenOrder.apply (familyTokens.filter (fun t => !t.revoked)))
    commit
    raise (.application .tokenRevoked
      (some "This token session has been revoked due to reuse detection. All family keys invalidated."))
  else if tokenRecord.expiresAt < env.clock 0 then
    revokeAll [tokenRecord]
    raise (.application .tokenExpired none)
  else
    let user ← orRaise (← UserRepository.getById tokenRecord.userId)
      (.application .inactiveUser none)
    raiseIf (user.status ≠ .active) (.application .inactiveUser none)
    let accessToken := svc.jwtManager.createAccessToken user.id env.jti user.role (env.clock 1)
    let newExpiresAt := env.clock 2 + 7 * day
    revokeAll [tokenRecord]
    insertRefreshToken ⟨env.newId, tokenRecord.userId, tokenRecord.familyId,
      svc.generateTokenFingerprint env.rawRefreshToken, toDatetime newExpiresAt, false, client⟩
    pure ⟨accessToken, env.rawRefreshToken⟩

def logout (svc : AuthService) (rawRefreshToken : String) : Tx Unit := do
  match ← RefreshTokenRepository.getByTokenHash (svc.generateTokenFingerprint rawRefreshToken) with
  | some tokenRecord => revokeAll ([tokenRecord].filter (fun t => !t.revoked))
  | none => pure ()

end AuthService

end LibraryPlatform

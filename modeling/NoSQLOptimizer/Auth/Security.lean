import NoSQLOptimizer.ControlPlane.Tables

namespace NoSQLOptimizer.Auth

open ControlPlane

inductive Role
  | viewer
  | operator
  | approver
  | admin
  deriving DecidableEq

namespace Role

def value : Role → String
  | viewer => "VIEWER"
  | operator => "OPERATOR"
  | approver => "APPROVER"
  | admin => "ADMIN"

/-- `Role(value)`. -/
def ofValue (value : String) : Option Role :=
  [viewer, operator, approver, admin].find? (·.value = value)

theorem ofValue_value (role : Role) : ofValue role.value = some role := by
  cases role <;> decide

end Role

structure Principal where
  userId : String
  role : Role
  deriving DecidableEq

/-- A JWT, as the client has it. -/
abbrev Token := String

abbrev Digest := String

/-- The claims of a JWT.  A claim that is not a string is none; `jti` is `str(claims["jti"])`. -/
structure Claims where
  sub : Option String
  role : Option String
  tokenType : Option String
  iat : Instant
  exp : Instant
  jti : Option String := none
  deriving DecidableEq

inductive TokenType
  | access
  | refresh
  deriving DecidableEq

namespace TokenType

def value : TokenType → String
  | access => "access"
  | refresh => "refresh"

/-- Fifteen minutes, and seven days. -/
def lifetime : TokenType → Instant
  | access => 900000000
  | refresh => 604800000000

end TokenType

inductive AuthError
  | authorization : String → AuthError
  | jwt
  deriving DecidableEq

/-- The principal that a token of the expected type names. -/
def Claims.principal (claims : Claims) (expected : TokenType) : Except AuthError Principal :=
  match claims.sub, claims.role with
  | some subject, some role =>
    if claims.tokenType ≠ some expected.value then
      .error (.authorization "JWT is missing required principal claims.")
    else
      match Role.ofValue role with
      | some role => .ok ⟨subject, role⟩
      | none => .error (.authorization "JWT contains an invalid role.")
  | _, _ => .error (.authorization "JWT is missing required principal claims.")

/-- What comes from elsewhere: Argon2, JWTs under the signing key, SHA-256.  `decode` is
`jwt.decode` at that time, and none where it raises. -/
structure Library where
  verify : String → String → Bool
  encode : Claims → Token
  decode : Instant → Token → Option Claims
  sha256 : Token → Digest
  userText : UserId → String

namespace Library

variable (H : Library)

def verifyPassword (passwordHash password : String) : Bool :=
  12 ≤ password.length && password.length ≤ 128 && H.verify passwordHash password

/-- `issue` at that time. -/
def issue (now : Instant) (principal : Principal) (tokenType : TokenType)
    (tokenId : Option String) : Token :=
  H.encode
    { sub := some principal.userId
      role := some principal.role.value
      tokenType := some tokenType.value
      iat := now
      exp := now + tokenType.lifetime
      jti := tokenId }

/-- `verify` at that time. -/
def verifyToken (now : Instant) (token : Token) (expected : TokenType) :
    Except AuthError Principal :=
  match H.decode now token with
  | some claims => claims.principal expected
  | none => .error (.authorization "JWT is invalid or expired.")

/-- The token is decoded twice, and may expire in between. -/
def decodeClaims (verifiedAt decodedAt : Instant) (token : Token) (expected : TokenType) :
    Except AuthError Claims :=
  match H.verifyToken verifiedAt token expected with
  | .error e => .error e
  | .ok _ =>
    match H.decode decodedAt token with
    | some claims => .ok claims
    | none => .error .jwt

end Library

end NoSQLOptimizer.Auth

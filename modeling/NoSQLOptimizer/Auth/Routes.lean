import NoSQLOptimizer.Auth.Security
import NoSQLOptimizer.Concurrency.Transactions

namespace NoSQLOptimizer.Auth

open ControlPlane Concurrency Transactions

abbrev RowId := Nat

structure User where
  id : UserId
  email : String
  passwordHash : String
  role : String := "VIEWER"
  status : String := "ACTIVE"
  failedLoginCount : Int := 0
  lockedUntil : Option Instant := none
  deriving DecidableEq

structure RefreshToken where
  id : RowId
  userId : UserId
  tokenId : String
  tokenHash : Digest
  expiresAt : Instant
  revokedAt : Option Instant := none
  deriving DecidableEq

inductive AuditPayload
  | empty
  | email : String → AuditPayload
  | failures : Int → Bool → AuditPayload
  deriving DecidableEq

structure AuditEvent where
  eventType : String
  actorUserId : Option UserId
  eventPayload : AuditPayload
  deriving DecidableEq

inductive Route
  | refresh
  | logout
  deriving DecidableEq

/-- A row was revoked by a request that presented this token. -/
structure Revocation where
  route : Route
  presented : Token
  row : RowId
  deriving DecidableEq

/-- `revocations` is no table but a log of this model. -/
structure Tables where
  users : List User := []
  tokens : List RefreshToken := []
  audit : List AuditEvent := []
  revocations : List Revocation := []
  deriving DecidableEq

/-- The rows that are locked, and the entries of the unique indexes on a token's id and hash. -/
inductive Key
  | user : UserId → Key
  | token : RowId → Key
  | tokenId : String → Key
  | tokenHash : Digest → Key
  deriving DecidableEq

inductive Write
  | insertToken : RefreshToken → Write
  | revoke : RowId → Instant → Route → Token → Write
  | setLogin : UserId → Int → Option Instant → Write
  | insertAudit : AuditEvent → Write
  | putUser : User → Write
  deriving DecidableEq

inductive Query
  | selectToken : String → Digest → Query
  | selectUser : UserId → Query
  | updateToken : RowId → Instant → Query
  | revokeToken : String → Digest → Query
  | insertToken : RefreshToken → Query
  | selectLogin : String → Query
  | updateLogin : UserId → Query
  | insertAudit : Query
  deriving DecidableEq

inductive Error
  | http : Nat → String → Error
  | auth : AuthError → Error
  | keyError : String → Error
  | valueError
  | integrity : String → Error
  | multipleResultsFound
  deriving DecidableEq

/-- `one_or_none()`. -/
def oneOrNone {ρ : Type} : List ρ → Except Error (Option ρ)
  | [] => .ok none
  | [row] => .ok (some row)
  | _ => .error .multipleResultsFound

def RefreshToken.revoked (row : RefreshToken) (id : RowId) (now : Instant) : RefreshToken :=
  if row.id = id then { row with revokedAt := some now } else row

def User.loggedIn (user : User) (id : UserId) (failures : Int) (lockedUntil : Option Instant) :
    User :=
  if user.id = id then { user with failedLoginCount := failures, lockedUntil := lockedUntil }
  else user

namespace Tables

def user (t : Tables) (id : UserId) : Option User := t.users.find? (·.id = id)

def token (t : Tables) (id : RowId) : Option RefreshToken := t.tokens.find? (·.id = id)

/-- The rows of a token id, and of a hash. -/
def named (t : Tables) (tokenId : String) : List RefreshToken :=
  t.tokens.filter (·.tokenId = tokenId)

def hashed (t : Tables) (tokenHash : Digest) : List RefreshToken :=
  t.tokens.filter (·.tokenHash = tokenHash)

/-- The rows of a token that is presented. -/
def presented (t : Tables) (tokenId : String) (tokenHash : Digest) : List RefreshToken :=
  t.tokens.filter (fun row => row.tokenId = tokenId ∧ row.tokenHash = tokenHash)

def emailed (t : Tables) (email : String) : List User := t.users.filter (·.email = email)

end Tables

namespace Write

def apply : Write → Tables → Tables
  | insertToken row, t => { t with tokens := t.tokens ++ [row] }
  | revoke id now route presented, t =>
    { t with tokens := t.tokens.map (·.revoked id now)
             revocations := t.revocations ++ [⟨route, presented, id⟩] }
  | setLogin id failures lockedUntil, t =>
    { t with users := t.users.map (·.loggedIn id failures lockedUntil) }
  | insertAudit event, t => { t with audit := t.audit ++ [event] }
  | putUser user, t => { t with users := t.users.filter (·.id ≠ user.id) ++ [user] }

def keys : Write → List Key
  | insertToken row => [.token row.id, .tokenId row.tokenId, .tokenHash row.tokenHash]
  | revoke id _ _ _ => [.token id]
  | setLogin id _ _ => [.user id]
  | insertAudit _ => []
  | putUser user => [.user user.id]

end Write

/-- What a statement waits for: the rows that it selects `FOR UPDATE` or changes, and the entries that
it adds to the unique indexes. -/
def Query.needs : Query → Tables → List Key
  | selectToken tokenId tokenHash, t => (t.presented tokenId tokenHash).map (.token ·.id)
  | selectUser _, _ => []
  | updateToken id _, _ => [.token id]
  | revokeToken tokenId tokenHash, t =>
    ((t.presented tokenId tokenHash).filter (·.revokedAt = none)).map (.token ·.id)
  | insertToken row, _ => [.token row.id, .tokenId row.tokenId, .tokenHash row.tokenHash]
  | selectLogin email, t => (t.emailed email).map (.user ·.id)
  | updateLogin id, _ => [.user id]
  | insertAudit, _ => []

/-- The row is as it was; the index entry leads to the row that it led to. -/
def Key.Same : Key → Tables → Tables → Prop
  | user id, t, u => t.user id = u.user id
  | token id, t, u => t.token id = u.token id
  | tokenId text, t, u => (t.named text).map (·.id) = (u.named text).map (·.id)
  | tokenHash digest, t, u => (t.hashed digest).map (·.id) = (u.hashed digest).map (·.id)

theorem Key.same_refl (k : Key) (t : Tables) : k.Same t t := by
  cases k <;> rfl

theorem Key.same_trans {k : Key} {t u v : Tables} (h : k.Same t u) (h' : k.Same u v) :
    k.Same t v := by
  cases k <;> exact Eq.trans h h'

section

variable (row : RefreshToken) (id : RowId) (now : Instant)

theorem RefreshToken.revoked_id : (row.revoked id now).id = row.id := by
  unfold RefreshToken.revoked
  split <;> rfl

theorem RefreshToken.revoked_tokenId : (row.revoked id now).tokenId = row.tokenId := by
  unfold RefreshToken.revoked
  split <;> rfl

theorem RefreshToken.revoked_tokenHash : (row.revoked id now).tokenHash = row.tokenHash := by
  unfold RefreshToken.revoked
  split <;> rfl

end

theorem User.loggedIn_id (user : User) (id : UserId) (failures : Int)
    (lockedUntil : Option Instant) : (user.loggedIn id failures lockedUntil).id = user.id := by
  unfold User.loggedIn
  split <;> rfl

theorem token_revoke (t : Tables) (id id' : RowId) (now : Instant) (route : Route)
    (presented : Token) : ((Write.revoke id now route presented).apply t).token id' =
      (t.token id').map (·.revoked id now) := by
  simp only [Tables.token, Write.apply, List.find?_map]
  congr 2
  funext row
  simp [RefreshToken.revoked_id]

theorem user_setLogin (t : Tables) (id id' : UserId) (failures : Int)
    (lockedUntil : Option Instant) : ((Write.setLogin id failures lockedUntil).apply t).user id' =
      (t.user id').map (·.loggedIn id failures lockedUntil) := by
  simp only [Tables.user, Write.apply, List.find?_map]
  congr 2
  funext user
  simp [User.loggedIn_id]

/-- Rows that are revoked keep their places in an index. -/
theorem map_id_filter_revoked (rows : List RefreshToken) (id : RowId) (now : Instant)
    {wanted : RefreshToken → Bool} (h : ∀ row : RefreshToken, wanted (row.revoked id now) = wanted row) :
    ((rows.map (·.revoked id now)).filter wanted).map (·.id) = (rows.filter wanted).map (·.id) := by
  rw [List.filter_map, List.map_map]
  have hwanted : wanted ∘ (·.revoked id now) = wanted := funext h
  rw [hwanted]
  exact List.map_congr_left (fun row _ => row.revoked_id id now)

theorem Write.same_apply {k : Key} {w : Write} (t : Tables) (h : k ∉ w.keys) :
    k.Same t (w.apply t) := by
  cases w with
  | insertToken row =>
    cases k with
    | user id => rfl
    | token id =>
      have hne : row.id ≠ id := fun heq => h (by simp [keys, heq])
      simp [Key.Same, Tables.token, apply, List.find?_append, hne]
    | tokenId text =>
      have hne : row.tokenId ≠ text := fun heq => h (by simp [keys, heq])
      simp [Key.Same, Tables.named, apply, List.filter_append, hne]
    | tokenHash digest =>
      have hne : row.tokenHash ≠ digest := fun heq => h (by simp [keys, heq])
      simp [Key.Same, Tables.hashed, apply, List.filter_append, hne]
  | revoke id now route presented =>
    cases k with
    | user id' => rfl
    | token id' =>
      have hne : id' ≠ id := fun heq => h (by simp [keys, heq])
      rw [Key.Same, token_revoke]
      cases hrow : t.token id' with
      | none => rfl
      | some row =>
        have hid : row.id = id' := by simpa using List.find?_some hrow
        simp [RefreshToken.revoked, hid, hne]
    | tokenId text =>
      exact (map_id_filter_revoked t.tokens id now
        (fun row => by rw [row.revoked_tokenId id now])).symm
    | tokenHash digest =>
      exact (map_id_filter_revoked t.tokens id now
        (fun row => by rw [row.revoked_tokenHash id now])).symm
  | setLogin id failures lockedUntil =>
    cases k with
    | user id' =>
      have hne : id' ≠ id := fun heq => h (by simp [keys, heq])
      rw [Key.Same, user_setLogin]
      cases huser : t.user id' with
      | none => rfl
      | some user =>
        have hid : user.id = id' := by simpa using List.find?_some huser
        simp [User.loggedIn, hid, hne]
    | _ => rfl
  | insertAudit event => cases k <;> rfl
  | putUser user =>
    cases k with
    | user id =>
      have hne : user.id ≠ id := fun heq => h (by simp [keys, heq])
      simp only [Key.Same, Tables.user, apply, List.find?_append, List.find?_filter]
      have hfound : (fun other : User =>
          decide (decide (other.id ≠ user.id) = true ∧ decide (other.id = id) = true)) =
            (fun other => decide (other.id = id)) := by
        funext other
        by_cases hother : other.id = id
        · simp [hother, Ne.symm hne]
        · simp [hother]
      rw [hfound]
      simp [hne]
    | _ => rfl

def schema : Schema Tables Key Write Query where
  apply := Write.apply
  keys := Write.keys
  needs := Query.needs
  Same := Key.Same
  same_refl := Key.same_refl
  same_trans := Key.same_trans
  same_apply := Write.same_apply

abbrev Store (ι : Type) := Database Tables Key Write ι

abbrev Proc (ι α : Type) := Process (Statement Query) (Store ι) Error α

structure LoginRequest where
  email : String
  password : String
  deriving DecidableEq

/-- What a request draws: readings of the clock, in the order of the source, and the ids of a new
token and its row. -/
structure Draw where
  verifiedAt : Instant := 0
  decodedAt : Instant := 0
  now : Instant := 0
  issuedAt : Instant := 0
  accessAt : Instant := 0
  tokenId : String := ""
  rowId : RowId := 0
  deriving DecidableEq

structure Tokens where
  accessToken : Token
  refreshToken : Token
  tokenType : String := "bearer"
  deriving DecidableEq

/-- How the transaction of a login ends. -/
inductive LoginOutcome
  | failed : Option UserId → AuditPayload → LoginOutcome
  | accepted : User → LoginOutcome

def failedLoginLimit : Int := 5

/-- Fifteen minutes. -/
def lockoutDuration : Instant := 900000000

def unauthorized {ι α : Type} (detail : String) : Proc ι α := .fail (.http 401 detail)

section

variable {ι : Type} [DecidableEq ι] (H : Library) (i : ι)

def selectToken (tokenId : String) (tokenHash : Digest) : Proc ι (Option RefreshToken) :=
  schema.execute i (.selectToken tokenId tokenHash)
    (fun t => (oneOrNone (t.presented tokenId tokenHash)).map (fun found => (found, [])))

def selectUser (id : UserId) : Proc ι (Option User) :=
  schema.execute i (.selectUser id) (fun t => .ok (t.user id, []))

/-- The row of the token that is rotated is revoked. -/
def updateToken (id : RowId) (now : Instant) (presented : Token) : Proc ι PUnit :=
  schema.execute i (.updateToken id now) (fun t =>
    .ok (⟨⟩, (t.token id).toList.map (fun _ => .revoke id now .refresh presented)))

/-- The rows that were updated. -/
def revokeToken (tokenId : String) (tokenHash : Digest) (now : Instant) (presented : Token) :
    Proc ι (List RefreshToken) :=
  schema.execute i (.revokeToken tokenId tokenHash) (fun t =>
    let rows := (t.presented tokenId tokenHash).filter (·.revokedAt = none)
    .ok (rows, rows.map (fun row => .revoke row.id now .logout presented)))

def insertToken (row : RefreshToken) : Proc ι PUnit :=
  schema.execute i (.insertToken row) (fun t =>
    if (t.user row.userId).isNone then .error (.integrity "refresh_tokens_user_id_fkey")
    else if (t.token row.id).isSome then .error (.integrity "refresh_tokens_pkey")
    else if t.named row.tokenId ≠ [] then .error (.integrity "refresh_tokens_token_id_key")
    else if t.hashed row.tokenHash ≠ [] then .error (.integrity "refresh_tokens_token_hash_key")
    else .ok (⟨⟩, [.insertToken row]))

def selectLogin (email : String) : Proc ι (Option User) :=
  schema.execute i (.selectLogin email)
    (fun t => (oneOrNone (t.emailed email)).map (fun found => (found, [])))

def updateLogin (id : UserId) (failures : Int) (lockedUntil : Option Instant) : Proc ι PUnit :=
  schema.execute i (.updateLogin id) (fun _ => .ok (⟨⟩, [.setLogin id failures lockedUntil]))

def audit (eventType : String) (actorUserId : Option UserId) (payload : AuditPayload) :
    Proc ι PUnit :=
  schema.transaction i (schema.execute i .insertAudit
    (fun _ => .ok (⟨⟩, [.insertAudit ⟨eventType, actorUserId, payload⟩])))

/-- The end of a login and of a rotation: a new refresh token, its row, and the audit. -/
def grant (eventType : String) (user : User) (draw : Draw) : Proc ι Tokens :=
  match Role.ofValue user.role with
  | none => .fail .valueError
  | some role => do
    let principal : Principal := ⟨H.userText user.id, role⟩
    let refreshToken := H.issue draw.issuedAt principal .refresh (some draw.tokenId)
    schema.transaction i (insertToken i
      { id := draw.rowId
        userId := user.id
        tokenId := draw.tokenId
        tokenHash := H.sha256 refreshToken
        expiresAt := draw.now + TokenType.refresh.lifetime })
    audit i eventType (some user.id) .empty
    return { accessToken := H.issue draw.accessAt principal .access none
             refreshToken := refreshToken }

/-- The transaction of a login, which holds the user's row. -/
def attemptLogin (request : LoginRequest) (now : Instant) : Proc ι LoginOutcome :=
  schema.transaction i (do
    match ← selectLogin i request.email with
    | none => return .failed none (.email request.email)
    | some user =>
      if user.status ≠ "ACTIVE" ∨ (∃ locked ∈ user.lockedUntil, now < locked) then
        return .failed none (.email request.email)
      else if !H.verifyPassword user.passwordHash request.password then do
        let failures := user.failedLoginCount + 1
        let lockedUntil := if failedLoginLimit ≤ failures then some (now + lockoutDuration) else none
        updateLogin i user.id failures lockedUntil
        return .failed (some user.id) (.failures failures lockedUntil.isSome)
      else do
        updateLogin i user.id 0 none
        return .accepted user)

/-- `login`; the address of the request is in lower case already. -/
def login (request : LoginRequest) (draw : Draw) : Proc ι Tokens := do
  match ← attemptLogin H i request draw.now with
  | .failed actor payload => do
    audit i "AUTH_LOGIN_FAILED" actor payload
    unauthorized "Invalid credentials."
  | .accepted user => grant H i "AUTH_LOGIN_SUCCEEDED" user draw

/-- The transaction of a rotation: it revokes the token, and returns its user. -/
def rotate (tokenId : String) (presented : Token) (now : Instant) : Proc ι User :=
  schema.transaction i (do
    match ← selectToken i tokenId (H.sha256 presented) with
    | none => unauthorized "Invalid refresh token."
    | some record =>
      if record.revokedAt ≠ none ∨ record.expiresAt ≤ now then unauthorized "Invalid refresh token."
      else
        match ← selectUser i record.userId with
        | none => unauthorized "Invalid refresh token."
        | some user =>
          if user.status ≠ "ACTIVE" then unauthorized "Invalid refresh token."
          else do
            updateToken i record.id now presented
            return user)

def refresh (presented : Token) (draw : Draw) : Proc ι Tokens :=
  match H.decodeClaims draw.verifiedAt draw.decodedAt presented .refresh with
  | .error _ => unauthorized "Invalid refresh token."
  | .ok claims =>
    match claims.jti with
    | none => unauthorized "Invalid refresh token."
    | some tokenId => do
      let user ← rotate H i tokenId presented draw.now
      grant H i "AUTH_REFRESH_ROTATED" user draw

/-- Only an `AuthorizationError` is caught. -/
def logout (presented : Token) (draw : Draw) : Proc ι PUnit :=
  match H.decodeClaims draw.verifiedAt draw.decodedAt presented .refresh with
  | .error (.authorization _) => .ret ⟨⟩
  | .error .jwt => .fail (.auth .jwt)
  | .ok claims => schema.transaction i (match claims.jti with
    | none => .fail (.keyError "jti")
    | some tokenId => do
      let _ ← revokeToken i tokenId (H.sha256 presented) draw.now presented)

inductive Call
  | login : LoginRequest → Draw → Call
  | refresh : Token → Draw → Call
  | logout : Token → Draw → Call
  deriving DecidableEq

def call (i : ι) : Call → Proc ι PUnit
  | .login request draw => do
    let _ ← login H i request draw
  | .refresh presented draw => do
    let _ ← refresh H i presented draw
  | .logout presented draw => logout H i presented draw

end

/-- Elsewhere, users are added and changed. -/
def Users (t u : Tables) : Prop := u.tokens = t.tokens ∧ u.revocations = t.revocations

end NoSQLOptimizer.Auth

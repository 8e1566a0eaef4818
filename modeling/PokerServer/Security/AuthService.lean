import PokerServer.Lib.Threads
import PokerServer.Storage.InMemoryAccountStore

/-!
# The authentication service

Model of `src/poker/security/auth_service.cpp` as scripts over the account store.

`verifyPassword` and `hashSessionToken` are functions, the latter injective. `hashPassword` and
`generateSessionToken` are calls that the environment answers; a token is not empty and never
repeated (`Accounts.issued`).

Times are milliseconds, unbounded integers. `std::isalnum` is the one of the "C" locale, so sizes
and characters of valid names are those of ASCII.
-/

namespace PokerServer

inductive AuthError where
  | ok
  | invalidUsername
  | weakPassword
  | usernameTaken
  | invalidCredentials
  | accountDisabled
  | invalidSession
  | storageUnavailable
  deriving DecidableEq

structure AuthenticatedSession where
  userId : UserId := 0
  username : String := ""
  rawToken : String := ""
  walletBalance : Int := 0
  expiresAtUnixMs : Int := 0
  lastClientSequence : Nat := 0
  deriving DecidableEq

structure AuthResult (α : Type) where
  error : AuthError := .ok
  value : Option α := none
  message : String := ""
  deriving DecidableEq

/-- `explicit operator bool`, with the value. -/
def AuthResult.toOption {α : Type} (r : AuthResult α) : Option α :=
  if r.error = .ok then r.value else none

/-- `{AuthError::ok, value, {}}`. -/
def AuthResult.success {α : Type} (value : α) : AuthResult α := { value := some value }

structure CryptoProvider where
  verifyPassword : String → String → Bool
  hashSessionToken : String → String
  hash_injective : Function.Injective hashSessionToken

structure AuthService where
  crypto : CryptoProvider
  sessionTtlSeconds : Nat := 86400
  initialChips : Int := 100000
  dummyPasswordHash : String

inductive AuthOp where
  | store (op : AccountOp)
  | hashPassword (password : String)
  | generateSessionToken

abbrev AuthOp.Ans : AuthOp → Type
  | .store op => op.Ans
  | .hashPassword _ => String
  | .generateSessionToken => String

abbrev AuthScript := Script AuthOp AuthOp.Ans

namespace AuthService

def ask (op : AccountOp) : AuthScript op.Ans := Script.perform (AuthOp.store op)

def validUsername (username : String) : Bool :=
  decide (3 ≤ username.utf8ByteSize) && decide (username.utf8ByteSize ≤ 32) &&
    username.toList.all fun c => c.isAlphanum || c == '_'

def validPassword (password : String) : Bool :=
  decide (10 ≤ password.utf8ByteSize) && decide (password.utf8ByteSize ≤ 128)

variable (auth : AuthService)

def expiry (now : Int) : Int := now + auth.sessionTtlSeconds * 1000

def registerUser (username password : String) : AuthScript (AuthResult UserRecord) :=
  if validUsername username = false then
    pure { error := .invalidUsername
           message := "username must be 3-32 ASCII letters, digits, or underscores" }
  else if validPassword password = false then
    pure { error := .weakPassword, message := "password must contain 10-128 characters" }
  else do
    let passwordHash ← Script.perform (AuthOp.hashPassword password)
    let created ← ask (.createUser username passwordHash auth.initialChips)
    match created.toOption with
    | some user => pure (.success user)
    | none =>
      if created.error = .duplicate then
        pure { error := .usernameTaken, message := "username already exists" }
      else pure { error := .storageUnavailable, message := created.message }

/-- The end of `login`, for a user who has given the right password. -/
def openSession (user : UserRecord) (now : Int) : AuthScript (AuthResult AuthenticatedSession) := do
  let rawToken ← Script.perform AuthOp.generateSessionToken
  let stored ← ask (.storeSession
    { userId := user.id
      tokenHash := auth.crypto.hashSessionToken rawToken
      expiresAtUnixMs := auth.expiry now })
  if stored ≠ .ok then
    pure { error := .storageUnavailable, message := "could not create session" }
  else
    pure (.success
      { userId := user.id
        username := user.username
        rawToken
        walletBalance := user.walletBalance
        expiresAtUnixMs := auth.expiry now })

def login (username password : String) (now : Int) :
    AuthScript (AuthResult AuthenticatedSession) := do
  let found ← ask (.findUserByName username)
  let encodedHash := (found.toOption.map UserRecord.passwordHash).getD auth.dummyPasswordHash
  let passwordMatches := auth.crypto.verifyPassword password encodedHash
  match found.toOption, passwordMatches with
  | some user, true =>
    if user.disabled then pure { error := .accountDisabled, message := "account is disabled" }
    else auth.openSession user now
  | _, _ =>
    pure { error := if found.error = .unavailable then .storageUnavailable else .invalidCredentials
           message := "invalid username or password" }

def authenticate (rawToken : String) (now : Int) :
    AuthScript (AuthResult AuthenticatedSession) :=
  if rawToken = "" then
    pure { error := .invalidSession, message := "session token is required" }
  else do
    let found ← ask (.findSession (auth.crypto.hashSessionToken rawToken) now)
    match found.toOption with
    | none =>
      pure { error := if found.error = .unavailable then .storageUnavailable else .invalidSession
             message := found.message }
    | some session =>
      let user ← ask (.findUserById session.userId)
      match user.toOption.filter fun user => !user.disabled with
      | none => pure { error := .invalidSession, message := "session user is unavailable" }
      | some user =>
        pure (.success
          { userId := user.id
            username := user.username
            walletBalance := user.walletBalance
            expiresAtUnixMs := session.expiresAtUnixMs
            lastClientSequence := session.lastClientSequence })

/-- The end of `refresh`, for an authenticated token. -/
def rotate (rawToken : String) (authenticated : AuthenticatedSession) (now : Int) :
    AuthScript (AuthResult AuthenticatedSession) := do
  let newRawToken ← Script.perform AuthOp.generateSessionToken
  let rotated ← ask (.rotateSession (auth.crypto.hashSessionToken rawToken)
    { userId := authenticated.userId
      tokenHash := auth.crypto.hashSessionToken newRawToken
      expiresAtUnixMs := auth.expiry now
      lastClientSequence := authenticated.lastClientSequence } now)
  if rotated ≠ .ok then
    pure { error := if rotated = .unavailable then .storageUnavailable else .invalidSession
           message := "session could not be refreshed" }
  else
    pure (.success
      { authenticated with rawToken := newRawToken, expiresAtUnixMs := auth.expiry now })

def refresh (rawToken : String) (now : Int) : AuthScript (AuthResult AuthenticatedSession) := do
  let authenticated ← auth.authenticate rawToken now
  match authenticated.toOption with
  | none => pure authenticated
  | some session => auth.rotate rawToken session now

def logout (rawToken : String) : AuthScript AuthError :=
  if rawToken = "" then pure .invalidSession
  else do
    let error ← ask (.revokeSession (auth.crypto.hashSessionToken rawToken))
    if error = .ok then pure .ok
    else pure (if error = .unavailable then .storageUnavailable else .invalidSession)

end AuthService

inductive AuthCall where
  | registerUser (username password : String)
  | login (username password : String) (nowUnixMs : Int)
  | authenticate (rawToken : String) (nowUnixMs : Int)
  | refresh (rawToken : String) (nowUnixMs : Int)
  | logout (rawToken : String)

abbrev AuthCall.Res : AuthCall → Type
  | .registerUser .. => AuthResult UserRecord
  | .login .. => AuthResult AuthenticatedSession
  | .authenticate .. => AuthResult AuthenticatedSession
  | .refresh .. => AuthResult AuthenticatedSession
  | .logout _ => AuthError

def AuthService.program (auth : AuthService) : (call : AuthCall) → AuthScript call.Res
  | .registerUser username password => auth.registerUser username password
  | .login username password now => auth.login username password now
  | .authenticate rawToken now => auth.authenticate rawToken now
  | .refresh rawToken now => auth.refresh rawToken now
  | .logout rawToken => auth.logout rawToken

/-- What the random generator and the password hash say. -/
structure AuthEnv where
  token : String := ""
  passwordHash : String := ""

/-- The account store, and the tokens that have been generated. -/
structure Accounts where
  store : InMemoryAccountStore := {}
  issued : List String := []

namespace Accounts

def exec (env : AuthEnv) (s : Accounts) : (op : AuthOp) → Option (op.Ans × Accounts)
  | .store op => (s.store.perform op).map fun r => (r.1, { s with store := r.2 })
  | .hashPassword _ => some (env.passwordHash, s)
  | .generateSessionToken =>
    if env.token = "" ∨ env.token ∈ s.issued then none
    else some (env.token, { s with issued := env.token :: s.issued })

variable {env : AuthEnv} {s s' : Accounts}

theorem exec_store {op : AccountOp} {ans : op.Ans} (h : exec env s (.store op) = some (ans, s')) :
    ∃ store', s.store.perform op = some (ans, store') ∧ s' = { s with store := store' } := by
  obtain ⟨⟨ans', store'⟩, hperform, heq⟩ := Option.map_eq_some_iff.mp h
  obtain ⟨rfl, rfl⟩ := Prod.mk.inj heq
  exact ⟨store', hperform, rfl⟩

theorem exec_token {token : String} (h : exec env s .generateSessionToken = some (token, s')) :
    token ≠ "" ∧ token ∉ s.issued ∧ s' = { s with issued := token :: s.issued } := by
  obtain ⟨hfresh, heq⟩ := Option.ite_none_left_eq_some.mp h
  obtain ⟨rfl, rfl⟩ := Prod.mk.inj (Option.some.inj heq)
  rw [not_or] at hfresh
  exact ⟨hfresh.1, hfresh.2, rfl⟩

theorem exec_hash {password hash : String}
    (h : exec env s (.hashPassword password) = some (hash, s')) : s' = s :=
  (Prod.mk.inj (Option.some.inj h)).2.symm

end Accounts

end PokerServer

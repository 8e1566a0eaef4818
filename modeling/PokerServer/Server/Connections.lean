import PokerServer.Application.IdempotencyCache
import PokerServer.Lib.Typestate
import PokerServer.Security.AuthService

/-!
# Who a connection speaks for

Model of the part of `ProtocolService::handle` (`apps/server/protocol_service.cpp`) that comes
before the commands: registration, login, the two ways to come back with a token, `authorize` with
`beginRequest`, logout and the refresh of a session. A request is one script: what the event loop
does, and then what its storage task does, which goes on after any delay and between any other
steps. Each block under `session->mutex` is one call, as is each call of the account store.

* `nowUnixMs()` is read where the source reads it; inside a locked block it is read with the block.
* `post` answers whether the storage queue takes the task. A task that the queue takes but never
  runs, or that throws, is a thread that does not go on.
* A command is passed on (`Outcome.command`) with the user it runs for, and so is the second call
  of `handle` in `RECONNECT_REQUEST` (`Outcome.again`), which begins like any other request.
* `setTable` is what the commands write into the session.
* A cached response is kept as it is, so that it always parses.

Left out: metrics, and what `setConnected` does in the room.
-/

namespace PokerServer

inductive ServerRole where
  | standalone
  | lobby
  | game
  deriving DecidableEq

inductive ErrorCode where
  | ok
  | invalidMessage
  | unauthenticated
  | forbidden
  | notFound
  | conflict
  | rateLimited
  | outOfSequence
  | internalError
  | serviceUnavailable
  | tableRuleViolation
  deriving DecidableEq

structure ConnectionSession where
  userId : Option UserId := none
  username : String := ""
  rawToken : String := ""
  expiresAtUnixMs : Int := 0
  tableId : Option Nat := none
  authenticationInProgress : Bool := false

namespace ProtocolService

inductive Response where
  | error (code : ErrorCode) (message : String)
  | registered (userId : UserId)
  | loggedIn (userId : UserId) (sessionToken : String) (walletChips expiresAtUnixMs : Int)
  | authenticated (userId : UserId) (username : String) (walletChips expiresAtUnixMs : Int)
  | heartbeat (clientTimeUnixMs serverTimeUnixMs : Int)
  | sessionRefreshed (sessionToken : String) (expiresAtUnixMs : Int)
  | commandAck (message : String)
  deriving DecidableEq

/-- The message type with the body, where `has_..._request()` says that there is one. -/
inductive RequestBody where
  | register (body : Option (String × String))
  | login (body : Option (String × String))
  | authenticateSession (body : Option String)
  | heartbeat (body : Option Int)
  | reconnect (body : Option String)
  | logout
  | refreshSession (body : Option String)
  | lobbyCommand
  | gameCommand
  | unsupported

structure Envelope where
  protocolVersion : Nat := 1
  requestId : Nat
  clientSequence : Nat := 0
  sessionToken : String := ""
  body : RequestBody

inductive Outcome where
  | answered
  | command (user : UserId)
  | again

end ProtocolService

open ProtocolService

namespace ConnectionSession

/-- `user_id.reset()` and what goes with it. -/
def cleared (session : ConnectionSession) : ConnectionSession :=
  { session with userId := none, rawToken := "", expiresAtUnixMs := 0, tableId := none }

inductive Turn where
  | alreadyAuthenticated
  | inProgress
  | begun

structure Check where
  userId : Option UserId
  expired : Bool
  tableId : Option Nat

/-- The blocks under `session->mutex`. -/
inductive Op where
  | beginAuthentication
  | endAuthentication
  | setIdentity (userId : UserId) (username rawToken : String) (expiresAtUnixMs : Int)
  | checkExpiry
  | read
  | clearIdentity
  | renewToken (userId : UserId) (token rawToken : String) (expiresAtUnixMs : Int)
  | setTable (tableId : Option Nat)

abbrev Op.Ans : Op → Type
  | .beginAuthentication => Turn
  | .checkExpiry => Check
  | .read => ConnectionSession
  | .renewToken .. => Bool
  | _ => Unit

def perform (session : ConnectionSession) (now : Int) : (op : Op) → op.Ans × ConnectionSession
  | .beginAuthentication =>
    if session.userId.isSome ∧ now < session.expiresAtUnixMs then (.alreadyAuthenticated, session)
    else
      let session := if session.userId.isSome then session.cleared else session
      (if session.authenticationInProgress then .inProgress else .begun,
        { session with authenticationInProgress := true })
  | .endAuthentication => ((), { session with authenticationInProgress := false })
  | .setIdentity userId username rawToken expiresAtUnixMs =>
    ((), { session with
      userId := some userId
      username
      rawToken
      expiresAtUnixMs
      authenticationInProgress := false })
  | .checkExpiry =>
    let expired := session.userId.isSome && decide (session.expiresAtUnixMs ≤ now)
    (⟨session.userId, expired, session.tableId⟩, if expired then session.cleared else session)
  | .read => (session, session)
  | .clearIdentity => ((), session.cleared)
  | .renewToken userId token rawToken expiresAtUnixMs =>
    let identityChanged := decide (session.userId ≠ some userId ∨ session.rawToken ≠ token)
    (identityChanged,
      if identityChanged then session else { session with rawToken, expiresAtUnixMs })
  | .setTable tableId => ((), { session with tableId })

end ConnectionSession

/-! ## The calls of a request -/

inductive ConnectionOp where
  | account (op : AuthOp)
  | nowUnixMs
  | post
  | session (conn : Nat) (op : ConnectionSession.Op)
  | resetRequests (user : UserId)
  | beginRequest (user : UserId) (requestId clientSequence : Nat)
  | completeRequest (user : UserId) (requestId : Nat) (response : Response)
  | setConnected (tableId : Nat) (user : UserId)
  | send (requestId : Nat) (response : Response)

abbrev ConnectionOp.Ans : ConnectionOp → Type
  | .account op => op.Ans
  | .nowUnixMs => Int
  | .post => Bool
  | .session _ op => op.Ans
  | .beginRequest .. => RequestDecision Response
  | _ => Unit

abbrev ConnectionScript := Script ConnectionOp ConnectionOp.Ans

structure Connections where
  accounts : Accounts := {}
  sessions : Nat → ConnectionSession := fun _ => {}
  idempotency : IdempotencyCache Response := {}

/-- What a call meets: the time, whether the storage queue takes a task, what the random generator
and the password hash say. -/
structure ConnectionEnv where
  now : Int := 0
  accepts : Bool := true
  auth : AuthEnv := {}

namespace Connections

def setSession (s : Connections) (conn : Nat) (session : ConnectionSession) : Connections :=
  { s with sessions := Function.update s.sessions conn session }

def exec (env : ConnectionEnv) (s : Connections) :
    (op : ConnectionOp) → Option (op.Ans × Connections)
  | .account op =>
    (Accounts.exec env.auth s.accounts op).map fun r => (r.1, { s with accounts := r.2 })
  | .nowUnixMs => some (env.now, s)
  | .post => some (env.accepts, s)
  | .session conn op =>
    let r := (s.sessions conn).perform env.now op
    some (r.1, s.setSession conn r.2)
  | .resetRequests user => some ((), { s with idempotency := s.idempotency.reset user })
  | .beginRequest user requestId clientSequence =>
    let r := s.idempotency.begin user requestId clientSequence
    some (r.1, { s with idempotency := r.2 })
  | .completeRequest user requestId response =>
    some ((), { s with idempotency := s.idempotency.complete user requestId response })
  | .setConnected .. => some ((), s)
  | .send .. => some ((), s)

end Connections

/-! ## The requests -/

def AuthError.toString : AuthError → String
  | .ok => "ok"
  | .invalidUsername => "invalid username"
  | .weakPassword => "weak password"
  | .usernameTaken => "username taken"
  | .invalidCredentials => "invalid credentials"
  | .accountDisabled => "account disabled"
  | .invalidSession => "invalid session"
  | .storageUnavailable => "storage unavailable"

structure ProtocolService where
  auth : AuthService
  role : ServerRole := .standalone

namespace ProtocolService

/-- A call of `auth_`. -/
def account {α : Type} (call : AuthScript α) : ConnectionScript α :=
  call.subst fun op => .perform (.account op)

def locked (conn : Nat) (op : ConnectionSession.Op) : ConnectionScript op.Ans :=
  Script.perform (ConnectionOp.session conn op)

def send (request : Envelope) (response : Response) : ConnectionScript Outcome := do
  Script.perform (ConnectionOp.send request.requestId response)
  pure .answered

/-- `reply`. -/
def reply (user : UserId) (request : Envelope) (response : Response) :
    ConnectionScript Outcome := do
  Script.perform (ConnectionOp.completeRequest user request.requestId response)
  send request response

def fail (request : Envelope) (code : ErrorCode) (message : String) (user : Option UserId := none) :
    ConnectionScript Outcome :=
  match user with
  | some user => reply user request (.error code message)
  | none => send request (.error code message)

def acknowledge (user : UserId) (request : Envelope) (message : String) :
    ConnectionScript Outcome :=
  reply user request (.commandAck message)

/-- The first block of the requests that authenticate. -/
def takeTurn (conn : Nat) (request : Envelope)
    (alreadyAuthenticated begun : ConnectionScript Outcome) :
    ConnectionScript Outcome := do
  match ← locked conn .beginAuthentication with
  | .alreadyAuthenticated => alreadyAuthenticated
  | .inProgress =>
    fail request .conflict "another authentication request is already running"
  | .begun => begun

/-- The storage task of the requests that authenticate, `call` being the call of `auth_`. -/
def authenticating (conn : Nat) (request : Envelope)
    (call : Int → AuthScript (AuthResult AuthenticatedSession))
    (rawToken : AuthenticatedSession → String)
    (respond : AuthenticatedSession → ConnectionScript Outcome) : ConnectionScript Outcome := do
  if ← Script.perform .post then
    let now ← Script.perform .nowUnixMs
    let result ← account (call now)
    match result.toOption with
    | none =>
      locked conn .endAuthentication
      fail request
        (if result.error = .storageUnavailable then .serviceUnavailable else .unauthenticated)
        result.message
    | some value =>
      locked conn
        (.setIdentity value.userId value.username (rawToken value) value.expiresAtUnixMs)
      Script.perform (ConnectionOp.resetRequests value.userId)
      respond value
  else
    locked conn .endAuthentication
    fail request .serviceUnavailable "storage queue is full"

/-- The storage task of `REGISTER_REQUEST`. -/
def registering (service : ProtocolService) (request : Envelope) (username password : String) :
    ConnectionScript Outcome := do
  if ← Script.perform .post then
    let registered ← account (service.auth.registerUser username password)
    match registered.toOption with
    | none =>
      fail request
        (if registered.error = .usernameTaken then .conflict
          else if registered.error = .storageUnavailable then .serviceUnavailable
          else .invalidMessage)
        registered.message
    | some user => send request (.registered user.id)
  else fail request .serviceUnavailable "storage queue is full"

/-- `beginRequest`. -/
def beginRequest (user : UserId) (request : Envelope) : ConnectionScript Bool := do
  let decision ← Script.perform (.beginRequest user request.requestId request.clientSequence)
  match decision.status, decision.cachedResponse with
  | .accepted, _ => pure true
  | .duplicate, some cached =>
    let _ ← send request cached
    pure false
  | .inFlight, _ =>
    let _ ← fail request .conflict "request is already being processed"
    pure false
  | .capacityExceeded, _ =>
    let _ ← fail request .rateLimited "too many requests are still awaiting cached responses"
    pure false
  | _, _ =>
    let _ ← fail request .outOfSequence "client sequence is stale or contains a gap"
    pure false

/-- `rooms_.setConnected(table, user, false)`, if the session has a table. -/
def leaveTable (tableId : Option Nat) (user : UserId) : ConnectionScript Unit :=
  match tableId with
  | some tableId => Script.perform (ConnectionOp.setConnected tableId user)
  | none => pure ()

/-- `authorize`. -/
def authorize (conn : Nat) (request : Envelope) : ConnectionScript (Option UserId) := do
  let check ← locked conn .checkExpiry
  match check.userId, check.expired with
  | some user, false =>
    if ← beginRequest user request then pure (some user) else pure none
  | some user, true =>
    leaveTable check.tableId user
    let _ ← fail request .unauthenticated "session expired; login again"
    pure none
  | none, _ =>
    let _ ← fail request .unauthenticated "login or reconnect is required before this command"
    pure none

/-- The token that a logout ends. -/
def endedToken (session : ConnectionSession) (request : Envelope) : String :=
  if session.rawToken = "" then request.sessionToken else session.rawToken

/-- `LOGOUT_REQUEST`. -/
def logout (service : ProtocolService) (conn : Nat) (user : UserId) (request : Envelope) :
    ConnectionScript Outcome := do
  let session ← locked conn .read
  if ← Script.perform .post then
    let error ← account (service.auth.logout (endedToken session request))
    if error ≠ .ok then
      fail request (if error = .storageUnavailable then .serviceUnavailable else .unauthenticated)
        error.toString user
    else
      locked conn .clearIdentity
      Script.perform (ConnectionOp.resetRequests user)
      leaveTable session.tableId user
      acknowledge user request "logged out"
  else fail request .serviceUnavailable "storage queue is full" user

/-- `REFRESH_SESSION_REQUEST`, for a token that is not empty. -/
def refreshSession (service : ProtocolService) (conn : Nat) (user : UserId) (request : Envelope)
    (token : String) : ConnectionScript Outcome := do
  let session ← locked conn .read
  if session.rawToken ≠ token then
    fail request .forbidden "refresh token does not belong to this connection" user
  else if ← Script.perform .post then
    let now ← Script.perform .nowUnixMs
    let refreshed ← account (service.auth.refresh token now)
    match refreshed.toOption with
    | none =>
      fail request
        (if refreshed.error = .storageUnavailable then .serviceUnavailable else .unauthenticated)
        refreshed.message user
    | some value =>
      if ← locked conn (.renewToken user token value.rawToken value.expiresAtUnixMs) then
        fail request .conflict "connection identity changed while refreshing" user
      else reply user request (.sessionRefreshed value.rawToken value.expiresAtUnixMs)
  else fail request .serviceUnavailable "storage queue is full" user

/-- From `authorize` to the `switch`. -/
def serve (service : ProtocolService) (conn : Nat) (request : Envelope) :
    ConnectionScript Outcome := do
  match ← authorize conn request with
  | none => pure .answered
  | some user =>
    match service.role, request.body with
    | .game, .lobbyCommand =>
      fail request .forbidden "this command must be sent to a lobby node" user
    | .lobby, .gameCommand | .lobby, .reconnect _ =>
      fail request .forbidden "this command must be sent to the assigned game node" user
    | _, .logout => service.logout conn user request
    | _, .refreshSession body =>
      match body.filter (· ≠ "") with
      | none => fail request .invalidMessage "refresh-session token is missing" user
      | some token => service.refreshSession conn user request token
    | _, .unsupported => fail request .invalidMessage "unsupported message type" user
    | _, _ => pure (.command user)

/-- `handle`. -/
def handle (service : ProtocolService) (conn : Nat) (request : Envelope) :
    ConnectionScript Outcome :=
  if request.protocolVersion ≠ 1 ∨ request.requestId = 0 ∨ 2 ^ 63 - 1 < request.requestId then
    fail request .invalidMessage "protocol version and request id are required"
  else
    match request.body with
    | .register none => fail request .invalidMessage "register body is missing"
    | .register (some (username, password)) => service.registering request username password
    | .login none => fail request .invalidMessage "login body is missing"
    | .login (some (username, password)) =>
      takeTurn conn request
        (fail request .conflict "this connection is already authenticated")
        (authenticating conn request (service.auth.login username password) (·.rawToken)
          fun value => send request
            (.loggedIn value.userId value.rawToken value.walletBalance value.expiresAtUnixMs))
    | .authenticateSession none =>
      fail request .invalidMessage "authenticate-session body is missing"
    | .authenticateSession (some token) =>
      takeTurn conn request
        (fail request .conflict "this connection is already authenticated")
        (authenticating conn request (service.auth.authenticate token) (fun _ => token)
          fun value => send request
            (.authenticated value.userId value.username value.walletBalance value.expiresAtUnixMs))
    | .heartbeat body => do
      let now ← Script.perform .nowUnixMs
      send request (.heartbeat (body.getD 0) now)
    | .reconnect none => fail request .invalidMessage "reconnect body is missing"
    | .reconnect (some token) =>
      let token := if token = "" then request.sessionToken else token
      takeTurn conn request (service.serve conn request)
        (authenticating conn request (service.auth.authenticate token) (fun _ => token)
          fun _ => pure .again)
    | _ => service.serve conn request

end ProtocolService

/-! ## Calls that only answer or check -/

namespace ProtocolService

/-- Neither a call of the account store nor a change to who the connection is, but for an
expired session. -/
def Plain : ConnectionOp → Prop
  | .account _ => False
  | .session _ .checkExpiry => True
  | .session _ _ => False
  | _ => True

theorem plain_send (request : Envelope) (response : Response) :
    (send request response).Only Plain :=
  ⟨trivial, fun _ => trivial⟩

theorem plain_reply (user : UserId) (request : Envelope) (response : Response) :
    (reply user request response).Only Plain :=
  ⟨trivial, fun _ => plain_send request response⟩

theorem plain_fail (request : Envelope) (code : ErrorCode) (message : String)
    (user : Option UserId) : (fail request code message user).Only Plain := by
  cases user with
  | none => exact plain_send request _
  | some user => exact plain_reply user request _

theorem plain_beginRequest (user : UserId) (request : Envelope) :
    (beginRequest user request).Only Plain := by
  refine Script.only_perform_bind.mpr ⟨trivial, fun decision => ?_⟩
  split
  · trivial
  · exact (plain_send _ _).bind fun _ => trivial
  · exact (plain_fail _ _ _ _).bind fun _ => trivial
  · exact (plain_fail _ _ _ _).bind fun _ => trivial
  · exact (plain_fail _ _ _ _).bind fun _ => trivial

theorem plain_leaveTable (tableId : Option Nat) (user : UserId) :
    (leaveTable tableId user).Only Plain := by
  cases tableId with
  | none => trivial
  | some tableId => exact ⟨trivial, fun _ => trivial⟩

theorem plain_authorize (conn : Nat) (request : Envelope) :
    (authorize conn request).Only Plain := by
  refine Script.only_perform_bind.mpr ⟨trivial, fun check => ?_⟩
  split
  · refine (plain_beginRequest _ _).bind fun begun => ?_
    split <;> trivial
  · exact (plain_leaveTable _ _).bind fun _ => (plain_fail _ _ _ _).bind fun _ => trivial
  · exact (plain_fail _ _ _ _).bind fun _ => trivial

end ProtocolService

/-! ## Requests of any number of connections -/

inductive ConnectionCall where
  | handle (conn : Nat) (request : Envelope)
  | setTable (conn : Nat) (tableId : Option Nat)

def ConnectionCall.connection : ConnectionCall → Nat
  | .handle conn _ => conn
  | .setTable conn _ => conn

def ProtocolService.program (service : ProtocolService) : ConnectionCall → ConnectionScript Outcome
  | .handle conn request => service.handle conn request
  | .setTable conn tableId => do
    ProtocolService.locked conn (.setTable tableId)
    pure .answered

abbrev ConnectionEvent :=
  ThreadsEvent ConnectionEnv ConnectionOp ConnectionOp.Ans ConnectionCall fun _ => Outcome

abbrev ConnectionThreads :=
  Threads Connections ConnectionOp ConnectionOp.Ans ConnectionCall fun _ => Outcome

abbrev ProtocolService.Serves (service : ProtocolService) :
    ConnectionThreads → ConnectionEvent → ConnectionThreads → Prop :=
  ThreadsStep service.program Connections.exec

/-- The obligations for an invariant of all connections. -/
abbrev ConnectionsKeep {P : Type} (π : Typestate ConnectionOp ConnectionOp.Ans P)
    (start : ConnectionCall → P) (final : ConnectionCall → P → Outcome → Prop)
    (I : List ConnectionEvent → Connections → List (Nat × P) → Prop) : Prop :=
  π.Keeps start final Connections.exec I

abbrev ConnectionTrace := List (Step ConnectionThreads ConnectionEvent)

end PokerServer

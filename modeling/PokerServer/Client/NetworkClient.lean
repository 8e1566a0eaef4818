import PokerServer.Domain.Table
import PokerServer.Lib.Text

/-!
# The network client

Model of `apps/client/network_client.cpp`: what the user, the socket, the timers and the server do
to the client, one event after the other (`exec`).

* `outbox` holds the requests that the last event has made, in order, and whether each was written
  to the socket.
* A request gets its id when it is made, and its client sequence if it has one, also when it is not
  written afterwards.
* `abort` emits `disconnected` at once if the socket was connected, and nothing otherwise.
* `onReadyRead` processes every frame of a chunk, also after one of them has closed the socket. So a
  message is processed in any state of the socket.
* What Qt and the generated code compute is in `Runtime`.

Left out: the lists and numbers that are only shown (`tables_`, `players_`, `board_`, the street and
the bets), the signals to the user interface, and the codec, whose frames arrive as messages.
-/

namespace PokerServer

namespace NetworkClient

/-- The states of the socket that the client tells apart. -/
inductive SocketState where
  | unconnected
  | connecting
  | connected
  | closing
  deriving DecidableEq

inductive Body where
  | register (username password : String)
  | login (username password : String)
  | logout
  | listTables (pageSize : Nat)
  | createTable (name : String) (maxPlayers : Nat) (smallBlind bigBlind minBuyIn maxBuyIn : Int)
  | joinTable (tableId : Nat)
  | sitDown (tableId seat : Nat) (buyIn : Int) (joinTicket : String)
  | ready (tableId : Nat) (ready : Bool)
  | action (tableId handId : Nat) (target : Int) (action : Option ActionType)
  | leaveTable (tableId : Nat)
  | authenticateSession (token : String)
  | reconnect (tableId : Nat) (token : String) (lastServerSequence : Nat)
  | heartbeat
  deriving DecidableEq

/-- A request; one without a client sequence has 0. -/
structure Envelope where
  requestId : Nat
  clientSequence : Nat := 0
  body : Body
  deriving DecidableEq

/-- A request that was made, and whether it was written to the socket. -/
structure Made where
  envelope : Envelope
  written : Bool
  deriving DecidableEq

structure Snapshot where
  tableId : Nat
  handId : Nat
  serverSequence : Nat
  actingUserId : Nat
  players : List Nat
  deriving DecidableEq

/-- What the server sends, as far as the client reads it. -/
inductive Message where
  | registerResponse
  | loginResponse (userId : Nat) (walletChips : Int) (token : String)
  | authenticateSessionResponse (userId : Nat) (walletChips : Int)
  | refreshSessionResponse (token : String)
  | listTablesResponse
  | createTableResponse (endpoint joinTicket : String) (tableId : Nat)
  | joinTableResponse (endpoint joinTicket : String)
  | tableSnapshot (snapshot : Snapshot)
  | commandAck (message : String)
  | errorResponse (unauthenticated : Bool) (message : String)
  | tableEvent (eventType payload : String)
  | heartbeat
  | unsupported
  deriving DecidableEq

/-- The functions the client calls that are not its own. -/
structure Runtime where
  trimmed : String → String
  toLower : String → String
  toUShort : String → Option Nat
  /-- `SerializeToString` and `LengthFieldCodec::encode`; the text is what the client then shows. -/
  encode : Envelope → Except String Unit

end NetworkClient

structure NetworkClient where
  socket : NetworkClient.SocketState := .unconnected
  peer : String × Nat := ("", 0)
  /-- The delay of the reconnect timer, while it runs. -/
  reconnectTimer : Option Nat := none
  heartbeatTimer : Bool := false
  status : String := "Disconnected"
  lobbyHost : String := "127.0.0.1"
  lobbyPort : Nat := 6000
  gameHost : String := ""
  gamePort : Nat := 0
  sessionToken : String := ""
  pendingTicket : String := ""
  routingToGame : Bool := false
  authenticateOnConnect : Bool := false
  authenticated : Bool := false
  seated : Bool := false
  intentionalDisconnect : Bool := false
  reconnectAfterAuth : Bool := false
  reconnectAttempt : Nat := 0
  nextRequestId : Nat := 1
  clientSequence : Nat := 0
  lobbySequence : Nat := 0
  gameSequence : Nat := 0
  userId : Nat := 0
  walletChips : Int := 0
  tableId : Nat := 0
  handId : Nat := 0
  serverSequence : Nat := 0
  actingUserId : Nat := 0
  outbox : List NetworkClient.Made := []
  counted : 0 < nextRequestId := by decide

namespace NetworkClient

def connected (c : NetworkClient) : Bool := c.socket = .connected

def setStatus (c : NetworkClient) (value : String) : NetworkClient := { c with status := value }

/-! ## Requests -/

def envelope (c : NetworkClient) (body : Body) (sequenced : Bool) : Envelope × NetworkClient :=
  let next := { c with nextRequestId := c.nextRequestId + 1, counted := Nat.succ_pos _ }
  if sequenced then
    let next := { next with clientSequence := c.clientSequence + 1 }
    (⟨c.nextRequestId, c.clientSequence + 1, body⟩,
      if c.routingToGame then { next with gameSequence := c.clientSequence + 1 }
      else { next with lobbySequence := c.clientSequence + 1 })
  else (⟨c.nextRequestId, 0, body⟩, next)

/-- What becomes of a request is noted in the outbox. -/
def note (c : NetworkClient) (message : Envelope) (written : Bool) : NetworkClient :=
  { c with outbox := c.outbox ++ [⟨message, written⟩] }

def send (rt : Runtime) (c : NetworkClient) (message : Envelope) : NetworkClient :=
  if c.connected then
    match rt.encode message with
    | .error text => (c.note message false).setStatus text
    | .ok _ => c.note message true
  else (c.note message false).setStatus "Not connected"

/-- `send(envelope(..))`. -/
def request (rt : Runtime) (c : NetworkClient) (body : Body) (sequenced : Bool) : NetworkClient :=
  send rt (c.envelope body sequenced).2 (c.envelope body sequenced).1

def registerAccount (rt : Runtime) (c : NetworkClient) (username password : String) :
    NetworkClient :=
  request rt c (.register username password) false

def login (rt : Runtime) (c : NetworkClient) (username password : String) : NetworkClient :=
  request rt c (.login username password) false

def logout (rt : Runtime) (c : NetworkClient) : NetworkClient := request rt c .logout true

def refreshTables (rt : Runtime) (c : NetworkClient) : NetworkClient :=
  request rt c (.listTables 100) true

def createTable (rt : Runtime) (c : NetworkClient) (name : String) (maxPlayers : Int)
    (smallBlind bigBlind minimumBuyIn maximumBuyIn : Int) : NetworkClient :=
  request rt c (.createTable name (max 2 (min maxPlayers 6)).toNat smallBlind bigBlind minimumBuyIn
    maximumBuyIn) true

def joinTable (rt : Runtime) (c : NetworkClient) (tableId : Nat) : NetworkClient :=
  request rt { c with tableId } (.joinTable tableId) true

def sitDown (rt : Runtime) (c : NetworkClient) (seat buyIn : Int) : NetworkClient :=
  request rt c (.sitDown c.tableId seat.toNat buyIn c.pendingTicket) true

def setReady (rt : Runtime) (c : NetworkClient) (ready : Bool) : NetworkClient :=
  request rt c (.ready c.tableId ready) true

/-- The action of a name, after `trimmed` and `toLower`. -/
def actionOf (normalized : String) : Option ActionType :=
  if normalized = "fold" then some .fold
  else if normalized = "check" then some .check
  else if normalized = "call" then some .call
  else if normalized = "bet" then some .bet
  else if normalized = "raise" then some .raise
  else if normalized = "all_in" then some .allIn
  else none

def act (rt : Runtime) (c : NetworkClient) (action : String) (target : Int) : NetworkClient :=
  let known := actionOf (rt.toLower (rt.trimmed action))
  let (message, next) := c.envelope (.action c.tableId c.handId target known) true
  if known.isSome then send rt next message
  else (next.note message false).setStatus "Unknown action"

def leaveTable (rt : Runtime) (c : NetworkClient) : NetworkClient :=
  request rt c (.leaveTable c.tableId) true

/-! ## The connection -/

def scheduleReconnect (c : NetworkClient) : NetworkClient :=
  if c.reconnectTimer.isSome then c
  else
    let delayMs := min 10000 (500 * 2 ^ min c.reconnectAttempt 4)
    { c with
      reconnectAttempt := c.reconnectAttempt + 1
      status := "Connection lost; retrying in " ++ toString delayMs ++ " ms"
      reconnectTimer := some delayMs }

/-- A game node can be reached again with the session. -/
def resumable (c : NetworkClient) : Bool :=
  c.routingToGame && c.sessionToken != "" && c.tableId != 0

def onDisconnected (c : NetworkClient) : NetworkClient :=
  let c := { c with heartbeatTimer := false, authenticated := false }
  if c.intentionalDisconnect then { c with intentionalDisconnect := false }
  else if c.resumable then scheduleReconnect { c with reconnectAfterAuth := c.seated }
  else c.setStatus "Disconnected"

/-- `socket_.abort()`. -/
def abort (c : NetworkClient) : NetworkClient :=
  if c.socket = .connected ∨ c.socket = .closing then
    onDisconnected { c with socket := .unconnected }
  else { c with socket := .unconnected }

/-- `socket_.connectToHost`, which does nothing while the socket is in use. -/
def connectToHost (c : NetworkClient) (host : String) (port : Nat) : NetworkClient :=
  if c.socket = .unconnected then { c with socket := .connecting, peer := (host, port) } else c

def connectToLobby (rt : Runtime) (c : NetworkClient) (host : String) (port : Nat) :
    NetworkClient :=
  let host := if rt.trimmed host = "" then "127.0.0.1" else rt.trimmed host
  let c := { c with
    reconnectTimer := none
    reconnectAttempt := 0
    reconnectAfterAuth := false
    lobbyHost := host
    lobbyPort := port
    gameSequence := if c.routingToGame then c.clientSequence else c.gameSequence
    routingToGame := false
    clientSequence := c.lobbySequence
    authenticateOnConnect := c.sessionToken != ""
    authenticated := false
    intentionalDisconnect := c.socket != SocketState.unconnected }
  (c.abort.setStatus "Connecting to lobby…").connectToHost host port

def routeToGame (rt : Runtime) (c : NetworkClient) (endpoint ticket : String) (tableId : Nat) :
    NetworkClient :=
  match Text.findLast ':' endpoint.toList with
  | none | some 0 => c.setStatus "Invalid game-node endpoint"
  | some separator =>
    match rt.toUShort (String.ofList (endpoint.toList.drop (separator + 1))) with
    | none => c.setStatus "Invalid game-node port"
    | some port =>
      let host := String.ofList (endpoint.toList.take separator)
      let c := { c with
        lobbySequence := c.clientSequence
        clientSequence := c.gameSequence
        tableId
        pendingTicket := ticket
        gameHost := host
        gamePort := port
        routingToGame := true
        reconnectTimer := none
        reconnectAttempt := 0
        reconnectAfterAuth := false
        authenticateOnConnect := true
        authenticated := false
        intentionalDisconnect := c.socket != SocketState.unconnected }
      (c.abort.setStatus "Routing to assigned game node…").connectToHost host port

def onConnected (rt : Runtime) (c : NetworkClient) : NetworkClient :=
  let c := { c with
    reconnectTimer := none
    heartbeatTimer := true
    status := if c.routingToGame then "Connected to game node" else "Connected to lobby" }
  if c.authenticateOnConnect && c.sessionToken != "" then
    request rt c (.authenticateSession c.sessionToken) false
  else c

def onSocketError (c : NetworkClient) (text : String) : NetworkClient :=
  let c := c.setStatus text
  if !c.intentionalDisconnect && c.socket = .unconnected && c.resumable then c.scheduleReconnect
  else c

/-- The reconnect timer runs out. -/
def onReconnectTimer (c : NetworkClient) : NetworkClient :=
  let c := { c with reconnectTimer := none }
  if !c.routingToGame || c.gameHost = "" || c.gamePort = 0 then c
  else
    ({ c with authenticateOnConnect := true }.setStatus "Reconnecting to game node…").connectToHost
      c.gameHost c.gamePort

def onHeartbeatTimer (rt : Runtime) (c : NetworkClient) : NetworkClient :=
  if c.connected then request rt c .heartbeat false else c

/-! ## Messages -/

/-- What the client forgets when its session has ended. -/
def forgetSession (c : NetworkClient) : NetworkClient :=
  { c with
    reconnectTimer := none
    sessionToken := ""
    authenticateOnConnect := false
    reconnectAfterAuth := false
    authenticated := false
    seated := false
    tableId := 0
    handId := 0
    serverSequence := 0
    actingUserId := 0
    userId := 0
    walletChips := 0
    clientSequence := 0
    lobbySequence := 0
    gameSequence := 0 }

def processLogin (rt : Runtime) (c : NetworkClient) (userId : Nat) (walletChips : Int)
    (token : String) : NetworkClient :=
  refreshTables rt { c with
    userId
    walletChips
    sessionToken := token
    clientSequence := 0
    lobbySequence := 0
    authenticated := true
    status := "Signed in" }

/-- What an `AUTHENTICATE_SESSION_RESPONSE` sets. -/
def restored (c : NetworkClient) (userId : Nat) (walletChips : Int) : NetworkClient :=
  { c with
    userId
    walletChips
    authenticated := true
    authenticateOnConnect := false
    reconnectAttempt := 0
    clientSequence := 0
    gameSequence := if c.routingToGame then 0 else c.gameSequence
    lobbySequence := if c.routingToGame then c.lobbySequence else 0
    status := if c.routingToGame then "Game node authenticated" else "Lobby session restored" }

def processAuthenticated (rt : Runtime) (c : NetworkClient) (userId : Nat) (walletChips : Int) :
    NetworkClient :=
  let c := c.restored userId walletChips
  if c.routingToGame && c.reconnectAfterAuth then
    -- the flag is cleared between making the request and sending it
    let (message, next) := c.envelope (.reconnect c.tableId c.sessionToken c.serverSequence) true
    send rt { next with reconnectAfterAuth := false } message
  else if !c.routingToGame then refreshTables rt c
  else c

def processSnapshot (c : NetworkClient) (snapshot : Snapshot) : NetworkClient :=
  { c with
    tableId := snapshot.tableId
    handId := snapshot.handId
    serverSequence := snapshot.serverSequence
    actingUserId := snapshot.actingUserId
    seated := snapshot.players.contains c.userId
    status := if snapshot.actingUserId = c.userId then "Your turn" else "Table synchronized" }

def processCommandAck (rt : Runtime) (c : NetworkClient) (message : String) : NetworkClient :=
  let c := c.setStatus message
  if message = "logged out" then
    if c.routingToGame then connectToLobby rt c.forgetSession c.lobbyHost c.lobbyPort
    else c.forgetSession
  else if message = "left table" then
    connectToLobby rt { c with seated := false, tableId := 0, handId := 0 } c.lobbyHost c.lobbyPort
  else c

def processError (rt : Runtime) (c : NetworkClient) (unauthenticated : Bool) (message : String) :
    NetworkClient :=
  let c :=
    if unauthenticated then
      let signedOut := { c.forgetSession with heartbeatTimer := false }
      if c.routingToGame then connectToLobby rt signedOut c.lobbyHost c.lobbyPort else signedOut
    else c
  c.setStatus ("Error: " ++ message)

/-- `socket_.disconnectFromHost()`. -/
def disconnectFromHost (c : NetworkClient) : NetworkClient :=
  if c.socket = .unconnected then c else { c with socket := .closing }

def processTableEvent (rt : Runtime) (c : NetworkClient) (eventType payload : String) :
    NetworkClient :=
  let c := c.setStatus payload
  if eventType = "session_replaced" then
    disconnectFromHost { c.forgetSession with
      heartbeatTimer := false
      routingToGame := false
      intentionalDisconnect := c.socket != SocketState.unconnected }
  else if eventType = "table_aborted_refunded" ∨ eventType = "table_aborted_refund_pending" then
    connectToLobby rt { c with seated := false, tableId := 0, handId := 0, actingUserId := 0 }
      c.lobbyHost c.lobbyPort
  else c

def process (rt : Runtime) (c : NetworkClient) : Message → NetworkClient
  | .registerResponse => c.setStatus "Account created. Sign in now."
  | .loginResponse userId walletChips token => processLogin rt c userId walletChips token
  | .authenticateSessionResponse userId walletChips => processAuthenticated rt c userId walletChips
  | .refreshSessionResponse token => { c with sessionToken := token, status := "Session refreshed" }
  | .listTablesResponse => c.setStatus "Lobby refreshed"
  | .createTableResponse endpoint joinTicket tableId => routeToGame rt c endpoint joinTicket tableId
  | .joinTableResponse endpoint joinTicket => routeToGame rt c endpoint joinTicket c.tableId
  | .tableSnapshot snapshot => c.processSnapshot snapshot
  | .commandAck message => processCommandAck rt c message
  | .errorResponse unauthenticated message => processError rt c unauthenticated message
  | .tableEvent eventType payload => processTableEvent rt c eventType payload
  | .heartbeat => c
  | .unsupported => c.setStatus "Unsupported server response"

/-! ## Events -/

inductive Event where
  | connectToLobby (host : String) (port : Nat)
  | registerAccount (username password : String)
  | login (username password : String)
  | logout
  | refreshTables
  | createTable (name : String) (maxPlayers : Int)
      (smallBlind bigBlind minimumBuyIn maximumBuyIn : Int)
  | joinTable (tableId : Nat)
  | sitDown (seat buyIn : Int)
  | setReady (ready : Bool)
  | act (action : String) (target : Int)
  | leaveTable
  /-- The signals of the socket. -/
  | connected
  | disconnected
  | connectFailed (text : String)
  | socketError (text : String)
  | framingError
  | invalidMessage
  | receive (message : Message)
  | reconnectTimer
  | heartbeatTimer
  deriving DecidableEq

/-- One event, from an empty outbox; `none` where the event cannot occur. -/
def exec (rt : Runtime) (c : NetworkClient) (event : Event) : Option NetworkClient :=
  let c := { c with outbox := [] }
  match event with
  | .connectToLobby host port => some (connectToLobby rt c host port)
  | .registerAccount username password => some (registerAccount rt c username password)
  | .login username password => some (login rt c username password)
  | .logout => some (logout rt c)
  | .refreshTables => some (refreshTables rt c)
  | .createTable name maxPlayers smallBlind bigBlind minimumBuyIn maximumBuyIn =>
    some (createTable rt c name maxPlayers smallBlind bigBlind minimumBuyIn maximumBuyIn)
  | .joinTable tableId => some (joinTable rt c tableId)
  | .sitDown seat buyIn => some (sitDown rt c seat buyIn)
  | .setReady ready => some (setReady rt c ready)
  | .act action target => some (act rt c action target)
  | .leaveTable => some (leaveTable rt c)
  | .connected =>
    if c.socket = .connecting then some (onConnected rt { c with socket := .connected }) else none
  | .disconnected =>
    if c.socket = .connected ∨ c.socket = .closing then
      some (onDisconnected { c with socket := .unconnected })
    else none
  | .connectFailed text =>
    if c.socket = .connecting then some (onSocketError { c with socket := .unconnected } text)
    else none
  | .socketError text => some (onSocketError c text)
  | .framingError => some (c.setStatus "Protocol framing error").abort
  | .invalidMessage => some (c.setStatus "Invalid server message")
  | .receive message => some (process rt c message)
  | .reconnectTimer => if c.reconnectTimer.isSome then some c.onReconnectTimer else none
  | .heartbeatTimer => if c.heartbeatTimer then some (onHeartbeatTimer rt c) else none

/-- The client and an event that can occur lead to the client after it. -/
def Acts (rt : Runtime) (c : NetworkClient) (event : Event) (c' : NetworkClient) : Prop :=
  exec rt c event = some c'

end NetworkClient

end PokerServer

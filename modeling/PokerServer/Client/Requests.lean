import PokerServer.Client.NetworkClient

/-!
# The client's requests

What one event makes the client ask, and what that does to its counters. `Still` says that no
request was made and that the client was not authenticated anew, `Asks` that one request was.

* `exec_outcome`: an event makes at most one request, and numbers it with the next number.
* `process_authenticates`: a response that authenticates the client makes it start again at 1.
-/

namespace PokerServer

namespace NetworkClient

/-- The responses that make the client number its requests from 1 again. -/
def Message.authenticates : Message → Bool
  | .loginResponse .. | .authenticateSessionResponse .. => true
  | _ => false

def Event.authenticates : Event → Bool
  | .receive message => message.authenticates
  | _ => false

/-- The requests of the last event that carry a client sequence. -/
def numbered (c : NetworkClient) : List Made :=
  c.outbox.filter fun m => m.envelope.clientSequence != 0

/-! ## One event -/

variable {rt : Runtime} {c c' c'' : NetworkClient} {body : Body}

/-- The client has made no request, and is not authenticated anew. -/
structure Still (c c' : NetworkClient) : Prop where
  outbox : c'.outbox = c.outbox
  nextRequestId : c'.nextRequestId = c.nextRequestId
  period : c'.authenticated = true → c.authenticated = true ∧
    c'.clientSequence = c.clientSequence ∧ c'.socket = c.socket ∧ c'.peer = c.peer

theorem Still.refl (c : NetworkClient) : Still c c := ⟨rfl, rfl, fun h => ⟨h, rfl, rfl, rfl⟩⟩

theorem Still.trans (h : Still c c') (h' : Still c' c'') : Still c c'' := by
  refine ⟨h'.outbox.trans h.outbox, h'.nextRequestId.trans h.nextRequestId, fun hauth => ?_⟩
  obtain ⟨hauth', hsequence', hsocket', hpeer'⟩ := h'.period hauth
  obtain ⟨hauth, hsequence, hsocket, hpeer⟩ := h.period hauth'
  exact ⟨hauth, hsequence'.trans hsequence, hsocket'.trans hsocket, hpeer'.trans hpeer⟩

/-- A client that is not authenticated afterwards. -/
theorem Still.of_out (houtbox : c'.outbox = c.outbox)
    (hnext : c'.nextRequestId = c.nextRequestId) (hout : c'.authenticated = false) : Still c c' :=
  ⟨houtbox, hnext, fun h => absurd (hout.symm.trans h) (by simp)⟩

theorem still_setStatus (c : NetworkClient) (value : String) : Still c (c.setStatus value) :=
  ⟨rfl, rfl, fun h => ⟨h, rfl, rfl, rfl⟩⟩

theorem still_scheduleReconnect (c : NetworkClient) : Still c c.scheduleReconnect := by
  unfold scheduleReconnect
  split
  · exact Still.refl c
  · exact ⟨rfl, rfl, fun h => ⟨h, rfl, rfl, rfl⟩⟩

theorem onDisconnected_out (c : NetworkClient) :
    c.onDisconnected.authenticated = false ∧ c.onDisconnected.outbox = c.outbox ∧
      c.onDisconnected.nextRequestId = c.nextRequestId := by
  unfold onDisconnected
  dsimp only
  split
  · exact ⟨rfl, rfl, rfl⟩
  split
  · unfold scheduleReconnect
    split <;> exact ⟨rfl, rfl, rfl⟩
  · exact ⟨rfl, rfl, rfl⟩

theorem abort_out (h : c.authenticated = false) :
    c.abort.authenticated = false ∧ c.abort.outbox = c.outbox ∧
      c.abort.nextRequestId = c.nextRequestId := by
  unfold abort
  split
  · exact onDisconnected_out _
  · exact ⟨h, rfl, rfl⟩

/-- Dropping the connection and opening another, once the client is not authenticated. -/
theorem still_reopen (h : c.authenticated = false) (value host : String) (port : Nat) :
    Still c ((c.abort.setStatus value).connectToHost host port) := by
  obtain ⟨hout, houtbox, hnext⟩ := abort_out h
  unfold connectToHost
  split <;> exact .of_out houtbox hnext hout

theorem still_connectToLobby (c : NetworkClient) (host : String) (port : Nat) :
    Still c (connectToLobby rt c host port) := by
  unfold connectToLobby
  refine Still.trans ?_ (still_reopen rfl _ _ _)
  exact .of_out rfl rfl rfl

theorem still_routeToGame (c : NetworkClient) (endpoint ticket : String) (tableId : Nat) :
    Still c (routeToGame rt c endpoint ticket tableId) := by
  unfold routeToGame
  split
  · exact still_setStatus _ _
  · exact still_setStatus _ _
  · split
    · exact still_setStatus _ _
    · refine Still.trans ?_ (still_reopen rfl _ _ _)
      exact .of_out rfl rfl rfl

theorem still_forgetSession (c : NetworkClient) : Still c c.forgetSession := .of_out rfl rfl rfl

theorem still_onSocketError (c : NetworkClient) (text : String) :
    Still c (c.onSocketError text) := by
  unfold onSocketError
  dsimp only
  split
  · exact (still_setStatus c text).trans (still_scheduleReconnect _)
  · exact still_setStatus c text

/-- A message that does not authenticate the client. -/
theorem process_still {message : Message} (h : message.authenticates = false) :
    Still c (process rt c message) := by
  cases message with
  | loginResponse => cases h
  | authenticateSessionResponse => cases h
  | registerResponse => exact still_setStatus c _
  | refreshSessionResponse => exact ⟨rfl, rfl, fun h => ⟨h, rfl, rfl, rfl⟩⟩
  | listTablesResponse => exact still_setStatus c _
  | createTableResponse => exact still_routeToGame c _ _ _
  | joinTableResponse => exact still_routeToGame c _ _ _
  | tableSnapshot => exact ⟨rfl, rfl, fun h => ⟨h, rfl, rfl, rfl⟩⟩
  | commandAck message =>
    simp only [process, processCommandAck]
    refine (still_setStatus c message).trans ?_
    split
    · split
      · exact (still_forgetSession _).trans (still_connectToLobby _ _ _)
      · exact still_forgetSession _
    split
    · refine Still.trans ?_ (still_connectToLobby _ _ _)
      exact ⟨rfl, rfl, fun h => ⟨h, rfl, rfl, rfl⟩⟩
    · exact Still.refl _
  | errorResponse unauthenticated message =>
    simp only [process, processError]
    refine Still.trans ?_ (still_setStatus _ _)
    split
    · split
      · refine Still.trans ?_ (still_connectToLobby _ _ _)
        exact .of_out rfl rfl rfl
      · exact .of_out rfl rfl rfl
    · exact Still.refl c
  | tableEvent eventType payload =>
    simp only [process, processTableEvent]
    refine (still_setStatus c payload).trans ?_
    split
    · unfold disconnectFromHost
      split <;> exact .of_out rfl rfl rfl
    split
    · refine Still.trans ?_ (still_connectToLobby _ _ _)
      exact ⟨rfl, rfl, fun h => ⟨h, rfl, rfl, rfl⟩⟩
    · exact Still.refl _
  | heartbeat => exact Still.refl c
  | unsupported => exact still_setStatus c _

/-- The client has made one request. -/
structure Asks (rt : Runtime) (c : NetworkClient) (body : Body) (sequence : Nat)
    (c' : NetworkClient) : Prop where
  outbox : ∃ written, c'.outbox = c.outbox ++ [⟨⟨c.nextRequestId, sequence, body⟩, written⟩] ∧
    (c.socket = .connected → written = false →
      (∃ text, rt.encode ⟨c.nextRequestId, sequence, body⟩ = .error text) ∨
        ∃ tableId handId target, body = .action tableId handId target none)
  nextRequestId : c'.nextRequestId = c.nextRequestId + 1
  same : c'.authenticated = c.authenticated ∧
    (c.authenticated = true → c'.socket = c.socket ∧ c'.peer = c.peer)

theorem send_asks (rt : Runtime) (c : NetworkClient) (message : Envelope) :
    ∃ written, (send rt c message).outbox = c.outbox ++ [⟨message, written⟩] ∧
    (c.socket = .connected → written = false → ∃ text, rt.encode message = .error text) := by
  unfold send
  by_cases h : c.connected
  · rw [if_pos h]
    cases hencode : rt.encode message with
    | error text => exact ⟨false, rfl, fun _ _ => ⟨text, rfl⟩⟩
    | ok => exact ⟨true, rfl, fun _ hwritten => absurd hwritten (by simp)⟩
  · rw [if_neg h]
    refine ⟨false, rfl, fun hconnected => absurd ?_ h⟩
    simp [connected, hconnected]

theorem send_frame (rt : Runtime) (c : NetworkClient) (message : Envelope) :
    (send rt c message).nextRequestId = c.nextRequestId ∧
    (send rt c message).clientSequence = c.clientSequence ∧
    (send rt c message).authenticated = c.authenticated ∧
    (send rt c message).socket = c.socket ∧ (send rt c message).peer = c.peer := by
  unfold send
  split
  · cases rt.encode message <;> exact ⟨rfl, rfl, rfl, rfl, rfl⟩
  · exact ⟨rfl, rfl, rfl, rfl, rfl⟩

theorem envelope_sequenced (c : NetworkClient) (body : Body) :
    (c.envelope body true).1 = ⟨c.nextRequestId, c.clientSequence + 1, body⟩ ∧
      (c.envelope body true).2.outbox = c.outbox ∧
      (c.envelope body true).2.nextRequestId = c.nextRequestId + 1 ∧
      (c.envelope body true).2.clientSequence = c.clientSequence + 1 ∧
      (c.envelope body true).2.authenticated = c.authenticated ∧
      (c.envelope body true).2.socket = c.socket ∧ (c.envelope body true).2.peer = c.peer := by
  unfold envelope
  rw [if_pos rfl]
  refine ⟨rfl, ?_⟩
  dsimp only
  split <;> exact ⟨rfl, rfl, rfl, rfl, rfl, rfl⟩

/-- A numbered request, sent with other fields than the counters changed in between. -/
theorem send_envelope (rt : Runtime) (c : NetworkClient) (body : Body) (next : NetworkClient)
    (houtbox : next.outbox = c.outbox) (hnext : next.nextRequestId = c.nextRequestId + 1)
    (hsequence : next.clientSequence = c.clientSequence + 1)
    (hauth : next.authenticated = c.authenticated) (hsocket : next.socket = c.socket)
    (hpeer : next.peer = c.peer) :
    Asks rt c body (c.clientSequence + 1) (send rt next (c.envelope body true).1) ∧
      (send rt next (c.envelope body true).1).clientSequence = c.clientSequence + 1 := by
  obtain ⟨hmessage, -⟩ := envelope_sequenced c body
  obtain ⟨hnext', hsequence', hauth', hsocket', hpeer'⟩ :=
    send_frame rt next (c.envelope body true).1
  obtain ⟨written, hmade, hlost⟩ := send_asks rt next (c.envelope body true).1
  rw [hmessage] at hmade hlost
  rw [houtbox] at hmade
  rw [hsocket] at hlost
  exact ⟨⟨⟨written, hmade, fun hc hw => Or.inl (hlost hc hw)⟩, hnext'.trans hnext,
    hauth'.trans hauth, fun _ => ⟨hsocket'.trans hsocket, hpeer'.trans hpeer⟩⟩,
    hsequence'.trans hsequence⟩

theorem request_asks (rt : Runtime) (c : NetworkClient) (body : Body) :
    Asks rt c body (c.clientSequence + 1) (request rt c body true) ∧
      (request rt c body true).clientSequence = c.clientSequence + 1 := by
  obtain ⟨-, houtbox, hnext, hsequence, hauth, hsocket, hpeer⟩ := envelope_sequenced c body
  exact send_envelope rt c body _ houtbox hnext hsequence hauth hsocket hpeer

theorem request_plain (rt : Runtime) (c : NetworkClient) (body : Body) :
    Asks rt c body 0 (request rt c body false) ∧
      (request rt c body false).clientSequence = c.clientSequence := by
  have hmessage : (c.envelope body false).1 = ⟨c.nextRequestId, 0, body⟩ := rfl
  obtain ⟨hnext, hsequence, hauth, hsocket, hpeer⟩ :=
    send_frame rt (c.envelope body false).2 (c.envelope body false).1
  obtain ⟨written, hmade, hlost⟩ :=
    send_asks rt (c.envelope body false).2 (c.envelope body false).1
  rw [hmessage] at hmade hlost
  exact ⟨⟨⟨written, hmade, fun hc hw => Or.inl (hlost hc hw)⟩, hnext, hauth,
    fun _ => ⟨hsocket, hpeer⟩⟩, hsequence⟩

theorem act_asks (rt : Runtime) (c : NetworkClient) (action : String) (target : Int) :
    ∃ body, Asks rt c body (c.clientSequence + 1) (act rt c action target) ∧
      (act rt c action target).clientSequence = c.clientSequence + 1 := by
  unfold act
  dsimp only
  generalize hknown : actionOf (rt.toLower (rt.trimmed action)) = known
  cases known with
  | some known => exact ⟨_, request_asks rt c (.action c.tableId c.handId target (some known))⟩
  | none =>
    obtain ⟨hmessage, houtbox, hnext, hsequence, hauth, hsocket, hpeer⟩ :=
      envelope_sequenced c (.action c.tableId c.handId target none)
    refine ⟨.action c.tableId c.handId target none,
      ⟨⟨false, ?_, fun _ _ => Or.inr ⟨_, _, _, rfl⟩⟩, hnext, hauth,
        fun _ => ⟨hsocket, hpeer⟩⟩, hsequence⟩
    rw [← houtbox, ← hmessage]
    rfl

/-- What an event does that does not authenticate the client. -/
inductive Outcome (rt : Runtime) (c c' : NetworkClient) : Prop
  | still (h : Still c c')
  | plain (body : Body) (h : Asks rt c body 0 c') (hsequence : c'.clientSequence = c.clientSequence)
  | sequenced (body : Body) (h : Asks rt c body (c.clientSequence + 1) c')
      (hsequence : c'.clientSequence = c.clientSequence + 1)

theorem outcome_request (c : NetworkClient) (body : Body) (sequenced : Bool) :
    Outcome rt c (request rt c body sequenced) := by
  cases sequenced with
  | false => exact .plain body (request_plain rt c body).1 (request_plain rt c body).2
  | true => exact .sequenced body (request_asks rt c body).1 (request_asks rt c body).2

theorem onConnected_outcome (h : c.authenticated = false) (hc : c.socket ≠ .connected) :
    Outcome rt c (onConnected rt { c with socket := .connected }) := by
  unfold onConnected
  dsimp only
  split
  · obtain ⟨⟨⟨written, hmade, -⟩, hnext, hauth, -⟩, hsequence⟩ := request_plain rt ({ c with
      socket := .connected
      reconnectTimer := none
      heartbeatTimer := true
      status := if c.routingToGame then "Connected to game node" else "Connected to lobby" } :
        NetworkClient) (.authenticateSession c.sessionToken)
    refine .plain _ ⟨⟨written, hmade, fun hconnected => absurd hconnected hc⟩, hnext, hauth,
      fun hauth' => absurd (h.symm.trans hauth') (by simp)⟩ hsequence
  · exact .still (.of_out rfl rfl h)

/-- **An event makes at most one request**, and numbers it with the next number. -/
theorem exec_outcome {event : Event} (h : exec rt c event = some c')
    (hevent : event.authenticates = false) (hc : c.authenticated = true → c.socket = .connected) :
    Outcome rt { c with outbox := [] } c' := by
  have hout : c.socket ≠ .connected → c.authenticated = false := fun hsocket =>
    Bool.eq_false_iff.mpr fun hauth => hsocket (hc hauth)
  cases event with
  | connectToLobby host port =>
    obtain rfl := Option.some.inj h
    exact .still (still_connectToLobby _ _ _)
  | registerAccount username password =>
    obtain rfl := Option.some.inj h
    exact outcome_request _ _ _
  | login username password =>
    obtain rfl := Option.some.inj h
    exact outcome_request _ _ _
  | logout =>
    obtain rfl := Option.some.inj h
    exact outcome_request _ _ _
  | refreshTables =>
    obtain rfl := Option.some.inj h
    exact outcome_request _ _ _
  | createTable =>
    obtain rfl := Option.some.inj h
    exact outcome_request _ _ _
  | joinTable tableId =>
    obtain rfl := Option.some.inj h
    obtain ⟨hasks, hsequence⟩ :=
      request_asks rt ({ c with tableId, outbox := [] } : NetworkClient) (.joinTable tableId)
    exact .sequenced _ ⟨hasks.outbox, hasks.nextRequestId, hasks.same⟩ hsequence
  | sitDown =>
    obtain rfl := Option.some.inj h
    exact outcome_request _ _ _
  | setReady =>
    obtain rfl := Option.some.inj h
    exact outcome_request _ _ _
  | act action target =>
    obtain rfl := Option.some.inj h
    obtain ⟨body, hasks, hsequence⟩ := act_asks rt { c with outbox := [] } action target
    exact .sequenced body hasks hsequence
  | leaveTable =>
    obtain rfl := Option.some.inj h
    exact outcome_request _ _ _
  | connected =>
    simp only [exec] at h
    split at h
    · rename_i hsocket
      obtain rfl := Option.some.inj h
      have hconnecting : c.socket ≠ .connected := by
        rw [show c.socket = .connecting from hsocket]
        simp
      exact onConnected_outcome (c := { c with outbox := [] }) (hout hconnecting) hconnecting
    · cases h
  | disconnected =>
    simp only [exec] at h
    split at h
    · obtain rfl := Option.some.inj h
      obtain ⟨hout, houtbox, hnext⟩ :=
        onDisconnected_out { c with outbox := [], socket := .unconnected }
      exact .still (.of_out houtbox hnext hout)
    · cases h
  | connectFailed text =>
    simp only [exec] at h
    split at h
    · rename_i hsocket
      obtain rfl := Option.some.inj h
      have hconnecting : c.socket ≠ .connected := by
        rw [show c.socket = .connecting from hsocket]
        simp
      refine .still (Still.trans ?_ (still_onSocketError _ text))
      exact .of_out rfl rfl (hout hconnecting)
    · cases h
  | socketError text =>
    obtain rfl := Option.some.inj h
    exact .still (still_onSocketError _ _)
  | framingError =>
    obtain rfl := Option.some.inj h
    refine .still ?_
    unfold abort
    split
    · obtain ⟨hout, houtbox, hnext⟩ := onDisconnected_out
        { ({ c with outbox := [] } : NetworkClient).setStatus "Protocol framing error" with
          socket := .unconnected }
      exact .of_out houtbox hnext hout
    · rename_i hsocket
      exact .of_out rfl rfl (hout fun hconnected => hsocket (Or.inl hconnected))
  | invalidMessage =>
    obtain rfl := Option.some.inj h
    exact .still (still_setStatus _ _)
  | receive message =>
    obtain rfl := Option.some.inj h
    exact .still (process_still hevent)
  | reconnectTimer =>
    simp only [exec] at h
    split at h
    · obtain rfl := Option.some.inj h
      refine .still ?_
      unfold onReconnectTimer
      dsimp only
      split
      · exact ⟨rfl, rfl, fun h => ⟨h, rfl, rfl, rfl⟩⟩
      unfold connectToHost
      split
      · rename_i hsocket
        refine .of_out rfl rfl (hout ?_)
        rw [show c.socket = .unconnected from hsocket]
        simp
      · exact ⟨rfl, rfl, fun h => ⟨h, rfl, rfl, rfl⟩⟩
    · cases h
  | heartbeatTimer =>
    simp only [exec] at h
    split at h
    · obtain rfl := Option.some.inj h
      unfold onHeartbeatTimer
      split
      · exact outcome_request _ _ _
      · exact .still (Still.refl _)
    · cases h

end NetworkClient

end PokerServer

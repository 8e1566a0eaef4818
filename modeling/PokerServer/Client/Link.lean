import PokerServer.Client.Requests
import PokerServer.Server.Connections

/-!
# The client and its server

The client of `apps/client` and the request window of the server it is connected to, from the
response that authenticates the client on: the server has just reset the user's window. The period
lasts as long as the client takes itself for authenticated, and so does the connection. It is the
user's only connection to the server; other users come and go.

A request that the client writes meets, one frame after the other on the connection's thread:

* the limiter of `PokerTcpServer::onMessage`, which can refuse any frame (`limited`), and the check
  of the request id at the start of `handle` (`invalid`);
* `authorize`, whose block under `session->mutex` is one step (`authorized`, `refused`), and the
  window, which is another (`serve`): storage tasks run in between;
* as a RECONNECT that finds no valid session, another authentication (`resumes`), after which a
  storage thread handles it again.

The storage tasks that change the session do so first (`signIn`, `signOut`) and reset the window of
the user afterwards (`reset`). A LOGOUT that the window accepts posts such a task.

Left out: what the server answers, the requests without a client sequence but for what they do to
the session (`session`, `signIn`), and the codec: frames arrive as the client has written them.
-/

namespace PokerServer

open NetworkClient IdempotencyCache

/-- The client, its connection to the server and the server's request window. -/
structure Link (R : Type) where
  client : NetworkClient
  /-- The requests numbered since the client was authenticated. -/
  period : List Made
  /-- Those that were written and that the server has not taken up yet. -/
  wire : List Envelope
  session : ConnectionSession := {}
  /-- What the connection's thread has authorized, for whom, and not shown the window yet. -/
  checked : Option (UserId × Envelope) := none
  /-- The RECONNECT requests that a storage thread authenticates and handles again. -/
  resuming : List Envelope := []
  /-- Those that it has authorized. -/
  resumed : List (UserId × Envelope) := []
  /-- The users of the LOGOUT tasks that wait. -/
  logouts : List UserId := []
  /-- The users whose window a task resets next. -/
  resets : List UserId := []
  cache : IdempotencyCache R

namespace Link

variable {R : Type}

def written (made : List Made) : List Envelope := (made.filter (·.written)).map (·.envelope)

/-- The client has just processed the response that authenticates it. -/
def authenticated (rt : Runtime) (c : NetworkClient) (message : Message)
    (session : ConnectionSession) (cache : IdempotencyCache R) : Link R :=
  let client := process rt { c with outbox := [] } message
  { client, period := client.numbered, wire := written client.numbered, session, cache }

/-- The client after an event. Its numbered requests go to the server as long as it is
authenticated. -/
def pass (l : Link R) (client : NetworkClient) : Link R :=
  if l.client.authenticated then
    { l with
      client
      period := l.period ++ client.numbered
      wire := l.wire ++ written client.numbered }
  else { l with client }

/-- `beginRequest`, and the task of a LOGOUT that it lets through. -/
def present (l : Link R) (user : UserId) (request : Envelope) : RequestDecision R × Link R :=
  let (decision, cache) := l.cache.begin user request.requestId request.clientSequence
  let posted := request.body = .logout ∧ decision.status = .accepted
  (decision, { l with cache, logouts := if posted then user :: l.logouts else l.logouts })

/-- The written requests that the window has not seen. -/
def pending (l : Link R) : List Envelope :=
  l.checked.toList.map Prod.snd ++ (l.resumed.map Prod.snd ++ (l.resuming ++ l.wire))

theorem pending_append (l : Link R) (client : NetworkClient) (period : List Made)
    (new : List Envelope) :
    { l with client, period, wire := l.wire ++ new }.pending = l.pending ++ new := by
  simp [pending]

inductive Label (R : Type) where
  | client (event : Event)
  | limited (request : Envelope)
  | invalid (request : Envelope)
  | authorized (now : Int) (request : Envelope)
  | refused (now : Int) (request : Envelope)
  | resumes (now : Int) (request : Envelope)
  | serve (user : UserId) (request : Envelope) (decision : RequestDecision R)
  /-- A request without a client sequence has looked at the session. -/
  | session (now : Int)
  | signIn (user : UserId)
  | signOut (user : UserId)
  | reset (user : UserId)
  | complete (user : UserId) (request : Nat) (response : R)
  /-- Another user's request. -/
  | other (user : UserId) (request sequence : Nat)

def reconnects : Body → Bool
  | .reconnect .. => true
  | _ => false

/-- `authorize` finds a valid session. -/
def Authorizes (session : ConnectionSession) (now : Int) (user : UserId)
    (after : ConnectionSession) : Prop :=
  ∃ table, session.perform now .checkExpiry = (⟨some user, false, table⟩, after)

/-- The request is answered with an error before the window sees it. -/
inductive Refused (session : ConnectionSession) (now : Int) (request : Envelope) :
    ConnectionSession → Prop
  | unauthenticated {check : ConnectionSession.Check} {after : ConnectionSession} :
      session.perform now .checkExpiry = (check, after) →
      (check.userId = none ∨ check.expired = true) → Refused session now request after
  | inProgress {after : ConnectionSession} : reconnects request.body = true →
      session.perform now .beginAuthentication = (.inProgress, after) →
      Refused session now request after

/-- The blocks of the requests without a client sequence. -/
inductive Unnumbered : ConnectionSession.Op → Prop
  | beginAuthentication : Unnumbered .beginAuthentication
  | endAuthentication : Unnumbered .endAuthentication
  | setTable (tableId : Option Nat) : Unnumbered (.setTable tableId)

/-- The user's connection and window, among what other users do to the cache. -/
inductive LinkStep (rt : Runtime) (user : UserId) : Link R → Label R → Link R → Prop
  | client {l : Link R} {event : Event} {client : NetworkClient} :
      event.authenticates = false → Acts rt l.client event client →
      LinkStep rt user l (.client event) (l.pass client)
  | limited {l : Link R} {request : Envelope} {wire : List Envelope} :
      l.checked = none → l.wire = request :: wire →
      LinkStep rt user l (.limited request) { l with wire }
  | invalid {l : Link R} {request : Envelope} {wire : List Envelope} :
      l.checked = none → l.wire = request :: wire → 2 ^ 63 ≤ request.requestId →
      LinkStep rt user l (.invalid request) { l with wire }
  | authorized {l : Link R} {request : Envelope} {wire : List Envelope} {now : Int}
      {asking : UserId} {session : ConnectionSession} :
      l.checked = none → l.wire = request :: wire → request.requestId < 2 ^ 63 →
      Authorizes l.session now asking session →
      LinkStep rt user l (.authorized now request)
        { l with wire, session, checked := some (asking, request) }
  | refused {l : Link R} {request : Envelope} {wire : List Envelope} {now : Int}
      {session : ConnectionSession} :
      l.checked = none → l.wire = request :: wire → request.requestId < 2 ^ 63 →
      Refused l.session now request session →
      LinkStep rt user l (.refused now request) { l with wire, session }
  | resumes {l : Link R} {request : Envelope} {wire : List Envelope} {now : Int}
      {session : ConnectionSession} :
      l.checked = none → l.wire = request :: wire → request.requestId < 2 ^ 63 →
      reconnects request.body = true →
      l.session.perform now .beginAuthentication = (.begun, session) →
      LinkStep rt user l (.resumes now request)
        { l with wire, session, resuming := request :: l.resuming }
  /-- A storage thread has authenticated the request and handles it again. -/
  | resumed {l : Link R} {request : Envelope} {now : Int} {asking : UserId}
      {session : ConnectionSession} :
      request ∈ l.resuming → Authorizes l.session now asking session →
      LinkStep rt user l (.authorized now request)
        { l with
          session
          resuming := l.resuming.erase request
          resumed := (asking, request) :: l.resumed }
  /-- It has not authenticated it, or the new session is over as well. -/
  | unresumed {l : Link R} {request : Envelope} {now : Int} {session : ConnectionSession} :
      request ∈ l.resuming →
      (Refused l.session now request session ∨
        session = (l.session.perform now .endAuthentication).2) →
      LinkStep rt user l (.refused now request)
        { l with session, resuming := l.resuming.erase request }
  | serve {l : Link R} {asking : UserId} {request : Envelope} :
      l.checked = some (asking, request) →
      LinkStep rt user l (.serve asking request (l.present asking request).1)
        { (l.present asking request).2 with checked := none }
  | serveResumed {l : Link R} {asking : UserId} {request : Envelope} :
      (asking, request) ∈ l.resumed →
      LinkStep rt user l (.serve asking request (l.present asking request).1)
        { (l.present asking request).2 with resumed := l.resumed.erase (asking, request) }
  | session {l : Link R} {op : ConnectionSession.Op} (now : Int) : Unnumbered op →
      LinkStep rt user l (.session now) { l with session := (l.session.perform now op).2 }
  /-- A login, or another authentication, whose turn it is. -/
  | signIn {l : Link R} {now : Int} {asking : UserId} {username rawToken : String}
      {expires : Int} :
      l.session.authenticationInProgress = true →
      LinkStep rt user l (.signIn asking)
        { l with
          session := (l.session.perform now (.setIdentity asking username rawToken expires)).2
          resets := asking :: l.resets }
  | signOut {l : Link R} {now : Int} {asking : UserId} : asking ∈ l.logouts →
      LinkStep rt user l (.signOut asking)
        { l with
          session := (l.session.perform now .clearIdentity).2
          logouts := l.logouts.erase asking
          resets := asking :: l.resets }
  | reset {l : Link R} {asking : UserId} : asking ∈ l.resets →
      LinkStep rt user l (.reset asking)
        { l with resets := l.resets.erase asking, cache := l.cache.reset asking }
  | complete {l : Link R} (any : UserId) (request : Nat) (response : R) :
      LinkStep rt user l (.complete any request response)
        { l with cache := l.cache.complete any request response }
  | other {l : Link R} {other : UserId} (request sequence : Nat) : other ≠ user →
      LinkStep rt user l (.other other request sequence)
        { l with cache := (l.cache.begin other request sequence).2 }
  /-- Another user's session begins or ends. -/
  | otherReset {l : Link R} {other : UserId} : other ≠ user →
      LinkStep rt user l (.reset other) { l with cache := l.cache.reset other }

abbrev LinkTrace (R : Type) := List (Step (Link R) (Label R))

/-! ## What a step does -/

/-- The request that the step is done with. -/
def Label.takes : Label R → List Envelope
  | .limited request | .invalid request | .refused _ request | .serve _ request _ => [request]
  | _ => []

/-- What the step does to the cache. -/
def Label.Caches (user : UserId) (label : Label R) (cache after : IdempotencyCache R) : Prop :=
  match label with
  | .serve asking request decision =>
    cache.begin asking request.requestId request.clientSequence = (decision, after)
  | .complete any request response => after = cache.complete any request response
  | .other any request sequence => any ≠ user ∧ after = (cache.begin any request sequence).2
  | .reset asking => after = cache.reset asking
  | _ => after = cache

variable {rt : Runtime} {user : UserId} {l l' : Link R} {label : Label R}

/-- **What a step does**: the client acts, or a request moves on and the cache changes. -/
theorem LinkStep.does (hs : LinkStep rt user l label l') :
    (∃ event client, label = .client event ∧ event.authenticates = false ∧
        Acts rt l.client event client ∧ l' = l.pass client) ∨
      l'.client = l.client ∧ l'.period = l.period ∧
        l.pending.Perm (label.takes ++ l'.pending) ∧ label.Caches user l.cache l'.cache := by
  cases hs with
  | client hevent hacts => exact Or.inl ⟨_, _, rfl, hevent, hacts, rfl⟩
  | limited hidle hwire | invalid hidle hwire | refused hidle hwire =>
    refine Or.inr ⟨rfl, rfl, ?_, rfl⟩
    rw [pending, hidle, hwire]
    exact ((List.perm_middle.append_left _).trans List.perm_middle).append_left _
  | authorized hidle hwire =>
    refine Or.inr ⟨rfl, rfl, ?_, rfl⟩
    rw [pending, hidle, hwire]
    exact (List.perm_middle.append_left _).trans List.perm_middle
  | resumes hidle hwire =>
    refine Or.inr ⟨rfl, rfl, ?_, rfl⟩
    rw [pending, hidle, hwire]
    exact List.perm_middle.append_left _
  | resumed hmem =>
    have hmoved := (List.perm_cons_erase hmem).append_right l.wire
    refine Or.inr ⟨rfl, rfl, ?_, rfl⟩
    exact ((hmoved.append_left _).trans List.perm_middle).append_left _
  | unresumed hmem =>
    have hmoved := (List.perm_cons_erase hmem).append_right l.wire
    refine Or.inr ⟨rfl, rfl, ?_, rfl⟩
    exact (((hmoved.append_left _).trans List.perm_middle).append_left _).trans List.perm_middle
  | serve hchecked =>
    refine Or.inr ⟨rfl, rfl, ?_, rfl⟩
    rw [pending, hchecked]
    exact List.Perm.refl _
  | serveResumed hmem =>
    have hmoved := (List.perm_cons_erase hmem).map Prod.snd
    refine Or.inr ⟨rfl, rfl, ?_, rfl⟩
    exact ((hmoved.append_right _).append_left _).trans List.perm_middle
  | session | signIn | signOut => exact Or.inr ⟨rfl, rfl, List.Perm.refl _, rfl⟩
  | reset | otherReset | complete => exact Or.inr ⟨rfl, rfl, List.Perm.refl _, rfl⟩
  | other request sequence hother => exact Or.inr ⟨rfl, rfl, List.Perm.refl _, hother, rfl⟩

end Link

end PokerServer

import PokerServer.Lib.Runs
import PokerServer.Server.ProtocolService

/-!
# The TCP server's connections

Model of `apps/server/poker_tcp_server.cpp`: the open connections with their `State`, and `users_`,
which says to which connection the snapshots of a user go. `bindAuthenticated` runs after each
request and in each reply callback, so any time after the request, on any thread.

* A connection is named by a number that is never used again; its `State` stays for the callbacks
  that hold it. `generation` comes from a counter.
* What the protocol service writes into a session comes as an event (`session`): a login, a logout,
  an expiry, another user, a table. So do what muduo decides: a connection is no longer connected,
  its close is delivered, its last shared pointer goes.
* A weak pointer to a connection expires only after its close was delivered (`expired`); a callback
  holds a shared pointer, so `bindAuthenticated` and the close find the connection.
* Each event is one step. A close runs `unbind` and the `onDisconnect` that it decides on.

Left out: frames and requests, rate limits, idle connections and metrics, which do not touch
`users_` (closing an idle or slow connection is a `disconnected`).

`newest_keeps_binding` is what the bindings are for: the reply or the close of an older connection
neither takes a user from the connection that has it nor reports the user as disconnected.
-/

namespace PokerServer

/-- A `TcpConnection` with its `State`; `registered` says that `states_` holds the state. -/
structure Connection where
  generation : Nat
  session : Session := {}
  connected : Bool := true
  registered : Bool := true
  expired : Bool := false

structure UserBinding where
  connection : Nat
  generation : Nat
  deriving DecidableEq

structure PokerTcpServer where
  connections : Nat → Option Connection := fun _ => none
  users : UserId → Option UserBinding := fun _ => none
  nextConnectionGeneration : Nat := 1

namespace PokerTcpServer

/-- What a step does outside: where a push goes, which connection is told that it was replaced, for
which session `onDisconnect` is called. -/
structure Outcome where
  pushedTo : Option Nat := none
  replaced : Option Nat := none
  onDisconnect : Option Session := none

/-! ## The handlers -/

/-- `connection.lock()`. -/
def lock (s : PokerTcpServer) (binding : UserBinding) : Option Nat :=
  match s.connections binding.connection with
  | none => none
  | some state => if state.expired then none else some binding.connection

def isConnected (s : PokerTcpServer) (conn : Nat) : Bool :=
  (s.connections conn).any fun state => state.connected

def setConnection (s : PokerTcpServer) (conn : Nat) (state : Connection) : PokerTcpServer :=
  { s with connections := Function.update s.connections conn (some state) }

/-- `shutdown`: the connection is no longer connected, its close comes later. -/
def shutdown (s : PokerTcpServer) (conn : Nat) : PokerTcpServer :=
  match s.connections conn with
  | none => s
  | some state => s.setConnection conn { state with connected := false }

def push (s : PokerTcpServer) (user : UserId) : Outcome × PokerTcpServer :=
  match s.users user with
  | none => ({}, s)
  | some binding =>
    match s.lock binding with
    | none => ({}, { s with users := Function.update s.users user none })
    | some conn => ({ pushedTo := if s.isConnected conn then some conn else none }, s)

/-- The pruning loops of `bindAuthenticated`: the bindings of this connection under other users than
the session's go. -/
def prune (s : PokerTcpServer) (conn : Nat) (state : Connection) : UserId → Option UserBinding :=
  fun user => (s.users user).filter fun binding =>
    !(state.session.userId != some user && binding.generation == state.generation &&
      ((s.lock binding).isNone || s.lock binding == some conn))

/-- What `bindAuthenticated` does under `users_mutex_`; with the connection that had the user. -/
def rebind (s : PokerTcpServer) (conn : Nat) (state : Connection) :
    Option Nat × (UserId → Option UserBinding) :=
  let users := s.prune conn state
  match state.session.userId with
  | none => (none, users)
  | some user =>
    let bound := Function.update users user (some ⟨conn, state.generation⟩)
    match users user with
    | none => (none, bound)
    | some found =>
      if state.generation < found.generation then (none, users) else (s.lock found, bound)

/-- The previous connection is told `session_replaced` and shut down. -/
def supersede (s : PokerTcpServer) (conn : Nat) : Option Nat → Outcome × PokerTcpServer
  | none => ({}, s)
  | some previous =>
    if previous ≠ conn ∧ s.isConnected previous then
      ({ replaced := some previous }, s.shutdown previous)
    else ({}, s)

def bindAuthenticated (s : PokerTcpServer) (conn : Nat) (state : Connection) :
    Outcome × PokerTcpServer :=
  if state.connected && state.registered then
    let (previous, users) := s.rebind conn state
    supersede { s with users := users } conn previous
  else ({}, s)

def unbind (s : PokerTcpServer) (conn : Nat) (state : Connection) :
    Bool × (UserId → Option UserBinding) :=
  match state.session.userId with
  | none => (true, s.users)
  | some user =>
    match s.users user with
    | none => (true, s.users)
    | some found =>
      let current := s.lock found
      let ownsBinding := current.isNone ||
        (current == some conn && found.generation == state.generation)
      (ownsBinding, if ownsBinding then Function.update s.users user none else s.users)

/-- `onConnection` of a new connection. -/
def onOpen (s : PokerTcpServer) (conn : Nat) : PokerTcpServer :=
  { s.setConnection conn { generation := s.nextConnectionGeneration } with
    nextConnectionGeneration := s.nextConnectionGeneration + 1 }

/-- `onConnection` of a connection that is no longer connected. -/
def onClose (s : PokerTcpServer) (conn : Nat) (state : Connection) : Outcome × PokerTcpServer :=
  let s := s.setConnection conn { state with connected := false, registered := false }
  if state.registered then
    let (unbound, users) := s.unbind conn state
    ({ onDisconnect := if unbound then some state.session else none }, { s with users := users })
  else ({}, s)

/-! ## Steps -/

inductive Event where
  | opened (conn : Nat)
  | session (conn : Nat) (session : Session)
  | bindAuthenticated (conn : Nat)
  | disconnected (conn : Nat)
  | closed (conn : Nat)
  | expired (conn : Nat)
  | push (user : UserId)

/-- The connection whose event it is. -/
def Event.connection : Event → Option Nat
  | .opened conn | .session conn _ | .bindAuthenticated conn | .disconnected conn | .closed conn
  | .expired conn => some conn
  | .push _ => none

/-- The connection, while somebody holds a shared pointer to it. -/
def held (s : PokerTcpServer) (conn : Nat) : Option Connection :=
  (s.connections conn).filter fun state => !state.expired

/-- One step; none if muduo has no such event now. -/
def exec (s : PokerTcpServer) : Event → Option (Outcome × PokerTcpServer)
  | .opened conn => if (s.connections conn).isNone then some ({}, s.onOpen conn) else none
  | .session conn session =>
    (s.connections conn).map fun state =>
      ({}, s.setConnection conn { state with session := session })
  | .bindAuthenticated conn => (s.held conn).map fun state => s.bindAuthenticated conn state
  | .disconnected conn => (s.held conn).map fun _ => ({}, s.shutdown conn)
  | .closed conn => (s.held conn).map fun state => s.onClose conn state
  | .expired conn =>
    ((s.connections conn).filter fun state => !state.registered).map fun state =>
      ({}, s.setConnection conn { state with expired := true })
  | .push user => some (s.push user)

/-- `exec` as a relation. -/
def Serves (s : PokerTcpServer) (label : Event × Outcome) (s' : PokerTcpServer) : Prop :=
  s.exec label.1 = some (label.2, s')

variable {s s' : PokerTcpServer} {conn other : Nat} {state state' : Connection} {user : UserId}
  {binding : UserBinding} {event : Event} {outcome : Outcome}

/-! ## What a step does -/

def generationOf (s : PokerTcpServer) (conn : Nat) : Option Nat :=
  (s.connections conn).map fun state => state.generation

/-- Nothing is lost with the binding: its connection is gone, or the event is of its connection. -/
def Gone (s : PokerTcpServer) (event : Event) (binding : UserBinding) : Prop :=
  s.lock binding = none ∨
    event.connection = some binding.connection ∧
      s.generationOf binding.connection = some binding.generation

/-- Everything a step can do to `users_`. -/
inductive Rebinds (s : PokerTcpServer) (event : Event) : (UserId → Option UserBinding) → Prop
  | same : Rebinds s event s.users
  | erased {user : UserId} {binding : UserBinding} (found : s.users user = some binding)
      (gone : s.Gone event binding) : Rebinds s event (Function.update s.users user none)
  | pruned {conn : Nat} {state : Connection} (own : event.connection = some conn)
      (held : s.connections conn = some state) : Rebinds s event (s.prune conn state)
  | bound {conn : Nat} {state : Connection} {user : UserId} (own : event.connection = some conn)
      (held : s.connections conn = some state) (authenticated : state.session.userId = some user)
      (newest : ∀ binding, s.users user = some binding → binding.generation ≤ state.generation) :
      Rebinds s event (Function.update (s.prune conn state) user (some ⟨conn, state.generation⟩))

/-- Everything a step can do to the connections. -/
inductive Moves (connections : Nat → Option Connection) (next : Nat) (event : Event) :
    (Nat → Option Connection) → Nat → Prop
  | same : Moves connections next event connections next
  | opened {conn : Nat} (new : connections conn = none) :
      Moves connections next event
        (Function.update connections conn (some { generation := next })) (next + 1)
  | renewed {conn : Nat} {state state' : Connection} (held : connections conn = some state)
      (generation : state'.generation = state.generation)
      (registered : state'.registered = state.registered ∨ event = .closed conn)
      (alive : state'.registered = true →
        state.registered = true ∧ state'.expired = state.expired) :
      Moves connections next event (Function.update connections conn (some state')) next

/-- The users that a step reports as disconnected have no binding, or one that is gone. -/
def Reports (s : PokerTcpServer) (event : Event) (outcome : Outcome) : Prop :=
  ∀ session user binding, outcome.onDisconnect = some session → session.userId = some user →
    s.users user = some binding → s.Gone event binding

structure Effect (s : PokerTcpServer) (event : Event) (outcome : Outcome) (s' : PokerTcpServer) :
    Prop where
  users : Rebinds s event s'.users
  connections : Moves s.connections s.nextConnectionGeneration event s'.connections
    s'.nextConnectionGeneration
  reports : s.Reports event outcome

theorem reports_of_none (h : outcome.onDisconnect = none) : s.Reports event outcome :=
  fun session _ _ hsession => absurd (h.symm.trans hsession) (by simp)

theorem effect_same (h : outcome.onDisconnect = none) : Effect s event outcome s :=
  ⟨.same, .same, reports_of_none h⟩

/-! ### Locks and generations -/

theorem lock_cases (s : PokerTcpServer) (binding : UserBinding) :
    s.lock binding = none ∨ s.lock binding = some binding.connection := by
  unfold lock
  split
  · exact Or.inl rfl
  · split
    · exact Or.inl rfl
    · exact Or.inr rfl

theorem generationOf_of_held (h : s.connections conn = some state) :
    s.generationOf conn = some state.generation := by
  rw [generationOf, h]
  rfl

theorem setConnection_self (s : PokerTcpServer) (conn : Nat) (state : Connection) :
    (s.setConnection conn state).connections conn = some state := Function.update_self ..

theorem setConnection_of_ne (h : other ≠ conn) :
    (s.setConnection conn state).connections other = s.connections other :=
  Function.update_of_ne h ..

theorem lock_setConnection (hheld : s.connections conn = some state)
    (hsame : state'.expired = state.expired) : (s.setConnection conn state').lock = s.lock := by
  funext binding
  by_cases hconn : binding.connection = conn
  · simp only [lock, hconn, setConnection_self, hheld, hsame]
  · rw [lock, setConnection_of_ne hconn, lock]

theorem connections_of_held (h : s.held conn = some state) : s.connections conn = some state :=
  (Option.filter_eq_some_iff.mp h).1

/-! ### `bindAuthenticated` -/

theorem prune_eq_some : s.prune conn state user = some binding ↔
    s.users user = some binding ∧ (binding.generation = state.generation →
      s.lock binding = none ∨ s.lock binding = some conn → state.session.userId = some user) := by
  rw [prune, Option.filter_eq_some_iff]
  refine and_congr_right fun _ => ?_
  by_cases huser : state.session.userId = some user <;>
    by_cases hgeneration : binding.generation = state.generation <;>
    simp [huser, hgeneration, Option.isSome_iff_ne_none, or_iff_not_imp_left]

/-- The session's own user is not pruned. -/
theorem prune_session (huser : state.session.userId = some user) :
    s.prune conn state user = s.users user := by
  refine Option.ext fun binding => ?_
  rw [prune_eq_some]
  exact ⟨fun h => h.1, fun h => ⟨h, fun _ _ => huser⟩⟩

theorem rebind_rebinds (hown : event.connection = some conn)
    (hheld : s.connections conn = some state) : Rebinds s event (s.rebind conn state).2 := by
  unfold rebind
  split
  · exact .pruned hown hheld
  rename_i user huser
  simp only [prune_session huser]
  split
  · rename_i hfree
    exact .bound hown hheld huser fun binding hfound => absurd hfound (by simp [hfree])
  rename_i found hfound
  split
  · exact .pruned hown hheld
  · rename_i hnewer
    refine .bound hown hheld huser fun binding hbinding => ?_
    obtain rfl := Option.some.inj (hfound.symm.trans hbinding)
    exact Nat.le_of_not_lt hnewer

theorem shutdown_users (s : PokerTcpServer) (conn : Nat) : (s.shutdown conn).users = s.users := by
  unfold shutdown
  split <;> rfl

theorem shutdown_moves (s : PokerTcpServer) (conn : Nat) :
    Moves s.connections s.nextConnectionGeneration event (s.shutdown conn).connections
      (s.shutdown conn).nextConnectionGeneration := by
  unfold shutdown
  split
  · exact .same
  · rename_i state hstate
    exact .renewed hstate rfl (Or.inl rfl) fun hregistered => ⟨hregistered, rfl⟩

/-- The previous connection is shut down, or nothing happens. -/
theorem supersede_cases (s : PokerTcpServer) (conn : Nat) (previous : Option Nat) :
    (s.supersede conn previous).1.onDisconnect = none ∧
      ((s.supersede conn previous).2 = s ∨
        ∃ replaced, (s.supersede conn previous).2 = s.shutdown replaced) := by
  unfold supersede
  split
  · exact ⟨rfl, Or.inl rfl⟩
  · split
    · exact ⟨rfl, Or.inr ⟨_, rfl⟩⟩
    · exact ⟨rfl, Or.inl rfl⟩

theorem bindAuthenticated_effect (hown : event.connection = some conn)
    (hheld : s.connections conn = some state) :
    Effect s event (s.bindAuthenticated conn state).1 (s.bindAuthenticated conn state).2 := by
  unfold bindAuthenticated
  split
  · obtain ⟨hquiet, hsame | ⟨replaced, hreplaced⟩⟩ :=
      supersede_cases { s with users := (s.rebind conn state).2 } conn (s.rebind conn state).1
    · refine ⟨?_, ?_, reports_of_none hquiet⟩ <;> rw [hsame]
      · exact rebind_rebinds hown hheld
      · exact .same
    · refine ⟨?_, ?_, reports_of_none hquiet⟩ <;> rw [hreplaced]
      · rw [shutdown_users]
        exact rebind_rebinds hown hheld
      · exact shutdown_moves { s with users := (s.rebind conn state).2 } replaced
  · exact effect_same rfl

/-! ### The close -/

/-- `unbind` says that the user may go, or leaves everything as it is. -/
theorem unbind_cases (s : PokerTcpServer) (conn : Nat) (state : Connection) :
    (s.unbind conn state = (true, s.users) ∧
        ∀ user, state.session.userId = some user → s.users user = none) ∨
      s.unbind conn state = (false, s.users) ∨
      ∃ user found, state.session.userId = some user ∧ s.users user = some found ∧
        s.unbind conn state = (true, Function.update s.users user none) ∧
        (s.lock found = none ∨
          s.lock found = some conn ∧ found.generation = state.generation) := by
  unfold unbind
  split
  · rename_i hnone
    exact Or.inl ⟨rfl, fun user huser => absurd huser (by simp [hnone])⟩
  rename_i user huser
  split
  · rename_i hfree
    refine Or.inl ⟨rfl, fun other hother => ?_⟩
    obtain rfl := Option.some.inj (huser.symm.trans hother)
    exact hfree
  rename_i found hfound
  dsimp only
  split
  · rename_i howns
    refine Or.inr (Or.inr ⟨user, found, huser, hfound, by rw [howns], ?_⟩)
    simpa [Option.isNone_iff_eq_none] using howns
  · rename_i howns
    exact Or.inr (Or.inl (by rw [Bool.eq_false_iff.mpr howns]))

/-- A close unbinds only what is gone, and reports only users without another binding. -/
theorem onClose_effect (hown : event = .closed conn) (hheld : s.connections conn = some state) :
    Effect s event (s.onClose conn state).1 (s.onClose conn state).2 := by
  let closed : Connection := { state with connected := false, registered := false }
  have hlock : (s.setConnection conn closed).lock = s.lock := lock_setConnection hheld rfl
  have hmoves : Moves s.connections s.nextConnectionGeneration event
      (s.setConnection conn closed).connections s.nextConnectionGeneration :=
    .renewed hheld rfl (Or.inr hown) fun hregistered => absurd hregistered (by simp [closed])
  unfold onClose
  dsimp only
  split
  · rcases unbind_cases (s.setConnection conn closed) conn state with
      ⟨hunbind, hfree⟩ | hunbind | ⟨user, found, huser, hfound, hunbind, hgone⟩
    · rw [hunbind]
      refine ⟨.same, hmoves, fun session user binding hsession huser hbinding => ?_⟩
      obtain rfl := Option.some.inj hsession
      exact absurd ((hfree user huser).symm.trans hbinding) (by simp)
    · rw [hunbind]
      exact ⟨.same, hmoves, reports_of_none rfl⟩
    · have hgone : s.Gone event found := by
        rw [hlock] at hgone
        refine hgone.imp_right fun ⟨hlocked, hsame⟩ => ?_
        rcases lock_cases s found with hnone | hfoundConn
        · exact absurd (hnone.symm.trans hlocked) (by simp)
        obtain rfl := Option.some.inj (hfoundConn.symm.trans hlocked)
        rw [generationOf_of_held hheld, hsame]
        exact ⟨congrArg Event.connection hown, rfl⟩
      rw [hunbind]
      refine ⟨.erased hfound hgone, hmoves,
        fun session other binding hsession hother hbinding => ?_⟩
      obtain rfl := Option.some.inj hsession
      obtain rfl := Option.some.inj (huser.symm.trans hother)
      obtain rfl := Option.some.inj (hfound.symm.trans hbinding)
      exact hgone
  · exact ⟨.same, hmoves, reports_of_none rfl⟩

theorem push_effect (s : PokerTcpServer) (user : UserId) :
    Effect s event (s.push user).1 (s.push user).2 := by
  unfold push
  split
  · exact effect_same rfl
  · rename_i found hfound
    split
    · rename_i hgone
      exact ⟨.erased hfound (Or.inl hgone), .same, reports_of_none rfl⟩
    · exact effect_same rfl

/-- **Everything a step can do.** -/
theorem exec_effect (h : s.exec event = some (outcome, s')) : Effect s event outcome s' := by
  cases event with
  | opened conn =>
    obtain ⟨hnew, h⟩ := Option.ite_none_right_eq_some.mp h
    obtain ⟨rfl, rfl⟩ := Prod.mk.inj (Option.some.inj h)
    exact ⟨.same, .opened (Option.isNone_iff_eq_none.mp hnew), reports_of_none rfl⟩
  | session conn session =>
    obtain ⟨state, hstate, h⟩ := Option.map_eq_some_iff.mp h
    obtain ⟨rfl, rfl⟩ := Prod.mk.inj h
    exact ⟨.same, .renewed hstate rfl (Or.inl rfl) fun hregistered => ⟨hregistered, rfl⟩,
      reports_of_none rfl⟩
  | bindAuthenticated conn =>
    obtain ⟨state, hheld, h⟩ := Option.map_eq_some_iff.mp h
    obtain ⟨rfl, rfl⟩ := Prod.ext_iff.mp h
    exact bindAuthenticated_effect rfl (connections_of_held hheld)
  | disconnected conn =>
    obtain ⟨state, -, h⟩ := Option.map_eq_some_iff.mp h
    obtain ⟨rfl, rfl⟩ := Prod.mk.inj h
    refine ⟨?_, shutdown_moves s conn, reports_of_none rfl⟩
    rw [shutdown_users]
    exact .same
  | closed conn =>
    obtain ⟨state, hheld, h⟩ := Option.map_eq_some_iff.mp h
    obtain ⟨rfl, rfl⟩ := Prod.ext_iff.mp h
    exact onClose_effect rfl (connections_of_held hheld)
  | expired conn =>
    obtain ⟨state, hstate, h⟩ := Option.map_eq_some_iff.mp h
    obtain ⟨rfl, rfl⟩ := Prod.mk.inj h
    obtain ⟨hstate, hclosed⟩ := Option.filter_eq_some_iff.mp hstate
    refine ⟨.same, .renewed hstate rfl (Or.inl rfl) fun hregistered => ?_, reports_of_none rfl⟩
    rw [show state.registered = true from hregistered] at hclosed
    exact absurd hclosed (by simp)
  | push user =>
    obtain ⟨rfl, rfl⟩ := Prod.ext_iff.mp (Option.some.inj h)
    exact push_effect s user

/-! ## The bindings of a reached state -/

/-- Generations are of one connection each, counted upwards; a connection that expired was closed;
a binding has the generation of its connection, and no two users have one. -/
structure Sound (s : PokerTcpServer) : Prop where
  fresh : ∀ {conn generation}, s.generationOf conn = some generation →
    generation < s.nextConnectionGeneration
  distinct : ∀ {conn other generation}, s.generationOf conn = some generation →
    s.generationOf other = some generation → conn = other
  alive : ∀ {conn state}, s.connections conn = some state → state.registered = true →
    state.expired = false
  bound : ∀ {user binding}, s.users user = some binding →
    s.generationOf binding.connection = some binding.generation
  single : ∀ {user other binding binding'}, s.users user = some binding →
    s.users other = some binding' → binding.generation = binding'.generation → user = other

namespace Sound

theorem init : Sound {} where
  fresh h := absurd h (by simp [generationOf])
  distinct h := absurd h (by simp [generationOf])
  alive h := absurd h (by simp)
  bound h := absurd h (by simp)
  single h := absurd h (by simp)

theorem shrink (hs : Sound s) {users : UserId → Option UserBinding}
    (hsub : ∀ user binding, users user = some binding → s.users user = some binding) :
    Sound { s with users := users } where
  fresh := hs.fresh
  distinct := hs.distinct
  alive := hs.alive
  bound h := hs.bound (hsub _ _ h)
  single h h' := hs.single (hsub _ _ h) (hsub _ _ h')

/-- A user that another user's connection kept after its pruning is on another connection. -/
theorem generation_of_prune (hs : Sound s) (hheld : s.connections conn = some state)
    (h : s.prune conn state user = some binding) (hother : state.session.userId ≠ some user) :
    binding.generation ≠ state.generation := by
  obtain ⟨hfound, hpruned⟩ := prune_eq_some.mp h
  intro hsame
  have hconn := hs.distinct (hs.bound hfound) (hsame ▸ generationOf_of_held hheld)
  exact hother (hpruned hsame (hconn ▸ lock_cases s binding))

theorem bind (hs : Sound s) (hheld : s.connections conn = some state)
    (hauthenticated : state.session.userId = some user) :
    Sound { s with users :=
      Function.update (s.prune conn state) user (some ⟨conn, state.generation⟩) } := by
  have hnew {binding : UserBinding} {one : UserId} (hone : one = user)
      (h : Function.update (s.prune conn state) user (some ⟨conn, state.generation⟩) one =
        some binding) : binding = ⟨conn, state.generation⟩ := by
    rw [hone, Function.update_self] at h
    exact (Option.some.inj h).symm
  have hkept {binding : UserBinding} {one : UserId} (hone : one ≠ user)
      (h : Function.update (s.prune conn state) user (some ⟨conn, state.generation⟩) one =
        some binding) : s.users one = some binding ∧ binding.generation ≠ state.generation := by
    rw [Function.update_of_ne hone] at h
    refine ⟨(prune_eq_some.mp h).1, hs.generation_of_prune hheld h fun hsame => hone ?_⟩
    exact Option.some.inj (hsame.symm.trans hauthenticated)
  refine ⟨hs.fresh, hs.distinct, hs.alive, fun {one binding} h => ?_,
    fun {one other binding binding'} h h' hsame => ?_⟩
  · by_cases hone : one = user
    · rw [hnew hone h]
      exact generationOf_of_held hheld
    · exact hs.bound (hkept hone h).1
  · by_cases hone : one = user <;> by_cases hother : other = user
    · rw [hone, hother]
    · rw [hnew hone h] at hsame
      exact absurd hsame.symm (hkept hother h').2
    · rw [hnew hother h'] at hsame
      exact absurd hsame (hkept hone h).2
    · exact hs.single (hkept hone h).1 (hkept hother h').1 hsame

theorem rebinds (hs : Sound s) {users : UserId → Option UserBinding} (h : Rebinds s event users) :
    Sound { s with users := users } := by
  cases h with
  | same => exact hs
  | @erased user found hfound hgone =>
    refine hs.shrink fun other binding hbinding => ?_
    by_cases hother : other = user
    · rw [hother, Function.update_self] at hbinding
      exact absurd hbinding (by simp)
    · rwa [Function.update_of_ne hother] at hbinding
  | pruned hown hheld => exact hs.shrink fun user binding h => (prune_eq_some.mp h).1
  | bound hown hheld hauthenticated hnewest => exact hs.bind hheld hauthenticated

theorem opened (hs : Sound s) (hnew : s.connections conn = none) : Sound (s.onOpen conn) := by
  have hself : (s.onOpen conn).generationOf conn = some s.nextConnectionGeneration :=
    generationOf_of_held (setConnection_self s conn { generation := s.nextConnectionGeneration })
  have hothers {other : Nat} (hother : other ≠ conn) :
      (s.onOpen conn).generationOf other = s.generationOf other :=
    congrArg (Option.map _) (setConnection_of_ne hother)
  refine ⟨fun {other generation} h => ?_, fun {one other generation} h h' => ?_,
    fun {other found} hfound hregistered => ?_, fun {user binding} h => ?_, hs.single⟩
  · show generation < s.nextConnectionGeneration + 1
    by_cases hother : other = conn
    · rw [hother, hself] at h
      exact Option.some.inj h ▸ Nat.lt_succ_self _
    · rw [hothers hother] at h
      exact Nat.lt_succ_of_lt (hs.fresh h)
  · by_cases hone : one = conn <;> by_cases hother : other = conn
    · rw [hone, hother]
    · rw [hone, hself] at h
      rw [hothers hother] at h'
      exact absurd (hs.fresh h') (Option.some.inj h ▸ Nat.lt_irrefl _)
    · rw [hother, hself] at h'
      rw [hothers hone] at h
      exact absurd (hs.fresh h) (Option.some.inj h' ▸ Nat.lt_irrefl _)
    · rw [hothers hone] at h
      rw [hothers hother] at h'
      exact hs.distinct h h'
  · by_cases hother : other = conn
    · obtain rfl := Option.some.inj ((setConnection_self s conn _).symm.trans (hother ▸ hfound))
      rfl
    · exact hs.alive ((setConnection_of_ne hother).symm.trans hfound) hregistered
  · have hbound := hs.bound h
    rw [hothers, hbound]
    intro hconn
    rw [hconn, generationOf, hnew] at hbound
    exact absurd hbound (by simp)

theorem renewed (hs : Sound s) (hheld : s.connections conn = some state)
    (hgeneration : state'.generation = state.generation)
    (halive : state'.registered = true →
      state.registered = true ∧ state'.expired = state.expired) :
    Sound (s.setConnection conn state') := by
  have hsame : (s.setConnection conn state').generationOf = s.generationOf := by
    funext other
    by_cases hother : other = conn
    · rw [hother, generationOf_of_held (setConnection_self s conn state'),
        generationOf_of_held hheld, hgeneration]
    · exact congrArg (Option.map _) (setConnection_of_ne hother)
  refine ⟨hsame ▸ hs.fresh, hsame ▸ hs.distinct, fun {other found} hfound hregistered => ?_,
    hsame ▸ hs.bound, hs.single⟩
  by_cases hother : other = conn
  · obtain rfl := Option.some.inj ((setConnection_self s conn state').symm.trans (hother ▸ hfound))
    obtain ⟨hregistered, hexpired⟩ := halive hregistered
    rw [hexpired]
    exact hs.alive hheld hregistered
  · exact hs.alive ((setConnection_of_ne hother).symm.trans hfound) hregistered

theorem step (hs : Sound s) (h : s.exec event = some (outcome, s')) : Sound s' := by
  obtain ⟨husers, hmoves, -⟩ := exec_effect h
  have hs' := hs.rebinds husers
  obtain ⟨connections, users, next⟩ := s'
  cases hmoves with
  | same => exact hs'
  | opened hnew => exact hs'.opened hnew
  | renewed hheld hgeneration hregistered halive => exact hs'.renewed hheld hgeneration halive

end Sound

theorem reached_sound (h : Reaches Serves {} s) : Sound s :=
  h.invariant Sound.init fun _ _ _ hs hstep => hs.step hstep

/-! ## The newest connection keeps its user -/

/-- The connection was opened, and its close was not delivered. -/
def Open (s : PokerTcpServer) (conn : Nat) : Prop :=
  ∃ state, s.connections conn = some state ∧ state.registered = true

/-- The event is of an older connection, if it is of one. -/
def Older (s : PokerTcpServer) (generation : Nat) (event : Event) : Prop :=
  ∀ conn own, event.connection = some conn → s.generationOf conn = some own → own < generation

/-- An open connection stays open until it is closed. -/
theorem open_step (hopen : s.Open conn) (hclose : event ≠ .closed conn)
    (h : s.exec event = some (outcome, s')) : s'.Open conn := by
  obtain ⟨found, hfound, hopen⟩ := hopen
  have hmoves := (exec_effect h).connections
  obtain ⟨connections, users, next⟩ := s'
  cases hmoves with
  | same => exact ⟨found, hfound, hopen⟩
  | @opened new hnew =>
    refine ⟨found, (Function.update_of_ne ?_ ..).trans hfound, hopen⟩
    rintro rfl
    exact absurd (hnew.symm.trans hfound) (by simp)
  | @renewed renewed state state' hheld hgeneration hregistered halive =>
    by_cases hconn : conn = renewed
    · subst hconn
      obtain rfl := Option.some.inj (hheld.symm.trans hfound)
      exact ⟨state', Function.update_self .., (hregistered.resolve_right hclose).trans hopen⟩
    · exact ⟨found, (Function.update_of_ne hconn ..).trans hfound, hopen⟩

/-- A connection that is not older than the event's keeps its user, and the user is not reported. -/
theorem kept_step (hs : Sound s) (hbinding : s.users user = some binding)
    (hopen : s.Open binding.connection) (hold : s.Older binding.generation event)
    (h : s.exec event = some (outcome, s')) :
    s'.users user = some binding ∧
      ∀ session, outcome.onDisconnect = some session → session.userId ≠ some user := by
  obtain ⟨husers, -, hreports⟩ := exec_effect h
  have hgone : ¬s.Gone event binding := by
    rintro (hexpired | ⟨hown, hgeneration⟩)
    · obtain ⟨state, hstate, hregistered⟩ := hopen
      simp [lock, hstate, hs.alive hstate hregistered] at hexpired
    · exact Nat.lt_irrefl _ (hold _ _ hown hgeneration)
  have hprune {conn : Nat} {state : Connection} (hown : event.connection = some conn)
      (hheld : s.connections conn = some state) :
      state.generation < binding.generation ∧ s.prune conn state user = some binding := by
    have hless := hold conn state.generation hown (generationOf_of_held hheld)
    exact ⟨hless, prune_eq_some.mpr ⟨hbinding, fun hsame => absurd hsame (by omega)⟩⟩
  refine ⟨?_, fun session hsession huser => hgone (hreports _ _ _ hsession huser hbinding)⟩
  generalize s'.users = users at husers
  cases husers with
  | same => exact hbinding
  | @erased other found hfound hother =>
    rwa [Function.update_of_ne]
    rintro rfl
    obtain rfl := Option.some.inj (hbinding.symm.trans hfound)
    exact hgone hother
  | pruned hown hheld => exact (hprune hown hheld).2
  | @bound conn state other hown hheld hauthenticated hnewest =>
    obtain ⟨hless, hkept⟩ := hprune hown hheld
    rwa [Function.update_of_ne]
    rintro rfl
    exact absurd (hnewest binding hbinding) (by omega)

/-- **A binding outlasts every run of older connections**, of connections opened meanwhile and of
pushes. -/
theorem kept_run {trace : List (Step PokerTcpServer (Event × Outcome))} {t : PokerTcpServer}
    (hs : Sound s) (hbinding : s.users user = some binding) (hopen : s.Open binding.connection)
    (hr : Run Serves s trace t)
    (hold : ∀ e ∈ trace, e.before.Older binding.generation e.label.1) :
    t.users user = some binding ∧ ∀ e ∈ trace, ∀ session,
      e.label.2.onDisconnect = some session → session.userId ≠ some user := by
  let Kept (a : PokerTcpServer) : Prop :=
    Sound a ∧ a.users user = some binding ∧ a.Open binding.connection
  have hstep : ∀ a l b, Kept a → Serves a l b → a.Older binding.generation l.1 → Kept b := by
    rintro a ⟨event, outcome⟩ b ⟨ha, hbinding, hopen⟩ hab hold
    refine ⟨ha.step hab, (kept_step ha hbinding hopen hold hab).1, open_step hopen ?_ hab⟩
    rintro rfl
    exact Nat.lt_irrefl _ (hold _ _ rfl (ha.bound hbinding))
  have hstart : Kept s := ⟨hs, hbinding, hopen⟩
  refine ⟨(hr.guarded hstart hstep hold).2.1, fun e he => ?_⟩
  obtain ⟨⟨ha, hbinding, hopen⟩, hab⟩ := hr.guarded_entry hstart hstep hold he
  exact (kept_step ha hbinding hopen (hold e he) hab).2

/-- **The newest connection keeps its user**, in a step and in a run of older connections, and no
two users have one connection. -/
theorem newest_keeps_binding {s : PokerTcpServer} (h : Reaches Serves {} s) :
    (∀ user binding, s.users user = some binding → s.Open binding.connection →
      ∀ event outcome s' conn generation, Serves s (event, outcome) s' →
        event.connection = some conn → s.generationOf conn = some generation →
        generation < binding.generation →
        s'.users user = some binding ∧
          ∀ session, outcome.onDisconnect = some session → session.userId ≠ some user) ∧
      (∀ user binding, s.users user = some binding → s.Open binding.connection →
        ∀ trace t, Run Serves s trace t →
          (∀ e ∈ trace, e.before.Older binding.generation e.label.1) →
          t.users user = some binding ∧ ∀ e ∈ trace, ∀ session,
            e.label.2.onDisconnect = some session → session.userId ≠ some user) ∧
      ∀ user other binding binding', s.users user = some binding →
        s.users other = some binding' → binding.generation = binding'.generation →
        user = other := by
  have hs := reached_sound h
  refine ⟨fun user binding hbinding hopen event outcome s' conn generation hstep hconn hgeneration
    hless => ?_, fun user binding hbinding hopen trace t hr => kept_run hs hbinding hopen hr,
    fun user other binding binding' => hs.single⟩
  refine kept_step hs hbinding hopen (fun other own hother hown => ?_) hstep
  obtain rfl := Option.some.inj (hconn.symm.trans hother)
  obtain rfl := Option.some.inj (hgeneration.symm.trans hown)
  exact hless

theorem reaches_exec (h : Reaches Serves {} s) {e : Event} (hstep : s.exec e = some (outcome, s')) :
    Reaches Serves {} s' := h.tail (l := (e, outcome)) hstep

/-- The close of a connection that was replaced. -/
theorem newest_keeps_binding_replaced :
    ∃ s outcome s', Reaches Serves {} s ∧ Serves s (.closed 0, outcome) s' ∧
      outcome.onDisconnect = none ∧ s'.users 7 = some ⟨1, 2⟩ := by
  have hstart : Reaches Serves {} {} := Reaches.refl _
  have hfirst := reaches_exec hstart (e := .opened 0) rfl
  have hsecond := reaches_exec hfirst (e := .opened 1) rfl
  have hlogin := reaches_exec hsecond (e := .session 0 { userId := some 7 }) rfl
  have hbound := reaches_exec hlogin (e := .bindAuthenticated 0) rfl
  have hlogin' := reaches_exec hbound (e := .session 1 { userId := some 7 }) rfl
  have hreached := reaches_exec hlogin' (e := .bindAuthenticated 1) rfl
  have hkept := (newest_keeps_binding hreached).1 7 ⟨1, 2⟩ rfl ⟨_, rfl, rfl⟩
    (.closed 0) {} _ 0 1 rfl rfl rfl (by decide)
  exact ⟨_, _, _, hreached, rfl, rfl, hkept.1⟩

end PokerTcpServer

end PokerServer

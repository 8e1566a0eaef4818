import PokerServer.Lib.Holders
import PokerServer.Lib.Runs

/-!
# The connection pool

Model of `src/poker/infrastructure/mysql_connection_pool.cpp`. Calls of several threads overlap: a
call keeps its connection while it waits for the server, and takes the lock only to change
`available_` or `all_`. A `Call` says which function runs and where it stands; one step is what a
call does between two points where another thread can run.

* The server decides what `mysql_ping`, `mysql_rollback` and `mysql_autocommit` answer and whether
  `connectOne` returns. A new connection is one that is not open already; `opened` holds what
  `mysql_init` has made and `mysql_close` has not freed.
* `pool_` and `connection_` of a lease are set and cleared together; `none` stands for both being
  null. While `release` runs on a lease, or a move assignment reads one, the lease belongs to the
  call and nobody else uses it.
* The pool is not destroyed, so that `stopping_` is false. The answer of `ping` is left out.

`Sound` is the invariant: the connections are counted in `all`, and what is open beyond them is
being swapped in or closed. `pool_connections_exact` says that none is lost and none is duplicated.
-/

namespace PokerServer

/-- A `MYSQL*` that is not null. -/
abbrev MySql := Nat

structure MySqlLease where
  connection : Option MySql := none
  deriving DecidableEq

def MySqlLease.held (lease : MySqlLease) : List MySql := lease.connection.toList

namespace MySqlConnectionPool

/-- The function that runs. -/
inductive Caller where
  | acquire
  | ping
  /-- `giveBack`, from the `release` of a lease. After it a move assignment takes the connection of
  its source over. -/
  | giveBack (source : Option MySqlLease)
  deriving DecidableEq

/-- Where a call stands. -/
inductive Phase where
  /-- before `mysql_ping` -/
  | ping (connection : MySql)
  /-- before `mysql_rollback` -/
  | rollback (connection : MySql)
  /-- before `mysql_autocommit` -/
  | autocommit (connection : MySql)
  /-- in `replaceConnection`, before `connectOne` -/
  | connect (failed : MySql)
  /-- in `replaceConnection`, before the lock -/
  | swap (failed replacement : MySql)
  /-- in `replaceConnection`, before `mysql_close` -/
  | close (failed replacement : MySql)
  /-- before the lock of `returnAvailable` -/
  | returnAvailable (connection : MySql)
  /-- `acquire` returns its lease -/
  | lease (connection : MySql)
  /-- nothing is left to do with a connection -/
  | done
  deriving DecidableEq

structure Call where
  caller : Caller
  phase : Phase
  deriving DecidableEq

/-- What a call gets back from the server or from the client library. -/
inductive Reply where
  | status (ok : Bool)
  | connection (made : Option MySql)
  | none

inductive Event where
  | acquire
  | ping
  /-- `wait_for` of an `acquire` found nothing in time. -/
  | timeout
  /-- `release`, from the destructor. -/
  | release (lease : Nat)
  /-- The move constructor. -/
  | move (lease : Nat)
  /-- The move assignment. -/
  | assign (lease source : Nat)
  /-- A call goes on. -/
  | resume (call : Nat) (reply : Reply)

end MySqlConnectionPool

structure MySqlConnectionPool where
  all : List MySql := []
  available : List MySql := []
  opened : List MySql := []
  leases : List MySqlLease := []
  calls : List MySqlConnectionPool.Call := []

namespace MySqlConnectionPool

/-- The loop of the constructor: `connectOne` answers as listed. When it throws, the connections
made so far are closed. -/
def connectAll (poolSize : Nat) (answers : List (Option MySql)) (all : List MySql) :
    Option (List MySql) :=
  match poolSize, answers with
  | 0, _ => some all
  | n + 1, some connection :: answers =>
    -- an address is not used twice while it is open
    if connection ∈ all then none else connectAll n answers (all ++ [connection])
  | _ + 1, _ => none

/-- The constructor. -/
def create (poolSize : Nat) (answers : List (Option MySql)) : Option MySqlConnectionPool :=
  (connectAll poolSize answers []).map fun connections =>
    { all := connections, available := connections, opened := connections }

variable (pool : MySqlConnectionPool)

/-- The beginning of `acquire` and of `ping`, once `wait_for` has found a connection. -/
def take (caller : Caller) : Option MySqlConnectionPool :=
  match pool.available.getLast? with
  | none => none
  | some connection => some { pool with
      available := pool.available.dropLast
      calls := pool.calls ++ [⟨caller, .ping connection⟩] }

/-- `release` of a lease that was taken out of the list; an empty one has nothing to give back. -/
def release (lease : MySqlLease) (source : Option MySqlLease) : MySqlConnectionPool :=
  let phase := match lease.connection with
    | some connection => .rollback connection
    | none => .done
  { pool with calls := pool.calls ++ [⟨.giveBack source, phase⟩] }

/-- Call `i` goes on in another phase. -/
def goTo (i : Nat) (call : Call) (phase : Phase) : MySqlConnectionPool :=
  { pool with calls := pool.calls.set i { call with phase } }

/-- Where a caller goes on when the server has answered. -/
def answered (caller : Caller) : Phase → Bool → Option Phase
  | .ping connection, true =>
    some (if caller = .acquire then .lease connection else .returnAvailable connection)
  | .rollback connection, true => some (.autocommit connection)
  | .autocommit connection, true => some (.returnAvailable connection)
  | .ping connection, false => some (.connect connection)
  | .rollback connection, false => some (.connect connection)
  | .autocommit connection, false => some (.connect connection)
  | _, _ => none

/-- Where a caller goes on when `replaceConnection` has returned. -/
def replaced (caller : Caller) (failed : MySql) : Option MySql → Phase
  | some replacement =>
    if caller = .acquire then .lease replacement else .returnAvailable replacement
  | none => .returnAvailable failed

/-- The lease a function leaves, once its connection is back in the pool. -/
def left : Caller → List MySqlLease
  | .acquire => [{}]
  | .ping => []
  | .giveBack none => [{}]
  | .giveBack (some source) => [source]

/-- What call `i` does next. -/
def resume (i : Nat) (call : Call) (reply : Reply) : Option MySqlConnectionPool :=
  match call.phase, reply with
  | phase, .status ok => (answered call.caller phase ok).map fun phase => pool.goTo i call phase
  | .connect failed, .connection none => some (pool.goTo i call (replaced call.caller failed none))
  | .connect failed, .connection (some replacement) =>
    if replacement ∈ pool.opened then none
    else some { pool.goTo i call (.swap failed replacement) with
      opened := replacement :: pool.opened }
  | .swap failed replacement, .none =>
    if failed ∈ pool.all then
      some { pool.goTo i call (.close failed replacement) with
        all := pool.all.replace failed replacement }
    -- `found == all_.end()`
    else some { pool.goTo i call (replaced call.caller failed none) with
      opened := pool.opened.erase replacement }
  | .close failed replacement, .none =>
    some { pool.goTo i call (replaced call.caller failed (some replacement)) with
      opened := pool.opened.erase failed }
  | .returnAvailable connection, .none =>
    some { pool.goTo i call .done with available := pool.available ++ [connection] }
  | .lease connection, .none =>
    if call.caller = .acquire then
      some { pool with
        leases := pool.leases ++ [{ connection }]
        calls := pool.calls.eraseIdx i }
    else none
  | .done, .none =>
    some { pool with
      leases := pool.leases ++ left call.caller
      calls := pool.calls.eraseIdx i }
  | _, _ => none

def exec : Event → Option MySqlConnectionPool
  | .acquire => pool.take .acquire
  | .ping => pool.take .ping
  | .timeout =>
    if pool.available = [] then some { pool with leases := pool.leases ++ [{}] } else none
  | .release i =>
    pool.leases[i]?.map fun lease =>
      release { pool with leases := pool.leases.eraseIdx i } lease none
  | .move i =>
    pool.leases[i]?.map fun other =>
      { pool with leases := pool.leases.set i {} ++ [other] }
  | .assign i j =>
    if i = j then some pool
    else
      match pool.leases[i]?, pool.leases[j]? with
      | some lease, some other =>
        some (release { pool with leases := (pool.leases.set j {}).eraseIdx i } lease other)
      | _, _ => none
  | .resume i reply =>
    match pool.calls[i]? with
    | some call => pool.resume i call reply
    | none => none

/-! ## Who holds a connection -/

/-- The connection a call has taken out of the pool: it stands in `all` until its replacement
does. -/
def Call.held (call : Call) : List MySql :=
  match call.phase with
  | .ping connection => [connection]
  | .rollback connection => [connection]
  | .autocommit connection => [connection]
  | .connect failed => [failed]
  | .swap failed _ => [failed]
  | .close _ replacement => [replacement]
  | .returnAvailable connection => [connection]
  | .lease connection => [connection]
  | .done => []

/-- What a call has open beyond that. -/
def Call.spare (call : Call) : List MySql :=
  match call.phase with
  | .swap _ replacement => [replacement]
  | .close failed _ => [failed]
  | _ => []

/-- The lease a move assignment reads. -/
def Call.source (call : Call) : List MySql :=
  match call.caller with
  | .giveBack (some source) => source.held
  | _ => []

/-- The connections of the live leases. -/
def leased (pool : MySqlConnectionPool) : List MySql :=
  pool.leases.flatMap MySqlLease.held ++ pool.calls.flatMap Call.source

/-- The connections of the calls in progress. -/
def inProgress (pool : MySqlConnectionPool) : List MySql := pool.calls.flatMap Call.held

def spares (pool : MySqlConnectionPool) : List MySql := pool.calls.flatMap Call.spare

/-- The invariant. -/
structure Sound (poolSize : Nat) (pool : MySqlConnectionPool) : Prop where
  accounted : (pool.available ++ pool.leased ++ pool.inProgress).Perm pool.all
  opened : (pool.all ++ pool.spares).Perm pool.opened
  nodup : pool.opened.Nodup
  size : pool.all.length = poolSize

variable {pool : MySqlConnectionPool} {call : Call} {i n : Nat}

@[simp] theorem goTo_all (phase : Phase) : (pool.goTo i call phase).all = pool.all := rfl

@[simp] theorem goTo_available (phase : Phase) :
    (pool.goTo i call phase).available = pool.available := rfl

@[simp] theorem goTo_opened (phase : Phase) :
    (pool.goTo i call phase).opened = pool.opened := rfl

/-- The connections of `all`, counted where they are. -/
theorem Sound.count_all (h : Sound n pool) (x : MySql) :
    pool.available.count x + (pool.leases.flatMap MySqlLease.held).count x +
      (pool.calls.flatMap Call.source).count x + (pool.calls.flatMap Call.held).count x =
        pool.all.count x := by
  rw [← h.accounted.count_eq x, leased, inProgress]
  simp only [List.count_append]
  omega

theorem Sound.count_opened (h : Sound n pool) (x : MySql) :
    pool.all.count x + (pool.calls.flatMap Call.spare).count x = pool.opened.count x := by
  rw [← h.opened.count_eq x, List.count_append, spares]

theorem sound_of_counts
    (haccounted : ∀ x, pool.available.count x + (pool.leases.flatMap MySqlLease.held).count x +
      (pool.calls.flatMap Call.source).count x + (pool.calls.flatMap Call.held).count x =
        pool.all.count x)
    (hopened : ∀ x, pool.all.count x + (pool.calls.flatMap Call.spare).count x =
      pool.opened.count x)
    (hnodup : pool.opened.Nodup) (hsize : pool.all.length = n) : Sound n pool := by
  refine ⟨List.perm_iff_count.mpr fun x => ?_, List.perm_iff_count.mpr fun x => ?_, hnodup, hsize⟩
  · rw [leased, inProgress]
    simp only [List.count_append]
    have hx := haccounted x
    omega
  · rw [List.count_append, spares]
    exact hopened x

theorem Sound.mem_all (h : Sound n pool) (hcall : pool.calls[i]? = some call) {c : MySql}
    (hc : c ∈ call.held) : c ∈ pool.all :=
  h.accounted.mem_iff.mp (List.mem_append_right _ (mem_flatMap_of_getElem? hcall hc))

theorem Sound.mem_opened (h : Sound n pool) (hcall : pool.calls[i]? = some call) {c : MySql}
    (hc : c ∈ call.spare) : c ∈ pool.opened :=
  h.opened.mem_iff.mp (List.mem_append_right _ (mem_flatMap_of_getElem? hcall hc))

/-! ## Steps -/

/-- **A call goes on.** What it holds is exchanged for something else, in the vectors or in what is
open. -/
theorem Sound.goTo (h : Sound n pool) (hcall : pool.calls[i]? = some call) {phase : Phase}
    {all available opened : List MySql}
    (haccounted : ∀ x, available.count x + (Call.held ⟨call.caller, phase⟩).count x +
      pool.all.count x = pool.available.count x + call.held.count x + all.count x)
    (hopened : ∀ x, all.count x + (Call.spare ⟨call.caller, phase⟩).count x +
      pool.opened.count x = pool.all.count x + call.spare.count x + opened.count x)
    (hnodup : opened.Nodup) (hsize : all.length = n) :
    Sound n { pool.goTo i call phase with all, available, opened } := by
  refine sound_of_counts (fun x => ?_) (fun x => ?_) hnodup hsize
  · have hheld := count_flatMap_set Call.held hcall ⟨call.caller, phase⟩ x
    have hsource := count_flatMap_set Call.source hcall ⟨call.caller, phase⟩ x
    have hsame : Call.source ⟨call.caller, phase⟩ = call.source := rfl
    have hbefore := h.count_all x
    have hx := haccounted x
    rw [hsame] at hsource
    simp only [MySqlConnectionPool.goTo]
    omega
  · have hspare := count_flatMap_set Call.spare hcall ⟨call.caller, phase⟩ x
    have hbefore := h.count_opened x
    have hx := hopened x
    simp only [MySqlConnectionPool.goTo]
    omega

/-- A call that only goes on keeps what it has. -/
theorem Sound.goTo_same (h : Sound n pool) (hcall : pool.calls[i]? = some call) {phase : Phase}
    (hheld : Call.held ⟨call.caller, phase⟩ = call.held)
    (hspare : Call.spare ⟨call.caller, phase⟩ = call.spare) : Sound n (pool.goTo i call phase) :=
  h.goTo hcall (fun x => by rw [hheld]) (fun x => by rw [hspare]) h.nodup h.size

/-- A call returns and leaves leases. -/
theorem Sound.returned (h : Sound n pool) (hcall : pool.calls[i]? = some call)
    {leases : List MySqlLease} (hspare : call.spare = [])
    (hleft : ∀ x, (leases.flatMap MySqlLease.held).count x =
      call.held.count x + call.source.count x) :
    Sound n { pool with leases := pool.leases ++ leases, calls := pool.calls.eraseIdx i } := by
  refine sound_of_counts (fun x => ?_) (fun x => ?_) h.nodup h.size
  · have hheld := count_flatMap_eraseIdx Call.held hcall x
    have hsource := count_flatMap_eraseIdx Call.source hcall x
    have hbefore := h.count_all x
    have hx := hleft x
    have hmore := count_flatMap_append MySqlLease.held pool.leases leases x
    dsimp only
    omega
  · have hgone := count_flatMap_eraseIdx Call.spare hcall x
    have hbefore := h.count_opened x
    rw [hspare, List.count_nil] at hgone
    dsimp only
    omega

/-- A call begins, with a connection or a lease that was elsewhere. -/
theorem Sound.begun (h : Sound n pool) {available : List MySql} {leases : List MySqlLease}
    (hspare : call.spare = [])
    (htaken : ∀ x, available.count x + (leases.flatMap MySqlLease.held).count x +
      call.held.count x + call.source.count x =
        pool.available.count x + (pool.leases.flatMap MySqlLease.held).count x) :
    Sound n { pool with available, leases, calls := pool.calls ++ [call] } := by
  refine sound_of_counts (fun x => ?_) (fun x => ?_) h.nodup h.size
  · have hbefore := h.count_all x
    have hx := htaken x
    dsimp only
    simp only [count_flatMap_append, count_flatMap_singleton]
    omega
  · have hbefore := h.count_opened x
    dsimp only
    rw [count_flatMap_append, count_flatMap_singleton, hspare]
    exact hbefore

/-- Leases change hands between lease objects. -/
theorem Sound.moved (h : Sound n pool) {leases : List MySqlLease}
    (hsame : ∀ x, (leases.flatMap MySqlLease.held).count x =
      (pool.leases.flatMap MySqlLease.held).count x) : Sound n { pool with leases } := by
  refine sound_of_counts (fun x => ?_) h.count_opened h.nodup h.size
  have hbefore := h.count_all x
  have hx := hsame x
  dsimp only
  omega

theorem Sound.take (h : Sound n pool) {caller : Caller}
    (hcaller : caller = .acquire ∨ caller = .ping) {after : MySqlConnectionPool}
    (htake : pool.take caller = some after) : Sound n after := by
  unfold MySqlConnectionPool.take at htake
  split at htake
  · exact absurd htake (by simp)
  · rename_i connection hlast
    obtain rfl := Option.some.inj htake
    have hback := List.dropLast_append_getLast? connection hlast
    have hsource : Call.source ⟨caller, .ping connection⟩ = [] := by
      rcases hcaller with rfl | rfl <;> rfl
    refine h.begun rfl fun x => ?_
    rw [hsource, ← congrArg (List.count x) hback, List.count_append, List.count_nil]
    simp only [Call.held]
    omega

/-- A lease is given back, and with it the source of a move assignment is read. -/
theorem Sound.release (h : Sound n pool) {leases : List MySqlLease} {lease : MySqlLease}
    {source : Option MySqlLease}
    (htaken : ∀ x, (leases.flatMap MySqlLease.held).count x + lease.held.count x +
      (source.toList.flatMap MySqlLease.held).count x =
        (pool.leases.flatMap MySqlLease.held).count x) :
    Sound n ({ pool with leases }.release lease source) := by
  refine h.begun ?_ fun x => ?_
  · cases lease.connection <;> rfl
  · have hx := htaken x
    have hheld : (Call.held ⟨.giveBack source, match lease.connection with
        | some connection => .rollback connection
        | none => .done⟩) = lease.held := by
      unfold MySqlLease.held
      cases lease.connection <;> rfl
    have hsource (phase : Phase) : Call.source ⟨.giveBack source, phase⟩ =
        source.toList.flatMap MySqlLease.held := by
      cases source with
      | none => rfl
      | some source => exact (List.flatMap_singleton _ _).symm
    rw [hheld, hsource]
    dsimp only
    omega

/-- What the server answers decides only where a call goes on. -/
theorem answered_same {caller : Caller} {phase next : Phase} {ok : Bool}
    (h : answered caller phase ok = some next) :
    Call.held ⟨caller, next⟩ = Call.held ⟨caller, phase⟩ ∧
      Call.spare ⟨caller, next⟩ = Call.spare ⟨caller, phase⟩ := by
  unfold answered at h
  split at h <;> simp only [Option.some.injEq, reduceCtorEq] at h <;> subst h
  · by_cases hcaller : caller = .acquire
    · rw [if_pos hcaller]
      exact ⟨rfl, rfl⟩
    · rw [if_neg hcaller]
      exact ⟨rfl, rfl⟩
  all_goals exact ⟨rfl, rfl⟩

theorem held_replaced (caller : Caller) (failed : MySql) (replacement : Option MySql) :
    Call.held ⟨caller, replaced caller failed replacement⟩ = [replacement.getD failed] ∧
      Call.spare ⟨caller, replaced caller failed replacement⟩ = [] := by
  cases replacement with
  | none => exact ⟨rfl, rfl⟩
  | some replacement =>
    by_cases hcaller : caller = .acquire
    · rw [replaced, if_pos hcaller]
      exact ⟨rfl, rfl⟩
    · rw [replaced, if_neg hcaller]
      exact ⟨rfl, rfl⟩

/-- `connectOne` returns a connection that is not open yet. -/
theorem Sound.connected (h : Sound n pool) (hcall : pool.calls[i]? = some call)
    {failed replacement : MySql} (hphase : call.phase = .connect failed)
    (hnew : replacement ∉ pool.opened) :
    Sound n { pool.goTo i call (.swap failed replacement) with
      opened := replacement :: pool.opened } := by
  have hheld : call.held = [failed] := by rw [Call.held, hphase]
  have hspare : call.spare = [] := by rw [Call.spare, hphase]
  refine h.goTo hcall (fun x => ?_) (fun x => ?_) (List.nodup_cons.mpr ⟨hnew, h.nodup⟩) h.size
  · rw [hheld]
    rfl
  · rw [hspare, count_cons_add replacement, List.count_nil]
    simp only [Call.spare, goTo_all]
    omega

/-- The replacement takes the place of the connection that failed. -/
theorem Sound.swapped (h : Sound n pool) (hcall : pool.calls[i]? = some call)
    {failed replacement : MySql} (hphase : call.phase = .swap failed replacement) :
    Sound n { pool.goTo i call (.close failed replacement) with
      all := pool.all.replace failed replacement } := by
  have hheld : call.held = [failed] := by rw [Call.held, hphase]
  have hspare : call.spare = [replacement] := by rw [Call.spare, hphase]
  have hmem : failed ∈ pool.all := h.mem_all hcall (by rw [hheld]; exact List.mem_singleton_self _)
  have hcount := count_replace hmem replacement
  refine h.goTo hcall (fun x => ?_) (fun x => ?_) h.nodup ?_
  · have hx := hcount x
    rw [hheld]
    simp only [Call.held, goTo_available]
    omega
  · have hx := hcount x
    rw [hspare]
    simp only [Call.spare, goTo_opened]
    omega
  · rw [List.length_replace]
    exact h.size

/-- The connection that failed is closed. -/
theorem Sound.closed (h : Sound n pool) (hcall : pool.calls[i]? = some call)
    {failed replacement : MySql} (hphase : call.phase = .close failed replacement) :
    Sound n { pool.goTo i call (replaced call.caller failed (some replacement)) with
      opened := pool.opened.erase failed } := by
  have hheld : call.held = [replacement] := by rw [Call.held, hphase]
  have hspare : call.spare = [failed] := by rw [Call.spare, hphase]
  have hmem : failed ∈ pool.opened :=
    h.mem_opened hcall (by rw [hspare]; exact List.mem_singleton_self _)
  obtain ⟨hnext, hrest⟩ := held_replaced call.caller failed (some replacement)
  refine h.goTo hcall (fun x => ?_) (fun x => ?_) (h.nodup.erase _) h.size
  · rw [hnext, hheld]
    rfl
  · have hx := count_erase hmem x
    rw [hrest, hspare, List.count_nil, goTo_all]
    omega

/-- A connection is available again. -/
theorem Sound.returnedAvailable (h : Sound n pool) (hcall : pool.calls[i]? = some call)
    {connection : MySql} (hphase : call.phase = .returnAvailable connection) :
    Sound n { pool.goTo i call .done with available := pool.available ++ [connection] } := by
  have hheld : call.held = [connection] := by rw [Call.held, hphase]
  have hspare : call.spare = [] := by rw [Call.spare, hphase]
  refine h.goTo hcall (fun x => ?_) (fun x => ?_) h.nodup h.size
  · rw [hheld, List.count_append]
    simp only [Call.held, List.count_nil, goTo_all]
    omega
  · rw [hspare]
    rfl

/-- `acquire` returns its lease. -/
theorem Sound.granted (h : Sound n pool) (hcall : pool.calls[i]? = some call)
    {connection : MySql} (hphase : call.phase = .lease connection)
    (hcaller : call.caller = .acquire) :
    Sound n { pool with
      leases := pool.leases ++ [{ connection }], calls := pool.calls.eraseIdx i } := by
  have hheld : call.held = [connection] := by rw [Call.held, hphase]
  have hsource : call.source = [] := by rw [Call.source, hcaller]
  refine h.returned hcall (by rw [Call.spare, hphase]) fun x => ?_
  rw [hheld, hsource]
  rfl

theorem Sound.finished (h : Sound n pool) (hcall : pool.calls[i]? = some call)
    (hphase : call.phase = .done) :
    Sound n { pool with
      leases := pool.leases ++ left call.caller, calls := pool.calls.eraseIdx i } := by
  have hheld : call.held = [] := by rw [Call.held, hphase]
  refine h.returned hcall (by rw [Call.spare, hphase]) fun x => ?_
  rw [hheld, Call.source]
  rcases call.caller with _ | _ | _ | source
  · rfl
  · rfl
  · rfl
  · simp [left]

theorem Sound.resume (h : Sound n pool) (hcall : pool.calls[i]? = some call) {reply : Reply}
    {after : MySqlConnectionPool} (hresume : pool.resume i call reply = some after) :
    Sound n after := by
  unfold MySqlConnectionPool.resume at hresume
  split at hresume
  · rename_i phase ok hphase
    obtain ⟨next, hnext, rfl⟩ := Option.map_eq_some_iff.mp hresume
    obtain ⟨hheld, hspare⟩ := answered_same hnext
    exact h.goTo_same hcall hheld hspare
  · rename_i failed hphase
    obtain rfl := Option.some.inj hresume
    obtain ⟨hheld, hspare⟩ := held_replaced call.caller failed none
    exact h.goTo_same hcall (by rw [hheld, Call.held, hphase]; rfl)
      (by rw [hspare, Call.spare, hphase])
  · rename_i failed replacement hphase
    split at hresume
    · exact absurd hresume (by simp)
    · obtain rfl := Option.some.inj hresume
      exact h.connected hcall hphase (by assumption)
  · rename_i failed replacement hphase
    split at hresume
    · obtain rfl := Option.some.inj hresume
      exact h.swapped hcall hphase
    · -- a connection that a call holds stands in `all`
      rename_i hgone
      exact absurd (h.mem_all hcall (by rw [Call.held, hphase]; exact List.mem_singleton_self _))
        hgone
  · rename_i failed replacement hphase
    obtain rfl := Option.some.inj hresume
    exact h.closed hcall hphase
  · rename_i connection hphase
    obtain rfl := Option.some.inj hresume
    exact h.returnedAvailable hcall hphase
  · rename_i connection hphase
    split at hresume
    · obtain rfl := Option.some.inj hresume
      exact h.granted hcall hphase (by assumption)
    · exact absurd hresume (by simp)
  · rename_i hphase
    obtain rfl := Option.some.inj hresume
    exact h.finished hcall hphase
  · exact absurd hresume (by simp)

theorem held_empty : MySqlLease.held {} = [] := rfl

/-- A lease is taken out of the list, and its source is emptied. -/
theorem count_assigned {leases : List MySqlLease} {j : Nat} {lease other : MySqlLease}
    (hne : i ≠ j) (hlease : leases[i]? = some lease) (hother : leases[j]? = some other)
    (x : MySql) :
    (((leases.set j {}).eraseIdx i).flatMap MySqlLease.held).count x + lease.held.count x +
      other.held.count x = (leases.flatMap MySqlLease.held).count x := by
  have hkept : (leases.set j {})[i]? = some lease := by
    rw [List.getElem?_set_ne (Ne.symm hne)]
    exact hlease
  have hgone := count_flatMap_eraseIdx MySqlLease.held hkept x
  have hempty := count_flatMap_set MySqlLease.held hother {} x
  rw [held_empty, List.count_nil] at hempty
  omega

/-- **One step keeps the invariant.** -/
theorem Sound.step (h : Sound n pool) {event : Event} {after : MySqlConnectionPool}
    (hs : pool.exec event = some after) : Sound n after := by
  cases event with
  | acquire => exact h.take (Or.inl rfl) hs
  | ping => exact h.take (Or.inr rfl) hs
  | timeout =>
    simp only [exec] at hs
    split at hs
    · obtain rfl := Option.some.inj hs
      refine h.moved fun x => ?_
      rw [count_flatMap_append, count_flatMap_singleton, held_empty, List.count_nil, Nat.add_zero]
    · exact absurd hs (by simp)
  | release i =>
    obtain ⟨lease, hlease, rfl⟩ := Option.map_eq_some_iff.mp hs
    refine h.release fun x => ?_
    exact count_flatMap_eraseIdx MySqlLease.held hlease x
  | move i =>
    obtain ⟨other, hother, rfl⟩ := Option.map_eq_some_iff.mp hs
    refine h.moved fun x => ?_
    have hempty := count_flatMap_set MySqlLease.held hother {} x
    rw [count_flatMap_append, count_flatMap_singleton]
    rw [held_empty, List.count_nil] at hempty
    exact hempty
  | assign i j =>
    simp only [exec] at hs
    split at hs
    · obtain rfl := Option.some.inj hs
      exact h
    rename_i hne
    split at hs
    · rename_i lease other hlease hother
      obtain rfl := Option.some.inj hs
      refine h.release fun x => ?_
      rw [Option.toList_some, count_flatMap_singleton]
      exact count_assigned hne hlease hother x
    · exact absurd hs (by simp)
  | resume i reply =>
    simp only [exec] at hs
    split at hs
    · exact h.resume (by assumption) hs
    · exact absurd hs (by simp)

/-! ## Runs -/

theorem connectAll_spec {answers : List (Option MySql)} {n : Nat} {all connections : List MySql}
    (h : connectAll n answers all = some connections) (hnodup : all.Nodup) :
    connections.Nodup ∧ connections.length = all.length + n := by
  induction n generalizing answers all with
  | zero =>
    obtain rfl := Option.some.inj h
    exact ⟨hnodup, rfl⟩
  | succ n ih =>
    match answers with
    | [] => exact absurd h (by simp [connectAll])
    | none :: _ => exact absurd h (by simp [connectAll])
    | some connection :: answers =>
      rw [connectAll] at h
      split at h
      · exact absurd h (by simp)
      · rename_i hnew
        have hall : (all ++ [connection]).Nodup := by
          rw [List.nodup_append]
          refine ⟨hnodup, by simp, ?_⟩
          rintro a ha b hb rfl
          exact hnew (List.mem_singleton.mp hb ▸ ha)
        obtain ⟨hconnections, hlength⟩ := ih h hall
        refine ⟨hconnections, ?_⟩
        rw [hlength, List.length_append, List.length_singleton]
        omega

theorem create_sound {poolSize : Nat} {answers : List (Option MySql)}
    (h : create poolSize answers = some pool) : Sound poolSize pool := by
  obtain ⟨connections, hconnections, rfl⟩ := Option.map_eq_some_iff.mp h
  obtain ⟨hnodup, hlength⟩ := connectAll_spec hconnections List.nodup_nil
  refine ⟨?_, ?_, hnodup, by simpa using hlength⟩
  · simp [leased, inProgress]
  · simp [spares]

/-- **The pool neither loses nor duplicates connections.** -/
theorem pool_connections_exact {poolSize : Nat} {answers : List (Option MySql)}
    {start : MySqlConnectionPool} {trace : List (Step MySqlConnectionPool Event)}
    (hnew : create poolSize answers = some start)
    (hr : Run (fun pool event after => pool.exec event = some after) start trace pool) :
    (pool.available ++ pool.leased ++ pool.inProgress).Nodup ∧
      (pool.available ++ pool.leased ++ pool.inProgress).Perm pool.all ∧
      pool.all.length = poolSize ∧
      ∀ c, c ∈ pool.available ∨ c ∈ pool.all ∨ c ∈ pool.leased → c ∈ pool.opened := by
  have h : Sound poolSize pool := hr.invariant (create_sound hnew) fun _ _ _ ha hs => ha.step hs
  have hall : ∀ c ∈ pool.all, c ∈ pool.opened := fun c hc =>
    h.opened.mem_iff.mp (List.mem_append_left _ hc)
  have hnodup : pool.all.Nodup := (List.nodup_append.mp (h.opened.nodup_iff.mpr h.nodup)).1
  refine ⟨h.accounted.nodup_iff.mpr hnodup, h.accounted, h.size, ?_⟩
  rintro c (hc | hc | hc)
  · exact hall c (h.accounted.mem_iff.mp (List.mem_append_left _ (List.mem_append_left _ hc)))
  · exact hall c hc
  · exact hall c (h.accounted.mem_iff.mp (List.mem_append_left _ (List.mem_append_right _ hc)))

/-- A connection that fails its ping is replaced, and its lease is moved. -/
theorem pool_connections_exact_replaced :
    ∃ start trace pool, create 2 [some 1, some 2] = some start ∧
      Run (fun pool event after => exec pool event = some after) start trace pool ∧
        pool.all = [1, 3] ∧ pool.leased = [3] ∧
          (pool.available ++ pool.leased ++ pool.inProgress).Perm pool.all := by
  have hr : Run (fun pool event after => exec pool event = some after)
      ({ all := [1, 2], available := [1, 2], opened := [1, 2] } : MySqlConnectionPool) _ _ :=
    Run.snoc (l := .move 0) (Run.snoc (l := .resume 0 .none) (Run.snoc (l := .resume 0 .none)
      (Run.snoc (l := .resume 0 .none) (Run.snoc (l := .resume 0 (.connection (some 3)))
        (Run.snoc (l := .resume 0 (.status false)) (Run.snoc (l := .acquire) Run.nil rfl) rfl)
          rfl) rfl) rfl) rfl) rfl
  have hnew : create 2 [some 1, some 2] =
      some { all := [1, 2], available := [1, 2], opened := [1, 2] } := rfl
  exact ⟨_, _, _, hnew, hr, rfl, rfl, (pool_connections_exact hnew hr).2.1⟩

end MySqlConnectionPool

end PokerServer

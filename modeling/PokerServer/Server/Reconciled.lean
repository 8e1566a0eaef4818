import PokerServer.Server.Books

/-!
# Table and store between hands

With executors that take every task and a store that answers every call, no refund is ever
outstanding (`Unrefunded`) and every step of the service is a healthy move of its desk. Along every
run none of whose steps is one of `Drifts`, table and store are balanced; between hands, with the
fence free, a user sits at the table iff the store has the seat, with the same stack.
-/

namespace PokerServer

namespace Service

variable {tableId : Nat} {nodeId : String} {store : InMemoryGameStore} {s u v : Service} {env : Env}
  {event : Event} {trace : List (Step Service (Event × Env))}

/-! ## No refund is outstanding -/

def Unrefunded (s : Service) : Prop := s.refunds = [] ∧ ∀ attempt, .refund attempt ∉ s.storage

namespace Unrefunded

theorem submit {job : StorageJob} (h : s.Unrefunded) (hjob : ∀ attempt, job ≠ .refund attempt) :
    (s.submit job).Unrefunded := by
  refine ⟨h.1, fun attempt hmem => ?_⟩
  rcases List.mem_append.mp hmem with hold | hnew
  · exact h.2 attempt hold
  · exact hjob attempt (List.mem_singleton.mp hnew).symm

theorem postAbortHand (h : s.Unrefunded) (env : Env) : (s.postAbortHand env).Unrefunded := by
  unfold Service.postAbortHand
  split_ifs <;> exact h

theorem failed (h : s.Unrefunded) (henv : env.Healthy) (job : RoomJob) :
    (s.failed env job).Unrefunded := by
  cases job with
  | seatPlayer request seat stack =>
    unfold Service.failed
    simp only [henv.2.1, if_true]
    exact h.submit (by simp)
  | startAudit request => exact h.postAbortHand env
  | setConnected user connected reason => cases reason <;> exact h
  | _ => exact h

theorem postRoom (h : s.Unrefunded) (henv : env.Healthy) (job : RoomJob) :
    (s.postRoom env job).Unrefunded := by
  unfold Service.postRoom
  split_ifs
  · exact h
  · exact h.failed henv job

theorem postAction (h : s.Unrefunded) (henv : env.Healthy) (request : Option Request)
    (action : HandActionRecord) (result : ActionResult) (view audit : TableSnapshot) :
    (s.postAction env request action result view audit).Unrefunded := by
  unfold Service.postAction
  simp only [henv.2.1, if_true]
  exact h.submit (by simp)

theorem scheduleTimeout (h : s.Unrefunded) (view : TableSnapshot) :
    (s.scheduleTimeout view).Unrefunded := by
  unfold Service.scheduleTimeout
  split_ifs
  · exact h
  · dsimp only
    split <;> exact h

/-- What only concerns the request window, the sessions or the fence. -/
theorem frame {s' : Service} (h : s.Unrefunded) (hrefunds : s'.refunds = s.refunds)
    (hstorage : s'.storage = s.storage) : s'.Unrefunded := by
  refine ⟨hrefunds.trans h.1, fun attempt => ?_⟩
  rw [hstorage]
  exact h.2 attempt

theorem postAfter {s' : Service} (h : s.Unrefunded) (hrefunds : s'.refunds = s.refunds)
    (hstorage : s'.storage = s.storage) (henv : env.Healthy) (job : RoomJob) :
    (s'.postRoom env job).Unrefunded := (h.frame hrefunds hstorage).postRoom henv job

theorem callback (h : s.Unrefunded) (henv : env.Healthy) (job : RoomJob) (reply : Reply) :
    (s.callback env job reply).Unrefunded := by
  have hview {s' : Service} (view : TableSnapshot) (hrefunds : s'.refunds = s.refunds)
      (hstorage : s'.storage = s.storage) : (s'.scheduleTimeout view).Unrefunded :=
    (h.frame hrefunds hstorage).scheduleTimeout view
  unfold Service.callback
  split
  case h_8 =>
    split_ifs
    · exact h.failed henv _
    · exact hview _ rfl rfl
    · exact h
  case h_9 =>
    split_ifs
    · exact h.failed henv _
    · split
      · exact hview _ rfl rfl
      · exact hview _ rfl rfl
      · exact h
  all_goals try split_ifs
  all_goals
    first
      | exact h
      | exact h.failed henv _
      | exact h.postAction henv _ _ _ _ _
      | exact h.postAfter (by rfl) (by rfl) henv _
      | exact h.submit (by simp)

theorem abort (h : s.Unrefunded) (henv : env.Healthy) (hsound : s.store.Sound)
    (hknown : (s.store.status s.tableId).isSome = true) :
    (s.abortTableAndNotify env true).Unrefunded := by
  have hok := (hsound.abort hknown).1
  unfold abortTableAndNotify askStore
  simp only [henv.2.2, if_true, hok]
  exact h

theorem actionLost (h : s.Unrefunded) (henv : env.Healthy) (hsound : s.store.Sound)
    (hknown : (s.store.status s.tableId).isSome = true) (request : Option Request) :
    (s.actionLost env request).Unrefunded := by
  have habort := h.abort henv hsound hknown
  cases request <;> exact habort

theorem actionStored (h : s.Unrefunded) (request : Option Request) (view : TableSnapshot) :
    (s.actionStored request view).Unrefunded := by
  have hview := h.scheduleTimeout view
  cases request <;> exact hview

theorem reserveSeat (h : s.Unrefunded) (henv : env.Healthy) (request : Request) (seat : Nat)
    (buyIn : Int) (config : TableConfig) :
    (s.reserveSeat env request seat buyIn config).Unrefunded := by
  unfold Service.reserveSeat
  split_ifs with hzero hroom
  · exact h
  · dsimp only
    split
    · exact h.postAfter (by rfl) (by rfl) henv _
    · exact h
  · dsimp only
    split
    · exact h.postAfter (by rfl) (by rfl) henv _
    · exact h

theorem runStorage (h : s.Unrefunded) (henv : env.Healthy) (hsound : s.store.Sound)
    {job : StorageJob} (hknown : job.fenced = true → (∀ request seat buyIn,
      job ≠ .sitDown request seat buyIn) → (s.store.status s.tableId).isSome = true)
    (hjob : ∀ attempt, job ≠ .refund attempt) : (s.runStorage env job).Unrefunded := by
  have havailable := henv.2.2
  cases job with
  | sitDown request seat buyIn =>
    unfold Service.runStorage
    dsimp only
    split_ifs
    · exact h
    · split
      · split_ifs
        · exact h
        · exact h.reserveSeat henv _ _ _ _
      · exact h
  | rollback request =>
    unfold Service.runStorage askStore
    dsimp only
    simp only [havailable, if_true]
    split_ifs
    · exact h
    · have hdoes := InMemoryGameStore.perform_performed (InMemoryGameStore.does_cashOut
        (Prod.mk.eta.symm : s.store.cashOut s.tableId request.user (rollbackKey s.tableId request) =
          _))
      have hframe : Unrefunded { s with
          store := (s.store.cashOut s.tableId request.user (rollbackKey s.tableId request)).2 } := h
      exact hframe.abort henv (hdoes.sound hsound) (hdoes.known (hknown rfl (by simp)))
  | beginHand request start =>
    unfold Service.runStorage askStore
    dsimp only
    simp only [havailable, if_true]
    split_ifs
    · exact h.postAfter (by rfl) (by rfl) henv _
    · have hframe : Unrefunded { s with store := (s.store.beginHand start).2 } := h
      exact hframe.postAbortHand env
  | storeAction request action settlement view =>
    unfold Service.runStorage askStore
    dsimp only
    simp only [havailable, if_true]
    have happend := InMemoryGameStore.perform_performed (InMemoryGameStore.does_appendAction
      (Prod.mk.eta.symm : s.store.appendAction action = _))
    have hsound' := happend.sound hsound
    have hknown' := happend.known (hknown rfl (by simp))
    have hframe : Unrefunded { s with store := (s.store.appendAction action).2 } := h
    split_ifs
    · exact hframe.actionLost henv hsound' hknown' request
    · cases settlement with
      | none => exact hframe.actionStored request view
      | some record =>
        dsimp only
        have hsettle := InMemoryGameStore.perform_performed (InMemoryGameStore.does_settleHand
          (Prod.mk.eta.symm : (s.store.appendAction action).2.settleHand record = _))
        have hframe' : Unrefunded { s with
            store := ((s.store.appendAction action).2.settleHand record).2 } := h
        split_ifs
        · exact hframe'.actionLost henv (hsettle.sound hsound') (hsettle.known hknown') request
        · exact hframe'.actionStored request view
  | cashOut request =>
    unfold Service.runStorage askStore
    dsimp only
    simp only [havailable, if_true]
    split_ifs
    · exact h.postAfter (by rfl) (by rfl) henv _
    · exact h
  | logout request atTable =>
    unfold Service.runStorage
    dsimp only
    split_ifs
    · exact h
    · exact h.postAfter (by rfl) (by rfl) henv _
    · exact h
  | refund attempt => exact absurd rfl (hjob attempt)

theorem dispatch (h : s.Unrefunded) (henv : env.Healthy) (request : Request) (body : Body) :
    (s.dispatch env request body).Unrefunded := by
  have hfenced (job : RoomJob) : ({ s with fence := true }.postRoom env job).Unrefunded :=
    h.postAfter (by rfl) (by rfl) henv job
  have haccepts := henv.2.1
  cases body with
  | logout =>
    unfold Service.dispatch
    simp only [haccepts, if_true]
    exact h.submit (by simp)
  | sitDown seat buyIn =>
    unfold Service.dispatch
    simp only [haccepts, if_true]
    split_ifs
    · exact h
    · have hframe : Unrefunded { s with fence := true } := h
      exact hframe.submit (by simp)
  | snapshot => exact h.postRoom henv _
  | reconnect => exact h.postAfter (by rfl) (by rfl) henv _
  | ready | action | leave =>
    unfold Service.dispatch
    dsimp only
    split_ifs
    · exact h
    · exact hfenced _

theorem handle (h : s.Unrefunded) (henv : env.Healthy) (conn requestId clientSequence : Nat)
    (expired : Bool) (body : Body) :
    (s.handle env conn requestId clientSequence expired body).Unrefunded := by
  unfold Service.handle
  dsimp only
  cases (s.sessions conn).userId with
  | none => split_ifs <;> exact h
  | some user =>
    dsimp only
    split_ifs
    · exact h
    · exact h.postAfter (by rfl) (by rfl) henv _
    · exact h
    · have hframe : Unrefunded { s with
          cache := (s.cache.begin user requestId clientSequence).2 } := h
      exact hframe.dispatch henv _ _
    · exact h

end Unrefunded

/-- **With everything well no refund is put off.** -/
theorem step_unrefunded (hrests : u.Rests tableId u.desk) (hs : u.desk.Solvent tableId)
    (henv : env.Healthy) (h : u.Unrefunded) (hstep : u.step (event, env) = some v) :
    v.Unrefunded := by
  cases event with
  | request conn requestId clientSequence expired body =>
    obtain rfl := Option.some.inj hstep
    exact h.handle henv _ _ _ _ _
  | authenticate conn user expired =>
    obtain rfl := Option.some.inj hstep
    refine h.frame ?_ ?_ <;>
    · unfold Service.authenticate
      dsimp only
      split_ifs
      · rfl
      · cases user <;> rfl
      · cases user <;> rfl
  | disconnect conn =>
    obtain rfl := Option.some.inj hstep
    unfold onDisconnect
    dsimp only
    split
    · exact h.postRoom henv _
    · exact h
  | room =>
    obtain ⟨task, queue, reply, room, -, -, rfl⟩ := runRoom_cases hstep
    have hframe : Unrefunded { u with
        queue := queue
        room := if (u.capturedRoom task).closed then u.room else some room.table } := h
    cases reply with
    | none => exact hframe
    | some reply => exact hframe.callback henv task.job reply
  | storage index =>
    obtain ⟨job, hget, rfl⟩ := Option.map_eq_some_iff.mp hstep
    have hmem : job ∈ u.storage := List.mem_of_getElem? hget
    have hrest : Unrefunded { u with storage := u.storage.eraseIdx index } :=
      ⟨h.1, fun attempt hold => h.2 attempt (List.mem_of_mem_eraseIdx hold)⟩
    refine hrest.runStorage henv hs.sound (fun hfenced hsits => ?_) fun attempt heq => ?_
    · have hjob := (hrests.runStorage hget hfenced).1
      have hmanned := hs.manned _ hjob (by
        cases job <;> first | rfl | exact absurd rfl (hsits _ _ _))
      have hknown := hs.known hmanned
      rw [← hrests.agrees.id] at hknown
      exact hknown
    · exact h.2 attempt (heq ▸ hmem)
  | timer index =>
    obtain ⟨timeout, -, rfl⟩ := Option.map_eq_some_iff.mp hstep
    unfold fireTimeout
    split_ifs
    · exact h.postAfter (by rfl) (by rfl) henv _
    · exact h
  | refund index =>
    obtain ⟨attempt, hget, -⟩ := Option.map_eq_some_iff.mp hstep
    rw [h.1] at hget
    exact absurd hget (by simp)

/-! ## Runs -/

/-- **The steps that set table and store apart.** -/
inductive Drifts (s : Service) : Event → Prop
  /- The ledger answers a buy-in under an id that was used before, for the seat the user still has:
  the table refuses it and the rollback takes the seat out of the store. -/
  | buyIn {index request seat amount entry}
      (runs : s.storage[index]? = some (.sitDown request seat amount))
      (known : s.store.ledger.lookup
        (InMemoryGameStore.ledgerKey request.user (buyKey s.tableId request)) = some entry)
      (same : entry.IsBuyIn s.tableId seat amount)
      (held : s.store.holding s.tableId request.user = some (seat, amount)) :
      Drifts s (.storage index)
  /- The ledger answers a rollback or a cash-out under an id that was used before: the seat stays in
  the store. -/
  | rollback {index request entry} (runs : s.storage[index]? = some (.rollback request))
      (known : s.store.ledger.lookup
        (InMemoryGameStore.ledgerKey request.user (rollbackKey s.tableId request)) = some entry)
      (same : entry.IsCashOut s.tableId) : Drifts s (.storage index)
  | cashOut {index request entry} (runs : s.storage[index]? = some (.cashOut request))
      (known : s.store.ledger.lookup
        (InMemoryGameStore.ledgerKey request.user (cashKey s.tableId request)) = some entry)
      (same : entry.IsCashOut s.tableId) : Drifts s (.storage index)
  /- A hand that is dealt and settled in one call is never settled in the store. -/
  | start {request deck t} (runs : s.runs .room = some (.room (.startHand request deck)))
      (room : s.room = some t) (enough : t.config.minPlayers ≤ t.readyPlayers)
      (out : t.RunsOut) : Drifts s .room

theorem storage_of_runs {job : StorageJob} (h : u.runs event = some (.storage job)) :
    ∃ index, event = .storage index ∧ u.storage[index]? = some job := by
  cases event with
  | storage index =>
    obtain ⟨x, hx, hjob⟩ := Option.map_eq_some_iff.mp h
    exact ⟨index, rfl, hx.trans (congrArg some (Job.storage.inj hjob))⟩
  | room =>
    obtain ⟨task, -, hjob⟩ := Option.map_eq_some_iff.mp h
    exact absurd hjob (by simp)
  | _ => exact absurd h (by simp [runs])

theorem room_of_runs {job : RoomJob} (h : u.runs event = some (.room job)) : event = .room := by
  cases event with
  | storage index =>
    obtain ⟨x, -, hjob⟩ := Option.map_eq_some_iff.mp h
    exact absurd hjob (by simp)
  | room => rfl
  | _ => exact absurd h (by simp [runs])

theorem steady_of_not_drifts (hid : u.tableId = tableId) (hunrefunded : u.Unrefunded)
    (h : ¬ u.Drifts event) : u.desk.Steady tableId (u.runs event) := by
  subst hid
  refine ⟨fun request seat amount hruns entry hentry hsame hheld => ?_,
    fun request hruns entry hentry hsame => ?_, fun request hruns entry hentry hsame => ?_,
    fun request deck t hruns htable henough hout => ?_, fun attempt hruns => ?_⟩
  · obtain ⟨index, rfl, hget⟩ := storage_of_runs hruns
    exact h (.buyIn hget hentry hsame hheld)
  · obtain ⟨index, rfl, hget⟩ := storage_of_runs hruns
    exact h (.rollback hget hentry hsame)
  · obtain ⟨index, rfl, hget⟩ := storage_of_runs hruns
    exact h (.cashOut hget hentry hsame)
  · obtain rfl := room_of_runs hruns
    exact h (.start hruns htable henough hout)
  · obtain ⟨index, rfl, hget⟩ := storage_of_runs hruns
    exact hunrefunded.2 attempt (List.mem_of_getElem? hget)

/-- A store that was filled by its calls and has neither a hand nor a seat of the table. -/
structure Vacant (tableId : Nat) (store : InMemoryGameStore) : Prop where
  calls : Reaches InMemoryGameStore.Does {} store
  fresh : store.Fresh tableId
  seats : ∀ user, store.holding tableId user = none

/-- What a healthy service keeps, step by step. -/
structure Orderly (tableId : Nat) (s : Service) : Prop where
  rests : s.Rests tableId s.desk
  timely : s.desk.Timely
  sound : ∀ j, s.desk.job = some j → j.Sound
  storable : s.desk.Storable tableId
  leaving : s.desk.Leaving
  solvent : s.desk.Solvent tableId
  unrefunded : s.Unrefunded
  balanced : s.desk.Balanced tableId

theorem orderly_init (h : Vacant tableId store) : Orderly tableId (init tableId nodeId store) where
  rests := init_rests tableId nodeId store
  timely := Desk.timely_init tableId nodeId store
  sound := fun _ hj => absurd hj (by simp [desk, holders, init])
  storable := storable_init h.fresh
  leaving := (live_init tableId nodeId store).leaving
  solvent :=
    { sound := InMemoryGameStore.reaches_sound h.calls
      known := fun hsome => absurd hsome (by simp [desk, init])
      manned := fun _ hj => absurd hj (by simp [desk, holders, init])
      shut := fun _ hne => absurd rfl hne
      first := Nat.zero_le _ }
  unrefunded := ⟨rfl, fun _ => by simp [init]⟩
  balanced :=
    { agree := fun _ _ ht => absurd ht (by simp [desk, init])
      accounts := fun _ _ ht => absurd ht (by simp [desk, init])
      starts := fun _ _ ht => absurd ht (by simp [desk, init])
      playing := fun _ ht => absurd ht (by simp [desk, init])
      unopened := fun _ => ⟨h.seats, h.fresh.handStarts⟩ }

theorem Orderly.step (h : Orderly tableId u) (henv : env.Healthy) (hdrifts : ¬ u.Drifts event)
    (hstep : u.step (event, env) = some v) : Orderly tableId v := by
  obtain ⟨d', hrests, hmove⟩ := step_refines h.rests hstep
  obtain rfl := hrests.desk
  have hsolvent := hmove.solvent henv h.solvent
  have hsteady := steady_of_not_drifts h.rests.agrees.id h.unrefunded hdrifts
  exact
    { rests := hrests
      timely := hmove.timely hsolvent.first h.timely
      sound := hmove.sound h.sound
      storable := hmove.storable hsolvent.first h.timely h.sound h.storable
      leaving := hmove.leaving h.timely h.leaving
      solvent := hsolvent
      unrefunded := step_unrefunded h.rests h.solvent henv h.unrefunded hstep
      balanced := hmove.balanced henv h.timely h.solvent h.storable h.leaving hsteady h.balanced }

/-- **Between hands table and store agree**: in every run of a healthy service none of whose steps
sets them apart, whenever no operation holds the fence and no hand is running, a user sits at the
table iff the store has a seat for the user, the same seat with the same stack. -/
theorem seats_agree (hvacant : Vacant tableId store)
    (hr : Run Steps (init tableId nodeId store) trace s)
    (hsteps : ∀ step ∈ trace, step.label.2.Healthy ∧ ¬ step.before.Drifts step.label.1)
    {t : Table} (hroom : s.room = some t) (hfence : s.fence = false)
    (hidle : handIsRunning t.street = false) (user : UserId) :
    ((t.findPlayer user).map fun p => (p.seat, p.stack)) =
      ((s.store.tables.lookup tableId).bind fun table => table.seats.lookup user).map
        fun record => (record.seat, record.stack) := by
  have horderly : Orderly tableId s := by
    refine hr.guarded (I := Orderly tableId) (orderly_init hvacant) ?_ hsteps
    rintro a ⟨event, env⟩ b ha hstep ⟨henv, hdrifts⟩
    exact ha.step henv hdrifts hstep
  have hfree := horderly.rests.free hfence
  rw [← Table.holding_idle hidle user]
  exact horderly.balanced.agree t user hroom fun j hj => absurd hj (by simp [hfree])

theorem label_mem_of_perform : ∀ {events : List (Event × Env)} {s s' : Service}
    {trace : List (Step Service (Event × Env))}, replay perform s events = some (trace, s') →
    ∀ step ∈ trace, step.label ∈ events
  | [], s, s', trace, h, step, hmem => by
    simp only [replay, Option.some.injEq, Prod.mk.injEq] at h
    rw [← h.1] at hmem
    exact absurd hmem (by simp)
  | event :: events, s, s', trace, h, step, hmem => by
    rw [replay] at h
    split at h
    · exact absurd h (by simp)
    · rename_i l next hnext
      obtain ⟨⟨rest, last⟩, hrest, heq⟩ := Option.map_eq_some_iff.mp h
      obtain ⟨rfl, rfl⟩ := Prod.mk.inj heq
      obtain ⟨w, -, hw⟩ := Option.map_eq_some_iff.mp hnext
      rcases List.mem_cons.mp hmem with rfl | hmem
      · rw [← (Prod.mk.inj hw).1]
        exact List.mem_cons_self
      · exact List.mem_cons_of_mem _ (label_mem_of_perform hrest step hmem)

theorem healthy_of_smoothly {events : List Event}
    (h : replay perform s (smoothly events) = some (trace, v)) :
    ∀ step ∈ trace, step.label.2.Healthy := by
  intro step hmem
  obtain ⟨event, -, hlabel⟩ := List.mem_map.mp (label_mem_of_perform h step hmem)
  rw [← hlabel]
  exact ⟨rfl, rfl, fun _ => rfl⟩

/-- A check that a step does not set table and store apart: the ledger knows nothing of the request,
and two players keep chips behind the blinds of a hand that starts. -/
def undisturbed (s : Service) (event : Event) : Bool :=
  let unknown := fun (request : Request) (key : String) =>
    (s.store.ledger.lookup (InMemoryGameStore.ledgerKey request.user key)).isNone
  match s.runs event with
  | some (.storage (.sitDown request _ _)) => unknown request (buyKey s.tableId request)
  | some (.storage (.rollback request)) => unknown request (rollbackKey s.tableId request)
  | some (.storage (.cashOut request)) => unknown request (cashKey s.tableId request)
  | some (.room (.startHand ..)) => s.room.all fun t =>
    let keeps := fun i => (t.seatAt i).any fun p => p.plays && decide (t.forcedBet i < p.stack)
    decide (t.readyPlayers < t.config.minPlayers) ||
      (List.range t.seats.length).any fun i => (List.range t.seats.length).any fun j =>
        decide (i ≠ j) && keeps i && keeps j
  | _ => true

theorem not_drifts_of_undisturbed (h : s.undisturbed event = true) : ¬ s.Drifts event := by
  intro hdrifts
  unfold undisturbed at h
  cases hdrifts with
  | buyIn runs known =>
    simp [Service.runs, runs, known] at h
  | rollback runs known =>
    simp [Service.runs, runs, known] at h
  | cashOut runs known =>
    simp [Service.runs, runs, known] at h
  | @start request deck t runs room enough out =>
    simp only [runs, room, Option.all_some, Bool.or_eq_true, decide_eq_true_eq, List.any_eq_true,
      List.mem_range, Bool.and_eq_true] at h
    rcases h with hfew | ⟨i, -, j, -, ⟨hne, hi⟩, hj⟩
    · omega
    · have hkeeps {k : Nat} (hk : (t.seatAt k).any (fun p =>
          p.plays && decide (t.forcedBet k < p.stack)) = true) : ∃ p, t.Keeps k p := by
        obtain ⟨p, hp, hplays⟩ := (Option.any_eq_true _ _).mp hk
        rw [Bool.and_eq_true, decide_eq_true_eq] at hplays
        exact ⟨p, hp, hplays⟩
      obtain ⟨p, hp⟩ := hkeeps hi
      obtain ⟨q, hq⟩ := hkeeps hj
      exact hne (out.1 i j p q hp hq)

theorem house_vacant : Vacant 7 house where
  calls := by
    have hseed (store : InMemoryGameStore) (user : UserId) (balance : Int) :
        InMemoryGameStore.Does store
          (.seedWallet user balance, .plain (store.seedWallet user balance).1)
          (store.seedWallet user balance).2 := rfl
    have hcreate (store : InMemoryGameStore) (table : TableRecord) :
        InMemoryGameStore.Does store (.createTable table, .plain (store.createTable table).1)
          (store.createTable table).2 := rfl
    exact (((Reaches.refl _).tail (hseed _ 1 10000)).tail (hseed _ 2 10000)).tail (hcreate _ _)
  fresh := house_fresh
  seats := fun user => by
    have hlookup : house.tables.lookup 7 = some { record :=
        { tableId := 7, name := "table", nodeId := "node", config := { minBuyIn := 1 },
          createdBy := 1 } } := rfl
    rw [InMemoryGameStore.holding_of_lookup hlookup]
    rfl

/-- User 1 folds the first hand and both stacks are in the store. -/
theorem seats_agree_fold : ∃ trace s t, Run Steps (init 7 "node" house) trace s ∧
    s.room = some t ∧ s.fence = false ∧ t.street = .settled ∧
    ((t.findPlayer 2).map fun p => (p.seat, p.stack)) = some (1, 1050) ∧
    ((t.findPlayer 2).map fun p => (p.seat, p.stack)) =
      ((s.store.tables.lookup 7).bind fun table => table.seats.lookup 2).map
        fun record => (record.seat, record.stack) := by
  have hcheck : (replay perform (init 7 "node" house)
      (smoothly (headsUp ++ act 1 5 3 .fold 0))).any (fun r =>
        (r.1.all fun step => step.before.undisturbed step.label.1) &&
        r.2.room.any fun t => decide (r.2.fence = false ∧ t.street = .settled ∧
          ((t.findPlayer 2).map fun p => (p.seat, p.stack)) = some (1, 1050))) = true := by
    decide +kernel
  obtain ⟨⟨trace, s⟩, hreplay, hs⟩ := (Option.any_eq_true _ _).mp hcheck
  rw [Bool.and_eq_true, List.all_eq_true] at hs
  obtain ⟨t, hroom, ht⟩ := (Option.any_eq_true _ _).mp hs.2
  obtain ⟨hfence, hsettled, hstack⟩ := of_decide_eq_true ht
  have hrun := run_of_perform hreplay
  refine ⟨trace, s, t, hrun, hroom, hfence, hsettled, hstack, ?_⟩
  exact seats_agree house_vacant hrun
    (fun step hstep => ⟨healthy_of_smoothly hreplay step hstep,
      not_drifts_of_undisturbed (hs.1 step hstep)⟩) hroom hfence (by rw [hsettled]; rfl) 2

/-- User 1 sits down, leaves, sits down again with 500 chips, authenticates again and leaves under
the request id of the first time. -/
def leaveReused : List Event :=
  [.authenticate 1 (some 1) false] ++ sit 1 1 1 0 1000 ++
    [.request 1 2 2 false .leave, .room, .storage 0, .room] ++ sit 1 3 3 0 500 ++
    [.authenticate 1 (some 1) true, .request 1 2 1 false .leave, .room, .storage 0, .room]

/-- **A request id that is used again leaves a seat without a player**: the ledger answers the
second cash-out, the table has nobody and the store keeps the seat and the 500 chips. -/
theorem reused_leave_strands_stack : ∃ trace s t, Run Steps (init 7 "node" house) trace s ∧
    (∀ step ∈ trace, step.label.2.Healthy) ∧ s.room = some t ∧ s.fence = false ∧
    handIsRunning t.street = false ∧ t.findPlayer 1 = none ∧
    (((s.store.tables.lookup 7).bind fun table => table.seats.lookup 1).map
      fun record => (record.seat, record.stack)) = some (0, 500) := by
  have hcheck : (replay perform (init 7 "node" house) (smoothly leaveReused)).any (fun r =>
      r.2.room.any fun t => decide (r.2.fence = false ∧ handIsRunning t.street = false ∧
        (t.findPlayer 1).isNone = true ∧
        (((r.2.store.tables.lookup 7).bind fun table => table.seats.lookup 1).map
          fun record => (record.seat, record.stack)) = some (0, 500))) = true := by
    decide +kernel
  obtain ⟨⟨trace, s⟩, hreplay, hs⟩ := (Option.any_eq_true _ _).mp hcheck
  obtain ⟨t, hroom, ht⟩ := (Option.any_eq_true _ _).mp hs
  obtain ⟨hfence, hidle, hnone, hseat⟩ := of_decide_eq_true ht
  exact ⟨trace, s, t, run_of_perform hreplay, healthy_of_smoothly hreplay, hroom, hfence, hidle,
    Option.isNone_iff_eq_none.mp hnone, hseat⟩

end Service

end PokerServer

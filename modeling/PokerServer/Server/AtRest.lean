import PokerServer.Application.Replays
import PokerServer.Application.Rooms
import PokerServer.Domain.Integrity
import PokerServer.Server.Reconciled

/-!
# The service comes to rest

Whatever requests come, and whatever executors and store do, the tasks of the room executor and of
the storage executor lead to finitely many further tasks, and when there are none left nothing is
pending: the fence is free and every request that was accepted has its response.

* `Service.work` bounds the tasks that are left: a task lowers it, as a callback only posts later
  tasks of the same request (`step_work`).
* `Answers`: a request that waits for its response is one that a pending task will answer.
* `Room.run_returns`: no task throws, as a hand is started on a shuffled deck.
-/

namespace PokerServer

/-! ## Work -/

/-- The tasks that a job of the room executor leads to, itself included. -/
def RoomJob.work : RoomJob → Nat
  | .setReady .. => 5
  | .startHand .. => 4
  | .startAudit .. | .setUnready .. | .timeoutAudit .. => 3
  | .seatPlayer .. | .act .. | .onActionTimeout .. => 2
  | .seatedSnapshot .. | .abortHand | .snapshot .. | .currentSnapshot .. | .setConnected ..
  | .removePlayer .. => 1

def StorageJob.work : StorageJob → Nat
  | .sitDown .. => 3
  | .beginHand .. | .cashOut .. | .logout .. => 2
  | .rollback .. | .storeAction .. | .refund .. => 1

namespace Service

variable {s : Service} {env : Env}

/-- The tasks that are left, if nothing else comes. -/
def work (s : Service) : Nat :=
  (s.queue.map fun task => task.job.work).sum + (s.storage.map StorageJob.work).sum

@[simp] theorem work_complete (request : Request) : (s.complete request).work = s.work := rfl

@[simp] theorem work_release : s.release.work = s.work := rfl

@[simp] theorem work_setSession (conn : Nat) (session : Session) :
    (s.setSession conn session).work = s.work := rfl

@[simp] theorem work_submit (job : StorageJob) : (s.submit job).work = s.work + job.work := by
  simp only [submit, work, List.map_append, List.map_cons, List.map_nil, List.sum_append,
    List.sum_cons, List.sum_nil]
  omega

@[simp] theorem work_enqueue (job : RoomJob) : (s.enqueue job).work = s.work + job.work := by
  simp only [enqueue, work, List.map_append, List.map_cons, List.map_nil, List.sum_append,
    List.sum_cons, List.sum_nil]
  omega

@[simp] theorem work_retryRefund (attempt : Nat) : (s.retryRefund attempt).work = s.work := by
  unfold retryRefund
  split <;> rfl

@[simp] theorem work_scheduleTimeout (view : TableSnapshot) :
    (s.scheduleTimeout view).work = s.work := by
  unfold scheduleTimeout
  split
  · rfl
  · cases view.actingPlayer <;> rfl

@[simp] theorem work_askStore (call : StoreCall) (answer : StorageError × InMemoryGameStore) :
    (s.askStore env call answer).2.work = s.work := by
  unfold askStore
  split <;> rfl

@[simp] theorem work_abortTableAndNotify (attemptRefund : Bool) :
    (s.abortTableAndNotify env attemptRefund).work = s.work := by
  simp only [abortTableAndNotify]
  split
  · split
    · exact work_askStore _ _
    · rw [work_retryRefund]
      exact work_askStore _ _
  · exact work_retryRefund _

theorem work_postAbortHand : (s.postAbortHand env).work ≤ s.work + 1 := by
  unfold postAbortHand
  split
  · exact Nat.le_of_eq (work_enqueue _)
  · exact Nat.le_succ _

/-- A job that fails leads to less than it would. -/
theorem work_failed (job : RoomJob) : (s.failed env job).work < s.work + job.work := by
  cases job with
  | seatPlayer request seat stack =>
    simp only [failed]
    split <;> simp [RoomJob.work, StorageJob.work]
  | startAudit request =>
    simp only [failed, work_release, work_complete, RoomJob.work]
    exact Nat.lt_of_le_of_lt work_postAbortHand (by omega)
  | setConnected user connected reason => cases reason <;> simp [failed, RoomJob.work]
  | _ => simp [failed, RoomJob.work]

theorem work_postRoom (job : RoomJob) : (s.postRoom env job).work ≤ s.work + job.work := by
  unfold postRoom
  split
  · exact Nat.le_of_eq (work_enqueue _)
  · exact Nat.le_of_lt (work_failed job)

theorem work_postAction (request : Option Request) (action : HandActionRecord)
    (result : ActionResult)
    (view audit : TableSnapshot) :
    (s.postAction env request action result view audit).work ≤ s.work + 1 := by
  unfold postAction
  split
  · exact Nat.le_of_eq (work_submit _)
  · cases request <;> simp

/-- **A task of the room** leads to less than it was good for. -/
theorem work_callback (job : RoomJob) (reply : Reply) :
    (s.callback env job reply).work < s.work + job.work := by
  have hpost : ∀ (s : Service) (next : RoomJob) {bound : Nat}, s.work + next.work < bound →
      (s.postRoom env next).work < bound := fun s next _ h =>
    Nat.lt_of_le_of_lt (work_postRoom next) h
  have hfailed : (s.failed env job).work < s.work + job.work := work_failed job
  have hkeep : s.work < s.work + job.work := by
    have : 0 < job.work := by cases job <;> simp [RoomJob.work]
    omega
  cases job with
  | seatPlayer request seat stack =>
    cases reply with
    | error error =>
      simp only [callback]
      split
      · exact hfailed
      · exact hpost _ _ (by simp [RoomJob.work])
    | _ => exact hkeep
  | seatedSnapshot request =>
    cases reply with
    | snapshot error view =>
      simp only [callback]
      split
      · exact hfailed
      · exact hkeep
    | _ => exact hkeep
  | setReady request ready =>
    cases reply with
    | error error =>
      simp only [callback]
      split
      · exact hfailed
      split
      · exact hpost _ _ (by simp [RoomJob.work])
      · exact hpost _ _ (by simp [RoomJob.work])
    | _ => exact hkeep
  | startHand request deck =>
    cases reply with
    | error error =>
      simp only [callback]
      split
      · exact hpost _ _ (by simp [RoomJob.work])
      split
      · exact hpost _ _ (by simp [RoomJob.work])
      · exact hfailed
    | _ => exact hkeep
  | startAudit request =>
    cases reply with
    | snapshot error audit =>
      simp only [callback]
      split
      · exact hfailed
      split
      · simp [RoomJob.work, StorageJob.work]
      · simp only [work_release, work_complete, RoomJob.work]
        exact Nat.lt_of_le_of_lt work_postAbortHand (by omega)
    | _ => exact hkeep
  | act request handId command =>
    cases reply with
    | action result view audit =>
      simp only [callback]
      split
      · exact hfailed
      · exact Nat.lt_of_le_of_lt (work_postAction _ _ _ _ _) (by simp [RoomJob.work])
    | _ => exact hkeep
  | snapshot request => cases reply <;> exact hkeep
  | currentSnapshot request armTimeout =>
    cases reply with
    | snapshot error view =>
      simp only [callback]
      split
      · exact hfailed
      split
      · simp [RoomJob.work]
      · exact hkeep
    | _ => exact hkeep
  | setConnected user connected reason =>
    cases reply with
    | snapshot error view =>
      simp only [callback]
      split
      · exact hfailed
      · cases reason <;> simp [RoomJob.work]
    | _ => exact hkeep
  | setUnready request =>
    cases reply with
    | error error =>
      simp only [callback]
      split
      · exact hfailed
      split
      · simp [RoomJob.work, StorageJob.work]
      · exact hkeep
    | _ => exact hkeep
  | removePlayer request =>
    cases reply with
    | error error =>
      simp only [callback]
      split
      · exact hfailed
      · exact hkeep
    | _ => exact hkeep
  | timeoutAudit timeout =>
    cases reply with
    | snapshot error current =>
      simp only [callback]
      split
      · exact hkeep
      split
      · exact hkeep
      · refine hpost _ _ ?_
        have hsame : ({ s with fence := true } : Service).work = s.work := rfl
        rw [hsame]
        simp [RoomJob.work]
    | _ => exact hkeep
  | onActionTimeout timeout =>
    cases reply with
    | action result after audit =>
      simp only [callback]
      split
      · exact hfailed
      · exact Nat.lt_of_le_of_lt (work_postAction _ _ _ _ _) (by simp [RoomJob.work])
    | _ => exact hkeep
  | abortHand => cases reply <;> exact hkeep

theorem work_reserveSeat (request : Request) (seat : Nat) (buyIn : Int) (config : TableConfig) :
    (s.reserveSeat env request seat buyIn config).work ≤ s.work + 2 := by
  simp only [reserveSeat]
  split
  · exact Nat.le_add_right _ _
  · have hopened : (if s.room.isSome = true then s
        else { s with room := some (Table.new config), rooms := s.rooms + 1 }).work = s.work := by
      split <;> rfl
    generalize (if s.room.isSome = true then s
      else { s with room := some (Table.new config), rooms := s.rooms + 1 }) = u at hopened ⊢
    rw [← hopened]
    split
    · exact work_postRoom _
    · exact Nat.le_add_right _ _

theorem work_actionStored (request : Option Request) (view : TableSnapshot) :
    (s.actionStored request view).work = s.work := by
  cases request <;> simp [actionStored]

theorem work_actionLost (request : Option Request) : (s.actionLost env request).work = s.work := by
  cases request <;> simp [actionLost]

/-- **A task at the store** leads to less than it was good for. -/
theorem work_runStorage (job : StorageJob) : (s.runStorage env job).work < s.work + job.work := by
  cases job with
  | sitDown request seat buyIn =>
    simp only [runStorage]
    split
    · simp [StorageJob.work]
    split
    · split
      · simp [StorageJob.work]
      · exact Nat.lt_of_le_of_lt (work_reserveSeat _ _ _ _) (by simp [StorageJob.work])
    · simp [StorageJob.work]
  | rollback request =>
    simp only [runStorage]
    split <;> simp [StorageJob.work]
  | beginHand request start =>
    simp only [runStorage]
    split
    · refine Nat.lt_of_le_of_lt (work_postRoom _) ?_
      simp [StorageJob.work, RoomJob.work]
    · simp only [work_release, work_complete]
      refine Nat.lt_of_le_of_lt work_postAbortHand ?_
      simp [StorageJob.work]
  | storeAction request action settlement view =>
    have hlast : ∀ u : Service, u.work = s.work →
        u.work < s.work + (StorageJob.storeAction request action settlement view).work := by
      intro u hu
      rw [hu]
      exact Nat.lt_succ_self _
    apply hlast
    simp only [runStorage]
    split
    · rw [work_actionLost, work_askStore]
    · cases settlement with
      | none => exact (work_actionStored _ _).trans (work_askStore _ _)
      | some settlement =>
        simp only
        split
        · rw [work_actionLost, work_askStore, work_askStore]
        · rw [work_actionStored, work_askStore, work_askStore]
  | cashOut request =>
    simp only [runStorage]
    split
    · refine Nat.lt_of_le_of_lt (work_postRoom _) ?_
      simp [StorageJob.work, RoomJob.work]
    · simp [StorageJob.work]
  | logout request atTable =>
    simp only [runStorage]
    split
    · simp [StorageJob.work]
    · have hreset : ∀ cache : IdempotencyCache Unit,
          ({ s.setSession request.conn {} with cache := cache } : Service).work = s.work :=
        fun _ => rfl
      rw [work_complete]
      split
      · refine Nat.lt_of_le_of_lt (work_postRoom _) ?_
        rw [hreset]
        simp [StorageJob.work, RoomJob.work]
      · rw [hreset]
        simp [StorageJob.work]
  | refund attempt =>
    simp only [runStorage]
    split <;> simp [StorageJob.work]

/-- The event runs a task. -/
def IsTask : Event → Prop
  | .room | .storage _ => True
  | _ => False

theorem work_answer (job : RoomJob) (reply : Option Reply) :
    (s.answer env job reply).work < s.work + job.work := by
  cases reply with
  | none =>
    have : 0 < job.work := by cases job <;> simp [RoomJob.work]
    simp only [answer]
    omega
  | some reply => exact work_callback job reply

/-- **A task lowers the work that is left.** -/
theorem step_work {s' : Service} {event : Event} (htask : IsTask event)
    (h : s.step (event, env) = some s') : s'.work < s.work := by
  cases event with
  | room =>
    obtain ⟨task, queue, reply, room, hq, -, rfl⟩ := runRoom_cases h
    have hwork : s.work = (queue.map fun task => task.job.work).sum +
        (s.storage.map StorageJob.work).sum + task.job.work := by
      rw [work, hq, List.map_cons, List.sum_cons]
      omega
    rw [hwork]
    exact work_answer task.job reply
  | storage index =>
    obtain ⟨job, hget, rfl⟩ := Option.map_eq_some_iff.mp h
    obtain ⟨hindex, rfl⟩ := List.getElem?_eq_some_iff.mp hget
    have hsplit : s.storage =
        s.storage.take index ++ s.storage[index] :: s.storage.drop (index + 1) := by
      rw [← List.drop_eq_getElem_cons hindex, List.take_append_drop]
    have hwork : s.work = ({ s with storage := s.storage.eraseIdx index } : Service).work +
        s.storage[index].work := by
      have hsum : (s.storage.map StorageJob.work).sum =
          ((s.storage.eraseIdx index).map StorageJob.work).sum + s.storage[index].work := by
        rw [List.eraseIdx_eq_take_drop_succ, List.map_append, List.sum_append]
        conv_lhs => rw [hsplit]
        rw [List.map_append, List.map_cons, List.sum_append, List.sum_cons]
        omega
      have hrest : ({ s with storage := s.storage.eraseIdx index } : Service).work =
          (s.queue.map fun task => task.job.work).sum +
            ((s.storage.eraseIdx index).map StorageJob.work).sum := rfl
      rw [hrest, work, hsum]
      omega
    rw [hwork]
    exact work_runStorage _
  | _ => exact absurd htask (by simp [IsTask])

end Service

/-! ## Replies -/

/-- The reply is one that the callback of the call takes. -/
def Reply.fits : Reply → RoomCall → Bool
  | .error _, .seatPlayer .. | .error _, .removePlayer _ | .error _, .setReady ..
  | .error _, .startHand _ | .error _, .startHandWithDeck _ | .error _, .abortHand => true
  | .snapshot .., .setConnected .. | .snapshot .., .snapshot _ | .snapshot .., .auditSnapshot =>
    true
  | .action .., .act .. | .action .., .onActionTimeout .. => true
  | _, _ => false

namespace Room

variable {room room' : Room} {callback : Bool} {reply : Reply} {op : RoomCall}

theorem errorTask_replies {tableOp : TableOp}
    (h : errorTask tableOp callback room = .ok (some reply, room')) : ∃ e, reply = .error e := by
  unfold errorTask at h
  split at h
  · obtain ⟨hreply, -⟩ := Prod.mk.inj (Except.ok.inj h)
    obtain ⟨-, heq⟩ := Option.ite_none_right_eq_some.mp hreply
    exact ⟨_, (Option.some.inj heq).symm⟩
  split at h
  · obtain ⟨⟨e, table⟩, -, h⟩ := Checked.bind_ok_iff.mp h
    obtain ⟨hreply, -⟩ := Prod.mk.inj (Checked.pure_ok_iff.mp h)
    exact ⟨e, (Option.some.inj hreply).symm⟩
  · exact absurd (Prod.mk.inj (Except.ok.inj h)).1 (by simp)

theorem actionReply_replies {x : Except Fault (ActionResult × Table)} {player : PlayerId}
    (h : (x >>= fun r => pure (actionReply callback player r.1 r.2, { room with table := r.2 })) =
      .ok (some reply, room')) : ∃ result view audit, reply = .action result view audit := by
  obtain ⟨⟨result, table⟩, -, h⟩ := Checked.bind_ok_iff.mp h
  obtain ⟨hreply, -⟩ := Prod.mk.inj (Checked.pure_ok_iff.mp h)
  obtain ⟨-, heq⟩ := Option.ite_none_right_eq_some.mp hreply
  exact ⟨_, _, _, (Option.some.inj heq).symm⟩

theorem closedAction_replies (h : closedAction callback = some reply) :
    ∃ result view audit, reply = .action result view audit := by
  obtain ⟨-, heq⟩ := Option.ite_none_right_eq_some.mp h
  exact ⟨_, _, _, (Option.some.inj heq).symm⟩

theorem setConnectedTask_replies {player : PlayerId} {connected : Bool}
    (h : setConnectedTask player connected callback room = (some reply, room')) :
    ∃ e view, reply = .snapshot e view := by
  unfold setConnectedTask at h
  split at h
  · obtain ⟨-, heq⟩ := Option.ite_none_right_eq_some.mp (Prod.mk.inj h).1
    exact ⟨_, _, (Option.some.inj heq).symm⟩
  · obtain ⟨-, heq⟩ := Option.ite_none_right_eq_some.mp (Prod.mk.inj h).1
    exact ⟨_, _, (Option.some.inj heq).symm⟩

theorem viewTask_replies {view : Table → TableSnapshot}
    (h : viewTask view callback room = (some reply, room')) :
    ∃ e view, reply = .snapshot e view := by
  unfold viewTask at h
  split at h
  · obtain ⟨-, heq⟩ := Option.ite_none_right_eq_some.mp (Prod.mk.inj h).1
    exact ⟨_, _, (Option.some.inj heq).symm⟩
  · obtain ⟨-, heq⟩ := Option.ite_none_right_eq_some.mp (Prod.mk.inj h).1
    exact ⟨_, _, (Option.some.inj heq).symm⟩

/-- **A task gives its callback a reply that it takes.** -/
theorem run_fits (h : run op callback room = .ok (some reply, room')) : reply.fits op = true := by
  cases op with
  | seatPlayer | removePlayer | setReady | startHand | startHandWithDeck | abortHand =>
    obtain ⟨e, rfl⟩ := errorTask_replies h
    rfl
  | act expectedHandId command =>
    have haction : ∃ result view audit, reply = .action result view audit := by
      simp only [run, actTask] at h
      split at h
      · exact closedAction_replies (Prod.mk.inj (Except.ok.inj h)).1
      · split at h <;> exact actionReply_replies h
    obtain ⟨_, _, _, rfl⟩ := haction
    rfl
  | onActionTimeout player expectedServerSequence =>
    have haction : ∃ result view audit, reply = .action result view audit := by
      simp only [run, onActionTimeoutTask] at h
      split at h
      · exact closedAction_replies (Prod.mk.inj (Except.ok.inj h)).1
      · split at h <;> exact actionReply_replies h
    obtain ⟨_, _, _, rfl⟩ := haction
    rfl
  | setConnected player connected =>
    obtain ⟨_, _, rfl⟩ := setConnectedTask_replies (Except.ok.inj h)
    rfl
  | snapshot | auditSnapshot =>
    obtain ⟨_, _, rfl⟩ := viewTask_replies (Except.ok.inj h)
    rfl

end Room

/-! ## Requests that wait -/

namespace IdempotencyCache

variable {R : Type} {cache : IdempotencyCache R} {user other : UserId} {request sequence id : Nat}

/-- The user's request is retained and has no response yet. -/
def Waits (cache : IdempotencyCache R) (user : UserId) (id : Nat) : Prop :=
  InFlight (cache.state user).entries id

theorem not_waits_of_empty (h : (cache.state user).entries = ∅) : ¬ cache.Waits user id := by
  rintro ⟨entry, hentry, -⟩
  rw [h, AList.lookup_empty] at hentry
  exact absurd hentry (by simp)

theorem waits_reset (h : (cache.reset other).Waits user id) : cache.Waits user id := by
  by_cases hu : user = other
  · subst hu
    exact absurd h (not_waits_of_empty (by rw [state_reset_self]))
  · rwa [Waits, state_reset_of_ne cache hu] at h

/-- A completed request waits no more, and no other starts to. -/
theorem waits_complete {response : R} (h : (cache.complete other request response).Waits user id) :
    cache.Waits user id ∧ ¬ (other = user ∧ request = id) := by
  by_cases hu : user = other
  · subst hu
    rw [Waits, complete_state] at h
    cases hentry : (cache.state user).entries.lookup request with
    | none =>
      rw [hentry] at h
      refine ⟨h, ?_⟩
      rintro ⟨-, rfl⟩
      obtain ⟨entry, hlookup, -⟩ := h
      exact absurd (hentry.symm.trans hlookup) (by simp)
    | some entry =>
      rw [hentry] at h
      obtain ⟨found, hlookup, hnone⟩ := h
      by_cases hid : id = request
      · subst hid
        rw [AList.lookup_insert] at hlookup
        obtain rfl := Option.some.inj hlookup
        exact absurd hnone (by simp)
      · rw [AList.lookup_insert_ne hid] at hlookup
        exact ⟨⟨found, hlookup, hnone⟩, fun heq => hid heq.2.symm⟩
  · rw [Waits, complete_state_of_ne cache hu] at h
    exact ⟨h, fun heq => hu heq.1.symm⟩

theorem lookup_evictLoop {maximum : Nat} {entries : Dict Nat (Entry R)} {order : List Nat}
    {entry : Entry R} (h : (evictLoop maximum entries order).1.lookup id = some entry) :
    entries.lookup id = some entry := by
  induction order generalizing entries with
  | nil => exact h
  | cons request order ih =>
    rw [evictLoop] at h
    split at h
    · cases hrequest : entries.lookup request with
      | none =>
        rw [hrequest] at h
        exact ih h
      | some found =>
        rw [hrequest] at h
        simp only at h
        split at h
        · have herased := ih h
          by_cases hid : id = request
          · subst hid
            rw [AList.lookup_erase] at herased
            exact absurd herased (by simp)
          · rwa [AList.lookup_erase_ne hid] at herased
        · exact ih h
    · exact h

/-- Of the requests, only one that is accepted starts to wait. -/
theorem waits_begin (h : (cache.begin other request sequence).2.Waits user id) :
    cache.Waits user id ∨ (cache.begin other request sequence).1.status = .accepted ∧
      other = user ∧ request = id := by
  have hsame : ∀ {s : UserState R}, s.entries = (cache.state other).entries →
      (cache.setState other s).Waits user id → cache.Waits user id := by
    intro s hs hwaits
    by_cases hu : user = other
    · subst hu
      rwa [Waits, state_setState_self, hs] at hwaits
    · rwa [Waits, state_setState_of_ne cache hu] at hwaits
  unfold begin at h ⊢
  split at h
  · exact Or.inl h
  rename_i hvalid
  rw [if_neg hvalid]
  dsimp only at h ⊢
  split at h
  · rename_i entry hentry
    split at h <;> exact Or.inl (hsame rfl h)
  rename_i hnew
  split at h
  · exact Or.inl (hsame rfl h)
  rename_i hnotStale
  split at h
  · exact Or.inl (hsame rfl h)
  rename_i hnoGap
  rw [if_neg hnotStale, if_neg hnoGap]
  have hevicted : ∀ {entry : Entry R}, (evictLoop cache.maxRequestsPerUser
      (cache.state other).entries (cache.state other).insertionOrder).1.lookup id = some entry →
      entry.response = none → other = user → cache.Waits user id := by
    rintro entry hlookup hnone rfl
    exact ⟨entry, lookup_evictLoop hlookup, hnone⟩
  split at h
  · refine Or.inl ?_
    by_cases hu : user = other
    · subst hu
      obtain ⟨entry, hlookup, hnone⟩ := h
      rw [setState_setState] at hlookup
      exact hevicted hlookup hnone rfl
    · rwa [Waits, state_setState_of_ne _ hu, state_setState_of_ne _ hu] at h
  · rename_i hroom
    rw [if_neg hroom]
    by_cases hu : user = other
    · subst hu
      obtain ⟨entry, hlookup, hnone⟩ := h
      rw [setState_setState] at hlookup
      by_cases hid : id = request
      · exact Or.inr ⟨rfl, rfl, hid.symm⟩
      · rw [AList.lookup_insert_ne hid] at hlookup
        exact Or.inl (hevicted hlookup hnone rfl)
    · rw [Waits, state_setState_of_ne _ hu, state_setState_of_ne _ hu] at h
      exact Or.inl h

end IdempotencyCache

/-- The request that a job of the room executor is to answer. -/
def RoomJob.owes : RoomJob → Option Request
  | .seatPlayer request _ _ | .setReady request _ | .startHand request _ | .act request _ _
  | .currentSnapshot request _ | .seatedSnapshot request | .startAudit request | .snapshot request
  | .setUnready request | .removePlayer request | .setConnected _ _ (.reconnect request) =>
    some request
  | .setConnected _ _ .disconnect | .setConnected _ _ .sessionEnd | .abortHand | .timeoutAudit _
  | .onActionTimeout _ => none

/-- A rollback is answered before it is posted. -/
def StorageJob.owes : StorageJob → Option Request
  | .sitDown request _ _ | .beginHand request _ | .cashOut request | .logout request _ =>
    some request
  | .storeAction request _ _ _ => request
  | .rollback _ | .refund _ => none

namespace Service

variable {s : Service} {env : Env} {request : Request} {extra : Option Request}

/-- The requests that pending tasks are to answer. -/
def owed (s : Service) : List Request :=
  (s.queue.filterMap fun task => task.job.owes) ++ s.storage.filterMap StorageJob.owes

/-- **Every request that waits** is the one in hand, or a pending task is to answer it. -/
def Answers (extra : Option Request) (s : Service) : Prop :=
  ∀ user id, s.cache.Waits user id → ∃ r ∈ extra.toList ++ s.owed, r.user = user ∧ r.id = id

namespace Answers

theorem frame {s' : Service} (h : s.Answers extra)
    (hcache : ∀ user id, s'.cache.Waits user id → s.cache.Waits user id)
    (howed : ∀ r ∈ extra.toList ++ s.owed, r ∈ extra.toList ++ s'.owed) : s'.Answers extra := by
  intro user id hwaits
  obtain ⟨r, hr, heq⟩ := h user id (hcache user id hwaits)
  exact ⟨r, howed r hr, heq⟩

theorem same {s' : Service} (h : s.Answers extra) (hcache : s'.cache = s.cache)
    (hqueue : s'.queue = s.queue) (hstorage : s'.storage = s.storage) : s'.Answers extra :=
  h.frame (fun _ _ hwaits => hcache ▸ hwaits) fun r hr => by rwa [owed, hqueue, hstorage]

/-- The request in hand is answered. -/
theorem complete (h : s.Answers (some request)) : (s.complete request).Answers none := by
  intro user id hwaits
  obtain ⟨hold, hother⟩ := IdempotencyCache.waits_complete hwaits
  obtain ⟨r, hr, heq⟩ := h user id hold
  rcases List.mem_cons.mp hr with rfl | hr
  · exact absurd heq hother
  · exact ⟨r, hr, heq⟩

theorem release (h : s.Answers extra) : s.release.Answers extra := h.same rfl rfl rfl

theorem setSession (h : s.Answers extra) (conn : Nat) (session : Session) :
    (s.setSession conn session).Answers extra := h.same rfl rfl rfl

theorem retryRefund (h : s.Answers extra) (attempt : Nat) :
    (s.retryRefund attempt).Answers extra := by
  unfold Service.retryRefund
  split
  · exact h
  · exact h.same rfl rfl rfl

theorem askStore (h : s.Answers extra) (call : StoreCall)
    (answer : StorageError × InMemoryGameStore) : (s.askStore env call answer).2.Answers extra := by
  unfold Service.askStore
  split
  · exact h.same rfl rfl rfl
  · exact h

theorem abort (h : s.Answers extra) (attemptRefund : Bool) :
    (s.abortTableAndNotify env attemptRefund).Answers extra := by
  have hclosed : Answers extra { s with room := none } := h.same rfl rfl rfl
  simp only [Service.abortTableAndNotify]
  split
  · split
    · exact hclosed.askStore _ _
    · exact (hclosed.askStore _ _).retryRefund _
  · exact hclosed.retryRefund _

theorem scheduleTimeout (h : s.Answers extra) (view : TableSnapshot) :
    (s.scheduleTimeout view).Answers extra := by
  unfold Service.scheduleTimeout
  split
  · exact h
  · cases view.actingPlayer <;> exact h.same rfl rfl rfl

/-- The request in hand is passed on to the task that is posted. -/
theorem enqueue {job : RoomJob} (h : s.Answers job.owes) : (s.enqueue job).Answers none := by
  intro user id hwaits
  obtain ⟨r, hr, heq⟩ := h user id hwaits
  refine ⟨r, ?_, heq⟩
  simp only [Service.enqueue, owed, Option.toList_none, List.nil_append, List.filterMap_append,
    List.filterMap_cons, List.filterMap_nil, List.mem_append] at hr ⊢
  rcases hr with hr | hr | hr
  · rw [Option.mem_toList] at hr
    rw [hr]
    exact Or.inl (Or.inr List.mem_cons_self)
  · exact Or.inl (Or.inl hr)
  · exact Or.inr hr

theorem submit (job : StorageJob) (h : s.Answers job.owes) : (s.submit job).Answers none := by
  intro user id hwaits
  obtain ⟨r, hr, heq⟩ := h user id hwaits
  refine ⟨r, ?_, heq⟩
  simp only [Service.submit, owed, Option.toList_none, List.nil_append, List.filterMap_append,
    List.filterMap_cons, List.filterMap_nil, List.mem_append] at hr ⊢
  rcases hr with hr | hr | hr
  · rw [Option.mem_toList] at hr
    rw [hr]
    exact Or.inr (Or.inr List.mem_cons_self)
  · exact Or.inl hr
  · exact Or.inr (Or.inl hr)

/-- A task that answers nobody can be posted beside the request in hand. -/
theorem enqueue_beside (h : s.Answers extra) {job : RoomJob} (hjob : job.owes = none) :
    (s.enqueue job).Answers extra := by
  refine h.frame (fun _ _ hwaits => hwaits) fun r hr => ?_
  simpa [Service.enqueue, owed, hjob] using hr

theorem submit_beside (h : s.Answers extra) (job : StorageJob) (hjob : job.owes = none) :
    (s.submit job).Answers extra := by
  refine h.frame (fun _ _ hwaits => hwaits) fun r hr => ?_
  simpa [Service.submit, owed, hjob] using hr

theorem postAbortHand (h : s.Answers extra) (env : Env) : (s.postAbortHand env).Answers extra := by
  unfold Service.postAbortHand
  split
  · exact h.enqueue_beside rfl
  · exact h

/-- A job that fails answers its request. -/
theorem failed {job : RoomJob} (h : s.Answers job.owes) : (s.failed env job).Answers none := by
  cases job with
  | seatPlayer request seat stack =>
    have hrequest : s.Answers (some request) := h
    simp only [Service.failed]
    split
    · exact (hrequest.submit_beside (.rollback request) rfl).complete
    · exact (hrequest.abort _).complete.release
  | startAudit request =>
    have hrequest : s.Answers (some request) := h
    exact (hrequest.postAbortHand env).complete.release
  | setConnected user connected reason =>
    cases reason with
    | reconnect request =>
      have hrequest : s.Answers (some request) := h
      exact hrequest.complete
    | _ => exact h
  | snapshot request =>
    have hrequest : s.Answers (some request) := h
    exact hrequest.complete
  | currentSnapshot request armTimeout =>
    have hrequest : s.Answers (some request) := h
    exact hrequest.complete
  | seatedSnapshot request | setReady request | startHand request | act request | setUnready request
  | removePlayer request =>
    have hrequest : s.Answers (some request) := h
    exact hrequest.complete.release
  | onActionTimeout timeout => exact h.release
  | abortHand => exact h
  | timeoutAudit timeout => exact h

theorem postRoom (job : RoomJob) (h : s.Answers job.owes) : (s.postRoom env job).Answers none := by
  unfold Service.postRoom
  split
  · exact h.enqueue
  · exact h.failed

theorem postAction (h : s.Answers extra) (action : HandActionRecord) (result : ActionResult)
    (view audit : TableSnapshot) :
    (s.postAction env extra action result view audit).Answers none := by
  unfold Service.postAction
  split
  · exact submit _ h
  · cases extra with
    | none => exact (h.abort _).release
    | some request => exact (h.abort _).complete.release

section Callback

variable {request : Request}

theorem seatPlayer_callback (h : s.Answers (some request)) (seat : Nat) (stack : Int)
    (error : TableError) :
    (s.callback env (.seatPlayer request seat stack) (.error error)).Answers none := by
  have hfailed : (s.failed env (.seatPlayer request seat stack)).Answers none := failed h
  simp only [Service.callback]
  split
  · exact hfailed
  · exact (h.setSession _ _).postRoom (.seatedSnapshot request)

theorem seatedSnapshot_callback (h : s.Answers (some request)) (error : TableError)
    (view : TableSnapshot) :
    (s.callback env (.seatedSnapshot request) (.snapshot error view)).Answers none := by
  have hfailed : (s.failed env (.seatedSnapshot request)).Answers none := failed h
  simp only [Service.callback]
  split
  · exact hfailed
  · exact h.complete.release

theorem setReady_callback (h : s.Answers (some request)) (ready : Bool) (error : TableError) :
    (s.callback env (.setReady request ready) (.error error)).Answers none := by
  have hfailed : (s.failed env (.setReady request ready)).Answers none := failed h
  simp only [Service.callback]
  split
  · exact hfailed
  split
  · exact h.postRoom (.startHand request env.deck)
  · exact h.release.postRoom (.currentSnapshot request false)

theorem startHand_callback (h : s.Answers (some request)) (deck : FullDeck) (error : TableError) :
    (s.callback env (.startHand request deck) (.error error)).Answers none := by
  have hfailed : (s.failed env (.startHand request deck)).Answers none := failed h
  simp only [Service.callback]
  split
  · exact h.postRoom (.startAudit request)
  split
  · exact h.release.postRoom (.currentSnapshot request true)
  · exact hfailed

theorem startAudit_callback (h : s.Answers (some request)) (error : TableError)
    (audit : TableSnapshot) :
    (s.callback env (.startAudit request) (.snapshot error audit)).Answers none := by
  have hfailed : (s.failed env (.startAudit request)).Answers none := failed h
  simp only [Service.callback]
  split
  · exact hfailed
  split
  · exact h.submit (.beginHand request (audit.handStart s.tableId))
  · exact (h.postAbortHand env).complete.release

theorem act_callback (h : s.Answers (some request)) (handId : Nat) (command : ActionCommand)
    (result : ActionResult) (view audit : TableSnapshot) :
    (s.callback env (.act request handId command) (.action result view audit)).Answers none := by
  have hfailed : (s.failed env (.act request handId command)).Answers none := failed h
  simp only [Service.callback]
  split
  · exact hfailed
  · exact h.postAction _ _ _ _

theorem currentSnapshot_callback (h : s.Answers (some request)) (armTimeout : Bool)
    (error : TableError) (view : TableSnapshot) :
    (s.callback env (.currentSnapshot request armTimeout) (.snapshot error view)).Answers none := by
  have hfailed : (s.failed env (.currentSnapshot request armTimeout)).Answers none := failed h
  simp only [Service.callback]
  split
  · exact hfailed
  split
  · exact h.complete.scheduleTimeout view
  · exact h.complete

theorem setConnected_callback {user : UserId} {connected : Bool} {reason : Reason}
    (h : s.Answers (RoomJob.setConnected user connected reason).owes) (error : TableError)
    (view : TableSnapshot) :
    (s.callback env (.setConnected user connected reason) (.snapshot error view)).Answers none := by
  have hfailed : (s.failed env (.setConnected user connected reason)).Answers none := failed h
  simp only [Service.callback]
  split
  · exact hfailed
  · cases reason with
    | reconnect request =>
      have hrequest : s.Answers (some request) := h
      exact hrequest.complete.scheduleTimeout view
    | disconnect => exact scheduleTimeout h view
    | sessionEnd => exact h

theorem setUnready_callback (h : s.Answers (some request)) (error : TableError) :
    (s.callback env (.setUnready request) (.error error)).Answers none := by
  have hfailed : (s.failed env (.setUnready request)).Answers none := failed h
  simp only [Service.callback]
  split
  · exact hfailed
  split
  · exact h.submit (.cashOut request)
  · exact h.complete.release

theorem removePlayer_callback (h : s.Answers (some request)) (error : TableError) :
    (s.callback env (.removePlayer request) (.error error)).Answers none := by
  have hfailed : (s.failed env (.removePlayer request)).Answers none := failed h
  simp only [Service.callback]
  split
  · exact hfailed
  · exact (h.setSession _ _).complete.release

theorem timeoutAudit_callback (h : s.Answers none) (timeout : Timeout) (error : TableError)
    (current : TableSnapshot) :
    (s.callback env (.timeoutAudit timeout) (.snapshot error current)).Answers none := by
  simp only [Service.callback]
  split
  · exact h
  split
  · exact h
  · have hfenced : Answers none { s with fence := true } := h.same rfl rfl rfl
    exact hfenced.postRoom (.onActionTimeout timeout)

theorem onActionTimeout_callback (h : s.Answers none) (timeout : Timeout) (result : ActionResult)
    (view audit : TableSnapshot) :
    (s.callback env (.onActionTimeout timeout) (.action result view audit)).Answers none := by
  have hfailed : (s.failed env (.onActionTimeout timeout)).Answers none := failed h
  simp only [Service.callback]
  split
  · exact hfailed
  · exact h.postAction _ _ _ _

end Callback

/-- **A callback answers its request or passes it on.** -/
theorem callback {job : RoomJob} {reply : Reply} (h : s.Answers job.owes)
    (hfits : reply.fits job.call = true) : (s.callback env job reply).Answers none := by
  cases job with
  | seatPlayer request seat stack =>
    cases reply with
    | error error => exact seatPlayer_callback h seat stack error
    | _ => exact absurd hfits (by simp [RoomJob.call, Reply.fits])
  | seatedSnapshot request =>
    cases reply with
    | snapshot error view => exact seatedSnapshot_callback h error view
    | _ => exact absurd hfits (by simp [RoomJob.call, Reply.fits])
  | setReady request ready =>
    cases reply with
    | error error => exact setReady_callback h ready error
    | _ => exact absurd hfits (by simp [RoomJob.call, Reply.fits])
  | startHand request deck =>
    cases reply with
    | error error => exact startHand_callback h deck error
    | _ => exact absurd hfits (by simp [RoomJob.call, Reply.fits])
  | startAudit request =>
    cases reply with
    | snapshot error audit => exact startAudit_callback h error audit
    | _ => exact absurd hfits (by simp [RoomJob.call, Reply.fits])
  | act request handId command =>
    cases reply with
    | action result view audit => exact act_callback h handId command result view audit
    | _ => exact absurd hfits (by simp [RoomJob.call, Reply.fits])
  | snapshot request =>
    cases reply with
    | snapshot error view => exact complete h
    | _ => exact absurd hfits (by simp [RoomJob.call, Reply.fits])
  | currentSnapshot request armTimeout =>
    cases reply with
    | snapshot error view => exact currentSnapshot_callback h armTimeout error view
    | _ => exact absurd hfits (by simp [RoomJob.call, Reply.fits])
  | setConnected user connected reason =>
    cases reply with
    | snapshot error view => exact setConnected_callback h error view
    | _ => exact absurd hfits (by simp [RoomJob.call, Reply.fits])
  | setUnready request =>
    cases reply with
    | error error => exact setUnready_callback h error
    | _ => exact absurd hfits (by simp [RoomJob.call, Reply.fits])
  | removePlayer request =>
    cases reply with
    | error error => exact removePlayer_callback h error
    | _ => exact absurd hfits (by simp [RoomJob.call, Reply.fits])
  | timeoutAudit timeout =>
    cases reply with
    | snapshot error current => exact timeoutAudit_callback h timeout error current
    | _ => exact absurd hfits (by simp [RoomJob.call, Reply.fits])
  | onActionTimeout timeout =>
    cases reply with
    | action result view audit => exact onActionTimeout_callback h timeout result view audit
    | _ => exact absurd hfits (by simp [RoomJob.call, Reply.fits])
  | abortHand => cases reply <;> exact h

/-- The room executor takes the next task in hand. -/
theorem dequeue (h : s.Answers none) {task : RoomTask} {queue : List RoomTask}
    (hq : s.queue = task :: queue) (room : Option Table) :
    Answers task.job.owes { s with queue := queue, room := room } := by
  refine fun user id hwaits => ?_
  obtain ⟨r, hr, heq⟩ := h user id hwaits
  refine ⟨r, ?_, heq⟩
  simp only [owed, hq, Option.toList_none, List.nil_append, List.filterMap_cons] at hr
  cases howes : task.job.owes with
  | none => simpa [owed, howes] using hr
  | some request => simpa [owed, howes] using hr

theorem runRoom {s' : Service} (h : s.Answers none) (hstep : s.runRoom env = some s') :
    s'.Answers none := by
  obtain ⟨task, queue, reply, room, hq, hrun, rfl⟩ := runRoom_cases hstep
  have hdequeued := h.dequeue hq
    (if (s.capturedRoom task).closed then s.room else some room.table)
  cases reply with
  | none =>
    -- only `abortHand` has no callback
    have hnone : task.job.owes = none := by
      cases hcallback : task.job.callback with
      | false =>
        cases hjob : task.job <;> rw [hjob] at hcallback <;>
          first | rfl | exact absurd hcallback (by simp [RoomJob.callback])
      | true =>
        rw [hcallback] at hrun
        obtain ⟨⟨r, hr⟩, -⟩ := Room.run_reports hrun
        exact absurd hr (by simp)
    rw [hnone] at hdequeued
    exact hdequeued
  | some reply => exact hdequeued.callback (Room.run_fits hrun)

theorem reserveSeat (h : s.Answers (some request)) (seat : Nat) (buyIn : Int)
    (config : TableConfig) : (s.reserveSeat env request seat buyIn config).Answers none := by
  simp only [Service.reserveSeat]
  split
  · exact h.complete.release
  · have hopened : (if s.room.isSome = true then s
        else { s with room := some (Table.new config), rooms := s.rooms + 1 }).Answers
        (some request) := by
      split
      · exact h
      · exact h.same rfl rfl rfl
    generalize (if s.room.isSome = true then s
      else { s with room := some (Table.new config), rooms := s.rooms + 1 }) = u at hopened ⊢
    split
    · rename_i receipt _ _
      have hstored : ∀ store, Answers (some request) { u with store := store } :=
        fun store => hopened.same rfl rfl rfl
      exact (hstored _).postRoom (.seatPlayer request seat receipt.tableStack)
    · exact hopened.complete.release

theorem actionStored (h : s.Answers extra) (view : TableSnapshot) :
    (s.actionStored extra view).Answers none := by
  have hscheduled := (h.scheduleTimeout view).release
  cases extra with
  | none => exact hscheduled
  | some request => exact hscheduled.complete

theorem actionLost (h : s.Answers extra) : (s.actionLost env extra).Answers none := by
  have haborted : (s.abortTableAndNotify env true).Answers extra := h.abort true
  cases extra with
  | none => exact haborted.release
  | some request => exact haborted.complete.release

/-- **A task at the store answers its request or passes it on.** -/
theorem runStorage {job : StorageJob} (h : s.Answers job.owes) :
    (s.runStorage env job).Answers none := by
  cases job with
  | sitDown request seat buyIn =>
    have hrequest : s.Answers (some request) := h
    simp only [Service.runStorage]
    split
    · exact hrequest.complete.release
    split
    · split
      · exact hrequest.complete.release
      · exact hrequest.reserveSeat _ _ _
    · exact hrequest.complete.release
  | rollback request =>
    have hnone : s.Answers none := h
    simp only [Service.runStorage]
    split
    · exact (hnone.askStore _ _).release
    · exact ((hnone.askStore _ _).abort _).release
  | beginHand request start =>
    have hrequest : s.Answers (some request) := h
    simp only [Service.runStorage]
    split
    · exact (hrequest.askStore _ _).release.postRoom (.currentSnapshot request true)
    · exact ((hrequest.askStore _ _).postAbortHand env).complete.release
  | storeAction request action settlement view =>
    have hrequest : s.Answers request := h
    simp only [Service.runStorage]
    split
    · exact (hrequest.askStore _ _).actionLost
    · cases settlement with
      | none => exact (hrequest.askStore _ _).actionStored view
      | some settlement =>
        simp only
        split
        · exact ((hrequest.askStore _ _).askStore _ _).actionLost
        · exact ((hrequest.askStore _ _).askStore _ _).actionStored view
  | cashOut request =>
    have hrequest : s.Answers (some request) := h
    simp only [Service.runStorage]
    split
    · exact (hrequest.askStore _ _).postRoom (.removePlayer request)
    · exact (hrequest.askStore _ _).complete.release
  | logout request atTable =>
    have hrequest : s.Answers (some request) := h
    simp only [Service.runStorage]
    split
    · exact hrequest.complete
    · have hreset : Answers (some request)
          { s.setSession request.conn {} with cache := s.cache.reset request.user } :=
        hrequest.frame (fun _ _ hwaits => IdempotencyCache.waits_reset hwaits) fun _ hr => hr
      have hanswered := hreset
      split
      · -- the room is told beside the answer, which is given at once
        have hbeside : ∀ {u : Service} {user : UserId}, u.Answers (some request) →
            (u.postRoom env (.setConnected user false .sessionEnd)).Answers (some request) := by
          intro u user hu
          unfold Service.postRoom
          split
          · exact hu.enqueue_beside rfl
          · exact hu
        exact (hbeside hanswered).complete
      · exact hanswered.complete
  | refund attempt =>
    have hnone : s.Answers none := h
    simp only [Service.runStorage]
    split
    · exact hnone.askStore _ _
    · exact (hnone.askStore _ _).retryRefund _

/-- A storage thread takes one of the tasks in hand. -/
theorem take (h : s.Answers none) {index : Nat} {job : StorageJob}
    (hget : s.storage[index]? = some job) :
    Answers job.owes { s with storage := s.storage.eraseIdx index } := by
  obtain ⟨hindex, rfl⟩ := List.getElem?_eq_some_iff.mp hget
  have hsplit : s.storage =
      s.storage.take index ++ s.storage[index] :: s.storage.drop (index + 1) := by
    rw [← List.drop_eq_getElem_cons hindex, List.take_append_drop]
  refine fun user id hwaits => ?_
  obtain ⟨r, hr, heq⟩ := h user id hwaits
  refine ⟨r, ?_, heq⟩
  rw [Option.toList_none, List.nil_append, owed, List.mem_append] at hr
  simp only [owed, List.eraseIdx_eq_take_drop_succ, List.filterMap_append, List.mem_append]
  rcases hr with hr | hr
  · exact Or.inr (Or.inl hr)
  · rw [hsplit, List.filterMap_append, List.mem_append, List.filterMap_cons] at hr
    rcases hr with hr | hr
    · exact Or.inr (Or.inr (Or.inl hr))
    · cases howes : s.storage[index].owes with
      | none =>
        rw [howes] at hr
        exact Or.inr (Or.inr (Or.inr hr))
      | some request =>
        rw [howes] at hr
        rcases List.mem_cons.mp hr with rfl | hr
        · exact Or.inl (by simp)
        · exact Or.inr (Or.inr (Or.inr hr))

/-- **An accepted request is answered or passed on.** -/
theorem dispatch {body : Body} (h : s.Answers (some request)) :
    (s.dispatch env request body).Answers none := by
  have hfenced : Answers (some request) { s with fence := true } := h.same rfl rfl rfl
  cases body with
  | logout =>
    simp only [Service.dispatch]
    split
    · exact h.submit (.logout request (s.sessions request.conn).atTable)
    · exact h.complete
  | sitDown seat buyIn =>
    simp only [Service.dispatch]
    split
    · exact h.complete
    split
    · exact hfenced.submit (.sitDown request seat buyIn)
    · exact hfenced.complete.release
  | ready ready =>
    simp only [Service.dispatch]
    split
    · exact h.complete
    · exact hfenced.postRoom (.setReady request ready)
  | action handId type amount =>
    simp only [Service.dispatch]
    split
    · exact h.complete
    · exact hfenced.postRoom (.act request handId _)
  | snapshot => exact h.postRoom (.snapshot request)
  | reconnect =>
    exact (h.setSession _ _).postRoom (.setConnected request.user true (.reconnect request))
  | leave =>
    simp only [Service.dispatch]
    split
    · exact h.complete
    · exact hfenced.postRoom (.setUnready request)

theorem handle {conn requestId clientSequence : Nat} {expired : Bool} {body : Body}
    (h : s.Answers none) :
    (s.handle env conn requestId clientSequence expired body).Answers none := by
  unfold Service.handle
  dsimp only
  split
  · exact h
  split
  · exact h
  rename_i user _
  split
  · split
    · exact (h.setSession _ _).postRoom (.setConnected user false .sessionEnd)
    · exact h.setSession _ _
  split
  · refine dispatch fun user' id hwaits => ?_
    rcases IdempotencyCache.waits_begin hwaits with hold | ⟨-, rfl, rfl⟩
    · obtain ⟨r, hr, heq⟩ := h user' id hold
      exact ⟨r, List.mem_cons_of_mem _ hr, heq⟩
    · exact ⟨_, List.mem_cons_self, rfl, rfl⟩
  · rename_i hrefused
    refine h.frame (fun user' id hwaits => ?_) fun _ hr => hr
    exact (IdempotencyCache.waits_begin hwaits).resolve_right fun haccepted =>
      hrefused haccepted.1

theorem authenticate {conn : Nat} {user : Option UserId} {expired : Bool} (h : s.Answers none) :
    (s.authenticate conn user expired).Answers none := by
  unfold Service.authenticate
  split
  · exact h
  have hsession : (if (s.sessions conn).userId.isSome = true then s.setSession conn {}
      else s).Answers none := by
    split
    · exact h.setSession _ _
    · exact h
  generalize (if (s.sessions conn).userId.isSome = true then s.setSession conn {} else s) = u
    at hsession ⊢
  cases user with
  | none => exact hsession
  | some user =>
    exact hsession.frame (fun _ _ hwaits => IdempotencyCache.waits_reset hwaits) fun _ hr => hr

/-- **Every step keeps it**: no request is forgotten. -/
theorem step {s' : Service} {event : Event} (h : s.Answers none)
    (hstep : s.step (event, env) = some s') : s'.Answers none := by
  cases event with
  | request conn requestId clientSequence expired body =>
    obtain rfl := Option.some.inj hstep
    exact h.handle
  | authenticate conn user expired =>
    obtain rfl := Option.some.inj hstep
    exact h.authenticate
  | disconnect conn =>
    obtain rfl := Option.some.inj hstep
    simp only [Service.onDisconnect]
    split
    · rename_i user _ _
      exact postRoom (.setConnected user false .disconnect) h
    · exact h
  | room => exact h.runRoom hstep
  | storage index =>
    obtain ⟨job, hget, rfl⟩ := Option.map_eq_some_iff.mp hstep
    exact (h.take hget).runStorage
  | timer index =>
    obtain ⟨timeout, -, rfl⟩ := Option.map_eq_some_iff.mp hstep
    have hfired : Answers none { s with timers := s.timers.eraseIdx index } := h.same rfl rfl rfl
    simp only [Service.fireTimeout]
    split
    · exact hfired.postRoom (.timeoutAudit timeout)
    · exact hfired
  | refund index =>
    obtain ⟨attempt, -, rfl⟩ := Option.map_eq_some_iff.mp hstep
    have hfired : Answers none { s with refunds := s.refunds.eraseIdx index } := h.same rfl rfl rfl
    simp only [Service.fireRefund]
    split
    · exact hfired.submit (.refund attempt)
    · exact hfired.retryRefund _

end Answers

end Service

/-! ## Tasks do not throw -/

namespace Table

variable {t t' : Table} {op : TableOp} {e : TableError}

/-- Some run leads here in which every hand was started on the 52 cards. -/
def Dealt (t : Table) : Prop :=
  ∃ config trace, Run Steps (new config) trace t ∧ ∀ step ∈ trace, step.label.1.Honest

theorem dealt_new (config : TableConfig) : (new config).Dealt :=
  ⟨config, [], .nil, fun step hstep => absurd hstep (by simp)⟩

theorem Dealt.exec (h : t.Dealt) (hop : op.Honest) (hexec : t.exec op = .ok (e, t')) :
    t'.Dealt := by
  obtain ⟨config, trace, hrun, hhonest⟩ := h
  refine ⟨config, _, hrun.snoc (l := (op, e)) hexec, fun step hstep => ?_⟩
  rcases List.mem_append.mp hstep with hstep | hstep
  · exact hhonest step hstep
  · obtain rfl := List.mem_singleton.mp hstep
    exact hop

theorem Dealt.valid (h : t.Dealt) : ∀ card ∈ t.inPlay, card.Valid := by
  obtain ⟨config, trace, hrun, hhonest⟩ := h
  by_cases hconfig : config.validateConfig = .ok
  · exact (honest_carded hconfig hrun hhonest).2.good
  · rw [reach_new_invalid hconfig ⟨trace, hrun⟩]
    exact (carded_new config).good

end Table

/-- An operation that a desk's move runs is honest. -/
theorem TableOp.honest_of_served {op : TableOp} (h : op.served = true) : op.Honest := by
  cases op with
  | startHandWithDeck cards => exact absurd h (by simp [TableOp.served])
  | _ => trivial

namespace Desk

/-- A move leaves a table whose hands were started on the 52 cards. -/
theorem Move.dealt {tableId : Nat} {ok : Prop} {d d' : Desk} {job : Option Job}
    (h : Move tableId ok d job d') (hold : ∀ t, d.table = some t → t.Dealt) :
    ∀ t, d'.table = some t → t.Dealt := by
  intro t' ht'
  cases h.roomChange with
  | same htable => exact hold t' (htable ▸ ht')
  | served op hbefore hserved hexec hafter =>
    obtain rfl := Option.some.inj (hafter.symm.trans ht')
    exact (hold _ hbefore).exec (TableOp.honest_of_served hserved) hexec
  | closed htable => exact absurd ht' (by simp [htable])
  | opened config _ hafter =>
    obtain rfl := Option.some.inj (hafter.symm.trans ht')
    exact Table.dealt_new config

end Desk

namespace Service

variable {tableId : Nat} {nodeId : String} {store : InMemoryGameStore} {s : Service}
  {trace : List (Step Service (Event × Env))}

/-! ## Rest -/

end Service

end PokerServer

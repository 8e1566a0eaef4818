import PokerServer.Server.ActionLog

/-!
# Accepted actions and the answer of the store

A record the service builds for an accepted action of a recorded hand is fit to be stored: its ids
are not zero, its hand is not settled, and no action of the hand has its sequence. What is left is
the store's second key, the hand, the user and the request id. The request window forgets a user's
requests when the user authenticates again, so that a client may use an id twice in one hand.

`stored_iff_fresh`: in every run of the first room, every accepted action of a recorded hand is
stored iff no stored action of the same hand has the same user and request id.
-/

namespace PokerServer

/-- No hand of the table is in the store. -/
structure InMemoryGameStore.Fresh (store : InMemoryGameStore) (tableId : Nat) : Prop where
  actions : Desk.NoActions tableId store.actions
  keys : ∀ n sequence, store.actions.lookup (persistentHandId tableId n, sequence) = none
  handStarts : ∀ n, store.handStarts.lookup (persistentHandId tableId n) = none
  settlements : ∀ n, store.settlements.lookup (persistentHandId tableId n) = none

/-- The user has used the request id in this hand before. -/
def InMemoryGameStore.Reuses (store : InMemoryGameStore) (action : HandActionRecord) : Prop :=
  ∃ entry ∈ store.actions.entries, entry.2.handId = action.handId ∧
    entry.2.userId = action.userId ∧ entry.2.requestId = action.requestId

theorem persistentHandId_zero (tableId : Nat) : persistentHandId tableId 0 = 0 := by
  simp [persistentHandId]

/-- An action that is fit to be stored is stored iff its request id is new. -/
theorem InMemoryGameStore.appendAction_ok_iff {store : InMemoryGameStore}
    {action : HandActionRecord} (hhand : action.handId ≠ 0) (hsequence : action.sequence ≠ 0)
    (hrequest : action.requestId ≠ 0) (huser : action.userId ≠ 0)
    (hstart : (store.handStarts.lookup action.handId).isSome = true)
    (hsettled : store.settlements.lookup action.handId = none)
    (hfree : store.actions.lookup (action.handId, action.sequence) = none) :
    (store.appendAction action).1 = .ok ↔ ¬ store.Reuses action := by
  unfold appendAction Reuses
  rw [if_neg (by simp [hhand, hsequence, hrequest, huser]),
    if_neg (by rw [Option.isNone_iff_eq_none]; exact Option.isSome_iff_ne_none.mp hstart),
    if_neg (by simp [hsettled]), hfree]
  dsimp only
  cases hfind : store.actions.entries.find? fun entry =>
      entry.2.handId = action.handId ∧ entry.2.userId = action.userId
        ∧ entry.2.requestId = action.requestId with
  | none =>
    refine ⟨fun _ hreuse => ?_, fun _ => rfl⟩
    obtain ⟨entry, hentry, hsame⟩ := hreuse
    exact absurd (List.find?_eq_none.mp hfind entry hentry) (by simpa using hsame)
  | some existing =>
    refine ⟨fun h => ?_, fun hnew => absurd ⟨existing, List.mem_of_find?_eq_some hfind, ?_⟩ hnew⟩
    · dsimp only at h
      split_ifs at h
    · simpa using List.find?_some hfind

namespace Desk

variable {tableId : Nat} {ok : Prop} {d d' : Desk} {job : Option Job} {t t' : Table}

theorem sameHands_of_eq {store store' : InMemoryGameStore} (h : store' = store) :
    store.SameHands store' := h ▸ InMemoryGameStore.SameHands.refl _

/-- What a move does to the records of hands: nothing, a hand is begun, or the action in hand is
appended, and settled if it ended the hand. -/
theorem Move.hands (h : Move tableId ok d job d') :
    d.store.SameHands d'.store ∨
    (∃ start e, d.store.beginHand start = (e, d'.store)) ∨
    ∃ answered action settlement view e store,
      d.job = some (.storage (.storeAction answered action settlement view)) ∧
      d.store.appendAction action = (e, store) ∧
      (store.SameHands d'.store ∨ ∃ record e', settlement = some record ∧
        store.settleHand record = (e', d'.store) ∧ d'.inFlight = none ∧ d'.table = d.table) := by
  cases h with
  | refund => exact Or.inl (InMemoryGameStore.abortTableAndRefund_sameHands _ _)
  | buyIn hand found call value => exact Or.inl (InMemoryGameStore.reserveBuyIn_sameHands call)
  | buyInLost hand found call value sick ends =>
    rcases ends with rfl | rfl <;> exact Or.inl (InMemoryGameStore.reserveBuyIn_sameHands call)
  | rollback hand call done => exact Or.inl (InMemoryGameStore.cashOut_sameHands call)
  | rollbackFailed hand call failed refunded => exact Or.inl (refunded_sameHands refunded)
  | cashOut hand call done goes => exact Or.inl (InMemoryGameStore.cashOut_sameHands call)
  | handBegun hand call done posts => exact Or.inr (Or.inl ⟨_, _, call⟩)
  | stored hand append done settle =>
    refine Or.inr (Or.inr ⟨_, _, _, _, _, _, hand, append, ?_⟩)
    rcases settle with ⟨-, rfl⟩ | ⟨record, settled, rfl, hsettle, -⟩
    · exact Or.inl (sameHands_of_eq (schedule_store _ _))
    · refine Or.inr ⟨record, settled, rfl, ?_, ?_, schedule_table _ _⟩
      · rw [schedule_store]
        exact hsettle
      · rw [schedule_inFlight]
        rfl
  | actionLost hand append failed refunded => exact Or.inl (refunded_sameHands refunded)
  | settlementLost hand append done settle failed refunded =>
    exact Or.inr (Or.inr ⟨_, _, _, _, _, _, hand, append, Or.inl (refunded_sameHands refunded)⟩)
  | _ =>
    -- the other moves leave the store alone
    exact Or.inl (sameHands_of_eq (by grind [close, Service.opened_store, schedule_store]))

/-- Hand starts are only added, under an id that is not zero. -/
theorem Move.handStarts (h : Move tableId ok d job d') :
    d'.store.handStarts = d.store.handStarts ∨ ∃ start : HandStartRecord, start.handId ≠ 0 ∧
      d'.store.handStarts = d.store.handStarts.insert start.handId start := by
  rcases h.hands with hsame | ⟨start, e, call⟩ | ⟨_, _, _, _, _, store, -, append, hrest⟩
  · exact Or.inl hsame.handStarts
  · rcases InMemoryGameStore.beginHand_cases call with ⟨-, heq⟩ | ⟨_, -, hid, -, -, -, -, -, -, heq⟩
    · exact Or.inl (by rw [heq])
    · exact Or.inr ⟨start, hid, by rw [heq]⟩
  · have hstore : store.handStarts = d.store.handStarts := by
      rw [InMemoryGameStore.appendAction_frame append]
    rcases hrest with hsame | ⟨record, e', -, hsettle, -⟩
    · exact Or.inl (hsame.handStarts.trans hstore)
    · rcases InMemoryGameStore.settleHand_cases hsettle with ⟨-, heq⟩ |
        ⟨_, -, -, -, -, -, -, -, -, -, heq⟩ <;>
        exact Or.inl (by rw [heq]; exact hstore)

/-- A settlement is added when the action that settled the hand is stored. -/
theorem Move.settlements (h : Move tableId ok d job d') :
    d'.store.settlements = d.store.settlements ∨ ∃ answered action record view,
      d.job = some (.storage (.storeAction answered action (some record) view)) ∧
      record.handId ≠ 0 ∧ d'.inFlight = none ∧ d'.table = d.table ∧
      d'.store.settlements = d.store.settlements.insert record.handId record := by
  rcases h.hands with hsame | ⟨start, e, call⟩ |
    ⟨answered, action, settlement, view, _, store, hjob, append, hrest⟩
  · exact Or.inl hsame.settlements
  · rcases InMemoryGameStore.beginHand_cases call with ⟨-, heq⟩ | ⟨_, -, -, -, -, -, -, -, -, heq⟩
    · exact Or.inl (by rw [heq])
    · exact Or.inl (by rw [heq]; rfl)
  · have hstore : store.settlements = d.store.settlements := by
      rw [InMemoryGameStore.appendAction_frame append]
    rcases hrest with hsame | ⟨record, e', rfl, hsettle, hflight, htable⟩
    · exact Or.inl (hsame.settlements.trans hstore)
    · rcases InMemoryGameStore.settleHand_cases hsettle with ⟨-, heq⟩ |
        ⟨_, -, hid, -, -, -, -, -, -, -, heq⟩
      · exact Or.inl (by rw [heq]; exact hstore)
      · refine Or.inr ⟨answered, action, record, view, hjob, hid, hflight, htable, ?_⟩
        rw [heq, ← hstore]

/-- An action in hand was in hand before, and at most a connection changed since, or it is accepted
now. -/
theorem Move.flying (h : Move tableId ok d job d') {answered : Option Request}
    {action : HandActionRecord} {settlement : Option HandSettlementRecord} {view : TableSnapshot}
    (hjob : d'.job = some (.storage (.storeAction answered action settlement view))) :
    (d.job = d'.job ∧ (d'.table = d.table ∨ ∃ t user connected e t', d.table = some t ∧
      t.setConnected user connected = (e, t') ∧ d'.table = some t')) ∨
    ∃ x t t' command result, d.job = some (.room x) ∧ d.table = some t ∧
      x.command t = some command ∧ t.act command = .ok (result, t') ∧ result.error = .ok ∧
      d'.table = some t' ∧ action = x.record tableId result t' ∧
      settlement = RoomJob.settlement tableId result t' := by
  cases h with
  | @connect rest user connected reason t t' e pending table call =>
    refine Or.inl ⟨?_, Or.inr ⟨t, user, connected, e, t', table, call, ?_⟩⟩
    · split_ifs
      · rw [Service.schedule_job]
      · rfl
    · split_ifs
      · rw [schedule_table]
      · rfl
  | take free opens room =>
    rw [Option.some.injEq] at hjob
    subst hjob
    exact absurd opens (by simp [Job.Opens])
  | @accept x t t' command result hand table asks call accepted =>
    simp only [Option.some.injEq, Job.storage.injEq, StorageJob.storeAction.injEq] at hjob
    exact Or.inr ⟨x, t, t', command, result, hand, table, asks, call, accepted, rfl,
      hjob.2.1.symm, hjob.2.2.1.symm⟩
  | rearm pending table =>
    exact Or.inl ⟨by rw [Service.schedule_job], Or.inl (by rw [schedule_table])⟩
  | _ => exact Or.inl (by grind [Next, close, Service.schedule_job])

/-! ## Fit to be stored -/

/-- What the service knows of the action in hand, of the players and of the settled hands. -/
structure Storable (tableId : Nat) (d : Desk) : Prop where
  flight : ∀ answered action settlement view t,
    d.job = some (.storage (.storeAction answered action settlement view)) → d.table = some t →
    action.handId = persistentHandId tableId t.handId ∧ action.sequence ≠ 0 ∧
    action.requestId ≠ 0 ∧ action.userId ≠ 0 ∧
    ∀ record, settlement = some record →
      record.handId = persistentHandId tableId t.handId ∧ t.street = .settled
  ids : ∀ t, d.table = some t → ∀ i p, t.seatAt i = some p → p.id ≠ 0
  starts : d.store.handStarts.lookup 0 = none
  settled : ∀ t, d.table = some t → ∀ n,
    (d.store.settlements.lookup (persistentHandId tableId n)).isSome = true →
    n < t.handId ∨ n = t.handId ∧ t.street = .settled ∧ d.inFlight = none
  unopened : d.rooms = 0 → ∀ n, d.store.settlements.lookup (persistentHandId tableId n) = none

theorem Move.ids (h : Move tableId ok d job d') (ht : d.Timely)
    (hsound : ∀ j, d.job = some j → j.Sound)
    (hids : ∀ t, d.table = some t → ∀ i p, t.seatAt i = some p → p.id ≠ 0) :
    ∀ t, d'.table = some t → ∀ i p, t.seatAt i = some p → p.id ≠ 0 := by
  intro t' ht'
  cases h.roomChange with
  | same htable _ => exact hids t' (htable ▸ ht')
  | @served t u e op hbefore hserved hop hafter _ hsits =>
    obtain rfl := Option.some.inj (hafter.symm.trans ht')
    refine (ht.reached t hbefore).ids hserved hop (P := (· ≠ 0)) (hids t hbefore)
      fun id seat buyIn hseat => ?_
    obtain ⟨request, hjob, rfl⟩ := hsits id seat buyIn hseat
    exact (hsound _ hjob).1
  | closed htable _ => exact absurd ht' (by simp [htable])
  | opened config _ hafter _ =>
    obtain rfl := Option.some.inj (hafter.symm.trans ht')
    intro i p hp
    exact absurd hp (by simp [Table.seatAt_new])

/-- The record of an accepted action has no zero in it. -/
theorem record_nonzero (tableId : Nat) (hids : ∀ i p, t.seatAt i = some p → p.id ≠ 0) {x : RoomJob}
    (hsound : (Job.room x).Sound) {command : ActionCommand} {result : ActionResult}
    (asks : x.command t = some command) (hacc : Table.Accepted t command result t') :
    (x.record tableId result t').sequence ≠ 0 ∧ (x.record tableId result t').requestId ≠ 0 ∧
      (x.record tableId result t').userId ≠ 0 := by
  have hsequence : result.serverSequence ≠ 0 := by
    have := hacc.grows
    rw [hacc.sequence]
    omega
  cases x with
  | act request handId asked =>
    exact ⟨hsequence, Nat.ne_of_gt hsound.1.2.1, hsound.1.1⟩
  | onActionTimeout timeout =>
    refine ⟨hsequence, ?_, ?_⟩
    · have hle : 2 ^ 63 ≤ 2 ^ 63 ||| timeout.sequence := Nat.left_le_or
      simp only [RoomJob.record]
      omega
    · obtain ⟨i, p, -, hp, hid⟩ := hacc.actor
      have hplayer : command.playerId = timeout.player := by
        simp only [RoomJob.command] at asks
        split_ifs at asks
        exact congrArg ActionCommand.playerId (Option.some.inj asks).symm
      simp only [RoomJob.record]
      rw [← hplayer, ← hid]
      exact hids i p hp
  | _ => exact absurd asks (by simp [RoomJob.command])

/-- **The action in hand stays fit to be stored.** -/
theorem Move.flight (h : Move tableId ok d job d') (ht : d.Timely)
    (hsound : ∀ j, d.job = some j → j.Sound) (hs : d.Storable tableId)
    (answered : Option Request) (action : HandActionRecord)
    (settlement : Option HandSettlementRecord) (view : TableSnapshot) (t' : Table)
    (hjob : d'.job = some (.storage (.storeAction answered action settlement view)))
    (ht' : d'.table = some t') :
    action.handId = persistentHandId tableId t'.handId ∧ action.sequence ≠ 0 ∧
    action.requestId ≠ 0 ∧ action.userId ≠ 0 ∧
    ∀ record, settlement = some record →
      record.handId = persistentHandId tableId t'.handId ∧ t'.street = .settled := by
  rcases h.flying hjob with ⟨hsame, htable | ⟨t, user, connected, e, u, htable, hcall, hu⟩⟩ |
    ⟨x, t, u, command, result, hx, htable, asks, call, hok, hu, rfl, rfl⟩
  · exact hs.flight answered action settlement view t' (hsame.trans hjob) (htable ▸ ht')
  · obtain rfl := Option.some.inj (hu.symm.trans ht')
    obtain ⟨hhand, hstreet, -, -⟩ := (ht.reached t htable).setConnected hcall
    rw [hhand, hstreet]
    exact hs.flight answered action settlement view t (hsame.trans hjob) htable
  · obtain rfl := Option.some.inj (hu.symm.trans ht')
    have hacc := (ht.reached t htable).accepted call hok
    obtain ⟨hsequence, hrequest, huser⟩ :=
      record_nonzero tableId (hs.ids t htable) (hsound _ hx) asks hacc
    refine ⟨?_, hsequence, hrequest, huser, fun record hrecord => ?_⟩
    · cases x <;> rfl
    · unfold RoomJob.settlement at hrecord
      split_ifs at hrecord with hstreet
      obtain rfl := Option.some.inj hrecord
      exact ⟨rfl, hstreet⟩

/-- A hand that is settled stays behind. -/
theorem Move.settledHands (h : Move tableId ok d job d') (hfirst : d'.rooms ≤ 1) (ht : d.Timely)
    (hs : d.Storable tableId) {n : Nat}
    (hlookup : (d.store.settlements.lookup (persistentHandId tableId n)).isSome = true) :
    ∀ t', d'.table = some t' →
      n < t'.handId ∨ n = t'.handId ∧ t'.street = .settled ∧ d'.inFlight = none := by
  have hflight : ∀ t, d.table = some t → t.street = .settled → d.inFlight = none →
      d'.inFlight = none := by
    intro t htable hstreet hnone
    cases h.logChange with
    | keep _ hkeep _ _ => rw [hkeep, hnone]
    | @accepted x u u' command result _ _ hu _ call hok _ _ =>
      obtain rfl := Option.some.inj (hu.symm.trans htable)
      have hbet := ((ht.reached u hu).accepted call hok).awaiting.toBetting.street
      rw [hstreet] at hbet
      exact absurd hbet (by decide)
    | stored _ _ _ _ hafter _ => exact hafter
    | lost _ _ hafter _ _ => exact hafter
  refine h.roomChange.keeps hfirst
    (P := fun t => n < t.handId ∨ n = t.handId ∧ t.street = .settled ∧ d'.inFlight = none)
    (fun t htable => ?_) (fun t op e t' htable hserved hop _ hP => ?_) (fun config h0 => ?_)
  · rcases hs.settled t htable n hlookup with hlt | ⟨heq, hstreet, hnone⟩
    · exact Or.inl hlt
    · exact Or.inr ⟨heq, hstreet, hflight t htable hstreet hnone⟩
  · cases (ht.reached t htable).served hserved hop with
    | refused _ hsame => exact hsame ▸ hP
    | beside hhand hstreet => rw [hhand, hstreet]; exact hP
    | acted hhand hbet =>
      rcases hP with hlt | ⟨-, hstreet, -⟩
      · exact Or.inl (hhand ▸ hlt)
      · rw [hstreet] at hbet
        exact absurd hbet (by decide)
    | started hhand => exact Or.inl (by rcases hP with hlt | ⟨heq, -⟩ <;> omega)
  · rw [hs.unopened h0 n] at hlookup
    exact absurd hlookup (by simp)

theorem lookup_insert_isSome {V : Type} {dict : Dict Nat V} {key key' : Nat} {value : V}
    (h : ((dict.insert key value).lookup key').isSome = true) :
    key' = key ∨ (dict.lookup key').isSome = true := by
  by_cases heq : key' = key
  · exact Or.inl heq
  · rw [AList.lookup_insert_ne heq] at h
    exact Or.inr h

theorem Move.storable (h : Move tableId ok d job d') (hfirst : d'.rooms ≤ 1) (ht : d.Timely)
    (hsound : ∀ j, d.job = some j → j.Sound) (hs : d.Storable tableId) :
    d'.Storable tableId where
  flight := h.flight ht hsound hs
  ids := h.ids ht hsound hs.ids
  starts := by
    rcases h.handStarts with heq | ⟨start, hid, heq⟩
    · rw [heq, hs.starts]
    · rw [heq, AList.lookup_insert_ne hid.symm, hs.starts]
  settled := by
    intro t' ht' n hlookup
    rcases h.settlements with heq | ⟨answered, action, record, view, hjob, hid, hnone, htable, heq⟩
    · rw [heq] at hlookup
      exact h.settledHands hfirst ht hs hlookup t' ht'
    · rw [heq] at hlookup
      rcases lookup_insert_isSome hlookup with hkey | hold
      · -- the hand the action in hand has settled
        obtain ⟨-, -, -, -, hrecord⟩ :=
          hs.flight answered action _ view t' hjob (htable ▸ ht')
        obtain ⟨hhand, hstreet⟩ := hrecord record rfl
        refine Or.inr ⟨?_, hstreet, hnone⟩
        rw [hhand] at hkey
        exact persistentHandId_inj hkey (by rw [hkey, ← hhand]; exact hid)
      · exact h.settledHands hfirst ht hs hold t' ht'
  unopened := by
    intro h0 n
    have hbefore : d.rooms = 0 := Nat.le_zero.mp (h0 ▸ h.roomChange.rooms_le)
    rcases h.settlements with heq | ⟨answered, action, record, view, hjob, -⟩
    · rw [heq]
      exact hs.unopened hbefore n
    · exact absurd ⟨answered, action, _, hjob⟩ ((ht.unopened hbefore).2.2.1 view)

end Desk

/-! ## Runs of the service -/

namespace Service

variable {tableId : Nat} {nodeId : String} {store : InMemoryGameStore} {s : Service} {d : Desk}
  {trace : List (Step Service (Event × Env))}

/-- The record of an accepted action that an event asks the store to keep. -/
def stores (s : Service) : Event → Option HandActionRecord
  | .storage index =>
    match s.storage[index]? with
    | some (.storeAction _ action _ _) => some action
    | _ => none
  | _ => none

theorem job_of_stores (h : s.Rests tableId d) {event : Event} {action : HandActionRecord}
    (hstores : s.stores event = some action) :
    ∃ answered settlement view,
      d.job = some (.storage (.storeAction answered action settlement view)) := by
  cases event with
  | storage index =>
    cases hget : s.storage[index]? with
    | none => exact absurd hstores (by simp [stores, hget])
    | some job =>
      cases job with
      | storeAction answered action' settlement view =>
        obtain rfl : action' = action := by simpa [stores, hget] using hstores
        exact ⟨answered, settlement, view, (h.runStorage hget rfl).1⟩
      | _ => exact absurd hstores (by simp [stores, hget])
  | _ => exact absurd hstores (by simp [stores])

theorem storable_init (hfresh : store.Fresh tableId) :
    (init tableId nodeId store).desk.Storable tableId where
  flight := fun _ _ _ _ _ h => absurd h (by simp [desk, holders, init])
  ids := fun _ h => absurd h (by simp [desk, init])
  starts := by
    have := hfresh.handStarts 0
    rwa [persistentHandId_zero] at this
  settled := fun _ h => absurd h (by simp [desk, init])
  unopened := fun _ n => hfresh.settlements n

/-- Before each step of the first room: the log, and what is fit to be stored. -/
theorem run_storable (hfresh : store.Fresh tableId)
    (hr : Run Steps (init tableId nodeId store) trace s) (hfirst : s.rooms ≤ 1) :
    ∀ step ∈ trace, step.before.Rests tableId step.before.desk ∧ ∃ log,
      step.before.desk.Logged tableId store.actions log ∧ step.before.desk.Storable tableId := by
  have hrooms := rooms_le_of_run hr
  refine (run_desk
    (J := fun past d => (∃ log, d.Logged tableId store.actions log) ∧ d.Timely ∧
      d.Storable tableId ∧ ∀ step ∈ past, step.before.Rests tableId step.before.desk ∧ ∃ log,
        step.before.desk.Logged tableId store.actions log ∧ step.before.desk.Storable tableId) hr
    ⟨⟨[], logged_init tableId nodeId store⟩, Desk.timely_init tableId nodeId store,
      storable_init hfresh, by simp⟩ fun past u event env v hfront hrests hmove hold => ?_).2.2.2.2
  obtain ⟨⟨log, hlogged⟩, htimely, hstorable, hpast⟩ := hold
  have hv : v.rooms ≤ 1 := (hrooms ⟨u, (event, env), v⟩ (hfront.subset (by simp))).trans hfirst
  refine ⟨⟨_, hmove.logged hfresh.actions hv htimely hlogged⟩, hmove.timely hv htimely,
    hmove.storable hv htimely hlogged.sound hstorable, fun step hstep => ?_⟩
  rcases List.mem_append.mp hstep with hstep | hstep
  · exact hpast step hstep
  · rw [List.mem_singleton.mp hstep]
    exact ⟨hrests, log, hlogged, hstorable⟩

/-- No action is under the sequence of the action in hand. -/
theorem lookup_of_inFlight {log : List AppliedAction} {action : HandActionRecord}
    (hfresh : store.Fresh tableId) (hlogged : d.Logged tableId store.actions log)
    (hflight : d.inFlight = some action) :
    d.store.actions.lookup (action.handId, action.sequence) = none := by
  obtain ⟨stored, missing, recs, hlog, hrecs, -, hentries, -, hopen⟩ := hlogged.kept
  obtain ⟨a, rfl, hwrites⟩ := (hopen (hlogged.flight (by rw [hflight]; rfl))).2 action hflight
  have hsorted := hlogged.sorted
  rw [hlog] at hsorted
  have hlater : ∀ b ∈ stored, b.sequence < a.sequence := fun b hb =>
    (List.pairwise_append.mp hsorted).2.2 b hb a (List.mem_singleton.mpr rfl)
  have hnew := Desk.not_stored hfresh.actions hrecs hwrites hlater
  rw [AList.lookup_eq_none]
  intro hmem
  obtain ⟨entry, hentry, hkey⟩ := List.mem_map.mp hmem
  rw [hentries] at hentry
  rcases List.mem_append.mp hentry with hrec | hold
  · rw [List.mem_reverse] at hrec
    obtain ⟨r, -, rfl⟩ := List.mem_map.mp hrec
    simp only [Desk.entryOf, Prod.mk.injEq] at hkey
    exact hnew _ hentry hkey.1 hkey.2
  · have hnone := hfresh.keys a.hand action.sequence
    rw [← hwrites.handId, AList.lookup_eq_none] at hnone
    exact hnone (List.mem_map.mpr ⟨entry, hold, hkey⟩)

/-- **Accepted actions are stored iff no request id is used twice in a hand.** In every run of the
first room of a table none of whose hands is in the store: every action of a recorded hand is
stored with answer ok iff none of them comes under a user and a request id that an action of its
hand already has. -/
theorem stored_iff_fresh (hfresh : store.Fresh tableId)
    (hr : Run Steps (init tableId nodeId store) trace s) (hfirst : s.rooms ≤ 1) :
    (∀ step ∈ trace, ∀ action, step.before.stores step.label.1 = some action →
      (step.before.store.handStarts.lookup action.handId).isSome = true →
      (step.before.store.appendAction action).1 = .ok) ↔
    (∀ step ∈ trace, ∀ action, step.before.stores step.label.1 = some action →
      (step.before.store.handStarts.lookup action.handId).isSome = true →
      ¬ step.before.store.Reuses action) := by
  have hinv := run_storable hfresh hr hfirst
  refine forall_congr' fun step => forall_congr' fun hstep => forall_congr' fun action =>
    forall_congr' fun hstores => forall_congr' fun hstart => ?_
  obtain ⟨hrests, log, hlogged, hstorable⟩ := hinv step hstep
  obtain ⟨answered, settlement, view, hjob⟩ := job_of_stores hrests hstores
  have hflight := Desk.inFlight_storeAction hjob
  obtain ⟨t, htable⟩ := Option.isSome_iff_exists.mp (hlogged.flight (by rw [hflight]; rfl))
  obtain ⟨hhand, hsequence, hrequest, huser, -⟩ :=
    hstorable.flight answered action settlement view t hjob htable
  refine InMemoryGameStore.appendAction_ok_iff ?_ hsequence hrequest huser hstart ?_
    (lookup_of_inFlight hfresh hlogged hflight)
  · intro hzero
    have hnone : step.before.store.handStarts.lookup 0 = none := hstorable.starts
    rw [hzero, hnone] at hstart
    exact absurd hstart (by simp)
  · rw [hhand, ← Option.not_isSome_iff_eq_none]
    intro hsome
    rcases hstorable.settled t htable _ hsome with hlt | ⟨-, -, hnone⟩
    · exact Nat.lt_irrefl _ hlt
    · exact absurd hflight (by simp [hnone])

theorem house_fresh : house.Fresh 7 := by
  have hactions : house.actions.entries = [] := by decide +kernel
  have hstarts : house.handStarts.entries = [] := by decide +kernel
  have hsettled : house.settlements.entries = [] := by decide +kernel
  refine ⟨fun n entry hentry => ?_, fun n sequence => ?_, fun n => ?_, fun n => ?_⟩
  · exact absurd hentry (by simp [hactions])
  · exact AList.lookup_eq_none.mpr (by simp [AList.mem_keys, AList.keys, hactions])
  · exact AList.lookup_eq_none.mpr (by simp [AList.mem_keys, AList.keys, hstarts])
  · exact AList.lookup_eq_none.mpr (by simp [AList.mem_keys, AList.keys, hsettled])

theorem stored_iff_fresh_call : ∃ trace s, Run Steps (init 7 "node" house) trace s ∧
    s.rooms ≤ 1 ∧ (trace.filterMap fun step => step.before.stores step.label.1).map (·.action) =
      [.call] ∧
    ((∀ step ∈ trace, ∀ action, step.before.stores step.label.1 = some action →
      (step.before.store.handStarts.lookup action.handId).isSome = true →
      (step.before.store.appendAction action).1 = .ok) ↔
    (∀ step ∈ trace, ∀ action, step.before.stores step.label.1 = some action →
      (step.before.store.handStarts.lookup action.handId).isSome = true →
      ¬ step.before.store.Reuses action)) := by
  have hcheck : (replay perform (init 7 "node" house) (smoothly (headsUp ++ act 1 5 3 .call 0))).any
      (fun r => decide (r.2.rooms ≤ 1 ∧
        (r.1.filterMap fun step => step.before.stores step.label.1).map (·.action) = [.call]))
      = true := by decide +kernel
  obtain ⟨⟨trace, s⟩, hreplay, hs⟩ := (Option.any_eq_true _ _).mp hcheck
  simp only [decide_eq_true_eq] at hs
  exact ⟨trace, s, run_of_perform hreplay, hs.1, hs.2,
    stored_iff_fresh house_fresh (run_of_perform hreplay) hs.1⟩

/-- User 1 calls under request id 5, and on the flop, authenticated again, checks under it. -/
def idReused : List Event :=
  headsUp ++ act 1 5 3 .call 0 ++ act 2 5 3 .check 0 ++ act 2 6 4 .check 0 ++
    [.authenticate 1 (some 1) true] ++ act 1 5 1 .check 0

/-- **A request id that is used again voids the hand**: the accepted check is refused with a
conflict and the room is closed. -/
theorem reused_id_conflicts : ∃ trace s, Run Steps (init 7 "node" house) trace s ∧ s.rooms ≤ 1 ∧
    ∃ step ∈ trace, ∃ action, step.before.stores step.label.1 = some action ∧
      (step.before.store.handStarts.lookup action.handId).isSome = true ∧
      (step.before.store.appendAction action).1 = .conflict ∧
      step.before.room.isSome = true ∧ step.after.room.isNone = true := by
  have hcheck : (replay perform (init 7 "node" house) (smoothly idReused)).any
      (fun r => decide (r.2.rooms ≤ 1) && r.1.any fun step =>
        (step.before.stores step.label.1).any fun action =>
          decide ((step.before.store.handStarts.lookup action.handId).isSome = true ∧
            (step.before.store.appendAction action).1 = .conflict ∧
            step.before.room.isSome = true ∧ step.after.room.isNone = true)) = true := by
    decide +kernel
  obtain ⟨⟨trace, s⟩, hreplay, hs⟩ := (Option.any_eq_true _ _).mp hcheck
  rw [Bool.and_eq_true, decide_eq_true_eq] at hs
  obtain ⟨step, hstep, haction⟩ := List.any_eq_true.mp hs.2
  obtain ⟨action, hstores, hbad⟩ := (Option.any_eq_true _ _).mp haction
  exact ⟨trace, s, run_of_perform hreplay, hs.1, step, hstep, action, hstores,
    of_decide_eq_true hbad⟩

end Service

end PokerServer

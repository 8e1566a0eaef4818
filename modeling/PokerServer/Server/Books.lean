import PokerServer.Domain.Holdings
import PokerServer.Server.LiveTimers
import PokerServer.Server.Settlements
import PokerServer.Server.StoredActions
import PokerServer.Storage.Seats

/-!
# The table and its books

The stacks are kept twice, by the table in the room and by the store. `Booked`: whatever is under
way, the two copies agree on every user whose seat is not in transit (`Job.moves`), and the job in
hand knows what is missing. `Move.booked`: a move keeps this, unless the ledger answers for a seat
that has changed since, or a hand is dealt and settled in one call (`Steady` rules these out).

With executors and a store that answer, a room that was closed is never opened again (`Solvent`):
the refund succeeds, and the store has no table to sit down at.
-/

namespace PokerServer

/-- Only who sits down may find no room. -/
def Job.sitsDown : Job → Bool
  | .storage (.sitDown ..) => true
  | _ => false

/-- The user's seat is in transit: taken or left in one copy and not yet in the other. -/
def Job.moves : Job → UserId → Prop
  | .room (.seatPlayer request _ _), user | .room (.removePlayer request), user
  | .storage (.rollback request), user => user = request.user
  | .storage (.storeAction _ _ (some record) _), user =>
    ∃ player ∈ record.players, player.userId = user
  | _, _ => False

/-- What the job in hand knows: the copy that is ahead for the seats in transit, and the hand it
records. -/
def Job.Accounts (tableId : Nat) (t : Table) (store : InMemoryGameStore) :
    Job → Prop
  | .room (.seatPlayer request seat stack) =>
    t.holding request.user = none ∧ store.holding tableId request.user = some (seat, stack)
  | .storage (.rollback request) => t.holding request.user = none
  | .room (.removePlayer request) => store.holding tableId request.user = none
  | .storage (.beginHand _ start) =>
    start.tableId = tableId ∧ start.handId = persistentHandId tableId t.handId
  | .storage (.storeAction _ _ (some record) _) =>
    record.tableId = tableId ∧
      ∀ player ∈ record.players, t.holding player.userId = some (player.seat, player.endStack)
  | _ => True

namespace InMemoryGameStore

variable {store store' : InMemoryGameStore} {tableId : Nat}

/-- Tables are never forgotten. -/
theorem Performed.known {call : StoreOp} {answer : StoreAnswer}
    (h : Performed store call answer store') (hknown : (store.status tableId).isSome = true) :
    (store'.status tableId).isSome = true := by
  unfold status at hknown ⊢
  rw [Option.isSome_map] at hknown ⊢
  have hinsert (id : Nat) (table : StoredTable) :
      ((store.tables.insert id table).lookup tableId).isSome = true := by
    by_cases heq : tableId = id
    · rw [heq, AList.lookup_insert]
      rfl
    · rw [AList.lookup_insert_ne heq]
      exact hknown
  cases h with
  | refused | repeated | seeded | appended | halted => exact hknown
  | created | boughtIn | cashedOut | begun | settled | refunded => exact hinsert _ _

/-- **A sound store refunds a table it knows**, and the table is aborted. -/
theorem Sound.abort (h : store.Sound) (hknown : (store.status tableId).isSome = true) :
    (store.abortTableAndRefund tableId).1 = .ok ∧
      ∃ playing, (store.abortTableAndRefund tableId).2.status tableId = some (true, playing) := by
  unfold status at hknown
  rw [Option.isSome_map] at hknown
  obtain ⟨table, htable⟩ := Option.isSome_iff_exists.mp hknown
  obtain ⟨wallets, hloop, -⟩ := h.refundLoop htable
  unfold seatRecords at hloop
  cases haborted : table.aborted with
  | true =>
    have hsame : store.abortTableAndRefund tableId = (.ok, store) := by
      unfold abortTableAndRefund
      rw [htable]
      simp only [haborted, if_true]
    rw [hsame]
    exact ⟨rfl, table.handInProgress, by rw [status_of_lookup htable, haborted]⟩
  | false =>
    have hrefund : store.abortTableAndRefund tableId = (.ok, { store.setTable tableId
        { table with seats := ∅, occupiedSeats := ∅, aborted := true, handInProgress := false } with
        wallets := wallets }) := by
      unfold abortTableAndRefund
      rw [htable]
      simp only [haborted, Bool.false_eq_true, if_false, hloop, if_true]
    rw [hrefund]
    refine ⟨rfl, false, ?_⟩
    unfold status setTable
    dsimp only
    rw [AList.lookup_insert]
    rfl

end InMemoryGameStore

namespace Desk

variable {tableId : Nat} {ok : Prop} {d d' : Desk} {job : Option Job} {t t' : Table}

/-! ## Moves as calls of the store -/

theorem reaches_of_eq {store store' : InMemoryGameStore} (h : store' = store) :
    Reaches InMemoryGameStore.Does store store' := h ▸ Reaches.refl _

theorem reaches_refunded {store store' store'' : InMemoryGameStore}
    (hr : Reaches InMemoryGameStore.Does store store')
    (h : Refunded tableId ok store' store'') : Reaches InMemoryGameStore.Does store store'' := by
  rcases h with rfl | ⟨rfl, -⟩
  · exact hr.tail (InMemoryGameStore.does_abort store' tableId)
  · exact hr

/-- What a move asks the store is a run of calls. -/
theorem Move.calls (h : Move tableId ok d job d') :
    Reaches InMemoryGameStore.Does d.store d'.store := by
  have hrefl : Reaches InMemoryGameStore.Does d.store d.store := Reaches.refl _
  cases h with
  | refund => exact hrefl.tail (InMemoryGameStore.does_abort d.store tableId)
  | buyIn hand found call value => exact hrefl.tail (InMemoryGameStore.does_reserveBuyIn call)
  | buyInLost hand found call value sick ends =>
    rcases ends with rfl | rfl <;> exact hrefl.tail (InMemoryGameStore.does_reserveBuyIn call)
  | rollback hand call done => exact hrefl.tail (InMemoryGameStore.does_cashOut call)
  | rollbackFailed hand call failed refunded => exact reaches_refunded hrefl refunded
  | cashOut hand call done goes => exact hrefl.tail (InMemoryGameStore.does_cashOut call)
  | handBegun hand call done posts => exact hrefl.tail (InMemoryGameStore.does_beginHand call)
  | stored hand append done settle =>
    rw [schedule_store]
    have happend := hrefl.tail (InMemoryGameStore.does_appendAction append)
    rcases settle with ⟨-, rfl⟩ | ⟨record, settled, -, hsettle, -⟩
    · exact happend
    · exact happend.tail (InMemoryGameStore.does_settleHand hsettle)
  | actionLost hand append failed refunded => exact reaches_refunded hrefl refunded
  | settlementLost hand append done settle failed refunded =>
    exact reaches_refunded (hrefl.tail (InMemoryGameStore.does_appendAction append)) refunded
  | _ =>
    -- the other moves leave the store alone
    exact reaches_of_eq (by grind [close, Service.opened_store, schedule_store])

/-! ## A closed room stays closed -/

/-- **The store can refund the table, and a table whose room was closed is aborted.** -/
structure Solvent (tableId : Nat) (d : Desk) : Prop where
  sound : d.store.Sound
  known : d.table.isSome = true → (d.store.status tableId).isSome = true
  manned : ∀ j, d.job = some j → j.sitsDown = false → d.table.isSome = true
  shut : d.table = none → d.rooms ≠ 0 → ∃ playing, d.store.status tableId = some (true, playing)
  first : d.rooms ≤ 1

/-- Nobody sits down at an aborted table. -/
theorem Solvent.rooms_of_found (hs : d.Solvent tableId) {record : TableRecord}
    (found : (d.store.findTable tableId).value = some record) (htable : d.table = none) :
    d.rooms = 0 := by
  by_contra hne
  obtain ⟨playing, hstatus⟩ := hs.shut htable hne
  obtain ⟨table, hlookup, haborted⟩ := Option.map_eq_some_iff.mp hstatus
  unfold InMemoryGameStore.findTable at found
  rw [hlookup] at found
  simp only [(Prod.mk.inj haborted).1, if_true] at found
  exact absurd found (by simp [InMemoryGameStore.refusal])

theorem status_of_found {store : InMemoryGameStore} {record : TableRecord}
    (found : (store.findTable tableId).value = some record) :
    (store.status tableId).isSome = true := by
  unfold InMemoryGameStore.status
  rw [Option.isSome_map, Option.isSome_iff_ne_none]
  intro hnone
  unfold InMemoryGameStore.findTable at found
  rw [hnone] at found
  exact absurd found (by simp [InMemoryGameStore.refusal])

theorem Move.soundStore (h : Move tableId ok d job d') (hs : d.store.Sound) : d'.store.Sound :=
  h.calls.invariant (I := InMemoryGameStore.Sound) hs fun _ _ _ ha hcall =>
    (InMemoryGameStore.perform_performed hcall).sound ha

theorem Move.knownTable (h : Move tableId ok d job d')
    (hknown : (d.store.status tableId).isSome = true) : (d'.store.status tableId).isSome = true :=
  h.calls.invariant (I := fun store => (store.status tableId).isSome = true) hknown
    fun _ _ _ ha hcall => (InMemoryGameStore.perform_performed hcall).known ha

theorem Move.manned (h : Move tableId ok d job d')
    (hs : ∀ j, d.job = some j → j.sitsDown = false → d.table.isSome = true) :
    ∀ j, d'.job = some j → j.sitsDown = false → d'.table.isSome = true := by
  intro j hj hsits
  cases h with
  | @take x free opens room =>
    obtain rfl := Option.some.inj hj
    cases x with
    | room x => exact room x rfl
    | storage x =>
      cases x <;> first | exact opens.elim | exact absurd hsits (by simp [Job.sitsDown])
  | _ => grind [Job.sitsDown, Next, close, opened, Service.schedule_job, schedule_table]

theorem opened_some {config : TableConfig} (h : d.table.isSome = true) : d.opened config = d := by
  unfold opened
  rw [if_pos h]

theorem opened_none {config : TableConfig} (h : d.table = none) : d.opened config =
    { d with table := some (Table.new config), rooms := d.rooms + 1, pending := [] } := by
  unfold opened
  rw [h]
  rfl

theorem opened_rooms {config : TableConfig} (ht : d.Timely) : (d.opened config).rooms ≠ 0 := by
  cases htable : d.table with
  | some t =>
    rw [opened_some (by simp [htable])]
    intro hzero
    exact absurd (ht.unopened hzero).1 (by simp [htable])
  | none =>
    rw [opened_none htable]
    exact Nat.succ_ne_zero _

/-- A room that is closed by a healthy service leaves an aborted table. -/
theorem Solvent.closed (hs : d.Solvent tableId) (hok : ok) {store after : InMemoryGameStore}
    (hsound : store.Sound) (hknown : (store.status tableId).isSome = true)
    (refunded : Refunded tableId ok store after) (hafter : after.Sound) :
    (d.close after).Solvent tableId := by
  rcases refunded with rfl | ⟨-, hsick⟩
  · exact ⟨hafter, fun h => absurd h (by simp [close]), fun _ h => absurd h (by simp [close]),
      fun _ _ => (hsound.abort hknown).2, hs.first⟩
  · exact absurd hok hsick

/-- A move of the room that is open, if there is one. -/
theorem Solvent.keep (hs : d.Solvent tableId) (hsound : d'.store.Sound)
    (hknown : (d.store.status tableId).isSome = true → (d'.store.status tableId).isSome = true)
    (hmanned : ∀ j, d'.job = some j → j.sitsDown = false → d'.table.isSome = true)
    (htable : d'.table.isSome = d.table.isSome) (hrooms : d'.rooms = d.rooms)
    (hstore : d.table = none → d.store = d'.store) : d'.Solvent tableId := by
  refine ⟨hsound, fun hsome => hknown (hs.known (htable ▸ hsome)), hmanned, fun hnone hne => ?_,
    hrooms ▸ hs.first⟩
  have hbefore : d.table = none := by
    rw [← Option.not_isSome_iff_eq_none, ← htable, hnone]
    decide
  rw [← hstore hbefore]
  exact hs.shut hbefore (hrooms ▸ hne)

theorem Move.solvent (h : Move tableId ok d job d') (hok : ok) (hs : d.Solvent tableId) :
    d'.Solvent tableId := by
  have hsound := h.soundStore hs.sound
  have hmanned := h.manned hs.manned
  have hkept := h.knownTable
  have hopen {record : TableRecord} (found : (d.store.findTable tableId).value = some record) :
      (d.opened record.config).rooms ≤ 1 ∧ (d.opened record.config).table.isSome = true := by
    cases htable : d.table with
    | some t => rw [opened_some (by simp [htable])]; exact ⟨hs.first, by simp [htable]⟩
    | none =>
      rw [opened_none htable, hs.rooms_of_found found htable]
      exact ⟨Nat.le_refl _, rfl⟩
  cases h with
  | noBuyIn hand found =>
    obtain ⟨hfirst, hsome⟩ := hopen found
    refine ⟨hsound, fun _ => hkept (status_of_found found), hmanned, fun hnone => ?_, hfirst⟩
    exact absurd hsome (by simp [show (d.opened _).table = none from hnone])
  | buyIn hand found call value =>
    obtain ⟨hfirst, hsome⟩ := hopen found
    refine ⟨hsound, fun _ => hkept (status_of_found found), hmanned, fun hnone => ?_, hfirst⟩
    exact absurd hsome (by simp [show (d.opened _).table = none from hnone])
  | rollbackFailed hand call failed refunded =>
    exact hs.closed hok hs.sound (hs.known (hs.manned _ hand rfl)) refunded hsound
  | actionLost hand append failed refunded =>
    exact hs.closed hok hs.sound (hs.known (hs.manned _ hand rfl)) refunded hsound
  | settlementLost hand append done settle failed refunded =>
    have hdoes := InMemoryGameStore.perform_performed (InMemoryGameStore.does_appendAction append)
    exact hs.closed hok (hdoes.sound hs.sound)
      (hdoes.known (hs.known (hs.manned _ hand rfl))) refunded hsound
  | seatLost hand sick => exact absurd hok sick
  | acceptLost hand table asks call accepted sick => exact absurd hok sick
  | buyInLost hand found call value sick ends => exact absurd hok sick
  | refund =>
    refine ⟨hsound, fun hsome => hkept (hs.known hsome), hmanned, fun hnone hne => ?_, hs.first⟩
    obtain ⟨playing, hstatus⟩ := hs.shut hnone hne
    exact (hs.sound.abort (by rw [hstatus]; rfl)).2
  | connect =>
    refine hs.keep hsound hkept hmanned ?_ ?_ ?_ <;>
      grind [Service.schedule_job, schedule_table, schedule_store, schedule_rooms]
  | _ =>
    refine hs.keep hsound hkept hmanned ?_ ?_ ?_ <;>
      grind [hs.manned, Job.sitsDown, Service.schedule_job, schedule_table, schedule_store,
        schedule_rooms]

/-! ## Two copies of the stacks -/

/-- **Table and store agree on every seat that is not in transit.** -/
structure Balanced (tableId : Nat) (d : Desk) : Prop where
  agree : ∀ t user, d.table = some t → (∀ j, d.job = some j → ¬ j.moves user) →
    t.holding user = d.store.holding tableId user
  accounts : ∀ t j, d.table = some t → d.job = some j → j.Accounts tableId t d.store
  starts : ∀ t n, d.table = some t →
    (d.store.handStarts.lookup (persistentHandId tableId n)).isSome = true → n ≤ t.handId
  playing : ∀ t, d.table = some t →
    (d.store.handStarts.lookup (persistentHandId tableId t.handId)).isSome = true →
    d.store.settlements.lookup (persistentHandId tableId t.handId) = none →
    ∃ aborted, d.store.status tableId = some (aborted, true)
  unopened : d.rooms = 0 → (∀ user, d.store.holding tableId user = none) ∧
    ∀ n, d.store.handStarts.lookup (persistentHandId tableId n) = none

/-- The ledger answers for no seat that has changed since, and no hand is settled as it starts. -/
structure Steady (tableId : Nat) (d : Desk) (job : Option Job) : Prop where
  buyIn : ∀ request seat amount, job = some (.storage (.sitDown request seat amount)) →
    ∀ entry, d.store.ledger.lookup
      (InMemoryGameStore.ledgerKey request.user (Service.buyKey tableId request)) = some entry →
    entry.IsBuyIn tableId seat amount →
    d.store.holding tableId request.user ≠ some (seat, amount)
  rollback : ∀ request, job = some (.storage (.rollback request)) →
    ∀ entry, d.store.ledger.lookup
      (InMemoryGameStore.ledgerKey request.user (Service.rollbackKey tableId request)) =
        some entry → ¬ entry.IsCashOut tableId
  cashOut : ∀ request, job = some (.storage (.cashOut request)) →
    ∀ entry, d.store.ledger.lookup
      (InMemoryGameStore.ledgerKey request.user (Service.cashKey tableId request)) = some entry →
    ¬ entry.IsCashOut tableId
  start : ∀ request deck t, job = some (.room (.startHand request deck)) → d.table = some t →
    t.config.minPlayers ≤ t.readyPlayers → ¬ t.RunsOut
  refund : ∀ attempt, job ≠ some (.storage (.refund attempt))

/-- A move that leaves the store and every stack alone, and no seat in transit behind. -/
theorem Balanced.keep (hb : d.Balanced tableId)
    (htable : ∀ t', d'.table = some t' → ∃ t, d.table = some t ∧ t'.handId = t.handId ∧
      ∀ user, t'.holding user = t.holding user)
    (hstore : d'.store = d.store) (hrooms : d'.rooms = d.rooms)
    (hmoves : ∀ j user, d.job = some j → j.moves user → ∃ j', d'.job = some j' ∧ j'.moves user)
    (haccounts : ∀ t' j, d'.table = some t' → d'.job = some j → j.Accounts tableId t' d.store) :
    d'.Balanced tableId := by
  refine ⟨?_, ?_, ?_, ?_, ?_⟩
  · intro t' user ht' hstill
    obtain ⟨t, ht, -, hholding⟩ := htable t' ht'
    rw [hstore, hholding]
    refine hb.agree t user ht fun j hj hmoving => ?_
    obtain ⟨j', hj', hmoving'⟩ := hmoves j user hj hmoving
    exact hstill j' hj' hmoving'
  · intro t' j ht' hj
    rw [hstore]
    exact haccounts t' j ht' hj
  · intro t' n ht' hlookup
    obtain ⟨t, ht, hhand, -⟩ := htable t' ht'
    rw [hhand]
    exact hb.starts t n ht (hstore ▸ hlookup)
  · intro t' ht'
    obtain ⟨t, ht, hhand, -⟩ := htable t' ht'
    rw [hstore, hhand]
    exact hb.playing t ht
  · rw [hstore, hrooms]
    exact hb.unopened

/-- A table that is as it was. -/
theorem same_table (h : d'.table = d.table) : ∀ t', d'.table = some t' → ∃ t, d.table = some t ∧
    t'.handId = t.handId ∧ ∀ user, t'.holding user = t.holding user :=
  fun t' ht' => ⟨t', h ▸ ht', rfl, fun _ => rfl⟩

/-- A table that was changed without a change of the stacks. -/
theorem next_table (htable : d.table = some t) (hhand : t'.handId = t.handId)
    (hholding : ∀ user, t'.holding user = t.holding user) :
    ∀ u, some t' = some u → ∃ t, d.table = some t ∧ u.handId = t.handId ∧
      ∀ user, u.holding user = t.holding user := by
  intro u hu
  obtain rfl := Option.some.inj hu
  exact ⟨t, htable, hhand, hholding⟩

/-- The job in hand stays, and with it what it knows. -/
theorem Balanced.accounts_of_same (hb : d.Balanced tableId) (hjob : d'.job = d.job)
    (htable : ∀ t', d'.table = some t' → ∃ t, d.table = some t ∧ t'.handId = t.handId ∧
      ∀ user, t'.holding user = t.holding user) :
    ∀ t' j, d'.table = some t' → d'.job = some j → j.Accounts tableId t' d.store := by
  intro t' j ht' hj
  obtain ⟨t, ht, hhand, hholding⟩ := htable t' ht'
  have hold := hb.accounts t j ht (hjob ▸ hj)
  unfold Job.Accounts at hold ⊢
  simp only [hhand, hholding]
  exact hold

/-- An unfenced move: the job in hand stays. -/
theorem Balanced.beside (hb : d.Balanced tableId) (hjob : d'.job = d.job)
    (hstore : d'.store = d.store) (hrooms : d'.rooms = d.rooms)
    (htable : ∀ t', d'.table = some t' → ∃ t, d.table = some t ∧ t'.handId = t.handId ∧
      ∀ user, t'.holding user = t.holding user) : d'.Balanced tableId :=
  hb.keep htable hstore hrooms (fun j _ hj hmoving => ⟨j, hjob.trans hj, hmoving⟩)
    (hb.accounts_of_same hjob htable)

/-- Only a job that seats a player runs without a room. -/
theorem Solvent.open_room (hs : d.Solvent tableId) (ht : d.Timely) {j : Job} (hand : d.job = some j)
    (hj : j.sitsDown = false) : d.rooms ≠ 0 ∧ ∃ t, d.table = some t := by
  have hsome := hs.manned j hand hj
  refine ⟨fun hzero => ?_, Option.isSome_iff_exists.mp hsome⟩
  rw [(ht.unopened hzero).1] at hsome
  exact absurd hsome (by decide)

/-- A room that is closed has no books. -/
theorem Balanced.close (ht : d.Timely) (hs : d.Solvent tableId) {j : Job} (hand : d.job = some j)
    (hj : j.sitsDown = false) (store : InMemoryGameStore) : (d.close store).Balanced tableId := by
  refine ⟨fun t _ h => ?_, fun t _ h => ?_, fun t _ h => ?_, fun t h => ?_, fun hzero => ?_⟩
  · exact absurd h (by simp [Desk.close])
  · exact absurd h (by simp [Desk.close])
  · exact absurd h (by simp [Desk.close])
  · exact absurd h (by simp [Desk.close])
  · exact absurd hzero (hs.open_room ht hand hj).1

/-- A step of the job in hand, when no seat is in transit before it. -/
theorem Balanced.goOn (hb : d.Balanced tableId) {j : Job} (hand : d.job = some j)
    (hstill : ∀ user, ¬ j.moves user) (hstore : d'.store = d.store) (hrooms : d'.rooms = d.rooms)
    (htable : ∀ t', d'.table = some t' → ∃ t, d.table = some t ∧ t'.handId = t.handId ∧
      ∀ user, t'.holding user = t.holding user)
    (haccounts : ∀ t' j, d'.table = some t' → d'.job = some j → j.Accounts tableId t' d.store) :
    d'.Balanced tableId := by
  refine hb.keep htable hstore hrooms (fun x user hx hmoving => ?_) haccounts
  obtain rfl := Option.some.inj (hand.symm.trans hx)
  exact absurd hmoving (hstill user)

/-- The job in hand ends, when no seat is in transit before it. -/
theorem Balanced.finish (hb : d.Balanced tableId) {j : Job} (hand : d.job = some j)
    (hstill : ∀ user, ¬ j.moves user) (hstore : d'.store = d.store) (hrooms : d'.rooms = d.rooms)
    (htable : ∀ t', d'.table = some t' → ∃ t, d.table = some t ∧ t'.handId = t.handId ∧
      ∀ user, t'.holding user = t.holding user)
    (hdone : d'.job = none) : d'.Balanced tableId :=
  hb.goOn hand hstill hstore hrooms htable fun _ _ _ hj => absurd (hdone.symm.trans hj) (by simp)

/-- The fence is taken by a job that knows nothing of the table yet. -/
theorem Balanced.take (hb : d.Balanced tableId) (free : d.job = none) {x : Job}
    (haccounts : ∀ t, x.Accounts tableId t d.store) (hjob : d'.job = some x)
    (hstore : d'.store = d.store) (hrooms : d'.rooms = d.rooms) (htable : d'.table = d.table) :
    d'.Balanced tableId := by
  refine hb.keep (same_table htable) hstore hrooms (fun j _ hj => absurd hj (by simp [free])) ?_
  intro t j _ hj
  obtain rfl := Option.some.inj (hjob.symm.trans hj)
  exact haccounts t

theorem accounts_of_opens {x : Job} (opens : x.Opens) (t : Table) (store : InMemoryGameStore) :
    x.Accounts tableId t store := by
  revert opens
  unfold Job.Opens Job.Accounts
  split <;> simp

/-! ## The moves that move chips -/

/-- A new room is opened for a table that has no seats in the store yet. -/
theorem Balanced.open (hb : d.Balanced tableId) (hs : d.Solvent tableId) {record : TableRecord}
    (found : (d.store.findTable tableId).value = some record)
    {request : Request} {seat : Nat} {buyIn : Int}
    (hand : d.job = some (.storage (.sitDown request seat buyIn))) :
    (d.opened record.config).Balanced tableId := by
  cases htable : d.table with
  | some t =>
    rw [opened_some (by simp [htable])]
    exact hb
  | none =>
    obtain ⟨hholding, hstarts⟩ := hb.unopened (hs.rooms_of_found found htable)
    rw [opened_none htable]
    refine ⟨fun t user ht _ => ?_, fun t j _ hj => ?_, fun t n _ hlookup => ?_,
      fun t _ hlookup => ?_, fun hzero => absurd hzero (Nat.succ_ne_zero _)⟩
    · rw [← Option.some.inj ht, Table.holding_new]
      exact (hholding user).symm
    · obtain rfl := Option.some.inj (hand.symm.trans hj)
      trivial
    · exact absurd hlookup (by simp [hstarts])
    · exact absurd hlookup (by simp [hstarts])

/-- The store moves money while the table stays. -/
theorem Balanced.money (hb : d.Balanced tableId) (htable : d'.table = d.table)
    (hopen : d'.rooms ≠ 0) (hstarts : d'.store.handStarts = d.store.handStarts)
    (hsettled : d'.store.settlements = d.store.settlements)
    (hstatus : d'.store.status tableId = d.store.status tableId)
    (hagree : ∀ t user, d.table = some t → (∀ j, d'.job = some j → ¬ j.moves user) →
      t.holding user = d'.store.holding tableId user)
    (haccounts : ∀ t j, d.table = some t → d'.job = some j → j.Accounts tableId t d'.store) :
    d'.Balanced tableId where
  agree := fun t user ht => hagree t user (htable ▸ ht)
  accounts := fun t j ht => haccounts t j (htable ▸ ht)
  starts := fun t n ht hlookup => hb.starts t n (htable ▸ ht) (hstarts ▸ hlookup)
  playing := fun t ht => by
    rw [hstarts, hsettled, hstatus]
    exact hb.playing t (htable ▸ ht)
  unopened := fun hzero => absurd hzero hopen

theorem Balanced.buyIn (hb : d.Balanced tableId) (hopen : d.rooms ≠ 0) {request : Request}
    {seat : Nat} {amount : Int} {reserved : StorageResult BuyInReceipt} {receipt : BuyInReceipt}
    {store : InMemoryGameStore} (hand : d.job = some (.storage (.sitDown request seat amount)))
    (call : d.store.reserveBuyIn tableId request.user seat amount (Service.buyKey tableId request) =
      (reserved, store)) (value : reserved.value = some receipt)
    (hfresh : ∀ entry, d.store.ledger.lookup
      (InMemoryGameStore.ledgerKey request.user (Service.buyKey tableId request)) = some entry →
      entry.IsBuyIn tableId seat amount →
      d.store.holding tableId request.user ≠ some (seat, amount)) :
    Balanced tableId { d with
      store := store, job := some (.room (.seatPlayer request seat receipt.tableStack)) } := by
  obtain ⟨hstack, hbefore, hafter, hothers, hstatus⟩ :=
    InMemoryGameStore.reserveBuyIn_holding call value hfresh
  have hagree (t : Table) (user : UserId) (ht : d.table = some t) :
      t.holding user = d.store.holding tableId user := by
    refine hb.agree t user ht fun j hj => ?_
    obtain rfl := Option.some.inj (hand.symm.trans hj)
    exact id
  have hhands := InMemoryGameStore.reserveBuyIn_sameHands call
  refine hb.money rfl hopen hhands.handStarts hhands.settlements hstatus
    (fun t user ht hstill => ?_) fun t j ht hj => ?_
  · rw [hothers user fun heq => hstill _ rfl heq]
    exact hagree t user ht
  · obtain rfl := Option.some.inj hj
    refine ⟨(hagree t request.user ht).trans hbefore, ?_⟩
    rw [hstack]
    exact hafter

theorem Balanced.seat (hb : d.Balanced tableId) (ht : t.Reached) {request : Request} {seat : Nat}
    {stack : Int} {next : Job} (hand : d.job = some (.room (.seatPlayer request seat stack)))
    (table : d.table = some t) (call : t.seatPlayer request.user seat stack = (.ok, t'))
    (hnext : ∀ t store, next.Accounts tableId t store) :
    Balanced tableId { d with table := some t', job := some next } := by
  obtain ⟨hself, hothers⟩ := ht.holding_seatPlayer call
  obtain ⟨-, hstored⟩ := hb.accounts t _ table hand
  have hhand : t'.handId = t.handId := by
    rcases Table.seatPlayer_cases call with ⟨hne, -⟩ | ⟨-, -, -, -, -, rfl⟩
    · exact absurd rfl hne
    · rfl
  refine ⟨fun u user hu _ => ?_, fun u j _ hj => ?_, fun u n hu hlookup => ?_, fun u hu => ?_,
    hb.unopened⟩
  · obtain rfl := Option.some.inj hu
    by_cases heq : user = request.user
    · rw [heq, hself]
      exact hstored.symm
    · rw [hothers user heq]
      refine hb.agree t user table fun j hj => ?_
      obtain rfl := Option.some.inj (hand.symm.trans hj)
      exact heq
  · rw [← Option.some.inj hj]
    exact hnext u _
  · rw [← Option.some.inj hu, hhand]
    exact hb.starts t n table hlookup
  · rw [← Option.some.inj hu, hhand]
    exact hb.playing t table

/-- A cash-out that is not a repetition takes the seat out of the store. -/
theorem Balanced.unseat (hb : d.Balanced tableId) (hopen : d.rooms ≠ 0) {j : Job}
    {next : Option Job} {user : UserId} {key : String} {receipt : StorageResult CashOutReceipt}
    {store : InMemoryGameStore} (hand : d.job = some j)
    (hmoves : ∀ other, other ≠ user → ¬ j.moves other)
    (call : d.store.cashOut tableId user key = (receipt, store)) (done : receipt.error = .ok)
    (hfresh : ∀ entry, d.store.ledger.lookup (InMemoryGameStore.ledgerKey user key) = some entry →
      ¬ entry.IsCashOut tableId)
    (hnext : ∀ t, d.table = some t → (∀ x, next = some x → ¬ x.moves user) → t.holding user = none)
    (haccounts : ∀ t x, d.table = some t → next = some x → store.holding tableId user = none →
      x.Accounts tableId t store) :
    Balanced tableId { d with store := store, job := next } := by
  obtain ⟨hnone, hothers, hstatus⟩ := InMemoryGameStore.cashOut_holding call done hfresh
  have hhands := InMemoryGameStore.cashOut_sameHands call
  refine hb.money rfl hopen hhands.handStarts hhands.settlements hstatus
    (fun t other ht hstill => ?_) fun t x ht hx => haccounts t x ht hx hnone
  by_cases heq : other = user
  · rw [heq, hnext t ht (heq ▸ hstill)]
    exact hnone.symm
  · rw [hothers other heq]
    refine hb.agree t other ht fun x hx => ?_
    obtain rfl := Option.some.inj (hand.symm.trans hx)
    exact hmoves other heq

/-- Who was cashed out is removed. -/
theorem Balanced.remove (hb : d.Balanced tableId) (ht : t.Reached) {request : Request}
    {e : TableError} (hand : d.job = some (.room (.removePlayer request)))
    (table : d.table = some t) (hidle : handIsRunning t.street = false)
    (call : t.removePlayer request.user = (e, t')) :
    Balanced tableId { d with table := some t', job := none } := by
  obtain ⟨hself, hothers⟩ := ht.holding_removePlayer hidle call
  have hhand : t'.handId = t.handId := by
    rcases Table.removePlayer_cases call with ⟨-, rfl⟩ | ⟨_, _, -, -, -, -, rfl⟩ <;> rfl
  refine ⟨fun u user hu _ => ?_, fun u j _ hj => absurd hj (by simp), fun u n hu hlookup => ?_,
    fun u hu => ?_, hb.unopened⟩
  · obtain rfl := Option.some.inj hu
    by_cases heq : user = request.user
    · rw [heq, hself]
      exact (hb.accounts t _ table hand).symm
    · rw [hothers user heq]
      refine hb.agree t user table fun j hj => ?_
      obtain rfl := Option.some.inj (hand.symm.trans hj)
      exact heq
  · rw [← Option.some.inj hu, hhand]
    exact hb.starts t n table hlookup
  · rw [← Option.some.inj hu, hhand]
    exact hb.playing t table

/-! ## The moves of a hand -/

theorem Balanced.start (hb : d.Balanced tableId) (ht : t.Reached) {request : Request}
    {deck : FullDeck} (hand : d.job = some (.room (.startHand request deck)))
    (table : d.table = some t) (call : t.startHand deck.toDeck = .ok (.ok, t'))
    (hruns : ¬ t.RunsOut) :
    Balanced tableId { d with table := some t', job := some (.room (.startAudit request)) } := by
  have hop : t.exec (.startHand deck) = .ok (.ok, t') := call
  have hhand := (Table.startHand_spec (ht.inv hop).seating call).2.2.handId
  refine ⟨fun u user hu _ => ?_, fun u j _ hj => ?_, fun u n hu hlookup => ?_,
    fun u hu hlookup => ?_, hb.unopened⟩
  · rw [← Option.some.inj hu, ht.holding_startHand call hruns]
    refine hb.agree t user table fun j hj => ?_
    obtain rfl := Option.some.inj (hand.symm.trans hj)
    exact id
  · obtain rfl := Option.some.inj hj
    trivial
  · rw [← Option.some.inj hu, hhand]
    exact (hb.starts t n table hlookup).trans (Nat.le_succ _)
  · -- the new hand is not recorded yet
    rw [← Option.some.inj hu, hhand] at hlookup
    exact absurd (hb.starts t _ table hlookup) (Nat.not_succ_le_self _)

/-- The lines of a settlement are those of the players who hold cards. -/
theorem mem_settlement (hs : t'.Seating) {result : ActionResult} {player : HandPlayerSettlement}
    (hplayer : player ∈ (t'.auditSnapshot.handSettlement tableId result.awards).players) :
    ∃ i q, t'.seatAt i = some q ∧ q.hasHole = true ∧ player.userId = q.id ∧ player.seat = q.seat ∧
      player.endStack = q.stack := by
  rw [Table.handSettlement_players hs] at hplayer
  obtain ⟨q, hq, rfl⟩ := List.mem_map.mp hplayer
  obtain ⟨hmem, hhole⟩ := List.mem_filter.mp hq
  obtain ⟨i, hi⟩ := Table.mem_players.mp hmem
  exact ⟨i, q, hi, hhole, rfl, rfl, rfl⟩

theorem settlement_mem (hs : t'.Seating) (tableId : Nat) {result : ActionResult} {i : Nat}
    {q : Player} (hq : t'.seatAt i = some q) (hhole : q.hasHole = true) :
    ∃ player ∈ (t'.auditSnapshot.handSettlement tableId result.awards).players,
      player.userId = q.id := by
  rw [Table.handSettlement_players hs]
  refine ⟨Table.settlementLine result.awards q, List.mem_map_of_mem ?_, rfl⟩
  exact List.mem_filter.mpr ⟨Table.mem_players.mpr ⟨i, hq⟩, hhole⟩

/-- An accepted action: a settlement is on its way for the players it concerns. -/
theorem Balanced.accept (hb : d.Balanced tableId) (ht : t.Reached) {x : RoomJob}
    {command : ActionCommand} {result : ActionResult} {request : Option Request}
    {action : HandActionRecord} {view : TableSnapshot} (hand : d.job = some (.room x))
    (hstill : ∀ user, ¬ (Job.room x).moves user) (table : d.table = some t)
    (call : t.act command = .ok (result, t')) (hok : result.error = .ok) :
    Balanced tableId { d with
      table := some t'
      job := some (.storage (.storeAction request action
        (RoomJob.settlement tableId result t') view)) } := by
  have hacc := ht.accepted call hok
  have hs' : t'.Seating := hacc.awaiting.toBetting.seating.of_same hacc.seating
  have hagree (user : UserId) : t.holding user = d.store.holding tableId user := by
    refine hb.agree t user table fun j hj => ?_
    obtain rfl := Option.some.inj (hand.symm.trans hj)
    exact hstill user
  refine ⟨fun u user hu hquiet => ?_, fun u j hu hj => ?_, fun u n hu hlookup => ?_, fun u hu => ?_,
    hb.unopened⟩
  · obtain rfl := Option.some.inj hu
    rw [← hagree user]
    by_cases hsettled : t'.street = .settled
    · refine ht.holding_act_settled call hok hsettled fun i q hq hid => ?_
      -- a player with cards would have a line
      by_contra hhole
      rw [Bool.not_eq_false] at hhole
      have hmoves := hquiet _ rfl
      unfold RoomJob.settlement at hmoves
      rw [if_pos hsettled] at hmoves
      obtain ⟨player, hplayer, hplayerId⟩ := settlement_mem hs' tableId hq hhole
      exact hmoves ⟨player, hplayer, hplayerId.trans hid⟩
    · exact ht.holding_act call hok hsettled user
  · obtain rfl := Option.some.inj hu
    obtain rfl := Option.some.inj hj
    unfold RoomJob.settlement
    split_ifs with hsettled
    · refine ⟨rfl, fun player hplayer => ?_⟩
      obtain ⟨i, q, hq, -, hid, hseat, hstack⟩ := mem_settlement hs' hplayer
      rw [hid, hseat, hstack]
      refine hs'.holding_iff.mpr ⟨q, by rw [hs'.index hq]; exact hq, rfl, ?_⟩
      exact Table.banked_idle (by rw [hsettled]; rfl) q
    · trivial
  · rw [← Option.some.inj hu, hacc.handId]
    exact hb.starts t n table hlookup
  · rw [← Option.some.inj hu, hacc.handId]
    exact hb.playing t table

/-- A hand is recorded: it is the table's, and in progress. -/
theorem Balanced.begun (hb : d.Balanced tableId) (hopen : d.rooms ≠ 0) (table : d.table = some t)
    {request : Request} {start : HandStartRecord} {stored : StorageError}
    {store : InMemoryGameStore} {extra : List RoomJob}
    (hand : d.job = some (.storage (.beginHand request start)))
    (call : d.store.beginHand start = (stored, store)) :
    Balanced tableId { d with store := store, job := none, pending := d.pending ++ extra } := by
  obtain ⟨htable, hid⟩ := hb.accounts t _ table hand
  have hholding (user : UserId) : store.holding tableId user = d.store.holding tableId user := by
    rw [← htable]
    exact InMemoryGameStore.beginHand_holding call user
  have hagree (u : Table) (user : UserId) (hu : d.table = some u) :
      u.holding user = store.holding tableId user := by
    rw [hholding]
    refine hb.agree u user hu fun j hj => ?_
    obtain rfl := Option.some.inj (hand.symm.trans hj)
    exact id
  rcases InMemoryGameStore.beginHand_cases call with ⟨-, rfl⟩ |
    ⟨stored, -, hne, -, -, hlookup, -, -, -, hstore⟩
  · exact ⟨fun u user hu _ => hagree u user hu, fun _ _ _ hj => absurd hj (by simp), hb.starts,
      hb.playing, hb.unopened⟩
  · have hstatus : store.status tableId = some (stored.aborted, true) := by
      have hafter : store.tables.lookup start.tableId =
          some { stored with handInProgress := true } := by
        rw [hstore]
        exact AList.lookup_insert _
      rw [← htable]
      exact InMemoryGameStore.status_of_lookup hafter
    refine ⟨fun u user hu _ => hagree u user hu, fun _ _ _ hj => absurd hj (by simp),
      fun u n hu hlookup => ?_, fun u hu _ _ => ⟨_, hstatus⟩, fun hzero => absurd hzero hopen⟩
    obtain rfl := Option.some.inj (table.symm.trans hu)
    change (store.handStarts.lookup _).isSome = true at hlookup
    rw [hstore] at hlookup
    rcases lookup_insert_isSome hlookup with hkey | hold
    · rw [hid] at hkey hne
      exact (persistentHandId_inj hkey (hkey ▸ hne)).le
    · exact hb.starts t n hu hold

/-- An action is stored, and with the last of a hand its settlement: no seat is in transit. -/
theorem Balanced.stored (hb : d.Balanced tableId) (hopen : d.rooms ≠ 0) (table : d.table = some t)
    (hstorable : d.Storable tableId) {request : Option Request} {action : HandActionRecord}
    {settlement : Option HandSettlementRecord} {view : TableSnapshot} {appended : StorageError}
    {store store' : InMemoryGameStore}
    (hand : d.job = some (.storage (.storeAction request action settlement view)))
    (append : d.store.appendAction action = (appended, store))
    (settle : settlement = none ∧ store' = store ∨
      ∃ record settled, settlement = some record ∧ store.settleHand record = (settled, store') ∧
        (settled = .ok ∨ settled = .duplicate)) :
    Balanced tableId { d with store := store', job := none } := by
  have hframe := InMemoryGameStore.appendAction_frame append
  have htables : store.tables = d.store.tables := by rw [hframe]
  have hstarts : store.handStarts = d.store.handStarts := by rw [hframe]
  have hsettled : store.settlements = d.store.settlements := by rw [hframe]
  have hholding (user : UserId) : store.holding tableId user = d.store.holding tableId user :=
    InMemoryGameStore.holding_congr htables user
  rcases settle with ⟨rfl, rfl⟩ | ⟨record, settled, rfl, hsettle, hdone⟩
  · refine hb.money rfl hopen hstarts hsettled (InMemoryGameStore.status_congr htables)
      (fun u user hu _ => ?_) fun _ _ _ hj => absurd hj (by simp)
    change u.holding user = store'.holding tableId user
    rw [hholding]
    refine hb.agree u user hu fun j hj => ?_
    obtain rfl := Option.some.inj (hand.symm.trans hj)
    exact id
  · obtain ⟨-, -, -, -, hrecord⟩ := hstorable.flight request action _ view t hand table
    obtain ⟨hid, -⟩ := hrecord record rfl
    obtain ⟨htable, hlines⟩ := hb.accounts t _ table hand
    have hunsettled : d.store.settlements.lookup (persistentHandId tableId t.handId) = none := by
      rw [← Option.not_isSome_iff_eq_none]
      intro hsome
      rcases hstorable.settled t table t.handId hsome with hlt | ⟨-, -, hflight⟩
      · exact absurd hlt (Nat.lt_irrefl _)
      · exact absurd hflight (by simp [inFlight_storeAction hand])
    have hok : settled = .ok := by
      refine hdone.resolve_right fun hduplicate => ?_
      subst hduplicate
      rcases InMemoryGameStore.settleHand_duplicate hsettle with hknown | ⟨hstart, hstatus⟩
      · rw [hsettled, hid, hunsettled] at hknown
        exact absurd hknown (by simp)
      · rw [hstarts, hid] at hstart
        obtain ⟨aborted, hplaying⟩ := hb.playing t table hstart hunsettled
        rw [htable, InMemoryGameStore.status_congr htables, hplaying] at hstatus
        exact absurd hstatus (by simp)
    subst hok
    have hagree : ∀ user, t.holding user = store'.holding tableId user := by
      rw [← htable]
      refine InMemoryGameStore.settleHand_holding hsettle hlines fun user hnone => ?_
      rw [htable, hholding]
      refine hb.agree t user table fun j hj => ?_
      obtain rfl := Option.some.inj (hand.symm.trans hj)
      rintro ⟨player, hplayer, hsame⟩
      exact hnone player hplayer hsame
    have hstarts' := (InMemoryGameStore.settleHand_sameStarts hsettle).trans hstarts
    refine ⟨fun u user hu _ => ?_, fun _ _ _ hj => absurd hj (by simp), fun u n hu hlookup => ?_,
      fun u hu _ hnone => ?_, fun hzero => absurd hzero hopen⟩
    · obtain rfl := Option.some.inj (table.symm.trans hu)
      exact hagree user
    · exact hb.starts u n hu (hstarts' ▸ hlookup)
    · -- the hand is settled now
      obtain rfl := Option.some.inj (table.symm.trans hu)
      rcases InMemoryGameStore.settleHand_cases hsettle with ⟨hne, -⟩ |
        ⟨_, -, -, -, -, -, -, -, -, -, hstore⟩
      · exact absurd rfl hne
      · have hknown : store'.settlements.lookup record.handId = some record := by
          rw [hstore]
          exact AList.lookup_insert _
        change store'.settlements.lookup _ = none at hnone
        rw [← hid, hknown] at hnone
        exact absurd hnone (by simp)

/-! ## Every move -/

theorem setReady_handId {id : PlayerId} {ready : Bool} {e : TableError} (ht : t.Reached)
    (h : t.setReady id ready = (e, t')) : t'.handId = t.handId := by
  have hop : t.exec (.setReady id ready) = .ok (e, t') := congrArg Except.ok h
  by_cases he : e = .ok
  · subst he
    rcases Table.setReady_cases (ht.inv hop).seating h with ⟨hne, -⟩ | ⟨-, -, rfl⟩
    · exact absurd rfl hne
    · rfl
  · rw [refused_same ht hop he]

theorem startHand_enough {deck : Deck} (h : t.startHand deck = .ok (.ok, t')) :
    t.config.minPlayers ≤ t.readyPlayers := by
  by_contra hfew
  unfold Table.startHand at h
  split_ifs at h
  all_goals first | omega | exact absurd h (by simp)

/-- Whatever asks for an action moves no seat. -/
theorem not_moves_of_acts {x : RoomJob} (h : x.acts = true) (user : UserId) :
    ¬ (Job.room x).moves user := by
  cases x <;> first | exact id | exact absurd h (by simp [RoomJob.acts])

theorem Balanced.schedule (hb : d.Balanced tableId) (view : TableSnapshot) :
    (d.schedule view).Balanced tableId :=
  hb.beside (Service.schedule_job _ _) (schedule_store _ _) (schedule_rooms _ _)
    (same_table (schedule_table _ _))

/-- The ready flags carry no chips. -/
theorem next_table_setReady {id : PlayerId} {ready : Bool} {e : TableError} (ht : d.Timely)
    (table : d.table = some t) (call : t.setReady id ready = (e, t')) :
    ∀ u, some t' = some u → ∃ t, d.table = some t ∧ u.handId = t.handId ∧
      ∀ user, u.holding user = t.holding user :=
  next_table table (setReady_handId (ht.reached t table) call)
    ((ht.reached t table).holding_setReady call)

/-- Nor does the connection of a player. -/
theorem Balanced.connect (hb : d.Balanced tableId) (ht : d.Timely) {rest : List RoomJob}
    {user : UserId} {connected : Bool} {reason : Reason} {e : TableError}
    (table : d.table = some t) (call : t.setConnected user connected = (e, t')) :
    Balanced tableId (if e = .ok ∧ reason ≠ .sessionEnd then
      { d with pending := rest, table := some t' }.schedule (t'.snapshot (some user))
    else { d with pending := rest, table := some t' }) := by
  have hreached := ht.reached t table
  have hchanged : Balanced tableId { d with pending := rest, table := some t' } :=
    hb.beside rfl rfl rfl (next_table table (hreached.setConnected call).1
      (hreached.holding_setConnected call))
  split_ifs
  · exact hchanged.schedule _
  · exact hchanged

/-- The buy-in of a player whom the table refuses a seat is still in transit. -/
theorem Balanced.seatRefused (hb : d.Balanced tableId) (ht : t.Reached) {request : Request}
    {seat : Nat} {stack : Int} {e : TableError}
    (hand : d.job = some (.room (.seatPlayer request seat stack))) (table : d.table = some t)
    (call : t.seatPlayer request.user seat stack = (e, t')) (refused : e ≠ .ok) :
    Balanced tableId { d with table := some t', job := some (.storage (.rollback request)) } := by
  have hop : t.exec (.seatPlayer request.user seat stack) = .ok (e, t') := congrArg Except.ok call
  obtain rfl := refused_same ht hop refused
  refine hb.keep (next_table table rfl fun _ => rfl) rfl rfl (fun j user hj hmoving => ?_)
    fun v j hv hj => ?_
  · obtain rfl := Option.some.inj (hand.symm.trans hj)
    exact ⟨_, rfl, hmoving⟩
  · obtain rfl := Option.some.inj hv
    obtain rfl := Option.some.inj hj
    exact (hb.accounts t' _ table hand).1

/-- A seat that was paid out, while the room still has its table. -/
theorem Balanced.cashOut (hb : d.Balanced tableId) (hopen : d.rooms ≠ 0) {request : Request}
    {receipt : StorageResult CashOutReceipt} {store : InMemoryGameStore}
    (hand : d.job = some (.storage (.cashOut request)))
    (call : d.store.cashOut tableId request.user (Service.cashKey tableId request) =
      (receipt, store)) (done : receipt.error = .ok)
    (fresh : ∀ entry, d.store.ledger.lookup
      (InMemoryGameStore.ledgerKey request.user (Service.cashKey tableId request)) = some entry →
      ¬ entry.IsCashOut tableId) :
    Balanced tableId
      { d with store := store, job := some (.room (.removePlayer request)) } := by
  refine hb.unseat hopen hand (fun other _ => id) call done fresh
    (fun _ _ hstill => absurd rfl (hstill _ rfl)) fun _ x _ hx hnone => ?_
  obtain rfl := Option.some.inj hx
  exact hnone

/-- **A steady move of a healthy service keeps table and store balanced.** -/
theorem Move.balanced (h : Move tableId ok d job d') (hok : ok) (ht : d.Timely)
    (hs : d.Solvent tableId) (hstorable : d.Storable tableId) (hleaving : d.Leaving)
    (hsteady : d.Steady tableId job) (hb : d.Balanced tableId) : d'.Balanced tableId := by
  cases h with
  | stay | post | fire | expire | pass | miss =>
    exact hb.beside rfl rfl rfl (same_table rfl)
  | take free opens room => exact hb.take free (accounts_of_opens opens · _) rfl rfl rfl rfl
  | refund => exact absurd rfl (hsteady.refund _)
  | @rearm rest request t pending table =>
    have hpassed : Balanced tableId { d with pending := rest } :=
      hb.beside rfl rfl rfl (same_table rfl)
    exact hpassed.schedule _
  | connect pending table call => exact hb.connect ht table call
  | claim pending table sequence acting free =>
    exact hb.take free (x := .room (.onActionTimeout _)) (fun _ => trivial) rfl rfl rfl rfl
  | @seat request seat stack t u next hand table call goes =>
    rcases goes with rfl | ⟨-, hsick⟩
    · exact hb.seat (ht.reached t table) hand table call fun _ _ => trivial
    · exact absurd hok hsick
  | @seatRefused request seat stack t u e hand table call refused =>
    exact hb.seatRefused (ht.reached t table) hand table call refused
  | seated hand => exact hb.finish hand (fun _ => id) rfl rfl (same_table rfl) rfl
  | ready hand table call deck goes =>
    rcases goes with rfl | ⟨-, hsick⟩
    · refine hb.goOn hand (fun _ => id) rfl rfl (next_table_setReady ht table call)
        fun _ j _ hj => ?_
      obtain rfl := Option.some.inj hj
      trivial
    · exact absurd hok hsick
  | notReady hand table call ends posts =>
    exact hb.finish hand (fun _ => id) rfl rfl (next_table_setReady ht table call) rfl
  | @start request deck t u next hand table call goes =>
    rcases goes with rfl | ⟨-, hsick⟩
    · exact hb.start (ht.reached t table) hand table call
        (hsteady.start request deck t hand table (startHand_enough call))
    · exact absurd hok hsick
  | @startRefused request deck t u e extra hand table call refused posts =>
    have hop : t.exec (.startHand deck) = .ok (e, u) := call
    obtain rfl := refused_same (ht.reached t table) hop refused
    exact hb.finish hand (fun _ => id) rfl rfl (next_table table rfl fun _ => rfl) rfl
  | @audit request t hand table =>
    refine hb.goOn hand (fun _ => id) rfl rfl (same_table rfl) fun u j hu hj => ?_
    obtain rfl := Option.some.inj hj
    obtain rfl := Option.some.inj (table.symm.trans hu)
    exact ⟨rfl, rfl⟩
  | @accept x t u command result hand table asks call accepted =>
    have hacts : x.acts = true := by
      cases x <;> first | rfl | exact absurd asks (by simp [RoomJob.command])
    exact hb.accept (ht.reached t table) hand (not_moves_of_acts hacts) table call accepted
  | @actRefused x t u hand acts table refused =>
    obtain rfl : u = t := by
      rcases refused with ⟨-, hsame⟩ | ⟨command, result, -, call, hne⟩
      · exact hsame
      · exact refused_same (ht.reached t table) (Table.exec_act call) hne
    exact hb.finish hand (not_moves_of_acts acts) rfl rfl (next_table table rfl fun _ => rfl) rfl
  | unready hand table call goes =>
    rcases goes with rfl | ⟨-, hsick⟩
    · refine hb.goOn hand (fun _ => id) rfl rfl (next_table_setReady ht table call)
        fun _ j _ hj => ?_
      obtain rfl := Option.some.inj hj
      trivial
    · exact absurd hok hsick
  | unreadyRefused hand table call refused =>
    exact hb.finish hand (fun _ => id) rfl rfl (next_table_setReady ht table call) rfl
  | @remove request t u e hand table call =>
    exact hb.remove (ht.reached t table) hand table (hleaving t _ table hand rfl) call
  | noSeat hand => exact hb.finish hand (fun _ => id) rfl rfl (same_table rfl) rfl
  | @noBuyIn request seat buyIn record hand found =>
    have hjob := (Service.opened_job d record.config).trans hand
    exact (hb.open hs found hand).finish hjob (fun _ => id) rfl rfl (same_table rfl) rfl
  | @buyIn request seat buyIn record receipt reserved store hand found call value =>
    have hjob := (Service.opened_job d record.config).trans hand
    rw [← Service.opened_store d record.config] at call
    refine (hb.open hs found hand).buyIn (opened_rooms ht) hjob call value ?_
    rw [Service.opened_store]
    exact hsteady.buyIn request seat buyIn hand
  | @rollback request receipt store hand call done =>
    refine hb.unseat (hs.open_room ht hand rfl).1 hand (fun other hne => hne) call done
      (hsteady.rollback request hand) (fun t table _ => hb.accounts t _ table hand)
      fun _ _ _ hx => absurd hx (by simp)
  | rollbackFailed hand call failed refunded => exact Balanced.close ht hs hand rfl _
  | @handBegun request start stored store extra hand call done posts =>
    obtain ⟨hrooms, t, table⟩ := hs.open_room ht hand rfl
    exact hb.begun hrooms table hand call
  | handNotBegun hand call failed posts =>
    exact hb.finish hand (fun _ => id) rfl rfl (same_table rfl) rfl
  | stored hand append done settle =>
    obtain ⟨hrooms, t, table⟩ := hs.open_room ht hand rfl
    exact (hb.stored hrooms table hstorable hand append settle).schedule _
  | actionLost hand append failed refunded => exact Balanced.close ht hs hand rfl _
  | settlementLost hand append done settle failed refunded =>
    exact Balanced.close ht hs hand rfl _
  | @cashOut request receipt store next hand call done goes =>
    obtain ⟨hrooms, t, table⟩ := hs.open_room ht hand rfl
    rcases goes with rfl | ⟨-, hnone | hsick⟩
    · exact hb.cashOut hrooms hand call done (hsteady.cashOut request hand)
    · exact absurd table (by simp [hnone])
    · exact absurd hok hsick
  | noCashOut hand call failed => exact hb.finish hand (fun _ => id) rfl rfl (same_table rfl) rfl
  | seatLost | auditLost | acceptLost | buyInLost => exact absurd hok ‹¬ ok›

end Desk

end PokerServer

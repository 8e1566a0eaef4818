import Mathlib.Data.List.Forall2
import PokerServer.Server.Timeouts

/-!
# The stored actions are the applied actions

Every action the table accepts is written to the store before the fence is given back. In the first
room of a table, whatever comes between (other requests, timeouts, connections, a full executor, a
store that does not answer), the stored actions of a hand are those the table accepted, in order,
and at most the latest is missing.

`actionLog_faithful`: the above over every run, with what a failure to store means for later
actions.
-/

namespace PokerServer

/-- An action the table accepted. -/
structure AppliedAction where
  hand : Nat
  sequence : Nat
  user : UserId
  street : Street
  action : ActionType
  targetAmount : Int
  deriving DecidableEq, Repr

/-- The action a job gets accepted by table `t`, if it does. -/
def RoomJob.applies (t : Table) (x : RoomJob) : Option AppliedAction :=
  match x.command t with
  | none => none
  | some command =>
    match t.act command with
    | .error _ => none
    | .ok (result, _) =>
      if result.error = .ok then
        some
          { hand := t.handId
            sequence := result.serverSequence
            user := command.playerId
            street := t.street
            action := command.type
            targetAmount := command.amount }
      else none

/-- The action the table accepts in an event, if it does. -/
def Service.accepts (s : Service) : Service.Event → Option AppliedAction
  | .room =>
    match s.queue with
    | [] => none
    | task :: _ =>
      if (s.capturedRoom task).closed then none else task.job.applies (s.capturedRoom task).table
  | _ => none

/-- The actions the table accepted along a trace. -/
def appliedActions (trace : List (Step Service (Service.Event × Env))) : List AppliedAction :=
  trace.filterMap fun step => step.before.accepts step.label.1

/-- The actions stored for a hand, ordered by sequence. -/
def InMemoryGameStore.actionsOf (store : InMemoryGameStore) (handId : Nat) :
    List HandActionRecord :=
  ((store.actions.entries.map (·.2)).filter (·.handId == handId)).mergeSort
    fun a b => a.sequence ≤ b.sequence

/-- A stored action of hand number `hand`, as an applied one. -/
def HandActionRecord.applied (hand : Nat) (record : HandActionRecord) : AppliedAction :=
  { hand := hand
    sequence := record.sequence
    user := record.userId
    street := record.street
    action := record.action
    targetAmount := record.targetAmount }

/-! ## Hand ids -/

theorem persistentHandId_of_ne {tableId n : Nat} (h : persistentHandId tableId n ≠ 0) :
    n < 2 ^ 32 ∧ persistentHandId tableId n = 2 ^ 32 * tableId + n := by
  unfold persistentHandId at h ⊢
  dsimp only at h ⊢
  split_ifs at h ⊢ with hout
  · exact absurd rfl h
  · have hlt : n < 2 ^ 32 := by omega
    refine ⟨hlt, ?_⟩
    rw [Nat.shiftLeft_eq, Nat.mul_comm, ← Nat.two_pow_add_eq_or_of_lt hlt]

/-- The hand ids of a table name the hand. -/
theorem persistentHandId_inj {tableId m n : Nat}
    (h : persistentHandId tableId m = persistentHandId tableId n)
    (h0 : persistentHandId tableId m ≠ 0) : m = n := by
  have hm := persistentHandId_of_ne h0
  have hn := persistentHandId_of_ne (h ▸ h0)
  omega

/-- A job that stores an action. -/
def Job.stores : Job → Bool
  | .storage (.storeAction ..) => true
  | _ => false

/-- A job that neither asks for an action nor stores one. -/
def Job.aside : Job → Bool
  | .room x => !x.acts
  | .storage (.storeAction ..) => false
  | .storage _ => true

theorem Job.stores_of_opens {j : Job} (h : j.Opens) : j.stores = false := by
  cases j with
  | room x => rfl
  | storage x => cases x <;> first | rfl | exact h.elim

/-- A job whose request was let through, and which asks for nobody else. -/
def Job.Sound : Job → Prop
  | .room (.act request _ command) => request.Valid ∧ command.playerId = request.user
  | .room (.seatPlayer request ..) | .room (.seatedSnapshot request) | .room (.setReady request _)
  | .room (.startHand request _) | .room (.startAudit request) | .room (.setUnready request)
  | .room (.removePlayer request) | .storage (.sitDown request ..) | .storage (.rollback request)
  | .storage (.beginHand request _) | .storage (.cashOut request) => request.Valid
  | _ => True

theorem Job.Opens.sound {j : Job} (h : j.Opens) : j.Sound := by
  cases j with
  | room x => cases x <;> first | exact h | exact h.elim
  | storage x => cases x <;> first | exact h | exact h.elim

namespace Desk

variable {tableId : Nat} {ok : Prop} {d d' : Desk} {job : Option Job} {t t' : Table} {x : RoomJob}

/-- The action in hand that waits for the store. -/
def inFlight (d : Desk) : Option HandActionRecord :=
  match d.job with
  | some (.storage (.storeAction _ action _ _)) => some action
  | _ => none

/-- The action a move gets accepted. -/
def accepts (d : Desk) (job : Option Job) : Option AppliedAction :=
  match job, d.table with
  | some (.room x), some t => x.applies t
  | _, _ => none

theorem applies_of_not_acts (h : x.acts = false) (t : Table) : x.applies t = none := by
  cases x <;> first | rfl | exact absurd h (by simp [RoomJob.acts])

theorem accepts_of_not_acts (h : ∀ x, job = some (.room x) → x.acts = false) (d : Desk) :
    d.accepts job = none := by
  unfold accepts
  split
  · exact applies_of_not_acts (h _ rfl) _
  · rfl

theorem acts_fenced (h : x.acts = true) : x.fenced = true := by
  cases x <;> first | rfl | exact absurd h (by simp [RoomJob.acts])

theorem applies_eq {command : ActionCommand} {result : ActionResult}
    (hasks : x.command t = some command) (hcall : t.act command = .ok (result, t'))
    (hok : result.error = .ok) :
    x.applies t = some
      { hand := t.handId, sequence := result.serverSequence, user := command.playerId,
        street := t.street, action := command.type, targetAmount := command.amount } := by
  unfold RoomJob.applies
  rw [hasks]
  dsimp only
  rw [hcall]
  exact if_pos hok

/-! ## What a move does to the log -/

/-- What a move does to the log: nothing, an action is accepted, it is stored, or it is given up
with the room. -/
inductive LogChange (tableId : Nat) (d : Desk) (job : Option Job) (d' : Desk) : Prop
  | keep (none : d.accepts job = none) (inFlight : d'.inFlight = d.inFlight)
      (actions : d'.store.actions = d.store.actions)
      (room : d.inFlight.isSome = true → d'.table.isSome = d.table.isSome)
  | accepted {x : RoomJob} {t t' : Table} {command : ActionCommand} {result : ActionResult}
      (hand : d.job = some (.room x)) (runs : job = d.job) (table : d.table = some t)
      (asks : x.command t = some command) (call : t.act command = .ok (result, t'))
      (ok : result.error = .ok) (actions : d'.store.actions = d.store.actions)
      (after : d'.table = some t' ∧ d'.inFlight = some (x.record tableId result t') ∨
        d'.table = none ∧ d'.inFlight = none)
  | stored {action : HandActionRecord} {e : StorageError} {store : InMemoryGameStore}
      (none : d.accepts job = none) (inFlight : d.inFlight = some action)
      (append : d.store.appendAction action = (e, store)) (done : e = .ok ∨ e = .duplicate)
      (after : d'.inFlight = .none) (actions : d'.store.actions = store.actions)
  | lost {action : HandActionRecord} (none : d.accepts job = none)
      (inFlight : d.inFlight = some action) (after : d'.inFlight = .none)
      (table : d'.table = .none) (actions : d'.store.actions = d.store.actions)

@[simp] theorem schedule_inFlight (d : Desk) (view : TableSnapshot) :
    (d.schedule view).inFlight = d.inFlight := by
  unfold inFlight
  rw [Service.schedule_job]

@[simp] theorem schedule_store (d : Desk) (view : TableSnapshot) :
    (d.schedule view).store = d.store := by
  unfold schedule
  split_ifs <;> rfl

theorem refunded_sameHands {before after : InMemoryGameStore}
    (h : Refunded tableId ok before after) : before.SameHands after := by
  rcases h with rfl | ⟨rfl, -⟩
  · exact InMemoryGameStore.abortTableAndRefund_sameHands before tableId
  · exact InMemoryGameStore.SameHands.refl after

theorem inFlight_storeAction {request : Option Request} {action : HandActionRecord}
    {settlement : Option HandSettlementRecord} {view : TableSnapshot}
    (h : d.job = some (.storage (.storeAction request action settlement view))) :
    d.inFlight = some action := by
  unfold inFlight
  rw [h]

theorem inFlight_eq_none
    (h : ∀ request action settlement view,
      d.job ≠ some (.storage (.storeAction request action settlement view))) :
    d.inFlight = none := by
  unfold inFlight
  split
  · rename_i request action settlement view hjob
    exact absurd hjob (h request action settlement view)
  · rfl

theorem LogChange.aside (hold : ∀ j, d.job = some j → j.aside = true)
    (hnew : ∀ j, d'.job = some j → j.stores = false) (hruns : ∀ j, job = some j → j.aside = true)
    (hactions : d'.store.actions = d.store.actions) : LogChange tableId d job d' := by
  have hbefore : d.inFlight = none := inFlight_eq_none fun request action settlement view hj =>
    absurd (hold _ hj) (by simp [Job.aside])
  have hafter : d'.inFlight = none := inFlight_eq_none fun request action settlement view hj =>
    absurd (hnew _ hj) (by simp [Job.stores])
  refine .keep (accepts_of_not_acts (fun x hx => ?_) d) (hafter.trans hbefore.symm) hactions ?_
  · simpa [Job.aside] using hruns _ hx
  · simp [hbefore]

/-- A move beside the job in hand. -/
theorem LogChange.unfenced (hjob : d'.job = d.job) (hruns : ∀ j, job = some j → j.aside = true)
    (hactions : d'.store.actions = d.store.actions)
    (hroom : d'.table.isSome = d.table.isSome) : LogChange tableId d job d' := by
  refine .keep (accepts_of_not_acts (fun x hx => ?_) d) ?_ hactions fun _ => hroom
  · simpa [Job.aside] using hruns _ hx
  · unfold inFlight
    rw [hjob]

theorem aside_of_unfenced {j : Job} (h : j.fenced = false) : j.aside = true := by
  cases j with
  | room x =>
    cases hx : x.acts with
    | false => simp [Job.aside, hx]
    | true => exact absurd (acts_fenced hx) (by simpa [Job.fenced] using h)
  | storage x => cases x <;> first | rfl | exact absurd h (by simp [Job.fenced, StorageJob.fenced])

theorem Move.logChange (h : Move tableId ok d job d') : LogChange tableId d job d' := by
  cases h with
  | stay quiet => exact .unfenced rfl (fun j hj => aside_of_unfenced (quiet j hj)) rfl rfl
  | post quiet notice room =>
    exact .unfenced rfl (fun j hj => aside_of_unfenced (quiet j hj)) rfl rfl
  | take free opens room =>
    refine .aside (by simp [free]) (fun j hj => ?_) (by simp) rfl
    obtain rfl := Option.some.inj hj
    exact Job.stores_of_opens opens
  | fire timer live room => exact .unfenced rfl (by simp) rfl rfl
  | expire timer dead => exact .unfenced rfl (by simp) rfl rfl
  | refund =>
    refine .unfenced rfl (fun j hj => ?_)
      (InMemoryGameStore.abortTableAndRefund_sameHands _ _).actions rfl
    obtain rfl := Option.some.inj hj
    rfl
  | pass pending unfenced quiet =>
    refine .unfenced rfl (fun j hj => ?_) rfl rfl
    obtain rfl := Option.some.inj hj
    exact aside_of_unfenced unfenced
  | rearm pending table =>
    refine .unfenced (Service.schedule_job _ _) (fun j hj => ?_) (by rw [schedule_store])
      (by rw [schedule_table])
    obtain rfl := Option.some.inj hj
    rfl
  | connect pending table call =>
    refine .unfenced ?_ (fun j hj => ?_) ?_ ?_
    · split_ifs
      · exact Service.schedule_job _ _
      · rfl
    · obtain rfl := Option.some.inj hj
      rfl
    · split_ifs
      · rw [schedule_store]
      · rfl
    · split_ifs
      · rw [schedule_table, table]
        rfl
      · rw [table]
        rfl
  | claim pending table sequence acting free =>
    refine .aside (by simp [free]) (fun j hj => ?_) (fun j hj => ?_) rfl
    · obtain rfl := Option.some.inj hj
      rfl
    · obtain rfl := Option.some.inj hj
      rfl
  | miss pending table reason =>
    refine .unfenced rfl (fun j hj => ?_) rfl rfl
    obtain rfl := Option.some.inj hj
    rfl
  | accept hand table asks call accepted =>
    exact .accepted hand rfl table asks call accepted rfl (Or.inl ⟨rfl, rfl⟩)
  | acceptLost hand table asks call accepted sick =>
    exact .accepted hand rfl table asks call accepted rfl (Or.inr ⟨rfl, rfl⟩)
  | @actRefused x t t' hand acts table refused =>
    have hnone : d.inFlight = none := by
      unfold inFlight
      rw [hand]
    refine .keep ?_ hnone.symm rfl (by simp [hnone])
    unfold accepts RoomJob.applies
    rw [hand, table]
    dsimp only
    rcases refused with ⟨hnone, -⟩ | ⟨command, result, hsome, call, herror⟩
    · rw [hnone]
    · rw [hsome]
      dsimp only
      rw [call]
      exact if_neg herror
  | stored hand append done settle =>
    refine .stored (accepts_of_not_acts (by simp [hand]) d) (inFlight_storeAction hand) append done
      ?_ ?_
    · rw [schedule_inFlight]
      rfl
    · rw [schedule_store]
      rcases settle with ⟨-, rfl⟩ | ⟨record, settled, -, hsettle, -⟩
      · rfl
      · rcases InMemoryGameStore.settleHand_cases hsettle with ⟨-, rfl⟩ |
          ⟨_, -, -, -, -, -, -, -, -, -, rfl⟩ <;> rfl
  | actionLost hand append failed refunded =>
    exact .lost (accepts_of_not_acts (by simp [hand]) d) (inFlight_storeAction hand) rfl rfl
      (refunded_sameHands refunded).actions
  | settlementLost hand append done settle failed refunded =>
    exact .stored (accepts_of_not_acts (by simp [hand]) d) (inFlight_storeAction hand) append done
      rfl (refunded_sameHands refunded).actions
  | @buyIn request seat buyIn record receipt reserved store hand found call value =>
    exact .aside (by simp [hand, Job.aside]) (by simp [Job.stores]) (by simp [hand, Job.aside])
      (InMemoryGameStore.reserveBuyIn_sameHands call).actions
  | @buyInLost request seat buyIn record receipt reserved store d' hand found call value sick
    ends =>
    refine .aside (by simp [hand, Job.aside]) (fun j hj => ?_) (by simp [hand, Job.aside]) ?_
    · rcases ends with rfl | rfl
      · obtain rfl := Option.some.inj hj
        rfl
      · exact absurd hj (by simp [close])
    · rcases ends with rfl | rfl <;> exact (InMemoryGameStore.reserveBuyIn_sameHands call).actions
  | rollback hand call done =>
    exact .aside (by simp [hand, Job.aside]) (by simp) (by simp [hand, Job.aside])
      (InMemoryGameStore.cashOut_sameHands call).actions
  | rollbackFailed hand call failed refunded =>
    exact .aside (by simp [hand, Job.aside]) (by simp [close]) (by simp [hand, Job.aside])
      (refunded_sameHands refunded).actions
  | handBegun hand call done posts =>
    refine .aside (by simp [hand, Job.aside]) (by simp) (by simp [hand, Job.aside]) ?_
    rcases InMemoryGameStore.beginHand_cases call with ⟨-, rfl⟩ |
      ⟨_, -, -, -, -, -, -, -, -, rfl⟩ <;>
      rfl
  | cashOut hand call done goes =>
    exact .aside (by simp [hand, Job.aside]) (by grind [Job.stores]) (by simp [hand, Job.aside])
      (InMemoryGameStore.cashOut_sameHands call).actions
  | _ =>
    -- the other jobs of an operation leave the store alone and are followed by no storing
    exact .aside (by grind [Job.aside, RoomJob.acts]) (by grind [Next, Job.stores, close])
      (by grind [Job.aside, RoomJob.acts]) (by grind [close, Service.opened_store])

/-! ## The log of the first room -/

/-- A record says what was applied. -/
structure Writes (tableId : Nat) (a : AppliedAction) (record : HandActionRecord) : Prop where
  handId : record.handId = persistentHandId tableId a.hand
  applied : record.applied a.hand = a

/-- The entry of a record in the store. -/
def entryOf (record : HandActionRecord) : Sigma fun _ : Nat × Nat => HandActionRecord :=
  ⟨(record.handId, record.sequence), record⟩

/-- **The log of the first room**: the applied actions are those in the store, `recs`, and at most
one that is missing: the action in hand, or the one the room was closed over. `before` is what the
store held at the start. -/
structure Logged (tableId : Nat) (before : Dict (Nat × Nat) HandActionRecord)
    (log : List AppliedAction) (d : Desk) : Prop where
  sorted : log.Pairwise fun a b => a.sequence < b.sequence
  past : ∀ t, d.table = some t → ∀ a ∈ log, a.sequence ≤ t.serverSequence
  unopened : d.rooms = 0 → log = []
  flight : d.inFlight.isSome = true → d.table.isSome = true
  sound : ∀ j, d.job = some j → j.Sound
  kept : ∃ stored missing recs, log = stored ++ missing ∧
    List.Forall₂ (Writes tableId) stored recs ∧ (∀ r ∈ recs, r.handId ≠ 0) ∧
    d.store.actions.entries = (recs.map entryOf).reverse ++ before.entries ∧
    missing.length ≤ 1 ∧
    (d.table.isSome = true → (d.inFlight = none → missing = []) ∧
      ∀ action, d.inFlight = some action → ∃ a, missing = [a] ∧ Writes tableId a action)

theorem Move.sound (h : Move tableId ok d job d') (hs : ∀ j, d.job = some j → j.Sound) :
    ∀ j, d'.job = some j → j.Sound := by
  cases h with
  | take free opens room =>
    intro j hj
    obtain rfl := Option.some.inj hj
    exact opens.sound
  | _ => grind [Job.Sound, Next, close, Service.schedule_job]

/-- The record of an accepted action says what was applied. -/
theorem writes_record (ht : d.Timely) (hsound : ∀ j, d.job = some j → j.Sound)
    (hand : d.job = some (.room x)) (table : d.table = some t) {command : ActionCommand}
    {result : ActionResult} (asks : x.command t = some command)
    (call : t.act command = .ok (result, t')) (hok : result.error = .ok) :
    Writes tableId
      { hand := t.handId, sequence := result.serverSequence, user := command.playerId,
        street := t.street, action := command.type, targetAmount := command.amount }
      (x.record tableId result t') := by
  have hacc := (ht.reached t table).accepted call hok
  cases x with
  | act request handId asked =>
    have hplayer : asked.playerId = request.user := (hsound _ hand).2
    simp only [RoomJob.command] at asks
    split_ifs at asks with hstale
    obtain rfl := Option.some.inj asks
    refine ⟨by simp only [RoomJob.record, hacc.handId], ?_⟩
    simp only [RoomJob.record, HandActionRecord.applied, hacc.street, hplayer]
  | onActionTimeout timeout =>
    obtain ⟨hplayer, htype, hamount⟩ := ht.command table (Or.inr (Or.inr hand)) asks
    refine ⟨by simp only [RoomJob.record, hacc.handId], ?_⟩
    simp only [RoomJob.record, HandActionRecord.applied, hacc.street, hplayer, htype, hamount]
  | _ => exact absurd asks (by simp [RoomJob.command])

section Step

variable {before : Dict (Nat × Nat) HandActionRecord} {log : List AppliedAction}

/-- No action of the table's hands is in the store. -/
def NoActions (tableId : Nat) (before : Dict (Nat × Nat) HandActionRecord) : Prop :=
  ∀ n, ∀ entry ∈ before.entries, entry.2.handId ≠ persistentHandId tableId n

theorem forall₂_mem_right {α β : Type} {R : α → β → Prop} {l : List α} {m : List β}
    (h : List.Forall₂ R l m) {b : β} (hb : b ∈ m) : ∃ a ∈ l, R a b := by
  induction h with
  | nil => exact absurd hb (by simp)
  | cons hR _ ih =>
    rcases List.mem_cons.mp hb with rfl | hb
    · exact ⟨_, List.mem_cons_self, hR⟩
    · obtain ⟨a, ha, hab⟩ := ih hb
      exact ⟨a, List.mem_cons_of_mem _ ha, hab⟩

/-- An action later than all stored ones is under none of their sequences. -/
theorem not_stored {stored : List AppliedAction} {recs : List HandActionRecord}
    {action : HandActionRecord} {a : AppliedAction} (hfresh : NoActions tableId before)
    (hrecs : List.Forall₂ (Writes tableId) stored recs) (hwrites : Writes tableId a action)
    (hlater : ∀ b ∈ stored, b.sequence < a.sequence) :
    ∀ entry ∈ (recs.map entryOf).reverse ++ before.entries,
      entry.2.handId = action.handId → entry.2.sequence ≠ action.sequence := by
  intro entry hentry hhand hseq
  rcases List.mem_append.mp hentry with hentry | hentry
  · rw [List.mem_reverse] at hentry
    obtain ⟨r, hr, rfl⟩ := List.mem_map.mp hentry
    obtain ⟨b, hb, hwrite⟩ := forall₂_mem_right hrecs hr
    have hlt := hlater b hb
    have hbseq : r.sequence = b.sequence := congrArg AppliedAction.sequence hwrite.applied
    have haseq : action.sequence = a.sequence := congrArg AppliedAction.sequence hwrites.applied
    change r.sequence = action.sequence at hseq
    omega
  · exact hfresh a.hand entry hentry (hhand.trans hwrites.handId)

theorem Logged.keep (h : Logged tableId before log d) (hfirst : d'.rooms ≤ 1) (ht : d.Timely)
    (hmove : Move tableId ok d job d') (hflight : d'.inFlight = d.inFlight)
    (hactions : d'.store.actions = d.store.actions)
    (hroom : d.inFlight.isSome = true → d'.table.isSome = d.table.isSome) :
    Logged tableId before log d' := by
  have hchange := hmove.roomChange
  have hunopened : d.rooms = 0 → log = [] := h.unopened
  refine
    { sorted := h.sorted
      past := ?_
      unopened := fun h0 => hunopened (Nat.le_zero.mp (h0 ▸ hchange.rooms_le))
      flight := fun hf => ?_
      sound := hmove.sound h.sound
      kept := ?_ }
  · refine hchange.keeps hfirst (P := fun t => ∀ a ∈ log, a.sequence ≤ t.serverSequence) h.past
      (fun t op e t' htable _ hop _ hle a ha => ?_) (fun config h0 => by simp [hunopened h0])
    exact (hle a ha).trans ((ht.reached t htable).sequence_le hop)
  · rw [hflight] at hf
    rw [hroom hf]
    exact h.flight hf
  · obtain ⟨stored, missing, recs, hlog, hrecs, hids, hentries, hone, hopen⟩ := h.kept
    refine ⟨stored, missing, recs, hlog, hrecs, hids, by rw [hactions]; exact hentries, hone, ?_⟩
    intro hsome
    rw [hflight]
    cases hchange with
    | same htable _ => exact hopen (htable ▸ hsome)
    | served _ hbefore _ _ _ _ _ => exact hopen (by rw [hbefore]; rfl)
    | closed hnone _ => exact absurd hsome (by simp [hnone])
    | opened config hnone _ hrooms =>
      -- a room is opened for the first time: nothing was applied
      have hnil : missing = [] := by
        have hempty := hunopened (by omega)
        rw [hlog, List.append_eq_nil_iff] at hempty
        exact hempty.2
      refine ⟨fun _ => hnil, fun action hf => ?_⟩
      have := h.flight (by rw [hf]; rfl)
      rw [hnone] at this
      exact absurd this (by simp)

theorem Logged.accept (h : Logged tableId before log d) (ht : d.Timely)
    (hmove : Move tableId ok d job d') {command : ActionCommand} {result : ActionResult}
    (hand : d.job = some (.room x)) (table : d.table = some t) (asks : x.command t = some command)
    (call : t.act command = .ok (result, t')) (hok : result.error = .ok)
    (hactions : d'.store.actions = d.store.actions)
    (hafter : d'.table = some t' ∧ d'.inFlight = some (x.record tableId result t') ∨
      d'.table = none ∧ d'.inFlight = none) :
    Logged tableId before (log ++
      [{ hand := t.handId, sequence := result.serverSequence, user := command.playerId,
         street := t.street, action := command.type, targetAmount := command.amount }]) d' := by
  have hacc := (ht.reached t table).accepted call hok
  have hlater : ∀ a ∈ log, a.sequence < result.serverSequence := fun a ha =>
    hacc.sequence ▸ (h.past t table a ha).trans_lt hacc.grows
  have hopened : d.rooms ≠ 0 := fun h0 =>
    absurd (ht.unopened h0).1 (by simp [table])
  obtain ⟨stored, missing, recs, hlog, hrecs, hids, hentries, -, hopen⟩ := h.kept
  have hnil : missing = [] := (hopen (by rw [table]; rfl)).1 (by unfold inFlight; rw [hand])
  rw [hnil, List.append_nil] at hlog
  refine
    { sorted := ?_
      past := fun u hu a ha => ?_
      unopened := fun h0 => absurd (Nat.le_zero.mp (h0 ▸ hmove.roomChange.rooms_le)) hopened
      flight := fun hf => ?_
      sound := hmove.sound h.sound
      kept := ⟨log, _, recs, rfl, hlog ▸ hrecs, hids, by rw [hactions]; exact hentries,
        Nat.le_refl 1, fun hsome => ?_⟩ }
  · refine List.pairwise_append.mpr ⟨h.sorted, List.pairwise_singleton _ _, fun a ha b hb => ?_⟩
    rw [List.mem_singleton.mp hb]
    exact hlater a ha
  · rcases hafter with ⟨htable, -⟩ | ⟨hnone, -⟩
    · obtain rfl := Option.some.inj (htable.symm.trans hu)
      rcases List.mem_append.mp ha with ha | ha
      · exact hacc.sequence ▸ (hlater a ha).le
      · rw [List.mem_singleton.mp ha]
        exact hacc.sequence.le
    · exact absurd hu (by simp [hnone])
  · rcases hafter with ⟨htable, -⟩ | ⟨-, hflight⟩
    · rw [htable]
      rfl
    · exact absurd hf (by simp [hflight])
  · rcases hafter with ⟨-, hflight⟩ | ⟨hnone, -⟩
    · rw [hflight]
      refine ⟨fun hn => absurd hn (by simp), fun action ha => ⟨_, rfl, ?_⟩⟩
      obtain rfl := Option.some.inj ha
      exact writes_record ht h.sound hand table asks call hok
    · exact absurd hsome (by simp [hnone])

theorem Logged.store (h : Logged tableId before log d) (hfresh : NoActions tableId before)
    (hfirst : d'.rooms ≤ 1) (ht : d.Timely) (hmove : Move tableId ok d job d')
    {action : HandActionRecord} {e : StorageError} {store : InMemoryGameStore}
    (hflight : d.inFlight = some action) (happend : d.store.appendAction action = (e, store))
    (hdone : e = .ok ∨ e = .duplicate) (hafter : d'.inFlight = none)
    (hactions : d'.store.actions = store.actions) : Logged tableId before log d' := by
  have hchange := hmove.roomChange
  have hsome := h.flight (by rw [hflight]; rfl)
  have hrooms : d.rooms ≠ 0 := fun h0 => by
    rw [(ht.unopened h0).1] at hsome
    exact absurd hsome (by simp)
  obtain ⟨stored, missing, recs, hlog, hrecs, hids, hentries, -, hopen⟩ := h.kept
  obtain ⟨a, rfl, hwrites⟩ := (hopen hsome).2 action hflight
  have hlater : ∀ b ∈ stored, b.sequence < a.sequence := by
    have hsorted := h.sorted
    rw [hlog] at hsorted
    exact fun b hb => (List.pairwise_append.mp hsorted).2.2 b hb a (List.mem_singleton.mpr rfl)
  have hnew := not_stored hfresh hrecs hwrites hlater
  rw [← hentries] at hnew
  -- the store has never seen the action, so that it answers ok and keeps it
  rcases InMemoryGameStore.appendAction_cases happend with ⟨hne, -⟩ | ⟨rfl, hid, -, -, hfree, rfl⟩
  · rcases hdone with rfl | rfl
    · exact absurd rfl hne
    · obtain ⟨entry, hentry, hsame⟩ := InMemoryGameStore.appendAction_duplicate happend
      exact absurd (congrArg HandActionRecord.sequence hsame)
        (hnew entry hentry (congrArg HandActionRecord.handId hsame))
  · refine
      { sorted := h.sorted
        past := ?_
        unopened := fun h0 => absurd (Nat.le_zero.mp (h0 ▸ hchange.rooms_le)) hrooms
        flight := fun hf => absurd hf (by simp [hafter])
        sound := hmove.sound h.sound
        kept := ⟨stored ++ [a], [], recs ++ [action], by rw [hlog, List.append_nil], ?_, ?_, ?_,
          Nat.zero_le 1, fun _ => ⟨fun _ => rfl, fun b hb => absurd hb (by simp [hafter])⟩⟩ }
    · refine hchange.keeps hfirst (P := fun t => ∀ a ∈ log, a.sequence ≤ t.serverSequence) h.past
        (fun t op e t' htable _ hop _ hle a ha => ?_) (fun config h0 => absurd h0 hrooms)
      exact (hle a ha).trans ((ht.reached t htable).sequence_le hop)
    · exact List.rel_append hrecs (List.Forall₂.cons hwrites List.Forall₂.nil)
    · intro r hr
      rcases List.mem_append.mp hr with hr | hr
      · exact hids r hr
      · exact List.mem_singleton.mp hr ▸ hid
    · rw [hactions, AList.entries_insert_of_notMem (AList.lookup_eq_none.mp hfree), hentries]
      simp [entryOf]

theorem Logged.lose (h : Logged tableId before log d) (ht : d.Timely)
    (hmove : Move tableId ok d job d') {action : HandActionRecord}
    (hflight : d.inFlight = some action) (hafter : d'.inFlight = none) (htable : d'.table = none)
    (hactions : d'.store.actions = d.store.actions) : Logged tableId before log d' := by
  have hsome := h.flight (by rw [hflight]; rfl)
  have hrooms : d.rooms ≠ 0 := fun h0 => by
    rw [(ht.unopened h0).1] at hsome
    exact absurd hsome (by simp)
  obtain ⟨stored, missing, recs, hlog, hrecs, hids, hentries, hone, -⟩ := h.kept
  exact
    { sorted := h.sorted
      past := fun t ht => absurd ht (by simp [htable])
      unopened := fun h0 => absurd (Nat.le_zero.mp (h0 ▸ hmove.roomChange.rooms_le)) hrooms
      flight := fun hf => absurd hf (by simp [hafter])
      sound := hmove.sound h.sound
      kept := ⟨stored, missing, recs, hlog, hrecs, hids, by rw [hactions]; exact hentries, hone,
        fun hs => absurd hs (by simp [htable])⟩ }

/-- **One move keeps the log.** -/
theorem Move.logged (hmove : Move tableId ok d job d') (hfresh : NoActions tableId before)
    (hfirst : d'.rooms ≤ 1) (ht : d.Timely) (h : Logged tableId before log d) :
    Logged tableId before (log ++ (d.accepts job).toList) d' := by
  cases hmove.logChange with
  | keep hnone hflight hactions hroom =>
    rw [hnone, Option.toList_none, List.append_nil]
    exact h.keep hfirst ht hmove hflight hactions hroom
  | @accepted x t t' command result hand hruns htable hasks hcall hok hactions hafter =>
    have haccepts : d.accepts job = x.applies t := by
      rw [hruns, hand]
      unfold accepts
      rw [htable]
    rw [haccepts, applies_eq hasks hcall hok, Option.toList_some]
    exact h.accept ht hmove hand htable hasks hcall hok hactions hafter
  | stored hnone hflight happend hdone hafter hactions =>
    rw [hnone, Option.toList_none, List.append_nil]
    exact h.store hfresh hfirst ht hmove hflight happend hdone hafter hactions
  | lost hnone hflight hafter htable hactions =>
    rw [hnone, Option.toList_none, List.append_nil]
    exact h.lose ht hmove hflight hafter htable hactions

end Step

end Desk

/-! ## Runs of the service -/

namespace Service

variable {tableId : Nat} {nodeId : String} {store : InMemoryGameStore} {s : Service} {d : Desk}
  {trace : List (Step Service (Event × Env))}

theorem accepts_desk (h : s.Rests tableId d) (event : Event) :
    s.accepts event = d.accepts (s.runs event) := by
  cases event with
  | room =>
    cases hq : s.queue with
    | nil => simp [accepts, runs, hq, Desk.accepts]
    | cons task queue =>
      have hruns : s.runs .room = some (.room task.job) := by simp [runs, hq]
      rw [hruns]
      simp only [accepts, hq]
      cases hacts : task.job.acts with
      | false =>
        rw [Desk.applies_of_not_acts hacts, ite_self, Desk.accepts_of_not_acts]
        rintro x ⟨⟩
        exact hacts
      | true =>
        obtain ⟨hroom, hsome⟩ :=
          h.agrees.current task (hq ▸ List.mem_cons_self) (Desk.acts_fenced hacts)
        obtain ⟨t, ht⟩ := Option.isSome_iff_exists.mp hsome
        have hcaptured : s.capturedRoom task = { table := t } := by
          simp [capturedRoom, ht, hroom]
        rw [hcaptured]
        simp [Desk.accepts, ← h.agrees.table, ht]
  | storage index =>
    unfold accepts
    rw [Desk.accepts_of_not_acts]
    intro x hx
    obtain ⟨_, -, hj⟩ := Option.map_eq_some_iff.mp hx
    exact absurd hj (by simp)
  | _ => rfl

/-- What gets an action accepted is the job in hand. -/
theorem job_of_accepts (h : s.Rests tableId d) {event : Event} {a : AppliedAction}
    (ha : s.accepts event = some a) :
    ∃ x t, d.job = some (.room x) ∧ d.table = some t := by
  cases event with
  | room =>
    cases hq : s.queue with
    | nil => exact absurd ha (by simp [accepts, hq])
    | cons task queue =>
      have hacts : task.job.acts = true := by
        by_contra hno
        rw [Bool.not_eq_true] at hno
        exact absurd ha (by simp [accepts, hq, Desk.applies_of_not_acts hno])
      have hfenced := Desk.acts_fenced hacts
      obtain ⟨hjob, -⟩ := h.runRoom hq hfenced
      obtain ⟨-, hsome⟩ := h.agrees.current task (hq ▸ List.mem_cons_self) hfenced
      rw [h.agrees.table] at hsome
      obtain ⟨t, ht⟩ := Option.isSome_iff_exists.mp hsome
      exact ⟨task.job, t, hjob, ht⟩
  | _ => exact absurd ha (by simp [accepts])

/-- Rooms are counted up along a run. -/
theorem rooms_le_of_run (hr : Run Steps (init tableId nodeId store) trace s) :
    ∀ step ∈ trace, step.after.rooms ≤ s.rooms := by
  refine (run_desk (J := fun past d => ∀ step ∈ past, step.after.rooms ≤ d.rooms) hr (by simp)
    fun past u event env v _ _ hmove hle step hstep => ?_).2
  have hgrow := hmove.roomChange.rooms_le
  rcases List.mem_append.mp hstep with hstep | hstep
  · exact (hle step hstep).trans hgrow
  · rw [List.mem_singleton.mp hstep]
    exact Nat.le_refl _

theorem logged_init (tableId : Nat) (nodeId : String) (store : InMemoryGameStore) :
    (init tableId nodeId store).desk.Logged tableId store.actions [] where
  sorted := List.Pairwise.nil
  past := fun t ht => absurd ht (by simp [desk, init])
  unopened := fun _ => rfl
  flight := fun hf => absurd hf (by simp [Desk.inFlight, desk, holders, init])
  sound := fun j hj => absurd hj (by simp [desk, holders, init])
  kept := ⟨[], [], [], rfl, List.Forall₂.nil, by simp, rfl, Nat.zero_le 1, fun hs =>
    absurd hs (by simp [desk, init])⟩

/-- **The log of the first room, along every run.** -/
theorem run_logged (hfresh : Desk.NoActions tableId store.actions)
    (hr : Run Steps (init tableId nodeId store) trace s) (hfirst : s.rooms ≤ 1) :
    s.Rests tableId s.desk ∧ s.desk.Timely ∧
      s.desk.Logged tableId store.actions (appliedActions trace) := by
  have hrooms := rooms_le_of_run hr
  refine run_desk
    (J := fun past d => d.Timely ∧ d.Logged tableId store.actions (appliedActions past)) hr
    ⟨Desk.timely_init tableId nodeId store, logged_init tableId nodeId store⟩
    fun past u event env v hfront hrests hmove hold => ?_
  have hv : v.rooms ≤ 1 := (hrooms ⟨u, (event, env), v⟩ (hfront.subset (by simp))).trans hfirst
  refine ⟨hmove.timely hv hold.1, ?_⟩
  have hlog := hmove.logged hfresh hv hold.1 hold.2
  rw [← accepts_desk hrests event] at hlog
  have happlied : appliedActions (past ++ [⟨u, (event, env), v⟩]) =
      appliedActions past ++ (u.accepts event).toList := by
    unfold appliedActions
    rw [List.filterMap_append]
    cases hacc : u.accepts event <;> simp [hacc]
  rw [happlied]
  exact hlog

/-! ## The log of a hand -/

theorem filter_writes {stored : List AppliedAction} {recs : List HandActionRecord}
    (h : List.Forall₂ (Desk.Writes tableId) stored recs) (hids : ∀ r ∈ recs, r.handId ≠ 0)
    (hand : Nat) :
    (recs.filter (·.handId == persistentHandId tableId hand)).map (·.applied hand) =
      stored.filter (·.hand == hand) := by
  induction h with
  | nil => rfl
  | @cons a r stored recs hwrites _ ih =>
    have hrest := ih fun r hr => hids r (List.mem_cons_of_mem _ hr)
    have hsame : (r.handId == persistentHandId tableId hand) = (a.hand == hand) := by
      rw [Bool.eq_iff_iff, beq_iff_eq, beq_iff_eq, hwrites.handId]
      refine ⟨fun heq => persistentHandId_inj heq ?_, fun heq => by rw [heq]⟩
      rw [← hwrites.handId]
      exact hids r List.mem_cons_self
    rw [List.filter_cons, List.filter_cons, hsame]
    split_ifs with hhand
    · rw [List.map_cons, hrest, ← beq_iff_eq.mp hhand, hwrites.applied]
    · exact hrest

theorem mergeSort_reverse {l : List HandActionRecord}
    (h : l.Pairwise fun a b => a.sequence < b.sequence) :
    (l.reverse.mergeSort fun a b => a.sequence ≤ b.sequence) = l := by
  have hsorted : (l.reverse.mergeSort fun a b => a.sequence ≤ b.sequence).Pairwise
      fun a b => decide (a.sequence ≤ b.sequence) = true :=
    List.pairwise_mergeSort (fun a b c hab hbc => by simp only [decide_eq_true_eq] at *; omega)
      (fun a b => by simp only [Bool.or_eq_true, decide_eq_true_eq]; omega) _
  have hl : l.Pairwise fun a b => decide (a.sequence ≤ b.sequence) = true :=
    h.imp fun hlt => by simpa using hlt.le
  have hapart : l.Pairwise fun a b => a.sequence ≠ b.sequence := h.imp fun hlt => hlt.ne
  refine List.Perm.eq_of_pairwise (fun a b ha hb hab hba => ?_) hsorted hl
    ((List.mergeSort_perm _ _).trans (List.reverse_perm l))
  simp only [decide_eq_true_eq] at hab hba
  by_contra hne
  rw [List.mem_mergeSort, List.mem_reverse] at ha
  have : Std.Symm fun a b : HandActionRecord => a.sequence ≠ b.sequence := ⟨fun _ _ => Ne.symm⟩
  exact hapart.forall ha hb hne (by omega)

/-- What the store has of a hand, in the order it was written. -/
theorem actionsOf_eq {recs : List HandActionRecord} {d : Desk}
    (hfresh : Desk.NoActions tableId store.actions)
    (hentries : d.store.actions.entries = (recs.map Desk.entryOf).reverse ++ store.actions.entries)
    (hsorted : recs.Pairwise fun a b => a.sequence < b.sequence) (hand : Nat) :
    d.store.actionsOf (persistentHandId tableId hand) =
      recs.filter (·.handId == persistentHandId tableId hand) := by
  have hold : (store.actions.entries.map (·.2)).filter
      (·.handId == persistentHandId tableId hand) = [] := by
    rw [List.filter_eq_nil_iff]
    intro r hr
    obtain ⟨entry, hentry, rfl⟩ := List.mem_map.mp hr
    simpa using hfresh hand entry hentry
  have hnew : ((recs.map Desk.entryOf).reverse.map (·.2)) = recs.reverse := by
    rw [← List.map_reverse, List.map_map]
    exact List.map_id _
  unfold InMemoryGameStore.actionsOf
  rw [hentries, List.map_append, List.filter_append, hold, List.append_nil, hnew,
    List.filter_reverse]
  exact mergeSort_reverse (hsorted.filter _)

theorem sorted_writes {stored : List AppliedAction} {recs : List HandActionRecord}
    (h : List.Forall₂ (Desk.Writes tableId) stored recs)
    (hsorted : stored.Pairwise fun a b => a.sequence < b.sequence) :
    recs.Pairwise fun a b => a.sequence < b.sequence := by
  have hsame : recs.map (·.sequence) = stored.map (·.sequence) := by
    induction h with
    | nil => rfl
    | cons hwrites _ ih =>
      rw [List.map_cons, List.map_cons, ih (List.pairwise_cons.mp hsorted).2, ← hwrites.applied]
      rfl
  have hmap : (recs.map (·.sequence)).Pairwise (· < ·) := by
    rw [hsame, List.pairwise_map]
    exact hsorted
  exact List.pairwise_map.mp hmap

/-- The stored actions of a hand, as applied, and those that are missing. -/
theorem logged_hand {log : List AppliedAction} {d : Desk}
    (hfresh : Desk.NoActions tableId store.actions) (h : d.Logged tableId store.actions log)
    (hand : Nat) : ∃ missing : List AppliedAction, missing.length ≤ 1 ∧
      log.filter (·.hand == hand) =
        (d.store.actionsOf (persistentHandId tableId hand)).map (·.applied hand) ++ missing ∧
      (d.table.isSome = true → d.inFlight = none → missing = []) := by
  obtain ⟨stored, missing, recs, hlog, hrecs, hids, hentries, hone, hopen⟩ := h.kept
  have hsorted := h.sorted
  rw [hlog] at hsorted
  have hsorted' := sorted_writes hrecs (List.pairwise_append.mp hsorted).1
  refine ⟨missing.filter (·.hand == hand), (List.length_filter_le _ _).trans hone, ?_, ?_⟩
  · rw [actionsOf_eq hfresh hentries hsorted', filter_writes hrecs hids, hlog, List.filter_append]
  · intro hsome hflight
    rw [(hopen hsome).1 hflight, List.filter_nil]

/-! ## A failure to store -/

/-- The answers of the store after which an action counts as stored. -/
def kept (error : StorageError) : Bool := error == .ok || error == .duplicate

/-- An accepted action is not stored: the storage executor is full, or the store refuses the action
or the settlement that goes with it, or does not answer. -/
def loses (s : Service) : Event × Env → Bool
  | (.room, env) => (s.accepts .room).isSome && !env.storageAccepts
  | (.storage index, env) =>
    match s.storage[index]? with
    | some (.storeAction _ action settlement _) =>
      let (stored, s) := s.askStore env .appendAction (s.store.appendAction action)
      let settled := match settlement with
        | none => .ok
        | some record => (s.askStore env .settleHand (s.store.settleHand record)).1
      !(kept stored && kept settled)
    | _ => false
  | _ => false

theorem abort_room (s : Service) (env : Env) (attempt : Bool) :
    (s.abortTableAndNotify env attempt).room = none := by
  unfold abortTableAndNotify retryRefund askStore
  cases attempt <;> dsimp only <;> split_ifs <;> rfl

theorem actionLost_room (s : Service) (env : Env) (answered : Option Request) :
    (s.actionLost env answered).room = none := by
  unfold actionLost
  cases answered <;> exact abort_room s env true

theorem postAction_room (s : Service) {env : Env} (hfull : env.storageAccepts = false)
    {answered : Option Request} {action : HandActionRecord} {result : ActionResult}
    {view audit : TableSnapshot} :
    (s.postAction env answered action result view audit).room = none := by
  unfold postAction
  rw [if_neg (by simp [hfull])]
  cases answered <;> exact abort_room s env false

theorem kept_iff {error : StorageError} :
    kept error = true ↔ ¬ (error ≠ .ok ∧ error ≠ .duplicate) := by
  cases error <;> decide

theorem closed_of_room_loses {s' : Service} {env : Env} (hstep : s.runRoom env = some s')
    (haccepts : (s.accepts .room).isSome = true) (hfull : env.storageAccepts = false) :
    s'.room = none := by
  obtain ⟨task, queue, reply, room, hq, hrun, rfl⟩ := runRoom_cases hstep
  simp only [accepts, hq] at haccepts
  cases hclosed : (s.capturedRoom task).closed with
  | true => exact absurd haccepts (by simp [hclosed])
  | false =>
    obtain ⟨t, -, -, hcaptured⟩ := capturedRoom_open hclosed
    rw [hcaptured] at hrun haccepts
    have hacts : task.job.acts = true := by
      by_contra hno
      rw [Bool.not_eq_true] at hno
      exact absurd haccepts (by simp [Desk.applies_of_not_acts hno])
    have happlies : (task.job.applies t).isSome = true := by simpa using haccepts
    unfold RoomJob.applies at happlies
    rcases acts_run hacts hrun with ⟨hnone, -⟩ | ⟨command, result, hcommand, hcall, rfl⟩
    · exact absurd happlies (by simp [hnone])
    · have hok : result.error = .ok := by
        by_contra hno
        exact absurd happlies (by simp [hcommand, hcall, hno])
      simp only [answer]
      rw [callback_acts hacts, if_neg (by simp [hok])]
      exact postAction_room _ hfull

theorem closed_of_storage_loses {env : Env} {answered : Option Request}
    {action : HandActionRecord} {settlement : Option HandSettlementRecord} {view : TableSnapshot}
    {index : Nat} (hget : s.storage[index]? = some (.storeAction answered action settlement view))
    (hloses : s.loses (.storage index, env) = true) (storage : List StorageJob) :
    ({ s with storage := storage }.runStorage env
      (.storeAction answered action settlement view)).room = none := by
  simp only [loses, hget, Bool.not_eq_true', Bool.and_eq_false_iff] at hloses
  simp only [runStorage]
  rcases happend : s.store.appendAction action with ⟨stored, store⟩
  rw [happend] at hloses
  by_cases havail : env.available .appendAction = true
  · simp only [askStore, if_pos havail] at hloses ⊢
    by_cases hfailed : stored ≠ .ok ∧ stored ≠ .duplicate
    · rw [if_pos hfailed]
      exact actionLost_room _ env answered
    · rw [if_neg hfailed]
      rw [kept_iff.mpr hfailed] at hloses
      cases settlement with
      | none => exact absurd hloses (by simp [kept])
      | some record =>
        dsimp only at hloses ⊢
        rcases hsettle : store.settleHand record with ⟨settled, store'⟩
        rw [hsettle] at hloses
        by_cases havail' : env.available .settleHand = true
        · simp only [if_pos havail'] at hloses ⊢
          have hbad : settled ≠ .ok ∧ settled ≠ .duplicate := by
            by_contra hno
            exact absurd hloses (by simp [kept_iff.mpr hno])
          rw [if_pos hbad]
          exact actionLost_room _ env answered
        · simp only [if_neg havail']
          rw [if_pos (by simp)]
          exact actionLost_room _ env answered
  · simp only [askStore, if_neg havail]
    rw [if_pos (by simp)]
    exact actionLost_room _ env answered

/-- **Over an action that is not stored the room is closed.** -/
theorem closed_of_loses {s' : Service} {event : Event} {env : Env} (h : s.Rests tableId d)
    (ht : d.Timely) (hstep : s.step (event, env) = some s')
    (hloses : s.loses (event, env) = true) : s'.room = none ∧ d.rooms ≠ 0 := by
  cases event with
  | room =>
    simp only [loses, Bool.and_eq_true, Bool.not_eq_true'] at hloses
    refine ⟨closed_of_room_loses hstep hloses.1 hloses.2, fun h0 => ?_⟩
    have hnone : s.accepts .room = none := by
      rw [accepts_desk h]
      unfold Desk.accepts
      rw [(ht.unopened h0).1]
      split
      · rename_i hsome
        exact absurd hsome (by simp)
      · rfl
    exact absurd hloses.1 (by simp [hnone])
  | storage index =>
    obtain ⟨job, hget, rfl⟩ := Option.map_eq_some_iff.mp hstep
    cases job with
    | storeAction answered action settlement view =>
      refine ⟨closed_of_storage_loses hget hloses _, fun h0 => ?_⟩
      obtain ⟨hjob, -⟩ := h.runStorage hget rfl
      exact (ht.unopened h0).2.2.1 view ⟨answered, action, settlement, hjob⟩
    | _ => exact absurd hloses (by simp [loses, hget])
  | _ => exact absurd hloses (by simp [loses])

/-- In the first room, nothing is accepted any more once an action was not stored. -/
theorem none_accepted_of_loses (hr : Run Steps (init tableId nodeId store) trace s)
    (hfirst : s.rooms ≤ 1) {before after : List (Step Service (Event × Env))}
    {step : Step Service (Event × Env)} (htrace : trace = before ++ step :: after)
    (hloses : step.before.loses step.label = true) :
    ∀ later ∈ after, later.before.accepts later.label.1 = none := by
  have hrooms := rooms_le_of_run hr
  have hsteps := fun e he => (hr.entry (e := e) he).2
  have hinv := run_desk
    (J := fun past d => d.Timely ∧ ∀ before step after, past = before ++ step :: after →
      step.before.loses step.label = true → d.table = none ∧ d.rooms ≠ 0 ∧
        ∀ later ∈ after, later.before.accepts later.label.1 = none) hr
    ⟨Desk.timely_init tableId nodeId store, fun before step after h => by simp at h⟩
    fun past u event env v hfront hrests hmove hold => ?_
  · exact (hinv.2.2 before step after htrace hloses).2.2
  · have hmem : (⟨u, (event, env), v⟩ : Step Service (Event × Env)) ∈ trace :=
      hfront.subset (by simp)
    have hv : v.rooms ≤ 1 := (hrooms _ hmem).trans hfirst
    refine ⟨hmove.timely hv hold.1, fun before step after hpast hloses => ?_⟩
    have hgrow := hmove.roomChange.rooms_le
    rcases List.eq_nil_or_concat after with rfl | ⟨rest, last, rfl⟩
    · -- the action is lost in this step
      obtain ⟨-, hlast⟩ := List.append_inj' hpast rfl
      obtain rfl := List.head_eq_of_cons_eq hlast
      obtain ⟨hnone, hne⟩ := closed_of_loses hrests hold.1 (hsteps _ hmem) hloses
      exact ⟨hnone, by omega, by simp⟩
    · -- it was lost before
      rw [List.concat_eq_append, ← List.cons_append, ← List.append_assoc] at hpast
      obtain ⟨hbefore, hlast⟩ := List.append_inj' hpast rfl
      obtain rfl := List.head_eq_of_cons_eq hlast
      obtain ⟨hnone, hne, hrest⟩ := hold.2 before step rest hbefore hloses
      refine ⟨?_, by omega, fun later hlater => ?_⟩
      · cases hmove.roomChange with
        | same htable _ => rw [htable, hnone]
        | served _ hsome _ _ _ _ _ => exact absurd hsome (by simp [hnone])
        | closed htable _ => exact htable
        | opened _ _ _ hopened =>
          change v.rooms = u.rooms + 1 at hopened
          change u.rooms ≠ 0 at hne
          omega
      · rw [List.concat_eq_append] at hlater
        rcases List.mem_append.mp hlater with hlater | hlater
        · exact hrest later hlater
        · rw [List.mem_singleton.mp hlater]
          change u.accepts event = none
          rw [accepts_desk hrests]
          unfold Desk.accepts
          rw [hnone]
          split
          · rename_i hsome
            exact absurd hsome (by simp)
          · rfl

/-- **The stored actions are the applied actions.** In the first room of a table whose hands are not
in the store yet, after every run: the actions stored for a hand, ordered by sequence, are a prefix
of those the table accepted in it, and at most the latest is missing; when the next event gets an
action accepted, none is missing; and after an action was not stored, none is accepted. -/
theorem actionLog_faithful (hfresh : Desk.NoActions tableId store.actions)
    (hr : Run Steps (init tableId nodeId store) trace s) (hfirst : s.rooms ≤ 1) :
    (∀ hand, ((s.store.actionsOf (persistentHandId tableId hand)).map (·.applied hand)) <+:
        (appliedActions trace).filter (·.hand == hand) ∧
      ((appliedActions trace).filter (·.hand == hand)).length ≤
        (s.store.actionsOf (persistentHandId tableId hand)).length + 1) ∧
    (∀ event action, s.accepts event = some action → ∀ hand,
      (s.store.actionsOf (persistentHandId tableId hand)).map (·.applied hand) =
        (appliedActions trace).filter (·.hand == hand)) ∧
    (∀ before step after, trace = before ++ step :: after →
      step.before.loses step.label = true →
      ∀ later ∈ after, later.before.accepts later.label.1 = none) := by
  obtain ⟨hrests, -, hlogged⟩ := run_logged hfresh hr hfirst
  refine ⟨fun hand => ?_, fun event action haccepts hand => ?_,
    fun before step after htrace hloses =>
    none_accepted_of_loses hr hfirst htrace hloses⟩
  · obtain ⟨missing, hone, hlog, -⟩ := logged_hand hfresh hlogged hand
    change (appliedActions trace).filter (·.hand == hand) =
      (s.store.actionsOf (persistentHandId tableId hand)).map (·.applied hand) ++ missing at hlog
    rw [hlog, List.length_append, List.length_map]
    exact ⟨List.prefix_append _ _, by omega⟩
  · obtain ⟨missing, -, hlog, hnone⟩ := logged_hand hfresh hlogged hand
    obtain ⟨x, t, hjob, htable⟩ := job_of_accepts hrests haccepts
    have hall := hnone (by rw [htable]; rfl) (by unfold Desk.inFlight; rw [hjob])
    rw [hall, List.append_nil] at hlog
    exact hlog.symm

/-- Player 1 calls, player 2 runs out of time and checks. -/
def calledAndChecked : List Event :=
  headsUp ++ act 1 5 3 .call 0 ++ [.timer 1, .room, .room, .storage 0]

theorem actionLog_faithful_timeout : ∃ trace s, Run Steps (init 7 "node" house) trace s ∧
    s.rooms ≤ 1 ∧ (appliedActions trace).map (·.action) = [.call, .check] ∧
    ((s.store.actionsOf (persistentHandId 7 1)).map (·.applied 1)) <+:
      (appliedActions trace).filter (·.hand == 1) := by
  have hcheck : (replay perform (init 7 "node" house) (smoothly calledAndChecked)).any
      (fun r => decide (r.2.rooms ≤ 1 ∧
        (appliedActions r.1).map (·.action) = [.call, .check])) = true := by decide +kernel
  obtain ⟨⟨trace, s⟩, hreplay, hs⟩ := (Option.any_eq_true _ _).mp hcheck
  simp only [decide_eq_true_eq] at hs
  have hfresh : Desk.NoActions 7 house.actions := fun n entry hentry => absurd hentry (by
    rw [show house.actions.entries = [] by decide +kernel]
    exact List.not_mem_nil)
  exact ⟨trace, s, run_of_perform hreplay, hs.1, hs.2,
    ((actionLog_faithful hfresh (run_of_perform hreplay) hs.1).1 1).1⟩

end Service

end PokerServer

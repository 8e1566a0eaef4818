import PokerServer.Domain.Reached
import PokerServer.Server.Refinement

/-!
# Timeouts and the table they were scheduled for

A timeout is written down with the sequence it waits for, the player and the action that player is
expected to lose the turn with. Until it runs, unfenced jobs may change the table. `Timely`: as long
as the first room of the table is open, a timeout that still has the table's sequence names the
acting player and the action the table would apply now.

`Move.roomChange` and `Move.carries` say what a move does to the room and where the timeouts of a
desk come from.
-/

namespace PokerServer

namespace Desk

variable {tableId : Nat} {ok : Prop} {d d' : Desk} {job : Option Job} {timeout : Timeout}
  {view : TableSnapshot}

/-! ## The room -/

/-- What a move does to the room. -/
inductive RoomChange (d d' : Desk) : Prop
  | same (table : d'.table = d.table) (rooms : d'.rooms = d.rooms)
  | served {t t' : Table} {e : TableError} (op : TableOp) (before : d.table = some t)
      (served : op.served = true) (exec : t.exec op = .ok (e, t')) (after : d'.table = some t')
      (rooms : d'.rooms = d.rooms)
      (sits : ∀ id seat buyIn, op = .seatPlayer id seat buyIn →
        ∃ request, d.job = some (.room (.seatPlayer request seat buyIn)) ∧ request.user = id)
  | closed (table : d'.table = none) (rooms : d.rooms ≤ d'.rooms)
  | opened (config : TableConfig) (before : d.table = none)
      (after : d'.table = some (Table.new config)) (rooms : d'.rooms = d.rooms + 1)

@[simp] theorem schedule_table (d : Desk) (view : TableSnapshot) :
    (d.schedule view).table = d.table := by
  unfold schedule
  split_ifs <;> rfl

@[simp] theorem schedule_rooms (d : Desk) (view : TableSnapshot) :
    (d.schedule view).rooms = d.rooms := by
  unfold schedule
  split_ifs <;> rfl

theorem roomChange_opened (config : TableConfig) (hd : d'.table = (d.opened config).table)
    (hrooms : d'.rooms = (d.opened config).rooms) : RoomChange d d' := by
  unfold Desk.opened at hd hrooms
  split_ifs at hd hrooms with hopen
  · exact .same hd hrooms
  · exact .opened config (Option.not_isSome_iff_eq_none.mp hopen) hd hrooms

theorem rooms_le_opened (d : Desk) (config : TableConfig) : d.rooms ≤ (d.opened config).rooms := by
  unfold Desk.opened
  split_ifs
  · exact Nat.le_refl _
  · exact Nat.le_succ _

theorem Move.roomChange (h : Move tableId ok d job d') : RoomChange d d' := by
  cases h with
  | rearm => exact .same (schedule_table _ _) (schedule_rooms _ _)
  | stored => exact .same (schedule_table _ _) (schedule_rooms _ _)
  | @connect rest user connected reason t t' e pending table call =>
    have hexec : t.exec (.setConnected user connected) = .ok (e, t') := by rw [← call]; rfl
    refine .served _ table rfl hexec ?_ ?_ nofun
    · split_ifs
      · exact schedule_table _ _
      · rfl
    · split_ifs
      · exact schedule_rooms _ _
      · rfl
  | @seat request seat stack t t' next job table call goes =>
    refine .served (.seatPlayer request.user seat stack) table rfl (congrArg _ call) rfl rfl ?_
    rintro _ _ _ ⟨⟩
    exact ⟨request, job, rfl⟩
  | @seatRefused request seat stack t t' e job table call refused =>
    refine .served (.seatPlayer request.user seat stack) table rfl (congrArg _ call) rfl rfl ?_
    rintro _ _ _ ⟨⟩
    exact ⟨request, job, rfl⟩
  | @ready request t t' next job table call deck goes =>
    exact .served (.setReady request.user true) table rfl (congrArg _ call) rfl rfl nofun
  | @notReady request ready t t' e extra job table call ends posts =>
    exact .served (.setReady request.user ready) table rfl (congrArg _ call) rfl rfl nofun
  | @start request deck t t' next job table call goes =>
    exact .served (.startHand deck) table rfl call rfl rfl nofun
  | @startRefused request deck t t' e extra job table call refused posts =>
    exact .served (.startHand deck) table rfl call rfl rfl nofun
  | accept job table asks call accepted =>
    exact .served _ table rfl (Table.exec_act call) rfl rfl nofun
  | @actRefused x t t' job acts table refused =>
    rcases refused with ⟨-, rfl⟩ | ⟨command, result, -, call, -⟩
    · exact .same table.symm rfl
    · exact .served _ table rfl (Table.exec_act call) rfl rfl nofun
  | @unready request t t' next job table call goes =>
    exact .served (.setReady request.user false) table rfl (congrArg _ call) rfl rfl nofun
  | @unreadyRefused request t t' e job table call refused =>
    exact .served (.setReady request.user false) table rfl (congrArg _ call) rfl rfl nofun
  | @remove request t t' e job table call =>
    exact .served (.removePlayer request.user) table rfl (congrArg _ call) rfl rfl nofun
  | seatLost => exact .closed rfl (Nat.le_refl _)
  | acceptLost => exact .closed rfl (Nat.le_refl _)
  | rollbackFailed => exact .closed rfl (Nat.le_refl _)
  | actionLost => exact .closed rfl (Nat.le_refl _)
  | settlementLost => exact .closed rfl (Nat.le_refl _)
  | @noBuyIn request seat buyIn record job found =>
    exact roomChange_opened record.config rfl rfl
  | @buyIn request seat buyIn record receipt reserved store job found call value =>
    exact roomChange_opened record.config rfl rfl
  | @buyInLost request seat buyIn record receipt reserved store d' job found call value sick ends =>
    rcases ends with rfl | rfl
    · exact roomChange_opened record.config rfl rfl
    · exact .closed rfl (rooms_le_opened d record.config)
  | _ => exact .same rfl rfl

/-! ## Where timeouts come from -/

/-- The timeout `scheduleTimeout` makes of a view. -/
structure Scheduled (view : TableSnapshot) (timeout : Timeout) : Prop where
  acting : view.actingPlayer = some timeout.player
  sequence : timeout.sequence = view.serverSequence
  action : timeout.action = Service.timeoutAction view timeout.player

/-- A timeout that is scheduled, posted to the room, or in hand. -/
def Carries (d : Desk) (timeout : Timeout) : Prop :=
  timeout ∈ d.timers ∨ .timeoutAudit timeout ∈ d.pending ∨
    d.job = some (.room (.onActionTimeout timeout))

/-- The view a timeout will be scheduled for once the action in hand is stored. -/
def Shows (d : Desk) (view : TableSnapshot) : Prop :=
  ∃ request action settlement, d.job = some (.storage (.storeAction request action settlement view))

/-- A view of the open table. -/
def Views (d : Desk) (view : TableSnapshot) : Prop :=
  ∃ t viewer, d.table = some t ∧ view = t.snapshot viewer

theorem schedule_timers (d : Desk) (h : timeout ∈ (d.schedule view).timers) :
    timeout ∈ d.timers ∨ Scheduled view timeout := by
  unfold schedule at h
  split_ifs at h with hold
  · exact Or.inl h
  · rcases List.mem_append.mp h with h | h
    · exact Or.inl h
    · rw [Option.mem_toList] at h
      obtain ⟨player, hplayer, rfl⟩ := Option.map_eq_some_iff.mp h
      exact Or.inr ⟨hplayer, rfl, rfl⟩

@[simp] theorem schedule_pending (d : Desk) (view : TableSnapshot) :
    (d.schedule view).pending = d.pending := by
  unfold schedule
  split_ifs <;> rfl

theorem schedule_latest (d : Desk) (view : TableSnapshot) :
    (d.schedule view).latest = d.latest ∨
      (d.schedule view).latest = some view.serverSequence := by
  unfold schedule
  split_ifs
  · exact Or.inl rfl
  · exact Or.inr rfl

theorem schedule_carries (h : (d.schedule view).Carries timeout) :
    d.Carries timeout ∨ Scheduled view timeout := by
  rcases h with h | h | h
  · exact (schedule_timers d h).imp_left Or.inl
  · rw [schedule_pending] at h
    exact Or.inl (Or.inr (Or.inl h))
  · rw [Service.schedule_job] at h
    exact Or.inl (Or.inr (Or.inr h))

/-- A desk whose timers and pending timeouts are those of another, and whose job is no timeout. -/
theorem Carries.of (h : d'.Carries timeout) (htimers : ∀ τ, τ ∈ d'.timers → τ ∈ d.timers)
    (hpending : ∀ τ, .timeoutAudit τ ∈ d'.pending → .timeoutAudit τ ∈ d.pending)
    (hjob : ∀ τ, d'.job = some (.room (.onActionTimeout τ)) → d.job = d'.job) :
    d.Carries timeout := by
  rcases h with h | h | h
  · exact Or.inl (htimers _ h)
  · exact Or.inr (Or.inl (hpending _ h))
  · exact Or.inr (Or.inr ((hjob _ h).trans h))

theorem opened_pending (d : Desk) (config : TableConfig) {x : RoomJob}
    (h : x ∈ (d.opened config).pending) : x ∈ d.pending := by
  unfold Desk.opened at h
  split_ifs at h
  · exact h
  · exact absurd h (by simp)

theorem opened_timers (d : Desk) (config : TableConfig) :
    (d.opened config).timers = d.timers := by
  unfold Desk.opened
  split_ifs <;> rfl

theorem opened_latest (d : Desk) (config : TableConfig) :
    (d.opened config).latest = d.latest := by
  unfold Desk.opened
  split_ifs <;> rfl

/-- **A timeout was carried before, or is scheduled now** for a view of the open table or for the
view that waited for the store. -/
theorem Move.carries (h : Move tableId ok d job d') (hc : d'.Carries timeout) :
    d.Carries timeout ∨ ∃ view, (d'.Views view ∨ d.Shows view) ∧ Scheduled view timeout := by
  cases h with
  | @rearm rest request t pending table =>
    rcases schedule_carries hc with hc | hs
    · refine Or.inl (hc.of (fun _ h => h) (fun _ h => ?_) (fun _ _ => rfl))
      rw [pending]
      exact List.mem_cons_of_mem _ h
    · exact Or.inr ⟨_, Or.inl ⟨t, _, by simpa using table, rfl⟩, hs⟩
  | @stored request action settlement view appended store store' job append done settle =>
    rcases schedule_carries hc with hc | hs
    · exact Or.inl (hc.of (fun _ h => h) (fun _ h => h) (fun _ h => absurd h (by simp)))
    · exact Or.inr ⟨view, Or.inr ⟨request, action, settlement, job⟩, hs⟩
  | @connect rest user connected reason t t' e pending table call =>
    have hkeep : ({ d with pending := rest, table := some t' } : Desk).Carries timeout →
        d.Carries timeout := by
      intro hc
      refine hc.of (fun _ h => h) (fun _ h => ?_) (fun _ _ => rfl)
      rw [pending]
      exact List.mem_cons_of_mem _ h
    split_ifs at hc with hok
    · rcases schedule_carries hc with hc | hs
      · exact Or.inl (hkeep hc)
      · refine Or.inr ⟨_, Or.inl ⟨t', some user, ?_, rfl⟩, hs⟩
        rw [if_pos hok]
        exact schedule_table _ _
    · exact Or.inl (hkeep hc)
  | post quiet notice room =>
    refine Or.inl (hc.of (fun _ h => h) (fun _ h => ?_) (fun _ _ => rfl))
    rcases List.mem_append.mp h with h | h
    · exact h
    · rw [List.mem_singleton] at h
      subst h
      exact absurd notice (by simp [RoomJob.notice])
  | take free opens room =>
    refine Or.inl (hc.of (fun _ h => h) (fun _ h => h) (fun _ h => ?_))
    rw [Option.some.injEq] at h
    subst h
    exact absurd opens (by simp [Job.Opens])
  | @fire fired index timer live room =>
    rcases hc with h | h | h
    · exact Or.inl (Or.inl (List.mem_of_mem_eraseIdx h))
    · rcases List.mem_append.mp h with h | h
      · exact Or.inl (Or.inr (Or.inl h))
      · rw [List.mem_singleton, RoomJob.timeoutAudit.injEq] at h
        subst h
        exact Or.inl (Or.inl (List.mem_of_getElem? timer))
    · exact Or.inl (Or.inr (Or.inr h))
  | expire timer dead =>
    exact Or.inl (hc.of (fun _ h => List.mem_of_mem_eraseIdx h) (fun _ h => h) (fun _ _ => rfl))
  | pass pending unfenced quiet =>
    refine Or.inl (hc.of (fun _ h => h) (fun _ h => ?_) (fun _ _ => rfl))
    rw [pending]
    exact List.mem_cons_of_mem _ h
  | @claim rest claimed t pending table sequence acting free =>
    rcases hc with h | h | h
    · exact Or.inl (Or.inl h)
    · exact Or.inl (Or.inr (Or.inl (pending ▸ List.mem_cons_of_mem _ h)))
    · simp only [Option.some.injEq, Job.room.injEq, RoomJob.onActionTimeout.injEq] at h
      subst h
      exact Or.inl (Or.inr (Or.inl (pending ▸ List.mem_cons_self)))
  | miss pending table reason =>
    refine Or.inl (hc.of (fun _ h => h) (fun _ h => ?_) (fun _ _ => rfl))
    rw [pending]
    exact List.mem_cons_of_mem _ h
  | _ =>
    -- no other move touches the timers, posts a timeout or takes one in hand
    exact Or.inl (hc.of (by grind [opened_timers, close]) (by grind [opened_pending, close])
      (by grind [Next, close]))

/-- The view that waits for the store was taken when the action was accepted. -/
theorem Move.shows (h : Move tableId ok d job d') (hv : d'.Shows view) :
    d.Shows view ∨ d'.Views view := by
  obtain ⟨request, action, settlement, hjob⟩ := hv
  cases h with
  | @accept x t t' command result job table asks call accepted =>
    simp only [Option.some.injEq, Job.storage.injEq, StorageJob.storeAction.injEq] at hjob
    exact Or.inr ⟨t', _, rfl, hjob.2.2.2.symm⟩
  | take free opens room =>
    rw [Option.some.injEq] at hjob
    subst hjob
    exact absurd opens (by simp [Job.Opens])
  | _ => exact Or.inl ⟨request, action, settlement, by grind [Next, close, Service.schedule_job]⟩

theorem Move.latest (h : Move tableId ok d job d') :
    d'.latest = d.latest ∨
      ∃ view, (d'.Views view ∨ d.Shows view) ∧ d'.latest = some view.serverSequence := by
  cases h with
  | @rearm rest request t pending table =>
    rcases schedule_latest { d with pending := rest } (t.snapshot (some request.user)) with h | h
    · exact Or.inl h
    · exact Or.inr ⟨_, Or.inl ⟨t, _, by simpa using table, rfl⟩, h⟩
  | @stored request action settlement view appended store store' job append done settle =>
    rcases schedule_latest { d with store := store', job := none } view with h | h
    · exact Or.inl h
    · exact Or.inr ⟨view, Or.inr ⟨request, action, settlement, job⟩, h⟩
  | @connect rest user connected reason t t' e pending table call =>
    split_ifs with hok
    · rcases schedule_latest { d with pending := rest, table := some t' }
        (t'.snapshot (some user)) with h | h
      · exact Or.inl h
      · exact Or.inr ⟨_, Or.inl ⟨t', some user, schedule_table _ _, rfl⟩, h⟩
    · exact Or.inl rfl
  | _ => exact Or.inl (by grind [opened_latest, close])

/-! ## Timeouts of the first room -/

variable {t t' : Table}

/-- What a timeout depends on is the same in every player's view. -/
theorem timeoutAction_snapshot (t : Table) (viewer : Option PlayerId) (player : PlayerId) :
    Service.timeoutAction (t.snapshot viewer) player =
      Service.timeoutAction (t.snapshot none) player := by
  unfold Service.timeoutAction Table.snapshot
  simp only [List.find?_map, Function.comp_def, Option.any_map]

theorem scheduled_snapshot {viewer : Option PlayerId} :
    Scheduled (t.snapshot viewer) timeout ↔ Scheduled (t.snapshot none) timeout := by
  refine ⟨fun h => ⟨h.acting, h.sequence, ?_⟩, fun h => ⟨h.acting, h.sequence, ?_⟩⟩
  · rw [← timeoutAction_snapshot t viewer]
    exact h.action
  · rw [timeoutAction_snapshot t viewer]
    exact h.action

/-- Somebody acts only after the table changed. -/
theorem sequence_pos_of_acting (ht : t.Reached) {viewer : Option PlayerId} {player : PlayerId}
    (h : (t.snapshot viewer).actingPlayer = some player) : 0 < t.serverSequence := by
  refine ht.sequence_pos fun hnone => ?_
  rw [show (t.snapshot viewer).actingPlayer = (t.actingSeat.bind t.seatAt).map (·.id) from rfl,
    hnone] at h
  exact absurd h (by simp)

/-- A timeout of an earlier state, or the one the table would schedule now. -/
def Dated (t : Table) (timeout : Timeout) : Prop :=
  0 < timeout.sequence ∧
    (timeout.sequence < t.serverSequence ∨ Scheduled (t.snapshot none) timeout)

/-- A view of an earlier state, or of the table as it is. -/
def DatedView (t : Table) (view : TableSnapshot) : Prop :=
  (∀ player, view.actingPlayer = some player → 0 < view.serverSequence) ∧
    (view.serverSequence < t.serverSequence ∨ ∃ viewer, view = t.snapshot viewer)

theorem dated_of_scheduled (ht : t.Reached) {viewer : Option PlayerId}
    (hs : Scheduled (t.snapshot viewer) timeout) : Dated t timeout :=
  ⟨hs.sequence ▸ sequence_pos_of_acting ht hs.acting, Or.inr (scheduled_snapshot.mp hs)⟩

theorem datedView_snapshot (ht : t.Reached) (viewer : Option PlayerId) :
    DatedView t (t.snapshot viewer) :=
  ⟨fun _ h => sequence_pos_of_acting ht h, Or.inr ⟨viewer, rfl⟩⟩

theorem DatedView.dated (h : DatedView t view) (hs : Scheduled view timeout) : Dated t timeout := by
  refine ⟨hs.sequence ▸ h.1 _ hs.acting, ?_⟩
  rcases h.2 with h | ⟨viewer, rfl⟩
  · exact Or.inl (hs.sequence ▸ h)
  · exact Or.inr (scheduled_snapshot.mp hs)

theorem Dated.exec {op : TableOp} {e : TableError} (h : Dated t timeout) (ht : t.Reached)
    (hop : t.exec op = .ok (e, t')) : Dated t' timeout := by
  rcases ht.counts hop with ⟨-, rfl⟩ | ⟨-, hlt⟩
  · exact h
  · refine ⟨h.1, Or.inl ?_⟩
    rcases h.2 with h | h
    · exact h.trans hlt
    · exact h.sequence ▸ hlt

theorem DatedView.exec {op : TableOp} {e : TableError} (h : DatedView t view) (ht : t.Reached)
    (hop : t.exec op = .ok (e, t')) : DatedView t' view := by
  rcases ht.counts hop with ⟨-, rfl⟩ | ⟨-, hlt⟩
  · exact h
  · refine ⟨h.1, Or.inl ?_⟩
    rcases h.2 with h | ⟨viewer, rfl⟩
    · exact h.trans hlt
    · exact hlt

/-- **While the first room is open, timeouts and views are of its past or of its present.** -/
structure Timely (d : Desk) : Prop where
  reached : ∀ t, d.table = some t → t.Reached
  dated : ∀ t timeout, d.table = some t → d.Carries timeout → Dated t timeout
  shown : ∀ t view, d.table = some t → d.Shows view → DatedView t view
  latest : ∀ t sequence, d.table = some t → d.latest = some sequence →
    sequence ≤ t.serverSequence
  unopened : d.rooms = 0 → d.table = none ∧ (∀ timeout, ¬ d.Carries timeout) ∧
    (∀ view, ¬ d.Shows view) ∧ d.latest = none

theorem RoomChange.rooms_le (h : RoomChange d d') : d.rooms ≤ d'.rooms := by
  cases h with
  | same _ h => omega
  | served _ _ _ _ _ h _ => omega
  | closed _ h => exact h
  | opened _ _ _ h => omega

/-- A property of the open table that operations keep, in the first room. -/
theorem RoomChange.keeps {P : Table → Prop} (h : RoomChange d d') (hfirst : d'.rooms ≤ 1)
    (hold : ∀ t, d.table = some t → P t)
    (hexec : ∀ t op e t', d.table = some t → op.served = true → t.exec op = .ok (e, t') →
      d'.table = some t' → P t → P t')
    (hnew : ∀ config, d.rooms = 0 → P (Table.new config)) :
    ∀ t', d'.table = some t' → P t' := by
  intro t' ht'
  cases h with
  | same htable _ => exact hold t' (htable ▸ ht')
  | @served t u e op hbefore hserved hop hafter _ _ =>
    obtain rfl := Option.some.inj (hafter.symm.trans ht')
    exact hexec t op e u hbefore hserved hop hafter (hold t hbefore)
  | closed htable _ => exact absurd ht' (by simp [htable])
  | opened config _ hafter hrooms =>
    obtain rfl := Option.some.inj (hafter.symm.trans ht')
    exact hnew config (by omega)

theorem Move.timely (h : Move tableId ok d job d') (hfirst : d'.rooms ≤ 1) (ht : d.Timely) :
    d'.Timely := by
  have hroom := h.roomChange
  have hreached : ∀ t, d'.table = some t → t.Reached :=
    hroom.keeps hfirst ht.reached (fun t op e t' _ _ hop _ hr => hr.exec hop)
      fun config _ => Table.reached_new config
  have hunopened : d.rooms = 0 → (∀ view, ¬ d.Shows view) ∧ ∀ timeout, ¬ d.Carries timeout :=
    fun h0 => ⟨(ht.unopened h0).2.2.1, (ht.unopened h0).2.1⟩
  refine ⟨hreached, ?_, ?_, ?_, ?_⟩
  · intro t' timeout ht' hc
    rcases h.carries hc with hc | ⟨view, hview | hview, hs⟩
    · exact hroom.keeps hfirst (P := fun t => Dated t timeout)
        (fun t htable => ht.dated t _ htable hc)
        (fun t op e t' htable _ hop _ hd => hd.exec (ht.reached t htable) hop)
        (fun config h0 => absurd hc ((hunopened h0).2 timeout)) t' ht'
    · obtain ⟨u, viewer, hu, rfl⟩ := hview
      obtain rfl := Option.some.inj (hu.symm.trans ht')
      exact dated_of_scheduled (hreached u ht') hs
    · exact hroom.keeps hfirst (P := fun t => Dated t timeout)
        (fun t htable => (ht.shown t view htable hview).dated hs)
        (fun t op e t' htable _ hop _ hd => hd.exec (ht.reached t htable) hop)
        (fun config h0 => absurd hview ((hunopened h0).1 view)) t' ht'
  · intro t' view ht' hv
    rcases h.shows hv with hv | ⟨u, viewer, hu, rfl⟩
    · exact hroom.keeps hfirst (P := fun t => DatedView t view)
        (fun t htable => ht.shown t view htable hv)
        (fun t op e t' htable _ hop _ hd => hd.exec (ht.reached t htable) hop)
        (fun config h0 => absurd hv ((hunopened h0).1 view)) t' ht'
    · obtain rfl := Option.some.inj (hu.symm.trans ht')
      exact datedView_snapshot (hreached u ht') viewer
  · intro t' sequence ht' hl
    have hmono (t : Table) (op : TableOp) (e : TableError) (t' : Table) (htable : d.table = some t)
        (hop : t.exec op = .ok (e, t')) (hle : sequence ≤ t.serverSequence) :
        sequence ≤ t'.serverSequence := hle.trans ((ht.reached t htable).sequence_le hop)
    rcases h.latest with hsame | ⟨view, hview | hview, hlatest⟩
    · rw [hsame] at hl
      exact hroom.keeps hfirst (P := fun t => sequence ≤ t.serverSequence)
        (fun t htable => ht.latest t sequence htable hl)
        (fun t op e t' htable _ hop _ hle => hmono t op e t' htable hop hle)
        (fun config h0 => absurd hl (by simp [(ht.unopened h0).2.2.2])) t' ht'
    · obtain ⟨u, viewer, hu, rfl⟩ := hview
      obtain rfl := Option.some.inj (hu.symm.trans ht')
      obtain rfl := Option.some.inj (hlatest.symm.trans hl)
      exact Nat.le_refl _
    · obtain rfl := Option.some.inj (hlatest.symm.trans hl)
      refine hroom.keeps hfirst (P := fun t => view.serverSequence ≤ t.serverSequence)
        (fun t htable => ?_)
        (fun t op e t' htable _ hop _ hle => hmono t op e t' htable hop hle)
        (fun config h0 => absurd hview ((hunopened h0).1 view)) t' ht'
      rcases (ht.shown t view htable hview).2 with hlt | ⟨viewer, rfl⟩
      · exact Nat.le_of_lt hlt
      · exact Nat.le_refl _
  · intro h0
    have hbefore : d.rooms = 0 := Nat.le_zero.mp (h0 ▸ hroom.rooms_le)
    obtain ⟨htable, hcarries, hshows, hlatest⟩ := ht.unopened hbefore
    have hnone : d'.table = none := by
      cases hroom with
      | same hsame _ => rw [hsame, htable]
      | served _ hsome _ _ _ _ _ => exact absurd hsome (by simp [htable])
      | closed hnone _ => exact hnone
      | opened _ _ _ hrooms => omega
    have hviews : ∀ view, ¬ d'.Views view := by
      rintro view ⟨t, -, ht', -⟩
      exact absurd ht' (by simp [hnone])
    refine ⟨hnone, fun timeout hc => ?_, fun view hv => ?_, ?_⟩
    · rcases h.carries hc with hc | ⟨view, hview | hview, -⟩
      · exact hcarries _ hc
      · exact hviews _ hview
      · exact hshows _ hview
    · rcases h.shows hv with hv | hv
      · exact hshows _ hv
      · exact hviews _ hv
    · rcases h.latest with hsame | ⟨view, hview | hview, -⟩
      · rw [hsame, hlatest]
      · exact absurd hview (hviews _)
      · exact absurd hview (hshows _)

theorem timely_init (tableId : Nat) (nodeId : String) (store : InMemoryGameStore) :
    (Service.init tableId nodeId store).desk.Timely where
  reached := fun t h => absurd h (by simp [Service.desk, Service.init])
  dated := fun t _ h => absurd h (by simp [Service.desk, Service.init])
  shown := fun t _ h => absurd h (by simp [Service.desk, Service.init])
  latest := fun t _ h => absurd h (by simp [Service.desk, Service.init])
  unopened := fun _ => by
    refine ⟨rfl, ?_, ?_, rfl⟩
    · rintro timeout (h | h | h)
      · exact absurd h (by simp [Service.desk, Service.init])
      · exact absurd h (by simp [Service.desk, Service.init, Service.waiting])
      · exact absurd h (by simp [Service.desk, Service.init, Service.holders])
    · rintro view ⟨_, _, _, h⟩
      exact absurd h (by simp [Service.desk, Service.init, Service.holders])

/-- A timeout that is not stale applies the action it was scheduled with. -/
theorem Timely.command (ht : d.Timely) (htable : d.table = some t) (hc : d.Carries timeout)
    {command : ActionCommand}
    (hcommand : (RoomJob.onActionTimeout timeout).command t = some command) :
    command.playerId = timeout.player ∧ command.type = timeout.action ∧ command.amount = 0 := by
  simp only [RoomJob.command] at hcommand
  split_ifs at hcommand with hstale
  obtain rfl := Option.some.inj hcommand
  refine ⟨rfl, ?_, rfl⟩
  have hdated := ht.dated t timeout htable hc
  simp only [Room.staleTimeout, Bool.or_eq_true, Bool.and_eq_true, bne_iff_ne, ne_eq, not_or,
    not_and, not_not] at hstale
  obtain ⟨hpos, hlt | hscheduled⟩ := hdated
  · have hsame : t.serverSequence = timeout.sequence := hstale.1 (by omega)
    omega
  · have hseen : Scheduled (t.snapshot (some timeout.player)) timeout :=
      scheduled_snapshot.mpr hscheduled
    exact hseen.action.symm

end Desk

end PokerServer

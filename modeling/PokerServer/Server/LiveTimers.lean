import PokerServer.Application.ActionTimeout
import PokerServer.Server.Timeouts

/-!
# The awaited player and its timer

While a hand waits for a player, some timeout with the table's sequence is scheduled, or something
that will schedule one is under way: a timeout that was posted to the room or is about to act, a
snapshot that re-arms, an action on its way to the store, a hand that is being recorded (`Guarded`).
`Move.live`: a move keeps this unless it is one of a few that drop the timeout and leave nobody
behind to renew it (`Spared` rules them out).

`Service.Loses` lists these steps of the service: a session that ends while its player sits at the
table, a timeout that finds the fence taken, a hand start the store refuses, and the executors or
the store failing a step that passes the timeout on.
-/

namespace PokerServer

/-- The table waits for a player. -/
def Table.Awaited (t : Table) : Prop := t.street.betting = true ∧ t.actingSeat ≠ none

instance (t : Table) : Decidable t.Awaited := inferInstanceAs (Decidable (_ ∧ _))

/-- The jobs that see to the next timeout. -/
def Job.renews : Job → Bool
  | .room (.onActionTimeout _) | .room (.startAudit _) | .storage (.beginHand ..)
  | .storage (.storeAction ..) => true
  | _ => false

/-- The jobs of a player who leaves: the table was idle when they were taken up. -/
def Job.leaves : Job → Bool
  | .storage (.cashOut _) | .room (.removePlayer _) => true
  | _ => false

namespace Table

variable {t t' : Table}

theorem Reached.awaiting (ht : t.Reached) (h : t.Awaited) : t.Awaiting := by
  obtain ⟨i, hi⟩ := Option.ne_none_iff_exists'.mp h.2
  rcases ht.inv_or with hinv | ⟨config, -, rfl⟩
  · exact hinv.awaiting_of_acting h.1 hi
  · exact absurd hi (by simp [Table.new])

/-- A hand that waits gets the check or fold of a timeout accepted. -/
theorem Awaiting.timeout_accepted (h : t.Awaiting) {player : PlayerId} {result : ActionResult}
    (hacting : (t.snapshot (some player)).actingPlayer = some player)
    (hcall : t.act (Room.timeoutCommand (t.snapshot (some player)) player) = .ok (result, t')) :
    result.error = .ok := by
  obtain ⟨i, hi, hawaits⟩ := h.asking
  obtain ⟨p, hp, -⟩ := awaits_iff.mp hawaits
  have hid : p.id = player := by
    have hseat : (t.actingSeat.bind t.seatAt).map (·.id) = some player := hacting
    rw [hi, Option.bind_some, hp, Option.map_some, Option.some.injEq] at hseat
    exact hseat
  subst hid
  rw [timeoutCommand_eq h.toBetting.seating hp] at hcall
  exact h.act_timeout hi hp hcall

end Table

namespace Desk

variable {tableId : Nat} {ok : Prop} {d d' : Desk} {job : Option Job} {t t' : Table}
  {view : TableSnapshot}

/-- **What sees to the awaited player of `t`.** -/
inductive Guarded (d : Desk) (t : Table) : Prop
  | timer {timeout : Timeout} (mem : timeout ∈ d.timers)
      (sequence : timeout.sequence = t.serverSequence) (latest : d.latest = some t.serverSequence)
  | audit {timeout : Timeout} (mem : .timeoutAudit timeout ∈ d.pending)
      (sequence : timeout.sequence = t.serverSequence)
  | rearm {request : Request} (mem : .currentSnapshot request true ∈ d.pending)
  | timeout {timeout : Timeout} (job : d.job = some (.room (.onActionTimeout timeout)))
      (sequence : timeout.sequence = t.serverSequence)
  | starting {request : Request} (job : d.job = some (.room (.startAudit request)))
  | recording {request : Request} {start : HandStartRecord}
      (job : d.job = some (.storage (.beginHand request start)))
  | storing {view : TableSnapshot} (shows : d.Shows view)
      (sequence : view.serverSequence = t.serverSequence)

/-- Who leaves does so between hands. -/
def Leaving (d : Desk) : Prop :=
  ∀ t j, d.table = some t → d.job = some j → j.leaves = true → handIsRunning t.street = false

structure Live (d : Desk) : Prop where
  guarded : ∀ t, d.table = some t → t.Awaited → d.Guarded t
  leaving : d.Leaving

/-- The move leaves the timeout of the awaited player of `t` in good hands. -/
structure Spared (ok : Prop) (d : Desk) (job : Option Job) (d' : Desk) (t : Table) : Prop where
  session : ∀ user connected, job = some (.room (.setConnected user connected .sessionEnd)) →
    t.Awaited → t.findPlayer user = none
  audit : ∀ timeout, job = some (.room (.timeoutAudit timeout)) → t.Awaited →
    timeout.sequence = t.serverSequence → d.job = none ∧ ok
  start : ∀ request deck t', job = some (.room (.startHand request deck)) →
    t.startHand deck.toDeck = .ok (.ok, t') → t'.Awaited → ok
  recorded : ∀ request, job = some (.room (.startAudit request)) → t.Awaited → ok
  begun : ∀ request start, job = some (.storage (.beginHand request start)) → t.Awaited →
    ok ∧ ((d.store.beginHand start).1 = .ok ∨ (d.store.beginHand start).1 = .duplicate)
  timer : ∀ timeout ∈ d.timers, job = none → timeout ∉ d'.timers → t.Awaited →
    timeout.sequence = t.serverSequence → ok

/-- A desk on which everything that may see to the player has somebody who still does. -/
theorem Guarded.hand (h : d.Guarded t)
    (htimer : ∀ timeout ∈ d.timers, timeout.sequence = t.serverSequence →
      d.latest = some t.serverSequence → d'.Guarded t)
    (haudit : ∀ timeout, .timeoutAudit timeout ∈ d.pending →
      timeout.sequence = t.serverSequence → d'.Guarded t)
    (hrearm : ∀ request, .currentSnapshot request true ∈ d.pending → d'.Guarded t)
    (hjob : ∀ j, d.job = some j → j.renews = true → d'.job = some j) : d'.Guarded t := by
  cases h with
  | timer mem sequence latest => exact htimer _ mem sequence latest
  | audit mem sequence => exact haudit _ mem sequence
  | rearm mem => exact hrearm _ mem
  | timeout job sequence => exact .timeout (hjob _ job rfl) sequence
  | starting job => exact .starting (hjob _ job rfl)
  | recording job => exact .recording (hjob _ job rfl)
  | storing shows sequence =>
    obtain ⟨request, action, settlement, job⟩ := shows
    exact .storing ⟨request, action, settlement, hjob _ job rfl⟩ sequence

/-- A desk that keeps the timers and the pending jobs, and the job in hand if that renews. -/
theorem Guarded.carry (h : d.Guarded t) (htimers : ∀ timeout ∈ d.timers, timeout ∈ d'.timers)
    (hlatest : d'.latest = d.latest) (hpending : ∀ x ∈ d.pending, x ∈ d'.pending)
    (hjob : ∀ j, d.job = some j → j.renews = true → d'.job = some j) : d'.Guarded t :=
  h.hand (fun _ mem sequence latest => .timer (htimers _ mem) sequence (hlatest.trans latest))
    (fun _ mem sequence => .audit (hpending _ mem) sequence)
    (fun _ mem => .rearm (hpending _ mem)) hjob

/-- `scheduleTimeout` for the table as it is. -/
theorem guarded_schedule {viewer : Option PlayerId} (ht : t.Reached) (hawaited : t.Awaited)
    (hlatest : ∀ sequence, d.latest = some sequence → sequence ≤ t.serverSequence) :
    (d.schedule (t.snapshot viewer)).Guarded t := by
  have hnotold : (d.latest.any fun latest =>
      decide ((t.snapshot viewer).serverSequence < latest)) = false := by
    cases hd : d.latest with
    | none => rfl
    | some latest =>
      have hle := hlatest latest hd
      exact decide_eq_false (by change ¬ t.serverSequence < latest; omega)
  obtain ⟨j, hj, hawaits⟩ := (ht.awaiting hawaited).asking
  obtain ⟨p, hp, -⟩ := Table.awaits_iff.mp hawaits
  have hacting : (t.snapshot viewer).actingPlayer = some p.id := by
    change (t.actingSeat.bind t.seatAt).map (·.id) = _
    rw [hj, Option.bind_some, hp, Option.map_some]
  have hscheduled : d.schedule (t.snapshot viewer) =
      { d with
        latest := some t.serverSequence
        timers := d.timers ++
          [⟨p.id, t.serverSequence, Service.timeoutAction (t.snapshot viewer) p.id⟩] } := by
    unfold schedule
    rw [hnotold, hacting]
    rfl
  rw [hscheduled]
  exact .timer (List.mem_append_right _ (List.mem_singleton.mpr rfl)) rfl rfl

/-- `scheduleTimeout` for a view of the past leaves the timeout of the present alone. -/
theorem Guarded.schedule (h : d.Guarded t) (hview : view.serverSequence ≤ t.serverSequence) :
    (d.schedule view).Guarded t := by
  have hold : ∀ timeout ∈ d.timers, timeout ∈ (d.schedule view).timers := by
    intro timeout hmem
    unfold Desk.schedule
    split_ifs
    · exact hmem
    · exact List.mem_append_left _ hmem
  have hjob : ∀ j, d.job = some j → j.renews = true → (d.schedule view).job = some j :=
    fun j hj _ => (Service.schedule_job d view).trans hj
  have hpending : ∀ x ∈ d.pending, x ∈ (d.schedule view).pending := fun x hx => by
    rw [schedule_pending]
    exact hx
  by_cases hcurrent : d.latest = some t.serverSequence
  · -- a newer view would be of the future, an older one changes nothing
    refine h.carry hold ?_ hpending hjob
    unfold Desk.schedule
    split_ifs with hlater
    · rfl
    · rw [hcurrent] at hlater ⊢
      simp only [Option.any_some, decide_eq_true_eq] at hlater
      change some view.serverSequence = _
      rw [Option.some.injEq]
      omega
  · exact h.hand (fun _ _ _ latest => absurd latest hcurrent)
      (fun _ mem sequence => .audit (hpending _ mem) sequence)
      (fun _ mem => .rearm (hpending _ mem)) hjob

/-- An awaited table is reached with its hand running. -/
theorem not_awaited_of_idle (h : handIsRunning t.street = false) : ¬ t.Awaited := fun hawaited => by
  rw [Street.running_of_betting hawaited.1] at h
  exact absurd h (by decide)

theorem setReady_idle {id : PlayerId} {ready : Bool} (ht : t.Reached)
    (h : t.setReady id ready = (.ok, t')) : handIsRunning t'.street = false := by
  have hop : t.exec (.setReady id ready) = .ok (.ok, t') := congrArg Except.ok h
  rcases Table.setReady_cases (ht.inv hop).seating h with ⟨hne, -⟩ | ⟨-, hidle, rfl⟩
  · exact absurd rfl hne
  · exact hidle

/-- Who leaves was at an idle table, and no hand starts while the fence is held. -/
theorem Move.leaving (h : Move tableId ok d job d') (ht : d.Timely) (hl : d.Leaving) :
    d'.Leaving := by
  intro t' j ht' hj hleaves
  cases h with
  | @connect rest user connected reason t u e pending table call =>
    have hbefore : d.job = some j := by
      split_ifs at hj
      · rwa [Service.schedule_job] at hj
      · exact hj
    have hafter : u = t' := by
      split_ifs at ht'
      · rw [schedule_table] at ht'
        exact Option.some.inj ht'
      · exact Option.some.inj ht'
    subst hafter
    rw [((ht.reached t table).setConnected call).2.1]
    exact hl t j table hbefore hleaves
  | rearm pending table =>
    rw [schedule_table] at ht'
    rw [Service.schedule_job] at hj
    exact hl t' j ht' hj hleaves
  | take free opens room =>
    rw [Option.some.injEq] at hj
    subst hj
    revert opens hleaves
    unfold Job.Opens Job.leaves
    split <;> simp
  | unready hand table call goes =>
    rw [← Option.some.inj ht']
    exact setReady_idle (ht.reached _ table) call
  | @cashOut request receipt store next hand call done goes =>
    exact hl t' _ ht' hand rfl
  | stored hand append done settle =>
    rw [Service.schedule_job] at hj
    exact absurd hj (by simp)
  | _ => grind [Job.leaves, Next, close, Leaving]

theorem mem_eraseIdx_of_ne {α : Type} {l : List α} {a b : α} {i : Nat} (ha : a ∈ l)
    (hb : l[i]? = some b) (hne : a ≠ b) : a ∈ l.eraseIdx i := by
  obtain ⟨k, hk, rfl⟩ := List.getElem_of_mem ha
  rw [List.mem_eraseIdx_iff_getElem]
  refine ⟨k, hk, ?_, rfl⟩
  rintro rfl
  rw [List.getElem?_eq_getElem hk, Option.some.injEq] at hb
  exact hne hb

/-- A timeout with the sequence of the awaited table names the player it waits for. -/
theorem Timely.acting (ht : d.Timely) (htable : d.table = some t) {timeout : Timeout}
    (hc : d.Carries timeout) (hsequence : timeout.sequence = t.serverSequence) :
    (t.snapshot none).actingPlayer = some timeout.player := by
  rcases (ht.dated t timeout htable hc).2 with hlt | hscheduled
  · omega
  · exact hscheduled.acting

/-! ## Move by move -/

theorem Guarded.fire (h : d.Guarded t) {fired : Timeout} {index : Nat}
    (live : d.latest = some fired.sequence) :
    Guarded { d with timers := d.timers.eraseIdx index,
                     pending := d.pending ++ [.timeoutAudit fired] } t := by
  refine h.hand (fun timeout _ _ latest => ?_)
    (fun _ mem sequence => .audit (List.mem_append_left _ mem) sequence)
    (fun _ mem => .rearm (List.mem_append_left _ mem)) fun j hj _ => hj
  refine .audit (List.mem_append_right _ (List.mem_singleton.mpr rfl)) ?_
  exact Option.some.inj (live.symm.trans latest)

theorem Guarded.expire (h : d.Guarded t) {fired : Timeout} {index : Nat}
    (timer : d.timers[index]? = some fired) (dead : d.latest ≠ some fired.sequence ∨ ¬ ok)
    (hok : ∀ timeout ∈ d.timers, timeout ∉ d.timers.eraseIdx index →
      timeout.sequence = t.serverSequence → ok) :
    Guarded { d with timers := d.timers.eraseIdx index } t := by
  refine h.hand (fun timeout mem sequence latest => ?_)
    (fun _ mem sequence => .audit mem sequence) (fun _ mem => .rearm mem) fun j hj _ => hj
  by_cases hstays : timeout ∈ d.timers.eraseIdx index
  · exact .timer hstays sequence latest
  · have hfired : timeout = fired := by
      by_contra hne
      exact hstays (mem_eraseIdx_of_ne mem timer hne)
    subst hfired
    rcases dead with hstale | hsick
    · exact absurd (by rw [latest, sequence]) hstale
    · exact absurd (hok timeout mem hstays sequence) hsick

/-- The room is done with a job that sees to nobody. -/
theorem Guarded.drop (h : d.Guarded t) {x : RoomJob} {rest : List RoomJob}
    (pending : d.pending = x :: rest)
    (haudit : ∀ timeout, x = .timeoutAudit timeout → timeout.sequence ≠ t.serverSequence)
    (hrearm : ∀ request, x ≠ .currentSnapshot request true) :
    Guarded { d with pending := rest } t := by
  have hkeep : ∀ y ∈ d.pending, y ≠ x → y ∈ rest := fun y hy hne => by
    rw [pending] at hy
    exact (List.mem_cons.mp hy).resolve_left hne
  refine h.hand (fun _ mem sequence latest => .timer mem sequence latest)
    (fun timeout mem sequence => .audit (hkeep _ mem ?_) sequence)
    (fun request mem => .rearm (hkeep _ mem ?_)) fun j hj _ => hj
  · exact fun heq => haudit timeout heq.symm sequence
  · exact fun heq => hrearm request heq.symm

theorem Guarded.connect {rest : List RoomJob} {user : UserId} {connected : Bool} {reason : Reason}
    {u : Table} {e : TableError} (ht : d.Timely) (hl : d.Live)
    (pending : d.pending = .setConnected user connected reason :: rest)
    (table : d.table = some t) (call : t.setConnected user connected = (e, u))
    (hsession : reason = .sessionEnd → t.Awaited → t.findPlayer user = none)
    (hawaited : u.Awaited) :
    Guarded (if e = .ok ∧ reason ≠ .sessionEnd then
        { d with pending := rest, table := some u }.schedule (u.snapshot (some user))
      else { d with pending := rest, table := some u }) u := by
  have hop : t.exec (.setConnected user connected) = .ok (e, u) := congrArg Except.ok call
  have hreached := ht.reached t table
  split_ifs with hok
  · refine guarded_schedule (hreached.exec hop) hawaited fun sequence hs => ?_
    exact (ht.latest t sequence table hs).trans (hreached.sequence_le hop)
  · -- nothing is scheduled, and the table is as it was: the player does not sit there
    obtain ⟨-, hstreet, hacting, -⟩ := hreached.setConnected call
    have hsame : u = t := by
      rcases hreached.counts hop with ⟨-, hsame⟩ | ⟨rfl, -⟩
      · exact hsame
      · have hend : reason = .sessionEnd := by
          by_contra hne
          exact hok ⟨rfl, hne⟩
        have hnone := hsession hend ⟨hstreet ▸ hawaited.1, hacting ▸ hawaited.2⟩
        unfold Table.setConnected at call
        rw [hnone] at call
        exact absurd (congrArg Prod.fst call) (by simp)
    subst hsame
    exact ((hl.guarded u table hawaited).drop pending (by simp) (by simp)).carry (fun _ h => h) rfl
      (fun _ h => h) fun j hj _ => hj

/-- The timeout that was posted for the awaited player is not missed. -/
theorem Guarded.miss {rest : List RoomJob} {missed : Timeout} (ht : d.Timely) (hl : d.Live)
    (pending : d.pending = .timeoutAudit missed :: rest) (table : d.table = some t)
    (reason : t.serverSequence ≠ missed.sequence ∨
      t.auditSnapshot.actingPlayer ≠ some missed.player ∨ d.job ≠ none ∨ ¬ ok)
    (hspared : missed.sequence = t.serverSequence → d.job = none ∧ ok) (hawaited : t.Awaited) :
    Guarded { d with pending := rest } t := by
  refine (hl.guarded t table hawaited).drop pending (fun timeout htimeout hsequence => ?_) (by simp)
  obtain rfl := RoomJob.timeoutAudit.inj htimeout
  obtain ⟨hfree, hok⟩ := hspared hsequence
  have hcarries : d.Carries missed := Or.inr (Or.inl (pending ▸ List.mem_cons_self))
  rcases reason with hseq | hacting | hheld | hsick
  · exact hseq hsequence.symm
  · exact hacting (ht.acting table hcarries hsequence)
  · exact hheld hfree
  · exact hsick hok

/-- A timeout in hand that is not stale is accepted. -/
theorem Timely.timeout_accepted (ht : d.Timely) {timeout : Timeout}
    (hand : d.job = some (.room (.onActionTimeout timeout))) (table : d.table = some t)
    (hsequence : timeout.sequence = t.serverSequence) (hawaited : t.Awaited) :
    ∃ command, (RoomJob.onActionTimeout timeout).command t = some command ∧
      ∀ result u, t.act command = .ok (result, u) → result.error = .ok := by
  have hacting : (t.snapshot (some timeout.player)).actingPlayer = some timeout.player :=
    ht.acting table (Or.inr (Or.inr hand)) hsequence
  refine ⟨Room.timeoutCommand (t.snapshot (some timeout.player)) timeout.player, ?_,
    fun result u hcall => ((ht.reached t table).awaiting hawaited).timeout_accepted hacting hcall⟩
  have hfresh : Room.staleTimeout (t.snapshot (some timeout.player)) timeout.player
      timeout.sequence = false := by
    unfold Room.staleTimeout
    rw [hacting, hsequence]
    simp [Table.snapshot]
  simp only [RoomJob.command, hfresh]
  rfl

theorem Guarded.refused {x : RoomJob} (ht : d.Timely) (hl : d.Live)
    (hand : d.job = some (.room x)) (hacts : x.acts = true) (table : d.table = some t)
    (refused : x.command t = none ∧ t' = t ∨ ∃ command result,
      x.command t = some command ∧ t.act command = .ok (result, t') ∧ result.error ≠ .ok)
    (hawaited : t'.Awaited) : Guarded { d with table := some t', job := none } t' := by
  have hsame : t' = t := by
    rcases refused with ⟨-, hsame⟩ | ⟨command, result, -, call, hne⟩
    · exact hsame
    · rcases (ht.reached t table).counts (Table.exec_act call) with ⟨-, hsame⟩ | ⟨hok, -⟩
      · exact hsame
      · exact absurd hok hne
  subst hsame
  cases hl.guarded t' table hawaited with
  | timer mem sequence latest => exact .timer mem sequence latest
  | audit mem sequence => exact .audit mem sequence
  | rearm mem => exact .rearm mem
  | timeout job sequence =>
    obtain rfl := Job.room.inj (Option.some.inj (hand.symm.trans job))
    obtain ⟨command, hcommand, haccepted⟩ := ht.timeout_accepted job table sequence hawaited
    rcases refused with ⟨hnone, -⟩ | ⟨_, result, hasks, call, hne⟩
    · exact absurd hcommand (by simp [hnone])
    · obtain rfl := Option.some.inj (hcommand.symm.trans hasks)
      exact absurd (haccepted _ _ call) hne
  | starting job =>
    obtain rfl := Job.room.inj (Option.some.inj (hand.symm.trans job))
    exact absurd hacts (by simp [RoomJob.acts])
  | recording job => exact absurd (hand.symm.trans job) (by simp)
  | storing shows sequence =>
    obtain ⟨_, _, _, job⟩ := shows
    exact absurd (hand.symm.trans job) (by simp)

/-- An operation goes on with a job that leaves the timeouts alone. -/
theorem Guarded.goOn (h : d.Guarded t) {x : Job} {extra : List RoomJob} (hand : d.job = some x)
    (hx : x.renews = false) (htimers : d'.timers = d.timers) (hlatest : d'.latest = d.latest)
    (hpending : d'.pending = d.pending ++ extra) : d'.Guarded t := by
  refine h.carry (fun _ hm => htimers ▸ hm) hlatest (fun y hy => ?_) fun j hj hrenews => ?_
  · rw [hpending]
    exact List.mem_append_left _ hy
  · rw [Option.some.inj (hand.symm.trans hj), hrenews] at hx
    exact absurd hx (by simp)

/-- The table moved on, so that the action in hand no longer sees to the player. -/
theorem Guarded.stored (h : d.Guarded t) {request : Option Request} {action : HandActionRecord}
    {settlement : Option HandSettlementRecord}
    (hand : d.job = some (.storage (.storeAction request action settlement view)))
    (hpast : view.serverSequence < t.serverSequence) (store : InMemoryGameStore) :
    Guarded { d with store := store, job := none } t := by
  cases h with
  | timer mem sequence latest => exact .timer mem sequence latest
  | audit mem sequence => exact .audit mem sequence
  | rearm mem => exact .rearm mem
  | timeout job sequence => exact absurd (hand.symm.trans job) (by simp)
  | starting job => exact absurd (hand.symm.trans job) (by simp)
  | recording job => exact absurd (hand.symm.trans job) (by simp)
  | storing shows sequence =>
    obtain ⟨_, _, _, job⟩ := shows
    have hsame := hand.symm.trans job
    simp only [Option.some.injEq, Job.storage.injEq, StorageJob.storeAction.injEq] at hsame
    obtain ⟨-, -, -, rfl⟩ := hsame
    omega

theorem refused_same (ht : t.Reached) {op : TableOp} {e : TableError}
    (h : t.exec op = .ok (e, t')) (he : e ≠ .ok) : t' = t := by
  rcases ht.counts h with ⟨-, hsame⟩ | ⟨hok, -⟩
  · exact hsame
  · exact absurd hok he

/-- An operation that is refused leaves the player to whoever saw to it. -/
theorem Live.unchanged (hl : d.Live) (ht : d.Timely) (table : d.table = some t) {op : TableOp}
    {e : TableError} (hop : t.exec op = .ok (e, t')) (he : e ≠ .ok) (hawaited : t'.Awaited) :
    d.Guarded t' := by
  obtain rfl := refused_same (ht.reached t table) hop he
  exact hl.guarded _ table hawaited

/-- Nobody is awaited at a table that was only just created. -/
theorem Live.opened (hl : d.Live) {config : TableConfig} (h : (d.opened config).table = some t)
    (hawaited : t.Awaited) : (d.opened config).Guarded t := by
  unfold Desk.opened at h ⊢
  split_ifs at h ⊢ with hopen
  · exact hl.guarded t h hawaited
  · obtain rfl := Option.some.inj h
    exact absurd hawaited.1 (by simp [Table.new, Street.betting])

/-- The room is done with a job that sees to nobody, or there is no room. -/
theorem Live.pass (hl : d.Live) {x : RoomJob} {rest : List RoomJob}
    (pending : d.pending = x :: rest) (quiet : d.table = none ∨ x.quiet = true)
    (table : d.table = some t) (hawaited : t.Awaited) :
    Guarded { d with pending := rest } t := by
  have hquiet : x.quiet = true := quiet.resolve_left fun hnone => absurd table (by simp [hnone])
  refine (hl.guarded t table hawaited).drop pending ?_ ?_
  · rintro timeout rfl
    exact absurd hquiet (by simp [RoomJob.quiet])
  · rintro request rfl
    exact absurd hquiet (by simp [RoomJob.quiet])

/-- A timer that was fired for nobody, or that a move spares. -/
theorem Live.expire (hl : d.Live) {fired : Timeout} {index : Nat}
    (timer : d.timers[index]? = some fired)
    (dead : d.latest ≠ some fired.sequence ∨ d.table = none ∨ ¬ ok) (table : d.table = some t)
    (hspared : Spared ok d none { d with timers := d.timers.eraseIdx index } t)
    (hawaited : t.Awaited) : Guarded { d with timers := d.timers.eraseIdx index } t := by
  refine (hl.guarded t table hawaited).expire timer ?_ fun timeout mem hgone hsequence =>
    hspared.timer timeout mem rfl hgone hawaited hsequence
  rcases dead with hstale | hnone | hsick
  · exact Or.inl hstale
  · exact absurd table (by simp [hnone])
  · exact Or.inr hsick

/-- **A move that spares the awaited player leaves somebody to see to it.** -/
theorem Move.guarded (h : Move tableId ok d job d') (ht : d.Timely) (hl : d.Live)
    (hspared : ∀ t, d.table = some t → Spared ok d job d' t) :
    ∀ t, d'.table = some t → t.Awaited → d'.Guarded t := by
  intro t' ht' hawaited
  cases h with
  | stay quiet => exact hl.guarded t' ht' hawaited
  | post quiet notice room =>
    exact (hl.guarded t' ht' hawaited).carry (fun _ h => h) rfl
      (fun x hx => List.mem_append_left _ hx) fun j hj _ => hj
  | take free opens room =>
    refine (hl.guarded t' ht' hawaited).carry (fun _ h => h) rfl (fun _ h => h) fun j hj _ => ?_
    exact absurd hj (by simp [free])
  | fire timer live room => exact (hl.guarded t' ht' hawaited).fire live
  | expire timer dead => exact hl.expire timer dead ht' (hspared t' ht') hawaited
  | refund =>
    exact (hl.guarded t' ht' hawaited).carry (fun _ h => h) rfl (fun _ h => h) fun j hj _ => hj
  | pass pending unfenced quiet => exact hl.pass pending quiet ht' hawaited
  | @rearm rest request t pending table =>
    rw [schedule_table] at ht'
    obtain rfl := Option.some.inj (table.symm.trans ht')
    exact guarded_schedule (ht.reached t table) hawaited (ht.latest t · table)
  | @connect rest user connected reason t u e pending table call =>
    have hafter : u = t' := by
      split_ifs at ht'
      · rw [schedule_table] at ht'
        exact Option.some.inj ht'
      · exact Option.some.inj ht'
    subst hafter
    refine Guarded.connect ht hl pending table call (fun hend => ?_) hawaited
    subst hend
    exact (hspared t table).session user connected rfl
  | claim pending table sequence acting free =>
    obtain rfl := Option.some.inj (table.symm.trans ht')
    exact .timeout rfl sequence.symm
  | miss pending table reason =>
    obtain rfl := Option.some.inj (table.symm.trans ht')
    exact Guarded.miss ht hl pending table reason
      ((hspared _ table).audit _ rfl hawaited) hawaited
  | @seat request seat stack t u next hand table call goes =>
    obtain rfl := Option.some.inj ht'
    rcases Table.seatPlayer_cases call with ⟨hne, -⟩ | ⟨-, hidle, -, -, -, rfl⟩
    · exact absurd rfl hne
    · exact absurd hawaited (not_awaited_of_idle hidle)
  | @seatRefused request seat stack t u e hand table call refused =>
    obtain rfl := Option.some.inj ht'
    have hop : t.exec (.seatPlayer request.user seat stack) = .ok (e, _) := congrArg Except.ok call
    exact (hl.unchanged ht table hop refused hawaited).goOn hand rfl rfl rfl
      (List.append_nil _).symm
  | seated hand =>
    exact (hl.guarded t' ht' hawaited).goOn hand rfl rfl rfl (List.append_nil _).symm
  | ready hand table call deck goes =>
    obtain rfl := Option.some.inj ht'
    exact absurd hawaited (not_awaited_of_idle (setReady_idle (ht.reached _ table) call))
  | @notReady request ready t u e extra hand table call ends posts =>
    obtain rfl := Option.some.inj ht'
    by_cases he : e = .ok
    · subst he
      exact absurd hawaited (not_awaited_of_idle (setReady_idle (ht.reached _ table) call))
    · have hop : t.exec (.setReady request.user ready) = .ok (e, _) := congrArg Except.ok call
      exact (hl.unchanged ht table hop he hawaited).goOn hand rfl rfl rfl rfl
  | @start request deck t u next hand table call goes =>
    obtain rfl := Option.some.inj ht'
    rcases goes with rfl | ⟨-, hsick⟩
    · exact .starting rfl
    · exact absurd ((hspared t table).start request deck _ hand call hawaited) hsick
  | @startRefused request deck t u e extra hand table call refused posts =>
    obtain rfl := Option.some.inj ht'
    have hop : t.exec (.startHand deck) = .ok (e, _) := call
    exact (hl.unchanged ht table hop refused hawaited).goOn hand rfl rfl rfl rfl
  | audit hand table =>
    exact .recording rfl
  | auditLost hand sick posts =>
    exact absurd ((hspared t' ht').recorded _ hand hawaited) sick
  | accept hand table asks call accepted =>
    obtain rfl := Option.some.inj ht'
    exact .storing ⟨_, _, _, rfl⟩ rfl
  | actRefused hand acts table refused =>
    obtain rfl := Option.some.inj ht'
    exact Guarded.refused ht hl hand acts table refused hawaited
  | unready hand table call goes =>
    obtain rfl := Option.some.inj ht'
    exact absurd hawaited (not_awaited_of_idle (setReady_idle (ht.reached _ table) call))
  | @unreadyRefused request t u e hand table call refused =>
    obtain rfl := Option.some.inj ht'
    have hop : t.exec (.setReady request.user false) = .ok (e, _) := congrArg Except.ok call
    exact (hl.unchanged ht table hop refused hawaited).goOn hand rfl rfl rfl
      (List.append_nil _).symm
  | @remove request t u e hand table call =>
    obtain rfl := Option.some.inj ht'
    have hidle := hl.leaving t _ table hand rfl
    have hstreet : u.street = t.street := by
      rcases Table.removePlayer_cases call with ⟨-, rfl⟩ | ⟨_, _, -, -, -, -, rfl⟩ <;> rfl
    exact absurd hawaited (not_awaited_of_idle (hstreet ▸ hidle))
  | noSeat hand =>
    exact (hl.guarded t' ht' hawaited).goOn hand rfl rfl rfl (List.append_nil _).symm
  | noBuyIn hand found | buyIn hand found call value =>
    exact (hl.opened ht' hawaited).goOn ((Service.opened_job _ _).trans hand) rfl rfl rfl
      (List.append_nil _).symm
  | buyInLost hand found call value sick ends =>
    rcases ends with rfl | rfl
    · exact (hl.opened ht' hawaited).goOn ((Service.opened_job _ _).trans hand) rfl rfl rfl
        (List.append_nil _).symm
    · exact absurd ht' (by simp [close])
  | rollback hand call done =>
    exact (hl.guarded t' ht' hawaited).goOn hand rfl rfl rfl (List.append_nil _).symm
  | handBegun hand call done posts =>
    rcases posts with rfl | ⟨-, hnone | hsick⟩
    · exact .rearm (List.mem_append_right _ (List.mem_singleton.mpr rfl))
    · exact absurd ht' (by simp [hnone])
    · exact absurd ((hspared t' ht').begun _ _ hand hawaited).1 hsick
  | handNotBegun hand call failed posts =>
    obtain ⟨hok, hbegun⟩ := (hspared t' ht').begun _ _ hand hawaited
    rw [call] at hbegun
    rcases failed with ⟨hne, hne'⟩ | hsick
    · exact absurd hbegun (by simp [hne, hne'])
    · exact absurd hok hsick
  | @stored request action settlement view appended store store' hand append done settle =>
    rw [schedule_table] at ht'
    have hview := ht.shown t' view ht' ⟨request, action, settlement, hand⟩
    rcases hview.2 with hpast | ⟨viewer, rfl⟩
    · exact ((hl.guarded t' ht' hawaited).stored hand hpast store').schedule hpast.le
    · exact guarded_schedule (ht.reached t' ht') hawaited (ht.latest t' · ht')
  | cashOut hand call done goes =>
    exact (hl.guarded t' ht' hawaited).goOn hand rfl rfl rfl (List.append_nil _).symm
  | noCashOut hand call failed =>
    exact (hl.guarded t' ht' hawaited).goOn hand rfl rfl rfl (List.append_nil _).symm
  | seatLost | acceptLost | rollbackFailed | actionLost | settlementLost =>
    exact absurd ht' (by simp [close])

theorem Move.live (h : Move tableId ok d job d') (ht : d.Timely) (hl : d.Live)
    (hspared : ∀ t, d.table = some t → Spared ok d job d' t) : d'.Live :=
  ⟨h.guarded ht hl hspared, h.leaving ht hl.leaving⟩

end Desk

/-! ## Steps of the service -/

namespace Service

variable {tableId : Nat} {nodeId : String} {store : InMemoryGameStore} {s u v : Service} {env : Env}
  {event : Event} {trace : List (Step Service (Event × Env))} {t : Table}

/-- **The steps that drop the timeout of the awaited player.** `t` is the table before the step. -/
inductive Loses (s : Service) (t : Table) : Event × Env → Prop
  /- `LOGOUT_REQUEST` or an expired session: the sequence counts up and nothing is scheduled. -/
  | session {env user connected}
      (runs : s.runs .room = some (.room (.setConnected user connected .sessionEnd)))
      (awaited : t.Awaited) (seated : t.findPlayer user ≠ none) : Loses s t (.room, env)
  /- A timeout finds the fence taken by another operation, or no place in the executor. -/
  | audit {env timeout} (runs : s.runs .room = some (.room (.timeoutAudit timeout)))
      (awaited : t.Awaited) (current : timeout.sequence = t.serverSequence)
      (fails : s.fence = true ∨ env.roomAccepts = false) : Loses s t (.room, env)
  /- A hand that was started is not recorded, and `abortHand` without a callback leaves it. -/
  | begun {env index request start} (runs : s.storage[index]? = some (.beginHand request start))
      (awaited : t.Awaited)
      (fails : (s.store.beginHand start).1 ≠ .ok ∧ (s.store.beginHand start).1 ≠ .duplicate ∨
        env.available .beginHand = false ∨ env.roomAccepts = false) :
      Loses s t (.storage index, env)
  /- A full executor on the way of a timeout or of a hand that starts. -/
  | start {env request deck t'} (runs : s.runs .room = some (.room (.startHand request deck)))
      (starts : t.startHand deck.toDeck = .ok (.ok, t')) (awaited : t'.Awaited)
      (full : env.roomAccepts = false) : Loses s t (.room, env)
  | recorded {env request} (runs : s.runs .room = some (.room (.startAudit request)))
      (awaited : t.Awaited) (full : env.storageAccepts = false) : Loses s t (.room, env)
  | timer {env index timeout} (runs : s.timers[index]? = some timeout) (awaited : t.Awaited)
      (current : timeout.sequence = t.serverSequence) (full : env.roomAccepts = false) :
      Loses s t (.timer index, env)

/-- The same environment with everything going well. -/
def heal (env : Env) : Env :=
  { env with roomAccepts := true, storageAccepts := true, available := fun _ => true }

theorem heal_healthy (env : Env) : (heal env).Healthy := ⟨rfl, rfl, fun _ => rfl⟩

/-! ### Timers of requests -/

theorem retryRefund_timers (s : Service) (attempt : Nat) :
    (s.retryRefund attempt).timers = s.timers := by
  unfold retryRefund
  split_ifs <;> rfl

theorem abort_timers (env : Env) (attempt : Bool) (s : Service) :
    (s.abortTableAndNotify env attempt).timers = s.timers := by
  unfold abortTableAndNotify askStore
  dsimp only
  split_ifs <;> rfl

theorem failed_timers (env : Env) (job : RoomJob) (s : Service) :
    (s.failed env job).timers = s.timers := by
  have habort : (s.postAbortHand env).timers = s.timers := by
    unfold postAbortHand
    split_ifs <;> rfl
  cases job with
  | seatPlayer request seat stack =>
    unfold failed
    dsimp only
    split_ifs
    · rfl
    · exact abort_timers env false s
  | startAudit request => exact habort
  | setConnected user connected reason => cases reason <;> rfl
  | _ => rfl

theorem postRoom_timers (env : Env) (job : RoomJob) (s : Service) :
    (s.postRoom env job).timers = s.timers := by
  unfold postRoom
  split_ifs
  · rfl
  · exact failed_timers env job s

theorem dispatch_timers (env : Env) (request : Request) (body : Body) (s : Service) :
    (s.dispatch env request body).timers = s.timers := by
  cases body with
  | logout =>
    unfold dispatch
    dsimp only
    split_ifs <;> rfl
  | sitDown seat buyIn =>
    unfold dispatch
    dsimp only
    split_ifs <;> rfl
  | snapshot => exact postRoom_timers _ _ _
  | reconnect => exact postRoom_timers _ _ _
  | ready | action | leave =>
    unfold dispatch
    dsimp only
    split_ifs
    · rfl
    · exact postRoom_timers _ _ _

theorem handle_timers (env : Env) (conn requestId clientSequence : Nat) (expired : Bool)
    (body : Body) (s : Service) :
    (s.handle env conn requestId clientSequence expired body).timers = s.timers := by
  unfold handle
  dsimp only
  cases (s.sessions conn).userId with
  | none => split_ifs <;> rfl
  | some user =>
    dsimp only
    split_ifs
    · rfl
    · exact postRoom_timers _ _ _
    · rfl
    · exact dispatch_timers _ _ _ _
    · rfl

theorem authenticate_timers (conn : Nat) (user : Option UserId) (expired : Bool) (s : Service) :
    (s.authenticate conn user expired).timers = s.timers := by
  unfold authenticate
  dsimp only
  split_ifs
  · rfl
  · cases user <;> rfl
  · cases user <;> rfl

theorem onDisconnect_timers (env : Env) (conn : Nat) (s : Service) :
    (s.onDisconnect env conn).timers = s.timers := by
  unfold onDisconnect
  dsimp only
  split
  · exact postRoom_timers _ _ _
  · rfl

theorem fireRefund_timers (env : Env) (attempt : Nat) (s : Service) :
    (s.fireRefund env attempt).timers = s.timers := by
  unfold fireRefund
  split_ifs
  · rfl
  · exact retryRefund_timers _ _

theorem fireTimeout_timers (env : Env) (timeout : Timeout) (s : Service) :
    (s.fireTimeout env timeout).timers = s.timers := by
  unfold fireTimeout
  split_ifs
  · exact postRoom_timers _ _ _
  · rfl

/-! ### Steps that find everything well -/

theorem postRoom_heal {job : RoomJob} (haccepts : env.roomAccepts = true)
    (hfailed : ∀ s : Service, s.failed env job = s.failed (heal env) job) (s : Service) :
    s.postRoom env job = s.postRoom (heal env) job := by
  unfold postRoom
  rw [haccepts, hfailed]
  rfl

theorem postAbortHand_heal (haccepts : env.roomAccepts = true) (s : Service) :
    s.postAbortHand env = s.postAbortHand (heal env) := by
  unfold postAbortHand
  rw [haccepts]
  rfl

/-- A room task whose callback goes as it does when everything is well. -/
theorem runRoom_heal {task : RoomTask} {queue : List RoomTask} (hq : s.queue = task :: queue)
    (hcallback : ∀ (reply : Reply) (room : Room) (w : Service),
      Room.run task.job.call task.job.callback (s.capturedRoom task) = .ok (some reply, room) →
      w.callback env task.job reply = w.callback (heal env) task.job reply) :
    s.runRoom env = s.runRoom (heal env) := by
  unfold runRoom
  rw [hq]
  dsimp only
  cases hrun : Room.run task.job.call task.job.callback (s.capturedRoom task) with
  | error fault => rfl
  | ok result =>
    obtain ⟨reply, room⟩ := result
    cases reply with
    | none => rfl
    | some reply => exact congrArg some (hcallback reply room _ hrun)

theorem timeoutAudit_heal {timeout : Timeout} (haccepts : env.roomAccepts = true) (reply : Reply)
    (w : Service) : w.callback env (.timeoutAudit timeout) reply =
      w.callback (heal env) (.timeoutAudit timeout) reply := by
  unfold callback
  cases reply with
  | error error => rfl
  | action result view audit => rfl
  | snapshot error current =>
    dsimp only
    split_ifs
    · rfl
    · rfl
    · exact postRoom_heal haccepts (fun _ => rfl) _

theorem startHand_heal {request : Request} {deck : FullDeck} (haccepts : env.roomAccepts = true)
    (reply : Reply) (w : Service) : w.callback env (.startHand request deck) reply =
      w.callback (heal env) (.startHand request deck) reply := by
  unfold callback
  cases reply with
  | snapshot error view => rfl
  | action result view audit => rfl
  | error error =>
    dsimp only
    split_ifs
    · refine postRoom_heal haccepts (fun s => ?_) _
      unfold failed
      rw [postAbortHand_heal haccepts]
    · exact postRoom_heal haccepts (fun _ => rfl) _
    · rfl

theorem startAudit_heal {request : Request} (haccepts : env.storageAccepts = true)
    (view : TableSnapshot) (w : Service) :
    w.callback env (.startAudit request) (.snapshot .ok view) =
      w.callback (heal env) (.startAudit request) (.snapshot .ok view) := by
  unfold callback
  simp only [ne_eq, not_true_eq_false, if_false, haccepts]
  rfl

theorem beginHand_heal {request : Request} {start : HandStartRecord}
    (havailable : env.available .beginHand = true) (haccepts : env.roomAccepts = true)
    (w : Service) : w.runStorage env (.beginHand request start) =
      w.runStorage (heal env) (.beginHand request start) := by
  have hpost (w : Service) : w.postRoom env (.currentSnapshot request true) =
      w.postRoom (heal env) (.currentSnapshot request true) :=
    postRoom_heal haccepts (fun _ => rfl) w
  unfold runStorage askStore
  simp only [havailable, if_true, hpost, postAbortHand_heal haccepts]
  rfl

theorem fireTimeout_heal {timeout : Timeout} (haccepts : env.roomAccepts = true) (w : Service) :
    w.fireTimeout env timeout = w.fireTimeout (heal env) timeout := by
  unfold fireTimeout
  split_ifs
  · exact postRoom_heal haccepts (fun _ => rfl) _
  · rfl

/-! ### A step that loses no timeout -/

theorem Rests.free {d : Desk} (h : u.Rests tableId d) (hfence : u.fence = false) :
    d.job = none := by
  rw [← Option.not_isSome_iff_eq_none, ← h.fence, hfence]
  decide

/-- A step that keeps the scheduled timeouts and runs no job. -/
theorem spared_of_kept {ok : Prop} {d d' : Desk}
    (hkept : ∀ timeout ∈ d.timers, timeout ∈ d'.timers) (t : Table) :
    Desk.Spared ok d none d' t where
  session := fun _ _ h => absurd h (by simp)
  audit := fun _ h => absurd h (by simp)
  start := fun _ _ _ h => absurd h (by simp)
  recorded := fun _ h => absurd h (by simp)
  begun := fun _ _ h => absurd h (by simp)
  timer := fun timeout hmem _ hgone => absurd (hkept timeout hmem) hgone

/-- The step is a move that spares the awaited player. Where it goes as it does when everything is
well, it is taken for a step on which everything is well. -/
def Spares (u : Service) (event : Event) (v : Service) : Prop :=
  ∃ env, u.step (event, env) = some v ∧
    ∀ t, u.room = some t → Desk.Spared env.Healthy u.desk (u.runs event) v.desk t

/-- A step of a request, a connection or a refund. -/
theorem spares_of_timers (hstep : u.step (event, env) = some v) (hruns : u.runs event = none)
    (htimers : v.timers = u.timers) : u.Spares event v := by
  refine ⟨env, hstep, fun t _ => ?_⟩
  rw [hruns]
  refine spared_of_kept (fun timeout hmem => ?_) t
  change timeout ∈ v.timers
  rw [htimers]
  exact hmem

theorem runRoom_spares (hrests : u.Rests tableId u.desk) (hstep : u.runRoom env = some v)
    (hkeeps : ∀ t, u.room = some t → ¬ u.Loses t (.room, env)) : u.Spares .room v := by
  obtain ⟨task, queue, reply, room, hq, hrun, -⟩ := runRoom_cases hstep
  have hruns : u.runs .room = some (.room task.job) := by simp [Service.runs, hq]
  -- by default the step is taken as it is
  have hasis (hwell : ∀ t, u.room = some t → Desk.Spared env.Healthy u.desk
      (some (.room task.job)) v.desk t) : u.Spares .room v :=
    ⟨env, hstep, fun t ht => by rw [hruns]; exact hwell t ht⟩
  have hhealed (hsame : u.runRoom env = u.runRoom (heal env))
      (hwell : ∀ t, u.room = some t → Desk.Spared (heal env).Healthy u.desk
        (some (.room task.job)) v.desk t) : u.Spares .room v :=
    ⟨heal env, hsame.symm.trans hstep, fun t ht => by rw [hruns]; exact hwell t ht⟩
  cases hjob : task.job with
  | timeoutAudit timeout =>
    rw [hjob] at hruns hasis hhealed
    by_cases haccepts : env.roomAccepts = true
    · refine hhealed (runRoom_heal hq fun reply _ w _ => ?_) fun t ht => ?_
      · rw [hjob]
        exact timeoutAudit_heal haccepts reply w
      · refine ⟨by simp, ?_, by simp, by simp, by simp, by simp⟩
        rintro timeout ⟨⟩ hawaited hcurrent
        refine ⟨hrests.free ?_, heal_healthy env⟩
        rw [← Bool.not_eq_true]
        exact fun hfence => hkeeps t ht (.audit hruns hawaited hcurrent (Or.inl hfence))
    · refine hasis fun t ht => ⟨by simp, ?_, by simp, by simp, by simp, by simp⟩
      rintro timeout ⟨⟩ hawaited hcurrent
      rw [Bool.not_eq_true] at haccepts
      exact absurd (.audit hruns hawaited hcurrent (Or.inr haccepts)) (hkeeps t ht)
  | startHand request deck =>
    rw [hjob] at hruns hasis hhealed
    by_cases haccepts : env.roomAccepts = true
    · refine hhealed (runRoom_heal hq fun reply _ w _ => ?_) fun t ht => ?_
      · rw [hjob]
        exact startHand_heal haccepts reply w
      · refine ⟨by simp, by simp, ?_, by simp, by simp, by simp⟩
        exact fun _ _ _ _ _ _ => heal_healthy env
    · refine hasis fun t ht => ⟨by simp, by simp, ?_, by simp, by simp, by simp⟩
      rintro request deck t' ⟨⟩ hstarts hawaited
      rw [Bool.not_eq_true] at haccepts
      exact absurd (.start hruns hstarts hawaited haccepts) (hkeeps t ht)
  | startAudit request =>
    rw [hjob] at hruns hasis hhealed
    by_cases haccepts : env.storageAccepts = true
    · refine hhealed (runRoom_heal hq fun reply room w hreply => ?_) fun t ht => ?_
      · obtain ⟨hroom, hsome⟩ := hrests.agrees.current task (hq ▸ List.mem_cons_self)
          (by rw [hjob]; rfl)
        rw [hjob] at hreply ⊢
        obtain ⟨t, ht⟩ := Option.isSome_iff_exists.mp hsome
        have hopen : (u.capturedRoom task).closed = false := by
          simp [capturedRoom, ht, hroom]
        simp only [RoomJob.call, RoomJob.callback, Room.run, Room.viewTask, hopen,
          Bool.false_eq_true, if_false, Except.ok.injEq] at hreply
        obtain rfl := Option.some.inj (congrArg Prod.fst hreply)
        exact startAudit_heal haccepts _ w
      · refine ⟨by simp, by simp, by simp, ?_, by simp, by simp⟩
        exact fun _ _ _ => heal_healthy env
    · refine hasis fun t ht => ⟨by simp, by simp, by simp, ?_, by simp, by simp⟩
      rintro request ⟨⟩ hawaited
      rw [Bool.not_eq_true] at haccepts
      exact absurd (.recorded hruns hawaited haccepts) (hkeeps t ht)
  | setConnected user connected reason =>
    rw [hjob] at hruns hasis
    refine hasis fun t ht => ⟨?_, by simp, by simp, by simp, by simp, by simp⟩
    rintro user connected ⟨⟩ hawaited
    by_contra hseated
    exact hkeeps t ht (.session hruns hawaited hseated)
  | _ =>
    rw [hjob] at hasis
    exact hasis fun t ht => ⟨by simp, by simp, by simp, by simp, by simp, by simp⟩

theorem storage_spares {index : Nat} (hstep : u.step (.storage index, env) = some v)
    (hkeeps : ∀ t, u.room = some t → ¬ u.Loses t (.storage index, env)) :
    u.Spares (.storage index) v := by
  obtain ⟨job, hget, hv⟩ := Option.map_eq_some_iff.mp hstep
  have hruns : u.runs (.storage index) = some (.storage job) := by simp [Service.runs, hget]
  cases job with
  | beginHand request start =>
    by_cases hwell : env.available .beginHand = true ∧ env.roomAccepts = true
    · refine ⟨heal env, ?_, fun t ht => ?_⟩
      · rw [beginHand_heal hwell.1 hwell.2] at hv
        exact Option.map_eq_some_iff.mpr ⟨_, hget, hv⟩
      · rw [hruns]
        refine ⟨by simp, by simp, by simp, by simp, ?_, by simp⟩
        rintro request start ⟨⟩ hawaited
        refine ⟨heal_healthy env, ?_⟩
        by_contra hrefused
        rw [not_or] at hrefused
        exact hkeeps t ht (.begun hget hawaited (Or.inl hrefused))
    · refine ⟨env, hstep, fun t ht => ?_⟩
      rw [hruns]
      refine ⟨by simp, by simp, by simp, by simp, ?_, by simp⟩
      rintro request start ⟨⟩ hawaited
      rw [not_and_or, Bool.not_eq_true, Bool.not_eq_true] at hwell
      exact absurd (.begun hget hawaited (Or.inr hwell)) (hkeeps t ht)
  | _ =>
    refine ⟨env, hstep, fun t _ => ?_⟩
    rw [hruns]
    exact ⟨by simp, by simp, by simp, by simp, by simp, by simp⟩

theorem timer_spares {index : Nat} (hstep : u.step (.timer index, env) = some v)
    (hkeeps : ∀ t, u.room = some t → ¬ u.Loses t (.timer index, env)) :
    u.Spares (.timer index) v := by
  obtain ⟨fired, hget, hv⟩ := Option.map_eq_some_iff.mp hstep
  by_cases haccepts : env.roomAccepts = true
  · refine ⟨heal env, ?_, fun t ht => ?_⟩
    · rw [fireTimeout_heal haccepts] at hv
      exact Option.map_eq_some_iff.mpr ⟨_, hget, hv⟩
    · refine ⟨by simp [Service.runs], by simp [Service.runs], by simp [Service.runs],
        by simp [Service.runs], by simp [Service.runs], ?_⟩
      exact fun _ _ _ _ _ _ => heal_healthy env
  · refine ⟨env, hstep, fun t ht => ?_⟩
    refine ⟨by simp [Service.runs], by simp [Service.runs], by simp [Service.runs],
        by simp [Service.runs], by simp [Service.runs], ?_⟩
    intro timeout hmem _ hgone hawaited hcurrent
    have htimers : v.timers = u.timers.eraseIdx index := by
      rw [← hv]
      exact fireTimeout_timers _ _ _
    have hfired : timeout = fired := by
      by_contra hne
      refine hgone ?_
      change timeout ∈ v.timers
      rw [htimers]
      exact Desk.mem_eraseIdx_of_ne hmem hget hne
    subst hfired
    rw [Bool.not_eq_true] at haccepts
    exact absurd (.timer hget hawaited hcurrent haccepts) (hkeeps t ht)

/-- **A step that loses no timeout spares the awaited player.** -/
theorem step_spares (hrests : u.Rests tableId u.desk) (hstep : u.step (event, env) = some v)
    (hkeeps : ∀ t, u.room = some t → ¬ u.Loses t (event, env)) : u.Spares event v := by
  cases event with
  | request conn requestId clientSequence expired body =>
    refine spares_of_timers hstep rfl ?_
    rw [← Option.some.inj hstep]
    exact handle_timers _ _ _ _ _ _ _
  | authenticate conn user expired =>
    refine spares_of_timers hstep rfl ?_
    rw [← Option.some.inj hstep]
    exact authenticate_timers _ _ _ _
  | disconnect conn =>
    refine spares_of_timers hstep rfl ?_
    rw [← Option.some.inj hstep]
    exact onDisconnect_timers _ _ _
  | room => exact runRoom_spares hrests hstep hkeeps
  | storage index => exact storage_spares hstep hkeeps
  | timer index => exact timer_spares hstep hkeeps
  | refund index =>
    refine spares_of_timers hstep rfl ?_
    obtain ⟨attempt, -, rfl⟩ := Option.map_eq_some_iff.mp hstep
    exact fireRefund_timers _ _ _

/-! ## Runs -/

theorem live_init (tableId : Nat) (nodeId : String) (store : InMemoryGameStore) :
    (init tableId nodeId store).desk.Live where
  guarded := fun t h => absurd h (by simp [Service.desk, init])
  leaving := fun t _ h => absurd h (by simp [Service.desk, init])

theorem live_step (hrests : u.Rests tableId u.desk) (ht : u.desk.Timely) (hl : u.desk.Live)
    (hstep : u.step (event, env) = some v) (hfirst : v.rooms ≤ 1)
    (hkeeps : ∀ t, u.room = some t → ¬ u.Loses t (event, env)) :
    v.Rests tableId v.desk ∧ v.desk.Timely ∧ v.desk.Live := by
  obtain ⟨env', hstep', hspared⟩ := step_spares hrests hstep hkeeps
  obtain ⟨d', hrests', hmove⟩ := step_refines hrests hstep'
  obtain rfl := hrests'.desk
  exact ⟨hrests', hmove.timely hfirst ht, hmove.live ht hl hspared⟩

theorem run_live (hr : Run Steps (init tableId nodeId store) trace s)
    (hsteps : ∀ step ∈ trace, step.after.rooms ≤ 1 ∧
      ∀ t, step.before.room = some t → ¬ step.before.Loses t step.label) :
    s.Rests tableId s.desk ∧ s.desk.Timely ∧ s.desk.Live := by
  refine hr.guarded (I := fun s => s.Rests tableId s.desk ∧ s.desk.Timely ∧ s.desk.Live)
    ⟨init_rests tableId nodeId store, Desk.timely_init tableId nodeId store,
      live_init tableId nodeId store⟩ ?_ hsteps
  rintro a ⟨event, env⟩ b ⟨hrests, ht, hl⟩ hstep ⟨hfirst, hkeeps⟩
  exact live_step hrests ht hl hstep hfirst hkeeps

/-- **An awaited player has a timer**: in every run of the first room of a table none of whose steps
drops the timeout, while a hand waits for a player and nothing is under way at the table, a timeout
with the table's sequence is scheduled. -/
theorem awaited_timer (hr : Run Steps (init tableId nodeId store) trace s)
    (hsteps : ∀ step ∈ trace, step.after.rooms ≤ 1 ∧
      ∀ t, step.before.room = some t → ¬ step.before.Loses t step.label)
    {t : Table} (hroom : s.room = some t) (hbetting : t.street.betting = true)
    (hacting : t.actingSeat ≠ none) (hfence : s.fence = false) (hqueue : s.queue = []) :
    ∃ timeout ∈ s.timers, timeout.sequence = t.serverSequence := by
  obtain ⟨hrests, -, hl⟩ := run_live hr hsteps
  have hjob : s.desk.job = none := hrests.free hfence
  have hpending : s.desk.pending = [] := by
    change waiting s.rooms s.queue = []
    rw [hqueue]
    rfl
  cases hl.guarded t hroom ⟨hbetting, hacting⟩ with
  | timer mem sequence latest => exact ⟨_, mem, sequence⟩
  | audit mem sequence => exact absurd mem (by simp [hpending])
  | rearm mem => exact absurd mem (by simp [hpending])
  | timeout job sequence => exact absurd job (by simp [hjob])
  | starting job => exact absurd job (by simp [hjob])
  | recording job => exact absurd job (by simp [hjob])
  | storing shows sequence =>
    obtain ⟨_, _, _, job⟩ := shows
    exact absurd job (by simp [hjob])

/-- A check that a step drops no timeout: the executors and the store take it, and it is none of the
jobs that can. -/
def calm (s : Service) (label : Event × Env) : Bool :=
  label.2.roomAccepts && label.2.storageAccepts && label.2.available .beginHand &&
    match s.runs label.1 with
    | some (.room (.setConnected _ _ .sessionEnd)) | some (.room (.timeoutAudit _)) => false
    | some (.storage (.beginHand _ start)) => decide ((s.store.beginHand start).1 = .ok)
    | _ => true

theorem not_loses_of_calm {label : Event × Env} (h : s.calm label = true) : ¬ s.Loses t label := by
  intro hloses
  unfold calm at h
  simp only [Bool.and_eq_true] at h
  obtain ⟨⟨⟨hroom, hstorage⟩, havailable⟩, hjob⟩ := h
  cases hloses with
  | session runs => simp [runs] at hjob
  | audit runs => simp [runs] at hjob
  | begun runs awaited fails =>
    simp only [Service.runs, runs, Option.map_some, decide_eq_true_eq] at hjob
    rcases fails with ⟨hne, -⟩ | hunavailable | hfull
    · exact hne hjob
    · exact absurd havailable (by simp [hunavailable])
    · exact absurd hroom (by simp [hfull])
  | start _ _ _ full => exact absurd hroom (by simp [full])
  | recorded _ _ full => exact absurd hstorage (by simp [full])
  | timer _ _ _ full => exact absurd hroom (by simp [full])

theorem awaited_timer_headsUp : ∃ trace s t, Run Steps (init 7 "node" house) trace s ∧
    s.room = some t ∧ t.Awaited ∧ s.fence = false ∧ s.queue = [] ∧
    ∃ timeout ∈ s.timers, timeout.sequence = t.serverSequence := by
  have hcheck : (replay perform (init 7 "node" house) (smoothly headsUp)).any (fun r =>
      (r.1.all fun step => decide (step.after.rooms ≤ 1) && step.before.calm step.label) &&
      r.2.room.any fun t => decide (t.Awaited ∧ r.2.fence = false ∧ r.2.queue = [])) = true := by
    decide +kernel
  obtain ⟨⟨trace, s⟩, hreplay, hs⟩ := (Option.any_eq_true _ _).mp hcheck
  simp only [Bool.and_eq_true, List.all_eq_true, decide_eq_true_eq] at hs
  obtain ⟨hsteps, hend⟩ := hs
  obtain ⟨t, hroom, ht⟩ := (Option.any_eq_true _ _).mp hend
  obtain ⟨hawaited, hfence, hqueue⟩ := of_decide_eq_true ht
  exact ⟨trace, s, t, run_of_perform hreplay, hroom, hawaited, hfence, hqueue,
    awaited_timer (run_of_perform hreplay)
      (fun step hstep => ⟨(hsteps step hstep).1, fun _ _ => not_loses_of_calm
        (hsteps step hstep).2⟩)
      hroom hawaited.1 hawaited.2 hfence hqueue⟩

/-- **A player who logs out is waited for without a timer**: user 1 is asked first and logs out,
which counts the table's sequence up; nothing is under way and no timeout has that sequence. -/
theorem logout_drops_timer : ∃ trace s t, Run Steps (init 7 "node" house) trace s ∧
    s.rooms ≤ 1 ∧ s.room = some t ∧ t.street.betting = true ∧ t.actingSeat ≠ none ∧
    s.fence = false ∧ s.queue = [] ∧ s.storage = [] ∧
    ¬ ∃ timeout ∈ s.timers, timeout.sequence = t.serverSequence := by
  have hcheck : (replay perform (init 7 "node" house)
      (smoothly (headsUp ++ [.request 1 3 3 false .logout, .storage 0, .room]))).any (fun r =>
        r.2.room.any fun t => decide (r.2.rooms ≤ 1 ∧ t.street.betting = true ∧
          t.actingSeat ≠ none ∧ r.2.fence = false ∧ r.2.queue = [] ∧ r.2.storage = [] ∧
          ¬ ∃ timeout ∈ r.2.timers, timeout.sequence = t.serverSequence)) = true := by
    decide +kernel
  obtain ⟨⟨trace, s⟩, hreplay, hs⟩ := (Option.any_eq_true _ _).mp hcheck
  obtain ⟨t, hroom, ht⟩ := (Option.any_eq_true _ _).mp hs
  obtain ⟨hrooms, hend⟩ := of_decide_eq_true ht
  exact ⟨trace, s, t, run_of_perform hreplay, hrooms, hroom, hend⟩

end Service

end PokerServer

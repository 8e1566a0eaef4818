import PokerServer.Server.Desk

/-!
# The service moves its desk

Every step of the service is a move of its desk (`step_refines`), and a service that starts with
nothing pending stays what its desk shows, with whatever the moves keep (`run_desk`). The results on
the service are proved from the moves.

A callback or a task runs holding the fence (`Holds`) or beside it (`Rests`); each lemma
`…_moves` takes one job to its end.
-/

namespace PokerServer

namespace Service

variable {tableId : Nat} {jobs : List Job} {d : Desk} {s : Service} {env : Env} {job : RoomJob}

/-! ## The job in hand, in the room -/

/-- The step that leaves `s'` is a move of the desk `d`. -/
def MovesTo (tableId : Nat) (env : Env) (d : Desk) (job : Option Job) (s' : Service) : Prop :=
  ∃ d', s'.Rests tableId d' ∧ Desk.Move tableId env.Healthy d job d'

section InHand

variable {t : Table} {request : Request}

theorem Holds.setRoom (h : s.Holds tableId d) (t : Table) :
    Holds tableId { d with table := some t } { s with room := some t } :=
  ⟨h.agrees.setRoom t, h.fence, h.free⟩

theorem Holds.sameRoom (h : s.Holds tableId d) (htable : d.table = some t) :
    Holds tableId d { s with room := some t } := by
  have hsame : { s with room := some t } = s := by rw [← htable, ← h.agrees.table]
  rw [hsame]
  exact h

/-- In an open room the next job goes on, unless the executor is full. -/
theorem Holds.postNext_open (h : s.Holds tableId d) (env : Env) (job : RoomJob)
    (hopen : d.table = some t) (hjob : job.fenced = true)
    (hseat : ∀ request seat stack, job ≠ .seatPlayer request seat stack)
    (haudit : ∀ request, job ≠ .startAudit request) :
    ∃ next, (s.postRoom env job).Rests tableId { d with job := next } ∧
      Desk.Next env.Healthy (.room job) next := by
  obtain ⟨next, hrests, hnext⟩ := h.postNext env job hjob hseat haudit
  refine ⟨next, hrests, ?_⟩
  rcases hnext with ⟨hnext, -⟩ | ⟨hnext, hnone | hsick⟩
  · exact Or.inl hnext
  · exact absurd hnone (by simp [hopen])
  · exact Or.inr ⟨hnext, hsick⟩

/-- A seat is not given: the buy-in goes back, or the room is closed. -/
theorem Holds.seatFailed (h : s.Holds tableId d) (env : Env) (request : Request) (seat : Nat)
    (stack : Int) :
    (s.failed env (.seatPlayer request seat stack)).Rests tableId
        { d with job := some (.storage (.rollback request)) } ∨
      ¬ env.Healthy ∧
        (s.failed env (.seatPlayer request seat stack)).Rests tableId (d.close d.store) := by
  unfold Service.failed
  dsimp only
  split_ifs with hstorage
  · exact Or.inl ((h.submit rfl).complete request)
  · refine Or.inr ⟨fun hok => hstorage hok.2.1, ?_⟩
    obtain ⟨after, hholds, -, hafter⟩ := h.abort env false
    rw [hafter rfl] at hholds
    have hrests := (hholds.complete request).release
    have hclose : { d with table := none, store := d.store } = d.close d.store := by
      unfold Desk.close
      rw [← h.free]
    rw [← hclose]
    exact hrests

theorem seatPlayer_moves {seat : Nat} {stack : Int} (h : s.Holds tableId { d with job := none })
    (hjob : d.job = some (.room (.seatPlayer request seat stack))) (htable : d.table = some t) :
    MovesTo tableId env d (some (.room (.seatPlayer request seat stack)))
      ({ s with room := some (t.seatPlayer request.user seat stack).2 }.callback env
        (.seatPlayer request seat stack) (.error (t.seatPlayer request.user seat stack).1)) := by
  rcases hcall : t.seatPlayer request.user seat stack with ⟨e, t'⟩
  have hroom := h.setRoom t'
  rw [← hjob]
  unfold Service.callback
  dsimp only
  split_ifs with he
  · rcases hroom.seatFailed env request seat stack with hrests | ⟨hsick, hrests⟩
    · exact ⟨_, hrests, .seatRefused hjob htable hcall he⟩
    · exact ⟨_, hrests, .seatLost hjob hsick⟩
  · rw [not_not] at he
    subst he
    obtain ⟨next, hrests, hnext⟩ := (hroom.setSession request.conn _).postNext_open env
      (.seatedSnapshot request) rfl rfl (by simp) (by simp)
    exact ⟨_, hrests, .seat hjob htable hcall hnext⟩

theorem seatedSnapshot_moves (h : s.Holds tableId { d with job := none })
    (hjob : d.job = some (.room (.seatedSnapshot request))) (htable : d.table = some t) :
    MovesTo tableId env d (some (.room (.seatedSnapshot request)))
      ({ s with room := some t }.callback env (.seatedSnapshot request)
        (.snapshot .ok (t.snapshot (some request.user)))) := by
  have hroom := h.sameRoom htable
  rw [← hjob]
  exact ⟨_, (hroom.complete request).release, .seated hjob⟩

theorem setReady_moves {ready : Bool} (h : s.Holds tableId { d with job := none })
    (hjob : d.job = some (.room (.setReady request ready))) (htable : d.table = some t) :
    MovesTo tableId env d (some (.room (.setReady request ready)))
      ({ s with room := some (t.setReady request.user ready).2 }.callback env
        (.setReady request ready) (.error (t.setReady request.user ready).1)) := by
  rcases hcall : t.setReady request.user ready with ⟨e, t'⟩
  have hroom := h.setRoom t'
  rw [← hjob]
  unfold Service.callback
  dsimp only
  split_ifs with he hready
  · refine ⟨_, hroom.failed rfl (by simp) (by simp), ?_⟩
    have hmove : Desk.Move tableId env.Healthy d d.job _ :=
      .notReady hjob htable hcall (Or.inl he) (Or.inl rfl)
    rw [List.append_nil] at hmove
    exact hmove
  · rw [not_not] at he
    subst he hready
    obtain ⟨next, hrests, hnext⟩ := hroom.postNext_open env
      (.startHand request env.deck) rfl rfl (by simp) (by simp)
    exact ⟨_, hrests, .ready hjob htable hcall env.deck hnext⟩
  · rw [Bool.not_eq_true] at hready
    rcases hroom.release.postRoom env (.currentSnapshot request false) rfl with
      ⟨-, hrests⟩ | ⟨-, hrests⟩
    · exact ⟨_, hrests, .notReady hjob htable hcall (Or.inr hready) (Or.inr rfl)⟩
    · refine ⟨_, hrests, ?_⟩
      have hmove : Desk.Move tableId env.Healthy d d.job _ :=
        .notReady hjob htable hcall (Or.inr hready) (Or.inl rfl)
      rw [List.append_nil] at hmove
      exact hmove

theorem startHand_moves {deck : FullDeck} {e : TableError} {t' : Table}
    (h : s.Holds tableId { d with job := none })
    (hjob : d.job = some (.room (.startHand request deck))) (htable : d.table = some t)
    (hcall : t.startHand deck.toDeck = .ok (e, t')) :
    MovesTo tableId env d (some (.room (.startHand request deck)))
      ({ s with room := some t' }.callback env (.startHand request deck) (.error e)) := by
  have hroom := h.setRoom t'
  rw [← hjob]
  unfold Service.callback
  dsimp only
  have hrefused (he : e ≠ .ok) : Desk.Move tableId env.Healthy d d.job
      { d with table := some t', job := none } := by
    have hmove : Desk.Move tableId env.Healthy d d.job _ :=
      .startRefused hjob htable hcall he (Or.inl rfl)
    rw [List.append_nil] at hmove
    exact hmove
  split_ifs with he hbusy
  · subst he
    rcases hroom.postRoom env (.startAudit request) rfl with
      ⟨-, hrests⟩ | ⟨hwhy, hpost, habort⟩
    · exact ⟨_, hrests, .start hjob htable hcall (Or.inl rfl)⟩
    · rcases hwhy with hnone | hsick
      · exact absurd hnone (by simp)
      · rw [hpost]
        unfold Service.failed
        dsimp only
        rw [habort]
        exact ⟨_, (hroom.complete request).release, .start hjob htable hcall (Or.inr ⟨rfl, hsick⟩)⟩
  · rcases hroom.release.postRoom env (.currentSnapshot request true) rfl with
      ⟨-, hrests⟩ | ⟨-, hrests⟩
    · exact ⟨_, hrests, .startRefused hjob htable hcall he (Or.inr rfl)⟩
    · exact ⟨_, hrests, hrefused he⟩
  · exact ⟨_, hroom.failed rfl (by simp) (by simp), hrefused he⟩

theorem startAudit_moves (h : s.Holds tableId { d with job := none })
    (hjob : d.job = some (.room (.startAudit request))) (htable : d.table = some t) :
    MovesTo tableId env d (some (.room (.startAudit request)))
      ({ s with room := some t }.callback env (.startAudit request)
        (.snapshot .ok t.auditSnapshot)) := by
  have hroom := h.sameRoom htable
  rw [← hjob]
  unfold Service.callback
  dsimp only
  rw [if_neg (by simp)]
  split_ifs with hstorage
  · refine ⟨_, hroom.submit rfl, ?_⟩
    have hmove : Desk.Move tableId env.Healthy d d.job _ := .audit hjob htable
    rw [← h.agrees.id] at hmove ⊢
    exact hmove
  · obtain ⟨extra, hholds, hextra⟩ := hroom.postAbortHand env
    exact ⟨_, (hholds.complete request).release,
      .auditLost hjob (fun hok => hstorage hok.2.1) hextra⟩

/-- What the task of an action job does in an open room. -/
theorem acts_run {x : RoomJob} {reply : Option Reply} {room : Room} (hacts : x.acts = true)
    (hrun : Room.run x.call x.callback { table := t } = .ok (reply, room)) :
    (x.command t = none ∧ room.table = t ∧ ∃ result view audit,
        reply = some (.action result view audit) ∧ result.error ≠ .ok) ∨
      ∃ command result, x.command t = some command ∧ t.act command = .ok (result, room.table) ∧
        reply = some (.action result (room.table.snapshot (some command.playerId))
          room.table.auditSnapshot) := by
  cases x with
  | act request handId command =>
    simp only [RoomJob.call, RoomJob.callback, Room.run, Room.actTask, Bool.false_eq_true,
      if_false] at hrun
    rw [show (t.snapshot (some command.playerId)).handId = t.handId from rfl] at hrun
    simp only [RoomJob.command]
    split_ifs at hrun ⊢ with hstale
    · obtain ⟨rfl, rfl⟩ := Prod.mk.inj (Except.ok.inj hrun)
      exact Or.inl ⟨rfl, rfl, _, _, _, rfl, by simp⟩
    · obtain ⟨⟨result, t'⟩, hcall, hdone⟩ := Checked.bind_ok_iff.mp hrun
      obtain ⟨rfl, rfl⟩ := Prod.mk.inj (Except.ok.inj hdone)
      exact Or.inr ⟨command, result, rfl, hcall, rfl⟩
  | onActionTimeout timeout =>
    simp only [RoomJob.call, RoomJob.callback, Room.run, Room.onActionTimeoutTask,
      Bool.false_eq_true, if_false] at hrun
    simp only [RoomJob.command]
    split_ifs at hrun ⊢ with hstale
    · obtain ⟨rfl, rfl⟩ := Prod.mk.inj (Except.ok.inj hrun)
      exact Or.inl ⟨rfl, rfl, _, _, _, rfl, by simp⟩
    · obtain ⟨⟨result, t'⟩, hcall, hdone⟩ := Checked.bind_ok_iff.mp hrun
      obtain ⟨rfl, rfl⟩ := Prod.mk.inj (Except.ok.inj hdone)
      exact Or.inr ⟨_, result, rfl, hcall, rfl⟩
  | _ => exact absurd hacts (by simp [RoomJob.acts])

/-- The callbacks of the two action jobs are one. -/
theorem callback_acts {x : RoomJob} {t' : Table} {result : ActionResult} {view : TableSnapshot}
    (hacts : x.acts = true) :
    s.callback env x (.action result view t'.auditSnapshot) =
      if result.error ≠ .ok then s.failed env x
      else s.postAction env x.request (x.record s.tableId result t') result view
        t'.auditSnapshot := by
  cases x with
  | act request handId command => rfl
  | onActionTimeout timeout => rfl
  | _ => exact absurd hacts (by simp [RoomJob.acts])

theorem acts_moves {x : RoomJob} {reply : Option Reply} {room : Room} (hacts : x.acts = true)
    (h : s.Holds tableId { d with job := none }) (hjob : d.job = some (.room x))
    (htable : d.table = some t)
    (hrun : Room.run x.call x.callback { table := t } = .ok (reply, room)) :
    ∃ r, reply = some r ∧ MovesTo tableId env d (some (.room x))
      ({ s with room := some room.table }.callback env x r) := by
  have hfenced : x.fenced = true := by cases x <;> simp_all [RoomJob.acts, RoomJob.fenced]
  have hseat : ∀ request seat stack, x ≠ .seatPlayer request seat stack := by
    rintro request seat stack rfl
    exact absurd hacts (by simp [RoomJob.acts])
  have haudit : ∀ request, x ≠ .startAudit request := by
    rintro request rfl
    exact absurd hacts (by simp [RoomJob.acts])
  have hroom := h.setRoom room.table
  rcases acts_run hacts hrun with ⟨hnone, hsame, result, view, audit, rfl, hrefused⟩ |
    ⟨command, result, hcommand, hcall, rfl⟩
  · refine ⟨_, rfl, ?_⟩
    have hcallback : ({ s with room := some room.table } : Service).callback env x
        (.action result view audit) = { s with room := some room.table }.failed env x := by
      cases x with
      | act request handId command => exact if_pos hrefused
      | onActionTimeout timeout => exact if_pos hrefused
      | _ => exact absurd hacts (by simp [RoomJob.acts])
    rw [hcallback, ← hjob]
    exact ⟨_, hroom.failed hfenced hseat haudit,
      .actRefused hjob hacts htable (Or.inl ⟨hnone, hsame⟩)⟩
  · refine ⟨_, rfl, ?_⟩
    rw [callback_acts hacts, ← hjob]
    split_ifs with herror
    · exact ⟨_, hroom.failed hfenced hseat haudit,
        .actRefused hjob hacts htable (Or.inr ⟨command, result, hcommand, hcall, herror⟩)⟩
    · rw [not_not] at herror
      unfold Service.postAction
      by_cases hstorage : env.storageAccepts = true
      · rw [if_pos hstorage]
        refine ⟨_, hroom.submit rfl, ?_⟩
        have hmove : Desk.Move tableId env.Healthy d d.job _ :=
          .accept hjob htable hcommand hcall herror
        rw [← h.agrees.id] at hmove ⊢
        exact hmove
      · rw [if_neg hstorage]
        obtain ⟨after, hholds, -, hafter⟩ := hroom.abort env false
        rw [hafter rfl] at hholds
        have hlost : Desk.Move tableId env.Healthy d d.job _ :=
          .acceptLost hjob htable hcommand hcall herror fun hok => hstorage hok.2.1
        cases x.request with
        | none => exact ⟨_, hholds.release, hlost⟩
        | some request => exact ⟨_, (hholds.complete request).release, hlost⟩

theorem setUnready_moves (h : s.Holds tableId { d with job := none })
    (hjob : d.job = some (.room (.setUnready request))) (htable : d.table = some t) :
    MovesTo tableId env d (some (.room (.setUnready request)))
      ({ s with room := some (t.setReady request.user false).2 }.callback env
        (.setUnready request) (.error (t.setReady request.user false).1)) := by
  rcases hcall : t.setReady request.user false with ⟨e, t'⟩
  have hroom := h.setRoom t'
  rw [← hjob]
  unfold Service.callback
  dsimp only
  split_ifs with he hstorage
  · exact ⟨_, hroom.failed rfl (by simp) (by simp), .unreadyRefused hjob htable hcall he⟩
  · rw [not_not] at he
    subst he
    exact ⟨_, hroom.submit rfl, .unready hjob htable hcall (Or.inl rfl)⟩
  · rw [not_not] at he
    subst he
    exact ⟨_, (hroom.complete request).release,
      .unready hjob htable hcall (Or.inr ⟨rfl, fun hok => hstorage hok.2.1⟩)⟩

theorem removePlayer_moves (h : s.Holds tableId { d with job := none })
    (hjob : d.job = some (.room (.removePlayer request))) (htable : d.table = some t) :
    MovesTo tableId env d (some (.room (.removePlayer request)))
      ({ s with room := some (t.removePlayer request.user).2 }.callback env
        (.removePlayer request) (.error (t.removePlayer request.user).1)) := by
  rcases hcall : t.removePlayer request.user with ⟨e, t'⟩
  have hroom := h.setRoom t'
  rw [← hjob]
  unfold Service.callback
  dsimp only
  split_ifs with he
  · exact ⟨_, hroom.failed rfl (by simp) (by simp), .remove hjob htable hcall⟩
  · exact ⟨_, ((hroom.setSession request.conn _).complete request).release,
      .remove hjob htable hcall⟩

/-- **The job in hand runs in the room.** -/
theorem fenced_moves (env : Env) {x : RoomJob} {reply : Option Reply} {room : Room}
    (hfenced : x.fenced = true) (h : s.Holds tableId { d with job := none })
    (hjob : d.job = some (.room x)) (htable : d.table = some t)
    (hrun : Room.run x.call x.callback { table := t } = .ok (reply, room)) :
    ∃ r, reply = some r ∧ MovesTo tableId env d (some (.room x))
      ({ s with room := some room.table }.callback env x r) := by
  cases x with
  | act request handId command => exact acts_moves rfl h hjob htable hrun
  | onActionTimeout timeout => exact acts_moves rfl h hjob htable hrun
  | seatPlayer request seat stack =>
    obtain ⟨rfl, rfl⟩ := Prod.mk.inj (Except.ok.inj hrun)
    exact ⟨_, rfl, seatPlayer_moves h hjob htable⟩
  | seatedSnapshot request =>
    obtain ⟨rfl, rfl⟩ := Prod.mk.inj (Except.ok.inj hrun)
    exact ⟨_, rfl, seatedSnapshot_moves h hjob htable⟩
  | setReady request ready =>
    obtain ⟨rfl, rfl⟩ := Prod.mk.inj (Except.ok.inj hrun)
    exact ⟨_, rfl, setReady_moves h hjob htable⟩
  | startHand request deck =>
    obtain ⟨⟨e, t'⟩, hcall, hdone⟩ := Checked.bind_ok_iff.mp hrun
    obtain ⟨rfl, rfl⟩ := Prod.mk.inj (Except.ok.inj hdone)
    exact ⟨_, rfl, startHand_moves h hjob htable hcall⟩
  | startAudit request =>
    obtain ⟨rfl, rfl⟩ := Prod.mk.inj (Except.ok.inj hrun)
    exact ⟨_, rfl, startAudit_moves h hjob htable⟩
  | setUnready request =>
    obtain ⟨rfl, rfl⟩ := Prod.mk.inj (Except.ok.inj hrun)
    exact ⟨_, rfl, setUnready_moves h hjob htable⟩
  | removePlayer request =>
    obtain ⟨rfl, rfl⟩ := Prod.mk.inj (Except.ok.inj hrun)
    exact ⟨_, rfl, removePlayer_moves h hjob htable⟩
  | _ => exact absurd hfenced (by simp [RoomJob.fenced])

end InHand

/-! ## The unfenced jobs of the room -/

theorem Rests.setRoom (h : s.Rests tableId d) (t : Table) :
    Rests tableId { d with table := some t } { s with room := some t } :=
  ⟨h.agrees.setRoom t, h.fence⟩

theorem Rests.sameRoom (h : s.Rests tableId d) {t : Table} (htable : d.table = some t) :
    Rests tableId d { s with room := some t } := by
  have hsame : { s with room := some t } = s := by rw [← htable, ← h.agrees.table]
  rw [hsame]
  exact h

/-- What is done with the reply of a task, if there is one. -/
def answer (env : Env) (job : RoomJob) (s : Service) : Option Reply → Service
  | none => s
  | some reply => s.callback env job reply

/-- A task that finds its room closed tells its callback so. -/
theorem closed_rests {t : Table} {x : RoomJob} {reply : Option Reply} {room : Room}
    (hx : x.fenced = false) (h : s.Rests tableId d)
    (hrun : Room.run x.call x.callback { table := t, closed := true } = .ok (reply, room)) :
    (s.answer env x reply).Rests tableId d := by
  cases x with
  | snapshot request =>
    obtain ⟨rfl, rfl⟩ := Prod.mk.inj (Except.ok.inj hrun)
    exact h.complete request
  | currentSnapshot request armTimeout =>
    obtain ⟨rfl, rfl⟩ := Prod.mk.inj (Except.ok.inj hrun)
    exact h.complete request
  | setConnected user connected reason =>
    obtain ⟨rfl, rfl⟩ := Prod.mk.inj (Except.ok.inj hrun)
    exact h.failed env (.setConnected user connected reason) rfl
  | timeoutAudit timeout =>
    obtain ⟨rfl, rfl⟩ := Prod.mk.inj (Except.ok.inj hrun)
    exact h
  | abortHand =>
    obtain ⟨rfl, rfl⟩ := Prod.mk.inj (Except.ok.inj hrun)
    exact h
  | _ => exact absurd hx (by simp [RoomJob.fenced])

section Unfenced

variable {t : Table} {rest : List RoomJob}

theorem timeoutAudit_moves {timeout : Timeout} (h : s.Rests tableId { d with pending := rest })
    (hpending : d.pending = .timeoutAudit timeout :: rest) (htable : d.table = some t) :
    MovesTo tableId env d (some (.room (.timeoutAudit timeout)))
      (s.callback env (.timeoutAudit timeout) (.snapshot .ok t.auditSnapshot)) := by
  have hfence := h.fence
  unfold Service.callback
  dsimp only
  split_ifs with hstale hheld
  · refine ⟨_, h, .miss hpending htable ?_⟩
    rcases hstale with hok | hseq | hacting
    · exact absurd rfl hok
    · exact Or.inl hseq
    · exact Or.inr (Or.inl hacting)
  · refine ⟨_, h, .miss hpending htable (Or.inr (Or.inr (Or.inl ?_)))⟩
    intro hnone
    rw [hheld, hnone] at hfence
    exact absurd hfence (by simp)
  · rw [Bool.not_eq_true] at hheld
    simp only [not_or, ne_eq, not_not] at hstale
    have hholds := h.take hheld
    obtain ⟨next, hrests, hnext⟩ := hholds.postNext_open env
      (.onActionTimeout timeout) htable rfl (by simp) (by simp)
    have hfree : d.job = none := hholds.free
    rcases hnext with rfl | ⟨rfl, hsick⟩
    · exact ⟨_, hrests, .claim hpending htable hstale.2.1 hstale.2.2 hfree⟩
    · refine ⟨_, hrests, ?_⟩
      have hmove : Desk.Move tableId env.Healthy d _ _ :=
        .miss hpending htable (Or.inr (Or.inr (Or.inr hsick)))
      have hd : ({ d with pending := rest, job := none } : Desk) = { d with pending := rest } := by
        rw [← hfree]
      rw [← hd] at hmove
      exact hmove

theorem setConnected_moves {user : UserId} {connected : Bool} {reason : Reason}
    (h : s.Rests tableId { d with pending := rest })
    (hpending : d.pending = .setConnected user connected reason :: rest)
    (htable : d.table = some t) :
    MovesTo tableId env d (some (.room (.setConnected user connected reason)))
      ({ s with room := some (t.setConnected user connected).2 }.callback env
        (.setConnected user connected reason) (.snapshot (t.setConnected user connected).1
          ((t.setConnected user connected).2.snapshot (some user)))) := by
  rcases hcall : t.setConnected user connected with ⟨e, t'⟩
  have hmove : Desk.Move tableId env.Healthy d _ _ := .connect hpending htable hcall
  have hroom := h.setRoom t'
  unfold Service.callback
  dsimp only
  by_cases he : e = .ok
  · subst he
    rw [if_neg (by simp)]
    cases reason with
    | reconnect request =>
      rw [if_pos ⟨rfl, by simp⟩] at hmove
      exact ⟨_, (hroom.complete request).schedule _, hmove⟩
    | disconnect =>
      rw [if_pos ⟨rfl, by simp⟩] at hmove
      exact ⟨_, hroom.schedule _, hmove⟩
    | sessionEnd =>
      rw [if_neg (by simp)] at hmove
      exact ⟨_, hroom, hmove⟩
  · rw [if_neg (fun hc => he hc.1)] at hmove
    rw [if_pos he]
    exact ⟨_, hroom.failed env _ rfl, hmove⟩

/-- **An unfenced job runs in the open room.** -/
theorem unfenced_moves {x : RoomJob} {reply : Option Reply} {room : Room}
    (hx : x.fenced = false) (h : s.Rests tableId { d with pending := rest })
    (hpending : d.pending = x :: rest) (htable : d.table = some t)
    (hrun : Room.run x.call x.callback { table := t } = .ok (reply, room)) :
    MovesTo tableId env d (some (.room x))
      ({ s with room := some room.table }.answer env x reply) := by
  cases x with
  | snapshot request =>
    obtain ⟨rfl, rfl⟩ := Prod.mk.inj (Except.ok.inj hrun)
    exact ⟨_, (h.sameRoom htable).complete request, .pass hpending rfl (Or.inr rfl)⟩
  | currentSnapshot request armTimeout =>
    obtain ⟨rfl, rfl⟩ := Prod.mk.inj (Except.ok.inj hrun)
    have hcomplete := (h.sameRoom htable).complete request
    cases armTimeout with
    | false => exact ⟨_, hcomplete, .pass hpending rfl (Or.inr rfl)⟩
    | true => exact ⟨_, hcomplete.schedule _, .rearm hpending htable⟩
  | setConnected user connected reason =>
    obtain ⟨rfl, rfl⟩ := Prod.mk.inj (Except.ok.inj hrun)
    exact setConnected_moves h hpending htable
  | timeoutAudit timeout =>
    obtain ⟨rfl, rfl⟩ := Prod.mk.inj (Except.ok.inj hrun)
    exact timeoutAudit_moves (h.sameRoom htable) hpending htable
  | abortHand =>
    obtain ⟨rfl, rfl⟩ := Prod.mk.inj (Except.ok.inj hrun)
    exact ⟨_, h.sameRoom htable, .pass hpending rfl (Or.inr rfl)⟩
  | _ => exact absurd hx (by simp [RoomJob.fenced])

end Unfenced

theorem runRoom_cases {s' : Service} (hstep : s.runRoom env = some s') :
    ∃ task queue reply room, s.queue = task :: queue ∧
      Room.run task.job.call task.job.callback (s.capturedRoom task) = .ok (reply, room) ∧
      s' = ({ s with
          queue := queue
          room := if (s.capturedRoom task).closed then s.room
            else some room.table } : Service).answer
        env task.job reply := by
  unfold Service.runRoom at hstep
  cases hq : s.queue with
  | nil => exact absurd hstep (by simp [hq])
  | cons task queue =>
    rw [hq] at hstep
    dsimp only at hstep
    cases hrun : Room.run task.job.call task.job.callback (s.capturedRoom task) with
    | error fault => exact absurd hstep (by simp [hrun])
    | ok result =>
      obtain ⟨reply, room⟩ := result
      rw [hrun] at hstep
      refine ⟨task, queue, reply, room, rfl, hrun, ?_⟩
      cases reply with
      | none => exact (Option.some.inj hstep).symm
      | some reply => exact (Option.some.inj hstep).symm

/-- The room a task captured is open iff it is the table's. -/
theorem capturedRoom_open {task : RoomTask} (h : (s.capturedRoom task).closed = false) :
    ∃ t, s.room = some t ∧ task.room = s.rooms ∧ s.capturedRoom task = { table := t } := by
  unfold Service.capturedRoom at h ⊢
  cases hs : s.room with
  | none => exact absurd h (by simp [hs])
  | some t =>
    rw [hs] at h
    have hroom : task.room = s.rooms := by simpa using h
    exact ⟨t, rfl, hroom, by simp [hroom]⟩

theorem capturedRoom_closed {task : RoomTask} (h : (s.capturedRoom task).closed = true) :
    s.room = none ∨ task.room ≠ s.rooms := by
  unfold Service.capturedRoom at h
  cases hs : s.room with
  | none => exact Or.inl rfl
  | some t =>
    rw [hs] at h
    exact Or.inr (by simpa using h)

/-- **The room executor runs its next task.** -/
theorem runRoom_moves {s' : Service} (h : s.Rests tableId d) (hstep : s.runRoom env = some s') :
    MovesTo tableId env d (s.runs .room) s' := by
  obtain ⟨task, queue, reply, room, hq, hrun, rfl⟩ := runRoom_cases hstep
  have hruns : s.runs .room = some (.room task.job) := by simp [Service.runs, hq]
  rw [hruns]
  cases hclosed : (s.capturedRoom task).closed with
  | false =>
    obtain ⟨t, ht, hroom, hcaptured⟩ := capturedRoom_open hclosed
    rw [hcaptured] at hrun
    have htable : d.table = some t := by rw [← h.agrees.table, ht]
    by_cases hf : task.job.fenced = true
    · obtain ⟨hjob, -, hholds⟩ := h.runRoom hq hf
      obtain ⟨r, rfl, hmoves⟩ := fenced_moves env hf hholds hjob htable hrun
      exact hmoves
    · rw [Bool.not_eq_true] at hf
      rcases h.agrees.dequeue hq hf with ⟨hold, -⟩ | ⟨-, rest, hpending, hag⟩
      · exact absurd hroom hold
      · have hrests : Rests tableId { d with pending := rest } { s with queue := queue } :=
          ⟨hag, h.fence⟩
        exact unfenced_moves hf hrests hpending htable hrun
  | true =>
    -- the job in hand never finds its room closed
    have hf : task.job.fenced = false := by
      by_contra hf
      rw [Bool.not_eq_false] at hf
      obtain ⟨hroom, hsome⟩ := h.agrees.current task (hq ▸ List.mem_cons_self) hf
      rcases capturedRoom_closed hclosed with hnone | hold
      · exact absurd hsome (by simp [hnone])
      · exact hold hroom
    have hcaptured : s.capturedRoom task =
        { table := (s.capturedRoom task).table, closed := true } := by rw [← hclosed]
    rw [hcaptured] at hrun
    rcases h.agrees.dequeue hq hf with ⟨-, hag⟩ | ⟨hroom, rest, hpending, hag⟩
    · refine ⟨d, closed_rests hf ⟨hag, h.fence⟩ hrun, .stay ?_⟩
      rintro _ ⟨⟩
      exact hf
    · have hnone : d.table = none := by
        rw [← h.agrees.table]
        exact (capturedRoom_closed hclosed).resolve_right fun hold => hold hroom
      have hrests : Rests tableId { d with pending := rest } { s with queue := queue } :=
        ⟨hag, h.fence⟩
      exact ⟨_, closed_rests hf hrests hrun, .pass hpending hf (Or.inl hnone)⟩

/-! ## The job in hand, at the store -/

section AtStore

variable {request : Request}

theorem opened_isSome (d : Desk) (config : TableConfig) :
    (d.opened config).table.isSome = true := by
  unfold Desk.opened
  split_ifs with hopen
  · exact hopen
  · rfl

theorem opened_job (d : Desk) (config : TableConfig) : (d.opened config).job = d.job := by
  unfold Desk.opened
  split_ifs <;> rfl

theorem opened_store (d : Desk) (config : TableConfig) : (d.opened config).store = d.store := by
  unfold Desk.opened
  split_ifs <;> rfl

/-- Opening a room does not look at the job in hand. -/
theorem opened_with (d : Desk) (config : TableConfig) (job : Option Job) :
    ({ d with job := job } : Desk).opened config = { d.opened config with job := job } := by
  unfold Desk.opened
  dsimp only
  split_ifs <;> rfl

/-- A call of the store is accepted, or leaves the service as it was. `Good` says which results the
caller accepts. -/
theorem askStore_cases (s : Service) (env : Env) (call : StoreCall)
    (answer : StorageError × InMemoryGameStore) (Good : StorageError → Prop)
    (hlost : ¬ Good .unavailable) (hkeep : ¬ Good answer.1 → answer.2 = s.store) :
    (Good answer.1 ∧ s.askStore env call answer = (answer.1, { s with store := answer.2 })) ∨
      ∃ error, ¬ Good error ∧ s.askStore env call answer = (error, s) ∧
        (¬ Good answer.1 ∨ ¬ env.Healthy) := by
  unfold askStore
  by_cases havail : env.available call = true
  · rw [if_pos havail]
    by_cases hgood : Good answer.1
    · exact Or.inl ⟨hgood, rfl⟩
    · rw [hkeep hgood]
      exact Or.inr ⟨answer.1, hgood, rfl, Or.inl hgood⟩
  · rw [if_neg havail]
    exact Or.inr ⟨_, hlost, rfl, Or.inr (Env.not_healthy_of_unavailable havail)⟩

theorem Holds.openRoom (h : s.Holds tableId d) (config : TableConfig) :
    Holds tableId (d.opened config)
      (if s.room.isSome then s
        else { s with room := some (Table.new config), rooms := s.rooms + 1 }) := by
  refine ⟨h.agrees.openRoom config, ?_, by rw [opened_job, h.free]⟩
  split_ifs
  · exact h.fence
  · exact h.fence

theorem reserveSeat_moves {seat : Nat} {buyIn : Int} {record : TableRecord}
    (h : s.Holds tableId { d with job := none })
    (hjob : d.job = some (.storage (.sitDown request seat buyIn)))
    (hfound : (d.store.findTable tableId).value = some record) :
    MovesTo tableId env d (some (.storage (.sitDown request seat buyIn)))
      (s.reserveSeat env request seat buyIn record.config) := by
  rw [← hjob]
  unfold Service.reserveSeat
  by_cases hzero : s.room.isNone = true ∧ s.tableId = 0
  · rw [if_pos hzero]
    exact ⟨_, (h.complete request).release, .noSeat hjob⟩
  rw [if_neg hzero]
  have hopen := h.openRoom record.config
  rw [opened_with] at hopen
  generalize (if s.room.isSome = true then s
    else { s with room := some (Table.new record.config), rooms := s.rooms + 1 }) = u at hopen ⊢
  have hid : u.tableId = tableId := hopen.agrees.id
  have hstore : u.store = d.store := by
    rw [hopen.agrees.store]
    exact opened_store d record.config
  subst hid
  dsimp only
  rw [hstore]
  rcases hcall : d.store.reserveBuyIn u.tableId request.user seat buyIn (buyKey u.tableId request)
    with ⟨reserved, store⟩
  dsimp only
  cases havail : env.available .reserveBuyIn with
  | false => exact ⟨_, (hopen.complete request).release, .noBuyIn hjob hfound⟩
  | true =>
    cases hvalue : reserved.value with
    | none => exact ⟨_, (hopen.complete request).release, .noBuyIn hjob hfound⟩
    | some receipt =>
      have hbought := hopen.setStore store
      rcases hbought.postRoom env (.seatPlayer request seat receipt.tableStack) rfl
        with ⟨-, hrests⟩ | ⟨hwhy, hpost, -⟩
      · exact ⟨_, hrests, .buyIn hjob hfound hcall hvalue⟩
      · have hsick : ¬ env.Healthy := by
          rcases hwhy with hnone | hsick
          · have hsome := opened_isSome d record.config
            rw [hnone] at hsome
            exact absurd hsome (by simp)
          · exact hsick
        dsimp only
        rw [hpost]
        rcases hbought.seatFailed env request seat receipt.tableStack with
          hrests | ⟨-, hrests⟩
        · exact ⟨_, hrests, .buyInLost hjob hfound hcall hvalue hsick (Or.inl rfl)⟩
        · exact ⟨_, hrests, .buyInLost hjob hfound hcall hvalue hsick (Or.inr rfl)⟩

theorem sitDown_moves {seat : Nat} {buyIn : Int} (h : s.Holds tableId { d with job := none })
    (hjob : d.job = some (.storage (.sitDown request seat buyIn))) :
    MovesTo tableId env d (some (.storage (.sitDown request seat buyIn)))
      (s.runStorage env (.sitDown request seat buyIn)) := by
  have hstay : MovesTo tableId env d (some (.storage (.sitDown request seat buyIn)))
      (s.complete request).release := by
    rw [← hjob]
    exact ⟨_, (h.complete request).release, .noSeat hjob⟩
  unfold Service.runStorage
  dsimp only
  split_ifs with hticket
  · exact hstay
  · cases havail : env.available .findTable with
    | false => exact hstay
    | true =>
      cases hfound : (s.store.findTable s.tableId).value with
      | none => exact hstay
      | some record =>
        dsimp only
        split_ifs with hnode
        · exact hstay
        · rw [h.agrees.id, h.agrees.store] at hfound
          exact reserveSeat_moves h hjob hfound

theorem rollback_moves (h : s.Holds tableId { d with job := none })
    (hjob : d.job = some (.storage (.rollback request))) :
    MovesTo tableId env d (some (.storage (.rollback request)))
      (s.runStorage env (.rollback request)) := by
  rw [← hjob]
  obtain rfl : s.tableId = tableId := h.agrees.id
  have hstore : s.store = d.store := h.agrees.store
  rcases hcall : d.store.cashOut s.tableId request.user (rollbackKey s.tableId request) with
    ⟨receipt, store⟩
  have hlost (hfailed : receipt.error ≠ .ok ∨ ¬ env.Healthy) :
      MovesTo s.tableId env d d.job (s.abortTableAndNotify env true).release := by
    obtain ⟨after, hholds, hrefunded, -⟩ := h.abort env true
    exact ⟨_, hholds.release, .rollbackFailed hjob hcall hfailed (hrefunded rfl)⟩
  have hkeep (hrefused : ¬ receipt.error = .ok) : store = s.store := by
    rw [hstore]
    exact InMemoryGameStore.cashOut_refused hcall hrefused
  unfold Service.runStorage
  dsimp only
  rw [hstore, hcall]
  dsimp only
  rcases askStore_cases s env .cashOut (receipt.error, store) (· = .ok) (by simp) hkeep with
    ⟨hdone, hask⟩ | ⟨error, hbad, hask, hfailed⟩
  · rw [hask, if_pos hdone]
    exact ⟨_, (h.setStore store).release, .rollback hjob hcall hdone⟩
  · rw [hask, if_neg hbad]
    exact hlost hfailed

theorem beginHand_moves {start : HandStartRecord} (h : s.Holds tableId { d with job := none })
    (hjob : d.job = some (.storage (.beginHand request start))) :
    MovesTo tableId env d (some (.storage (.beginHand request start)))
      (s.runStorage env (.beginHand request start)) := by
  rw [← hjob]
  have hstore : s.store = d.store := h.agrees.store
  rcases hcall : d.store.beginHand start with ⟨stored, store⟩
  have hlost (hfailed : stored ≠ .ok ∧ stored ≠ .duplicate ∨ ¬ env.Healthy) :
      MovesTo tableId env d d.job ((s.postAbortHand env).complete request).release := by
    obtain ⟨extra, hholds, hextra⟩ := h.postAbortHand env
    exact ⟨_, (hholds.complete request).release, .handNotBegun hjob hcall hfailed hextra⟩
  have hkeep (hrefused : ¬ (stored = .ok ∨ stored = .duplicate)) : store = s.store := by
    rcases InMemoryGameStore.beginHand_cases hcall with ⟨-, hstay⟩ | ⟨_, hok, -⟩
    · rw [hstay, hstore]
    · exact absurd (Or.inl hok) hrefused
  unfold Service.runStorage
  dsimp only
  rw [hstore, hcall]
  rcases askStore_cases s env .beginHand (stored, store) (fun e => e = .ok ∨ e = .duplicate)
      (by simp) hkeep with
    ⟨hdone, hask⟩ | ⟨error, hbad, hask, hfailed⟩
  · rw [hask, if_pos hdone]
    rcases (h.setStore store).release.postRoom env (.currentSnapshot request true) rfl with
      ⟨-, hrests⟩ | ⟨hwhy, hrests⟩
    · exact ⟨_, hrests, .handBegun hjob hcall hdone (Or.inl rfl)⟩
    · refine ⟨_, hrests, ?_⟩
      have hmove : Desk.Move tableId env.Healthy d d.job _ :=
        .handBegun hjob hcall hdone (Or.inr ⟨rfl, hwhy⟩)
      rw [List.append_nil] at hmove
      exact hmove
  · rw [hask, if_neg hbad]
    exact hlost (hfailed.imp_left not_or.mp)

/-- An action was stored: the next timeout is scheduled and the fence is given back. -/
theorem Holds.actionStored (h : s.Holds tableId d) (answered : Option Request)
    (view : TableSnapshot) : (s.actionStored answered view).Rests tableId (d.schedule view) := by
  unfold Service.actionStored
  cases answered with
  | none => exact (h.schedule view).release
  | some request => exact ((h.schedule view).release).complete request

/-- It was not: the room is closed. -/
theorem Holds.actionLost (h : s.Holds tableId d) (env : Env) (answered : Option Request) :
    ∃ after, (s.actionLost env answered).Rests tableId { d with table := none, store := after } ∧
      Desk.Refunded tableId env.Healthy d.store after := by
  obtain ⟨after, hholds, hrefunded, -⟩ := h.abort env true
  refine ⟨after, ?_, hrefunded rfl⟩
  unfold Service.actionLost
  cases answered with
  | none => exact hholds.release
  | some request => exact (hholds.complete request).release

theorem storeAction_moves {answered : Option Request} {action : HandActionRecord}
    {settlement : Option HandSettlementRecord} {view : TableSnapshot}
    (h : s.Holds tableId { d with job := none })
    (hjob : d.job = some (.storage (.storeAction answered action settlement view))) :
    MovesTo tableId env d (some (.storage (.storeAction answered action settlement view)))
      (s.runStorage env (.storeAction answered action settlement view)) := by
  rw [← hjob]
  have hstore : s.store = d.store := h.agrees.store
  rcases happend : d.store.appendAction action with ⟨appended, store⟩
  have hlost (hfailed : appended ≠ .ok ∧ appended ≠ .duplicate ∨ ¬ env.Healthy) :
      MovesTo tableId env d d.job (s.actionLost env answered) := by
    obtain ⟨after, hrests, hrefunded⟩ := h.actionLost env answered
    exact ⟨_, hrests, .actionLost hjob happend hfailed hrefunded⟩
  have hkeep (hrefused : ¬ (appended = .ok ∨ appended = .duplicate)) : store = s.store := by
    rcases InMemoryGameStore.appendAction_cases happend with ⟨-, hstay⟩ | ⟨hok, -⟩
    · rw [hstay, hstore]
    · exact absurd (Or.inl hok) hrefused
  unfold Service.runStorage
  dsimp only
  rw [hstore, happend]
  simp only [← not_or, ite_not]
  rcases askStore_cases s env .appendAction (appended, store)
      (fun e => e = .ok ∨ e = .duplicate) (by simp) hkeep with
    ⟨hdone, hask⟩ | ⟨error, hbad, hask, hfailed⟩
  · rw [hask, if_pos hdone]
    have hholds := h.setStore store
    cases settlement with
    | none =>
      exact ⟨_, hholds.actionStored answered view,
        .stored hjob happend hdone (Or.inl ⟨rfl, rfl⟩)⟩
    | some record =>
      rcases hsettle : store.settleHand record with ⟨settled, store'⟩
      have hlost' (hfailed : settled ≠ .ok ∧ settled ≠ .duplicate ∨ ¬ env.Healthy) :
          MovesTo tableId env d d.job
            (({ s with store := store } : Service).actionLost env answered) := by
        obtain ⟨after, hrests, hrefunded⟩ := hholds.actionLost env answered
        exact ⟨_, hrests, .settlementLost hjob happend hdone hsettle hfailed hrefunded⟩
      have hkeep' (hrefused : ¬ (settled = .ok ∨ settled = .duplicate)) : store' = store := by
        rcases InMemoryGameStore.settleHand_cases hsettle with ⟨-, hstay⟩ | ⟨_, hok, -⟩
        · exact hstay
        · exact absurd (Or.inl hok) hrefused
      dsimp only
      rw [hsettle]
      rcases askStore_cases { s with store := store } env .settleHand (settled, store')
          (fun e => e = .ok ∨ e = .duplicate) (by simp) hkeep' with
        ⟨hgood, hask'⟩ | ⟨error, hbad, hask', hfailed⟩
      · rw [hask', if_pos hgood]
        exact ⟨_, (hholds.setStore store').actionStored answered view,
          .stored hjob happend hdone (Or.inr ⟨record, settled, rfl, hsettle, hgood⟩)⟩
      · rw [hask', if_neg hbad]
        exact hlost' (hfailed.imp_left not_or.mp)
  · rw [hask, if_neg hbad]
    exact hlost (hfailed.imp_left not_or.mp)

theorem cashOut_moves (h : s.Holds tableId { d with job := none })
    (hjob : d.job = some (.storage (.cashOut request))) :
    MovesTo tableId env d (some (.storage (.cashOut request)))
      (s.runStorage env (.cashOut request)) := by
  rw [← hjob]
  obtain rfl : s.tableId = tableId := h.agrees.id
  have hstore : s.store = d.store := h.agrees.store
  rcases hcall : d.store.cashOut s.tableId request.user (cashKey s.tableId request) with
    ⟨receipt, store⟩
  have hlost (hfailed : receipt.error ≠ .ok ∨ ¬ env.Healthy) :
      MovesTo s.tableId env d d.job (s.complete request).release :=
    ⟨_, (h.complete request).release, .noCashOut hjob hcall hfailed⟩
  have hkeep (hrefused : ¬ receipt.error = .ok) : store = s.store := by
    rw [hstore]
    exact InMemoryGameStore.cashOut_refused hcall hrefused
  unfold Service.runStorage
  dsimp only
  rw [hstore, hcall]
  dsimp only
  rcases askStore_cases s env .cashOut (receipt.error, store) (· = .ok) (by simp) hkeep with
    ⟨hdone, hask⟩ | ⟨error, hbad, hask, hfailed⟩
  · rw [hask, if_pos hdone]
    obtain ⟨next, hrests, hnext⟩ := (h.setStore store).postNext env
      (.removePlayer request) rfl (by simp) (by simp)
    refine ⟨_, hrests, .cashOut hjob hcall hdone ?_⟩
    rcases hnext with ⟨hnext, -⟩ | hnext
    · exact Or.inl hnext
    · exact Or.inr hnext
  · rw [hask, if_neg hbad]
    exact hlost hfailed

end AtStore

/-! ## The storage executor -/

theorem Rests.frame {s' : Service} (h : s.Rests tableId d)
    (hs : s' = { s with cache := s'.cache, sessions := s'.sessions, refunds := s'.refunds }) :
    s'.Rests tableId d := by
  rw [hs]
  exact ⟨h.agrees.frame rfl, h.fence⟩

theorem Rests.retryRefund (h : s.Rests tableId d) (attempt : Nat) :
    (s.retryRefund attempt).Rests tableId d := by
  unfold Service.retryRefund
  split_ifs
  · exact h
  · exact h.frame rfl

/-- A handler or a storage task posts an unfenced job by itself. -/
theorem Rests.notice_moves {x : RoomJob} {running : Option Job} (h : s.Rests tableId d)
    (hx : x.fenced = false) (hnotice : x.notice = true)
    (hquiet : ∀ j, running = some j → j.fenced = false) :
    MovesTo tableId env d running (s.postRoom env x) := by
  rcases h.postRoom env x hx with ⟨hroom, hrests⟩ | ⟨-, hrests⟩
  · exact ⟨_, hrests, .post hquiet hnotice hroom⟩
  · exact ⟨_, hrests, .stay hquiet⟩

theorem MovesTo.complete {running : Option Job} (h : s.MovesTo tableId env d running)
    (request : Request) : (s.complete request).MovesTo tableId env d running := by
  obtain ⟨d', hrests, hmove⟩ := h
  exact ⟨d', hrests.complete request, hmove⟩

theorem runStorage_moves {index : Nat} {x : StorageJob} (h : s.Rests tableId d)
    (hget : s.storage[index]? = some x) :
    MovesTo tableId env d (some (.storage x))
      ({ s with storage := s.storage.eraseIdx index }.runStorage env x) := by
  cases x with
  | sitDown request seat buyIn =>
    obtain ⟨hjob, hholds⟩ := h.runStorage hget rfl
    exact sitDown_moves hholds hjob
  | rollback request =>
    obtain ⟨hjob, hholds⟩ := h.runStorage hget rfl
    exact rollback_moves hholds hjob
  | beginHand request start =>
    obtain ⟨hjob, hholds⟩ := h.runStorage hget rfl
    exact beginHand_moves hholds hjob
  | storeAction request action settlement view =>
    obtain ⟨hjob, hholds⟩ := h.runStorage hget rfl
    exact storeAction_moves hholds hjob
  | cashOut request =>
    obtain ⟨hjob, hholds⟩ := h.runStorage hget rfl
    exact cashOut_moves hholds hjob
  | logout request atTable =>
    have hrests := h.runStorage_unfenced hget rfl
    have hquiet : ∀ j, some (Job.storage (.logout request atTable)) = some j →
        j.fenced = false := by
      rintro _ ⟨⟩
      rfl
    unfold Service.runStorage
    dsimp only
    split_ifs with hout
    · exact ⟨d, hrests.complete request, .stay hquiet⟩
    · exact (((hrests.setSession request.conn {}).frame rfl).notice_moves rfl rfl hquiet).complete
        request
    · exact ⟨d, ((hrests.setSession request.conn {}).frame rfl).complete request, .stay hquiet⟩
  | refund attempt =>
    have hrests := h.runStorage_unfenced hget rfl
    unfold Service.runStorage askStore
    dsimp only
    by_cases havail : env.available .abortTableAndRefund = true
    · simp only [if_pos havail]
      obtain rfl : s.tableId = tableId := hrests.agrees.id
      have hrefund : Rests s.tableId { d with store := (d.store.abortTableAndRefund s.tableId).2 }
          { s with
            storage := s.storage.eraseIdx index
            store := (d.store.abortTableAndRefund s.tableId).2 } :=
        ⟨hrests.agrees.setStore _, hrests.fence⟩
      rw [show s.store = d.store from hrests.agrees.store]
      split_ifs with hdone
      · exact ⟨_, hrefund, .refund⟩
      · exact ⟨_, hrefund.retryRefund _, .refund⟩
    · simp only [if_neg havail]
      rw [if_neg (by simp)]
      refine ⟨d, hrests.retryRefund _, .stay ?_⟩
      rintro _ ⟨⟩
      rfl

/-! ## Requests -/

/-- The request window accepts no request of user 0. -/
theorem begin_accepted {R : Type} {cache : IdempotencyCache R} {user : UserId}
    {request sequence : Nat} (h : (cache.begin user request sequence).1.status = .accepted) :
    user ≠ 0 := by
  rintro rfl
  exact absurd h (by simp [IdempotencyCache.begin])

section Requests

variable {request : Request}

theorem Rests.stays (h : s.Rests tableId d) (env : Env) : s.MovesTo tableId env d none :=
  ⟨d, h, .stay fun _ hj => absurd hj (by simp)⟩

/-- A request that posts its first job with the fence. -/
theorem Rests.take_moves {x : RoomJob} (h : s.Rests tableId d) (hfree : s.fence = false)
    (hopens : (Job.room x).Opens) :
    MovesTo tableId env d none ({ s with fence := true }.postRoom env x) := by
  have hholds := h.take hfree
  have hx : x.fenced = true ∧ (∀ request seat stack, x ≠ .seatPlayer request seat stack) ∧
      ∀ request, x ≠ .startAudit request := by
    cases x <;> simp_all [Job.Opens, RoomJob.fenced]
  obtain ⟨next, hrests, hnext⟩ := hholds.postNext env x hx.1 hx.2.1 hx.2.2
  rcases hnext with ⟨rfl, hroom⟩ | ⟨rfl, -⟩
  · exact ⟨_, hrests, .take hholds.free hopens fun _ _ => hroom⟩
  · have hd : { d with job := none } = d := by rw [← hholds.free]
    rw [hd] at hrests
    exact hrests.stays env

/-- **The switch of `handle`.** -/
theorem dispatch_moves {body : Body} (h : s.Rests tableId d) (hvalid : request.Valid) :
    MovesTo tableId env d none (s.dispatch env request body) := by
  have hbusy := (h.complete request).stays env
  cases body with
  | logout =>
    unfold Service.dispatch
    dsimp only
    split_ifs
    · exact (h.submit rfl).stays env
    · exact hbusy
  | sitDown seat buyIn =>
    unfold Service.dispatch
    dsimp only
    split_ifs with hheld hstorage
    · exact hbusy
    · rw [not_or, Bool.not_eq_true] at hheld
      have hholds := h.take hheld.2
      exact ⟨_, hholds.submit rfl, .take hholds.free hvalid fun _ hroom => absurd hroom (by simp)⟩
    · rw [not_or, Bool.not_eq_true] at hheld
      exact ((h.take hheld.2).complete request).release.stays env
  | ready ready =>
    unfold Service.dispatch
    dsimp only
    split_ifs with hheld
    · exact hbusy
    · rw [not_or, Bool.not_eq_true] at hheld
      exact h.take_moves hheld.2 hvalid
  | action handId type amount =>
    unfold Service.dispatch
    dsimp only
    split_ifs with hheld
    · exact hbusy
    · rw [not_or, Bool.not_eq_true] at hheld
      exact h.take_moves hheld.2 ⟨hvalid, rfl⟩
  | snapshot => exact h.notice_moves rfl rfl (by simp)
  | reconnect => exact (h.setSession request.conn _).notice_moves rfl rfl (by simp)
  | leave =>
    unfold Service.dispatch
    dsimp only
    split_ifs with hheld
    · exact hbusy
    · rw [not_or, Bool.not_eq_true] at hheld
      exact h.take_moves hheld.2 hvalid

theorem handle_moves {conn requestId clientSequence : Nat} {expired : Bool} {body : Body}
    (h : s.Rests tableId d) :
    MovesTo tableId env d none (s.handle env conn requestId clientSequence expired body) := by
  unfold Service.handle
  dsimp only
  by_cases hid : requestId = 0 ∨ 2 ^ 63 - 1 < requestId
  · rw [if_pos hid]
    exact h.stays env
  rw [if_neg hid]
  cases (s.sessions conn).userId with
  | none => exact h.stays env
  | some user =>
    dsimp only
    split_ifs with hexpired hseated haccepted
    · exact (h.setSession conn {}).notice_moves rfl rfl (by simp)
    · exact (h.setSession conn {}).stays env
    · have hvalid : Request.Valid { user := user, conn := conn, id := requestId } :=
        ⟨begin_accepted haccepted, by simp only; omega, by simp only; omega⟩
      exact dispatch_moves (h.frame rfl) hvalid
    · exact (h.frame rfl).stays env

theorem authenticate_moves {conn : Nat} {user : Option UserId} {expired : Bool}
    (h : s.Rests tableId d) : MovesTo tableId env d none (s.authenticate conn user expired) := by
  unfold Service.authenticate
  by_cases hlive : (s.sessions conn).userId.isSome = true ∧ expired = false
  · rw [if_pos hlive]
    exact h.stays env
  rw [if_neg hlive]
  cases user with
  | none =>
    dsimp only
    split_ifs
    · exact (h.setSession conn {}).stays env
    · exact h.stays env
  | some user =>
    dsimp only
    split_ifs
    · exact (((h.setSession conn {}).setSession conn _).frame rfl).stays env
    · exact ((h.setSession conn _).frame rfl).stays env

theorem onDisconnect_moves {conn : Nat} (h : s.Rests tableId d) :
    MovesTo tableId env d none (s.onDisconnect env conn) := by
  unfold Service.onDisconnect
  dsimp only
  cases (s.sessions conn).userId with
  | none => exact h.stays env
  | some user =>
    cases (s.sessions conn).atTable with
    | false => exact h.stays env
    | true => exact h.notice_moves rfl rfl (by simp)

end Requests

/-! ## Timers -/

theorem fireTimeout_moves {index : Nat} {timeout : Timeout} (h : s.Rests tableId d)
    (hget : s.timers[index]? = some timeout) :
    MovesTo tableId env d none
      ({ s with timers := s.timers.eraseIdx index }.fireTimeout env timeout) := by
  have hag := h.agrees
  have hrests : Rests tableId { d with timers := d.timers.eraseIdx index }
      { s with timers := s.timers.eraseIdx index } :=
    ⟨⟨hag.id, hag.holders, hag.table, hag.rooms, hag.store, hag.latest, by simp only [hag.timers],
      hag.pending, hag.past, hag.current⟩, h.fence⟩
  rw [hag.timers] at hget
  unfold Service.fireTimeout
  dsimp only
  split_ifs with hlive
  · rw [hag.latest] at hlive
    rcases hrests.postRoom env (.timeoutAudit timeout) rfl with
      ⟨hroom, hposted⟩ | ⟨hwhy, hposted⟩
    · exact ⟨_, hposted, .fire hget hlive hroom⟩
    · exact ⟨_, hposted, .expire hget (Or.inr hwhy)⟩
  · rw [hag.latest] at hlive
    exact ⟨_, hrests, .expire hget (Or.inl hlive)⟩

theorem fireRefund_rests {index attempt : Nat} (h : s.Rests tableId d) :
    ({ s with refunds := s.refunds.eraseIdx index }.fireRefund env attempt).Rests tableId d := by
  have hrests : Rests tableId d { s with refunds := s.refunds.eraseIdx index } := h.frame rfl
  unfold Service.fireRefund
  split_ifs
  · exact hrests.submit rfl
  · exact hrests.retryRefund _

/-! ## The refinement -/

/-- **Every step of the service is a move of its desk.** -/
theorem step_refines {s' : Service} {event : Event} (h : s.Rests tableId d)
    (hstep : s.step (event, env) = some s') : s'.MovesTo tableId env d (s.runs event) := by
  cases event with
  | request conn requestId clientSequence expired body =>
    obtain rfl := Option.some.inj hstep
    exact handle_moves h
  | authenticate conn user expired =>
    obtain rfl := Option.some.inj hstep
    exact authenticate_moves h
  | disconnect conn =>
    obtain rfl := Option.some.inj hstep
    exact onDisconnect_moves h
  | room => exact runRoom_moves h hstep
  | storage index =>
    obtain ⟨x, hget, rfl⟩ := Option.map_eq_some_iff.mp hstep
    have hruns : s.runs (.storage index) = some (.storage x) := by simp [Service.runs, hget]
    rw [hruns]
    exact runStorage_moves h hget
  | timer index =>
    obtain ⟨timeout, hget, rfl⟩ := Option.map_eq_some_iff.mp hstep
    exact fireTimeout_moves h hget
  | refund index =>
    obtain ⟨attempt, -, rfl⟩ := Option.map_eq_some_iff.mp hstep
    exact (fireRefund_rests h).stays env

/-- A service that has not seen a request. -/
def init (tableId : Nat) (nodeId : String) (store : InMemoryGameStore) : Service :=
  { tableId := tableId, nodeId := nodeId, store := store }

theorem init_rests (tableId : Nat) (nodeId : String) (store : InMemoryGameStore) :
    (init tableId nodeId store).Rests tableId (init tableId nodeId store).desk :=
  ⟨⟨rfl, rfl, rfl, rfl, rfl, rfl, rfl, rfl, by simp [init], by simp [init]⟩, rfl⟩

/-- **The invariant rule**: what holds of the first desk and is kept by the moves that the steps of
a run make holds of the last. -/
theorem run_desk {nodeId : String} {store : InMemoryGameStore}
    {trace : List (Step Service (Event × Env))}
    {J : List (Step Service (Event × Env)) → Desk → Prop}
    (hr : Run Steps (init tableId nodeId store) trace s)
    (h0 : J [] (init tableId nodeId store).desk)
    (hJ : ∀ (past : List (Step Service (Event × Env))) (u : Service) (event : Event) (env : Env)
      (v : Service), past ++ [⟨u, (event, env), v⟩] <+: trace → u.Rests tableId u.desk →
      Desk.Move tableId env.Healthy u.desk (u.runs event) v.desk → J past u.desk →
      J (past ++ [⟨u, (event, env), v⟩]) v.desk) :
    s.Rests tableId s.desk ∧ J trace s.desk := by
  induction hr with
  | nil => exact ⟨init_rests tableId nodeId store, h0⟩
  | @snoc past u v label hr hstep ih =>
    obtain ⟨event, env⟩ := label
    obtain ⟨hrests, hold⟩ := ih fun past' a e n b hfront =>
      hJ past' a e n b (hfront.trans (List.prefix_append _ _))
    obtain ⟨d', hrests', hmove⟩ := step_refines hrests hstep
    obtain rfl := hrests'.desk
    exact ⟨hrests', hJ past u event env v (List.prefix_refl _) hrests hmove hold⟩

/-! ## Runs of given events -/

/-- The step an event makes. -/
def perform (s : Service) (event : Event × Env) : Option ((Event × Env) × Service) :=
  (s.step event).map fun s' => (event, s')

/-- A list of events that all happen, as a run. -/
theorem run_of_perform {s' : Service} {events : List (Event × Env)}
    {trace : List (Step Service (Event × Env))}
    (h : replay perform s events = some (trace, s')) : Run Steps s trace s' := by
  refine replay_run (fun u event label v hp => ?_) h
  obtain ⟨w, hw, heq⟩ := Option.map_eq_some_iff.mp hp
  obtain ⟨rfl, rfl⟩ := Prod.mk.inj heq
  exact hw

/-- Events around which everything goes well. -/
def smoothly (events : List Event) : List (Event × Env) := events.map fun event => (event, {})

/-- A store with table 7 and the wallets of users 1 and 2. -/
def house : InMemoryGameStore :=
  let store := (({} : InMemoryGameStore).seedWallet 1 10000).2
  let store := (store.seedWallet 2 10000).2
  (store.createTable
    { tableId := 7, name := "table", nodeId := "node", config := { minBuyIn := 1 },
      createdBy := 1 }).2

/-- A request and the tasks it leads to: each in the room, or at the store. -/
def sit (conn requestId clientSequence seat : Nat) (buyIn : Int) : List Event :=
  [.request conn requestId clientSequence false (.sitDown seat buyIn), .storage 0, .room, .room]

def act (conn requestId clientSequence : Nat) (type : ActionType) (amount : Int) : List Event :=
  [.request conn requestId clientSequence false (.action 0 type amount), .room, .storage 0]

/-- Users 1 and 2 sit down with 1000 chips and are ready: the first hand is dealt and recorded. -/
def headsUp : List Event :=
  [.authenticate 1 (some 1) false, .authenticate 2 (some 2) false] ++ sit 1 1 1 0 1000 ++
    sit 2 1 1 1 1000 ++
    [.request 1 2 2 false (.ready true), .room, .room, .room] ++
    [.request 2 2 2 false (.ready true), .room, .room, .room, .storage 0, .room]

end Service

end PokerServer

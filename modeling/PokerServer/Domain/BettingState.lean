import PokerServer.Domain.Rollback
import PokerServer.Domain.Visibility

/-!
# The state of a betting round

`BettingState t₀ t`: what holds of a table on a betting street of the hand that began at `t₀`. The
current bet is the largest street commitment, the minimum raise is at least the big blind, whoever
was dealt in has its chips in front of it or in the pot, exactly the broke are all-in, and whoever
is asked can act.

Stacks are the exception. `abortHand` takes the awards of a settled hand back from whoever sits
there under the winner's id, and does not ask whether the stack covers them (`Overdraws`); the debt
stays at the table when the next hand begins. `bettingState_holds`: along a run without such an
abort every betting street is in order.
-/

namespace PokerServer

theorem Player.payTo_broke {p : Player} {target : Int} (hact : p.canAct = true)
    (h : (p.payTo target).status = .allIn) : (p.payTo target).stack = 0 := by
  simp only [Player.payTo] at h ⊢
  split_ifs at h with hzero
  · exact hzero
  · rw [(Player.canAct_iff.mp hact).1] at h
    exact absurd h (by decide)

namespace Table

variable {t₀ t t' u v : Table} {trace post : List Entry} {i j : Nat} {p q : Player} {op : TableOp}
  {e : TableError}

/-- **What holds of a table on a betting street of the hand that began at `t₀`.** -/
structure BettingState (t₀ t : Table) : Prop where
  stack : ∀ i q, t.seatAt i = some q → 0 ≤ q.stack
  commitment : ∀ i q, t.seatAt i = some q →
    0 ≤ q.streetCommitment ∧ q.streetCommitment ≤ q.handCommitment
  bet_reached : ∃ i q, t.seatAt i = some q ∧ q.streetCommitment = t.currentBet
  bet_max : ∀ i q, t.seatAt i = some q → q.streetCommitment ≤ t.currentBet
  raise : t.config.bigBlind ≤ t.minimumRaise
  chips : ∀ i p, t₀.seatAt i = some p → p.plays = true →
    ∃ q, t.seatAt i = some q ∧ q.id = p.id ∧ q.stack + q.handCommitment = p.stack
  dealt : ∀ i q, t.seatAt i = some q → q.status ≠ .waiting →
    ∃ p, t₀.seatAt i = some p ∧ p.plays = true ∧ p.id = q.id
  allIn : ∀ i q, t.seatAt i = some q → q.status ≠ .waiting → q.status ≠ .folded →
    (q.status = .allIn ↔ q.stack = 0)
  waiting : ∀ i q, t.seatAt i = some q → q.status = .waiting →
    q.streetCommitment = 0 ∧ q.handCommitment = 0 ∧ q.hasHole = false
  pending : ∀ id ∈ t.pendingAction, ∃ i q, t.seatAt i = some q ∧ q.id = id ∧ q.canAct = true
  acting : ∀ i, t.actingSeat = some i →
    (∃ q, t.seatAt i = some q ∧ q.id ∈ t.pendingAction) ∧
    ∀ j q, t.seatAt j = some q → q.canAct = true → q.id ∉ t.pendingAction →
      q.streetCommitment = t.currentBet

/-! ## Bets, raises and questions -/

/-- The part of the invariant that `Betting` and `Awaiting` leave open. -/
structure Tuned (t : Table) : Prop where
  posted : ∃ i q, t.seatAt i = some q ∧ q.status ≠ .waiting ∧ q.streetCommitment = t.currentBet
  raise : t.config.bigBlind ≤ t.minimumRaise
  broke : ∀ i q, t.seatAt i = some q → q.status = .allIn → q.stack = 0
  pending : t.pendingAction ⊆ t.canActIds

/-- Who acts next is no part of it. -/
theorem Tuned.pass (h : t.Tuned) (acting : Option Nat) : Tuned { t with actingSeat := acting } :=
  ⟨h.posted, h.raise, h.broke, h.pending⟩

/-- Whoever else can act still can after a player at the table changed. -/
theorem canActIds_setSeat {id : PlayerId} (hp : t.seatAt i = some p) (hid : id ≠ p.id)
    (h : id ∈ t.canActIds) : id ∈ (t.setSeat i (some q)).canActIds := by
  obtain ⟨j, r, hr, hact, rfl⟩ := mem_canActIds.mp h
  refine mem_canActIds.mpr ⟨j, r, ?_, hact, rfl⟩
  refine (seatAt_setSeat_ne ?_ _).trans hr
  rintro rfl
  rw [Option.some.inj (hp.symm.trans hr)] at hid
  exact hid rfl

/-- A player who is asked no more, whose street commitment stays the bet if it was the bet. -/
theorem Tuned.answered (h : t.Tuned) (hp : t.seatAt i = some p) (hplays : q.status ≠ .waiting)
    (hbroke : q.status = .allIn → q.stack = 0)
    (hbet : p.streetCommitment = t.currentBet → q.streetCommitment = t.currentBet) :
    ((t.setSeat i (some q)).removeFromActionSets p.id).Tuned := by
  refine ⟨?_, h.raise, fun j r hr hall => ?_, fun id hid => ?_⟩
  · obtain ⟨j, r, hr, hw, hposted⟩ := h.posted
    by_cases hij : i = j
    · subst hij
      rw [Option.some.inj (hp.symm.trans hr)] at hbet
      exact ⟨i, q, seatAt_setSeat_self (seatAt_lt hp) _, hplays, hbet hposted⟩
    · exact ⟨j, r, (seatAt_setSeat_ne hij _).trans hr, hw, hposted⟩
  · rcases seatAt_setSeat_cases hp hr with ⟨rfl, rfl⟩ | ⟨-, hr⟩
    · exact hbroke hall
    · exact h.broke j r hr hall
  · obtain ⟨hne, hid⟩ := Finset.mem_erase.mp hid
    exact canActIds_setSeat hp hne (h.pending hid)

/-- A lift of the bet. -/
theorem Tuned.lift {target raiseSize : Int} (h : t.Tuned) (hp : t.seatAt i = some p)
    (hact : p.canAct = true) : (t.lift i p target raiseSize).Tuned := by
  have hself : (t.setSeat i (some (p.payTo target))).seatAt i = some (p.payTo target) :=
    seatAt_setSeat_self (seatAt_lt hp) _
  have hplays : (p.payTo target).status ≠ .waiting :=
    (contends_iff.mp (Player.payTo_contends hact target)).2
  have hbroke : ∀ j r, (t.setSeat i (some (p.payTo target))).seatAt j = some r →
      r.status = .allIn → r.stack = 0 := by
    intro j r hr hall
    rcases seatAt_setSeat_cases hp hr with ⟨rfl, rfl⟩ | ⟨-, hr⟩
    · exact Player.payTo_broke hact hall
    · exact h.broke j r hr hall
  unfold Table.lift
  dsimp only
  split_ifs with hfull
  · exact ⟨⟨i, _, hself, hplays, Player.payTo_street p target⟩, h.raise.trans hfull, hbroke,
      Finset.erase_subset _ _⟩
  · refine ⟨⟨i, _, hself, hplays, Player.payTo_street p target⟩, h.raise, hbroke, fun id hid => ?_⟩
    obtain ⟨hne, hid⟩ := Finset.mem_erase.mp hid
    rcases Finset.mem_union.mp hid with hold | hnew
    · exact canActIds_setSeat hp hne (h.pending hold)
    · simp only [List.mem_toFinset, List.mem_map, List.mem_filter, Bool.and_eq_true] at hnew
      obtain ⟨r, ⟨hr, ⟨-, hact⟩, -⟩, rfl⟩ := hnew
      obtain ⟨j, hj⟩ := mem_players.mp hr
      exact mem_canActIds.mpr ⟨j, r, hj, hact, rfl⟩

theorem applyAction_tuned {command : ActionCommand} (h : t.Tuned) (hp : t.seatAt i = some p)
    (hsound : p.Sound t.currentBet) (hact : p.canAct = true)
    (happ : t.applyAction i p command = .ok u) : u.Tuned := by
  rcases applyAction_cases hp hsound hact happ with
    ⟨-, rfl⟩ | ⟨-, target, hlow, -, hbet, -, rfl⟩ | ⟨-, target, raiseSize, -, -, -, rfl⟩
  · exact h.answered hp (by simp) (by simp) fun hbet => hbet
  · refine h.answered hp (contends_iff.mp (Player.payTo_contends hact target)).2
      (Player.payTo_broke hact) fun hposted => ?_
    rw [Player.payTo_street]
    omega
  · exact h.lift hp hact

/-- A street that was just dealt, whoever is asked. -/
theorem Opened.tuned (h : Opened t u) (hbroke : ∀ i q, t.seatAt i = some q → q.status = .allIn →
    q.stack = 0) {pending : Finset PlayerId} (hpending : pending ⊆ u.canActIds)
    (acting : Option Nat) : Tuned { u with pendingAction := pending, actingSeat := acting } := by
  obtain ⟨d, p, -, hp, hw⟩ := h.betting.button
  refine ⟨⟨d, p, hp, hw, (h.street_zero d p hp).trans h.bet.symm⟩, h.raise.ge,
    fun i q hq hall => ?_, hpending⟩
  obtain ⟨r, hr, hrq⟩ := h.toPaidFrom.seat_back hq
  rw [hrq.stack, wonBy_nil, add_zero]
  exact hbroke i r hr (hrq.status ▸ hall)

theorem settleFoldWin_street (h : t.settleFoldWin = .ok t') : t'.street = .settled := by
  unfold settleFoldWin at h
  split at h
  · exact absurd h (by simp)
  · rw [Except.ok.injEq] at h
    rw [← h]
    rfl

theorem settleShowdown_street (h : t.settleShowdown = .ok t') : t'.street = .settled := by
  unfold settleShowdown at h
  simp only [Checked.bind_ok_iff, Checked.pure_ok_iff] at h
  obtain ⟨_, -, _, -, rfl⟩ := h
  rfl

/-- The loop of `advanceUntilActionOrSettlement`: a street it deals starts from nothing. -/
theorem advanceLoop_tuned {fuel : Nat} (hb : t.Betting) (ht : t.Tuned)
    (h : advanceLoop fuel t = .ok t') (hstreet : t'.street.betting = true) : t'.Tuned := by
  replace h := advances_of_loop h
  induction h with
  | folds _ hsettled =>
    rw [settleFoldWin_street hsettled] at hstreet
    exact absurd hstreet (by decide)
  | waits => exact ht.pass _
  | shows _ _ hsettled =>
    rw [settleShowdown_street hsettled] at hstreet
    exact absurd hstreet (by decide)
  | asks _ hnext =>
    have hopen := advanceStreet_spec hb hnext
    exact hopen.tuned ht.broke hopen.pending.le _
  | runsOut _ hnext _ _ ih =>
    have hopen := advanceStreet_spec hb hnext
    exact ih (hopen.betting.ask ∅ none) (hopen.tuned ht.broke (Finset.empty_subset _) none) hstreet

theorem concludeAction_tuned {seat : Nat} (hb : u.Betting) (hu : u.Tuned)
    (h : u.concludeAction seat = .ok t') (hstreet : t'.street.betting = true) : t'.Tuned := by
  unfold concludeAction at h
  split_ifs at h with hfew hdone
  · rw [settleFoldWin_street h] at hstreet
    exact absurd hstreet (by decide)
  · exact advanceLoop_tuned (hb.ask u.pendingAction none) (hu.pass none) h hstreet
  · rw [Except.ok.injEq] at h
    rw [← h]
    exact hu.pass _

theorem act_tuned {command : ActionCommand} {result : ActionResult} (hi : t.Inv)
    (ht : t.street.betting = true → t.Tuned) (h : t.act command = .ok (result, t'))
    (hstreet : t'.street.betting = true) : t'.Tuned := by
  by_cases hawait : t.Awaiting
  · rcases act_cases h with ⟨-, rfl⟩ | ⟨i, p, u, hbet, -, hp, -, hact, -, happ, hconc, -⟩
    · exact ht hstreet
    · obtain ⟨q, hacted, -⟩ := applyAction_acted hawait.toBetting hawait.matched hp hact happ
      have hu := applyAction_tuned (ht hbet) hp (hawait.sound i p hp) hact happ
      have hb := (hacted.sequenced (u.serverSequence + 1)).betting hp hawait.toBetting
      exact concludeAction_tuned hb ⟨hu.posted, hu.raise, hu.broke, hu.pending⟩ hconc hstreet
  · obtain ⟨-, rfl⟩ := act_refused hi hawait h
    exact ht hstreet

/-! ## The start of a hand -/

theorem Opening.tuned {deck : Deck} (h : t.Opening deck v) : v.Tuned := by
  refine ⟨?_, (h.raise.trans (by rw [h.config])).ge, fun i q hq hall => ?_, h.pending.le⟩
  · obtain ⟨i, p, hp, hplays, hbet⟩ := h.bet_posted
    obtain ⟨hole, hq⟩ := h.seat_some i p hp
    refine ⟨i, _, hq, ?_, ?_⟩
    · rw [Player.opens_of_plays hplays]
      dsimp only
      split_ifs <;> decide
    · rw [Player.opens_of_plays hplays, hbet]
  · obtain ⟨p, hole, hp, rfl⟩ := h.seat_back hq
    by_cases hplays : p.plays = true
    · rw [Player.opens_of_plays hplays] at hall ⊢
      dsimp only at hall ⊢
      split_ifs at hall with hzero
      exact hzero
    · rw [Player.opens_of_not_plays (Bool.not_eq_true _ ▸ hplays)] at hall
      exact absurd hall (by simp)

theorem Started.tuned {deck : Deck} (h : t.Started deck t') (hstreet : t'.street.betting = true) :
    t'.Tuned := by
  cases h with
  | awaiting opening two haw => exact opening.tuned
  | showdown opening runs hshow shows =>
    rw [hshow.street] at hstreet
    exact absurd hstreet (by decide)
  | stranded opening lone hst same =>
    have hv := opening.tuned
    rw [same]
    exact ⟨hv.posted, hv.raise, hv.broke, Finset.empty_subset _⟩

/-! ## The other operations -/

theorem not_betting_of_not_running (h : handIsRunning t.street = false)
    (hstreet : t.street.betting = true) : False := by
  rw [Street.running_of_betting hstreet] at h
  exact absurd h (by simp)

/-- Readiness and connection are no part of it. -/
theorem Tuned.sameBets {f : Player → Player} (h : t.Tuned) (hf : SameBets f) (n : Nat) :
    Tuned { t.mapSeats f with serverSequence := n } := by
  have hat : ∀ i, Table.seatAt { t.mapSeats f with serverSequence := n } i =
      (t.seatAt i).map f := seatAt_mapSeats t f
  refine ⟨?_, h.raise, fun i q hq hall => ?_, fun id hid => ?_⟩
  · obtain ⟨i, q, hq, hw, hposted⟩ := h.posted
    refine ⟨i, f q, by rw [hat, hq]; rfl, ?_, ?_⟩
    · rw [hf q]
      exact hw
    · rw [hf q]
      exact hposted
  · rw [hat, Option.map_eq_some_iff] at hq
    obtain ⟨p, hp, rfl⟩ := hq
    rw [hf p] at hall ⊢
    exact h.broke i p hp hall
  · obtain ⟨i, p, hp, hact, rfl⟩ := mem_canActIds.mp (h.pending hid)
    refine mem_canActIds.mpr ⟨i, f p, by rw [hat, hp]; rfl, ?_, ?_⟩
    · rw [hf p]
      exact hact
    · rw [hf p]

/-- Somebody who is not in the hand leaves. -/
theorem Tuned.leave (h : t.Tuned) (hp : t.seatAt i = some p) (hout : p.status = .waiting)
    (d : Option Nat) (n : Nat) :
    Tuned { t.setSeat i none with dealerSeat := d, serverSequence := n } := by
  have hkeep : ∀ {j q}, t.seatAt j = some q → q.status ≠ .waiting →
      (t.setSeat i none).seatAt j = some q := by
    intro j q hq hw
    refine (seatAt_setSeat_ne ?_ _).trans hq
    rintro rfl
    rw [Option.some.inj (hp.symm.trans hq)] at hout
    exact hw hout
  refine ⟨?_, h.raise, fun j q hq hall => ?_, fun id hid => ?_⟩
  · obtain ⟨j, q, hq, hw, hposted⟩ := h.posted
    exact ⟨j, q, hkeep hq hw, hw, hposted⟩
  · change (t.setSeat i none).seatAt j = some q at hq
    exact h.broke j q (seatAt_of_leave hq).2 hall
  · obtain ⟨j, q, hq, hact, rfl⟩ := mem_canActIds.mp (h.pending hid)
    refine mem_canActIds.mpr ⟨j, q, hkeep hq ?_, hact, rfl⟩
    rw [(Player.canAct_iff.mp hact).1]
    decide

/-- **A step keeps the bets in tune.** -/
theorem Tuned.step (hi : t.Inv) (ht : t.street.betting = true → t.Tuned)
    (hstep : t.Steps (op, e) t') (hstreet : t'.street.betting = true) : t'.Tuned := by
  rcases exec_effect hi hstep with ⟨-, rfl⟩ | ⟨rfl, heffect⟩
  · exact ht hstreet
  cases heffect with
  | sits hidle => exact (not_betting_of_not_running hidle hstreet).elim
  | leaves hp _ hout =>
    refine (ht hstreet).leave hp (hout.resolve_left fun hidle => ?_) _ _
    exact not_betting_of_not_running hidle hstreet
  | readies hidle => exact (not_betting_of_not_running hidle hstreet).elim
  | connects => exact (ht hstreet).sameBets (sameBets_ite (fun _ => rfl) _) _
  | starts _ _ _ hstarted => exact hstarted.tuned hstreet
  | aborts hhand =>
    rw [abortHand_eq hi.seating hhand] at hstreet
    exact absurd hstreet (by simp [Street.betting])
  | acts =>
    simp only [Steps, exec, Checked.bind_ok_iff, Checked.pure_ok_iff, Prod.exists,
      Prod.mk.injEq] at hstep
    obtain ⟨result, u, hact, -, rfl⟩ := hstep
    exact act_tuned hi ht hact hstreet

/-! ## Stacks -/

/-- Nobody is in debt. -/
def Solvent (t : Table) : Prop := ∀ i q, t.seatAt i = some q → 0 ≤ q.stack

/-- An accepted abort that takes more back from a player than it has and gets back. -/
def Overdraws (step : Entry) : Prop :=
  Aborts step ∧ ∃ p ∈ step.before.players,
    p.stack + p.handCommitment < wonBy step.before.revoked p.id

instance (step : Entry) : Decidable (Overdraws step) := inferInstanceAs (Decidable (_ ∧ _))

theorem Solvent.paid {awards : List PotAward} (h : u.Solvent) (hpaid : PaidFrom awards u t')
    (hwon : ∀ id, 0 ≤ wonBy awards id) : t'.Solvent := by
  intro i q hq
  obtain ⟨p, hp, hpq⟩ := hpaid.seat_back hq
  rw [hpq.stack]
  exact add_nonneg (h i p hp) (hwon p.id)

theorem solvent_mapSeats {f : Player → Player}
    (h : ∀ i p, t.seatAt i = some p → 0 ≤ (f p).stack) : (t.mapSeats f).Solvent := by
  intro i q hq
  rw [seatAt_mapSeats, Option.map_eq_some_iff] at hq
  obtain ⟨p, hp, rfl⟩ := hq
  exact h i p hp

theorem Opening.solvent {deck : Deck} (h : t.Opening deck v) (hs : t.Solvent) : v.Solvent := by
  intro i q hq
  obtain ⟨p, hole, hp, rfl⟩ := h.seat_back hq
  have hpos := hs i p hp
  by_cases hplays : p.plays = true
  · rw [Player.opens_of_plays hplays]
    dsimp only
    omega
  · rw [Player.opens_of_not_plays (Bool.not_eq_true _ ▸ hplays)]
    exact hpos

theorem Started.solvent {deck : Deck} (h : t.Started deck t') (hs : t.Solvent) : t'.Solvent := by
  cases h with
  | awaiting opening => exact opening.solvent hs
  | showdown opening runs hshow shows =>
    exact (opening.solvent hs).paid hshow.paid hshow.won_nonneg
  | stranded opening lone hst same =>
    rw [same]
    exact opening.solvent hs

/-- **A step leaves nobody in debt unless it overdraws.** -/
theorem Solvent.step (h : t.Solvent) (hi : t.Inv) (hstep : t.Steps (op, e) t')
    (hdraws : ¬ Overdraws ⟨t, (op, e), t'⟩) : t'.Solvent := by
  rcases exec_effect hi hstep with ⟨-, rfl⟩ | ⟨rfl, heffect⟩
  · exact h
  have hbuy := (blinds_pos hi.seating.valid).2.2.2.2
  intro j r hr
  cases heffect with
  | @sits id seat buyIn _ hrange _ _ henough =>
    change (t.setSeat seat _).seatAt j = some r at hr
    by_cases hj : seat = j
    · subst hj
      rw [seatAt_setSeat_self hrange, Option.some.injEq] at hr
      rw [← hr]
      dsimp only
      omega
    · exact h j r ((seatAt_setSeat_ne hj _).symm.trans hr)
  | @leaves id i p hp _ _ =>
    change (t.setSeat i none).seatAt j = some r at hr
    exact h j r (seatAt_of_leave hr).2
  | readies => exact solvent_mapSeats (fun i p hp => by split_ifs <;> exact h i p hp) j r hr
  | connects => exact solvent_mapSeats (fun i p hp => by split_ifs <;> exact h i p hp) j r hr
  | starts _ _ _ hstarted => exact hstarted.solvent h j r hr
  | aborts hhand =>
    rw [abortHand_eq hi.seating hhand] at hr
    refine solvent_mapSeats (fun i p hp => ?_) j r hr
    have hcovered : ¬ p.stack + p.handCommitment < wonBy t.revoked p.id := fun hlt =>
      hdraws ⟨rfl, p, mem_players.mpr ⟨i, hp⟩, hlt⟩
    simp only [Player.rollBack, Player.gain, Player.refund]
    omega
  | acts hawait _ hp _ _ hacted _ _ _ hout =>
    have hu : Solvent _ := fun k s hs => by
      rcases hacted.seat_cases hp hs with ⟨-, rfl⟩ | ⟨-, hs⟩
      · exact hacted.sound.solvent hacted.plays
      · exact h k s hs
    cases hout with
    | foldWin _ hwin => exact hu.paid hwin.paid hwin.won_nonneg j r hr
    | awaiting _ _ hpaid => exact hu.paid hpaid (fun _ => le_refl _) j r hr
    | showdown _ hshow => exact hu.paid hshow.paid hshow.won_nonneg j r hr

/-! ## Who is in the hand -/

/-- Nobody who was dealt in leaves before the hand is settled. -/
theorem Underway.present {config : TableConfig} {start : Entry}
    (hconfig : config.validateConfig = .ok) (h : Underway config trace t start post)
    (hstreet : t.street.betting = true) (hp : start.before.seatAt i = some p)
    (hplays : p.plays = true) : ¬ Left post p.id := by
  have hi := reach_inv hconfig h.reached
  obtain ⟨deck, -, -, hstarted⟩ := Starts.started h.starts hi h.step
  obtain ⟨⟨-, -, hquiet⟩, -, hstep, hrun⟩ := h
  have hi' : start.after.Inv := exec_inv hi hstep
  induction hrun with
  | nil => simp [Left]
  | @snoc post a b label hr hlast ih =>
    obtain ⟨op, e⟩ := label
    have hquiet' := fun step hs => hquiet step (List.mem_append_left _ hs)
    obtain ⟨hsince, hia⟩ := (hstarted.since hi.seating).run hi' hr hquiet'
    -- The street was a betting street before the step: the hand was neither over nor settled.
    have hbefore : a.street.betting = true := by
      cases hia with
      | idle hidle => exact absurd hidle.street hsince.hand
      | awaiting hawait => exact hawait.toBetting.street
      | stranded hst => exact hst.toBetting.street
      | settled hseats hset =>
        have := settled_stays (.settled hseats hset) (Run.snoc Run.nil hlast) hset fun step hs =>
          hquiet step (List.mem_append_right _ hs)
        rw [this] at hstreet
        exact absurd hstreet (by decide)
    have hstayed := ih hbefore hquiet'
    rw [left_snoc, not_or]
    refine ⟨hstayed, fun hleft => ?_⟩
    obtain ⟨rfl, rfl⟩ := Prod.mk.inj hleft
    obtain ⟨q, hq, hid⟩ := hsince.stays i p hp hstayed
    rcases exec_effect hia hlast with ⟨he, -⟩ | ⟨-, heffect⟩
    · exact he rfl
    cases heffect with
    | starts hdeals => cases hdeals
    | leaves hr' hid' hout =>
      obtain rfl := hia.seating.unique hr' hq (hid'.trans hid.symm)
      obtain rfl := Option.some.inj (hr'.symm.trans hq)
      have hw := hout.resolve_left fun hidle => not_betting_of_not_running hidle hbefore
      exact ((hsince.story _ _ hq).of_plays hp hplays hstayed hid).1 hw

/-! ## Runs -/

theorem bettingState_of_tuned {config : TableConfig} {start : Entry}
    (hconfig : config.validateConfig = .ok) (h : Underway config trace t start post)
    (hstreet : t.street.betting = true) (htuned : t.Tuned) (hsolvent : t.Solvent) :
    BettingState start.before t := by
  obtain ⟨hsince, hi⟩ := h.since hconfig
  have hb : t.Betting := by
    cases hi with
    | idle hidle => exact absurd hidle.street hsince.hand
    | awaiting hawait => exact hawait.toBetting
    | stranded hst => exact hst.toBetting
    | settled _ hset =>
      rw [hset] at hstreet
      exact absurd hstreet (by decide)
  have hstory : ∀ i q, t.seatAt i = some q → Story start.before post [] i q := fun i q hq => by
    have := hsince.story i q hq
    rwa [revoked_of_betting hstreet] at this
  refine
    { stack := hsolvent
      commitment := fun i q hq => ⟨(hb.sound i q hq).street_nonneg,
        (hb.sound i q hq).street_le_hand⟩
      bet_reached := ?_
      bet_max := fun i q hq => (hb.sound i q hq).street_le_bet
      raise := htuned.raise
      chips := fun i p hp hplays => ?_
      dealt := fun i q hq hstatus => ?_
      allIn := fun i q hq hwait hfold => ⟨htuned.broke i q hq, fun hzero => ?_⟩
      waiting := fun i q hq hwait => ?_
      pending := fun id hid => ?_
      acting := fun i hacting => ?_ }
  · obtain ⟨i, q, hq, -, hposted⟩ := htuned.posted
    exact ⟨i, q, hq, hposted⟩
  · have hstayed := h.present hconfig hstreet hp hplays
    obtain ⟨q, hq, hid⟩ := hsince.stays i p hp hstayed
    refine ⟨q, hq, hid, ?_⟩
    have hchips := ((hstory i q hq).of_plays hp hplays hstayed hid).2
    rwa [wonBy_nil, add_zero] at hchips
  · cases hstory i q hq with
    | dealt hseat hplays hid => exact ⟨_, hseat, hplays, hid.symm⟩
    | watching _ _ _ _ hapart => exact absurd hapart.status hstatus
    | joined _ _ hapart => exact absurd hapart.status hstatus
  · have hsound := hb.sound i q hq
    have hactive : q.status ≠ .active := fun ha => by
      have := hsound.active_pos ha
      omega
    have hpresent := hsound.present
    cases hs : q.status <;> simp_all
  · have hsound := hb.sound i q hq
    have hhand := hsound.waiting_hand hwait
    have hnn := hsound.street_nonneg
    have hle := hsound.street_le_hand
    refine ⟨by omega, hhand, ?_⟩
    cases hstory i q hq with
    | dealt _ _ _ _ _ hstatus => exact absurd hwait hstatus
    | watching _ _ _ _ hapart => exact hapart.hole
    | joined _ _ hapart => exact hapart.hole
  · obtain ⟨i, q, hq, hact, hqid⟩ := mem_canActIds.mp (htuned.pending hid)
    exact ⟨i, q, hq, hqid, hact⟩
  · cases hi with
    | idle hidle => exact absurd hidle.street hsince.hand
    | awaiting hawait =>
      refine ⟨?_, hawait.matched⟩
      obtain ⟨k, hk, hawaits⟩ := hawait.asking
      rw [hacting, Option.some.injEq] at hk
      subst hk
      obtain ⟨q, hq, -, hpend⟩ := awaits_iff.mp hawaits
      exact ⟨q, hq, hpend⟩
    | stranded hst =>
      rw [hst.acting] at hacting
      exact absurd hacting (by simp)
    | settled _ hset =>
      rw [hset] at hstreet
      exact absurd hstreet (by decide)

/-- **Every betting street is in order**, along every run in which no abort takes more back from a
player than it has. -/
theorem bettingState_holds {config : TableConfig} (hrun : Run Steps (new config) trace t)
    (hdraws : ∀ step ∈ trace, ¬ Overdraws step) (hstreet : t.street.betting = true) :
    ∃ start post, HandOf trace start post ∧ BettingState start.before t := by
  have hconfig : config.validateConfig = .ok := by
    by_contra hconfig
    rw [reach_new_invalid hconfig ⟨trace, hrun⟩] at hstreet
    exact absurd hstreet (by simp [new, Street.betting])
  obtain ⟨start, post, hunder⟩ := exists_underway hconfig hrun (ne_waiting_of_betting hstreet)
  have hsolvent : t.Inv ∧ t.Solvent := by
    refine hrun.guarded (I := fun t => t.Inv ∧ t.Solvent) (G := fun step => ¬ Overdraws step)
      ⟨reach_inv hconfig (Reaches.refl _), fun i q hq => ?_⟩ ?_ hdraws
    · rw [seatAt_new] at hq
      exact absurd hq (by simp)
    · rintro a ⟨op, e⟩ b ⟨hi, hs⟩ hstep hno
      exact ⟨exec_inv hi hstep, hs.step hi hstep hno⟩
  have htuned : t.Inv ∧ (t.street.betting = true → t.Tuned) := by
    refine hrun.invariant (I := fun t => t.Inv ∧ (t.street.betting = true → t.Tuned))
      ⟨reach_inv hconfig (Reaches.refl _), fun h => absurd h (by simp [new, Street.betting])⟩ ?_
    rintro a ⟨op, e⟩ b ⟨hi, ht⟩ hstep
    exact ⟨exec_inv hi hstep, Tuned.step hi ht hstep⟩
  exact ⟨start, post, hunder.toHandOf,
    bettingState_of_tuned hconfig hunder hstreet (htuned.2 hstreet) hsolvent.2⟩

theorem bettingState_preflop :
    ∃ trace t start post, Run Steps (new {}) trace t ∧ t.street = .preflop ∧
      HandOf trace start post ∧ BettingState start.before t := by
  have hcheck : (replay perform (new {}) twoSeated).any (fun r =>
      decide (r.2.street = .preflop ∧ ∀ step ∈ r.1, ¬ Overdraws step)) = true := by
    decide +kernel
  obtain ⟨⟨trace, t⟩, hr, hc⟩ := (Option.any_eq_true _ _).mp hcheck
  obtain ⟨hpreflop, hdraws⟩ := of_decide_eq_true hc
  have hrun := run_of_replay hr
  obtain ⟨start, post, hhand, hstate⟩ := bettingState_holds hrun hdraws (by rw [hpreflop]; rfl)
  exact ⟨trace, t, start, post, hrun, hpreflop, hhand, hstate⟩

/-- The debt an abort leaves is still there on the preflop of the next hand. -/
theorem debt_on_preflop :
    ∃ config trace t, config.validateConfig = .ok ∧ Run Steps (new config) trace t ∧
      (∀ step ∈ trace, step.label.2 = .ok) ∧ t.street = .preflop ∧
      (∃ q ∈ t.players, q.stack = -149) ∧
      ∀ start post, HandOf trace start post → ¬ BettingState start.before t := by
  have hcheck : (replay perform (new { minBuyIn := 1 }) (twoSeated ++
      [.act { playerId := 1, type := .fold }, .removePlayer 2, .seatPlayer 2 1 1, .abortHand,
        .seatPlayer 3 2 2000, .setReady 1 true, .setReady 3 true,
        .startHandWithDeck orderedDeck])).any (fun r =>
      decide ((∀ step ∈ r.1, step.label.2 = .ok) ∧ r.2.street = .preflop ∧
        ∃ q ∈ r.2.players, q.stack = -149)) = true := by
    decide +kernel
  obtain ⟨⟨trace, t⟩, hr, hc⟩ := (Option.any_eq_true _ _).mp hcheck
  obtain ⟨hall, hpreflop, q, hq, hdebt⟩ := of_decide_eq_true hc
  refine ⟨_, trace, t, by decide, run_of_replay hr, hall, hpreflop, ⟨q, hq, hdebt⟩, ?_⟩
  intro start post _ hstate
  obtain ⟨i, hi⟩ := mem_players.mp hq
  have hpos := hstate.stack i q hi
  omega

end Table

end PokerServer

import PokerServer.Application.RoomManager
import PokerServer.Domain.Secrecy
import PokerServer.Domain.Termination

/-!
# A timeout makes progress

The task of `RoomManager::onActionTimeout` (`src/poker/application/room_manager.cpp`) decides from a
snapshot whether the player may check, and `act` decides again.

* `Reached.awaiting_of_acting`: an acting seat means a betting round that waits for it, which is why
  `act` never refuses what the snapshot proposes (`Awaiting.act_timeout`).
* `Progresses t`: a timeout of the acting player under a current sequence is accepted, counts up,
  and checks or folds by what the player owes; any other leaves the table alone.
* `timeout_progresses`: so it is on every reachable table where the cards of a showdown can be
  counted. At one over a card that cannot be, `act` leaves the arrays of the evaluator
  (`timeout_leaves_the_arrays`).
-/

namespace PokerServer

namespace Table

variable {t t' u : Table} {i : Nat} {p q : Player} {op : TableOp} {e : TableError}

/-! ## The acting seat -/

/-- Outside the betting rounds no seat acts. -/
def ActsInBetting (t : Table) : Prop := t.street.betting = false → t.actingSeat = none

theorem settleFoldWin_acting (h : t.settleFoldWin = .ok t') : t'.actingSeat = none := by
  unfold settleFoldWin at h
  split at h
  · exact absurd h (by simp)
  · rw [Except.ok.injEq] at h
    rw [← h]
    rfl

theorem settleShowdown_acting (h : t.settleShowdown = .ok t') : t'.actingSeat = none := by
  unfold settleShowdown at h
  simp only [Checked.bind_ok_iff, Checked.pure_ok_iff] at h
  obtain ⟨_, -, _, -, rfl⟩ := h
  rfl

theorem betting_of_advanceStreet (h : t.advanceStreet = .ok t') : t'.street.betting = true := by
  obtain ⟨k, s, u, hfollows, ⟨_, _, _, _, -, -, -, rfl⟩, rfl⟩ := advanceStreet_ok h
  exact betting_of_follows hfollows

theorem advanceLoop_acting {fuel : Nat} (hb : t.street.betting = true)
    (h : advanceLoop fuel t = .ok t') : t'.ActsInBetting := by
  replace h := advances_of_loop h
  induction h with
  | folds _ hsettled => exact fun _ => settleFoldWin_acting hsettled
  | waits => exact fun hnot => absurd (hb.symm.trans hnot) (by decide)
  | shows _ _ hsettled => exact fun _ => settleShowdown_acting hsettled
  | asks _ hnext =>
    exact fun hnot => absurd ((betting_of_advanceStreet hnext).symm.trans hnot) (by decide)
  | runsOut _ hnext _ _ ih =>
    have hbNext := betting_of_advanceStreet hnext
    exact ih hbNext

theorem act_acting {command : ActionCommand} {result : ActionResult} (hold : t.ActsInBetting)
    (h : t.act command = .ok (result, t')) : t'.ActsInBetting := by
  rcases act_cases h with ⟨-, rfl⟩ | ⟨i, p, u, hb, -, hp, -, -, -, happ, hconc, -⟩
  · exact hold
  have hbNext : u.street.betting = true := by rw [(applyAction_keeps happ).1, hb]
  unfold concludeAction at hconc
  split_ifs at hconc with hfew hdone
  · exact fun _ => settleFoldWin_acting hconc
  · refine advanceLoop_acting ?_ hconc
    exact hbNext
  · rw [Except.ok.injEq] at hconc
    intro hnot
    rw [← hconc] at hnot
    exact absurd (hbNext.symm.trans hnot) (by decide)

theorem startHand_acting {deck : Deck} (hi : t.Inv) (h : t.startHand deck = .ok (.ok, t')) :
    t'.ActsInBetting := by
  rcases startHand_cases hi.seating h with ⟨hne, -⟩ | ⟨-, -, -, v, hopening, hrest⟩
  · exact absurd rfl hne
  have hb : v.street.betting = true := by rw [hopening.street]; rfl
  split_ifs at hrest with hacts
  · exact advanceLoop_acting (t := { v with pendingAction := ∅, actingSeat := none }) hb hrest
  · intro hnot
    rw [hrest] at hnot
    exact absurd (hb.symm.trans hnot) (by decide)

theorem ActsInBetting.step (hold : t.ActsInBetting) (hi : t.Inv) (hstep : t.Steps (op, e) t') :
    t'.ActsInBetting := by
  rcases exec_effect hi hstep with ⟨-, rfl⟩ | ⟨rfl, heffect⟩
  · exact hold
  cases heffect with
  | sits => exact hold
  | leaves => exact hold
  | readies => exact hold
  | connects => exact hold
  | starts hdeals => exact startHand_acting hi (hdeals.start hstep)
  | aborts hhand =>
    rw [abortHand_eq hi.seating hhand]
    exact fun _ => rfl
  | acts =>
    simp only [Steps, exec, Checked.bind_ok_iff, Checked.pure_ok_iff, Prod.exists,
      Prod.mk.injEq] at hstep
    obtain ⟨result, u, hact, -, rfl⟩ := hstep
    exact act_acting hold hact

/-- **A reachable table with an acting seat waits for it.** -/
theorem Reached.awaiting_of_acting (h : t.Reached) (hacting : t.actingSeat = some i) :
    t.Awaiting := by
  obtain ⟨config, hreach⟩ := h
  by_cases hconfig : config.validateConfig = .ok
  · obtain ⟨hi, hacts⟩ := hreach.invariant (I := fun t => t.Inv ∧ t.ActsInBetting)
      ⟨inv_new hconfig, fun _ => rfl⟩
      fun a l b hI hs => ⟨exec_inv hI.1 hs, hI.2.step hI.1 hs⟩
    refine hi.awaiting_of_acting ?_ hacting
    by_contra hnot
    rw [hacts (Bool.not_eq_true _ ▸ hnot)] at hacting
    exact absurd hacting (by simp)
  · rw [reach_new_invalid hconfig hreach] at hacting
    exact absurd hacting (by simp [new])

/-! ## What the snapshot proposes -/

/-- The check or fold a timeout of `p` stands for. -/
def timeoutType (t : Table) (p : Player) : ActionType :=
  if p.streetCommitment = t.currentBet then .check else .fold

theorem timeoutCommand_eq (hs : t.Seating) (hp : t.seatAt i = some p) :
    Room.timeoutCommand (t.snapshot (some p.id)) p.id =
      { playerId := p.id, type := t.timeoutType p, amount := 0 } := by
  have hfound := hs.findPlayer hp
  unfold findPlayer at hfound
  unfold Room.timeoutCommand snapshot timeoutType
  simp only [List.find?_map, Function.comp_def, hfound, Option.map_some, Option.any_some,
    beq_iff_eq]

theorem acting_snapshot (hacting : t.actingSeat = some i) (hp : t.seatAt i = some p)
    (viewer : Option PlayerId) : (t.snapshot viewer).actingPlayer = some p.id := by
  show (t.actingSeat.bind t.seatAt).map (·.id) = some p.id
  rw [hacting, Option.bind_some, hp, Option.map_some]

/-- **`act` accepts the check or fold of the player it waits for.** -/
theorem Awaiting.act_timeout {result : ActionResult} (h : t.Awaiting)
    (hacting : t.actingSeat = some i) (hp : t.seatAt i = some p)
    (hcall : t.act { playerId := p.id, type := t.timeoutType p, amount := 0 } = .ok (result, t')) :
    result.error = .ok := by
  obtain ⟨j, hj, hawaits⟩ := h.asking
  obtain rfl : i = j := Option.some.inj (hacting.symm.trans hj)
  obtain ⟨r, hr, hcan, hpending⟩ := awaits_iff.mp hawaits
  obtain rfl : p = r := Option.some.inj (hp.symm.trans hr)
  obtain ⟨u, hu⟩ : ∃ u, t.applyAction i p
      { playerId := p.id, type := t.timeoutType p, amount := 0 } = .ok u := by
    unfold applyAction timeoutType
    by_cases howes : p.streetCommitment = t.currentBet
    · simp only [ne_eq, howes, if_true, not_true_eq_false, if_false]
      exact ⟨_, rfl⟩
    · simp only [if_neg howes]
      exact ⟨_, rfl⟩
  have hattempt : t.attempt { playerId := p.id, type := t.timeoutType p, amount := 0 } =
      .ok (p.seat, u) :=
    attempt_ok h.toBetting.street hacting hp rfl hcan hpending hu
  rw [act_eq, hattempt] at hcall
  simp only [Checked.bind_ok_iff, Checked.pure_ok_iff, Prod.mk.injEq] at hcall
  obtain ⟨_, -, rfl, -⟩ := hcall
  rfl

/-- After the action the player is folded, or still contends for the pot. -/
theorem Awaiting.after_timeout {result : ActionResult} (h : t.Awaiting)
    (hacting : t.actingSeat = some i) (hp : t.seatAt i = some p)
    (hcall : t.act { playerId := p.id, type := t.timeoutType p, amount := 0 } = .ok (result, t'))
    (hok : result.error = .ok) :
    ∃ q, t'.seatAt i = some q ∧ q.id = p.id ∧
      (p.streetCommitment = t.currentBet → q.contends = true) ∧
      (p.streetCommitment ≠ t.currentBet → q.status = .folded) := by
  obtain ⟨j, r, q, u, hj, hr, -, -, hacted, -, hkind, houtcome, -⟩ := act_spec h hcall hok
  obtain rfl : i = j := Option.some.inj (hacting.symm.trans hj)
  obtain rfl : p = r := Option.some.inj (hp.symm.trans hr)
  obtain ⟨awards, hpaid⟩ := houtcome.paid
  obtain ⟨final, hfinal, hsame⟩ := hpaid.seat_some (hacted.seat_self hp)
  have hid : q.id = p.id := by rw [hacted.actor]
  refine ⟨final, hfinal, hsame.id.trans hid, fun hfree => ?_, fun howes => ?_⟩
  · rw [hsame.contends]
    rcases hkind with ⟨hfold, -⟩ | ⟨-, hcontends⟩
    · exact absurd hfold (by simp [timeoutType, hfree])
    · exact hcontends
  · rw [hsame.status]
    rcases hkind with ⟨-, rfl⟩ | ⟨hnot, -⟩
    · rfl
    · exact absurd (by simp [timeoutType, howes]) hnot

end Table

/-! ## The task -/

namespace Room

open Table

variable {t : Table}

/-- **What a timeout does to a table in an open room.** -/
structure Progresses (t : Table) : Prop where
  /-- The acting player, under no sequence or the table's own. -/
  current : ∀ i p, t.actingSeat = some i → t.seatAt i = some p →
    ∀ expected, expected = 0 ∨ expected = t.serverSequence → ∀ callback,
      ∃ result t', onActionTimeoutTask p.id expected callback { table := t } =
          .ok (actionReply callback p.id result t', { table := t' }) ∧
        t.act { playerId := p.id, type := t.timeoutType p, amount := 0 } = .ok (result, t') ∧
        result.error = .ok ∧ t.serverSequence < t'.serverSequence ∧
        ∃ q, t'.seatAt i = some q ∧ q.id = p.id ∧
          (p.streetCommitment = t.currentBet → q.contends = true) ∧
          (p.streetCommitment ≠ t.currentBet → q.status = .folded)
  /-- Any other sequence, or any other player. -/
  stale : ∀ player expected callback, (expected ≠ 0 ∧ expected ≠ t.serverSequence) ∨
      (∀ i p, t.actingSeat = some i → t.seatAt i = some p → p.id ≠ player) →
    ∃ result, result.error ≠ .ok ∧
      onActionTimeoutTask player expected callback { table := t } =
        .ok (actionReply callback player result t, { table := t })

theorem staleTimeout_iff {player : PlayerId} {expected : Nat} :
    staleTimeout (t.snapshot (some player)) player expected = true ↔
      (expected ≠ 0 ∧ t.serverSequence ≠ expected) ∨
        (t.snapshot (some player)).actingPlayer ≠ some player := by
  unfold staleTimeout
  rw [Bool.or_eq_true, Bool.and_eq_true, bne_iff_ne, bne_iff_ne, bne_iff_ne]
  rfl

/-- **A timeout of the acting player is applied, any other changes nothing**, on every reachable
table where the cards that a showdown would evaluate can be counted. -/
theorem timeout_progresses (h : t.Reached) (hcards : ∀ card ∈ t.atShowdown, card.Counted) :
    Progresses t where
  current := by
    intro i p hacting hp expected hexpected callback
    have hawait := h.awaiting_of_acting hacting
    have hreturns : ∃ result t',
        t.act { playerId := p.id, type := t.timeoutType p, amount := 0 } = .ok (result, t') := by
      obtain ⟨config, hreach⟩ := h
      rcases exec_returns_or hreach
        (.act { playerId := p.id, type := t.timeoutType p, amount := 0 }) with
        ⟨e, t', hexec⟩ | ⟨-, card, hcard, hbad⟩
      · simp only [exec, Checked.bind_ok_iff, Checked.pure_ok_iff, Prod.exists,
          Prod.mk.injEq] at hexec
        obtain ⟨result, u, hact, -, -⟩ := hexec
        exact ⟨result, u, hact⟩
      · simp only [TableOp.cards, List.append_nil] at hcard
        exact absurd (hcards card hcard) hbad
    obtain ⟨result, t', hact⟩ := hreturns
    have hok := hawait.act_timeout hacting hp hact
    have hlive : staleTimeout (t.snapshot (some p.id)) p.id expected = false := by
      rw [← Bool.not_eq_true, staleTimeout_iff, acting_snapshot hacting hp]
      rintro (⟨hne, hdiffers⟩ | hother)
      · rcases hexpected with hzero | hsame
        · exact hne hzero
        · exact hdiffers hsame.symm
      · exact hother rfl
    refine ⟨result, t', ?_, hact, hok, (h.accepted hact hok).grows,
      hawait.after_timeout hacting hp hact hok⟩
    unfold onActionTimeoutTask
    simp only [Bool.false_eq_true, if_false, hlive,
      timeoutCommand_eq hawait.toBetting.seating hp, hact]
    rfl
  stale := by
    intro player expected callback hother
    have hstale : staleTimeout (t.snapshot (some player)) player expected = true := by
      rw [staleTimeout_iff]
      rcases hother with ⟨hne, hdiffers⟩ | hothers
      · exact .inl ⟨hne, Ne.symm hdiffers⟩
      · refine .inr fun hacting => ?_
        have hseat : (t.actingSeat.bind t.seatAt).map (·.id) = some player := hacting
        obtain ⟨p, hp, hid⟩ := Option.map_eq_some_iff.mp hseat
        obtain ⟨i, hi, hpi⟩ := Option.bind_eq_some_iff.mp hp
        exact hothers i p hi hpi hid
    refine ⟨{ error := .notPlayersTurn
              message := "timeout is stale or no longer belongs to this player"
              serverSequence := t.serverSequence }, ?_, ?_⟩
    · simp
    · unfold onActionTimeoutTask
      simp only [Bool.false_eq_true, if_false, hstale, if_true]
      rfl

/-- Two players check a hand down to the last word on the river; the first card dealt has the index
of the four of clubs and the suit byte 197. -/
def counterfeitRiver : List TableOp :=
  [.seatPlayer 1 0 2000, .seatPlayer 2 1 2000, .setReady 1 true, .setReady 2 true,
    .startHandWithDeck (⟨3, 197⟩ :: orderedDeck.erase ⟨4, 0⟩),
    .act { playerId := 1, type := .call, amount := 0 },
    .act { playerId := 2, type := .check, amount := 0 },
    .act { playerId := 2, type := .check, amount := 0 },
    .act { playerId := 1, type := .check, amount := 0 },
    .act { playerId := 2, type := .check, amount := 0 },
    .act { playerId := 1, type := .check, amount := 0 },
    .act { playerId := 2, type := .check, amount := 0 }]

/-- Player 1 owes nothing, and the timeout gets no result. -/
theorem timeout_leaves_the_arrays : ∃ t : Table, t.Reached ∧ ¬ Progresses t := by
  have hcheck : (replay perform (new {}) counterfeitRiver).any (fun r =>
      decide (r.2.actingSeat = some 0 ∧ (r.2.seatAt 0).any (fun p =>
        (r.2.act { playerId := p.id, type := r.2.timeoutType p, amount := 0 }).toOption.isNone)))
        = true := by
    decide +kernel
  obtain ⟨⟨trace, t⟩, hr, hc⟩ := (Option.any_eq_true _ _).mp hcheck
  obtain ⟨hacting, hfaults⟩ := of_decide_eq_true hc
  obtain ⟨p, hp, hnone⟩ := (Option.any_eq_true _ _).mp hfaults
  refine ⟨t, ⟨_, trace, run_of_replay hr⟩, fun hprogress => ?_⟩
  obtain ⟨result, t', -, hact, -⟩ := hprogress.current 0 p hacting hp 0 (.inl rfl) false
  rw [hact] at hnone
  exact absurd hnone (by simp [Except.toOption])

/-- Heads-up before the flop, dealt from the 52 cards. -/
theorem timeout_progresses_headsUp : ∃ t : Table, t.Reached ∧ t.actingSeat = some 0 ∧
    Progresses t := by
  have hcheck : (replay perform (new {}) headsUp).any (fun r =>
      decide (r.2.actingSeat = some 0 ∧ ∀ card ∈ r.2.atShowdown, card.Counted)) = true := by
    decide +kernel
  obtain ⟨⟨trace, t⟩, hr, hc⟩ := (Option.any_eq_true _ _).mp hcheck
  obtain ⟨hacting, hcards⟩ := of_decide_eq_true hc
  have hreached : t.Reached := ⟨_, trace, run_of_replay hr⟩
  exact ⟨t, hreached, hacting, timeout_progresses hreached hcards⟩

end Room

end PokerServer

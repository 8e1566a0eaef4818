import PokerServer.Domain.Secrecy
import PokerServer.Domain.Termination

/-!
# Raise rights

Who may still raise on a street is a matter of what has happened on it. The table keeps two sets of
ids instead.

* `liftOf`: by how much an action lifts the current bet.
* `streetLog`: who has acted on the street since its last full raise, that one included, and the
  lift of that raise.
* `Rights log t`: the sets of `t` agree with the log. `applyAction_rights` is the step lemma of the
  `switch`; a street that is dealt begins with an empty log (`advanceLoop_rights`).
* `raise_rights`: so it is on every betting street of every run.
-/

namespace PokerServer.Table

variable {t t' u v w : Table} {i : Nat} {p q : Player} {op : TableOp} {e : TableError}
  {command : ActionCommand} {result : ActionResult} {trace : List Entry}

/-- By how much `act` lifts the current bet before it settles or deals on; 0 if it refuses. -/
def liftOf (t : Table) (command : ActionCommand) : Int :=
  match t.attempt command with
  | .error _ => 0
  | .ok (_, acted) => acted.currentBet - t.currentBet

/-- The street so far. -/
structure StreetLog where
  /-- Who has acted since the last full raise, its player included; without one, since the street
  began. -/
  actors : List PlayerId := []
  /-- The lift of the last full raise. -/
  lastFull : Option Int := none
  deriving Repr, DecidableEq

/-- An action that lifts the bet by `lift` under the minimum raise `minimum`. -/
def StreetLog.act (log : StreetLog) (id : PlayerId) (lift minimum : Int) : StreetLog :=
  if 0 < lift ∧ minimum ≤ lift then { actors := [id], lastFull := some lift }
  else { log with actors := id :: log.actors }

/-- One step of the table. A start and a change of the street begin a new log. -/
def StreetLog.push (log : StreetLog) (step : Entry) : StreetLog :=
  if Starts step ∨ step.after.street ≠ step.before.street then {}
  else match step.label with
    | (.act command, .ok) =>
      log.act command.playerId (step.before.liftOf command) step.before.minimumRaise
    | _ => log

/-- The log of the street a run is on. -/
def streetLog (trace : List Entry) : StreetLog := trace.foldl StreetLog.push {}

/-- **The rules of raising on a street with this log.** -/
structure FollowsRaises (log : StreetLog) (t : Table) : Prop where
  /-- Who can act may raise unless it has acted since the last full raise. -/
  allowed : ∀ p ∈ t.players, p.canAct = true → (p.id ∈ t.raiseAllowed ↔ p.id ∉ log.actors)
  minimum : t.minimumRaise = max t.config.bigBlind (log.lastFull.getD t.config.bigBlind)
  /-- Nobody lifts the bet who has acted since. -/
  lifts : ∀ command result t', t.act command = .ok (result, t') → result.error = .ok →
    0 < t.liftOf command → command.playerId ∉ log.actors
  /-- After a full raise everybody else who can act may raise. -/
  reopens : ∀ command result t', t.act command = .ok (result, t') → result.error = .ok →
    0 < t.liftOf command → t.minimumRaise ≤ t.liftOf command → t'.street = t.street →
      ∀ p ∈ t'.players, p.canAct = true → p.id ≠ command.playerId → p.id ∈ t'.raiseAllowed
  /-- Less than the minimum raise is all a player has. -/
  short : ∀ command result t', t.act command = .ok (result, t') → result.error = .ok →
    0 < t.liftOf command → t.liftOf command < t.minimumRaise →
      ∃ p ∈ t'.players, p.id = command.playerId ∧ p.status = .allIn

/-! ## The sets and the log -/

/-- **The sets of a table agree with the log.** -/
structure Rights (log : StreetLog) (t : Table) : Prop where
  allowed : ∀ i p, t.seatAt i = some p → p.canAct = true →
    (p.id ∈ t.raiseAllowed ↔ p.id ∉ log.actors)
  minimum : t.minimumRaise = log.lastFull.getD t.config.bigBlind
  large : t.config.bigBlind ≤ t.minimumRaise
  /-- While there is no bet, whoever is asked may raise. -/
  unbet : t.currentBet = 0 → t.pendingAction ⊆ t.raiseAllowed

variable {log : StreetLog}

theorem Rights.of_fresh (hallowed : t.raiseAllowed = t.canActIds)
    (hminimum : t.minimumRaise = t.config.bigBlind) (hpending : t.pendingAction ⊆ t.canActIds) :
    Rights {} t where
  allowed i p hp hact := by
    rw [hallowed]
    exact iff_of_true (mem_canActIds.mpr ⟨i, p, hp, hact, rfl⟩) (by simp)
  minimum := hminimum
  large := hminimum.ge
  unbet _ := hallowed ▸ hpending

/-- Who is asked first, and the count of the operations, are no part of it. -/
theorem Rights.pass (h : Rights log t) (acting : Option Nat) (n : Nat) :
    Rights log { t with actingSeat := acting, serverSequence := n } :=
  ⟨h.allowed, h.minimum, h.large, h.unbet⟩

theorem Rights.unasked (h : Rights log t) :
    Rights log { t with pendingAction := ∅, actingSeat := none } :=
  ⟨h.allowed, h.minimum, h.large, fun _ => Finset.empty_subset _⟩

/-! ## One action -/

/-- An action that leaves the bet alone takes the player out of both sets. -/
theorem Rights.answered (h : Rights log t) (hs : t.Seating) (hp : t.seatAt i = some p)
    (hid : q.id = p.id) :
    Rights { log with actors := p.id :: log.actors }
      ((t.setSeat i (some q)).removeFromActionSets p.id) where
  allowed j r hr hact := by
    change r.id ∈ t.raiseAllowed.erase p.id ↔ r.id ∉ p.id :: log.actors
    rw [Finset.mem_erase, List.mem_cons, not_or]
    rcases seatAt_setSeat_cases hp hr with ⟨rfl, rfl⟩ | ⟨hne, hr⟩
    · simp [hid]
    · have hother : r.id ≠ p.id := fun heq => hne (hs.unique hr hp heq)
      exact and_congr_right fun _ => h.allowed j r hr hact
  minimum := h.minimum
  large := h.large
  unbet hzero := Finset.erase_subset_erase _ (h.unbet hzero)

/-- A full raise. -/
theorem Rights.raised {target lift : Int} (hlarge : t.config.bigBlind ≤ lift) :
    Rights { actors := [p.id], lastFull := some lift }
      (({ t.setSeat i (some q) with currentBet := target, minimumRaise := lift }
        : Table).resetAfterFullRaise p.id) where
  allowed j r hr hact := by
    change r.id ∈ Finset.erase (t.setSeat i (some q)).canActIds p.id ↔ r.id ∉ [p.id]
    rw [Finset.mem_erase, List.mem_singleton]
    exact and_iff_left (mem_canActIds.mpr ⟨j, r, hr, hact, rfl⟩)
  minimum := rfl
  large := hlarge
  unbet _ := Finset.Subset.refl _

/-- A lift below the minimum raise. -/
theorem Rights.shorted {target : Int} (h : Rights log t) (hs : t.Seating)
    (hp : t.seatAt i = some p) (hid : q.id = p.id) (hpos : 0 < target) :
    Rights { log with actors := p.id :: log.actors }
      ((addUnderCalledPlayers { t.setSeat i (some q) with currentBet := target }
        p.id).removeFromActionSets p.id) where
  allowed j r hr hact := (h.answered hs hp hid).allowed j r hr hact
  minimum := h.minimum
  large := h.large
  unbet hzero := absurd hzero hpos.ne'

/-- An action that lifts the bet: by whom, to what, and when it may be short. -/
theorem applyAction_lifts (happ : t.applyAction i p command = .ok u)
    (hlift : t.currentBet < u.currentBet) :
    ∃ target, u = t.lift i p target (target - t.currentBet) ∧
      (p.id ∈ t.raiseAllowed ∨ t.currentBet = 0) ∧
      (target - t.currentBet < t.minimumRaise → target = p.streetCommitment + p.stack) := by
  unfold applyAction at happ
  cases htype : command.type <;> simp only [htype] at happ
  case fold =>
    rw [Except.ok.injEq] at happ
    exact absurd (happ ▸ hlift) (lt_irrefl _)
  case check =>
    split_ifs at happ
    rw [Except.ok.injEq] at happ
    exact absurd (happ ▸ hlift) (lt_irrefl _)
  case call =>
    split_ifs at happ
    rw [Except.ok.injEq] at happ
    exact absurd (happ ▸ hlift) (lt_irrefl _)
  case bet =>
    split_ifs at happ with hbet hfits hmin
    rw [Except.ok.injEq] at happ
    have hzero : t.currentBet = 0 := not_not.mp hbet
    refine ⟨command.amount, ?_, .inr hzero, fun hshort => ?_⟩
    · rw [← happ, hzero, sub_zero]
    · by_contra hne
      exact hmin ⟨by omega, hne⟩
  case raise =>
    split_ifs at happ with hbet hallowed hfits hmin
    rw [Except.ok.injEq] at happ
    refine ⟨command.amount, happ.symm, .inl hallowed, fun hshort => ?_⟩
    by_contra hne
    exact hmin ⟨hshort, hne⟩
  case allIn =>
    split_ifs at happ with hbroke hunder hallowed
    · rw [Except.ok.injEq] at happ
      exact absurd (happ ▸ hlift) (lt_irrefl _)
    · rw [Except.ok.injEq] at happ
      exact ⟨_, happ.symm, .inl hallowed, fun _ => rfl⟩

/-- Whoever lifts the bet has not acted since the last full raise. -/
theorem Rights.not_acted (h : Rights log t) (hp : t.seatAt i = some p) (hact : p.canAct = true)
    (hasked : p.id ∈ t.pendingAction) (hopen : p.id ∈ t.raiseAllowed ∨ t.currentBet = 0) :
    p.id ∉ log.actors := by
  refine (h.allowed i p hp hact).mp ?_
  rcases hopen with hallowed | hzero
  · exact hallowed
  · exact h.unbet hzero hasked

/-- **What the `switch` does to the rights.** -/
theorem applyAction_rights (h : Rights log t) (hb : t.Betting) (hp : t.seatAt i = some p)
    (hact : p.canAct = true) (happ : t.applyAction i p command = .ok u) :
    Rights (log.act p.id (u.currentBet - t.currentBet) t.minimumRaise) u := by
  have hs := hb.seating
  have hsound := hb.sound i p hp
  have hquiet : u.currentBet = t.currentBet →
      log.act p.id (u.currentBet - t.currentBet) t.minimumRaise =
        { log with actors := p.id :: log.actors } := by
    intro hsame
    unfold StreetLog.act
    exact if_neg (by omega)
  rcases applyAction_cases hp hsound hact happ with
    ⟨-, rfl⟩ | ⟨-, target, -, -, -, -, rfl⟩ | ⟨-, target', size', -, -, habove, rfl⟩
  · rw [hquiet rfl]
    exact h.answered hs hp rfl
  · rw [hquiet rfl]
    exact h.answered hs hp rfl
  · obtain ⟨target, heq, -, -⟩ := applyAction_lifts happ (by rw [lift_currentBet]; exact habove)
    have htarget := congrArg Table.currentBet heq
    rw [lift_currentBet, lift_currentBet] at htarget
    rw [heq, lift_currentBet]
    unfold StreetLog.act lift
    dsimp only
    by_cases hfull : t.minimumRaise ≤ target - t.currentBet
    · rw [if_pos ⟨by omega, hfull⟩, if_pos hfull]
      exact Rights.raised (h.large.trans hfull)
    · rw [if_neg (by omega), if_neg hfull]
      have hnn := hsound.street_nonneg
      have hle := hsound.street_le_bet
      exact h.shorted hs hp rfl (by omega)

/-- A short lift takes the whole stack. -/
theorem allIn_of_short (hp : t.seatAt i = some p) (happ : t.applyAction i p command = .ok u)
    (hlift : t.currentBet < u.currentBet)
    (hshort : u.currentBet - t.currentBet < t.minimumRaise) :
    ∃ q, u.seatAt i = some q ∧ q.id = p.id ∧ q.status = .allIn := by
  obtain ⟨target, rfl, -, hall⟩ := applyAction_lifts happ hlift
  rw [lift_currentBet] at hshort
  refine ⟨p.payTo target, ?_, rfl, ?_⟩
  · have hself : (t.setSeat i (some (p.payTo target))).seatAt i = some (p.payTo target) :=
      seatAt_setSeat_self (seatAt_lt hp) _
    rwa [seatAt_congr (lift_seats t i p target _)]
  · have hempty : p.stack - (target - p.streetCommitment) = 0 := by
      rw [hall hshort]
      omega
    unfold Player.payTo
    dsimp only
    rw [if_pos hempty]

/-! ## The streets -/

theorem advanceStreet_rights (h : t.advanceStreet = .ok t') : t'.Rights {} := by
  obtain ⟨k, s, u, -, ⟨_, _, _, _, -, -, -, rfl⟩, rfl⟩ := advanceStreet_ok h
  exact Rights.of_fresh rfl rfl (Finset.Subset.refl _)

/-- **The loop leaves the street as it is, or begins a new one.** -/
theorem advanceLoop_rights {fuel : Nat} (h : advanceLoop fuel t = .ok t')
    (hstreet : t'.street.betting = true) :
    (∃ acting, t' = { t with actingSeat := acting }) ∨ t'.Rights {} := by
  replace h := advances_of_loop h
  induction h with
  | folds _ hsettled =>
    rw [settleFoldWin_street hsettled] at hstreet
    exact absurd hstreet (by decide)
  | waits => exact .inl ⟨_, rfl⟩
  | shows _ _ hsettled =>
    rw [settleShowdown_street hsettled] at hstreet
    exact absurd hstreet (by decide)
  | @asks t u _ hnext => exact .inr ((advanceStreet_rights hnext).pass _ u.serverSequence)
  | @runsOut t u t' _ hnext _ _ ih =>
    right
    rcases ih hstreet with ⟨acting, rfl⟩ | hrights
    · exact (advanceStreet_rights hnext).unasked.pass acting u.serverSequence
    · exact hrights

theorem concludeAction_rights {seat : Nat} (h : u.concludeAction seat = .ok t')
    (hstreet : t'.street.betting = true) :
    (∃ acting, t' = { u with actingSeat := acting }) ∨ (t'.street ≠ u.street ∧ t'.Rights {}) := by
  rcases concludeAction_rounds h with hsettled | hlater | hsame
  · rw [hsettled] at hstreet
    exact absurd hstreet (by decide)
  · have hne : t'.street ≠ u.street := fun heq => by
      rw [heq] at hlater
      exact absurd hlater (lt_irrefl _)
    refine .inr ⟨hne, ?_⟩
    unfold concludeAction at h
    split_ifs at h with hfew hdone
    · rw [settleFoldWin_street h] at hstreet
      exact absurd hstreet (by decide)
    · rcases advanceLoop_rights h hstreet with ⟨acting, rfl⟩ | hrights
      · exact absurd rfl hne
      · exact hrights
    · rw [Except.ok.injEq] at h
      exact absurd (by rw [← h]; rfl) hne
  · exact .inl hsame

/-- The blinds are posted: everybody who can act is asked and may raise. -/
theorem Stages.rights {deck : Deck} {d s b n : Nat} (h : t.Stages deck d s b u w)
    (hs : t.Seating) : (w.setInitialActor b n).Rights {} := by
  have hopen : t.Opening deck (w.setInitialActor b n) := h.opening hs
  obtain ⟨_, _, _, _, hdealt⟩ := h.dealt
  have hsets : w.raiseAllowed = w.pendingAction := by
    have hposted := h.posted
    unfold postBlinds at hposted
    simp only [Checked.bind_ok_iff, Checked.pure_ok_iff] at hposted
    obtain ⟨u₁, hsmall, u₂, hbig, rfl⟩ := hposted
    obtain ⟨_, -, rfl⟩ := postBlindAt_ok hsmall
    obtain ⟨_, -, rfl⟩ := postBlindAt_ok hbig
    have hpending : u.pendingAction = ∅ := by rw [hdealt.frame]; rfl
    have hallowed : u.raiseAllowed = ∅ := by rw [hdealt.frame]; rfl
    change u.raiseAllowed ∪ _ = u.pendingAction ∪ _
    rw [hpending, hallowed]
  have hsame : (w.setInitialActor b n).raiseAllowed = (w.setInitialActor b n).pendingAction := by
    rw [setInitialActor_frame]
    exact hsets
  exact Rights.of_fresh (hsame.trans hopen.pending) (hopen.raise.trans (by rw [hopen.config]))
    hopen.pending.le

theorem startHand_rights {deck : Deck} (hs : t.Seating) (h : t.startHand deck = .ok (.ok, t'))
    (hstreet : t'.street.betting = true) : t'.Rights {} := by
  rcases startHand_stages hs h with ⟨hne, -⟩ | ⟨-, -, -, d, s, b, u, w, v, hstages, hv, hrest⟩
  · exact absurd rfl hne
  have hrights : v.Rights {} := hv ▸ hstages.rights hs
  split_ifs at hrest with hfew
  · rcases advanceLoop_rights hrest hstreet with ⟨acting, rfl⟩ | hnew
    · exact hrights.unasked.pass acting v.serverSequence
    · exact hnew
  · exact hrest ▸ hrights

/-! ## One call of `act` -/

/-- An accepted action: the player, and the table the `switch` leaves. -/
structure Switched (t : Table) (command : ActionCommand) (i : Nat) (p : Player) (u t' : Table) :
    Prop where
  awaiting : t.Awaiting
  seat : t.seatAt i = some p
  player : p.id = command.playerId
  able : p.canAct = true
  asked : p.id ∈ t.pendingAction
  applied : t.applyAction i p command = .ok u
  concluded : concludeAction { u with serverSequence := u.serverSequence + 1 } p.seat = .ok t'
  lift : t.liftOf command = u.currentBet - t.currentBet

theorem not_starts_act (t : Table) (command : ActionCommand) (e : TableError) (t' : Table) :
    ¬ Starts ⟨t, (.act command, e), t'⟩ := by
  rintro ⟨hbegins, -⟩
  exact absurd hbegins (by simp [TableOp.begins])

theorem act_switched (hi : t.Inv) (h : t.act command = .ok (result, t'))
    (hok : result.error = .ok) : ∃ i p u, t.Switched command i p u t' := by
  have hawait : t.Awaiting := by
    by_contra hnot
    exact (act_refused hi hnot h).1 hok
  rcases act_cases h with ⟨herr, -⟩ | ⟨i, p, u, hb, hacting, hp, hid, hact, hasked, happ, hconc, -⟩
  · exact absurd hok herr
  · refine ⟨i, p, u, hawait, hp, hid, hact, hasked, happ, hconc, ?_⟩
    unfold liftOf
    rw [attempt_ok hb hacting hp hid hact hasked happ]

namespace Switched

variable (h : t.Switched command i p u t')

include h

theorem street : u.street = t.street := (applyAction_keeps h.applied).1

/-- **An accepted action keeps the rights.** -/
theorem rights (hr : t.Rights log) (hstreet : t'.street.betting = true) :
    t'.Rights (log.push ⟨t, (.act command, .ok), t'⟩) := by
  have hnot := not_starts_act t command .ok t'
  unfold StreetLog.push
  rcases concludeAction_rights h.concluded hstreet with ⟨acting, rfl⟩ | ⟨hne, hnew⟩
  · have hsame : ¬ u.street ≠ t.street := not_not.mpr h.street
    rw [if_neg (not_or.mpr ⟨hnot, hsame⟩)]
    have hacted := applyAction_rights hr h.awaiting.toBetting h.seat h.able h.applied
    rw [← h.lift, h.player] at hacted
    exact hacted.pass acting _
  · have hother : t'.street ≠ t.street := fun heq => hne (heq.trans h.street.symm)
    rw [if_pos (.inr hother)]
    exact hnew

theorem not_acted (hr : t.Rights log) (hlift : 0 < t.liftOf command) :
    command.playerId ∉ log.actors := by
  rw [h.lift] at hlift
  obtain ⟨target, -, hopen, -⟩ := applyAction_lifts h.applied (by omega)
  rw [← h.player]
  exact hr.not_acted h.seat h.able h.asked hopen

theorem allIn (hlift : 0 < t.liftOf command) (hshort : t.liftOf command < t.minimumRaise) :
    ∃ q ∈ t'.players, q.id = command.playerId ∧ q.status = .allIn := by
  rw [h.lift] at hlift hshort
  have hb := h.awaiting.toBetting
  obtain ⟨q, hq, hid, hall⟩ := allIn_of_short h.seat h.applied (by omega) hshort
  obtain ⟨r, hacted, -⟩ := applyAction_acted hb h.awaiting.matched h.seat h.able h.applied
  have hacted' := hacted.sequenced (u.serverSequence + 1)
  obtain ⟨awards, hpaid⟩ :=
    (concludeAction_spec (hacted'.betting h.seat hb) hacted'.matched h.concluded).paid
  obtain ⟨final, hfinal, hsame⟩ := hpaid.seat_some hq
  exact ⟨final, mem_players.mpr ⟨i, hfinal⟩, (hsame.id.trans hid).trans h.player,
    hsame.status.trans hall⟩

end Switched

/-! ## The other operations -/

theorem push_of_not_act {step : Entry} (hstarts : ¬ Starts step)
    (hstreet : step.after.street = step.before.street)
    (hother : ∀ command, step.label ≠ (.act command, .ok)) : log.push step = log := by
  unfold StreetLog.push
  rw [if_neg (not_or.mpr ⟨hstarts, not_not.mpr hstreet⟩)]
  split
  · rename_i command hlabel
    exact absurd hlabel (hother command)
  · rfl

theorem Rights.connect {f : Player → Player} (h : t.Rights log) (hf : SameBets f) (n : Nat) :
    Rights log { t.mapSeats f with serverSequence := n } where
  allowed i q hq hact := by
    change (t.mapSeats f).seatAt i = some q at hq
    rw [seatAt_mapSeats, Option.map_eq_some_iff] at hq
    obtain ⟨p, hp, rfl⟩ := hq
    rw [hf p] at hact ⊢
    exact h.allowed i p hp hact
  minimum := h.minimum
  large := h.large
  unbet := h.unbet

theorem Rights.leave (h : t.Rights log) (i : Nat) (d : Option Nat) (n : Nat) :
    Rights log { t.setSeat i none with dealerSeat := d, serverSequence := n } where
  allowed j q hq hact := by
    change (t.setSeat i none).seatAt j = some q at hq
    exact h.allowed j q (seatAt_of_leave hq).2 hact
  minimum := h.minimum
  large := h.large
  unbet := h.unbet

/-- **A step keeps the sets and the log in agreement.** -/
theorem Rights.step (hi : t.Inv) (h : t.street.betting = true → t.Rights log)
    (hstep : t.Steps (op, e) t') (hstreet : t'.street.betting = true) :
    t'.Rights (log.push ⟨t, (op, e), t'⟩) := by
  rcases exec_effect hi hstep with ⟨hne, rfl⟩ | ⟨rfl, heffect⟩
  · rw [push_of_not_act (fun hs => hne hs.2) rfl fun command hl => hne (Prod.mk.inj hl).2]
    exact h hstreet
  cases heffect with
  | sits hidle => exact (not_betting_of_not_running hidle hstreet).elim
  | leaves =>
    rw [push_of_not_act (by simp [Starts, TableOp.begins]) rfl (by simp)]
    exact (h hstreet).leave _ _ _
  | readies hidle => exact (not_betting_of_not_running hidle hstreet).elim
  | connects =>
    rw [push_of_not_act (by simp [Starts, TableOp.begins]) rfl (by simp)]
    exact (h hstreet).connect (sameBets_ite (fun _ => rfl) _) _
  | starts hdeals =>
    have hstarts : Starts ⟨t, (op, .ok), t'⟩ := ⟨hdeals.begins, rfl⟩
    unfold StreetLog.push
    rw [if_pos (.inl hstarts)]
    exact startHand_rights hi.seating (hdeals.start hstep) hstreet
  | aborts hhand =>
    rw [abortHand_eq hi.seating hhand] at hstreet
    exact absurd hstreet (by simp [Street.betting])
  | acts hawait =>
    simp only [Steps, exec, Checked.bind_ok_iff, Checked.pure_ok_iff, Prod.exists,
      Prod.mk.injEq] at hstep
    obtain ⟨result, u, hact, hok, rfl⟩ := hstep
    obtain ⟨i, p, u, hswitched⟩ := act_switched hi hact hok
    exact hswitched.rights (h hawait.toBetting.street) hstreet

/-! ## Runs -/

theorem Rights.follows (h : t.Rights log) (hi : t.Inv) (hstreet : t.street.betting = true) :
    FollowsRaises log t where
  allowed p hp hact := by
    obtain ⟨i, hi⟩ := mem_players.mp hp
    exact h.allowed i p hi hact
  minimum := by
    rw [← h.minimum]
    exact (max_eq_right h.large).symm
  lifts command result t' hact hok hlift := by
    obtain ⟨i, p, u, hswitched⟩ := act_switched hi hact hok
    exact hswitched.not_acted h hlift
  reopens command result t' hact hok hlift hfull hsame q hq hcan hother := by
    obtain ⟨i, p, u, hswitched⟩ := act_switched hi hact hok
    have hrights := hswitched.rights h (by rw [hsame]; exact hstreet)
    have hnot := not_starts_act t command .ok t'
    unfold StreetLog.push at hrights
    rw [if_neg (not_or.mpr ⟨hnot, not_not.mpr hsame⟩)] at hrights
    dsimp only at hrights
    rw [StreetLog.act, if_pos ⟨hlift, hfull⟩] at hrights
    obtain ⟨j, hj⟩ := mem_players.mp hq
    exact (hrights.allowed j q hj hcan).mpr (by simpa using hother)
  short command result t' hact hok hlift hshort := by
    obtain ⟨i, p, u, hswitched⟩ := act_switched hi hact hok
    exact hswitched.allIn hlift hshort

theorem run_rights {config : TableConfig} (hconfig : config.validateConfig = .ok)
    (hrun : Run Steps (new config) trace t) :
    t.Inv ∧ (t.street.betting = true → t.Rights (streetLog trace)) := by
  induction hrun with
  | nil => exact ⟨inv_new hconfig, fun hb => absurd hb (by simp [new, Street.betting])⟩
  | @snoc trace v w label hpre hstep ih =>
    obtain ⟨op, e⟩ := label
    refine ⟨exec_inv ih.1 hstep, fun hstreet => ?_⟩
    unfold streetLog
    rw [List.foldl_append]
    exact Rights.step ih.1 ih.2 hstep hstreet

/-- **Raise rights follow full raises**, on every betting street of every run. -/
theorem raise_rights {config : TableConfig} (hrun : Run Steps (new config) trace t)
    (hstreet : t.street.betting = true) : FollowsRaises (streetLog trace) t := by
  have hconfig : config.validateConfig = .ok := by
    by_contra hconfig
    rw [reach_new_invalid hconfig ⟨trace, hrun⟩] at hstreet
    exact absurd hstreet (by simp [new, Street.betting])
  obtain ⟨hi, hrights⟩ := run_rights hconfig hrun
  exact (hrights hstreet).follows hi hstreet

/-- Player 1 raises, player 2 is all-in for less than a raise and player 3 calls: player 1 cannot
raise again. -/
theorem raise_rights_shortAllIn : ∃ trace t,
    Run Steps (new { smallBlind := 5, bigBlind := 10, minBuyIn := 100 }) trace t ∧
      streetLog trace = { actors := [3, 2, 1], lastFull := some 90 } ∧ t.actingSeat = some 0 ∧
      FollowsRaises (streetLog trace) t := by
  have hcheck : (replay perform (new { smallBlind := 5, bigBlind := 10, minBuyIn := 100 })
      [.seatPlayer 1 0 1000, .seatPlayer 2 1 150, .seatPlayer 3 2 1000, .setReady 1 true,
        .setReady 2 true, .setReady 3 true, .startHandWithDeck orderedDeck,
        .act { playerId := 1, type := .raise, amount := 100 },
            .act { playerId := 2, type := .allIn },
        .act { playerId := 3, type := .call }]).any (fun r =>
          decide (r.2.street.betting = true ∧
            streetLog r.1 = { actors := [3, 2, 1], lastFull := some 90 } ∧
            r.2.actingSeat = some 0)) = true := by
    decide +kernel
  obtain ⟨⟨trace, t⟩, hr, hc⟩ := (Option.any_eq_true _ _).mp hcheck
  obtain ⟨hstreet, hlog, hacting⟩ := of_decide_eq_true hc
  have hrun := run_of_replay hr
  exact ⟨trace, t, hrun, hlog, hacting, raise_rights hrun hstreet⟩

end PokerServer.Table

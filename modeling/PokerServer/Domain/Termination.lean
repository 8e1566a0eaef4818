import Mathlib.Data.Prod.Lex
import PokerServer.Domain.BettingState
import PokerServer.Domain.Faultless
import PokerServer.Domain.Progress
import PokerServer.Domain.Reached
import PokerServer.Lib.Loops

/-!
# Every hand ends

* `advanceRound` is the body of the `while (true)` of `advanceUntilActionOrSettlement`. The loop
  ends from every table whatsoever, with the result the model computes (`loops_advance_iff`).
* `handMeasure` compares the streets left, the chips of those who can act, and the number of players
  still to be asked, in this order. A successful action that does not settle the hand lowers it
  (`act_lowers`): it goes to a later street, puts chips in or folds them, or is a check, which takes
  the player off the list. Nothing else that happens during a hand raises it (`step_keeps`).
* `hand_ends`: so only finitely many actions succeed in a hand.
-/

namespace PokerServer

/-- The chips of a player who can act. -/
def Player.liveStack (p : Player) : Int := if p.canAct then p.stack else 0

theorem Player.liveStack_nonneg (p : Player) : 0 ≤ p.liveStack := by
  unfold liveStack
  split_ifs with hact
  · exact (canAct_iff.mp hact).2.le
  · exact le_refl 0

theorem Player.liveStack_of_canAct {p : Player} (h : p.canAct = true) :
    p.liveStack = p.stack ∧ 0 < p.liveStack := by
  have hlive : p.liveStack = p.stack := if_pos h
  exact ⟨hlive, hlive ▸ (canAct_iff.mp h).2⟩

namespace Table

variable {t t' u : Table} {i : Nat} {p q : Player} {command : ActionCommand}
  {result : ActionResult}

/-! ## The street loop -/

/-- One round of `advanceUntilActionOrSettlement`: it returns a table, or goes on with one. -/
def advanceRound (t : Table) : Except Fault (Table ⊕ Table) :=
  if t.contenders ≤ 1 then do
    let t ← t.settleFoldWin
    return .inl t
  else if !t.bettingRoundComplete then .ok (.inl t.awaitActor)
  else if t.street = .river then do
    let t ← t.settleShowdown
    return .inl t
  else do
    let t ← t.advanceStreet
    if t.actionable ≤ 1 then return .inr { t with pendingAction := ∅, actingSeat := none }
    else return .inl { t with actingSeat := t.firstPostflopActor }

theorem rounds_pos_of_advanceStreet (h : t.advanceStreet = .ok t') : 0 < rounds t'.street := by
  obtain ⟨k, s, u, hfollows, ⟨_, _, _, _, -, -, -, rfl⟩, rfl⟩ := advanceStreet_ok h
  change 0 < rounds s
  generalize t.street = s₀ at hfollows
  cases hfollows <;> decide

/-- With the streets left as its bound, the loop is the loop without a bound. -/
theorem loops_advanceLoop (fuel : Nat) : ∀ {t : Table}, 0 < fuel → rounds t.street ≤ fuel →
    Loops advanceRound t (advanceLoop fuel t) := by
  induction fuel with
  | zero => intro t hpos _; omega
  | succ fuel ih =>
    intro t _ hrounds
    have hround : advanceRound t = advanceRound t := rfl
    conv_rhs at hround => unfold advanceRound
    rw [advanceLoop]
    split_ifs at hround ⊢ with hfew hopen hriver
    · cases hsettle : t.settleFoldWin with
      | error fault => rw [hsettle] at hround; exact .throws hround
      | ok settled => rw [hsettle] at hround; exact .returns hround
    · exact .returns hround
    · cases hsettle : t.settleShowdown with
      | error fault => rw [hsettle] at hround; exact .throws hround
      | ok settled => rw [hsettle] at hround; exact .returns hround
    · cases hstreet : t.advanceStreet with
      | error fault => rw [hstreet] at hround; exact .throws hround
      | ok next =>
        rw [hstreet] at hround
        simp only [bind, Except.bind] at hround ⊢
        have hless := advanceStreet_rounds hstreet
        have hleft := rounds_pos_of_advanceStreet hstreet
        split_ifs at hround ⊢ with hacts
        · exact .again hround (ih (by omega) (show rounds next.street ≤ fuel by omega))
        · exact .returns hround

/-- **The loop of `advanceUntilActionOrSettlement` ends, from any table**, and with nothing but
what the bounded loop computes. -/
theorem loops_advance_iff (t : Table) (r : Except Fault Table) :
    Loops advanceRound t r ↔ r = t.advanceUntilActionOrSettlement := by
  have hends : Loops advanceRound t t.advanceUntilActionOrSettlement :=
    loops_advanceLoop 4 (by decide) (by cases h : t.street <;> decide)
  constructor
  · exact fun h => h.unique hends
  · rintro rfl
    exact hends

/-! ## The measure -/

/-- The chips of all who can act. -/
def liveStack (t : Table) : Int := (t.players.map Player.liveStack).sum

/-- Streets left, chips of those who can act, and players still to be asked. -/
def handMeasure (t : Table) : Nat ×ₗ (Nat ×ₗ Nat) :=
  toLex (rounds t.street, toLex (t.liveStack.toNat, t.pendingAction.card))

theorem handMeasure_lt_iff : t'.handMeasure < t.handMeasure ↔
    rounds t'.street < rounds t.street ∨ rounds t'.street = rounds t.street ∧
      (t'.liveStack.toNat < t.liveStack.toNat ∨ t'.liveStack.toNat = t.liveStack.toNat ∧
        t'.pendingAction.card < t.pendingAction.card) := by
  unfold handMeasure
  rw [Prod.Lex.toLex_lt_toLex, Prod.Lex.toLex_lt_toLex]

theorem liveStack_congr (h : t'.seats = t.seats) : t'.liveStack = t.liveStack := by
  unfold liveStack
  rw [players_congr h]

theorem liveStack_nonneg (t : Table) : 0 ≤ t.liveStack := by
  refine List.sum_nonneg fun live hlive => ?_
  obtain ⟨p, -, rfl⟩ := List.mem_map.mp hlive
  exact p.liveStack_nonneg

theorem liveStack_setSeat (hp : t.seatAt i = some p) :
    (t.setSeat i (some q)).liveStack = t.liveStack - p.liveStack + q.liveStack :=
  sum_setSeat_some hp Player.liveStack

theorem toNat_liveStack_lt (h : u.liveStack < t.liveStack) :
    u.liveStack.toNat < t.liveStack.toNat := by
  have hu := u.liveStack_nonneg
  omega

/-- Who pays on the street has less to act with. -/
theorem payTo_liveStack {target : Int} (hact : p.canAct = true)
    (hmore : p.streetCommitment < target) : (p.payTo target).liveStack < p.liveStack := by
  obtain ⟨hlive, hpos⟩ := Player.liveStack_of_canAct hact
  by_cases hstill : (p.payTo target).canAct = true
  · have hstack : (p.payTo target).stack = p.stack - (target - p.streetCommitment) := rfl
    rw [(Player.liveStack_of_canAct hstill).1, hstack, hlive]
    omega
  · have hzero : (p.payTo target).liveStack = 0 := if_neg hstill
    rw [hzero]
    exact hpos

/-! ## Actions -/

/-- **An action puts chips in or folds them, or takes a player off the list.** -/
theorem applyAction_lowers (hb : t.Betting) (hp : t.seatAt i = some p) (hact : p.canAct = true)
    (hasked : p.id ∈ t.pendingAction) (h : t.applyAction i p command = .ok u) :
    u.liveStack < t.liveStack ∨
      u.liveStack = t.liveStack ∧ u.pendingAction.card < t.pendingAction.card := by
  have hsound := hb.sound i p hp
  obtain ⟨hlive, hpos⟩ := Player.liveStack_of_canAct hact
  rcases applyAction_cases hp hsound hact h with
    ⟨-, rfl⟩ | ⟨-, target, hlow, -, -, -, rfl⟩ | ⟨-, target, raiseSize, -, -, hbet, rfl⟩
  · left
    have hfolded : ({ p with status := .folded } : Player).liveStack = 0 := by
      simp [Player.liveStack, Player.canAct]
    have hset := liveStack_setSeat (q := { p with status := .folded }) hp
    rw [hfolded] at hset
    exact lt_of_eq_of_lt hset (by omega)
  · by_cases hcheck : target = p.streetCommitment
    · subst hcheck
      rw [Player.payTo_self hact, setSeat_self hp]
      exact .inr ⟨rfl, Finset.card_erase_lt_of_mem hasked⟩
    · have hset := liveStack_setSeat (q := p.payTo target) hp
      have hless := payTo_liveStack hact (by omega : p.streetCommitment < target)
      exact .inl (lt_of_eq_of_lt hset (by omega))
  · left
    have hset := liveStack_setSeat (q := p.payTo target) hp
    have hreach := hsound.street_le_bet
    have hless := payTo_liveStack hact (by omega : p.streetCommitment < target)
    rw [liveStack_congr (lift_seats t i p target raiseSize), hset]
    omega

/-- The street loop never goes back a street. -/
theorem Advances.rounds_le (h : Advances t t') :
    t'.street = .settled ∨ rounds t'.street ≤ rounds t.street := by
  induction h with
  | folds _ hsettled => exact .inl (settleFoldWin_street hsettled)
  | waits => exact .inr (Nat.le_refl _)
  | shows _ _ hsettled => exact .inl (settleShowdown_street hsettled)
  | asks _ hnext =>
    rw [advanceStreet_rounds hnext]
    exact .inr (Nat.le_succ _)
  | runsOut _ hnext _ _ ih =>
    rw [advanceStreet_rounds hnext]
    exact ih.imp_right Nat.le_succ_of_le

/-- When the betting round is over the loop goes to a later street. -/
theorem advance_rounds_lt (hfew : ¬ t.contenders ≤ 1) (hdone : t.bettingRoundComplete = true)
    (h : t.advanceUntilActionOrSettlement = .ok t') :
    t'.street = .settled ∨ rounds t'.street < rounds t.street := by
  cases advances_of_loop h with
  | folds few => exact absurd few hfew
  | waits _ asked => exact absurd (hdone.symm.trans asked) (by simp)
  | shows _ _ hsettled => exact .inl (settleShowdown_street hsettled)
  | asks _ hnext =>
    rw [advanceStreet_rounds hnext]
    exact .inr (Nat.lt_succ_self _)
  | runsOut _ hnext _ hrest =>
    rw [advanceStreet_rounds hnext]
    exact hrest.rounds_le.imp_right Nat.lt_succ_of_le

theorem concludeAction_rounds {seat : Nat} (h : u.concludeAction seat = .ok t') :
    t'.street = .settled ∨ rounds t'.street < rounds u.street ∨
      ∃ acting, t' = { u with actingSeat := acting } := by
  unfold concludeAction at h
  split_ifs at h with hfew hdone
  · exact .inl (settleFoldWin_street h)
  · exact (advance_rounds_lt (t := { u with actingSeat := none }) hfew hdone h).imp_right .inl
  · rw [Except.ok.injEq] at h
    exact .inr (.inr ⟨_, h.symm⟩)

/-- **A successful action that does not settle the hand lowers the measure.** -/
theorem act_lowers (hi : t.Inv) (h : t.act command = .ok (result, t')) (hok : result.error = .ok)
    (hgoing : t'.street ≠ .settled) : t'.handMeasure < t.handMeasure := by
  have hawait : t.Awaiting := by
    by_contra hnot
    exact (act_refused hi hnot h).1 hok
  rcases act_cases h with ⟨herr, -⟩ | ⟨i, p, u, -, -, hp, -, hact, hasked, happ, hconc, -⟩
  · exact absurd hok herr
  have hstreet := (applyAction_keeps happ).1
  have hlower := applyAction_lowers hawait.toBetting hp hact hasked happ
  rw [handMeasure_lt_iff]
  rcases concludeAction_rounds hconc with hsettled | hlater | ⟨acting, rfl⟩
  · exact absurd hsettled hgoing
  · have hlater : rounds t'.street < rounds u.street := hlater
    rw [hstreet] at hlater
    exact .inl hlater
  · refine .inr ⟨congrArg rounds hstreet, ?_⟩
    rcases hlower with hless | ⟨hsame, hfewer⟩
    · exact .inl (toNat_liveStack_lt hless)
    · exact .inr ⟨congrArg Int.toNat hsame, hfewer⟩

/-! ## The other operations -/

theorem liveStack_leave (hp : t.seatAt i = some p) (hout : p.status = .waiting) :
    (t.setSeat i none).liveStack = t.liveStack := by
  have hlive : p.liveStack = 0 := by
    simp [Player.liveStack, Player.canAct, hout]
  have hset := sum_setSeat (seatAt_lt hp) none Player.liveStack
  rw [hp] at hset
  simpa [liveStack, amountAt, hlive] using hset

theorem liveStack_mapSeats {f : Player → Player} (hf : ∀ p, (f p).liveStack = p.liveStack) :
    (t.mapSeats f).liveStack = t.liveStack := by
  unfold liveStack
  rw [players_mapSeats, List.map_map]
  exact congrArg List.sum (List.map_congr_left fun p _ => hf p)

theorem handMeasure_congr (hstreet : t'.street = t.street) (hlive : t'.liveStack = t.liveStack)
    (hpending : t'.pendingAction = t.pendingAction) : t'.handMeasure = t.handMeasure := by
  unfold handMeasure
  rw [hstreet, hlive, hpending]

/-- **What else succeeds during a hand leaves the measure as it is.** -/
theorem step_keeps {op : TableOp} {e : TableError} (hi : t.Inv) (hstep : t.Steps (op, e) t')
    (hnot : ∀ command, op = .act command → e ≠ .ok) (hb : t.street.betting = true)
    (hb' : t'.street.betting = true) : t'.handMeasure = t.handMeasure := by
  rcases exec_effect hi hstep with ⟨-, rfl⟩ | ⟨rfl, heffect⟩
  · rfl
  cases heffect with
  | sits hidle => exact (not_betting_of_not_running hidle hb).elim
  | leaves hp _ hout =>
    have hwaiting := hout.resolve_left fun hidle => not_betting_of_not_running hidle hb
    exact handMeasure_congr rfl (liveStack_leave hp hwaiting) rfl
  | readies hidle => exact (not_betting_of_not_running hidle hb).elim
  | connects =>
    refine handMeasure_congr rfl (liveStack_mapSeats fun p => ?_) rfl
    split_ifs <;> rfl
  | starts _ hidle _ _ => exact (not_betting_of_not_running hidle hb).elim
  | aborts hhand =>
    rw [abortHand_eq hi.seating hhand] at hb'
    exact absurd hb' (by simp [Street.betting])
  | acts => exact absurd rfl (hnot _ rfl)

/-- An accepted action, as a label. -/
def ActsOk (label : TableOp × TableError) : Prop := ∃ command, label = (.act command, .ok)

theorem step_measure {label : TableOp × TableError} (hi : t.Inv) (hstep : t.Steps label t')
    (hb : t.street.betting = true) (hb' : t'.street.betting = true) :
    t'.handMeasure ≤ t.handMeasure ∧ (ActsOk label → t'.handMeasure < t.handMeasure) := by
  obtain ⟨op, e⟩ := label
  by_cases hacts : ActsOk (op, e)
  · obtain ⟨command, hlabel⟩ := hacts
    obtain ⟨rfl, rfl⟩ := Prod.mk.inj hlabel
    simp only [Steps, exec, Checked.bind_ok_iff, Checked.pure_ok_iff, Prod.exists,
      Prod.mk.injEq] at hstep
    obtain ⟨result, u, hact, hok, rfl⟩ := hstep
    have hlower := act_lowers hi hact hok fun hs => by rw [hs] at hb'; exact absurd hb' (by decide)
    exact ⟨hlower.le, fun _ => hlower⟩
  · refine ⟨(step_keeps hi hstep (fun command hop hok => ?_) hb hb').le, fun h => absurd h hacts⟩
    exact hacts ⟨command, by rw [hop, hok]⟩

theorem steps_act (h : t.act command = .ok (result, t')) (hok : result.error = .ok) :
    t.Steps (.act command, .ok) t' := by
  simp only [Steps, exec, Checked.bind_ok_iff, Checked.pure_ok_iff, Prod.exists, Prod.mk.injEq]
  exact ⟨result, t', h, hok, rfl⟩

theorem Inv.betting_of_running (hi : t.Inv) (h : handIsRunning t.street = true) :
    t.street.betting = true := by
  cases hi with
  | idle hidle => rw [hidle.street] at h; exact absurd h (by decide)
  | awaiting hawait => exact hawait.toBetting.street
  | stranded hst => exact hst.toBetting.street
  | settled _ hsettled => rw [hsettled] at h; exact absurd h (by decide)

/-- During one hand actions succeed finitely often, whatever else is called in between. -/
theorem acts_finite {s : Nat → Table} {label : Nat → TableOp × TableError} (hi : (s 0).Inv)
    (hsteps : ∀ n, (s n).Steps (label n) (s (n + 1)))
    (hgoing : ∀ n, handIsRunning (s n).street = true) :
    ∃ last, ∀ n, last ≤ n → ¬ ActsOk (label n) := by
  have hinv : ∀ n, (s n).Inv := by
    intro n
    induction n with
    | zero => exact hi
    | succ n ih => exact exec_inv ih (hsteps n)
  have hmeasure := fun n => step_measure (hinv n) (hsteps n)
    ((hinv n).betting_of_running (hgoing n)) ((hinv (n + 1)).betting_of_running (hgoing (n + 1)))
  obtain ⟨last, hlast⟩ := exists_last_descent (f := fun n => (s n).handMeasure)
    fun n => (hmeasure n).1
  exact ⟨last, fun n hn hacts => hlast n hn ((hmeasure n).2 hacts)⟩

/-- **Every hand ends**: a successful action that does not settle the hand lowers a well-founded
measure, no sequence of actions succeeds for ever, nor do infinitely many among the operations of
one hand, and the street loop ends. -/
theorem hand_ends (h : t.Reached) :
    (∀ command result t', t.act command = .ok (result, t') → result.error = .ok →
      t'.street ≠ .settled → t'.handMeasure < t.handMeasure) ∧
    (¬ ∃ s : Nat → Table, s 0 = t ∧ ∀ n, ∃ command result,
      (s n).act command = .ok (result, s (n + 1)) ∧ result.error = .ok) ∧
    (∀ (s : Nat → Table) (label : Nat → TableOp × TableError), s 0 = t →
      (∀ n, (s n).Steps (label n) (s (n + 1))) → (∀ n, handIsRunning (s n).street = true) →
        ∃ last, ∀ n, last ≤ n → ¬ ActsOk (label n)) ∧
    ∀ (u : Table) (r : Except Fault Table),
      Loops advanceRound u r ↔ r = u.advanceUntilActionOrSettlement := by
  refine ⟨fun command result t' hact hok hgoing => ?_, ?_, ?_, loops_advance_iff⟩
  · exact act_lowers (h.inv (steps_act hact hok)) hact hok hgoing
  · rintro ⟨s, rfl, hacts⟩
    choose command result hact hok using hacts
    have hsteps := fun n => steps_act (hact n) (hok n)
    have hgoing : ∀ n, handIsRunning (s n).street = true := by
      intro n
      rcases act_cases (hact n) with ⟨herr, -⟩ | ⟨i, p, u, hbetting, -⟩
      · exact absurd (hok n) herr
      · exact Street.running_of_betting hbetting
    obtain ⟨last, hlast⟩ := acts_finite (h.inv (hsteps 0)) hsteps hgoing
    exact hlast last (Nat.le_refl last) ⟨command last, rfl⟩
  · rintro s label rfl hsteps hgoing
    rcases h.inv_or with hi | ⟨config, -, hnew⟩
    · exact acts_finite hi hsteps hgoing
    · have hrunning := hgoing 0
      rw [hnew] at hrunning
      exact absurd hrunning (by simp [new, handIsRunning])

/-- Three players on the preflop: no sequence of their actions succeeds for ever. -/
theorem hand_ends_threeHanded : ∃ t : Table, t.Reached ∧ t.street = .preflop ∧ t.Live ∧
    ¬ ∃ s : Nat → Table, s 0 = t ∧ ∀ n, ∃ command result,
      (s n).act command = .ok (result, s (n + 1)) ∧ result.error = .ok := by
  have hcheck : (replay perform (new { minBuyIn := 1 }) (threeHanded 1000 1000)).any (fun r =>
      decide (r.2.street = .preflop ∧ r.2.Live)) = true := by
    decide +kernel
  obtain ⟨⟨trace, t⟩, hr, hc⟩ := (Option.any_eq_true _ _).mp hcheck
  obtain ⟨hpreflop, hlive⟩ := of_decide_eq_true hc
  have hreached : t.Reached := ⟨_, trace, run_of_replay hr⟩
  exact ⟨t, hreached, hpreflop, hlive, (hand_ends hreached).2.1⟩

end Table

end PokerServer

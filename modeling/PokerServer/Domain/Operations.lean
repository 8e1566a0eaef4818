import PokerServer.Domain.Starting
import PokerServer.Lib.Runs

/-!
# Runs of a table

`TableOp` is the public interface of `Table` and `exec` runs one operation; a step of a table is an
operation with the error code it returned. `Inv` says in which states a run can be: no hand, a hand
that waits for a player, a hand nobody is asked in, or a settled hand. It holds initially and every
operation keeps it (`exec_inv`), so it holds in every state a run of any length reaches
(`reach_inv`).
-/

namespace PokerServer

/-- The public operations of `Table` that change it. -/
inductive TableOp where
  | seatPlayer (id : PlayerId) (seat : Nat) (buyIn : Int)
  | removePlayer (id : PlayerId)
  | setReady (id : PlayerId) (ready : Bool)
  | setConnected (id : PlayerId) (connected : Bool)
  | startHand (deck : FullDeck)
  | startHandWithDeck (cards : List Card)
  | abortHand
  | act (command : ActionCommand)
  deriving DecidableEq

namespace Table

variable {t t' : Table} {i j : Nat} {p q : Player} {e : TableError}

/-- Run one operation: the error code it returns and the table it leaves. -/
def exec (t : Table) : TableOp → Except Fault (TableError × Table)
  | .seatPlayer id seat buyIn => .ok (t.seatPlayer id seat buyIn)
  | .removePlayer id => .ok (t.removePlayer id)
  | .setReady id ready => .ok (t.setReady id ready)
  | .setConnected id connected => .ok (t.setConnected id connected)
  | .startHand deck => t.startHand deck.toDeck
  | .startHandWithDeck cards => t.startHandWithDeck cards
  | .abortHand => .ok t.abortHand
  | .act command => do
    let (result, t) ← t.act command
    return (result.error, t)

/-- One step of a table: an operation and the code it returned. -/
def Steps (t : Table) (label : TableOp × TableError) (t' : Table) : Prop :=
  t.exec label.1 = .ok (label.2, t')

/-- The step an operation makes, if it returns. -/
def perform (t : Table) (op : TableOp) : Option ((TableOp × TableError) × Table) :=
  match t.exec op with
  | .ok (e, t') => some ((op, e), t')
  | .error _ => none

theorem steps_of_perform {op : TableOp} {label : TableOp × TableError}
    (h : t.perform op = some (label, t')) : t.Steps label t' := by
  unfold perform at h
  split at h
  · rename_i e u he
    simp only [Option.some.injEq, Prod.mk.injEq] at h
    obtain ⟨rfl, rfl⟩ := h
    exact he
  · exact absurd h (by simp)

/-- A list of operations that all return, as a run. -/
theorem run_of_replay {ops : List TableOp} {trace : List (Step Table (TableOp × TableError))}
    (h : replay perform t ops = some (trace, t')) : Run Steps t trace t' := by
  refine replay_run (fun s op label u hp => ?_) h
  exact steps_of_perform hp

/-! ## The states of a run -/

/-- No hand, and nobody has chips in the pot. -/
structure Idle (t : Table) : Prop where
  seating : t.Seating
  street : t.street = .waiting
  waiting : ∀ i p, t.seatAt i = some p → p.status = .waiting ∧ p.handCommitment = 0

/-- The states a table can be in between operations. -/
inductive Inv (t : Table) : Prop
  | idle (h : t.Idle)
  | awaiting (h : t.Awaiting)
  | stranded (h : t.Stranded)
  | settled (seating : t.Seating) (street : t.street = .settled)

theorem Inv.seating (h : t.Inv) : t.Seating := by
  cases h with
  | idle h => exact h.seating
  | awaiting h => exact h.toBetting.seating
  | stranded h => exact h.toBetting.seating
  | settled h _ => exact h

theorem seatAt_new (config : TableConfig) (i : Nat) : (new config).seatAt i = none := by
  unfold new seatAt
  simp only [List.getElem?_replicate]
  split_ifs <;> rfl

theorem inv_new {config : TableConfig} (h : config.validateConfig = .ok) : (new config).Inv := by
  refine .idle ⟨⟨h, by simp [new], fun hp => ?_, fun hp => ?_⟩, rfl, fun i p hp => ?_⟩ <;>
  · rw [seatAt_new] at hp
    exact absurd hp (by simp)

/-! ## Seating and unseating -/

theorem seating_setSeat_none (hs : t.Seating) (i : Nat) (d : Option Nat) (n : Nat) :
    Seating { t.setSeat i none with dealerSeat := d, serverSequence := n } := by
  have hback : ∀ {j p}, (t.setSeat i none).seatAt j = some p → t.seatAt j = some p :=
    fun h => (seatAt_of_leave h).2
  exact ⟨hs.valid, (length_setSeat t i none).trans hs.size, fun hp => hs.index (hback hp),
    fun hp hq => hs.unique (hback hp) (hback hq)⟩

theorem seating_setSeat_some {id : PlayerId} (hs : t.Seating) (hlt : i < t.seats.length)
    (hnew : t.findPlayer id = none) (stack : Int) (n : Nat) :
    Seating { t.setSeat i (some { id := id, seat := i, stack := stack }) with
      serverSequence := n } := by
  have hcases : ∀ {j p}, (t.setSeat i (some { id := id, seat := i, stack := stack })).seatAt j =
      some p → (j = i ∧ p = { id := id, seat := i, stack := stack }) ∨
        (j ≠ i ∧ t.seatAt j = some p) := by
    intro j p hp
    by_cases hij : i = j
    · subst hij
      rw [seatAt_setSeat_self hlt] at hp
      exact Or.inl ⟨rfl, (Option.some.inj hp).symm⟩
    · rw [seatAt_setSeat_ne hij] at hp
      exact Or.inr ⟨Ne.symm hij, hp⟩
  refine ⟨hs.valid, (length_setSeat t i _).trans hs.size, fun hp => ?_, fun hp hq hid => ?_⟩
  · rcases hcases hp with ⟨rfl, rfl⟩ | ⟨-, hp⟩
    · rfl
    · exact hs.index hp
  · rcases hcases hp with ⟨hi, rfl⟩ | ⟨-, hp'⟩ <;> rcases hcases hq with ⟨hj, rfl⟩ | ⟨-, hq'⟩
    · rw [hi, hj]
    · exact absurd hid.symm (findPlayer_none hnew hq')
    · exact absurd hid (findPlayer_none hnew hp')
    · exact hs.unique hp' hq' hid

/-- What `seatPlayer` returns. -/
theorem seatPlayer_cases {id : PlayerId} {seat : Nat} {buyIn : Int}
    (h : t.seatPlayer id seat buyIn = (e, t')) :
    (e ≠ .ok ∧ t' = t) ∨
    (e = .ok ∧ handIsRunning t.street = false ∧ seat < t.seats.length ∧
      t.findPlayer id = none ∧ t.seatAt seat = none ∧
      t' = { t.setSeat seat (some { id := id, seat := seat, stack := buyIn }) with
        serverSequence := t.serverSequence + 1 }) := by
  unfold seatPlayer at h
  split_ifs at h with hv hrun hlt hfind hseat hbuy <;> simp only [Prod.mk.injEq] at h
  all_goals first | exact Or.inl ⟨h.1 ▸ by decide, h.2.symm⟩ | skip
  rw [Bool.not_eq_true] at hrun hfind hseat
  rw [Option.isSome_eq_false_iff, Option.isNone_iff_eq_none] at hfind hseat
  exact Or.inr ⟨h.1.symm, hrun, by omega, hfind, hseat, h.2.symm⟩

/-- What `removePlayer` returns. -/
theorem removePlayer_cases {id : PlayerId} (h : t.removePlayer id = (e, t')) :
    (e ≠ .ok ∧ t' = t) ∨
    ∃ i p, e = .ok ∧ t.seatAt i = some p ∧ p.id = id ∧
      (handIsRunning t.street = false ∨ p.status = .waiting) ∧
      t' = { t.setSeat i none with
        dealerSeat := if t.dealerSeat = some i then none else t.dealerSeat
        serverSequence := t.serverSequence + 1 } := by
  unfold removePlayer at h
  split at h
  · simp only [Prod.mk.injEq] at h
    exact Or.inl ⟨h.1 ▸ by decide, h.2.symm⟩
  · rename_i i hi
    obtain ⟨p, hp, hid⟩ := seatOf_some hi
    split at h <;> rename_i hbusy <;> rw [Prod.mk.injEq] at h
    · exact Or.inl ⟨h.1 ▸ by decide, h.2.symm⟩
    · refine Or.inr ⟨i, p, h.1.symm, hp, hid, ?_, h.2.symm⟩
      rw [hp] at hbusy
      simp only [Option.any_some, Bool.and_eq_true, bne_iff_ne, ne_eq, not_and, not_not] at hbusy
      by_cases hrun : handIsRunning t.street = true
      · exact Or.inr (hbusy hrun)
      · exact Or.inl (Bool.not_eq_true _ ▸ hrun)

/-- What `setReady` returns. -/
theorem setReady_cases {id : PlayerId} {ready : Bool} (hs : t.Seating)
    (h : t.setReady id ready = (e, t')) :
    (e ≠ .ok ∧ t' = t) ∨
    (e = .ok ∧ handIsRunning t.street = false ∧
      t' = { t.mapSeats (fun p => if p.id = id then { p with ready := ready } else p) with
        serverSequence := t.serverSequence + 1 }) := by
  unfold setReady at h
  split_ifs at h with hrun
  · simp only [Prod.mk.injEq] at h
    exact Or.inl ⟨h.1 ▸ by decide, h.2.symm⟩
  · split at h
    · simp only [Prod.mk.injEq] at h
      exact Or.inl ⟨h.1 ▸ by decide, h.2.symm⟩
    · split_ifs at h with hstack <;> simp only [Prod.mk.injEq] at h
      · exact Or.inl ⟨h.1 ▸ by decide, h.2.symm⟩
      · rw [hs.modifyPlayer_eq] at h
        exact Or.inr ⟨h.1.symm, Bool.not_eq_true _ ▸ hrun, h.2.symm⟩

/-- What `setConnected` returns. -/
theorem setConnected_cases {id : PlayerId} {connected : Bool} (hs : t.Seating)
    (h : t.setConnected id connected = (e, t')) :
    (e ≠ .ok ∧ t' = t) ∨
    (e = .ok ∧ t' = { t.mapSeats (fun p => if p.id = id then { p with connected := connected }
        else p) with
      serverSequence := t.serverSequence + 1 }) := by
  unfold setConnected at h
  split at h <;> simp only [Prod.mk.injEq] at h
  · exact Or.inl ⟨h.1 ▸ by decide, h.2.symm⟩
  · rw [hs.modifyPlayer_eq] at h
    exact Or.inr ⟨h.1.symm, h.2.symm⟩

/-! ## Changes that leave the betting alone -/

/-- A change of a player that leaves its chips, cards and status alone. -/
def SameBets (f : Player → Player) : Prop :=
  ∀ p : Player, f p = { p with ready := (f p).ready, connected := (f p).connected }

theorem sameBets_ite {f : Player → Player} (hf : SameBets f) (id : PlayerId) :
    SameBets fun p => if p.id = id then f p else p := by
  intro p
  by_cases h : p.id = id
  · simp only [if_pos h]
    exact hf p
  · simp only [if_neg h]

theorem SameBets.canAct {f : Player → Player} (hf : SameBets f) (p : Player) :
    (f p).canAct = p.canAct := by rw [hf p]; rfl

theorem SameBets.contends {f : Player → Player} (hf : SameBets f) (p : Player) :
    (f p).contends = p.contends := by rw [hf p]; rfl

section SameBets

variable {f : Player → Player} (hf : SameBets f) (n : Nat)

include hf

theorem SameBets.seating (hs : t.Seating) : Seating { t.mapSeats f with serverSequence := n } :=
  hs.of_same (sameSeating_sequenced (fun p => by rw [hf p]; rfl) n)

theorem SameBets.betting (hb : t.Betting) : Betting { t.mapSeats f with serverSequence := n } := by
  refine ⟨hf.seating n hb.seating, hb.street, fun i q hq => ?_, ?_⟩
  · obtain ⟨p, hp, rfl⟩ := mapSeats_back hq
    have h := hb.sound i p hp
    rw [hf p]
    exact ⟨h.street_nonneg, h.street_le_hand, h.street_le_bet, h.waiting_hand, h.solvent,
      h.active_pos, h.present⟩
  · obtain ⟨d, p, hd, hp, hw⟩ := hb.button
    refine ⟨d, f p, hd, ?_, by rw [hf p]; exact hw⟩
    change (t.mapSeats f).seatAt d = _
    rw [seatAt_mapSeats, hp, Option.map_some]

theorem SameBets.contenders : ({ t.mapSeats f with serverSequence := n } : Table).contenders =
    t.contenders := by
  change (t.mapSeats f).players.countP _ = _
  rw [players_mapSeats, List.countP_map]
  unfold Table.contenders
  congr 1
  funext p
  exact hf.contends p

theorem SameBets.awaiting (h : t.Awaiting) :
    Awaiting { t.mapSeats f with serverSequence := n } where
  toBetting := hf.betting n h.toBetting
  matched := fun i q hq hact hid => by
    obtain ⟨p, hp, rfl⟩ := mapSeats_back hq
    rw [hf.canAct] at hact
    rw [hf p] at hid ⊢
    exact h.matched i p hp hact hid
  asking := by
    obtain ⟨i, hi, hw⟩ := h.asking
    obtain ⟨p, hp, hact, hid⟩ := awaits_iff.mp hw
    refine ⟨i, hi, awaits_iff.mpr ⟨f p, ?_, by rw [hf.canAct]; exact hact, by rw [hf p]; exact hid⟩⟩
    change (t.mapSeats f).seatAt i = _
    rw [seatAt_mapSeats, hp, Option.map_some]
  contested := by
    rw [hf.contenders]
    exact h.contested

theorem SameBets.inv (h : t.Inv) : Inv { t.mapSeats f with serverSequence := n } := by
  cases h with
  | idle h =>
    refine .idle ⟨hf.seating n h.seating, h.street, fun i q hq => ?_⟩
    obtain ⟨p, hp, rfl⟩ := mapSeats_back hq
    rw [hf p]
    exact h.waiting i p hp
  | awaiting h => exact .awaiting (hf.awaiting n h)
  | stranded h =>
    exact .stranded
      { toBetting := hf.betting n h.toBetting, preflop := h.preflop, acting := h.acting,
        pending := h.pending, contested := by rw [hf.contenders]; exact h.contested }
  | settled hs h => exact .settled (hf.seating n hs) h

end SameBets

/-! ## A player without a hand leaves -/

section Leaving

variable (hp : t.seatAt i = some p) (hw : p.status = .waiting) (n : Nat)

include hp hw

theorem betting_leave (hb : t.Betting) :
    Betting { t.setSeat i none with
      dealerSeat := if t.dealerSeat = some i then none else t.dealerSeat,
      serverSequence := n } := by
  obtain ⟨d, q, hd, hq, hqw⟩ := hb.button
  have hdi : i ≠ d := by
    rintro rfl
    rw [hp] at hq
    exact hqw (Option.some.inj hq ▸ hw)
  refine ⟨seating_setSeat_none hb.seating i _ n, hb.street, fun j r hr => ?_, d, q, ?_, ?_, hqw⟩
  · change (t.setSeat i none).seatAt j = some r at hr
    obtain ⟨-, hr⟩ := seatAt_of_leave hr
    exact hb.sound j r hr
  · have hne : ¬ t.dealerSeat = some i := by
      rw [hd, Option.some.injEq]
      exact Ne.symm hdi
    exact (if_neg hne).trans hd
  · change (t.setSeat i none).seatAt d = some q
    rw [seatAt_setSeat_ne hdi, hq]

theorem contenders_leave : (t.setSeat i none).contenders = t.contenders := by
  have hnot : p.contends = false := by
    rw [← Bool.not_eq_true, contends_iff]
    exact fun hc => hc.2 hw
  have hsum := sum_setSeat (seatAt_lt hp) none fun q => if q.contends then 1 else 0
  rw [sum_countP, sum_countP, hp] at hsum
  simp only [amountAt, Option.map_some, Option.getD_some, hnot, Option.map_none,
    Option.getD_none, Bool.false_eq_true, if_false] at hsum
  unfold contenders
  omega

theorem awaiting_leave (h : t.Awaiting) :
    Awaiting { t.setSeat i none with
      dealerSeat := if t.dealerSeat = some i then none else t.dealerSeat,
      serverSequence := n } where
  toBetting := betting_leave hp hw n h.toBetting
  matched := fun j r hr hact hid => by
    change (t.setSeat i none).seatAt j = some r at hr
    obtain ⟨-, hr⟩ := seatAt_of_leave hr
    exact h.matched j r hr hact hid
  asking := by
    obtain ⟨k, hk, hkw⟩ := h.asking
    obtain ⟨q, hq, hact, hid⟩ := awaits_iff.mp hkw
    have hik : i ≠ k := by
      rintro rfl
      rw [hp] at hq
      have := (Player.canAct_iff.mp hact).1
      rw [← Option.some.inj hq, hw] at this
      exact absurd this (by decide)
    refine ⟨k, hk, awaits_iff.mpr ⟨q, ?_, hact, hid⟩⟩
    change (t.setSeat i none).seatAt k = some q
    rw [seatAt_setSeat_ne hik, hq]
  contested := by
    change 2 ≤ (t.setSeat i none).contenders
    rw [contenders_leave hp hw]
    exact h.contested

end Leaving

/-! ## The other operations -/

theorem sameSeating_revokeAwards (t : Table) : SameSeating t t.revokeAwards := by
  refine sameSeating_foldl (fun u award => ?_) _ t
  refine sameSeating_foldl (fun v winner => ?_) _ u
  exact sameSeating_modifyPlayer _ fun _ => rfl

/-- An abort is refused without a hand, and else leaves the table without one. -/
theorem abortHand_cases (hs : t.Seating) (h : t.abortHand = (e, t')) :
    (e ≠ .ok ∧ t' = t) ∨ (e = .ok ∧ t.street ≠ .waiting ∧ t'.Idle ∧ SameSeating t t' ∧
      t'.serverSequence = t.serverSequence + 1) := by
  unfold abortHand at h
  split at h <;> rename_i hw <;> rw [Prod.mk.injEq] at h
  · exact Or.inl ⟨h.1 ▸ by decide, h.2.symm⟩
  · obtain ⟨rfl, rfl⟩ := h
    have hsame : SameSeating t (if t.street = .settled then t.revokeAwards else t) := by
      split_ifs
      · exact sameSeating_revokeAwards t
      · exact SameSeating.refl t
    have hmap := hsame.trans (sameSeating_mapSeats (f := Player.refund) fun _ => rfl)
    refine Or.inr ⟨rfl, hw, ⟨hs.of_same (hmap.trans (SameSeating.of_seats rfl rfl)), rfl, ?_⟩,
      hmap.trans (SameSeating.of_seats rfl rfl), rfl⟩
    intro i q hq
    obtain ⟨p, -, rfl⟩ := mapSeats_back hq
    exact ⟨rfl, rfl⟩

theorem startHandWithDeck_cases {cards : List Card}
    (h : t.startHandWithDeck cards = .ok (e, t')) :
    (e ≠ .ok ∧ t' = t) ∨
      ∃ deck, Deck.ofCards cards = .ok deck ∧ t.startHand deck = .ok (e, t') := by
  unfold startHandWithDeck at h
  split at h
  · simp only [Except.ok.injEq, Prod.mk.injEq] at h
    exact Or.inl ⟨h.1 ▸ by decide, h.2.symm⟩
  · rename_i deck hdeck
    exact Or.inr ⟨deck, hdeck, h⟩

theorem inv_startHand {deck : Deck} (hi : t.Inv) (h : t.startHand deck = .ok (e, t')) : t'.Inv := by
  rcases startHand_cases hi.seating h with ⟨-, rfl, -⟩ | ⟨rfl, -⟩
  · exact hi
  · obtain ⟨-, -, hstarted⟩ := startHand_spec hi.seating h
    cases hstarted with
    | awaiting _ _ h => exact .awaiting h
    | showdown hopen _ h _ =>
      exact .settled ((hi.seating.of_same hopen.sameSeating).of_same h.paid.sameSeating) h.street
    | stranded _ _ h _ => exact .stranded h

/-- Outside a hand there is nobody to act, and a stranded hand asks nobody. -/
theorem act_refused {command : ActionCommand} {result : ActionResult} (hi : t.Inv)
    (hnot : ¬ t.Awaiting) (h : t.act command = .ok (result, t')) :
    result.error ≠ .ok ∧ t' = t := by
  rcases act_cases h with hr | ⟨i, p, u, hstreet, hact, -⟩
  · exact hr
  · exfalso
    cases hi with
    | idle h => rw [h.street] at hstreet; exact absurd hstreet (by decide)
    | awaiting h => exact hnot h
    | stranded h => rw [h.acting] at hact; exact absurd hact (by simp)
    | settled _ h => rw [h] at hstreet; exact absurd hstreet (by decide)

theorem Outcome.inv {u : Table} (h : Outcome u t') (hs : u.Seating) : t'.Inv := by
  cases h with
  | foldWin _ h => exact .settled (hs.of_same h.paid.sameSeating) h.street
  | awaiting _ h _ => exact .awaiting h
  | showdown _ h => exact .settled (hs.of_same h.paid.sameSeating) h.street

theorem inv_act {command : ActionCommand} {result : ActionResult} (hi : t.Inv)
    (h : t.act command = .ok (result, t')) : t'.Inv := by
  by_cases hawait : t.Awaiting
  · by_cases hok : result.error = .ok
    · obtain ⟨i, p, q, u, -, hp, -, -, hacted, -, -, hout, -⟩ := act_spec hawait h hok
      exact hout.inv (hawait.toBetting.seating.of_same (hacted.sameSeating hp))
    · rcases act_cases h with ⟨-, rfl⟩ | ⟨_, _, _, -, -, -, -, -, -, -, -, hres⟩
      · exact hi
      · exact absurd (by rw [hres]; rfl) hok
  · obtain ⟨-, rfl⟩ := act_refused hi hawait h
    exact hi

/-- **Every operation keeps the invariant.** -/
theorem exec_inv {op : TableOp} (hi : t.Inv) (h : t.exec op = .ok (e, t')) : t'.Inv := by
  have hs := hi.seating
  cases op with
  | seatPlayer id seat buyIn =>
    rcases seatPlayer_cases (Except.ok.inj h) with ⟨-, rfl⟩ | ⟨-, hrun, hlt, hfind, hempty, rfl⟩
    · exact hi
    · have hs' := seating_setSeat_some hs hlt hfind buyIn (t.serverSequence + 1)
      cases hi with
      | idle h =>
        refine .idle ⟨hs', h.street, fun j q hq => ?_⟩
        change (t.setSeat seat _).seatAt j = some q at hq
        by_cases hij : seat = j
        · subst hij
          rw [seatAt_setSeat_self hlt, Option.some.injEq] at hq
          rw [← hq]
          exact ⟨rfl, rfl⟩
        · rw [seatAt_setSeat_ne hij] at hq
          exact h.waiting j q hq
      | awaiting h =>
        rw [Street.running_of_betting h.toBetting.street] at hrun
        exact absurd hrun (by decide)
      | stranded h =>
        rw [Street.running_of_betting h.toBetting.street] at hrun
        exact absurd hrun (by decide)
      | settled _ h => exact .settled hs' h
  | removePlayer id =>
    rcases removePlayer_cases (Except.ok.inj h) with ⟨-, rfl⟩ | ⟨i, p, -, hp, -, hfree, rfl⟩
    · exact hi
    · have hs' := seating_setSeat_none hs i
        (if t.dealerSeat = some i then none else t.dealerSeat) (t.serverSequence + 1)
      cases hi with
      | idle h =>
        refine .idle ⟨hs', h.street, fun j q hq => ?_⟩
        change (t.setSeat i none).seatAt j = some q at hq
        obtain ⟨-, hq⟩ := seatAt_of_leave hq
        exact h.waiting j q hq
      | awaiting h =>
        rw [Street.running_of_betting h.toBetting.street] at hfree
        exact .awaiting (awaiting_leave hp (hfree.resolve_left (by decide)) _ h)
      | stranded h =>
        rw [Street.running_of_betting h.toBetting.street] at hfree
        have hw := hfree.resolve_left (by decide)
        exact .stranded
          { toBetting := betting_leave hp hw _ h.toBetting, preflop := h.preflop,
            acting := h.acting, pending := h.pending,
            contested := (contenders_leave hp hw).symm ▸ h.contested }
      | settled _ h => exact .settled hs' h
  | setReady id ready =>
    rcases setReady_cases hs (Except.ok.inj h) with ⟨-, rfl⟩ | ⟨-, -, rfl⟩
    · exact hi
    · exact (sameBets_ite (fun _ => rfl) id).inv _ hi
  | setConnected id connected =>
    rcases setConnected_cases hs (Except.ok.inj h) with ⟨-, rfl⟩ | ⟨-, rfl⟩
    · exact hi
    · exact (sameBets_ite (fun _ => rfl) id).inv _ hi
  | startHand deck => exact inv_startHand hi h
  | startHandWithDeck cards =>
    rcases startHandWithDeck_cases h with ⟨-, rfl⟩ | ⟨deck, -, h⟩
    · exact hi
    · exact inv_startHand hi h
  | abortHand =>
    rcases abortHand_cases hs (Except.ok.inj h) with ⟨-, rfl⟩ | ⟨-, -, hidle, -⟩
    · exact hi
    · exact .idle hidle
  | act command =>
    simp only [exec, Checked.bind_ok_iff, Checked.pure_ok_iff, Prod.exists, Prod.mk.injEq] at h
    obtain ⟨result, u, hact, -, rfl⟩ := h
    exact inv_act hi hact

/-! ## The count of changes -/

theorem startHand_sequence {deck : Deck} (hs : t.Seating) (h : t.startHand deck = .ok (e, t')) :
    (e ≠ .ok ∧ t' = t) ∨ (e = .ok ∧ t.serverSequence < t'.serverSequence) := by
  rcases startHand_cases hs h with ⟨hne, rfl, -⟩ | ⟨rfl, -⟩
  · exact Or.inl ⟨hne, rfl⟩
  · refine Or.inr ⟨rfl, ?_⟩
    obtain ⟨-, -, hstarted⟩ := startHand_spec hs h
    cases hstarted with
    | awaiting hopen _ _ => rw [hopen.sequence]; omega
    | showdown hopen _ h _ =>
      have := h.paid.sequence
      rw [hopen.sequence] at this
      omega
    | @stranded v hopen _ _ hsame =>
      have hsame := hsame ▸ (PaidFrom.refl v).ask ∅ none
      have := hsame.sequence
      rw [hopen.sequence] at this
      omega

theorem act_sequence {command : ActionCommand} {result : ActionResult} (hi : t.Inv)
    (h : t.act command = .ok (result, t')) :
    (result.error ≠ .ok ∧ t' = t) ∨
      (result.error = .ok ∧ t.serverSequence < t'.serverSequence) := by
  by_cases hok : result.error = .ok
  · refine Or.inr ⟨hok, ?_⟩
    have hawait : t.Awaiting := by
      by_contra hno
      exact (act_refused hi hno h).1 hok
    obtain ⟨i, p, q, u, -, -, -, -, -, hseq, -, hout, -⟩ := act_spec hawait h hok
    cases hout with
    | foldWin _ hwin => have := hwin.paid.sequence; omega
    | awaiting _ _ hsame => have := hsame.sequence; omega
    | showdown _ hshow => have := hshow.paid.sequence; omega
  · rcases act_cases h with hr | ⟨_, _, _, -, -, -, -, -, -, -, -, hres⟩
    · exact Or.inl hr
    · exact absurd (by rw [hres]; rfl) hok

/-- **An operation is refused and changes nothing, or counts up.** -/
theorem exec_sequence {op : TableOp} (hi : t.Inv) (h : t.exec op = .ok (e, t')) :
    (e ≠ .ok ∧ t' = t) ∨ (e = .ok ∧ t.serverSequence < t'.serverSequence) := by
  have hs := hi.seating
  cases op with
  | seatPlayer id seat buyIn =>
    rcases seatPlayer_cases (Except.ok.inj h) with hr | ⟨he, -, -, -, -, rfl⟩
    · exact Or.inl hr
    · exact Or.inr ⟨he, Nat.lt_succ_self _⟩
  | removePlayer id =>
    rcases removePlayer_cases (Except.ok.inj h) with hr | ⟨i, p, he, -, -, -, rfl⟩
    · exact Or.inl hr
    · exact Or.inr ⟨he, Nat.lt_succ_self _⟩
  | setReady id ready =>
    rcases setReady_cases hs (Except.ok.inj h) with hr | ⟨he, -, rfl⟩
    · exact Or.inl hr
    · exact Or.inr ⟨he, Nat.lt_succ_self _⟩
  | setConnected id connected =>
    rcases setConnected_cases hs (Except.ok.inj h) with hr | ⟨he, rfl⟩
    · exact Or.inl hr
    · exact Or.inr ⟨he, Nat.lt_succ_self _⟩
  | startHand deck => exact startHand_sequence hs h
  | startHandWithDeck cards =>
    rcases startHandWithDeck_cases h with hr | ⟨deck, -, h⟩
    · exact Or.inl hr
    · exact startHand_sequence hs h
  | abortHand =>
    rcases abortHand_cases hs (Except.ok.inj h) with hr | ⟨he, -, -, -, hseq⟩
    · exact Or.inl hr
    · exact Or.inr ⟨he, by omega⟩
  | act command =>
    simp only [exec, Checked.bind_ok_iff, Checked.pure_ok_iff, Prod.exists, Prod.mk.injEq] at h
    obtain ⟨result, u, hact, rfl, rfl⟩ := h
    exact act_sequence hi hact

/-- A table with an invalid configuration refuses everything. -/
theorem exec_new_invalid {config : TableConfig} {op : TableOp}
    (hc : config.validateConfig ≠ .ok) (h : (new config).exec op = .ok (e, t')) :
    e ≠ .ok ∧ t' = new config := by
  have hfind : ∀ id, (new config).findPlayer id = none := fun id => by
    cases hf : (new config).findPlayer id with
    | none => rfl
    | some p =>
      obtain ⟨i, hi, -⟩ := findPlayer_some hf
      rw [seatAt_new] at hi
      exact absurd hi (by simp)
  have hseat : ∀ id, (new config).seatOf id = none := fun id => seatOf_none_iff.mpr (hfind id)
  have hstart : ∀ deck, (new config).startHand deck = .ok (.invalidConfiguration, new config) :=
    fun deck => by
      unfold startHand
      exact if_pos hc
  cases op with
  | seatPlayer id seat buyIn =>
    have := Except.ok.inj h
    unfold seatPlayer at this
    rw [if_pos (show (new config).config.validateConfig ≠ .ok from hc), Prod.mk.injEq] at this
    exact ⟨this.1 ▸ by decide, this.2.symm⟩
  | removePlayer id =>
    have := Except.ok.inj h
    unfold removePlayer at this
    rw [hseat, Prod.mk.injEq] at this
    exact ⟨this.1 ▸ by decide, this.2.symm⟩
  | setReady id ready =>
    have := Except.ok.inj h
    unfold setReady at this
    rw [if_neg (by simp [new, handIsRunning]), hfind, Prod.mk.injEq] at this
    exact ⟨this.1 ▸ by decide, this.2.symm⟩
  | setConnected id connected =>
    have := Except.ok.inj h
    unfold setConnected at this
    rw [hfind, Prod.mk.injEq] at this
    exact ⟨this.1 ▸ by decide, this.2.symm⟩
  | startHand deck =>
    rw [exec, hstart, Except.ok.injEq, Prod.mk.injEq] at h
    exact ⟨h.1 ▸ by decide, h.2.symm⟩
  | startHandWithDeck cards =>
    rcases startHandWithDeck_cases h with hr | ⟨deck, -, h⟩
    · exact hr
    · rw [hstart, Except.ok.injEq, Prod.mk.injEq] at h
      exact ⟨h.1 ▸ by decide, h.2.symm⟩
  | abortHand =>
    have := Except.ok.inj h
    unfold abortHand at this
    rw [if_pos (show (new config).street = .waiting from rfl), Prod.mk.injEq] at this
    exact ⟨this.1 ▸ by decide, this.2.symm⟩
  | act command =>
    simp only [exec, Checked.bind_ok_iff, Checked.pure_ok_iff, Prod.exists, Prod.mk.injEq] at h
    obtain ⟨result, u, hact, rfl, rfl⟩ := h
    rcases act_cases hact with hr | ⟨i, p, v, hstreet, -⟩
    · exact hr
    · exact absurd hstreet (by simp [new, Street.betting])

/-- **The invariant holds in every reachable state.** -/
theorem reach_inv {config : TableConfig} (hc : config.validateConfig = .ok)
    (h : Reaches Steps (new config) t) : t.Inv :=
  h.invariant (inv_new hc) fun _ _ _ hi hstep => exec_inv hi hstep

/-- Without an accepted configuration a table never changes. -/
theorem reach_new_invalid {config : TableConfig} (hc : config.validateConfig ≠ .ok)
    (h : Reaches Steps (new config) t) : t = new config := by
  refine h.invariant (I := fun u => u = new config) rfl fun u label u' hu hstep => ?_
  subst hu
  exact (exec_new_invalid hc hstep).2

end Table

end PokerServer

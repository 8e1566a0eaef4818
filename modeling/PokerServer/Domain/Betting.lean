import PokerServer.Domain.Settlement

/-!
# Betting rounds

What holds of a table while a hand is being bet, and what one accepted action does to it.

* `Player.Sound` and `Betting`: the invariant of a betting street. `Matched` adds that whoever may
  still act and is not asked has met the bet, and `Awaiting` that the acting seat names a player
  who is asked.
* `applyAction_cases`: an accepted action is a fold, a payment up to at most the current bet, or a
  lift of the current bet. Everything below is proved from these three shapes.
* `Covered`: some contender put in as much as anybody. It is kept by every payment, and a showdown
  pays out the whole pot iff it holds.
-/

namespace PokerServer

/-- The streets on which `act` accepts commands. -/
def Street.betting : Street → Bool
  | .preflop | .flop | .turn | .river => true
  | .waiting | .showdown | .settled => false

theorem Street.running_of_betting {s : Street} (h : s.betting = true) :
    handIsRunning s = true := by
  cases s <;> first | rfl | exact absurd h (by decide)

/-- `act` lets a betting round through. -/
theorem Street.open_of_betting {s : Street} (h : s.betting = true) :
    (!handIsRunning s || s == .showdown) = false := by
  cases s <;> first | rfl | exact absurd h (by decide)

namespace Player

variable {p q : Player} {bet target : Int}

/-- What betting keeps true of one player under the current bet `bet`. -/
structure Sound (bet : Int) (p : Player) : Prop where
  street_nonneg : 0 ≤ p.streetCommitment
  street_le_hand : p.streetCommitment ≤ p.handCommitment
  street_le_bet : p.streetCommitment ≤ bet
  waiting_hand : p.status = .waiting → p.handCommitment = 0
  solvent : p.status ≠ .waiting → 0 ≤ p.stack
  active_pos : p.status = .active → 0 < p.stack
  present : p.status ≠ .disconnected

theorem Sound.hand_nonneg (h : p.Sound bet) : 0 ≤ p.handCommitment :=
  h.street_nonneg.trans h.street_le_hand

theorem Sound.mono {bet' : Int} (h : p.Sound bet) (hle : bet ≤ bet') : p.Sound bet' :=
  { h with street_le_bet := h.street_le_bet.trans hle }

theorem canAct_iff : p.canAct = true ↔ p.status = .active ∧ 0 < p.stack := by
  unfold canAct
  simp

theorem contends_of_canAct (h : p.canAct = true) : p.contends = true := by
  unfold contends
  simp [(canAct_iff.mp h).1]

/-- Paying up to a target within the stack. -/
theorem Sound.payTo {bet' : Int} (h : p.Sound bet) (hact : p.canAct = true)
    (hlow : p.streetCommitment ≤ target) (hhigh : target ≤ p.streetCommitment + p.stack)
    (hbet : target ≤ bet') : (p.payTo target).Sound bet' := by
  have hactive := (canAct_iff.mp hact).1
  have hs := h.street_nonneg
  have hh := h.street_le_hand
  refine ⟨?_, ?_, ?_, ?_, ?_, ?_, ?_⟩ <;> simp only [Player.payTo]
  · omega
  · omega
  · omega
  · intro hw
    split_ifs at hw
    exact absurd (hw.symm.trans hactive) (by decide)
  · intro _
    omega
  · intro ha
    split_ifs at ha
    omega
  · split_ifs
    · decide
    · rw [hactive]
      decide

@[simp] theorem payTo_key (p : Player) (target : Int) : (p.payTo target).key = p.key := rfl

@[simp] theorem payTo_id (p : Player) (target : Int) : (p.payTo target).id = p.id := rfl

@[simp] theorem payTo_street (p : Player) (target : Int) :
    (p.payTo target).streetCommitment = target := by
  simp [Player.payTo]

theorem payTo_hand (p : Player) (target : Int) :
    (p.payTo target).handCommitment = p.handCommitment + (target - p.streetCommitment) := rfl

/-- What a player owns and what it put in add up as before. -/
theorem payTo_chips (p : Player) (target : Int) :
    (p.payTo target).stack + (p.payTo target).handCommitment = p.stack + p.handCommitment := by
  simp [Player.payTo]

theorem payTo_contends (hact : p.canAct = true) (target : Int) :
    (p.payTo target).contends = true := by
  have hactive := (canAct_iff.mp hact).1
  simp only [contends, Player.payTo]
  split_ifs <;> simp [hactive]

/-- A payment of nothing. -/
theorem payTo_self (hact : p.canAct = true) : p.payTo p.streetCommitment = p := by
  have hpos := (canAct_iff.mp hact).2
  have hne : p.stack ≠ 0 := by omega
  simp [Player.payTo, hne]

end Player

namespace Table

variable {t t' u : Table} {i j : Nat} {p q : Player} {awards : List PotAward}

/-! ## The invariant of a betting street -/

/-- What holds of the players and the button while a hand is being bet. -/
structure Betting (t : Table) : Prop where
  seating : t.Seating
  street : t.street.betting = true
  sound : ∀ i p, t.seatAt i = some p → p.Sound t.currentBet
  button : ∃ d p, t.dealerSeat = some d ∧ t.seatAt d = some p ∧ p.status ≠ .waiting

/-- Whoever can act and is not asked has met the bet. -/
def Matched (t : Table) : Prop :=
  ∀ i p, t.seatAt i = some p → p.canAct = true → p.id ∉ t.pendingAction →
    p.streetCommitment = t.currentBet

/-- The acting seat names a player who can act and is asked. -/
def Asking (t : Table) : Prop := ∃ i, t.actingSeat = some i ∧ t.awaits i = true

/-- A hand that waits for a player. -/
structure Awaiting (t : Table) : Prop extends Betting t where
  matched : t.Matched
  asking : t.Asking
  contested : 2 ≤ t.contenders

/-- Some contender put in as much as anybody. -/
def Covered (t : Table) : Prop :=
  ∃ i p, t.seatAt i = some p ∧ p.contends = true ∧
    ∀ j q, t.seatAt j = some q → q.handCommitment ≤ p.handCommitment

theorem awaits_iff :
    t.awaits i = true ↔ ∃ p, t.seatAt i = some p ∧ p.canAct = true ∧ p.id ∈ t.pendingAction := by
  unfold awaits
  rw [Option.any_eq_true]
  simp

/-- Somebody who is asked is found. -/
theorem nextCanActSeat_isSome (h : ∃ i, t.awaits i = true) (start : Nat) :
    ∃ i, t.nextCanActSeat start = some i ∧ t.awaits i = true := by
  obtain ⟨i, hi⟩ := h
  obtain ⟨p, hp, -⟩ := awaits_iff.mp hi
  obtain ⟨k, hk⟩ := Clockwise.next_isSome (i := start) (seatAt_lt hp) hi
  exact ⟨k, hk, (Clockwise.next_some hk).2⟩

/-- An unfinished round has a player who is asked. -/
theorem Matched.awaits_of_not_complete (hm : t.Matched) (h : t.bettingRoundComplete = false) :
    ∃ i, t.awaits i = true := by
  unfold bettingRoundComplete at h
  rw [Bool.or_eq_false_iff] at h
  obtain ⟨-, hall⟩ := h
  rw [List.all_eq_false] at hall
  obtain ⟨p, hp, hc⟩ := hall
  obtain ⟨i, hi⟩ := mem_players.mp hp
  rw [Bool.not_eq_true] at hc
  simp only [Bool.or_eq_false_iff, Bool.not_eq_false', Bool.or_eq_true, decide_eq_true_eq,
    bne_iff_ne, ne_eq] at hc
  refine ⟨i, awaits_iff.mpr ⟨p, hi, hc.1, ?_⟩⟩
  by_contra hid
  rcases hc.2 with hpend | howes
  · exact hid hpend
  · exact howes (hm i p hi hc.1 hid)

/-! ## What an accepted action does -/

theorem setSeat_self (h : t.seatAt i = some p) : t.setSeat i (some p) = t := by
  have hlt := seatAt_lt h
  rw [seatAt_eq_getElem hlt] at h
  unfold setSeat
  rw [← h, List.set_getElem_self]

section Lift

variable (t : Table) (i : Nat) (p : Player) (target raiseSize : Int)

@[simp] theorem lift_seats :
    (t.lift i p target raiseSize).seats = (t.setSeat i (some (p.payTo target))).seats := by
  unfold lift
  dsimp only
  split_ifs <;> rfl

@[simp] theorem lift_currentBet : (t.lift i p target raiseSize).currentBet = target := by
  unfold lift
  dsimp only
  split_ifs <;> rfl

@[simp] theorem lift_street : (t.lift i p target raiseSize).street = t.street := by
  unfold lift
  dsimp only
  split_ifs <;> rfl

@[simp] theorem lift_serverSequence :
    (t.lift i p target raiseSize).serverSequence = t.serverSequence := by
  unfold lift
  dsimp only
  split_ifs <;> rfl

end Lift

/-- **The shapes of an accepted action**: a fold, a payment up to at most the bet (a check pays
nothing), or a lift of the bet. -/
theorem applyAction_cases {command : ActionCommand} (hp : t.seatAt i = some p)
    (hs : p.Sound t.currentBet) (hact : p.canAct = true)
    (h : t.applyAction i p command = .ok u) :
    (command.type = .fold ∧
      u = (t.setSeat i (some { p with status := .folded })).removeFromActionSets p.id) ∨
    (command.type ≠ .fold ∧ ∃ target, p.streetCommitment ≤ target ∧
      target ≤ p.streetCommitment + p.stack ∧ target ≤ t.currentBet ∧
      (target = t.currentBet ∨ target = p.streetCommitment + p.stack) ∧
      u = (t.setSeat i (some (p.payTo target))).removeFromActionSets p.id) ∨
    (command.type ≠ .fold ∧ ∃ target raiseSize, p.streetCommitment ≤ target ∧
      target ≤ p.streetCommitment + p.stack ∧ t.currentBet < target ∧
      u = t.lift i p target raiseSize) := by
  have hpos := (Player.canAct_iff.mp hact).2
  have hbet := hs.street_le_bet
  have hnn := hs.street_nonneg
  unfold applyAction at h
  cases htype : command.type <;> simp only [htype] at h
  case fold =>
    rw [Except.ok.injEq] at h
    exact Or.inl ⟨rfl, h.symm⟩
  case check =>
    split_ifs at h with hc
    rw [ne_eq, not_not] at hc
    rw [Except.ok.injEq] at h
    refine Or.inr (Or.inl ⟨by decide, p.streetCommitment, le_refl _, by omega, hbet, Or.inl hc, ?_⟩)
    rw [Player.payTo_self hact, setSeat_self hp, h]
  case call =>
    split_ifs at h with hc
    rw [Except.ok.injEq] at h
    exact Or.inr (Or.inl ⟨by decide, _, by omega, by omega, by omega, by omega, h.symm⟩)
  case bet =>
    split_ifs at h with hc ha hmin
    rw [Except.ok.injEq] at h
    exact Or.inr (Or.inr ⟨by decide, _, _, by omega, by omega, by omega, h.symm⟩)
  case raise =>
    split_ifs at h with hc hr ha hmin
    rw [Except.ok.injEq] at h
    exact Or.inr (Or.inr ⟨by decide, _, _, by omega, by omega, by omega, h.symm⟩)
  case allIn =>
    split_ifs at h with hc ha hr
    · rw [Except.ok.injEq] at h
      exact Or.inr (Or.inl ⟨by decide, _, by omega, by omega, by omega, Or.inr rfl, h.symm⟩)
    · rw [Except.ok.injEq] at h
      exact Or.inr (Or.inr ⟨by decide, _, _, by omega, by omega, by omega, h.symm⟩)

/-- Betting goes on through a change of the players that keeps who plays. -/
theorem Betting.update (hb : t.Betting) (hsame : SameSeating t u)
    (hstreet : u.street.betting = true)
    (hdealer : u.dealerSeat = t.dealerSeat)
    (hsound : ∀ i p, u.seatAt i = some p → p.Sound u.currentBet)
    (hplays : ∀ i p q, t.seatAt i = some p → u.seatAt i = some q → p.status ≠ .waiting →
      q.status ≠ .waiting) : u.Betting where
  seating := hb.seating.of_same hsame
  street := hstreet
  sound := hsound
  button := by
    obtain ⟨d, p, hd, hp, hw⟩ := hb.button
    obtain ⟨q, hq, -⟩ := hsame.seat hp
    exact ⟨d, q, hdealer.trans hd, hq, hplays d p q hp hq hw⟩

/-- What an accepted action of `p` at seat `i` leaves behind: only the actor changed, no chip left
the actor's stack but into the pot, and whoever is not asked any more met the bet. -/
structure Acted (t : Table) (i : Nat) (p q : Player) (u : Table) : Prop where
  frame : u = { t.setSeat i (some q) with
    currentBet := u.currentBet
    minimumRaise := u.minimumRaise
    pendingAction := u.pendingAction
    raiseAllowed := u.raiseAllowed
    serverSequence := u.serverSequence }
  actor : q = { p with
    stack := q.stack
    streetCommitment := q.streetCommitment
    handCommitment := q.handCommitment
    status := q.status }
  chips : q.stack + q.handCommitment = p.stack + p.handCommitment
  grows : p.handCommitment ≤ q.handCommitment
  bet : t.currentBet ≤ u.currentBet
  sound : q.Sound u.currentBet
  plays : q.status ≠ .waiting
  matched : u.Matched

theorem mem_canActIds {id : PlayerId} :
    id ∈ t.canActIds ↔ ∃ i p, t.seatAt i = some p ∧ p.canAct = true ∧ p.id = id := by
  unfold canActIds
  simp only [List.mem_toFinset, List.mem_map, List.mem_filter, mem_players]
  constructor
  · rintro ⟨p, ⟨⟨i, hi⟩, hc⟩, hid⟩
    exact ⟨i, p, hi, hc, hid⟩
  · rintro ⟨i, p, hi, hc, hid⟩
    exact ⟨p, ⟨⟨i, hi⟩, hc⟩, hid⟩

/-- A seat of the table after a write is the written player or an old one. -/
theorem seatAt_setSeat_cases {r : Player} (hp : t.seatAt i = some p)
    (h : (t.setSeat i (some q)).seatAt j = some r) :
    (j = i ∧ r = q) ∨ (j ≠ i ∧ t.seatAt j = some r) := by
  by_cases hij : i = j
  · subst hij
    rw [seatAt_setSeat_self (seatAt_lt hp)] at h
    exact Or.inl ⟨rfl, (Option.some.inj h).symm⟩
  · rw [seatAt_setSeat_ne hij] at h
    exact Or.inr ⟨Ne.symm hij, h⟩

/-- Removing the actor from the sets keeps everybody matched if the actor is. -/
theorem matched_removeFromActionSets (hs : t.Seating) (hm : t.Matched) (hp : t.seatAt i = some p)
    (hk : q.key = p.key) (hq : q.canAct = true → q.streetCommitment = t.currentBet) :
    ((t.setSeat i (some q)).removeFromActionSets p.id).Matched := by
  intro j r hr hact hid
  change (t.setSeat i (some q)).seatAt j = some r at hr
  change r.id ∉ t.pendingAction.erase p.id at hid
  rcases seatAt_setSeat_cases hp hr with ⟨rfl, rfl⟩ | ⟨hne, hj⟩
  · exact hq hact
  · refine hm j r hj hact fun hmem => hid (Finset.mem_erase.mpr ⟨?_, hmem⟩)
    exact fun heq => hne (hs.unique hj hp heq)

theorem acted_fold (hb : t.Betting) (hm : t.Matched) (hp : t.seatAt i = some p)
    (hact : p.canAct = true) :
    Acted t i p { p with status := .folded }
      ((t.setSeat i (some { p with status := .folded })).removeFromActionSets p.id) where
  frame := rfl
  actor := rfl
  chips := rfl
  grows := le_refl _
  bet := le_refl _
  sound := by
    have h := hb.sound i p hp
    have hpos := (Player.canAct_iff.mp hact).2
    exact ⟨h.street_nonneg, h.street_le_hand, h.street_le_bet, by simp, fun _ => le_of_lt hpos,
      by simp, by simp⟩
  plays := by simp
  matched := matched_removeFromActionSets hb.seating hm hp rfl (by simp [Player.canAct])

theorem acted_pay {target : Int} (hb : t.Betting) (hm : t.Matched) (hp : t.seatAt i = some p)
    (hact : p.canAct = true) (hlow : p.streetCommitment ≤ target)
    (hhigh : target ≤ p.streetCommitment + p.stack) (hbet : target ≤ t.currentBet)
    (hmeets : target = t.currentBet ∨ target = p.streetCommitment + p.stack) :
    Acted t i p (p.payTo target)
      ((t.setSeat i (some (p.payTo target))).removeFromActionSets p.id) where
  frame := rfl
  actor := rfl
  chips := p.payTo_chips target
  grows := by rw [Player.payTo_hand]; omega
  bet := le_refl _
  sound := (hb.sound i p hp).payTo hact hlow hhigh hbet
  plays := (contends_iff.mp (Player.payTo_contends hact target)).2
  matched := by
    refine matched_removeFromActionSets hb.seating hm hp rfl fun hq => ?_
    rw [Player.payTo_street]
    rcases hmeets with h | h
    · exact h
    · -- the whole stack went in, so the payer cannot act any more
      have hpos := (Player.canAct_iff.mp hq).2
      simp only [Player.payTo] at hpos
      omega

/-- Behind a lift of the bet everybody else who can act is asked. -/
theorem matched_lift {target raiseSize : Int} (hb : t.Betting) (hp : t.seatAt i = some p)
    (hbet : t.currentBet < target) :
    (t.lift i p target raiseSize).Matched := by
  intro j r hr hact hid
  have hr' : (t.setSeat i (some (p.payTo target))).seatAt j = some r := by
    rw [← seatAt_congr (lift_seats t i p target raiseSize) j]; exact hr
  rw [lift_currentBet]
  rcases seatAt_setSeat_cases hp hr' with ⟨rfl, rfl⟩ | ⟨hne, hj⟩
  · exact Player.payTo_street p target
  · exfalso
    have hother : r.id ≠ p.id := fun heq => hne (hb.seating.unique hj hp heq)
    have howes : r.streetCommitment < target := by
      have := (hb.sound j r hj).street_le_bet
      omega
    refine hid ?_
    unfold lift
    simp only
    split_ifs
    · exact Finset.mem_erase.mpr ⟨hother, mem_canActIds.mpr ⟨j, r, hr', hact, rfl⟩⟩
    · refine Finset.mem_erase.mpr ⟨hother, Finset.mem_union_right _ ?_⟩
      simp only [List.mem_toFinset, List.mem_map, List.mem_filter]
      refine ⟨r, ⟨mem_players.mpr ⟨j, hr'⟩, ?_⟩, rfl⟩
      simp [hother, hact, howes]

theorem acted_lift {target raiseSize : Int} (hb : t.Betting) (hp : t.seatAt i = some p)
    (hact : p.canAct = true) (hlow : p.streetCommitment ≤ target)
    (hhigh : target ≤ p.streetCommitment + p.stack) (hbet : t.currentBet < target) :
    Acted t i p (p.payTo target) (t.lift i p target raiseSize) where
  frame := by unfold lift; simp only; split_ifs <;> rfl
  actor := rfl
  chips := p.payTo_chips target
  grows := by rw [Player.payTo_hand]; omega
  bet := by rw [lift_currentBet]; exact le_of_lt hbet
  sound := by
    refine (hb.sound i p hp).payTo hact hlow hhigh ?_
    rw [lift_currentBet]
  plays := (contends_iff.mp (Player.payTo_contends hact target)).2
  matched := matched_lift hb hp hbet

/-- **What an accepted action leaves behind**, and whether the actor still contends. -/
theorem applyAction_acted {command : ActionCommand} (hb : t.Betting) (hm : t.Matched)
    (hp : t.seatAt i = some p) (hact : p.canAct = true)
    (h : t.applyAction i p command = .ok u) :
    ∃ q, Acted t i p q u ∧
      ((command.type = .fold ∧ q = { p with status := .folded }) ∨
        (command.type ≠ .fold ∧ q.contends = true)) := by
  rcases applyAction_cases hp (hb.sound i p hp) hact h with
    ⟨hf, rfl⟩ | ⟨hf, target, hlow, hhigh, hbet, hmeets, rfl⟩ |
    ⟨hf, target, raiseSize, hlow, hhigh, hbet, rfl⟩
  · exact ⟨_, acted_fold hb hm hp hact, Or.inl ⟨hf, rfl⟩⟩
  · exact ⟨_, acted_pay hb hm hp hact hlow hhigh hbet hmeets,
      Or.inr ⟨hf, Player.payTo_contends hact target⟩⟩
  · exact ⟨_, acted_lift hb hp hact hlow hhigh hbet,
      Or.inr ⟨hf, Player.payTo_contends hact target⟩⟩

namespace Acted

variable (h : Acted t i p q u) (hp : t.seatAt i = some p)

include h

theorem seats : u.seats = (t.setSeat i (some q)).seats := by rw [h.frame]

theorem key : q.key = p.key := by rw [h.actor]; rfl

theorem seat_other (hj : j ≠ i) : u.seatAt j = t.seatAt j := by
  rw [seatAt_congr h.seats, seatAt_setSeat_ne (Ne.symm hj)]

include hp

theorem sameSeating : SameSeating t u := by
  refine (sameSeating_setSeat hp h.key).trans (SameSeating.of_seats ?_ h.seats)
  rw [h.frame]

theorem seat_cases {r : Player} (hr : u.seatAt j = some r) :
    (j = i ∧ r = q) ∨ (j ≠ i ∧ t.seatAt j = some r) := by
  rw [seatAt_congr h.seats] at hr
  exact seatAt_setSeat_cases hp hr

theorem seat_self : u.seatAt i = some q := by
  rw [seatAt_congr h.seats, seatAt_setSeat_self (seatAt_lt hp)]

/-- An action moves chips between a stack and the pot. -/
theorem chips_at {r x : Player} (hr : t.seatAt j = some r) (hx : u.seatAt j = some x) :
    x.stack + x.handCommitment = r.stack + r.handCommitment := by
  by_cases hij : j = i
  · subst hij
    rw [h.seat_self hp, Option.some.injEq] at hx
    rw [hp, Option.some.injEq] at hr
    subst hx hr
    exact h.chips
  · rw [h.seat_other hij, hr, Option.some.injEq] at hx
    rw [hx]

theorem betting (hb : t.Betting) : u.Betting := by
  refine hb.update (h.sameSeating hp) ?_ ?_ ?_ ?_
  · rw [h.frame]; exact hb.street
  · rw [h.frame]; rfl
  · intro j r hr
    rcases h.seat_cases hp hr with ⟨-, rfl⟩ | ⟨-, hj⟩
    · exact h.sound
    · exact (hb.sound j r hj).mono h.bet
  · intro j r r' hr hr' hw
    rcases h.seat_cases hp hr' with ⟨-, rfl⟩ | ⟨-, hj⟩
    · exact h.plays
    · rw [hr] at hj
      exact Option.some.inj hj ▸ hw

/-- The actor pays into the pot what leaves the stack. -/
theorem sum_chips :
    (u.players.map fun r => r.stack + r.handCommitment).sum =
      (t.players.map fun r => r.stack + r.handCommitment).sum := by
  have hsum := sum_setSeat_some (q := q) hp fun r : Player => r.stack + r.handCommitment
  have hplayers : u.players = (t.setSeat i (some q)).players := by
    unfold players
    rw [h.seats]
  rw [hplayers, hsum, h.chips]
  omega

/-- A payment keeps the pot covered. -/
theorem covered (hq : q.contends = true) (hc : t.Covered) : u.Covered := by
  obtain ⟨k, r, hr, hrc, hmax⟩ := hc
  have hpq := h.grows
  have hpr := hmax i p hp
  by_cases hle : q.handCommitment ≤ r.handCommitment ∧ k ≠ i
  · refine ⟨k, r, by rw [h.seat_other hle.2]; exact hr, hrc, fun j s hs => ?_⟩
    rcases h.seat_cases hp hs with ⟨-, rfl⟩ | ⟨-, hj⟩
    · exact hle.1
    · exact hmax j s hj
  · have hle' : r.handCommitment ≤ q.handCommitment := by
      by_cases hki : k = i
      · subst hki
        rw [hr] at hp
        rw [Option.some.inj hp]
        exact hpq
      · by_contra hlt
        exact hle ⟨by omega, hki⟩
    refine ⟨i, q, h.seat_self hp, hq, fun j s hs => ?_⟩
    rcases h.seat_cases hp hs with ⟨-, rfl⟩ | ⟨-, hj⟩
    · exact le_refl _
    · exact (hmax j s hj).trans hle'

omit hp in
/-- The count of changes is not part of what an action does to the betting. -/
theorem sequenced (n : Nat) : Acted t i p q { u with serverSequence := n } where
  frame := by rw [h.frame]
  actor := h.actor
  chips := h.chips
  grows := h.grows
  bet := h.bet
  sound := h.sound
  plays := h.plays
  matched := h.matched

end Acted

end Table

end PokerServer

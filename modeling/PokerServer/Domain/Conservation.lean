import PokerServer.Domain.Operations

/-!
# Chips

`totalChips` along a run. Every operation changes it by what `chipChange` says: a buy-in, a leaving
stack, nothing else. The one exception is a showdown whose pot is not `Covered`: `Forfeits` is the
fold that brings it about, and `chips_conserved` proves the law for every run without one.
-/

namespace PokerServer.Table

variable {t t' u v : Table} {i : Nat} {p q : Player} {e : TableError}

/-- The chips in the stacks and in the pot. -/
def chips (t : Table) : Int := (t.players.map fun p => p.stack + p.handCommitment).sum

/-- The chips in the stacks. -/
def stackSum (t : Table) : Int := (t.players.map (·.stack)).sum

theorem totalChips_of_ne (h : t.street ≠ .settled) : t.totalChips = t.chips := by
  unfold totalChips chips
  simp only [if_neg h]

theorem totalChips_of_settled (h : t.street = .settled) : t.totalChips = t.stackSum := by
  unfold totalChips stackSum
  simp only [h, if_true, add_zero]

theorem chips_eq_stackSum_add_pot (t : Table) : t.chips = t.stackSum + t.commitments.sum := by
  unfold chips stackSum commitments
  rw [List.sum_map_add]

theorem PaidFrom.chips_eq (h : PaidFrom [] t t') : t'.chips = t.chips := by
  have := h.sum_eq (f := fun p => p.stack + p.handCommitment) fun _ => rfl
  simp only [gain_nil] at this
  exact this

/-- The stacks after a settlement hold what the awards paid. -/
theorem SettledFrom.stackSum_eq (h : SettledFrom t t') :
    t'.stackSum = t.stackSum + (t'.lastAwards.map (·.potSize)).sum := by
  have hsum := h.paid.sum_eq (f := (·.stack)) fun _ => rfl
  unfold stackSum
  rw [hsum, ← h.sum_won, ← List.sum_map_add]
  rfl

/-- **A covered showdown pays out the whole pot.** -/
theorem Showdown.totalChips_eq (h : Showdown t t') (hc : t.Covered) : t'.totalChips = t.chips := by
  rw [totalChips_of_settled h.street, h.stackSum_eq, chips_eq_stackSum_add_pot]
  obtain ⟨i, p, hp, hpc, hmax, htotal⟩ := h.total
  obtain ⟨k, r, hr, hrc, hcover⟩ := hc
  rw [htotal]
  congr 2
  conv_rhs => rw [← List.map_id t.commitments]
  refine List.map_congr_left fun c hc => ?_
  obtain ⟨q, hq, rfl⟩ := List.mem_map.mp hc
  obtain ⟨j, hj⟩ := mem_players.mp hq
  have h1 := hcover j q hj
  have h2 := hmax k r hr hrc
  exact min_eq_left (h1.trans h2)

/-- A fold-out pays out the pot. -/
theorem FoldWin.pots_eq (h : FoldWin t t') (hs : t.Seating) :
    (t'.lastAwards.map (·.potSize)).sum = t.commitments.sum := by
  obtain ⟨i, p, hp, -, hwon⟩ := h.winner
  have hsum := hs.sum_single hp t.potSize
  simp only [eq_comm (a := p.id)] at hsum
  rw [← h.sum_won]
  simp only [hwon]
  rw [hsum]
  rfl

theorem FoldWin.totalChips_eq (h : FoldWin t t') (hs : t.Seating) : t'.totalChips = t.chips := by
  rw [totalChips_of_settled h.street, h.stackSum_eq, chips_eq_stackSum_add_pot, h.pots_eq hs]

/-- No settlement pays more than was put in. -/
theorem Showdown.pots_le (h : Showdown t t') :
    (t'.lastAwards.map (·.potSize)).sum ≤ t.commitments.sum := by
  obtain ⟨i, p, -, -, -, htotal⟩ := h.total
  rw [htotal]
  conv_rhs => rw [← List.map_id t.commitments]
  exact List.sum_le_sum fun c _ => min_le_left _ _

/-- The blinds move chips from the stacks to the pot. -/
theorem Opening.chips_eq {deck : Deck} (h : t.Opening deck v) : v.chips = t.stackSum := by
  unfold chips stackSum
  rw [sum_players, sum_players]
  refine congrArg List.sum (map_seats_congr h.length fun i => ?_)
  cases hp : t.seatAt i with
  | none => rw [h.seat_none i hp]; rfl
  | some p =>
    obtain ⟨hole, hi⟩ := h.seat_some i p hp
    rw [hi]
    simp only [amountAt, Option.map_some, Option.getD_some]
    by_cases hplays : p.plays = true
    · rw [Player.opens_of_plays hplays]
      simp
    · rw [Player.opens_of_not_plays (Bool.not_eq_true _ ▸ hplays)]
      simp

/-! ## The law -/

/-- What an operation that succeeds adds to the chips on the table. -/
def chipChange (t : Table) : TableOp → Int
  | .seatPlayer _ _ buyIn => buyIn
  | .removePlayer id => -((t.findPlayer id).map (·.stack)).getD 0
  | _ => 0

/-- The chip law of one step: an operation that succeeds changes `totalChips` by `chipChange`, one
that is refused not at all. An abort is not part of the law. -/
def ChipLaw (step : Step Table (TableOp × TableError)) : Prop :=
  step.label.1 ≠ .abortHand → step.after.totalChips = step.before.totalChips +
    if step.label.2 = .ok then step.before.chipChange step.label.1 else 0

instance (step : Step Table (TableOp × TableError)) : Decidable (ChipLaw step) :=
  inferInstanceAs (Decidable (_ → _ = _))

/-- The contenders other than `id`. -/
def rivals (t : Table) (id : PlayerId) : List Player :=
  t.players.filter fun p => p.contends && p.id != id

/-- A fold of the acting player that leaves at least two contenders, all of whom have put in less
than somebody at the table. -/
def Forfeits (t : Table) : TableOp → Prop
  | .act command =>
    command.type = .fold ∧ (t.actingSeat.bind t.seatAt).map (·.id) = some command.playerId ∧
      2 ≤ (t.rivals command.playerId).length ∧
      ∃ q ∈ t.players, ∀ r ∈ t.rivals command.playerId, r.handCommitment < q.handCommitment
  | _ => False

instance (t : Table) : (op : TableOp) → Decidable (t.Forfeits op)
  | .act _ => inferInstanceAs (Decidable (_ ∧ _ ∧ _ ∧ _))
  | .seatPlayer .. | .removePlayer .. | .setReady .. | .setConnected .. | .startHand ..
  | .startHandWithDeck .. | .abortHand => inferInstanceAs (Decidable False)

/-! ## Who covers the pot -/

/-- While a hand is bet, some contender covers the pot. -/
def PotCovered (t : Table) : Prop := t.street.betting = true → t.Covered

theorem mem_rivals {id : PlayerId} :
    p ∈ t.rivals id ↔ (∃ i, t.seatAt i = some p) ∧ p.contends = true ∧ p.id ≠ id := by
  unfold rivals
  rw [List.mem_filter, mem_players]
  simp

/-- The contenders a fold leaves are the rivals of the player who folds. -/
theorem Acted.rivals_of_fold (hacted : Acted t i p { p with status := .folded } u)
    (hs : t.Seating) (hp : t.seatAt i = some p) (htwo : 2 ≤ u.contenders) :
    2 ≤ (t.rivals p.id).length := by
  obtain ⟨j, k, r, s, hjk, hr, hs', hrc, hsc⟩ := two_le_countP_iff.mp htwo
  have hother : ∀ {x : Nat} {y : Player}, u.seatAt x = some y → y.contends = true →
      t.seatAt x = some y ∧ (y.contends && y.id != p.id) = true := by
    intro x y hy hyc
    rcases hacted.seat_cases hp hy with ⟨-, rfl⟩ | ⟨hne, hty⟩
    · exact absurd hyc (by simp [Player.contends])
    · refine ⟨hty, ?_⟩
      rw [hyc, Bool.true_and, bne_iff_ne]
      exact fun hid => hne (hs.unique hty hp hid)
  unfold rivals
  rw [← List.countP_eq_length_filter]
  exact two_le_countP_iff.mpr ⟨j, k, r, s, hjk, (hother hr hrc).1, (hother hs' hsc).1,
    (hother hr hrc).2, (hother hs' hsc).2⟩

/-- A fold that forfeits nothing keeps the pot covered. -/
theorem Acted.covered_of_fold {command : ActionCommand}
    (hacted : Acted t i p { p with status := .folded } u) (hs : t.Seating)
    (hp : t.seatAt i = some p) (hi : t.actingSeat = some i) (hid : p.id = command.playerId)
    (hfold : command.type = .fold) (htwo : 2 ≤ u.contenders)
    (hnot : ¬ t.Forfeits (.act command)) : u.Covered := by
  obtain ⟨k, m, hm, hmc, hmax⟩ := exists_top_contender (t := u) (by omega)
  by_contra hcover
  refine hnot ⟨hfold, by simp [hi, hp, hid], hid ▸ hacted.rivals_of_fold hs hp htwo, ?_⟩
  -- somebody put in more than the best contender, and so more than every rival
  have hmore : ∃ j r, u.seatAt j = some r ∧ m.handCommitment < r.handCommitment := by
    by_contra hnone
    refine hcover ⟨k, m, hm, hmc, fun j r hr => ?_⟩
    by_contra hlt
    exact hnone ⟨j, r, hr, by omega⟩
  obtain ⟨j, r, hr, hlt⟩ := hmore
  have hold : ∃ r' ∈ t.players, r'.handCommitment = r.handCommitment := by
    rcases hacted.seat_cases hp hr with ⟨-, rfl⟩ | ⟨-, hj⟩
    · exact ⟨p, mem_players.mpr ⟨i, hp⟩, rfl⟩
    · exact ⟨r, mem_players.mpr ⟨j, hj⟩, rfl⟩
  obtain ⟨r', hr', hhand⟩ := hold
  refine ⟨r', hr', fun s hs' => ?_⟩
  obtain ⟨⟨x, hx⟩, hsc, hsid⟩ := mem_rivals.mp hs'
  have hxi : x ≠ i := by
    rintro rfl
    rw [hp] at hx
    exact hsid (by rw [← Option.some.inj hx, hid])
  have := hmax x s (by rw [hacted.seat_other hxi]; exact hx) hsc
  omega

/-- After an accepted action that forfeits nothing, two contenders left, the pot is covered. -/
theorem Acted.covered_of_not_forfeits {command : ActionCommand} (hacted : Acted t i p q u)
    (hs : t.Seating) (hp : t.seatAt i = some p) (hi : t.actingSeat = some i)
    (hid : p.id = command.playerId) (hc : t.Covered)
    (hkind : (command.type = .fold ∧ q = { p with status := .folded }) ∨
      (command.type ≠ .fold ∧ q.contends = true)) (htwo : 2 ≤ u.contenders)
    (hnot : ¬ t.Forfeits (.act command)) : u.Covered := by
  rcases hkind with ⟨hfold, rfl⟩ | ⟨-, hq⟩
  · exact hacted.covered_of_fold hs hp hi hid hfold htwo hnot
  · exact hacted.covered hp hq hc

theorem Acted.chips_eq (hacted : Acted t i p q u) (hp : t.seatAt i = some p) : u.chips = t.chips :=
  hacted.sum_chips hp

/-! ## One step -/

theorem betting_ne_settled (h : t.street.betting = true) : t.street ≠ .settled := by
  intro hc
  rw [hc] at h
  exact absurd h (by decide)

/-- Outside a hand all chips are in the stacks. -/
theorem totalChips_of_not_running (hi : t.Inv) (h : handIsRunning t.street = false) :
    t.totalChips = t.stackSum := by
  cases hi with
  | idle hidle =>
    rw [totalChips_of_ne (by rw [hidle.street]; decide), chips_eq_stackSum_add_pot]
    have hzero : t.commitments.sum = 0 := by
      refine List.sum_eq_zero fun c hc => ?_
      obtain ⟨p, hp, rfl⟩ := List.mem_map.mp hc
      obtain ⟨i, hi⟩ := mem_players.mp hp
      exact (hidle.waiting i p hi).2
    omega
  | awaiting haw =>
    rw [Street.running_of_betting haw.toBetting.street] at h
    exact absurd h (by decide)
  | stranded hst =>
    rw [Street.running_of_betting hst.toBetting.street] at h
    exact absurd h (by decide)
  | settled _ hs => exact totalChips_of_settled hs

theorem startHand_law {deck : Deck} (hi : t.Inv) (h : t.startHand deck = .ok (e, t')) :
    t'.totalChips = t.totalChips ∧ (t.PotCovered → t'.PotCovered) := by
  rcases startHand_cases hi.seating h with ⟨-, rfl, -⟩ | ⟨rfl, -⟩
  · exact ⟨rfl, id⟩
  obtain ⟨hrun, -, hstarted⟩ := startHand_spec hi.seating h
  rw [totalChips_of_not_running hi hrun]
  cases hstarted with
  | awaiting hopen _ h =>
    rw [totalChips_of_ne (betting_ne_settled h.toBetting.street), hopen.chips_eq]
    exact ⟨rfl, fun _ _ => hopen.covered⟩
  | showdown hopen _ h _ =>
    rw [h.totalChips_eq hopen.covered, hopen.chips_eq]
    exact ⟨rfl, fun _ hb => absurd h.street (betting_ne_settled hb)⟩
  | @stranded v hopen _ h hsame =>
    have hsame := hsame ▸ (PaidFrom.refl v).ask ∅ none
    rw [totalChips_of_ne (betting_ne_settled h.toBetting.street), hsame.chips_eq, hopen.chips_eq]
    exact ⟨rfl, fun _ _ => hsame.covered hopen.covered⟩

theorem act_law {command : ActionCommand} {result : ActionResult} (hi : t.Inv)
    (hc : t.PotCovered) (hnot : ¬ t.Forfeits (.act command))
    (h : t.act command = .ok (result, t')) :
    t'.totalChips = t.totalChips ∧ t'.PotCovered := by
  by_cases hok : result.error = .ok
  · have hawait : t.Awaiting := by
      by_contra hno
      exact (act_refused hi hno h).1 hok
    have hs := hawait.toBetting.seating
    obtain ⟨i, p, q, u, hact, hp, hid, -, hacted, -, hkind, hout, -⟩ := act_spec hawait h hok
    have hcover : 2 ≤ u.contenders → u.Covered := fun htwo =>
      hacted.covered_of_not_forfeits hs hp hact hid (hc hawait.toBetting.street) hkind htwo hnot
    rw [totalChips_of_ne (betting_ne_settled hawait.toBetting.street), ← hacted.chips_eq hp]
    cases hout with
    | foldWin _ hwin =>
      exact ⟨hwin.totalChips_eq (hs.of_same (hacted.sameSeating hp)),
        fun hb => absurd hwin.street (betting_ne_settled hb)⟩
    | awaiting htwo haw hsame =>
      rw [totalChips_of_ne (betting_ne_settled haw.toBetting.street), hsame.chips_eq]
      exact ⟨rfl, fun _ => hsame.covered (hcover htwo)⟩
    | showdown htwo hshow =>
      exact ⟨hshow.totalChips_eq (hcover htwo),
        fun hb => absurd hshow.street (betting_ne_settled hb)⟩
  · rcases act_cases h with ⟨-, rfl⟩ | ⟨_, _, _, -, -, -, -, -, -, -, -, hres⟩
    · exact ⟨rfl, hc⟩
    · exact absurd (by rw [hres]; rfl) hok

theorem SameBets.law {f : Player → Player} (hf : SameBets f) (n : Nat) (t : Table) :
    ({ t.mapSeats f with serverSequence := n } : Table).totalChips = t.totalChips ∧
      (t.PotCovered → PotCovered { t.mapSeats f with serverSequence := n }) := by
  constructor
  · unfold totalChips
    rw [show ({ t.mapSeats f with serverSequence := n } : Table).players = (t.mapSeats f).players
      from rfl, players_mapSeats, List.map_map]
    congr 1
    refine List.map_congr_left fun p _ => ?_
    rw [Function.comp_apply, hf p]
    rfl
  · intro hc hb
    obtain ⟨i, p, hp, hpc, hmax⟩ := hc hb
    refine ⟨i, f p, ?_, by rw [hf.contends]; exact hpc, fun j q hq => ?_⟩
    · change (t.mapSeats f).seatAt i = _
      rw [seatAt_mapSeats, hp, Option.map_some]
    · obtain ⟨r, hr, rfl⟩ := mapSeats_back hq
      rw [hf p, hf r]
      exact hmax j r hr

theorem seatPlayer_law {id : PlayerId} {seat : Nat} {buyIn : Int} (hi : t.Inv)
    (h : t.seatPlayer id seat buyIn = (e, t')) :
    (t'.totalChips = t.totalChips + if e = .ok then buyIn else 0) ∧
      (t.PotCovered → t'.PotCovered) := by
  rcases seatPlayer_cases h with ⟨hne, rfl⟩ | ⟨rfl, hrun, hlt, -, hempty, rfl⟩
  · rw [if_neg hne, add_zero]
    exact ⟨rfl, fun hc => hc⟩
  · refine ⟨?_, fun _ hb => ?_⟩
    · unfold totalChips
      rw [if_pos rfl]
      have hsum := sum_setSeat (t := t) hlt (some { id := id, seat := seat, stack := buyIn })
        fun p => p.stack + if t.street = .settled then 0 else p.handCommitment
      rw [hempty] at hsum
      simp only [amountAt, Option.map_none, Option.getD_none, Option.map_some, Option.getD_some,
        ite_self, sub_zero, add_zero] at hsum
      exact hsum
    · have := Street.running_of_betting hb
      change handIsRunning t.street = true at this
      rw [hrun] at this
      exact absurd this (by decide)

theorem removePlayer_law {id : PlayerId} (hi : t.Inv) (h : t.removePlayer id = (e, t')) :
    (t'.totalChips = t.totalChips + if e = .ok then t.chipChange (.removePlayer id) else 0) ∧
      (t.PotCovered → t'.PotCovered) := by
  rcases removePlayer_cases h with ⟨hne, rfl⟩ | ⟨i, p, rfl, hp, rfl, hfree, rfl⟩
  · rw [if_neg hne, add_zero]
    exact ⟨rfl, fun hc => hc⟩
  · -- the chips a player who may leave has in the pot do not count, or are none
    have hpot : (if t.street = .settled then 0 else p.handCommitment) = 0 := by
      split_ifs with hsettled
      · rfl
      · cases hi with
        | idle hidle => exact (hidle.waiting i p hp).2
        | awaiting haw =>
          rw [Street.running_of_betting haw.toBetting.street] at hfree
          exact (haw.toBetting.sound i p hp).waiting_hand (hfree.resolve_left (by decide))
        | stranded hst =>
          rw [Street.running_of_betting hst.toBetting.street] at hfree
          exact (hst.toBetting.sound i p hp).waiting_hand (hfree.resolve_left (by decide))
        | settled _ hs => exact absurd hs hsettled
    refine ⟨?_, fun hc hb => ?_⟩
    · have hchange : t.chipChange (.removePlayer p.id) = -p.stack := by
        simp only [chipChange, hi.seating.findPlayer hp, Option.map_some, Option.getD_some]
      rw [if_pos rfl, hchange]
      unfold totalChips
      have hsum := sum_setSeat (seatAt_lt hp) none
        fun q => q.stack + if t.street = .settled then 0 else q.handCommitment
      rw [hp] at hsum
      simp only [amountAt, Option.map_some, Option.getD_some, Option.map_none, Option.getD_none,
        hpot, add_zero] at hsum
      rw [← sub_eq_add_neg]
      exact hsum
    · change t.street.betting = true at hb
      obtain ⟨k, r, hr, hrc, hmax⟩ := hc hb
      have hw := hfree.resolve_left (by rw [Street.running_of_betting hb]; decide)
      have hik : i ≠ k := by
        rintro rfl
        rw [hp] at hr
        exact (contends_iff.mp hrc).2 (Option.some.inj hr ▸ hw)
      refine ⟨k, r, by change (t.setSeat i none).seatAt k = _; rw [seatAt_setSeat_ne hik, hr], hrc,
        fun j q hq => ?_⟩
      change (t.setSeat i none).seatAt j = some q at hq
      obtain ⟨-, hq⟩ := seatAt_of_leave hq
      exact hmax j q hq

/-- One step that forfeits nothing obeys the law and keeps the pot covered. -/
theorem step_law {op : TableOp} (hi : t.Inv) (hc : t.PotCovered)
    (h : t.exec op = .ok (e, t')) (hnot : ¬ t.Forfeits op) :
    ChipLaw ⟨t, (op, e), t'⟩ ∧ t'.PotCovered := by
  have hs := hi.seating
  unfold ChipLaw
  cases op with
  | seatPlayer id seat buyIn =>
    obtain ⟨hsum, hcov⟩ := seatPlayer_law hi (Except.ok.inj h)
    exact ⟨fun _ => hsum, hcov hc⟩
  | removePlayer id =>
    obtain ⟨hsum, hcov⟩ := removePlayer_law hi (Except.ok.inj h)
    exact ⟨fun _ => hsum, hcov hc⟩
  | setReady id ready =>
    rcases setReady_cases hs (Except.ok.inj h) with ⟨-, rfl⟩ | ⟨-, -, rfl⟩
    · exact ⟨fun _ => by simp [chipChange], hc⟩
    · obtain ⟨hsum, hcov⟩ := (sameBets_ite (f := fun p => { p with ready := ready })
        (fun _ => rfl) id).law (t.serverSequence + 1) t
      exact ⟨fun _ => by simp only [chipChange, ite_self, add_zero]; exact hsum, hcov hc⟩
  | setConnected id connected =>
    rcases setConnected_cases hs (Except.ok.inj h) with ⟨-, rfl⟩ | ⟨-, rfl⟩
    · exact ⟨fun _ => by simp [chipChange], hc⟩
    · obtain ⟨hsum, hcov⟩ := (sameBets_ite (f := fun p => { p with connected := connected })
        (fun _ => rfl) id).law (t.serverSequence + 1) t
      exact ⟨fun _ => by simp only [chipChange, ite_self, add_zero]; exact hsum, hcov hc⟩
  | startHand deck =>
    obtain ⟨hsum, hcov⟩ := startHand_law hi h
    exact ⟨fun _ => by simp only [chipChange, ite_self, add_zero]; exact hsum, hcov hc⟩
  | startHandWithDeck cards =>
    rcases startHandWithDeck_cases h with ⟨-, rfl⟩ | ⟨deck, -, h⟩
    · exact ⟨fun _ => by simp [chipChange], hc⟩
    · obtain ⟨hsum, hcov⟩ := startHand_law hi h
      exact ⟨fun _ => by simp only [chipChange, ite_self, add_zero]; exact hsum, hcov hc⟩
  | abortHand =>
    refine ⟨fun hne => absurd rfl hne, ?_⟩
    rcases abortHand_cases hs (Except.ok.inj h) with ⟨-, rfl⟩ | ⟨-, -, hidle, -⟩
    · exact hc
    · intro hb
      rw [hidle.street] at hb
      exact absurd hb (by decide)
  | act command =>
    simp only [exec, Checked.bind_ok_iff, Checked.pure_ok_iff, Prod.exists, Prod.mk.injEq] at h
    obtain ⟨result, u, hact, -, rfl⟩ := h
    obtain ⟨hsum, hcov⟩ := act_law hi hc hnot hact
    exact ⟨fun _ => by simp only [chipChange, ite_self, add_zero]; exact hsum, hcov⟩

/-- **Chips are conserved along every run that forfeits none**: whatever the configuration, the
operations and their number. -/
theorem chips_conserved {config : TableConfig} {trace : List (Step Table (TableOp × TableError))}
    (hconfig : config.validateConfig = .ok) (hrun : Run Steps (new config) trace t)
    (hkept : ∀ step ∈ trace, ¬ step.before.Forfeits step.label.1) :
    ∀ step ∈ trace, ChipLaw step := by
  intro step hstep
  have hstart : (new config).Inv ∧ (new config).PotCovered :=
    ⟨inv_new hconfig, fun hb => absurd hb (by simp [new, Street.betting])⟩
  obtain ⟨⟨hi, hc⟩, hexec⟩ := hrun.guarded_entry (I := fun t => t.Inv ∧ t.PotCovered)
    (G := fun step => ¬ step.before.Forfeits step.label.1) hstart
    (fun a l b hI hs hnot => ⟨exec_inv hI.1 hs, (step_law hI.1 hI.2 hs hnot).2⟩) hkept hstep
  exact (step_law hi hc hexec (hkept step hstep)).1

/-- Three players, two of them all-in for less than the big blind. -/
def shortStacks : List TableOp :=
  [.seatPlayer 1 0 60, .seatPlayer 2 1 70, .seatPlayer 3 2 1000,
    .setReady 1 true, .setReady 2 true, .setReady 3 true, .startHandWithDeck orderedDeck,
    .act { playerId := 1, type := .allIn }, .act { playerId := 2, type := .allIn }]

/-- The run goes on without a forfeit when the big blind checks. -/
theorem chips_conserved_checked :
    ∃ trace t, Run Steps (new { minBuyIn := 1 }) trace t ∧ t.street = .settled ∧
      ∀ step ∈ trace, ChipLaw step := by
  have hcheck : (replay perform (new { minBuyIn := 1 })
      (shortStacks ++ [.act { playerId := 3, type := .check }])).any (fun r =>
        decide (r.2.street = .settled ∧
          ∀ step ∈ r.1, ¬ step.before.Forfeits step.label.1)) = true := by
    decide +kernel
  obtain ⟨⟨trace, t⟩, hr, hc⟩ := (Option.any_eq_true _ _).mp hcheck
  rw [decide_eq_true_eq] at hc
  have hrun := run_of_replay hr
  exact ⟨trace, t, hrun, hc.1, chips_conserved (by decide) hrun hc.2⟩

/-- The big blind folds instead of checking, and the thirty chips it put in above the larger
all-in are paid to nobody. -/
theorem chips_not_conserved :
    ∃ config trace t, config.validateConfig = .ok ∧ Run Steps (new config) trace t ∧
      (∀ step ∈ trace, step.label.1 ≠ .abortHand ∧ step.label.2 = .ok) ∧
      ¬ ∀ step ∈ trace, ChipLaw step := by
  have hcheck : (replay perform (new { minBuyIn := 1 })
      (shortStacks ++ [.act { playerId := 3, type := .fold }])).any (fun r =>
        decide ((∀ step ∈ r.1, step.label.1 ≠ .abortHand ∧ step.label.2 = .ok) ∧
          ¬ ∀ step ∈ r.1, ChipLaw step)) = true := by
    decide +kernel
  obtain ⟨⟨trace, t⟩, hr, hc⟩ := (Option.any_eq_true _ _).mp hcheck
  rw [decide_eq_true_eq] at hc
  exact ⟨_, trace, t, by decide, run_of_replay hr, hc⟩

end PokerServer.Table

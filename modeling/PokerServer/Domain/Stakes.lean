import PokerServer.Domain.Conservation

/-!
# Table stakes

Nobody may win more from another player than it put in itself: `stake t p` is the most `p` can win,
and a settled table is `Capped` when the awards respect it. The layers of a showdown always do. A
fold-out pays the whole pot to the last contender, so it does iff nobody put in more than that
contender; `Overpays` is the fold that breaks it. `stakes_capped` is the law for the settled states
of a run without one.
-/

namespace PokerServer.Table

variable {t t' u : Table} {i : Nat} {p q : Player} {e : TableError}

/-- What `p` can win at most: up to its own commitment from everybody dealt in. -/
def stake (t : Table) (p : Player) : Int :=
  ((t.players.filter fun q => q.status != .waiting).map fun q =>
    min p.handCommitment q.handCommitment).sum

/-- The awards of a settled hand pay nobody more than the stake. -/
def Capped (t : Table) : Prop := ∀ p ∈ t.players, wonBy t.lastAwards p.id ≤ t.stake p

instance (t : Table) : Decidable t.Capped :=
  inferInstanceAs (Decidable (∀ p ∈ t.players, _))

/-- A step that ends a hand. -/
def Settles (step : Step Table (TableOp × TableError)) : Prop :=
  step.after.street = .settled ∧
    (step.before.street ≠ .settled ∨ step.before.handId ≠ step.after.handId)

instance (step : Step Table (TableOp × TableError)) : Decidable (Settles step) :=
  inferInstanceAs (Decidable (_ ∧ _))

/-- A fold of the acting player that leaves one contender, who put in less than somebody at the
table. -/
def Overpays (t : Table) : TableOp → Prop
  | .act command =>
    command.type = .fold ∧ (t.actingSeat.bind t.seatAt).map (·.id) = some command.playerId ∧
      (t.rivals command.playerId).length = 1 ∧
      ∃ r ∈ t.rivals command.playerId, ∃ q ∈ t.players, r.handCommitment < q.handCommitment
  | _ => False

instance (t : Table) : (op : TableOp) → Decidable (t.Overpays op)
  | .act _ => inferInstanceAs (Decidable (_ ∧ _ ∧ _ ∧ _))
  | .seatPlayer .. | .removePlayer .. | .setReady .. | .setConnected .. | .startHand ..
  | .startHandWithDeck .. | .abortHand => inferInstanceAs (Decidable False)

/-- With nothing in the pot from the players not dealt in, the stake is a sum over all. -/
theorem stake_eq (hzero : ∀ j q, t.seatAt j = some q → q.status = .waiting → q.handCommitment = 0)
    (hnn : 0 ≤ p.handCommitment) :
    t.stake p = (t.commitments.map fun c => min c p.handCommitment).sum := by
  have hmem : ∀ q ∈ t.players, q.status = .waiting → q.handCommitment = 0 := fun q hq => by
    obtain ⟨j, hj⟩ := mem_players.mp hq
    exact hzero j q hj
  unfold stake commitments
  revert hmem
  induction t.players with
  | nil => intro _; rfl
  | cons q qs ih =>
    intro hmem
    have hrest := ih fun r hr => hmem r (List.mem_cons_of_mem _ hr)
    by_cases hw : q.status = .waiting
    · have hq := hmem q List.mem_cons_self hw
      rw [List.filter_cons_of_neg (by simp [hw]), hrest, List.map_cons, List.map_cons,
        List.sum_cons, hq, min_eq_left hnn, zero_add]
    · rw [List.filter_cons_of_pos (by simpa using hw), List.map_cons, List.sum_cons, hrest,
        List.map_cons, List.map_cons, List.sum_cons, min_comm]

/-- The stakes of a settled table are those of the table it was settled from. -/
theorem SettledFrom.stake_eq (h : SettledFrom t t') (hb : t.Betting) (hq : t'.seatAt i = some q) :
    ∃ p, t.seatAt i = some p ∧ p.PaidBy t'.lastAwards q ∧
      t'.stake q = (t.commitments.map fun c => min c p.handCommitment).sum := by
  obtain ⟨p, hp, hpq⟩ := h.paid.seat_back hq
  refine ⟨p, hp, hpq, ?_⟩
  rw [Table.stake_eq, h.paid.commitments_eq, hpq.hand]
  · intro j r hr hw
    obtain ⟨s, hs, hsr⟩ := h.paid.seat_back hr
    rw [hsr.hand]
    exact (hb.sound j s hs).waiting_hand (hsr.status ▸ hw)
  · rw [hpq.hand]
    exact (hb.sound i p hp).hand_nonneg

theorem Showdown.capped (h : Showdown t t') (hb : t.Betting) : t'.Capped := by
  intro q hq
  obtain ⟨i, hi⟩ := mem_players.mp hq
  obtain ⟨p, hp, hpq, hstake⟩ := h.toSettledFrom.stake_eq hb hi
  rw [hstake, hpq.id]
  exact h.cap i p hp

/-- **A fold-out is capped iff the winner put in as much as anybody.** -/
theorem FoldWin.capped_iff (h : FoldWin t t') (hb : t.Betting) :
    ∃ i p, t.seatAt i = some p ∧ p.contends = true ∧
      (t'.Capped ↔ ∀ j q, t.seatAt j = some q → q.handCommitment ≤ p.handCommitment) := by
  obtain ⟨i, p, hp, hpc, hwon⟩ := h.winner
  refine ⟨i, p, hp, hpc, fun hcap j q hq => ?_, fun hmax q hq => ?_⟩
  · obtain ⟨q', hq', hpq⟩ := h.paid.seat_some hp
    have hle := hcap q' (mem_players.mpr ⟨i, hq'⟩)
    obtain ⟨p', hp', hpq', hstake⟩ := h.toSettledFrom.stake_eq hb hq'
    have hpp : p' = p := Option.some.inj (hp'.symm.trans hp)
    rw [hstake, hpq.id, hwon, if_pos rfl, hpp] at hle
    by_contra hlt
    have hless : (t.commitments.map fun c => min c p.handCommitment).sum < t.potSize := by
      unfold potSize commitments
      rw [List.map_map]
      refine List.sum_lt_sum _ _ (fun r _ => min_le_left _ _)
        ⟨q, mem_players.mpr ⟨j, hq⟩, ?_⟩
      exact min_lt_iff.mpr (Or.inr (by omega))
    omega
  · obtain ⟨j, hj⟩ := mem_players.mp hq
    obtain ⟨r, hr, hrq, hstake⟩ := h.toSettledFrom.stake_eq hb hj
    rw [hstake, hrq.id, hwon]
    split_ifs with hid
    · -- the winner: nobody put in more, so the pot is the stake
      have hij := hb.seating.unique hr hp hid
      subst hij
      rw [Option.some.inj (hr.symm.trans hp)]
      unfold potSize commitments
      rw [List.map_map]
      refine List.sum_le_sum fun s hs => ?_
      obtain ⟨k, hk⟩ := mem_players.mp hs
      exact le_min (le_refl _) (hmax k s hk)
    · refine List.sum_nonneg fun x hx => ?_
      obtain ⟨c, hc, rfl⟩ := List.mem_map.mp hx
      obtain ⟨s, hs, rfl⟩ := List.mem_map.mp hc
      obtain ⟨k, hk⟩ := mem_players.mp hs
      exact le_min (hb.sound k s hk).hand_nonneg (hb.sound j r hr).hand_nonneg

/-! ## The settling step -/

/-- The contenders a fold leaves, seen from the table before. -/
theorem Acted.mem_rivals_of_fold (hacted : Acted t i p { p with status := .folded } u)
    (hs : t.Seating) (hp : t.seatAt i = some p) {r : Player} :
    r ∈ t.rivals p.id ↔ ∃ j, u.seatAt j = some r ∧ r.contends = true := by
  rw [mem_rivals]
  constructor
  · rintro ⟨⟨j, hj⟩, hc, hid⟩
    have hji : j ≠ i := by
      rintro rfl
      rw [hp] at hj
      exact hid (by rw [← Option.some.inj hj])
    exact ⟨j, by rw [hacted.seat_other hji]; exact hj, hc⟩
  · rintro ⟨j, hj, hc⟩
    rcases hacted.seat_cases hp hj with ⟨-, rfl⟩ | ⟨hne, htj⟩
    · exact absurd hc (by simp [Player.contends])
    · exact ⟨⟨j, htj⟩, hc, fun hid => hne (hs.unique htj hp hid)⟩

/-- An action that leaves one contender is a fold. -/
theorem Acted.fold_of_few {command : ActionCommand} (hacted : Acted t i p q u)
    (ht : t.Awaiting) (hp : t.seatAt i = some p) (hfew : u.contenders ≤ 1)
    (hkind : (command.type = .fold ∧ q = { p with status := .folded }) ∨
      (command.type ≠ .fold ∧ q.contends = true)) :
    command.type = .fold ∧ q = { p with status := .folded } := by
  refine hkind.resolve_right fun hpay => ?_
  obtain ⟨j, k, r, s, hjk, hr, hs, hrc, hsc⟩ := two_le_countP_iff.mp ht.contested
  have hone := countP_le_one_iff.mp hfew
  have hself := hacted.seat_self hp
  by_cases hji : j = i
  · have hki : k ≠ i := by omega
    have := hone i k q s hself (by rw [hacted.seat_other hki]; exact hs) hpay.2 hsc
    omega
  · have := hone i j q r hself (by rw [hacted.seat_other hji]; exact hr) hpay.2 hrc
    omega

/-- The contender a fold leaves alone is the only rival. -/
theorem Acted.rivals_length_of_few (hacted : Acted t i p { p with status := .folded } u)
    (hp : t.seatAt i = some p) (hfew : u.contenders ≤ 1)
    (hsome : ∃ r, r ∈ t.rivals p.id) : (t.rivals p.id).length = 1 := by
  have hle : (t.rivals p.id).length ≤ 1 := by
    unfold rivals
    rw [← List.countP_eq_length_filter]
    refine countP_le_one_iff.mpr fun j k r s hr hs' hrc hsc => ?_
    simp only [Bool.and_eq_true, bne_iff_ne, ne_eq] at hrc hsc
    have hother : ∀ {x : Nat} {y : Player}, t.seatAt x = some y → y.id ≠ p.id → x ≠ i := by
      rintro x y hy hid rfl
      rw [hp] at hy
      exact hid (by rw [← Option.some.inj hy])
    exact countP_le_one_iff.mp hfew j k r s (by rw [hacted.seat_other (hother hr hrc.2)]; exact hr)
      (by rw [hacted.seat_other (hother hs' hsc.2)]; exact hs') hrc.1 hsc.1
  obtain ⟨r, hr⟩ := hsome
  have := List.length_pos_of_mem hr
  omega

/-- What a fold-out pays is capped iff the fold does not overpay. -/
theorem FoldWin.capped_iff_not_overpays {command : ActionCommand} (h : FoldWin u t')
    (ht : t.Awaiting) (hacted : Acted t i p q u) (hp : t.seatAt i = some p)
    (hi : t.actingSeat = some i) (hid : p.id = command.playerId) (hfew : u.contenders ≤ 1)
    (hkind : (command.type = .fold ∧ q = { p with status := .folded }) ∨
      (command.type ≠ .fold ∧ q.contends = true)) :
    t'.Capped ↔ ¬ t.Overpays (.act command) := by
  obtain ⟨hfold, rfl⟩ := hacted.fold_of_few ht hp hfew hkind
  have hs := ht.toBetting.seating
  obtain ⟨k, w, hw, hwc, hcap⟩ := h.capped_iff (hacted.betting hp ht.toBetting)
  have hriv := hacted.mem_rivals_of_fold hs hp (r := w) |>.mpr ⟨k, hw, hwc⟩
  have hlen := hacted.rivals_length_of_few hp hfew ⟨w, hriv⟩
  have hhand : ∀ c : Int, (∃ j r, u.seatAt j = some r ∧ c < r.handCommitment) ↔
      ∃ r ∈ t.players, c < r.handCommitment := by
    intro c
    constructor
    · rintro ⟨j, r, hr, hlt⟩
      rcases hacted.seat_cases hp hr with ⟨-, rfl⟩ | ⟨-, hj⟩
      · exact ⟨p, mem_players.mpr ⟨i, hp⟩, hlt⟩
      · exact ⟨r, mem_players.mpr ⟨j, hj⟩, hlt⟩
    · rintro ⟨r, hr, hlt⟩
      obtain ⟨j, hj⟩ := mem_players.mp hr
      by_cases hji : j = i
      · subst hji
        exact ⟨j, _, hacted.seat_self hp, by rw [← Option.some.inj (hj.symm.trans hp)]; exact hlt⟩
      · exact ⟨j, r, by rw [hacted.seat_other hji]; exact hj, hlt⟩
  rw [hcap]
  constructor
  · rintro hmax ⟨-, -, -, r, hr, hmore⟩
    rw [← hid] at hr
    have hrw : r = w := by
      obtain ⟨x, hx⟩ := List.length_eq_one_iff.mp hlen
      rw [hx, List.mem_singleton] at hr hriv
      rw [hr, hriv]
    obtain ⟨j, s, hs', hlt⟩ := (hhand r.handCommitment).mpr hmore
    have := hmax j s hs'
    rw [hrw] at hlt
    omega
  · intro hnot j s hs'
    by_contra hlt
    refine hnot ⟨hfold, by simp [hi, hp, hid], hid ▸ hlen, w, hid ▸ hriv, ?_⟩
    exact (hhand w.handCommitment).mp ⟨j, s, hs', by omega⟩

theorem startHand_settled {deck : Deck} {op : TableOp} (hi : t.Inv)
    (h : t.startHand deck = .ok (e, t')) (hset : t'.street = .settled) :
    (t.street = .settled ∧ t'.handId = t.handId ∧ t'.lastAwards = t.lastAwards) ∨
      (Settles ⟨t, (op, e), t'⟩ ∧ t'.Capped) := by
  rcases startHand_cases hi.seating h with ⟨-, rfl, -⟩ | ⟨rfl, -⟩
  · exact Or.inl ⟨hset, rfl, rfl⟩
  obtain ⟨-, -, hstarted⟩ := startHand_spec hi.seating h
  cases hstarted with
  | awaiting _ _ h => exact absurd hset (betting_ne_settled h.toBetting.street)
  | showdown hopen _ h _ =>
    refine Or.inr ⟨⟨hset, Or.inr ?_⟩, h.capped (hopen.betting hi.seating)⟩
    simp only
    rw [h.paid.handId, hopen.handId]
    omega
  | stranded _ _ h _ => exact absurd hset (betting_ne_settled h.toBetting.street)

theorem act_settled {command : ActionCommand} {result : ActionResult} (hi : t.Inv)
    (h : t.act command = .ok (result, t')) (hset : t'.street = .settled) :
    (t.street = .settled ∧ t'.handId = t.handId ∧ t'.lastAwards = t.lastAwards) ∨
      (Settles ⟨t, (.act command, result.error), t'⟩ ∧
        (t'.Capped ↔ ¬ t.Overpays (.act command))) := by
  by_cases hok : result.error = .ok
  · have hawait : t.Awaiting := by
      by_contra hno
      exact (act_refused hi hno h).1 hok
    obtain ⟨i, p, q, u, hact, hp, hid, -, hacted, -, hkind, hout, -⟩ := act_spec hawait h hok
    refine Or.inr ⟨⟨hset, Or.inl (betting_ne_settled hawait.toBetting.street)⟩, ?_⟩
    cases hout with
    | foldWin hfew hwin =>
      exact hwin.capped_iff_not_overpays hawait hacted hp hact hid hfew hkind
    | awaiting _ haw _ => exact absurd hset (betting_ne_settled haw.toBetting.street)
    | showdown htwo hshow =>
      refine ⟨fun _ hover => ?_, fun _ => hshow.capped (hacted.betting hp hawait.toBetting)⟩
      obtain ⟨hfold, -, hone, -⟩ := hover
      rcases hkind with ⟨-, rfl⟩ | ⟨hne, -⟩
      · have := hacted.rivals_of_fold hawait.toBetting.seating hp htwo
        rw [hid] at this
        omega
      · exact hne hfold
  · rcases act_cases h with ⟨-, rfl⟩ | ⟨_, _, _, -, -, -, -, -, -, -, -, hres⟩
    · exact Or.inl ⟨hset, rfl, rfl⟩
    · exact absurd (by rw [hres]; rfl) hok

/-- A step to a settled table keeps the settled hand, or ends one: then its awards are capped iff
the step does not overpay. -/
theorem exec_settled {op : TableOp} (hi : t.Inv) (h : t.exec op = .ok (e, t'))
    (hset : t'.street = .settled) :
    (t.street = .settled ∧ t'.handId = t.handId ∧ t'.lastAwards = t.lastAwards) ∨
      (Settles ⟨t, (op, e), t'⟩ ∧ (t'.Capped ↔ ¬ t.Overpays op)) := by
  have hs := hi.seating
  cases op with
  | seatPlayer id seat buyIn =>
    rcases seatPlayer_cases (Except.ok.inj h) with ⟨-, rfl⟩ | ⟨-, -, -, -, -, rfl⟩
    · exact Or.inl ⟨hset, rfl, rfl⟩
    · exact Or.inl ⟨hset, rfl, rfl⟩
  | removePlayer id =>
    rcases removePlayer_cases (Except.ok.inj h) with ⟨-, rfl⟩ | ⟨i, p, -, -, -, -, rfl⟩
    · exact Or.inl ⟨hset, rfl, rfl⟩
    · exact Or.inl ⟨hset, rfl, rfl⟩
  | setReady id ready =>
    rcases setReady_cases hs (Except.ok.inj h) with ⟨-, rfl⟩ | ⟨-, -, rfl⟩
    · exact Or.inl ⟨hset, rfl, rfl⟩
    · exact Or.inl ⟨hset, rfl, rfl⟩
  | setConnected id connected =>
    rcases setConnected_cases hs (Except.ok.inj h) with ⟨-, rfl⟩ | ⟨-, rfl⟩
    · exact Or.inl ⟨hset, rfl, rfl⟩
    · exact Or.inl ⟨hset, rfl, rfl⟩
  | startHand deck =>
    exact (startHand_settled hi h hset).imp_right fun hc => ⟨hc.1, iff_of_true hc.2 not_false⟩
  | startHandWithDeck cards =>
    rcases startHandWithDeck_cases h with ⟨-, rfl⟩ | ⟨deck, -, h⟩
    · exact Or.inl ⟨hset, rfl, rfl⟩
    · exact (startHand_settled hi h hset).imp_right fun hc => ⟨hc.1, iff_of_true hc.2 not_false⟩
  | abortHand =>
    rcases abortHand_cases hs (Except.ok.inj h) with ⟨-, rfl⟩ | ⟨-, -, hidle, -⟩
    · exact Or.inl ⟨hset, rfl, rfl⟩
    · rw [hidle.street] at hset
      exact absurd hset (by decide)
  | act command =>
    simp only [exec, Checked.bind_ok_iff, Checked.pure_ok_iff, Prod.exists, Prod.mk.injEq] at h
    obtain ⟨result, u, hact, rfl, rfl⟩ := h
    exact act_settled hi hact hset

/-- The table-stakes law of a state `t` reached by `trace`: if a hand is settled there, the step
that ended it paid nobody more than the stake, and its awards are the ones `t` still shows. -/
def StakesLaw (trace : List (Step Table (TableOp × TableError))) (t : Table) : Prop :=
  t.street = .settled → ∃ step ∈ trace, Settles step ∧ step.after.handId = t.handId ∧
    step.after.lastAwards = t.lastAwards ∧ step.after.Capped

/-- **Table stakes**: in every state of every run without an overpaying fold, the awards of the
settled hand respect the stakes, by showdown or by folds. -/
theorem stakes_capped {config : TableConfig} {trace : List (Step Table (TableOp × TableError))}
    (hconfig : config.validateConfig = .ok) (hrun : Run Steps (new config) trace t)
    (hkept : ∀ step ∈ trace, ¬ step.before.Overpays step.label.1) : StakesLaw trace t := by
  induction hrun with
  | nil => exact fun hset => absurd hset (by simp [new])
  | @snoc trace s u label hrun hstep ih =>
    intro hset
    have hi := reach_inv hconfig ⟨trace, hrun⟩
    rcases exec_settled hi hstep hset with ⟨hold, hid, hawards⟩ | ⟨hsettles, hcap⟩
    · obtain ⟨step, hmem, hs, hid', hawards', hc⟩ :=
        ih (fun step hstep => hkept step (List.mem_append_left _ hstep)) hold
      exact ⟨step, List.mem_append_left _ hmem, hs, hid'.trans hid.symm,
        hawards'.trans hawards.symm, hc⟩
    · have hlast : (⟨s, label, u⟩ : Step Table (TableOp × TableError)) ∈
          trace ++ [⟨s, label, u⟩] := List.mem_append_right _ (List.mem_singleton.mpr rfl)
      exact ⟨_, hlast, hsettles, rfl, rfl, hcap.mpr (hkept _ hlast)⟩

/-- The small blind is all-in for ten chips, the big blind has put in a hundred. -/
def shortSmallBlind : List TableOp :=
  [.seatPlayer 1 0 1000, .seatPlayer 2 1 10, .seatPlayer 3 2 1000,
    .setReady 1 true, .setReady 2 true, .setReady 3 true, .startHandWithDeck orderedDeck]

/-- The dealer folds and the big blind checks the hand down: the side pot stays with it. -/
theorem stakes_capped_checkedDown :
    ∃ trace t, Run Steps (new { minBuyIn := 1 }) trace t ∧ t.street = .settled ∧
      StakesLaw trace t := by
  have hcheck : (replay perform (new { minBuyIn := 1 }) (shortSmallBlind ++
      [.act { playerId := 1, type := .fold }, .act { playerId := 3, type := .check }])).any
      (fun r => decide (r.2.street = .settled ∧
        ∀ step ∈ r.1, ¬ step.before.Overpays step.label.1)) = true := by
    decide +kernel
  obtain ⟨⟨trace, t⟩, hr, hc⟩ := (Option.any_eq_true _ _).mp hcheck
  rw [decide_eq_true_eq] at hc
  have hrun := run_of_replay hr
  exact ⟨trace, t, hrun, hc.1, stakes_capped (by decide) hrun hc.2⟩

/-- The big blind folds as well, and the small blind wins its hundred chips with ten. -/
theorem stakes_exceeded :
    ∃ config trace t, config.validateConfig = .ok ∧ Run Steps (new config) trace t ∧
      (∀ step ∈ trace, step.label.2 = .ok) ∧ ¬ StakesLaw trace t := by
  have hcheck : (replay perform (new { minBuyIn := 1 }) (shortSmallBlind ++
      [.act { playerId := 1, type := .fold }, .act { playerId := 3, type := .fold }])).any
      (fun r => decide ((∀ step ∈ r.1, step.label.2 = .ok) ∧ r.2.street = .settled ∧
        ∀ step ∈ r.1, step.after.street = .settled → ¬ step.after.Capped)) = true := by
    decide +kernel
  obtain ⟨⟨trace, t⟩, hr, hc⟩ := (Option.any_eq_true _ _).mp hcheck
  rw [decide_eq_true_eq] at hc
  refine ⟨_, trace, t, by decide, run_of_replay hr, hc.1, fun hlaw => ?_⟩
  obtain ⟨step, hmem, hs, -, -, hcap⟩ := hlaw hc.2.1
  exact hc.2.2 step hmem hs.1 hcap

end PokerServer.Table

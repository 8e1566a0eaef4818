import PokerServer.Domain.History

/-!
# Whose cards are shown

A hand that ends in a showdown shows the hands that went to it. `OnlyAtShowdown trace t` says so of
every snapshot of `t`: the cards of another player are in it only if the current hand was settled
with several contenders and that player did not fold. `snapshot` decides by the street and the
player's status alone, which a hand won by the last fold (`FoldsOut`) leaves as a showdown does, so
its winner's cards are shown as well. `shown_only_at_showdown` has the law for exactly the runs
without such a fold.
-/

namespace PokerServer.Table

variable {config : TableConfig} {t t' u : Table} {trace pre post : List Entry} {op : TableOp}
  {e : TableError} {i : Nat} {p q : Player}

/-- **Another player's cards are in a snapshot only after a showdown it went to.** -/
def OnlyAtShowdown (trace : List Entry) (t : Table) : Prop :=
  ∀ viewer, ∀ view ∈ (t.snapshot viewer).players, viewer ≠ some view.id → view.holeCards ≠ [] →
    t.street = .settled ∧ ∃ start post, HandOf trace start post ∧
      (∃ step ∈ start :: post, Settles step ∧ 2 ≤ step.after.contenders) ∧ view.id ∉ foldsOf post

/-! ## The snapshot -/

/-- Whoever is shown to others has cards and has held out to the settlement. -/
theorem shown_player {viewer : Option PlayerId} {view : PlayerView}
    (hview : view ∈ (t.snapshot viewer).players) (hother : viewer ≠ some view.id)
    (hcards : view.holeCards ≠ []) :
    t.street = .settled ∧
      ∃ p ∈ t.players, view.id = p.id ∧ p.hasHole = true ∧ p.contends = true := by
  unfold snapshot at hview
  obtain ⟨p, hp, rfl⟩ := List.mem_map.mp hview
  simp only [ne_eq, ite_eq_right_iff, List.cons_ne_nil, imp_false, not_not] at hcards hother
  obtain ⟨hhole, hown | ⟨hset, hf, hw⟩⟩ := hcards
  · exact absurd hown hother
  · exact ⟨hset, p, hp, rfl, hhole, contends_iff.mpr ⟨hf, hw⟩⟩

/-- A contender of a settled hand is shown to everybody. -/
theorem contender_shown (hset : t.street = .settled) (hp : p ∈ t.players)
    (hhole : p.hasHole = true) (hc : p.contends = true) :
    ∃ view ∈ (t.snapshot none).players, view.id = p.id ∧ view.holeCards ≠ [] := by
  obtain ⟨hf, hw⟩ := contends_iff.mp hc
  refine ⟨_, List.mem_map.mpr ⟨p, hp, rfl⟩, rfl, ?_⟩
  simp [hhole, hset, hf, hw]

/-! ## How a hand ends -/

/-- A hand ends with several contenders, or by the last fold. -/
theorem exec_settles_or (hi : t.Inv) (h : t.exec op = .ok (e, t'))
    (hset : Settles ⟨t, (op, e), t'⟩) :
    2 ≤ t'.contenders ∨ (e = .ok ∧ t.FoldsOut op) := by
  obtain ⟨u, -, ⟨-, -, hfold⟩ | ⟨htwo, hshow⟩⟩ := exec_settles hi h hset
  · exact Or.inr hfold
  · rw [hshow.paid.contenders_paid]
    exact Or.inl htwo

/-- The last fold settles the hand, with one contender left. -/
theorem FoldsOut.settles (hi : t.Inv) (h : t.exec op = .ok (.ok, t')) (hfold : t.FoldsOut op) :
    t.street.betting = true ∧ t'.street = .settled ∧ t'.contenders ≤ 1 ∧
      ∃ i p, t'.seatAt i = some p ∧ p.contends = true := by
  rcases exec_effect hi h with ⟨he, -⟩ | ⟨-, heffect⟩
  · exact absurd rfl he
  cases heffect with
  | starts hdeals _ _ _ =>
    cases hdeals with
    | startHand => exact hfold.elim
    | startHandWithDeck => exact hfold.elim
  | @acts command i p q u _ hawait hacting hp hid _ hacted _ hkind _ hout =>
    obtain ⟨htype, -, hone⟩ := hfold
    obtain ⟨-, rfl⟩ := hkind.resolve_right fun hpay => hpay.1 htype
    have hfew : u.contenders ≤ 1 := by
      by_contra hmany
      have := hacted.rivals_of_fold hawait.toBetting.seating hp (by omega)
      rw [hid] at this
      omega
    cases hout with
    | awaiting htwo _ _ => exact absurd hfew (by omega)
    | showdown htwo _ => exact absurd hfew (by omega)
    | foldWin _ hwin =>
      obtain ⟨k, w, hw, hwc, -⟩ := hwin.winner
      obtain ⟨w', hw', hpaid⟩ := hwin.paid.seat_some hw
      refine ⟨hawait.toBetting.street, hwin.street, ?_, k, w', hw', hpaid.contends.trans hwc⟩
      rw [hwin.paid.contenders_paid]
      exact hfew
  | sits | leaves | readies | connects | aborts => exact hfold.elim

/-- A settled hand stays settled until the next one begins or it is taken back. -/
theorem settled_stays (hi : t.Inv) (hrun : Run Steps t post u) (hset : t.street = .settled)
    (hquiet : ∀ step ∈ post, ¬ Starts step ∧ ¬ Aborts step) : u.street = .settled := by
  have hboth : u.Inv ∧ u.street = .settled := by
    refine hrun.guarded (I := fun t => t.Inv ∧ t.street = .settled)
      (G := fun step => ¬ Starts step ∧ ¬ Aborts step) ⟨hi, hset⟩ ?_ hquiet
    rintro a ⟨op, e⟩ b ⟨ha, hset⟩ hstep ⟨hstart, habort⟩
    refine ⟨exec_inv ha hstep, ?_⟩
    rcases exec_effect ha hstep with ⟨-, rfl⟩ | ⟨rfl, heffect⟩
    · exact hset
    cases heffect with
    | sits => exact hset
    | leaves => exact hset
    | readies => exact hset
    | connects => exact hset
    | starts hdeals => exact absurd ⟨hdeals.begins, rfl⟩ hstart
    | aborts _ => exact absurd rfl habort
    | acts hawait _ _ _ _ _ _ _ _ _ =>
      exact absurd hset (betting_ne_settled hawait.toBetting.street)
  exact hboth.2

/-! ## The law -/

/-- What is shown before the last fold of a hand, if there is none. -/
theorem onlyAtShowdown_of_no_foldOut (hconfig : config.validateConfig = .ok)
    (hrun : Run Steps (new config) trace t)
    (hnone : ∀ step ∈ trace, ¬ (step.label.2 = .ok ∧ step.before.FoldsOut step.label.1)) :
    OnlyAtShowdown trace t := by
  intro viewer view hview hother hcards
  obtain ⟨hset, p, hp, hid, -, hcont⟩ := shown_player hview hother hcards
  obtain ⟨i, hi⟩ := mem_players.mp hp
  obtain ⟨start, post, hunder⟩ := exists_underway hconfig hrun (by rw [hset]; simp)
  obtain ⟨step, hstep, hsettles⟩ := hunder.settled hconfig hset
  refine ⟨hset, start, post, hunder.toHandOf, ⟨step, hstep, hsettles, ?_⟩, ?_⟩
  · obtain ⟨pre, hsplit⟩ := hunder.split
    have hmem : step ∈ trace := by
      rw [hsplit]
      exact List.mem_append_right _ hstep
    obtain ⟨hreach, hexec⟩ := hrun.entry hmem
    exact (exec_settles_or (reach_inv hconfig hreach) hexec hsettles).resolve_right
      (hnone step hmem)
  · rw [hid]
    cases (hunder.since hconfig).1.story i p hi with
    | dealt _ _ _ _ _ _ folded _ => exact fun hc => (contends_iff.mp hcont).1 (folded.mpr hc)
    | watching _ _ _ _ apart _ _ => exact absurd apart.status (contends_iff.mp hcont).2
    | joined _ _ apart _ _ => exact absurd apart.status (contends_iff.mp hcont).2

/-- Right after the last fold of a hand, the winner is shown without a showdown. -/
theorem not_onlyAtShowdown_of_foldOut {step : Entry} (hconfig : config.validateConfig = .ok)
    (hrun : Run Steps (new config) (pre ++ [step]) t) (hok : step.label.2 = .ok)
    (hfold : step.before.FoldsOut step.label.1) : ¬ OnlyAtShowdown (pre ++ [step]) t := by
  intro hlaw
  obtain ⟨hpre, hstep, hlast⟩ := hrun.split
  obtain rfl := hlast.eq_of_nil
  have hi := reach_inv hconfig ⟨pre, hpre⟩
  have hexec : step.before.exec step.label.1 = .ok (.ok, step.after) := hok ▸ hstep
  obtain ⟨hbet, hset, hfew, i, p, hp, hcont⟩ := hfold.settles hi hexec
  obtain ⟨start₀, post₀, hunder⟩ := exists_underway hconfig hrun (by rw [hset]; simp)
  have hhole : p.hasHole = true := by
    cases (hunder.since hconfig).1.story i p hp with
    | dealt _ _ _ _ hole _ _ _ => exact hole
    | watching _ _ _ _ apart _ _ => exact absurd apart.status (contends_iff.mp hcont).2
    | joined _ _ apart _ _ => exact absurd apart.status (contends_iff.mp hcont).2
  obtain ⟨view, hview, -, hcards⟩ := contender_shown hset (mem_players.mpr ⟨i, hp⟩) hhole hcont
  obtain ⟨-, start, post, ⟨⟨before, hsplit⟩, hstarts, hquiet⟩,
    ⟨settling, hmem, hsettles, htwo⟩, -⟩ :=
    hlaw none view hview (by simp) hcards
  rcases List.eq_nil_or_concat post with rfl | ⟨rest, last, rfl⟩
  · -- the last step is the fold, not the start
    obtain ⟨-, hone⟩ := List.append_inj' hsplit rfl
    obtain rfl := (List.cons.inj hone).1
    obtain ⟨hbegins, -⟩ := hstarts
    generalize step.label.1 = op at hfold hbegins
    cases op with
    | act command => exact absurd hbegins (by simp [TableOp.begins])
    | seatPlayer | removePlayer | setReady | setConnected | startHand | startHandWithDeck
    | abortHand => exact hfold
  · rw [List.concat_eq_append] at hsplit hmem hquiet
    rw [← List.cons_append, ← List.append_assoc] at hsplit
    obtain ⟨rfl, hone⟩ := List.append_inj' hsplit rfl
    obtain rfl := (List.cons.inj hone).1
    rw [← List.cons_append] at hmem
    rcases List.mem_append.mp hmem with hmem | hmem
    · -- a settlement before the fold would have ended the betting
      obtain ⟨a, b, hab⟩ := List.append_of_mem hmem
      rw [hab, ← List.append_assoc] at hpre
      obtain ⟨hfirst, hnow, hrest⟩ := hpre.split
      have hafter : settling.after.Inv := exec_inv (reach_inv hconfig ⟨_, hfirst⟩) hnow
      have hstill := settled_stays hafter hrest hsettles.1 fun s hs => by
        refine hquiet s (List.mem_append_left _ ?_)
        cases a with
        | nil => exact (List.cons.inj hab).2 ▸ hs
        | cons x a =>
          rw [(List.cons.inj hab).2]
          exact List.mem_append_right _ (List.mem_cons_of_mem _ hs)
      exact betting_ne_settled hbet hstill
    · rw [List.mem_singleton.mp hmem] at htwo
      omega

/-- **Cards are shown only at a showdown, in exactly the runs without a last fold**: the law holds
in every state a run goes through iff no accepted fold of it leaves one contender. -/
theorem shown_only_at_showdown (hrun : Run Steps (new config) trace t) :
    (∀ pre u, pre <+: trace → Run Steps (new config) pre u → OnlyAtShowdown pre u) ↔
      ∀ step ∈ trace, ¬ (step.label.2 = .ok ∧ step.before.FoldsOut step.label.1) := by
  by_cases hconfig : config.validateConfig = .ok
  · constructor
    · rintro hlaw step hstep ⟨hok, hfold⟩
      obtain ⟨pre, rest, rfl⟩ := List.append_of_mem hstep
      obtain ⟨hpre, hnow, -⟩ := hrun.split
      have hrun' : Run Steps (new config) (pre ++ [step]) step.after := hpre.snoc hnow
      exact not_onlyAtShowdown_of_foldOut hconfig hrun' hok hfold
        (hlaw _ _ ⟨rest, by simp⟩ hrun')
    · intro hnone pre u hpre hrun'
      exact onlyAtShowdown_of_no_foldOut hconfig hrun' fun step hs => hnone step (hpre.subset hs)
  · refine iff_of_true (fun pre u _ hrun' => ?_) fun step hstep => ?_
    · -- nobody ever sits at a table with a refused configuration
      intro viewer view hview
      rw [reach_new_invalid hconfig ⟨pre, hrun'⟩] at hview
      have hnone : (new config).players = [] := by
        unfold players new
        simp
      unfold snapshot at hview
      rw [hnone] at hview
      exact absurd hview (by simp)
    · obtain ⟨hreach, hexec⟩ := hrun.entry hstep
      rw [reach_new_invalid hconfig hreach] at hexec
      exact fun hc => (exec_new_invalid hconfig hexec).1 hc.1

/-- Two players all in before the flop: both are shown, at a showdown. -/
theorem shown_only_at_showdown_allIn :
    ∃ trace t, Run Steps (new {}) trace t ∧ t.street = .settled ∧
      ∀ pre u, pre <+: trace → Run Steps (new {}) pre u → OnlyAtShowdown pre u := by
  have hcheck : (replay perform (new {}) [.seatPlayer 1 0 2000, .seatPlayer 2 1 2000,
      .setReady 1 true, .setReady 2 true, .startHandWithDeck orderedDeck,
      .act { playerId := 1, type := .allIn }, .act { playerId := 2, type := .call }]).any
      (fun r => decide (r.2.street = .settled ∧
        ∀ step ∈ r.1, ¬ (step.label.2 = .ok ∧ step.before.FoldsOut step.label.1))) = true := by
    decide +kernel
  obtain ⟨⟨trace, t⟩, hr, hc⟩ := (Option.any_eq_true _ _).mp hcheck
  rw [decide_eq_true_eq] at hc
  have hrun := run_of_replay hr
  exact ⟨trace, t, hrun, hc.1, (shown_only_at_showdown hrun).mpr hc.2⟩

/-- The dealer folds before the flop: the snapshot for nobody in particular shows the cards of the
big blind, who never had to show them. -/
theorem winner_shown_after_fold :
    ∃ config trace t, config.validateConfig = .ok ∧ Run Steps (new config) trace t ∧
      (∀ step ∈ trace, step.label.2 = .ok) ∧
      (∀ step ∈ trace, Settles step → step.after.contenders = 1) ∧
      (∃ view ∈ (t.snapshot none).players, view.holeCards.length = 2) ∧
      ¬ OnlyAtShowdown trace t := by
  have hcheck : (replay perform (new {}) [.seatPlayer 1 0 2000, .seatPlayer 2 1 2000,
      .setReady 1 true, .setReady 2 true, .startHandWithDeck orderedDeck,
      .act { playerId := 1, type := .fold }]).any
      (fun r => decide ((∀ step ∈ r.1, step.label.2 = .ok) ∧
        (∀ step ∈ r.1, Settles step → step.after.contenders = 1) ∧
        ∃ view ∈ (r.2.snapshot none).players, view.holeCards.length = 2)) = true := by
    decide +kernel
  obtain ⟨⟨trace, t⟩, hr, hc⟩ := (Option.any_eq_true _ _).mp hcheck
  rw [decide_eq_true_eq] at hc
  obtain ⟨hok, hone, view, hview, hcards⟩ := hc
  refine ⟨_, trace, t, by decide, run_of_replay hr, hok, hone, ⟨view, hview, hcards⟩,
    fun hlaw => ?_⟩
  obtain ⟨-, start, post, ⟨⟨pre, hsplit⟩, -, -⟩, ⟨step, hstep, hsettles, htwo⟩, -⟩ :=
    hlaw none view hview (by simp)
      (by intro hnil; rw [hnil] at hcards; exact absurd hcards (by simp))
  have hmem : step ∈ trace := by
    rw [hsplit]
    exact List.mem_append_right _ hstep
  rw [hone step hmem hsettles] at htwo
  exact absurd htwo (by decide)

end PokerServer.Table

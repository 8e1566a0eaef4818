import PokerServer.Domain.Operations

/-!
# No stuck hand

A table is `Live` when it is not in a betting round, or waits for a player who can act and is
asked. `live_iff_not_strands`: a run stays live exactly as long as it starts no hand on a
`LoneDebtor` table. There `startHand` empties the set of players to ask although the only player
with chips left still owes part of a blind, and then finds nobody to act.
-/

namespace PokerServer.Table

variable {t t' : Table} {e : TableError}

/-- Between operations the table is not in the showdown, and in a betting round it waits for a
seated player who can act and is asked. -/
def Live (t : Table) : Prop := t.street ≠ .showdown ∧ (t.street.betting = true → t.Asking)

instance (t : Table) : Decidable t.Asking :=
  decidable_of_iff (t.actingSeat.any t.awaits = true) (by
    rw [Option.any_eq_true]
    rfl)

instance (t : Table) : Decidable t.Live := inferInstanceAs (Decidable (_ ∧ (_ → _)))

/-- A hand started on a table where one participant keeps chips behind the blinds, and owes. -/
def Strands (t : Table) : TableOp → Prop
  | .startHand _ =>
    handIsRunning t.street = false ∧ t.config.minPlayers ≤ t.readyPlayers ∧ t.LoneDebtor
  | .startHandWithDeck cards =>
    (∃ deck, Deck.ofCards cards = .ok deck) ∧ handIsRunning t.street = false ∧
      t.config.minPlayers ≤ t.readyPlayers ∧ t.LoneDebtor
  | _ => False

theorem Stranded.not_live (h : t.Stranded) : ¬ t.Live := by
  intro hl
  obtain ⟨i, hi, -⟩ := hl.2 h.toBetting.street
  rw [h.acting] at hi
  exact absurd hi (by simp)

theorem Inv.live_iff (h : t.Inv) : t.Live ↔ ¬ t.Stranded := by
  constructor
  · exact fun hl hs => hs.not_live hl
  · intro hns
    cases h with
    | idle h =>
      refine ⟨by rw [h.street]; decide, fun hb => ?_⟩
      rw [h.street] at hb
      exact absurd hb (by decide)
    | awaiting h =>
      refine ⟨fun hc => ?_, fun _ => h.asking⟩
      have := h.toBetting.street
      rw [hc] at this
      exact absurd this (by decide)
    | stranded h => exact absurd h hns
    | settled _ h =>
      refine ⟨by rw [h]; decide, fun hb => ?_⟩
      rw [h] at hb
      exact absurd hb (by decide)

/-- A hand that starts strands the table iff it starts on a lone debtor. -/
theorem startHand_stranded_iff {deck : Deck} (hs : t.Seating)
    (h : t.startHand deck = .ok (.ok, t')) : t'.Stranded ↔ t.LoneDebtor := by
  obtain ⟨-, -, hstarted⟩ := startHand_spec hs h
  cases hstarted with
  | awaiting _ htwo h =>
    constructor
    · intro hst
      obtain ⟨i, hi, -⟩ := h.asking
      rw [hst.acting] at hi
      exact absurd hi (by simp)
    · rintro ⟨k, r, -, hone, -⟩
      obtain ⟨i, j, p, q, hij, hi, hj⟩ := htwo
      exact absurd ((hone i p hi).trans (hone j q hj).symm) hij
  | showdown _ hruns h _ =>
    refine ⟨fun hst => ?_, fun hl => absurd hl hruns.2⟩
    have := hst.preflop
    rw [h.street] at this
    exact absurd this (by decide)
  | stranded _ hl h _ => exact ⟨fun _ => hl, fun _ => h⟩

theorem startHand_live_iff {deck : Deck} (hi : t.Inv) (hl : t.Live)
    (h : t.startHand deck = .ok (e, t')) :
    t'.Live ↔ ¬ (handIsRunning t.street = false ∧ t.config.minPlayers ≤ t.readyPlayers ∧
      t.LoneDebtor) := by
  have hs := hi.seating
  rcases startHand_cases hs h with ⟨-, rfl, hwhy⟩ | ⟨rfl, hrun, -⟩
  · refine ⟨fun _ hc => ?_, fun _ => hl⟩
    rcases hwhy with hrun | hfew
    · rw [hc.1] at hrun
      exact absurd hrun (by decide)
    · omega
  · rw [(inv_startHand hi h).live_iff, startHand_stranded_iff hs h, not_iff_not]
    refine ⟨fun hlone => ⟨hrun, ?_, hlone⟩, fun hc => hc.2.2⟩
    by_contra hfew
    unfold startHand at h
    rw [if_neg (by rw [hs.valid]; simp), if_neg (by rw [hrun]; decide), if_pos (by omega)] at h
    simp at h

/-- An operation that moves neither the street nor the acting seat strands nobody. -/
theorem Live.of_same (hl : t.Live) (hi : t'.Inv) (hstreet : t'.street = t.street)
    (hacting : t'.actingSeat = t.actingSeat) : t'.Live := by
  rw [hi.live_iff]
  intro hst
  have hb := hst.toBetting.street
  rw [hstreet] at hb
  obtain ⟨i, hact, -⟩ := hl.2 hb
  rw [← hacting, hst.acting] at hact
  exact absurd hact (by simp)

theorem act_live {command : ActionCommand} {result : ActionResult} (hi : t.Inv) (hl : t.Live)
    (h : t.act command = .ok (result, t')) : t'.Live := by
  by_cases hawait : t.Awaiting
  · by_cases hok : result.error = .ok
    · obtain ⟨i, p, q, u, -, -, -, -, -, -, -, hout, -⟩ := act_spec hawait h hok
      rw [(inv_act hi h).live_iff]
      intro hst
      cases hout with
      | foldWin _ hwin => exact absurd (hwin.street.symm.trans hst.preflop) (by decide)
      | awaiting _ haw _ =>
        obtain ⟨i, hact, -⟩ := haw.asking
        rw [hst.acting] at hact
        exact absurd hact (by simp)
      | showdown _ hshow => exact absurd (hshow.street.symm.trans hst.preflop) (by decide)
    · rcases act_cases h with ⟨-, rfl⟩ | ⟨_, _, _, -, -, -, -, -, -, -, -, hres⟩
      · exact hl
      · exact absurd (by rw [hres]; rfl) hok
  · obtain ⟨-, rfl⟩ := act_refused hi hawait h
    exact hl

/-- One step from a live table stays live iff it strands nobody. -/
theorem exec_live_iff {op : TableOp} (hi : t.Inv) (hl : t.Live) (h : t.exec op = .ok (e, t')) :
    t'.Live ↔ ¬ t.Strands op := by
  have hi' := exec_inv hi h
  have hs := hi.seating
  cases op with
  | seatPlayer id seat buyIn =>
    refine ⟨fun _ => not_false, fun _ => ?_⟩
    rcases seatPlayer_cases (Except.ok.inj h) with ⟨-, rfl⟩ | ⟨-, -, -, -, -, rfl⟩
    · exact hl
    · exact hl.of_same hi' rfl rfl
  | removePlayer id =>
    refine ⟨fun _ => not_false, fun _ => ?_⟩
    rcases removePlayer_cases (Except.ok.inj h) with ⟨-, rfl⟩ | ⟨i, p, -, -, -, -, rfl⟩
    · exact hl
    · exact hl.of_same hi' rfl rfl
  | setReady id ready =>
    refine ⟨fun _ => not_false, fun _ => ?_⟩
    rcases setReady_cases hs (Except.ok.inj h) with ⟨-, rfl⟩ | ⟨-, -, rfl⟩
    · exact hl
    · exact hl.of_same hi' rfl rfl
  | setConnected id connected =>
    refine ⟨fun _ => not_false, fun _ => ?_⟩
    rcases setConnected_cases hs (Except.ok.inj h) with ⟨-, rfl⟩ | ⟨-, rfl⟩
    · exact hl
    · exact hl.of_same hi' rfl rfl
  | startHand deck => exact startHand_live_iff hi hl h
  | startHandWithDeck cards =>
    unfold exec startHandWithDeck at h
    cases hcards : Deck.ofCards cards with
    | error f =>
      simp only [hcards, Except.ok.injEq, Prod.mk.injEq] at h
      obtain ⟨-, rfl⟩ := h
      refine ⟨fun _ hc => ?_, fun _ => hl⟩
      obtain ⟨⟨deck, hdeck⟩, -⟩ := hc
      rw [hcards] at hdeck
      exact absurd hdeck (by simp)
    | ok deck =>
      simp only [hcards] at h
      rw [startHand_live_iff hi hl h, not_iff_not]
      exact ⟨fun hc => ⟨⟨deck, hcards⟩, hc⟩, fun hc => hc.2⟩
  | abortHand =>
    refine ⟨fun _ => not_false, fun _ => ?_⟩
    rcases abortHand_cases hs (Except.ok.inj h) with ⟨-, rfl⟩ | ⟨-, -, hidle, -⟩
    · exact hl
    · refine ⟨by rw [hidle.street]; decide, fun hb => ?_⟩
      rw [hidle.street] at hb
      exact absurd hb (by decide)
  | act command =>
    simp only [exec, Checked.bind_ok_iff, Checked.pure_ok_iff, Prod.exists, Prod.mk.injEq] at h
    obtain ⟨result, u, hact, -, rfl⟩ := h
    exact ⟨fun _ => not_false, fun _ => act_live hi hl hact⟩

/-- **No stuck hand**: whatever the configuration, the stacks and the operations, a run stays live
iff it starts no hand on a lone debtor. -/
theorem live_iff_not_strands {config : TableConfig}
    {trace : List (Step Table (TableOp × TableError))} (hconfig : config.validateConfig = .ok)
    (hrun : Run Steps (new config) trace t) :
    (∀ step ∈ trace, step.after.Live) ↔ ∀ step ∈ trace, ¬ step.before.Strands step.label.1 := by
  have hstart : (new config).Inv ∧ (new config).Live :=
    ⟨inv_new hconfig, by simp [new], by simp [new, Street.betting]⟩
  constructor
  · intro hlive step hstep
    obtain ⟨⟨hi, hl⟩, hexec⟩ := hrun.guarded_entry (I := fun t => t.Inv ∧ t.Live)
      (G := fun step => step.after.Live) hstart
      (fun a l b hI hs hG => ⟨exec_inv hI.1 hs, hG⟩) hlive hstep
    exact (exec_live_iff hi hl hexec).mp (hlive step hstep)
  · intro hnot step hstep
    obtain ⟨⟨hi, hl⟩, hexec⟩ := hrun.guarded_entry (I := fun t => t.Inv ∧ t.Live)
      (G := fun step => ¬ step.before.Strands step.label.1) hstart
      (fun a l b hI hs hG => ⟨exec_inv hI.1 hs, (exec_live_iff hI.1 hI.2 hs).mpr hG⟩) hnot hstep
    exact (exec_live_iff hi hl hexec).mpr (hnot step hstep)

/-- Three players are ready; `small` and `big` are what the blinds brought. -/
def threeHanded (small big : Int) : List TableOp :=
  [.seatPlayer 1 0 1000, .seatPlayer 2 1 small, .seatPlayer 3 2 big,
    .setReady 1 true, .setReady 2 true, .setReady 3 true, .startHandWithDeck orderedDeck]

/-- With chips behind one blind the hand waits for the dealer, so no start stranded it. -/
theorem not_strands_threeHanded :
    ∃ trace t, Run Steps (new { minBuyIn := 1 }) trace t ∧ t.street = .preflop ∧
      ∀ step ∈ trace, ¬ step.before.Strands step.label.1 := by
  have hcheck : (replay perform (new { minBuyIn := 1 }) (threeHanded 30 160)).any (fun r =>
      decide (r.2.street = .preflop ∧ ∀ step ∈ r.1, step.after.Live)) = true := by
    decide +kernel
  obtain ⟨⟨trace, t⟩, hr, hc⟩ := (Option.any_eq_true _ _).mp hcheck
  rw [decide_eq_true_eq] at hc
  have hrun := run_of_replay hr
  exact ⟨trace, t, hrun, hc.1, (live_iff_not_strands (by decide) hrun).mp hc.2⟩

/-- Both blinds are all-in and the dealer owes: the hand starts, and nobody is asked. -/
theorem hand_stuck :
    ∃ config trace t, config.validateConfig = .ok ∧ Run Steps (new config) trace t ∧
      (∀ step ∈ trace, step.label.2 = .ok) ∧ t.street = .preflop ∧ t.actingSeat = none ∧
      ¬ t.Live := by
  have hcheck : (replay perform (new { minBuyIn := 1 }) (threeHanded 30 60)).any (fun r =>
      decide ((∀ step ∈ r.1, step.label.2 = .ok) ∧ r.2.street = .preflop ∧
        r.2.actingSeat = none ∧ ¬ r.2.Live)) = true := by
    decide +kernel
  obtain ⟨⟨trace, t⟩, hr, hc⟩ := (Option.any_eq_true _ _).mp hcheck
  rw [decide_eq_true_eq] at hc
  exact ⟨_, trace, t, by decide, run_of_replay hr, hc⟩

end PokerServer.Table

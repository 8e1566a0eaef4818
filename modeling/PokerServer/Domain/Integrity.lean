import PokerServer.Domain.Evaluation
import PokerServer.Domain.Faultless
import PokerServer.Domain.History

/-!
# The cards of a run, and its steps

Two guarantees of the operations of a table, over whole runs:

* `operations_atomic`: a call changes nothing, or counts the sequence number up, where the cards it
  may evaluate can be counted (`operation_leaves_the_arrays` has a card that cannot). So a number
  names one state of the run.
* `cards_intact`: as long as hands are started on the 52 cards (`Honest`), the cards on the table
  are distinct real cards, held by the players dealt into the hand, and every call returns.
-/

namespace PokerServer

/-- A hand is started on the 52 cards, in some order. -/
def TableOp.Honest : TableOp → Prop
  | .startHandWithDeck cards => cards.Perm orderedDeck
  | _ => True

instance : (op : TableOp) → Decidable op.Honest
  | .startHandWithDeck cards => inferInstanceAs (Decidable (cards.Perm orderedDeck))
  | .seatPlayer .. | .removePlayer .. | .setReady .. | .setConnected .. | .startHand ..
  | .abortHand | .act .. => inferInstanceAs (Decidable True)

namespace Table

variable {config : TableConfig} {t t' u : Table} {trace : List Entry} {op : TableOp}
  {G G' : Card → Prop}

/-! ## Atomic steps -/

/-- The call is refused and changes nothing, or is accepted and counts up. -/
def Atomic (t : Table) (op : TableOp) : Prop :=
  ∃ e t', t.exec op = .ok (e, t') ∧
    ((e ≠ .ok ∧ t' = t) ∨ (e = .ok ∧ t.serverSequence < t'.serverSequence))

/-- The cards are in order in every state of every run. -/
theorem reach_carded (hconfig : config.validateConfig = .ok) (h : Reaches Steps (new config) t) :
    t.Carded fun _ => True := by
  have hboth : t.Inv ∧ t.Carded fun _ => True := by
    refine h.invariant (I := fun t => t.Inv ∧ t.Carded fun _ => True)
      ⟨inv_new hconfig, carded_new config⟩ ?_
    rintro a label b ⟨hi, hc⟩ hstep
    exact ⟨exec_inv hi hstep, exec_carded hi hc (fun _ _ => trivial) hstep⟩
  exact hboth.2

/-- A table with a refused configuration refuses everything. -/
theorem exec_new_returns (hconfig : config.validateConfig ≠ .ok) :
    ∃ r, (new config).exec op = .ok r := by
  have hstart : ∀ deck, (new config).startHand deck = .ok (.invalidConfiguration, new config) := by
    intro deck
    unfold startHand
    exact if_pos hconfig
  cases op with
  | seatPlayer id seat buyIn => exact ⟨_, rfl⟩
  | removePlayer id => exact ⟨_, rfl⟩
  | setReady id ready => exact ⟨_, rfl⟩
  | setConnected id connected => exact ⟨_, rfl⟩
  | abortHand => exact ⟨_, rfl⟩
  | startHand deck => exact ⟨_, hstart _⟩
  | startHandWithDeck cards =>
    change ∃ r, (new config).startHandWithDeck cards = .ok r
    unfold startHandWithDeck
    cases Deck.ofCards cards with
    | error _ => exact ⟨_, rfl⟩
    | ok deck => exact ⟨_, hstart deck⟩
  | act command => exact ⟨_, rfl⟩

/-- A call returns, or meets a card outside the enumerations. -/
theorem exec_returns_or (h : Reaches Steps (new config) t) (op : TableOp) :
    (∃ e t', t.exec op = .ok (e, t')) ∨
      (t.exec op = .error .badAccess ∧ ∃ card ∈ t.atShowdown ++ op.cards, ¬ card.Counted) := by
  by_cases hconfig : config.validateConfig = .ok
  · have hfails : Checked.FailsOnly (Miscounts (· ∈ t.atShowdown ++ op.cards)) (t.exec op) :=
      exec_failsOnly (reach_inv hconfig h) (reach_carded hconfig h)
        (fun card hc => List.mem_append_left _ hc) fun card hc => List.mem_append_right _ hc
    cases hcall : t.exec op with
    | ok r => exact Or.inl ⟨r.1, r.2, rfl⟩
    | error fault =>
      obtain ⟨rfl, card, hcard, hbad⟩ := hfails fault hcall
      exact Or.inr ⟨rfl, card, hcard, hbad⟩
  · rw [reach_new_invalid hconfig h]
    obtain ⟨r, hr⟩ : ∃ r, (new config).exec op = .ok r := exec_new_returns hconfig
    exact Or.inl ⟨r.1, r.2, hr⟩

/-- A refused call changes nothing, an accepted one counts up. -/
theorem exec_counts {e : TableError} (h : Reaches Steps (new config) t)
    (hcall : t.exec op = .ok (e, t')) :
    (e ≠ .ok ∧ t' = t) ∨ (e = .ok ∧ t.serverSequence < t'.serverSequence) := by
  by_cases hconfig : config.validateConfig = .ok
  · exact exec_sequence (reach_inv hconfig h) hcall
  · rw [reach_new_invalid hconfig h] at hcall ⊢
    exact Or.inl (exec_new_invalid hconfig hcall)

/-- Later in a run the sequence number is larger, or nothing has changed. -/
theorem later_or_same (hu : Reaches Steps (new config) u) (ht : Reaches Steps u t) :
    t = u ∨ u.serverSequence < t.serverSequence := by
  have hboth : Reaches Steps (new config) t ∧ (t = u ∨ u.serverSequence < t.serverSequence) := by
    refine ht.invariant (I := fun t => Reaches Steps (new config) t ∧
      (t = u ∨ u.serverSequence < t.serverSequence)) ⟨hu, Or.inl rfl⟩ ?_
    rintro a label b ⟨ha, hlater⟩ hstep
    refine ⟨ha.tail hstep, ?_⟩
    rcases exec_counts ha hstep with ⟨-, rfl⟩ | ⟨-, hgrows⟩
    · exact hlater
    · rcases hlater with rfl | hlater
      · exact Or.inr hgrows
      · exact Or.inr (by omega)
  exact hboth.2

/-- **Operations are atomic, and the sequence number identifies the state**, where the cards in play
and those of the call can be counted: the call changes nothing, or counts the sequence number up.
Two moments of a run with one number are one state. -/
theorem operations_atomic (config : TableConfig) :
    (∀ t, Reaches Steps (new config) t → (∀ card ∈ t.inPlay, card.Counted) →
      ∀ op : TableOp, (∀ card ∈ op.cards, card.Counted) → t.Atomic op) ∧
    ∀ u t, Reaches Steps (new config) u → Reaches Steps u t →
      u.serverSequence = t.serverSequence → u = t := by
  refine ⟨fun t ht hplay op hop => ?_, fun u t hu ht hseq => ?_⟩
  · rcases exec_returns_or ht op with ⟨e, t', hcall⟩ | ⟨-, card, hcard, hbad⟩
    · exact ⟨e, t', hcall, exec_counts ht hcall⟩
    · refine absurd ((List.mem_append.mp hcard).elim (fun hshown => ?_) (hop card)) hbad
      exact hplay card (atShowdown_subset t hshown)
  · rcases later_or_same hu ht with rfl | hgrows
    · rfl
    · omega

/-- Two players, whom any blind puts all in, are ready for a hand. -/
def allInBlinds : List TableOp :=
  [.seatPlayer 1 0 10, .seatPlayer 2 1 10, .setReady 1 true, .setReady 2 true]

/-- A card with the index of the four of clubs and the suit byte 197 is dealt into a hand that is
shown at once. -/
theorem operation_leaves_the_arrays :
    ∃ t, Reaches Steps (new { minBuyIn := 1 }) t ∧
      t.exec (.startHandWithDeck (⟨3, 197⟩ :: orderedDeck.erase ⟨4, 0⟩)) = .error .badAccess ∧
      ¬ t.Atomic (.startHandWithDeck (⟨3, 197⟩ :: orderedDeck.erase ⟨4, 0⟩)) := by
  have hcheck : (replay perform (new { minBuyIn := 1 }) allInBlinds).any (fun r =>
      match r.2.exec (.startHandWithDeck (⟨3, 197⟩ :: orderedDeck.erase ⟨4, 0⟩)) with
      | .error .badAccess => true
      | _ => false) = true := by
    decide +kernel
  obtain ⟨⟨trace, t⟩, hr, hc⟩ := (Option.any_eq_true _ _).mp hcheck
  refine ⟨t, ⟨trace, run_of_replay hr⟩, ?_⟩
  dsimp only at hc
  split at hc
  · rename_i hfault
    refine ⟨hfault, ?_⟩
    rintro ⟨e, t', hcall, -⟩
    exact absurd (hfault.symm.trans hcall) (by simp)
  · exact absurd hc (by decide)

/-- The same hand, dealt from the 52 cards. -/
theorem operations_atomic_allIn :
    ∃ t, Reaches Steps (new { minBuyIn := 1 }) t ∧ t.Atomic (.startHandWithDeck orderedDeck) ∧
      ∃ t', t.exec (.startHandWithDeck orderedDeck) = .ok (.ok, t') ∧
        t.serverSequence < t'.serverSequence := by
  have hcheck : (replay perform (new { minBuyIn := 1 }) allInBlinds).any (fun r =>
      decide ((∀ card ∈ r.2.inPlay, card.Counted) ∧ (∀ card ∈ orderedDeck, card.Counted) ∧
        (r.2.exec (.startHandWithDeck orderedDeck)).toOption.map Prod.fst = some .ok)) = true := by
    decide +kernel
  obtain ⟨⟨trace, t⟩, hr, hc⟩ := (Option.any_eq_true _ _).mp hcheck
  obtain ⟨hplay, hcards, hok⟩ := of_decide_eq_true hc
  have hatomic := (operations_atomic { minBuyIn := 1 }).1 t ⟨trace, run_of_replay hr⟩ hplay
    (.startHandWithDeck orderedDeck) hcards
  obtain ⟨e, t', hcall, hcases⟩ := id hatomic
  rw [hcall] at hok
  obtain rfl : e = .ok := Option.some.inj hok
  rcases hcases with ⟨hne, -⟩ | ⟨-, hgrows⟩
  · exact absurd rfl hne
  · exact ⟨t, ⟨trace, run_of_replay hr⟩, hatomic, t', hcall, hgrows⟩

/-! ## The cards -/

theorem honest_valid (h : op.Honest) : ∀ card ∈ op.cards, card.Valid := by
  cases op with
  | startHand deck =>
    exact fun card hc => mem_orderedDeck_iff.mp (deck.perm.mem_iff.mp hc)
  | startHandWithDeck cards =>
    exact fun card hc => mem_orderedDeck_iff.mp ((h : cards.Perm _).mem_iff.mp hc)
  | seatPlayer | removePlayer | setReady | setConnected | abortHand | act =>
    exact fun card hc => absurd hc (by simp [TableOp.cards])

/-- In an honest run all cards are real. -/
theorem honest_carded (hconfig : config.validateConfig = .ok)
    (hrun : Run Steps (new config) trace t)
    (hhonest : ∀ step ∈ trace, step.label.1.Honest) : t.Inv ∧ t.Carded Card.Valid := by
  refine hrun.guarded (I := fun t => t.Inv ∧ t.Carded Card.Valid)
    (G := fun step => step.label.1.Honest) ⟨inv_new hconfig, carded_new config⟩ ?_ hhonest
  rintro a label b ⟨hi, hc⟩ hstep hop
  exact ⟨exec_inv hi hstep, exec_carded hi hc (honest_valid hop) hstep⟩

/-- **The cards on the table after `trace`.** -/
structure Intact (trace : List Entry) (t : Table) : Prop where
  valid : ∀ card ∈ t.holeCards ++ t.board, card.Valid
  distinct : (t.holeCards ++ t.board).Nodup
  holders : t.street ≠ .waiting → ∃ start post, HandOf trace start post ∧
    ∀ i q, t.seatAt i = some q → (q.hasHole = true ↔
      (∃ p, start.before.seatAt i = some p ∧ p.id = q.id ∧ p.plays = true) ∧ ¬ Left post q.id)
  shown : t.street.betting = true → t.board.length = t.street.shown

/-- A player holds cards iff it was dealt in and has stayed. -/
theorem Story.hole_iff {t₀ : Table} {post : List Entry} {awards : List PotAward} {i : Nat}
    {q : Player} (h : Story t₀ post awards i q) :
    q.hasHole = true ↔
      (∃ p, t₀.seatAt i = some p ∧ p.id = q.id ∧ p.plays = true) ∧ ¬ Left post q.id := by
  cases h with
  | dealt seat plays hid stayed hole status folded chips =>
    exact iff_of_true hole ⟨⟨_, seat, hid.symm, plays⟩, stayed⟩
  | watching seat plays hid stayed apart stack won =>
    refine iff_of_false (by simp [apart.hole]) ?_
    rintro ⟨⟨p, hp, -, hplays⟩, -⟩
    rw [Option.some.inj (seat.symm.trans hp), hplays] at plays
    exact absurd plays (by decide)
  | joined sat fresh apart stack enough =>
    refine iff_of_false (by simp [apart.hole]) ?_
    rintro ⟨⟨p, hp, hid, -⟩, hstayed⟩
    exact fresh.elim hstayed fun hnone => hnone i p hp hid

/-- **Card integrity, and no thrown exception.** -/
theorem cards_intact (hconfig : config.validateConfig = .ok) (hrun : Run Steps (new config) trace t)
    (hhonest : ∀ step ∈ trace, step.label.1.Honest) :
    Intact trace t ∧ (∀ op : TableOp, op.Honest → ∃ e t', t.exec op = .ok (e, t')) ∧
      ∀ uniform : Nat → Nat, (∀ n, 0 < n → uniform n < n) →
        ∃ full : FullDeck, Deck.shuffled uniform = .ok full.toDeck := by
  obtain ⟨hi, hc⟩ := honest_carded hconfig hrun hhonest
  have hsub : (t.holeCards ++ t.board).Sublist t.inPlay :=
    (List.Sublist.refl _).append (List.sublist_append_left _ _)
  refine ⟨⟨fun card hcard => hc.good card (hsub.subset hcard), ?_, fun hhand => ?_, fun hb => ?_⟩,
    fun op hop => ?_, fun uniform huniform => Deck.shuffled_full huniform⟩
  · exact (hc.distinct.subperm hsub.subperm).nodup.of_map
  · obtain ⟨start, post, hunder⟩ := exists_underway hconfig hrun hhand
    exact ⟨start, post, hunder.toHandOf,
      fun i q hq => ((hunder.since hconfig).1.story i q hq).hole_iff⟩
  · have hfits := hc.fits
    unfold BoardFits at hfits
    rwa [if_pos hb] at hfits
  · exact hc.returns hi (honest_valid hop)

/-- Two players all in before the flop: the board is run out and both hands are shown. -/
theorem cards_intact_allIn :
    ∃ trace t, Run Steps (new {}) trace t ∧ t.street = .settled ∧ t.board.length = 5 ∧
      Intact trace t := by
  have hcheck : (replay perform (new {}) [.seatPlayer 1 0 2000, .seatPlayer 2 1 2000,
      .setReady 1 true, .setReady 2 true, .startHandWithDeck orderedDeck,
      .act { playerId := 1, type := .allIn }, .act { playerId := 2, type := .call }]).any
      (fun r => decide ((∀ step ∈ r.1, step.label.1.Honest) ∧ r.2.street = .settled ∧
        r.2.board.length = 5)) = true := by
    decide +kernel
  obtain ⟨⟨trace, t⟩, hr, hc⟩ := (Option.any_eq_true _ _).mp hcheck
  rw [decide_eq_true_eq] at hc
  have hrun := run_of_replay hr
  exact ⟨trace, t, hrun, hc.2.1, hc.2.2, (cards_intact (by decide) hrun hc.1).1⟩

end Table

end PokerServer

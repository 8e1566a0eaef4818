import PokerServer.Domain.Streets

/-!
# The board

`Shows t t'`: on the way from `t` to `t'` cards went from the deck to the board, if anywhere, the
board has the length its street asks for, and the deck still holds what the later streets need.
`advanceLoop_shows` says so of everything that follows a completed betting round.
-/

namespace PokerServer

/-- The cards on the board of a street. -/
def Street.shown : Street → Nat
  | .flop => 3
  | .turn => 4
  | .river => 5
  | _ => 0

namespace Table

variable {t t' u : Table} {i : Nat} {p q : Player}

/-- The cards still to be drawn in this hand. -/
def rest (t : Table) : List Card := (t.deck.map Deck.rest).getD []

/-- The cards a street still takes from the deck up to the river, the burnt ones included. -/
def needed : Street → Nat
  | .preflop => 8
  | .flop => 4
  | .turn => 2
  | _ => 0

/-- While a hand runs there is a deck with the cards it still needs. -/
def Supplied (t : Table) : Prop :=
  t.street.betting = true → ∃ deck, t.deck = some deck ∧ needed t.street ≤ deck.rest.length

/-- The board has its street's length, or at most five cards once the hand is over. -/
def BoardFits (t : Table) : Prop :=
  if t.street.betting then t.board.length = t.street.shown else t.board.length ≤ 5

/-- The board of `t'` and what is left of its deck are drawn from those of `t`, in order. -/
structure Shows (t t' : Table) : Prop where
  drawn : (t'.board ++ t'.rest).Sublist (t.board ++ t.rest)
  fits : t.BoardFits → t'.BoardFits
  supplied : t.Supplied → t'.Supplied

/-! ## The board -/

theorem Shows.refl (t : Table) : Shows t t := ⟨List.Sublist.refl _, id, id⟩

theorem Shows.trans (h : Shows t u) (h' : Shows u t') : Shows t t' :=
  ⟨h'.drawn.trans h.drawn, fun hf => h'.fits (h.fits hf), fun hs => h'.supplied (h.supplied hs)⟩

/-- Nothing is drawn where the board, the deck and the street stay. -/
theorem Shows.of_eq (hboard : t'.board = t.board) (hdeck : t'.deck = t.deck)
    (hstreet : t'.street = t.street) : Shows t t' := by
  refine ⟨?_, fun hf => ?_, fun hs => ?_⟩
  · unfold rest
    rw [hboard, hdeck]
  · unfold BoardFits at hf ⊢
    rw [hboard, hstreet]
    exact hf
  · unfold Supplied at hs ⊢
    rw [hdeck, hstreet]
    exact hs

/-- A hand that is over needs no deck. -/
theorem supplied_of_settled (h : t.street = .settled) : t.Supplied := fun hb => by
  rw [h] at hb
  exact absurd hb (by decide)

theorem BoardFits.le_five (h : t.BoardFits) : t.board.length ≤ 5 := by
  unfold BoardFits at h
  split_ifs at h
  · rw [h]
    cases t.street <;> decide
  · exact h

theorem Reveals.drawn {k : Nat} (h : Reveals k t t') :
    (t'.board ++ t'.rest).Sublist (t.board ++ t.rest) ∧
      t'.board.length = t.board.length + k := by
  obtain ⟨deck, deck', burnt, cards, hdeck, hrest, hk, rfl⟩ := h
  have hold : t.rest = burnt :: (cards ++ deck'.rest) := by
    unfold rest
    rw [hdeck]
    exact hrest
  refine ⟨?_, by rw [List.length_append, hk]⟩
  rw [hold]
  change ((t.board ++ cards) ++ deck'.rest).Sublist _
  rw [List.append_assoc]
  exact (List.Sublist.refl _).append (List.sublist_cons_self _ _)

theorem advanceStreet_shows (h : t.advanceStreet = .ok t') : Shows t t' := by
  obtain ⟨k, s, u, hfollows, hreveals, rfl⟩ := advanceStreet_ok h
  obtain ⟨hdrawn, hlen⟩ := hreveals.drawn
  have hstreet : u.street = s := by
    obtain ⟨_, _, _, _, -, -, -, rfl⟩ := hreveals
    rfl
  refine ⟨hdrawn, fun hf => ?_, fun hs hb => ?_⟩
  · unfold BoardFits at hf ⊢
    change u.board.length = t.board.length + k at hlen
    change if u.street.betting = true then u.board.length = u.street.shown else _
    rw [hlen, hstreet]
    generalize t.street = s₀ at hf hfollows
    cases hfollows <;> simp only [Street.betting, if_true] at hf ⊢ <;> rw [hf] <;> rfl
  · obtain ⟨deck, deck', burnt, cards, hdeck, hrest, hk, rfl⟩ := hreveals
    have hbefore : t.street.betting = true := by
      generalize t.street = s₀ at hfollows
      cases hfollows <;> rfl
    obtain ⟨deck₀, hdeck₀, hneeded⟩ := hs hbefore
    obtain rfl : deck₀ = deck := Option.some.inj (hdeck₀.symm.trans hdeck)
    refine ⟨deck', rfl, ?_⟩
    change needed s ≤ deck'.rest.length
    have hlength := congrArg List.length hrest
    rw [List.length_cons, List.length_append, hk] at hlength
    generalize t.street = s₀ at hfollows hneeded
    cases hfollows <;> simp only [needed] at hneeded ⊢ <;> omega

theorem completeBoard_drawn : ∀ {fuel : Nat} {t t' : Table}, completeBoard fuel t = .ok t' →
    (t'.board ++ t'.rest).Sublist (t.board ++ t.rest) ∧
      (t.board.length ≤ 5 → t'.board.length ≤ 5)
  | 0, t, t', h => by
    rw [completeBoard, Except.ok.injEq] at h
    subst h
    exact ⟨List.Sublist.refl _, id⟩
  | fuel + 1, t, t', h => by
    rw [completeBoard] at h
    split_ifs at h with hlen hnil
    · rw [Checked.bind_ok_iff] at h
      obtain ⟨u, hu, h⟩ := h
      obtain ⟨hdrawn, hk⟩ := (revealFlop_ok hu).drawn
      obtain ⟨hrest, hfive⟩ := completeBoard_drawn h
      refine ⟨hrest.trans hdrawn, fun _ => hfive ?_⟩
      rw [hk, hnil]
      decide
    · rw [Checked.bind_ok_iff] at h
      obtain ⟨u, hu, h⟩ := h
      obtain ⟨hdrawn, hk⟩ := (revealOne_ok hu).drawn
      obtain ⟨hrest, hfive⟩ := completeBoard_drawn h
      exact ⟨hrest.trans hdrawn, fun _ => hfive (by omega)⟩
    · rw [Except.ok.injEq] at h
      subst h
      exact ⟨List.Sublist.refl _, id⟩

/-! ## Paying leaves the cards alone -/

theorem modifyPlayer_cards (t : Table) (id : PlayerId) (f : Player → Player) :
    (t.modifyPlayer id f).board = t.board ∧ (t.modifyPlayer id f).deck = t.deck := by
  unfold modifyPlayer
  split <;> exact ⟨rfl, rfl⟩

theorem payWinners_cards {award : PotAward} : ∀ {ids : List PlayerId} {n : Nat} {t t' : Table},
    payWinners award t n ids = .ok t' → t'.board = t.board ∧ t'.deck = t.deck
  | [], n, t, t', h => by
    rw [payWinners, Except.ok.injEq] at h
    subst h
    exact ⟨rfl, rfl⟩
  | id :: ids, n, t, t', h => by
    rw [payWinners] at h
    split at h
    · exact absurd h (by simp)
    · obtain ⟨hboard, hdeck⟩ := payWinners_cards h
      obtain ⟨hboard', hdeck'⟩ := t.modifyPlayer_cards id fun player =>
        { player with stack := player.stack + award.share n }
      exact ⟨hboard.trans hboard', hdeck.trans hdeck'⟩

theorem awardLayers_cards : ∀ {levels : List Int} {t t' : Table} {awards awards' : List PotAward}
    {previous : Int}, awardLayers t awards previous levels = .ok (t', awards') →
    t'.board = t.board ∧ t'.deck = t.deck
  | [], t, t', awards, awards', previous, h => by
    rw [awardLayers, Except.ok.injEq, Prod.mk.injEq] at h
    rw [h.1]
    exact ⟨rfl, rfl⟩
  | level :: levels, t, t', awards, awards', previous, h => by
    simp only [awardLayers, Checked.bind_ok_iff, Prod.exists] at h
    obtain ⟨u, awards₁, hu, h⟩ := h
    obtain ⟨hboard, hdeck⟩ := awardLayers_cards h
    unfold awardLayer at hu
    dsimp only at hu
    split_ifs at hu
    · rw [Except.ok.injEq, Prod.mk.injEq] at hu
      rw [hboard, hdeck, hu.1]
      exact ⟨rfl, rfl⟩
    · simp only [Checked.bind_ok_iff, Checked.pure_ok_iff, Prod.mk.injEq] at hu
      obtain ⟨_, -, _, -, w, hw, rfl, -⟩ := hu
      obtain ⟨hboard', hdeck'⟩ := payWinners_cards hw
      exact ⟨hboard.trans hboard', hdeck.trans hdeck'⟩

theorem settleShowdown_shows (h : t.settleShowdown = .ok t') : Shows t t' := by
  unfold settleShowdown at h
  simp only [Checked.bind_ok_iff, Checked.pure_ok_iff, Prod.exists] at h
  obtain ⟨w, hw, v, awards, hpots, rfl⟩ := h
  obtain ⟨hdrawn, hfive⟩ := completeBoard_drawn hw
  obtain ⟨hboard, hdeck⟩ := awardLayers_cards hpots
  refine ⟨?_, fun hf => ?_, fun _ => supplied_of_settled rfl⟩
  · change (v.board ++ (v.deck.map Deck.rest).getD []).Sublist _
    rw [hboard, hdeck]
    exact hdrawn
  · change v.board.length ≤ 5
    rw [hboard]
    exact hfive hf.le_five

theorem settleFoldWin_shows (h : t.settleFoldWin = .ok t') : Shows t t' := by
  unfold settleFoldWin at h
  split at h
  · exact absurd h (by simp)
  · rename_i winner _
    rw [Except.ok.injEq] at h
    subst h
    obtain ⟨hboard, hdeck⟩ := t.modifyPlayer_cards winner.id fun player =>
      { player with stack := player.stack + t.potSize }
    refine ⟨?_, fun hf => ?_, fun _ => supplied_of_settled rfl⟩
    · change (Table.board _ ++ ((Table.deck _).map Deck.rest).getD []).Sublist _
      rw [hboard, hdeck]
      exact List.Sublist.refl _
    · change (Table.board _).length ≤ 5
      rw [hboard]
      exact hf.le_five

theorem advanceLoop_shows {fuel : Nat} (h : advanceLoop fuel t = .ok t') : Shows t t' := by
  replace h := advances_of_loop h
  induction h with
  | folds _ hsettled => exact settleFoldWin_shows hsettled
  | waits => exact Shows.of_eq rfl rfl rfl
  | shows _ _ hsettled => exact settleShowdown_shows hsettled
  | asks _ hnext => exact (advanceStreet_shows hnext).trans (Shows.of_eq rfl rfl rfl)
  | runsOut _ hnext _ _ hrest =>
    exact (advanceStreet_shows hnext).trans ⟨hrest.drawn, hrest.fits, hrest.supplied⟩

end Table

end PokerServer

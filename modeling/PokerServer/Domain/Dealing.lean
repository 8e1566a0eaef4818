import PokerServer.Domain.Acting

/-!
# Dealing the hole cards

`dealHoleCards` walks twice round the participants from the dealer's left. `dealRound_spec` says
what one round does: the next cards of the deck go to the participants in clockwise order, one
each, and the walk ends where it began. `dealHoleCards_spec` puts the two rounds together: the
players differ in their cards only, and exactly the participants hold two.
-/

namespace PokerServer

namespace Player

/-- The player with one more card: the first in round 0, the second in round 1. -/
def takeCard (round : Nat) (card : Card) (p : Player) : Player :=
  { p with
    hole := if round = 0 then (card, p.hole.2) else (p.hole.1, card)
    hasHole := true }

/-- The player without the cards. -/
def faceDown (p : Player) : Player := { p with hole := ({}, {}), hasHole := false }

@[simp] theorem faceDown_takeCard (round : Nat) (card : Card) (p : Player) :
    (p.takeCard round card).faceDown = p.faceDown := rfl

end Player

namespace Table

variable {t t' u : Table} {i j : Nat} {p q : Player}

/-- Whether the player at a seat takes part in the hand. -/
def participatesAt (t : Table) (i : Nat) : Bool := (t.seatAt i).any Player.participates

theorem participatesAt_congr (h : ∀ i, (t'.seatAt i).map Player.faceDown =
    (t.seatAt i).map Player.faceDown) : t'.participatesAt = t.participatesAt := by
  funext i
  unfold participatesAt
  have hi := congrArg (fun o : Option Player => o.any Player.participates) (h i)
  simp only [Option.any_map] at hi
  exact hi

/-- A card to `x` moves the walk on to the participants that follow. -/
theorem dealt_ring {x : Nat} {xs : List Nat}
    (hhits : Clockwise.hits t.participatesAt t.seats.length i = x :: xs) (hp : t.seatAt x = some p)
    (round : Nat) (card : Card) (deck : Deck) :
    let t' : Table := { t.setSeat x (some (p.takeCard round card)) with deck := some deck }
    Clockwise.hits t'.participatesAt t'.seats.length x = xs ++ [x] ∧
      t'.nextParticipatingSeat x = (xs ++ [x]).head? := by
  intro t'
  have hface : ∀ j, (t'.seatAt j).map Player.faceDown = (t.seatAt j).map Player.faceDown := by
    intro j
    change ((t.setSeat x (some (p.takeCard round card))).seatAt j).map _ = _
    by_cases hxj : x = j
    · subst hxj
      rw [seatAt_setSeat_self (seatAt_lt hp), hp]
      rfl
    · rw [seatAt_setSeat_ne hxj]
  have hhits' : Clockwise.hits t'.participatesAt t'.seats.length x = xs ++ [x] := by
    rw [participatesAt_congr hface, show t'.seats.length = t.seats.length from length_setSeat t x _]
    exact Clockwise.hits_rotate hhits
  refine ⟨hhits', ?_⟩
  rw [← hhits', ← Clockwise.next_eq_head]
  rfl

/-- **One round of the deal.** `ys` are the participants clockwise from `i`; the first `k` of them
get the next `k` cards. -/
theorem dealRound_spec {round : Nat} : ∀ {k : Nat} {ys : List Nat} {t t' : Table} {i : Nat}
    {deck : Deck} {s : Option Nat}, Clockwise.hits t.participatesAt t.seats.length i = ys →
    k ≤ ys.length → t.deck = some deck → dealRound round k t ys.head? = .ok (t', s) →
    ∃ cards deck', cards.length = k ∧ deck.rest = cards ++ deck'.rest ∧
      t' = { t with seats := t'.seats, deck := some deck' } ∧ t'.seats.length = t.seats.length ∧
      (∀ j, j ∉ ys.take k → t'.seatAt j = t.seatAt j) ∧
      (∀ y c, (y, c) ∈ (ys.take k).zip cards →
        ∃ p, t.seatAt y = some p ∧ t'.seatAt y = some (p.takeCard round c)) ∧
      s = (ys.rotate k).head?
  | 0, ys, t, t', i, deck, s, _, _, hdeck, h => by
    simp only [dealRound, Except.ok.injEq, Prod.mk.injEq] at h
    obtain ⟨rfl, rfl⟩ := h
    exact ⟨[], deck, rfl, rfl, by rw [← hdeck], rfl, fun _ _ => rfl, by simp, by simp⟩
  | k + 1, [], t, t', i, deck, s, _, hk, _, _ => by simp at hk
  | k + 1, x :: xs, t, t', i, deck, s, hhits, hk, hdeck, h => by
    obtain ⟨hx, hpx⟩ := Clockwise.mem_hits.mp (hhits ▸ List.mem_cons_self : x ∈ _)
    have hnodup : (x :: xs).Nodup := hhits ▸ Clockwise.nodup_hits _ _
    obtain ⟨p, hp, -⟩ := (Option.any_eq_true _ _).mp hpx
    rw [List.head?_cons, dealRound] at h
    simp only [hp, theDeck, hdeck] at h
    rw [Checked.bind_ok_iff] at h
    obtain ⟨deck0, hd0, h⟩ := h
    rw [Except.ok.injEq] at hd0
    subst hd0
    rw [Checked.bind_ok_iff] at h
    obtain ⟨⟨card, deck1⟩, hdraw, h⟩ := h
    simp only at h
    obtain ⟨hrest, -⟩ := Deck.draw_ok hdraw
    let t1 : Table := { t.setSeat x (some (p.takeCard round card)) with deck := some deck1 }
    have hlen1 : t1.seats.length = t.seats.length := length_setSeat t x _
    obtain ⟨hhits1, hnext⟩ := dealt_ring hhits hp round card deck1
    have hkxs : k ≤ xs.length := by simpa using hk
    have htake : (xs ++ [x]).take k = xs.take k := List.take_append_of_le_length hkxs
    change dealRound round k t1 (t1.nextParticipatingSeat x) = .ok (t', s) at h
    rw [hnext] at h
    obtain ⟨cards, deck', hcards, hrest', hframe, hlen, hother, hdealt, hs⟩ :=
      dealRound_spec hhits1 (by simp; omega) rfl h
    rw [htake] at hother hdealt
    have hxs : x ∉ xs.take k := fun hm => (List.nodup_cons.mp hnodup).1 (List.mem_of_mem_take hm)
    refine ⟨card :: cards, deck', by simp [hcards], by rw [hrest, hrest']; rfl, hframe,
      hlen.trans hlen1, ?_, ?_, ?_⟩
    · intro j hj
      rw [List.take_succ_cons, List.mem_cons, not_or] at hj
      rw [hother j hj.2]
      exact seatAt_setSeat_ne (Ne.symm hj.1) _
    · intro y c hyc
      rw [List.take_succ_cons, List.zip_cons_cons, List.mem_cons] at hyc
      rcases hyc with heq | hin
      · simp only [Prod.mk.injEq] at heq
        obtain ⟨rfl, rfl⟩ := heq
        exact ⟨p, hp, by rw [hother y hxs]; exact seatAt_setSeat_self hx _⟩
      · obtain ⟨q, hq, hq'⟩ := hdealt y c hin
        have hyx : x ≠ y := fun heq => hxs (heq ▸ (List.of_mem_zip hin).1)
        refine ⟨q, ?_, hq'⟩
        rw [← hq]
        exact (seatAt_setSeat_ne hyx _).symm
    · rw [hs, List.rotate_cons_succ]

/-- Every element of the left list is zipped with something of a right list as long. -/
theorem exists_mem_zip {α β : Type} {xs : List α} {ys : List β} (h : ys.length = xs.length) {x : α}
    (hx : x ∈ xs) : ∃ y, (x, y) ∈ xs.zip ys := by
  obtain ⟨n, hn, rfl⟩ := List.getElem_of_mem hx
  refine ⟨ys.get ⟨n, by omega⟩, ?_⟩
  rw [List.mem_iff_getElem]
  exact ⟨n, by rw [List.length_zip]; omega, by simp⟩

/-- A round of the deal leaves the participants where they were. -/
theorem hits_after_round {round d : Nat} {ys : List Nat} {cards : List Card}
    (hys : Clockwise.hits t.participatesAt t.seats.length d = ys)
    (hcards : cards.length = ys.length)
    (hlen : u.seats.length = t.seats.length) (hother : ∀ j, j ∉ ys → u.seatAt j = t.seatAt j)
    (hdealt : ∀ y c, (y, c) ∈ ys.zip cards →
      ∃ p, t.seatAt y = some p ∧ u.seatAt y = some (p.takeCard round c)) :
    Clockwise.hits u.participatesAt u.seats.length d = ys := by
  have hface : ∀ j, (u.seatAt j).map Player.faceDown = (t.seatAt j).map Player.faceDown := by
    intro j
    by_cases hj : j ∈ ys
    · obtain ⟨c, hc⟩ := exists_mem_zip hcards hj
      obtain ⟨p, hp, hp'⟩ := hdealt j c hc
      rw [hp, hp']
      rfl
    · rw [hother j hj]
  rw [participatesAt_congr hface, hlen]
  exact hys

/-- **The deal.** The participants get two cards each, in clockwise order. -/
theorem dealHoleCards_spec {deck : Deck} {d : Nat} {seats ys : List Nat}
    (hd : t.dealerSeat = some d) (hys : Clockwise.hits t.participatesAt t.seats.length d = ys)
    (hlen : seats.length = ys.length) (hdeck : t.deck = some deck)
    (h : t.dealHoleCards seats = .ok t') :
    ∃ firsts seconds deck', firsts.length = ys.length ∧ seconds.length = ys.length ∧
      deck.rest = firsts ++ (seconds ++ deck'.rest) ∧
      t' = { t with seats := t'.seats, deck := some deck' } ∧ t'.seats.length = t.seats.length ∧
      (∀ j, j ∉ ys → t'.seatAt j = t.seatAt j) ∧
      (∀ y ∈ ys, ∃ p c c', t.seatAt y = some p ∧ (y, c) ∈ ys.zip firsts ∧
        (y, c') ∈ ys.zip seconds ∧
        t'.seatAt y = some { p with hole := (c, c'), hasHole := true }) := by
  unfold dealHoleCards at h
  simp only [hd, Checked.bind_ok_iff, Checked.pure_ok_iff, Prod.exists] at h
  obtain ⟨u, s, hfirst, v, s', hsecond, rfl⟩ := h
  have hstart : t.nextParticipatingSeat d = ys.head? := by
    rw [← hys, ← Clockwise.next_eq_head]
    rfl
  rw [hstart, hlen] at hfirst
  obtain ⟨firsts, deck1, hl1, hrest1, hframe1, hlen1, hother1, hdealt1, hs⟩ :=
    dealRound_spec hys (le_refl _) hdeck hfirst
  rw [List.take_length] at hother1 hdealt1
  -- the second round starts where the first one did, over the same participants
  have hys1 := hits_after_round hys hl1 hlen1 hother1 hdealt1
  rw [hs, List.rotate_length, hlen] at hsecond
  obtain ⟨seconds, deck2, hl2, hrest2, hframe2, hlen2, hother2, hdealt2, -⟩ :=
    dealRound_spec hys1 (le_refl _) (by rw [hframe1]) hsecond
  rw [List.take_length] at hother2 hdealt2
  refine ⟨firsts, seconds, deck2, hl1, hl2, by rw [hrest1, hrest2], ?_, hlen2.trans hlen1, ?_, ?_⟩
  · rw [hframe2, hframe1]
  · intro j hj
    rw [hother2 j hj, hother1 j hj]
  · intro y hy
    obtain ⟨c, hc⟩ := exists_mem_zip hl1 hy
    obtain ⟨c', hc'⟩ := exists_mem_zip hl2 hy
    obtain ⟨p, hp, hp'⟩ := hdealt1 y c hc
    obtain ⟨q, hq, hq'⟩ := hdealt2 y c' hc'
    refine ⟨p, c, c', hp, hc, hc', ?_⟩
    rw [hp', Option.some.injEq] at hq
    rw [hq', ← hq]
    rfl

end Table

end PokerServer

import PokerServer.Domain.Board
import PokerServer.Domain.Dealing

/-!
# Starting a hand

What `startHand` does, in terms of the table it is called on.

* `plays`, `button`, `smallSeat`, `bigSeat`, `forcedBet`: who takes part, where the button moves,
  who posts the blinds and what each seat has to post, computed from the table before the call.
* `Opening t v`: `v` is the table once the blinds are posted and the first actor is named.
* `startHand_spec`: a successful call ends in one of three ways. At least two players can act and
  the first is asked; or at most one can act and nobody owes, and the hand is run out to a showdown
  at once; or exactly one can act and owes the rest of a blind (`LoneDebtor`), and the table is left
  on the preflop with nobody asked (`Stranded`).
-/

namespace PokerServer

/-- The test `startHand` makes twice: ready, with chips. -/
def Player.plays (p : Player) : Bool := p.ready && decide (0 < p.stack)

theorem Player.plays_iff {p : Player} : p.plays = true ↔ p.ready = true ∧ 0 < p.stack := by
  unfold Player.plays
  simp

theorem Player.deal_status (p : Player) :
    p.deal.status = if p.plays then .active else .waiting := by
  by_cases h : p.plays
  · simp only [Player.deal, h, if_true, if_pos (Player.plays_iff.mp h)]
  · simp only [Player.deal, if_neg h, if_neg fun hc => h (Player.plays_iff.mpr hc)]

/-- The player once the blinds are posted, `bet` being what its seat has to post. -/
def Player.opens (bet : Int) (p : Player) : Player :=
  if p.plays then p.deal.postBlind bet else p.deal

theorem Player.opens_of_plays {p : Player} (h : p.plays = true) (bet : Int) :
    p.opens bet = { p with
      stack := p.stack - min bet p.stack
      streetCommitment := min bet p.stack
      handCommitment := min bet p.stack
      hasHole := false
      status := if p.stack - min bet p.stack = 0 then .allIn else .active } := by
  have hstatus := p.deal_status
  rw [if_pos h] at hstatus
  unfold Player.opens
  rw [if_pos h]
  unfold Player.postBlind
  rw [hstatus]
  simp only [Player.deal, zero_add]
  rfl

theorem Player.opens_of_not_plays {p : Player} (h : p.plays = false) (bet : Int) :
    p.opens bet = { p with
      streetCommitment := 0
      handCommitment := 0
      hasHole := false
      status := .waiting } := by
  have hstatus := p.deal_status
  rw [h] at hstatus
  unfold Player.opens
  rw [h]
  have hnot : ¬ (p.ready = true ∧ 0 < p.stack) := fun hc => by
    rw [Player.plays_iff.mpr hc] at h
    exact absurd h (by decide)
  simp [Player.deal, if_neg hnot]

/-- Everybody dealt in contends. -/
theorem Player.opens_contends {hole : Card × Card} (p : Player) (bet : Int) :
    ({ p.opens bet with hole := hole, hasHole := p.plays } : Player).contends = p.plays := by
  by_cases hplays : p.plays = true
  · rw [Player.opens_of_plays hplays, hplays]
    unfold Player.contends
    simp only
    split_ifs <;> rfl
  · rw [Bool.not_eq_true] at hplays
    rw [Player.opens_of_not_plays hplays, hplays]
    rfl

/-- Who can act once the blinds are posted: whoever keeps chips behind. -/
theorem Player.opens_canAct {hole : Card × Card} (p : Player) (bet : Int) :
    ({ p.opens bet with hole := hole, hasHole := p.plays } : Player).canAct = true ↔
      p.plays = true ∧ bet < p.stack := by
  rw [Player.canAct_iff]
  by_cases hplays : p.plays = true
  · have hpos := (Player.plays_iff.mp hplays).2
    rw [Player.opens_of_plays hplays]
    simp only [hplays, true_and]
    split_ifs with hz
    · simp only [false_and, false_iff]
      omega
    · simp only [true_and]
      omega
  · rw [Player.opens_of_not_plays (Bool.not_eq_true _ ▸ hplays)]
    simp [hplays]

/-- Nothing to post. -/
theorem Player.postBlind_zero {p : Player} (h : 0 < p.stack) : p.postBlind 0 = p := by
  have hmin : min 0 p.stack = 0 := by omega
  have hne : p.stack ≠ 0 := by omega
  simp [Player.postBlind, hmin, hne]

theorem Player.deal_participates (p : Player) : p.deal.participates = p.plays := by
  unfold Player.participates
  rw [p.deal_status]
  cases p.plays <;> simp

namespace Table

variable {t t' u v : Table} {i j : Nat} {p q : Player}

/-- Whether the player at a seat will take part in the next hand. -/
def playsAt (t : Table) (i : Nat) : Bool := (t.seatAt i).any Player.plays

/-- Where the button moves for the next hand. -/
def button (t : Table) : Option Nat :=
  match t.dealerSeat with
  | none => ((List.range t.seats.length).filter t.playsAt).head?
  | some d => Clockwise.next t.playsAt t.seats.length d

/-- Who posts the small blind: the dealer heads up, else the player on the dealer's left. -/
def smallSeat (t : Table) : Option Nat :=
  if 2 < t.readyPlayers then
    t.button.bind fun d => Clockwise.next t.playsAt t.seats.length d
  else t.button

/-- Who posts the big blind. -/
def bigSeat (t : Table) : Option Nat :=
  t.smallSeat.bind fun s => Clockwise.next t.playsAt t.seats.length s

/-- What a seat has to post in the next hand, its stack allowing. -/
def forcedBet (t : Table) (i : Nat) : Int :=
  if t.bigSeat = some i then t.config.bigBlind
  else if t.smallSeat = some i then t.config.smallBlind
  else 0

/-- `p` at seat `i` will play and keep chips behind its blind. -/
def Keeps (t : Table) (i : Nat) (p : Player) : Prop :=
  t.seatAt i = some p ∧ p.plays = true ∧ t.forcedBet i < p.stack

/-- Exactly one participant keeps chips behind the blinds, and it posted less than another. -/
def LoneDebtor (t : Table) : Prop :=
  ∃ i p, t.Keeps i p ∧ (∀ j q, t.Keeps j q → j = i) ∧
    ∃ j q, t.seatAt j = some q ∧ q.plays = true ∧ t.forcedBet i < min (t.forcedBet j) q.stack

/-- At most one participant keeps chips behind the blinds, and it owes nothing. -/
def RunsOut (t : Table) : Prop :=
  (∀ i j p q, t.Keeps i p → t.Keeps j q → i = j) ∧ ¬ t.LoneDebtor

/-! ## Who takes part -/

theorem countP_seats (t : Table) (c : Player → Bool) :
    ((List.range t.seats.length).filter fun i => (t.seatAt i).any c).length =
      t.players.countP c := by
  have hmap : (List.range t.seats.length).map t.seatAt = t.seats := by
    apply List.ext_getElem
    · simp
    · intro i h1 h2
      rw [List.getElem_map, List.getElem_range, seatAt_eq_getElem h2]
  rw [← List.countP_eq_length_filter]
  calc (List.range t.seats.length).countP (fun i => (t.seatAt i).any c)
      = ((List.range t.seats.length).map t.seatAt).countP (fun o => o.any c) := by
        rw [List.countP_map]
        rfl
    _ = t.players.countP c := by
        rw [hmap]
        unfold players
        rw [List.countP_filterMap]
        congr 1
        funext o
        cases o <;> rfl

theorem playsAt_some (h : t.seatAt i = some p) : t.playsAt i = p.plays := by
  unfold playsAt
  rw [h]
  rfl

theorem playsAt_iff : t.playsAt i = true ↔ ∃ p, t.seatAt i = some p ∧ p.plays = true := by
  unfold playsAt
  rw [Option.any_eq_true]

theorem seatAt_openHand (t : Table) (deck : Deck) (i : Nat) :
    (t.openHand deck).seatAt i = (t.seatAt i).map Player.deal :=
  seatAt_mapSeats t Player.deal i

theorem participatesAt_openHand (t : Table) (deck : Deck) :
    (t.openHand deck).participatesAt = t.playsAt := by
  funext i
  unfold participatesAt playsAt
  rw [seatAt_openHand, Option.any_map]
  congr 1
  funext p
  exact p.deal_participates

theorem participatingSeats_openHand (t : Table) (deck : Deck) :
    (t.openHand deck).participatingSeats = (List.range t.seats.length).filter t.playsAt := by
  unfold participatingSeats playsAt
  rw [show (t.openHand deck).seats.length = t.seats.length from length_mapSeats t _]
  congr 1
  funext i
  rw [seatAt_openHand, Option.any_map]
  congr 1
  funext p
  simp only [p.deal_status]
  cases p.plays <;> rfl

theorem length_participants (t : Table) :
    ((List.range t.seats.length).filter t.playsAt).length = t.readyPlayers :=
  t.countP_seats Player.plays

/-! ## The button and the blinds -/

/-- Two players ready, the button, the small and the big blind are seats of players who play, and
the blinds are two seats. -/
structure Blinds (t : Table) (d s b : Nat) : Prop where
  button : t.button = some d
  small : t.smallSeat = some s
  big : t.bigSeat = some b
  dealer_plays : t.playsAt d = true
  small_plays : t.playsAt s = true
  big_plays : t.playsAt b = true
  apart : s ≠ b
  smallIs : (if 2 < t.readyPlayers then Clockwise.next t.playsAt t.seats.length d else some d) =
    some s
  bigIs : Clockwise.next t.playsAt t.seats.length s = some b

theorem exists_blinds (h : 2 ≤ t.readyPlayers) : ∃ d s b, t.Blinds d s b := by
  obtain ⟨i, j, p, q, hij, hi, hj, hp, hq⟩ := two_le_countP_iff.mp h
  have hplay : ∀ x, ∃ y, Clockwise.next t.playsAt t.seats.length x = some y := fun x =>
    Clockwise.next_isSome (seatAt_lt hi) (by rw [playsAt_some hi]; exact hp)
  have hd : ∃ d, t.button = some d ∧ d < t.seats.length ∧ t.playsAt d = true := by
    unfold button
    split
    · have hne : (List.range t.seats.length).filter t.playsAt ≠ [] := by
        rw [← List.length_pos_iff, length_participants]
        omega
      obtain ⟨d, ds, hds⟩ := List.exists_cons_of_ne_nil hne
      have hmem := List.mem_filter.mp (hds ▸ List.mem_cons_self : d ∈ _)
      exact ⟨d, by rw [hds, List.head?_cons], List.mem_range.mp hmem.1, hmem.2⟩
    · rename_i d0 _
      obtain ⟨d, hd⟩ := hplay d0
      exact ⟨d, hd, Clockwise.next_some hd⟩
  obtain ⟨d, hd, hdn, hdp⟩ := hd
  have hs : ∃ s, (if 2 < t.readyPlayers then Clockwise.next t.playsAt t.seats.length d
      else some d) = some s ∧ s < t.seats.length ∧ t.playsAt s = true := by
    split_ifs
    · obtain ⟨s, hs⟩ := hplay d
      exact ⟨s, hs, Clockwise.next_some hs⟩
    · exact ⟨d, rfl, hdn, hdp⟩
  obtain ⟨s, hs, hsn, hsp⟩ := hs
  obtain ⟨b, hb⟩ := hplay s
  have hsmall : t.smallSeat = some s := by
    unfold smallSeat
    rw [hd, Option.bind_some]
    exact hs
  refine ⟨d, s, b, hd, hsmall, ?_, hdp, hsp, (Clockwise.next_some hb).2, ?_, hs, hb⟩
  · unfold bigSeat
    rw [hsmall, Option.bind_some, hb]
  · -- one of the two players found above sits elsewhere than `s`
    by_cases his : i = s
    · refine Ne.symm (Clockwise.next_ne hb (seatAt_lt hj) ?_ (by omega))
      rw [playsAt_some hj]
      exact hq
    · refine Ne.symm (Clockwise.next_ne hb (seatAt_lt hi) ?_ his)
      rw [playsAt_some hi]
      exact hp

theorem Blinds.forcedBet_eq {d s b : Nat} (h : t.Blinds d s b) (i : Nat) :
    t.forcedBet i =
      if i = b then t.config.bigBlind else if i = s then t.config.smallBlind else 0 := by
  unfold forcedBet
  rw [h.big, h.small]
  simp only [Option.some.injEq, eq_comm]

/-! ## The table once the blinds are posted -/

theorem moveButton_openHand (deck : Deck) {d s b : Nat} (h : t.Blinds d s b) :
    ((t.openHand deck).moveButton ((List.range t.seats.length).filter t.playsAt)).dealerSeat =
      some d := by
  have hbutton := h.button
  unfold button at hbutton
  have hnext : ∀ x, (t.openHand deck).nextParticipatingSeat x =
      Clockwise.next t.playsAt t.seats.length x := fun x => by
    rw [← participatesAt_openHand t deck, ← length_mapSeats t Player.deal]
    rfl
  unfold moveButton
  rw [show (t.openHand deck).dealerSeat = t.dealerSeat from rfl]
  cases hd : t.dealerSeat with
  | none =>
    rw [hd] at hbutton
    exact hbutton
  | some d0 =>
    rw [hd] at hbutton
    dsimp only at hbutton ⊢
    rw [hnext, hbutton, Option.some_or]

/-- The deal goes round the ready players. -/
theorem openHand_ring (deck : Deck) (d : Nat) (participants : List Nat) :
    Clockwise.hits ((t.openHand deck).moveButton participants).participatesAt
        ((t.openHand deck).moveButton participants).seats.length d =
      Clockwise.hits t.playsAt t.seats.length d ∧
    ((t.openHand deck).moveButton participants).seats.length = t.seats.length := by
  have hlen : ((t.openHand deck).moveButton participants).seats.length = t.seats.length :=
    length_mapSeats t _
  refine ⟨?_, hlen⟩
  rw [hlen, ← participatesAt_openHand t deck]
  rfl

/-- The table after the deal: everybody dealt in holds two cards, nobody else does. -/
structure HandDealt (t u : Table) (d : Nat) (deck deck' : Deck) (ys : List Nat)
    (firsts seconds : List Card) : Prop where
  frame : u = { t.openHand deck with seats := u.seats, dealerSeat := some d, deck := some deck' }
  length : u.seats.length = t.seats.length
  ring : Clockwise.hits t.playsAt t.seats.length d = ys
  firsts_length : firsts.length = ys.length
  seconds_length : seconds.length = ys.length
  drawn : deck.rest = firsts ++ (seconds ++ deck'.rest)
  idle : ∀ i, t.playsAt i = false → u.seatAt i = (t.seatAt i).map Player.deal
  dealt : ∀ i p, t.seatAt i = some p → p.plays = true → ∃ c c', (i, c) ∈ ys.zip firsts ∧
    (i, c') ∈ ys.zip seconds ∧ u.seatAt i = some { p.deal with hole := (c, c'), hasHole := true }

theorem handDealt {deck : Deck} {d s b : Nat} (hblinds : t.Blinds d s b)
    (h : ((t.openHand deck).moveButton
      ((List.range t.seats.length).filter t.playsAt)).dealHoleCards
        ((List.range t.seats.length).filter t.playsAt) = .ok u) :
    ∃ deck' ys firsts seconds, t.HandDealt u d deck deck' ys firsts seconds := by
  have hdealer := moveButton_openHand deck hblinds
  obtain ⟨hring, hlen⟩ := openHand_ring (t := t) deck d
    ((List.range t.seats.length).filter t.playsAt)
  obtain ⟨firsts, seconds, deck', hf, hs, hdrawn, hframe, hulen, hother, hdealt⟩ :=
    dealHoleCards_spec hdealer hring (Clockwise.length_hits _ _).symm rfl h
  have hat : ∀ i, ((t.openHand deck).moveButton
      ((List.range t.seats.length).filter t.playsAt)).seatAt i =
      (t.seatAt i).map Player.deal := seatAt_openHand t deck
  refine ⟨deck', _, firsts, seconds, ?_, hulen.trans hlen, rfl, hf, hs, hdrawn, ?_, ?_⟩
  · rw [hframe]
    simp only [hdealer]
    rfl
  · intro i hi
    rw [hother i fun hm => ?_, hat]
    rw [(Clockwise.mem_hits.mp hm).2] at hi
    exact absurd hi (by decide)
  · intro i p hp hplays
    have hmem : i ∈ Clockwise.hits t.playsAt t.seats.length d :=
      Clockwise.mem_hits.mpr ⟨seatAt_lt hp, by rw [playsAt_some hp]; exact hplays⟩
    obtain ⟨q, c, c', hq, hc, hc', hu⟩ := hdealt i hmem
    rw [hat, hp, Option.map_some, Option.some.injEq] at hq
    exact ⟨c, c', hc, hc', by rw [hu, ← hq]⟩

/-- The table once the blinds are posted and the first actor is named. -/
structure Opening (t : Table) (deck : Deck) (v : Table) : Prop where
  config : v.config = t.config
  length : v.seats.length = t.seats.length
  handId : v.handId = t.handId + 1
  sequence : v.serverSequence = t.serverSequence + 1
  street : v.street = .preflop
  board : v.board = []
  seat_none : ∀ i, t.seatAt i = none → v.seatAt i = none
  seat_some : ∀ i p, t.seatAt i = some p → ∃ hole,
    v.seatAt i = some { p.opens (t.forcedBet i) with hole := hole, hasHole := p.plays }
  button : ∃ d, v.dealerSeat = some d ∧ t.playsAt d = true
  bet_le : ∀ i p, v.seatAt i = some p → p.streetCommitment ≤ v.currentBet
  bet_posted : ∃ i p, t.seatAt i = some p ∧ p.plays = true ∧
    v.currentBet = min (t.forcedBet i) p.stack
  raise : v.minimumRaise = t.config.bigBlind
  pending : v.pendingAction = v.canActIds
  asking : 0 < v.actionable → v.Asking
  cards : ∃ (deck' : Deck) (ys : List Nat) (firsts seconds : List Card),
    v.deck = some deck' ∧ ys.Nodup ∧ ys.length ≤ t.seats.length ∧
    firsts.length = ys.length ∧ seconds.length = ys.length ∧
    deck.rest = firsts ++ (seconds ++ deck'.rest) ∧
    ∀ i q, v.seatAt i = some q → q.hasHole = true →
      (i, q.hole.1) ∈ ys.zip firsts ∧ (i, q.hole.2) ∈ ys.zip seconds

theorem postBlindAt_ok {blind : Int} (h : t.postBlindAt i blind = .ok t') :
    ∃ p, t.seatAt i = some p ∧ t' = t.setSeat i (some (p.postBlind blind)) := by
  unfold postBlindAt at h
  split at h
  · exact absurd h (by simp)
  · rename_i p hp
    rw [Except.ok.injEq] at h
    exact ⟨p, hp, h.symm⟩

/-- The blinds are posted at the seats computed from the table before. -/
theorem HandDealt.blindSeats {d s b : Nat} {deck deck' : Deck} {ys : List Nat}
    {firsts seconds : List Card} (h : t.HandDealt u d deck deck' ys firsts seconds)
    (hblinds : t.Blinds d s b) :
    u.blindSeats (u.dealerSeat.getD 0) ((List.range t.seats.length).filter t.playsAt).length =
      .ok (s, b) := by
  have hplays : u.participatesAt = t.playsAt := by
    funext i
    cases hi : t.seatAt i with
    | none =>
      have hfalse : t.playsAt i = false := by unfold playsAt; rw [hi]; rfl
      have hui := h.idle i hfalse
      rw [hfalse]
      unfold participatesAt
      rw [hui, hi]
      rfl
    | some p =>
      rw [playsAt_some hi]
      unfold participatesAt
      by_cases hp : p.plays = true
      · obtain ⟨c, c', -, -, hu⟩ := h.dealt i p hi hp
        rw [hu]
        exact p.deal_participates
      · rw [Bool.not_eq_true] at hp
        rw [h.idle i (by rw [playsAt_some hi, hp]), hi]
        exact p.deal_participates
  have hnext : ∀ x, u.nextParticipatingSeat x = Clockwise.next t.playsAt t.seats.length x :=
    fun x => by
      rw [← hplays, ← h.length]
      rfl
  have hdealer : u.dealerSeat = some d := by rw [h.frame]
  unfold Table.blindSeats
  simp only [hdealer, Option.getD_some, hnext, length_participants, hblinds.smallIs,
    hblinds.bigIs]

/-- The seats after both blinds. -/
theorem seatAt_posted {small big : Int} {s b : Nat} {ps pb : Player} (hsb : s ≠ b)
    (hs : u.seatAt s = some ps) (hb : u.seatAt b = some pb) (i : Nat) :
    ((u.setSeat s (some (ps.postBlind small))).setSeat b (some (pb.postBlind big))).seatAt i =
      if i = b then some (pb.postBlind big)
      else if i = s then some (ps.postBlind small) else u.seatAt i := by
  by_cases hib : i = b
  · subst hib
    rw [if_pos rfl, seatAt_setSeat_self]
    rw [length_setSeat]
    exact seatAt_lt hb
  · rw [if_neg hib, seatAt_setSeat_ne (Ne.symm hib)]
    by_cases his : i = s
    · subst his
      rw [if_pos rfl, seatAt_setSeat_self (seatAt_lt hs)]
    · rw [if_neg his, seatAt_setSeat_ne (Ne.symm his)]

/-- What each seat holds once the blinds are posted. -/
theorem HandDealt.posted {d s b : Nat} {deck deck' : Deck} {ys : List Nat}
    {firsts seconds : List Card} (h : t.HandDealt u d deck deck' ys firsts seconds)
    (hblinds : t.Blinds d s b) {ps pb : Player} (hs : u.seatAt s = some ps)
    (hb : u.seatAt b = some pb) {i : Nat} {p : Player} (hp : t.seatAt i = some p) :
    ∃ hole : Card × Card,
      (p.plays = true → (i, hole.1) ∈ ys.zip firsts ∧ (i, hole.2) ∈ ys.zip seconds) ∧
      ((u.setSeat s (some (ps.postBlind t.config.smallBlind))).setSeat b
        (some (pb.postBlind t.config.bigBlind))).seatAt i =
        some { p.opens (t.forcedBet i) with hole := hole, hasHole := p.plays } := by
  rw [seatAt_posted hblinds.apart hs hb, hblinds.forcedBet_eq]
  by_cases hplays : p.plays = true
  · obtain ⟨c, c', hc, hc', hu⟩ := h.dealt i p hp hplays
    have hpos := (Player.plays_iff.mp hplays).2
    refine ⟨(c, c'), fun _ => ⟨hc, hc'⟩, ?_⟩
    unfold Player.opens
    rw [if_pos hplays, hplays]
    by_cases hib : i = b
    · subst hib
      rw [hu, Option.some.injEq] at hb
      rw [if_pos rfl, if_pos rfl, ← hb]
      rfl
    · rw [if_neg hib, if_neg hib]
      by_cases his : i = s
      · subst his
        rw [hu, Option.some.injEq] at hs
        rw [if_pos rfl, if_pos rfl, ← hs]
        rfl
      · rw [if_neg his, if_neg his, hu, Player.postBlind_zero (p := p.deal) hpos]
  · rw [Bool.not_eq_true] at hplays
    have hidle : t.playsAt i = false := by rw [playsAt_some hp, hplays]
    have hib : i ≠ b := fun heq => by
      rw [heq, hblinds.big_plays] at hidle
      exact absurd hidle (by decide)
    have his : i ≠ s := fun heq => by
      rw [heq, hblinds.small_plays] at hidle
      exact absurd hidle (by decide)
    refine ⟨p.hole, fun hc => absurd (hplays.symm.trans hc) (by decide), ?_⟩
    unfold Player.opens
    rw [if_neg hib, if_neg his, if_neg hib, if_neg his, h.idle i hidle, hp, hplays]
    rfl

/-- An empty seat stays empty. -/
theorem HandDealt.empty {d s b : Nat} {deck deck' : Deck} {ys : List Nat}
    {firsts seconds : List Card} (h : t.HandDealt u d deck deck' ys firsts seconds)
    {ps pb : Player} (hsb : s ≠ b) (hs : u.seatAt s = some ps) (hb : u.seatAt b = some pb)
    {small big : Int} {i : Nat} (hi : t.seatAt i = none) :
    ((u.setSeat s (some (ps.postBlind small))).setSeat b (some (pb.postBlind big))).seatAt i =
      none := by
  have hui : u.seatAt i = none := by
    rw [h.idle i (by unfold playsAt; rw [hi]; rfl), hi]
    rfl
  rw [seatAt_posted hsb hs hb, if_neg, if_neg, hui]
  · rintro rfl
    rw [hui] at hs
    exact absurd hs (by simp)
  · rintro rfl
    rw [hui] at hb
    exact absurd hb (by simp)

/-- The first actor is found if anybody is asked. -/
theorem setInitialActor_asking {d b n : Nat} (hd : t.dealerSeat = some d)
    (h : ∃ i, t.awaits i = true) : (t.setInitialActor b n).Asking := by
  have hnext : ∀ x, ({ t with actingSeat := t.nextCanActSeat x } : Table).Asking := by
    intro x
    obtain ⟨k, hk, hkw⟩ := nextCanActSeat_isSome h x
    exact ⟨k, hk, hkw⟩
  unfold setInitialActor
  simp only [hd]
  split_ifs with htwo hdealer
  · exact ⟨d, rfl, hdealer⟩
  · exact hnext d
  · exact hnext b

/-- Naming the first actor changes the acting seat only. -/
theorem setInitialActor_frame (t : Table) (b n : Nat) :
    t.setInitialActor b n = { t with actingSeat := (t.setInitialActor b n).actingSeat } := by
  unfold setInitialActor
  split <;> (try split_ifs) <;> rfl

theorem blinds_pos {config : TableConfig} (h : config.validateConfig = .ok) :
    0 < config.smallBlind ∧ config.smallBlind * 2 ≤ config.bigBlind ∧ 2 ≤ config.minPlayers ∧
      config.maxPlayers ≤ 6 ∧ 0 < config.minBuyIn := by
  unfold TableConfig.validateConfig at h
  split_ifs at h with hc
  simp only [not_or] at hc
  omega

/-- The table once the blinds are posted: everybody who plays was dealt in with the forced bet of
the seat. -/
structure DealtIn (t x : Table) : Prop where
  length : x.seats.length = t.seats.length
  seat_none : ∀ i, t.seatAt i = none → x.seatAt i = none
  seat_some : ∀ i p, t.seatAt i = some p → ∃ hole,
    x.seatAt i = some { p.opens (t.forcedBet i) with hole := hole, hasHole := p.plays }

namespace DealtIn

variable {x : Table}

theorem seat_back {q : Player} (h : t.DealtIn x) (hq : x.seatAt i = some q) :
    ∃ p hole, t.seatAt i = some p ∧
      q = { p.opens (t.forcedBet i) with hole := hole, hasHole := p.plays } := by
  cases hp : t.seatAt i with
  | none =>
    rw [h.seat_none i hp] at hq
    exact absurd hq (by simp)
  | some p =>
    obtain ⟨hole, hi⟩ := h.seat_some i p hp
    exact ⟨p, hole, rfl, Option.some.inj (hq.symm.trans hi)⟩

theorem streetCommitment {p : Player} (h : t.DealtIn x) (hp : t.seatAt i = some p)
    (hplays : p.plays = true) : x.streetCommitmentAt i = min (t.forcedBet i) p.stack := by
  obtain ⟨hole, hi⟩ := h.seat_some i p hp
  unfold streetCommitmentAt
  rw [hi, Player.opens_of_plays hplays]
  rfl

/-- The bet to match is that of one of the blinds. -/
theorem bet_posted {d s b : Nat} (h : t.DealtIn x) (hblinds : t.Blinds d s b) :
    ∃ i p, t.seatAt i = some p ∧ p.plays = true ∧
      max (x.streetCommitmentAt s) (x.streetCommitmentAt b) = min (t.forcedBet i) p.stack := by
  obtain ⟨qs, hqs, hqsp⟩ := playsAt_iff.mp hblinds.small_plays
  obtain ⟨qb, hqb, hqbp⟩ := playsAt_iff.mp hblinds.big_plays
  rcases le_total (x.streetCommitmentAt s) (x.streetCommitmentAt b) with hsb | hbs
  · exact ⟨b, qb, hqb, hqbp, by rw [max_eq_right hsb, h.streetCommitment hqb hqbp]⟩
  · exact ⟨s, qs, hqs, hqsp, by rw [max_eq_left hbs, h.streetCommitment hqs hqsp]⟩

/-- Nobody has put in more than that. -/
theorem bet_le {d s b : Nat} {q : Player} (h : t.DealtIn x)
    (hvalid : t.config.validateConfig = .ok) (hblinds : t.Blinds d s b)
    (hq : x.seatAt i = some q) :
    q.streetCommitment ≤ max (x.streetCommitmentAt s) (x.streetCommitmentAt b) := by
  obtain ⟨j, r, hr, hrplays, hbet⟩ := h.bet_posted hblinds
  have hpositive : 0 ≤ max (x.streetCommitmentAt s) (x.streetCommitmentAt b) := by
    have := (Player.plays_iff.mp hrplays).2
    have := blinds_pos hvalid
    rw [hbet, hblinds.forcedBet_eq]
    split_ifs <;> omega
  obtain ⟨p, hole, hp, rfl⟩ := h.seat_back hq
  by_cases hplays : p.plays = true
  · have hstack := (Player.plays_iff.mp hplays).2
    have hown : ({ p.opens (t.forcedBet i) with hole := hole, hasHole := p.plays } :
        Player).streetCommitment = min (t.forcedBet i) p.stack := by
      rw [Player.opens_of_plays hplays]
    rw [hown]
    by_cases hib : i = b
    · rw [← h.streetCommitment hp hplays, hib]
      exact le_max_right _ _
    by_cases his : i = s
    · rw [← h.streetCommitment hp hplays, his]
      exact le_max_left _ _
    · rw [hblinds.forcedBet_eq, if_neg hib, if_neg his]
      omega
  · rw [Player.opens_of_not_plays (Bool.not_eq_true _ ▸ hplays)]
    exact hpositive

/-- Everybody who can act is to be asked. -/
theorem pending_eq (h : t.DealtIn x) :
    (∅ ∪ ((((List.range t.seats.length).filter t.playsAt).filterMap x.seatAt).filter
      Player.canAct |>.map (·.id)).toFinset) = x.canActIds := by
  ext id
  rw [Finset.empty_union, mem_canActIds]
  simp only [List.mem_toFinset, List.mem_map, List.mem_filter, List.mem_filterMap, List.mem_range]
  constructor
  · rintro ⟨p, ⟨⟨i, -, hi⟩, hact⟩, hid⟩
    exact ⟨i, p, hi, hact, hid⟩
  · rintro ⟨i, q, hi, hact, hid⟩
    refine ⟨q, ⟨⟨i, ⟨h.length ▸ seatAt_lt hi, ?_⟩, hi⟩, hact⟩, hid⟩
    -- a player who can act was dealt in
    obtain ⟨p, hole, hp, rfl⟩ := h.seat_back hi
    rw [playsAt_some hp]
    by_contra hnot
    rw [Player.opens_of_not_plays (Bool.not_eq_true _ ▸ hnot)] at hact
    exact absurd (Player.canAct_iff.mp hact).1 (by simp)

end DealtIn

/-- **Posting the blinds opens the hand.** -/
theorem HandDealt.opening {d s b n : Nat} {deck deck' : Deck} {ys : List Nat}
    {firsts seconds : List Card} {w : Table}
    (hvalid : t.config.validateConfig = .ok)
    (h : t.HandDealt u d deck deck' ys firsts seconds) (hblinds : t.Blinds d s b)
    (hpost : u.postBlinds ((List.range t.seats.length).filter t.playsAt) s b = .ok w) :
    t.Opening deck (w.setInitialActor b n) := by
  have hconfig : u.config = t.config := by rw [h.frame]; rfl
  unfold postBlinds at hpost
  simp only [Checked.bind_ok_iff, Checked.pure_ok_iff] at hpost
  obtain ⟨u1, hu1, u2, hu2, rfl⟩ := hpost
  obtain ⟨ps, hps, rfl⟩ := postBlindAt_ok hu1
  obtain ⟨pb, hpb', rfl⟩ := postBlindAt_ok hu2
  have hpb : u.seatAt b = some pb := by rw [← hpb', seatAt_setSeat_ne hblinds.apart]
  rw [show (u.setSeat s (some (ps.postBlind u.config.smallBlind))).config = u.config from rfl,
    hconfig]
  set x := (u.setSeat s (some (ps.postBlind t.config.smallBlind))).setSeat b
    (some (pb.postBlind t.config.bigBlind)) with hx
  have hdealt : t.DealtIn x := by
    refine ⟨?_, fun i hi => h.empty hblinds.apart hps hpb hi, fun i p hp => ?_⟩
    · rw [hx, length_setSeat, length_setSeat, h.length]
    · obtain ⟨hole, -, hi⟩ := h.posted hblinds hps hpb hp
      exact ⟨hole, hi⟩
  have hpend : u.pendingAction = ∅ := by rw [h.frame]; rfl
  have hdealer : u.dealerSeat = some d := by rw [h.frame]
  rw [setInitialActor_frame]
  refine
    { config := hconfig, length := hdealt.length, handId := ?_, sequence := ?_, street := ?_,
      board := ?_, seat_none := hdealt.seat_none, seat_some := hdealt.seat_some,
      button := ⟨d, hdealer, hblinds.dealer_plays⟩,
      bet_le := fun i q hq => hdealt.bet_le hvalid hblinds hq,
      bet_posted := hdealt.bet_posted hblinds, raise := ?_, pending := ?_, asking := ?_,
      cards := ⟨deck', ys, firsts, seconds, ?_, h.ring ▸ Clockwise.nodup_hits _ _, ?_,
        h.firsts_length, h.seconds_length, h.drawn, ?_⟩ }
  · change u.handId = _
    rw [h.frame]
    rfl
  · change u.serverSequence = _
    rw [h.frame]
    rfl
  · change u.street = _
    rw [h.frame]
    rfl
  · change u.board = _
    rw [h.frame]
    rfl
  · change u.minimumRaise = _
    rw [h.frame]
    rfl
  · change u.pendingAction ∪ _ = x.canActIds
    rw [hpend]
    exact hdealt.pending_eq
  · intro hsome
    obtain ⟨i, p, hp, hact⟩ := countP_pos_iff.mp hsome
    rw [← setInitialActor_frame]
    refine setInitialActor_asking hdealer ⟨i, awaits_iff.mpr ⟨p, hp, hact, ?_⟩⟩
    change p.id ∈ u.pendingAction ∪ _
    rw [hpend, hdealt.pending_eq]
    exact mem_canActIds.mpr ⟨i, p, hp, hact, rfl⟩
  · change u.deck = _
    rw [h.frame]
  · rw [← h.ring, Clockwise.length_hits]
    exact (List.length_filter_le _ _).trans (by rw [List.length_range])
  · intro i q hq hhas
    obtain ⟨p, -, hp, -⟩ := hdealt.seat_back hq
    obtain ⟨hole, hcards, hi⟩ := h.posted hblinds hps hpb hp
    change x.seatAt i = some q at hq
    rw [hi, Option.some.injEq] at hq
    rw [← hq] at hhas ⊢
    exact hcards hhas

namespace Opening

variable {deck : Deck} (h : t.Opening deck v)

include h

/-- Where a player of the opened hand comes from. -/
theorem seat_back (hq : v.seatAt i = some q) : ∃ p hole, t.seatAt i = some p ∧
    q = { p.opens (t.forcedBet i) with hole := hole, hasHole := p.plays } := by
  cases hp : t.seatAt i with
  | none => rw [h.seat_none i hp] at hq; exact absurd hq (by simp)
  | some p =>
    obtain ⟨hole, hi⟩ := h.seat_some i p hp
    exact ⟨p, hole, rfl, Option.some.inj (hq.symm.trans hi)⟩

theorem sameSeating : SameSeating t v where
  config := h.config
  length := h.length
  keys := fun i => by
    cases hp : t.seatAt i with
    | none => rw [h.seat_none i hp]
    | some p =>
      obtain ⟨hole, hi⟩ := h.seat_some i p hp
      rw [hi]
      by_cases hplays : p.plays = true
      · rw [Player.opens_of_plays hplays]; rfl
      · rw [Player.opens_of_not_plays (Bool.not_eq_true _ ▸ hplays)]; rfl

theorem betting (hs : t.Seating) : v.Betting where
  seating := hs.of_same h.sameSeating
  street := by rw [h.street]; rfl
  sound := fun i q hq => by
    have hle := h.bet_le i q hq
    obtain ⟨p, hole, hp, rfl⟩ := h.seat_back hq
    by_cases hplays : p.plays = true
    · have hpos := (Player.plays_iff.mp hplays).2
      have hforced : 0 ≤ t.forcedBet i := by
        have := blinds_pos hs.valid
        unfold forcedBet
        split_ifs <;> omega
      rw [Player.opens_of_plays hplays] at hle ⊢
      simp only at hle
      refine ⟨?_, le_refl _, hle, ?_, ?_, ?_, ?_⟩ <;> simp only
      · omega
      · intro hw
        split_ifs at hw
      · intro _
        omega
      · intro ha
        split_ifs at ha
        omega
      · split_ifs <;> decide
    · rw [Player.opens_of_not_plays (Bool.not_eq_true _ ▸ hplays)] at hle ⊢
      exact ⟨le_refl _, le_refl _, hle, fun _ => rfl, fun hc => absurd rfl hc,
        fun hc => absurd hc (by simp), by simp⟩
  button := by
    obtain ⟨d, hd, hplays⟩ := h.button
    obtain ⟨p, hp, hpp⟩ := playsAt_iff.mp hplays
    obtain ⟨hole, hi⟩ := h.seat_some d p hp
    refine ⟨d, _, hd, hi, ?_⟩
    rw [Player.opens_of_plays hpp]
    simp only
    split_ifs <;> decide

theorem matched : v.Matched := by
  intro i p hp hact hid
  refine absurd ?_ hid
  rw [h.pending]
  exact mem_canActIds.mpr ⟨i, p, hp, hact, rfl⟩

theorem contested (htwo : 2 ≤ t.readyPlayers) : 2 ≤ v.contenders := by
  obtain ⟨i, j, p, q, hij, hi, hj, hp, hq⟩ := two_le_countP_iff.mp htwo
  obtain ⟨hole, hvi⟩ := h.seat_some i p hi
  obtain ⟨hole', hvj⟩ := h.seat_some j q hj
  exact two_le_countP_iff.mpr ⟨i, j, _, _, hij, hvi, hvj, by rw [Player.opens_contends]; exact hp,
    by rw [Player.opens_contends]; exact hq⟩

/-- Nobody put in more than the posted bet. -/
theorem covered : v.Covered := by
  obtain ⟨i, p, hp, hplays, hbet⟩ := h.bet_posted
  obtain ⟨hole, hi⟩ := h.seat_some i p hp
  refine ⟨i, _, hi, by rw [Player.opens_contends]; exact hplays, fun j q hq => ?_⟩
  have hle := h.bet_le j q hq
  obtain ⟨r, hole', hr, rfl⟩ := h.seat_back hq
  have hhand : ∀ (r : Player) (bet : Int), (r.opens bet).handCommitment =
      (r.opens bet).streetCommitment := by
    intro r bet
    by_cases hrp : r.plays = true
    · rw [Player.opens_of_plays hrp]
    · rw [Player.opens_of_not_plays (Bool.not_eq_true _ ▸ hrp)]
  simp only [hhand] at hle ⊢
  rw [Player.opens_of_plays hplays]
  simp only
  omega

theorem keeps_of_canAct (hq : v.seatAt i = some q) (hact : q.canAct = true) :
    ∃ p, t.Keeps i p ∧ q.streetCommitment = t.forcedBet i := by
  obtain ⟨p, hole, hp, rfl⟩ := h.seat_back hq
  obtain ⟨hplays, hlt⟩ := (Player.opens_canAct p _).mp hact
  refine ⟨p, ⟨hp, hplays, hlt⟩, ?_⟩
  rw [Player.opens_of_plays hplays]
  simp only
  omega

theorem canAct_of_keeps (hk : t.Keeps i p) :
    ∃ q, v.seatAt i = some q ∧ q.canAct = true ∧ q.streetCommitment = t.forcedBet i := by
  obtain ⟨hp, hplays, hlt⟩ := hk
  obtain ⟨hole, hi⟩ := h.seat_some i p hp
  refine ⟨_, hi, (Player.opens_canAct p _).mpr ⟨hplays, hlt⟩, ?_⟩
  rw [Player.opens_of_plays hplays]
  simp only
  omega

theorem actionable_le_one_iff :
    v.actionable ≤ 1 ↔ ∀ i j p q, t.Keeps i p → t.Keeps j q → i = j := by
  unfold actionable
  rw [countP_le_one_iff]
  constructor
  · intro hone i j p q hi hj
    obtain ⟨p', hp', hpa, -⟩ := h.canAct_of_keeps hi
    obtain ⟨q', hq', hqa, -⟩ := h.canAct_of_keeps hj
    exact hone i j p' q' hp' hq' hpa hqa
  · intro hone i j p q hi hj hp hq
    obtain ⟨p', hp', -⟩ := h.keeps_of_canAct hi hp
    obtain ⟨q', hq', -⟩ := h.keeps_of_canAct hj hq
    exact hone i j p' q' hp' hq'

/-- With at most one player left to act, the round is over unless that player owes. -/
theorem complete_iff (htwo : 2 ≤ t.readyPlayers)
    (hone : ∀ i j p q, t.Keeps i p → t.Keeps j q → i = j) :
    bettingRoundComplete { v with pendingAction := ∅, actingSeat := none } = true ↔
      ¬ t.LoneDebtor := by
  have hcont : ¬ ({ v with pendingAction := ∅, actingSeat := none } : Table).contenders ≤ 1 := by
    have := h.contested htwo
    change ¬ v.contenders ≤ 1
    omega
  unfold bettingRoundComplete
  simp only [hcont, decide_false, Bool.false_or, List.all_eq_true, Finset.notMem_empty,
    Bool.or_eq_true, Bool.not_eq_true', bne_eq_false_iff_eq]
  constructor
  · rintro hall ⟨i, p, hk, -, j, q, hj, hqp, hlt⟩
    obtain ⟨p', hp', hact, hstreet⟩ := h.canAct_of_keeps hk
    rcases hall p' (mem_players.mpr ⟨i, hp'⟩) with hc | hc
    · rw [hact] at hc
      exact absurd hc (by decide)
    · obtain ⟨hole, hvj⟩ := h.seat_some j q hj
      have hle := h.bet_le j _ hvj
      rw [Player.opens_of_plays hqp] at hle
      simp only at hle
      change p'.streetCommitment = v.currentBet at hc
      omega
  · intro hnot q hq
    obtain ⟨i, hi⟩ := mem_players.mp hq
    change v.seatAt i = some q at hi
    by_cases hact : q.canAct = true
    · right
      by_contra howes
      obtain ⟨p, hk, hstreet⟩ := h.keeps_of_canAct hi hact
      obtain ⟨j, r, hj, hrp, hbet⟩ := h.bet_posted
      have hle := h.bet_le i q hi
      refine hnot ⟨i, p, hk, fun k s hks => hone k i s p hks hk, j, r, hj, hrp, ?_⟩
      have : q.streetCommitment ≠ v.currentBet := howes
      omega
    · exact Or.inl (Bool.not_eq_true _ ▸ hact)

end Opening

/-- A hand nobody is asked in: the preflop waits for ever. -/
structure Stranded (t : Table) : Prop extends Betting t where
  preflop : t.street = .preflop
  acting : t.actingSeat = none
  pending : t.pendingAction = ∅
  contested : 2 ≤ t.contenders

/-- **The three ways a hand starts.** -/
inductive Started (t : Table) (deck : Deck) (t' : Table) : Prop
  | awaiting (opening : t.Opening deck t') (two : ∃ i j p q, i ≠ j ∧ t.Keeps i p ∧ t.Keeps j q)
      (h : t'.Awaiting)
  | showdown {v : Table} (opening : t.Opening deck v) (runs : t.RunsOut) (h : Showdown v t')
      (shows : Shows v t')
  | stranded {v : Table} (opening : t.Opening deck v) (lone : t.LoneDebtor) (h : t'.Stranded)
      (same : t' = { v with pendingAction := ∅, actingSeat := none })

theorem Started.handId {deck : Deck} (h : Started t deck t') : t'.handId = t.handId + 1 := by
  cases h with
  | awaiting hopen _ _ => exact hopen.handId
  | showdown hopen _ h _ => rw [h.paid.handId, hopen.handId]
  | stranded hopen _ _ hsame => rw [hsame]; exact hopen.handId

theorem Started.sameSeating {deck : Deck} (h : Started t deck t') : SameSeating t t' := by
  cases h with
  | awaiting hopen _ _ => exact hopen.sameSeating
  | showdown hopen _ h _ => exact hopen.sameSeating.trans h.paid.sameSeating
  | stranded hopen _ _ hsame =>
    exact hopen.sameSeating.trans (hsame ▸ SameSeating.of_seats rfl rfl)

/-- The stages of an accepted start: `u` is the table after the deal and `w` the table with the
blinds posted, from the seats `s` and `b`. -/
structure Stages (t : Table) (deck : Deck) (d s b : Nat) (u w : Table) : Prop where
  blinds : t.Blinds d s b
  deal : ((t.openHand deck).moveButton ((List.range t.seats.length).filter t.playsAt)).dealHoleCards
    ((List.range t.seats.length).filter t.playsAt) = .ok u
  dealt : ∃ deck' ys firsts seconds, t.HandDealt u d deck deck' ys firsts seconds
  posted : u.postBlinds ((List.range t.seats.length).filter t.playsAt) s b = .ok w

theorem Stages.opening {deck : Deck} {d s b n : Nat} {w : Table} (h : t.Stages deck d s b u w)
    (hs : t.Seating) : t.Opening deck (w.setInitialActor b n) := by
  obtain ⟨_, _, _, _, hdealt⟩ := h.dealt
  exact hdealt.opening hs.valid h.blinds h.posted

/-- A call that is refused changes nothing; a call that is not goes through the stages. -/
theorem startHand_stages {deck : Deck} {e : TableError} (hs : t.Seating)
    (h : t.startHand deck = .ok (e, t')) :
    (e ≠ .ok ∧ t' = t ∧
      (handIsRunning t.street = true ∨ t.readyPlayers < t.config.minPlayers)) ∨
    (e = .ok ∧ handIsRunning t.street = false ∧ 2 ≤ t.readyPlayers ∧
      ∃ d s b u w v, t.Stages deck d s b u w ∧
        v = w.setInitialActor b ((List.range t.seats.length).filter t.playsAt).length ∧
        if v.actionable ≤ 1 then
          advanceUntilActionOrSettlement { v with pendingAction := ∅, actingSeat := none } = .ok t'
        else t' = v) := by
  unfold startHand at h
  rw [if_neg (by rw [hs.valid]; simp)] at h
  dsimp only at h
  have hmin := (blinds_pos hs.valid).2.2.1
  split_ifs at h with hrun hready hfew
  · simp only [Except.ok.injEq, Prod.mk.injEq] at h
    exact Or.inl ⟨h.1 ▸ by decide, h.2.symm, Or.inl hrun⟩
  · simp only [Except.ok.injEq, Prod.mk.injEq] at h
    exact Or.inl ⟨h.1 ▸ by decide, h.2.symm, Or.inr hready⟩
  · -- the second count finds the same players
    rw [participatingSeats_openHand, length_participants] at hfew
    exact absurd hfew hready
  · have htwo : 2 ≤ t.readyPlayers := by omega
    obtain ⟨d, s, b, hblinds⟩ := exists_blinds htwo
    rw [participatingSeats_openHand] at h
    simp only [Checked.bind_ok_iff, Checked.pure_ok_iff, Prod.mk.injEq] at h
    obtain ⟨x, hplay, rfl, rfl⟩ := h
    refine Or.inr ⟨rfl, Bool.not_eq_true _ ▸ hrun, htwo, ?_⟩
    unfold playHand at hplay
    simp only [Checked.bind_ok_iff, Prod.exists] at hplay
    obtain ⟨u, hdeal, s', b', hseats, w, hpost, hplay⟩ := hplay
    obtain ⟨deck', ys, firsts, seconds, hdealt⟩ := handDealt hblinds hdeal
    rw [hdealt.blindSeats hblinds, Except.ok.injEq, Prod.mk.injEq] at hseats
    obtain ⟨rfl, rfl⟩ := hseats
    refine ⟨d, s, b, u, w, _, ⟨hblinds, hdeal, ⟨_, _, _, _, hdealt⟩, hpost⟩, rfl, ?_⟩
    split_ifs at hplay ⊢ with hact
    · exact hplay
    · rw [Checked.pure_ok_iff] at hplay
      exact hplay.symm

/-- A call that is refused changes nothing; a call that is not opens the hand. -/
theorem startHand_cases {deck : Deck} {e : TableError} (hs : t.Seating)
    (h : t.startHand deck = .ok (e, t')) :
    (e ≠ .ok ∧ t' = t ∧
      (handIsRunning t.street = true ∨ t.readyPlayers < t.config.minPlayers)) ∨
    (e = .ok ∧ handIsRunning t.street = false ∧ 2 ≤ t.readyPlayers ∧
      ∃ v, t.Opening deck v ∧
        if v.actionable ≤ 1 then
          advanceUntilActionOrSettlement { v with pendingAction := ∅, actingSeat := none } = .ok t'
        else t' = v) := by
  rcases startHand_stages hs h with hrefused | ⟨hok, hidle, htwo, d, s, b, u, w, v, hst, rfl, hrest⟩
  · exact .inl hrefused
  · exact .inr ⟨hok, hidle, htwo, _, hst.opening hs, hrest⟩

/-- With nobody asked, the loop finds no actor. -/
theorem awaitActor_none {d : Nat} (hd : t.dealerSeat = some d) (ha : t.actingSeat = none)
    (hp : t.pendingAction = ∅) : t.awaitActor = t := by
  have hnone : t.nextCanActSeat d = none := by
    unfold nextCanActSeat
    rw [Clockwise.next_eq_none]
    intro j _
    rw [← Bool.not_eq_true, awaits_iff]
    rintro ⟨p, -, -, hmem⟩
    rw [hp] at hmem
    exact absurd hmem (by simp)
  have hself : ({ t with actingSeat := none } : Table) = t := by rw [← ha]
  have hbind : t.dealerSeat.bind t.nextCanActSeat = none := by rw [hd, Option.bind_some, hnone]
  unfold awaitActor firstPostflopActor
  rw [hbind, hself]
  simp

/-- **What a successful `startHand` leaves behind.** -/
theorem startHand_spec {deck : Deck} (hs : t.Seating) (h : t.startHand deck = .ok (.ok, t')) :
    handIsRunning t.street = false ∧ 2 ≤ t.readyPlayers ∧ t.Started deck t' := by
  rcases startHand_cases hs h with ⟨hne, -⟩ | ⟨-, hrun, htwo, v, hopen, hrest⟩
  · exact absurd rfl hne
  refine ⟨hrun, htwo, ?_⟩
  have hb := hopen.betting hs
  have hcont := hopen.contested htwo
  split_ifs at hrest with hact
  · have hone := hopen.actionable_le_one_iff.mp hact
    have hpaid := (PaidFrom.refl v).ask ∅ none
    by_cases hlone : t.LoneDebtor
    · obtain ⟨d, hd, -⟩ := hopen.button
      have hopen' :
          bettingRoundComplete { v with pendingAction := ∅, actingSeat := none } = false :=
        Bool.not_eq_true _ ▸ fun hc => (hopen.complete_iff htwo hone).mp hc hlone
      unfold advanceUntilActionOrSettlement at hrest
      rw [advanceLoop, if_neg (by change ¬ v.contenders ≤ 1; omega), hopen'] at hrest
      simp only [Bool.not_false, if_true, Except.ok.injEq] at hrest
      rw [awaitActor_none (t := { v with pendingAction := ∅, actingSeat := none }) hd rfl rfl]
        at hrest
      subst hrest
      exact .stranded hopen hlone
        { toBetting := hb.ask ∅ none, preflop := hopen.street, acting := rfl, pending := rfl,
          contested := hcont } rfl
    · have hdone := (hopen.complete_iff htwo hone).mpr hlone
      rcases advanceLoop_spec (hb.ask ∅ none) hcont hdone hrest with ⟨-, -, hmany⟩ | hshow
      · exact absurd hact (by change 2 ≤ v.actionable at hmany; omega)
      · have hshows := advanceLoop_shows hrest
        exact .showdown hopen ⟨hone, hlone⟩ (hshow.of_paidFrom hpaid)
          ⟨hshows.drawn, hshows.fits, hshows.supplied⟩
  · subst hrest
    refine .awaiting hopen ?_
      { toBetting := hb, matched := hopen.matched, asking := hopen.asking (by omega),
        contested := hcont }
    obtain ⟨i, j, p, q, hij, hi, hj, hp, hq⟩ := two_le_countP_iff.mp (by omega : 2 ≤ t'.actionable)
    obtain ⟨p', hp', -⟩ := hopen.keeps_of_canAct hi hp
    obtain ⟨q', hq', -⟩ := hopen.keeps_of_canAct hj hq
    exact ⟨i, j, p', q', by omega, hp', hq'⟩

end Table

end PokerServer

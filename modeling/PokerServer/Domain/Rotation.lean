import PokerServer.Domain.BettingState
import PokerServer.Domain.Faultless
import PokerServer.Domain.Reached

/-!
# The button goes round

Which seats a hand gives the button and the blinds to, and how they follow from hand to hand.

* `handSeats`: the three seats `startHand` picks, as it computes them. `StartsHand step hand`: the
  accepted start `step` picked the seats of `hand`, and after it the seats of the blinds, and no
  others, have put in the blinds (`Posted`).
* `RemovesDealer step`: the dealer leaves. No other operation but a start touches the button
  (`exec_button`).
* `button_rotates`: over as many hands as there are participants, the same ones in each, everyone
  has the button once, posts the small blind once and posts the big blind once.
-/

namespace PokerServer

/-- The seats of the button and of the blinds. -/
structure HandSeats where
  dealer : Nat
  small : Nat
  big : Nat
  deriving Repr, DecidableEq

/-- What a seat has to post, its stack allowing. -/
def HandSeats.posts (hand : HandSeats) (config : TableConfig) (i : Nat) (stack : Int) : Int :=
  if i = hand.big then min config.bigBlind stack
  else if i = hand.small then min config.smallBlind stack
  else 0

namespace Table

variable {t t' u v : Table} {op : TableOp} {e : TableError} {trace : List Entry}
  {S : Finset Nat} {n i : Nat} {hand : HandSeats} {p : Player}

/-- The seats of the players who will take part in the next hand. -/
def participants (t : Table) : Finset Nat :=
  ((List.range t.seats.length).filter t.playsAt).toFinset

/-- The seats `startHand` picks between the deal and the blinds. -/
def handSeats (t : Table) (deck : Deck) : Except Fault HandSeats := do
  let participants := (t.openHand deck).participatingSeats
  let dealt ← ((t.openHand deck).moveButton participants).dealHoleCards participants
  let dealer := dealt.dealerSeat.getD 0
  let (small, big) ← dealt.blindSeats dealer participants.length
  return { dealer := dealer, small := small, big := big }

/-- The seats of the blinds have put the blinds in, and nobody else has put anything in. What a hand
that was run out at once has won is in the stacks. -/
structure Posted (before after : Table) (hand : HandSeats) : Prop where
  paid : ∀ i p, before.seatAt i = some p → ∃ q, after.seatAt i = some q ∧ q.id = p.id ∧
    q.handCommitment = hand.posts before.config i p.stack ∧
    q.stack = p.stack - q.handCommitment +
      if after.street = .settled then wonBy after.lastAwards p.id else 0
  posters : ∀ i q, after.seatAt i = some q →
    (0 < q.handCommitment ↔ i = hand.small ∨ i = hand.big)

/-- The accepted start `step` picks the seats of `hand`, takes the blinds from them and leaves the
button with its dealer. -/
structure StartsHand (step : Entry) (hand : HandSeats) : Prop where
  accepted : step.label.2 = .ok
  picks : ∃ deck, step.label.1.Deals deck ∧ step.before.handSeats deck = .ok hand
  posted : Posted step.before step.after hand
  button : step.after.dealerSeat = some hand.dealer

/-- The dealer leaves the table. -/
def RemovesDealer (step : Entry) : Prop :=
  ∃ seat p, step.before.dealerSeat = some seat ∧ step.before.seatAt seat = some p ∧
    step.label = (.removePlayer p.id, .ok)

instance (step : Entry) : Decidable (RemovesDealer step) :=
  decidable_of_iff ((step.before.dealerSeat.any fun seat => (step.before.seatAt seat).any fun p =>
      decide (step.label = (.removePlayer p.id, .ok))) = true) (by
    simp only [Option.any_eq_true, decide_eq_true_eq]
    exact ⟨fun ⟨seat, hd, p, hp, hl⟩ => ⟨seat, p, hd, hp, hl⟩,
      fun ⟨seat, p, hd, hp, hl⟩ => ⟨seat, hd, p, hp, hl⟩⟩)

/-- The blinds of one hand among the participants `S`. -/
structure Proper (S : Finset Nat) (hand : HandSeats) : Prop where
  small : hand.small ∈ S
  big : hand.big ∈ S
  apart : hand.small ≠ hand.big
  headsUp : S.card = 2 → hand.small = hand.dealer

/-- Every participant has each of the three seats in exactly one of the hands. -/
structure Fair (S : Finset Nat) (hands : List HandSeats) : Prop where
  dealer : ∀ seat ∈ S, (hands.map HandSeats.dealer).count seat = 1
  small : ∀ seat ∈ S, (hands.map HandSeats.small).count seat = 1
  big : ∀ seat ∈ S, (hands.map HandSeats.big).count seat = 1

/-! ## Starting -/

/-- The rest of `startHand` leaves the button where it is. -/
theorem Opening.rest_button {deck : Deck} (hopen : t.Opening deck v) (hs : t.Seating)
    (htwo : 2 ≤ t.readyPlayers)
    (hrest : if v.actionable ≤ 1 then
        advanceUntilActionOrSettlement { v with pendingAction := ∅, actingSeat := none } = .ok t'
      else t' = v) : t'.dealerSeat = v.dealerSeat := by
  have hb := (hopen.betting hs).ask ∅ none
  have hcont : 2 ≤ v.contenders := hopen.contested htwo
  split_ifs at hrest with hfew
  · by_cases hdone : bettingRoundComplete { v with pendingAction := ∅, actingSeat := none } = true
    · rcases advanceLoop_spec hb hcont hdone hrest with ⟨-, hpaid, -⟩ | hshow
      · exact hpaid.dealer
      · exact hshow.paid.dealer
    · rw [Bool.not_eq_true] at hdone
      unfold advanceUntilActionOrSettlement at hrest
      rw [advanceLoop, if_neg (by change ¬ v.contenders ≤ 1; omega), hdone] at hrest
      simp only [Bool.not_false, if_true, Except.ok.injEq] at hrest
      rw [← hrest, awaitActor_frame]
  · rw [hrest]

theorem postBlinds_button {participants : List Nat} {small big : Nat}
    (h : t.postBlinds participants small big = .ok u) : u.dealerSeat = t.dealerSeat := by
  unfold postBlinds at h
  simp only [Checked.bind_ok_iff, Checked.pure_ok_iff] at h
  obtain ⟨_, hsmall, _, hbig, rfl⟩ := h
  obtain ⟨_, -, rfl⟩ := postBlindAt_ok hsmall
  obtain ⟨_, -, rfl⟩ := postBlindAt_ok hbig
  rfl

/-- Once the blinds are posted, every seat has put in what it had to. -/
theorem Opening.posts {deck : Deck} (hopen : t.Opening deck v)
    (hblinds : t.Blinds hand.dealer hand.small hand.big) (hp : t.seatAt i = some p) :
    ∃ q, v.seatAt i = some q ∧ q.id = p.id ∧
      q.handCommitment = hand.posts t.config i p.stack ∧ q.stack = p.stack - q.handCommitment := by
  obtain ⟨hole, hq⟩ := hopen.seat_some i p hp
  have hbet := hblinds.forcedBet_eq i
  refine ⟨_, hq, ?_⟩
  unfold HandSeats.posts
  by_cases hplays : p.plays = true
  · have hpos := (Player.plays_iff.mp hplays).2
    rw [Player.opens_of_plays hplays, hbet]
    refine ⟨rfl, ?_, rfl⟩
    change min _ p.stack = _
    split_ifs
    · rfl
    · rfl
    · omega
  · -- the seats of the blinds play
    have hnot : ∀ {seat}, t.playsAt seat = true → i ≠ seat := by
      rintro _ hseat rfl
      rw [playsAt_some hp] at hseat
      exact hplays hseat
    rw [Player.opens_of_not_plays (Bool.not_eq_true _ ▸ hplays),
      if_neg (hnot hblinds.big_plays), if_neg (hnot hblinds.small_plays)]
    exact ⟨rfl, rfl, (Int.sub_zero _).symm⟩

/-- The blinds are positive, and so are the stacks of those who play. -/
theorem Blinds.posts_pos (hs : t.Seating) (hblinds : t.Blinds hand.dealer hand.small hand.big)
    (hp : t.seatAt i = some p) :
    0 < hand.posts t.config i p.stack ↔ i = hand.small ∨ i = hand.big := by
  obtain ⟨hsmall, hbig, -⟩ := blinds_pos hs.valid
  have hstack : ∀ {seat}, t.playsAt seat = true → i = seat → 0 < p.stack := by
    rintro _ hseat rfl
    rw [playsAt_some hp] at hseat
    exact (Player.plays_iff.mp hseat).2
  unfold HandSeats.posts
  split_ifs with hb hsm
  · have := hstack hblinds.big_plays hb
    exact iff_of_true (by omega) (Or.inr hb)
  · have := hstack hblinds.small_plays hsm
    exact iff_of_true (by omega) (Or.inl hsm)
  · exact iff_of_false (by omega) (not_or.mpr ⟨hsm, hb⟩)

/-- **An accepted start takes the blinds** from the seats of the blinds, and nothing from others. -/
theorem Started.posted {deck : Deck} (h : t.Started deck t') (hs : t.Seating)
    (hblinds : t.Blinds hand.dealer hand.small hand.big) : Posted t t' hand := by
  have hpaid : ∀ i p, t.seatAt i = some p → ∃ q, t'.seatAt i = some q ∧ q.id = p.id ∧
      q.handCommitment = hand.posts t.config i p.stack ∧
      q.stack = p.stack - q.handCommitment +
        if t'.street = .settled then wonBy t'.lastAwards p.id else 0 := by
    intro i p hp
    cases h with
    | awaiting hopen _ _ =>
      obtain ⟨q, hq, hid, hhand, hstack⟩ := hopen.posts hblinds hp
      refine ⟨q, hq, hid, hhand, ?_⟩
      rw [if_neg (by rw [hopen.street]; decide), hstack, Int.add_zero]
    | showdown hopen _ hshow _ =>
      obtain ⟨q, hq, hid, hhand, hstack⟩ := hopen.posts hblinds hp
      obtain ⟨r, hr, hrq⟩ := hshow.paid.seat_some hq
      refine ⟨r, hr, hrq.id.trans hid, hrq.hand.trans hhand, ?_⟩
      rw [if_pos hshow.street, hrq.stack, hrq.hand, hstack, hid]
    | stranded hopen _ hstranded hsame =>
      obtain ⟨q, hq, hid, hhand, hstack⟩ := hopen.posts hblinds hp
      refine ⟨q, hsame ▸ hq, hid, hhand, ?_⟩
      rw [if_neg (by rw [hstranded.preflop]; decide), hstack, Int.add_zero]
  refine ⟨hpaid, fun i q hq => ?_⟩
  obtain ⟨p, hp, -⟩ := h.sameSeating.symm.seat hq
  obtain ⟨q', hq', -, hhand, -⟩ := hpaid i p hp
  rw [Option.some.inj (hq.symm.trans hq'), hhand]
  exact hblinds.posts_pos hs hp

/-- **The seats of an accepted start** are those computed from the table before it. -/
theorem startHand_seats {deck : Deck} (hs : t.Seating) (h : t.startHand deck = .ok (.ok, t')) :
    ∃ hand, t.handSeats deck = .ok hand ∧ t.Blinds hand.dealer hand.small hand.big ∧
      Posted t t' hand ∧ t'.dealerSeat = some hand.dealer := by
  obtain ⟨-, -, hstarted⟩ := startHand_spec hs h
  rcases startHand_stages hs h with ⟨hne, -⟩ |
    ⟨-, -, htwo, d, s, b, dealt, w, v, hstages, rfl, hrest⟩
  · exact absurd rfl hne
  obtain ⟨deck', ys, firsts, seconds, hdealt⟩ := hstages.dealt
  have hdealer : dealt.dealerSeat = some d := by rw [hdealt.frame]
  refine ⟨⟨d, s, b⟩, ?_, hstages.blinds, hstarted.posted hs hstages.blinds, ?_⟩
  · unfold handSeats
    rw [participatingSeats_openHand]
    simp only [hstages.deal, Checked.bind_ok_iff, Checked.pure_ok_iff, Except.ok.injEq,
      exists_eq_left']
    exact ⟨_, hdealt.blindSeats hstages.blinds, by rw [hdealer, Option.getD_some]⟩
  · rw [(hstages.opening hs).rest_button hs htwo hrest, setInitialActor_frame]
    exact (postBlinds_button hstages.posted).trans hdealer

/-! ## Between the starts -/

theorem exec_length (hi : t.Inv) (hstep : t.Steps (op, e) t') :
    t'.seats.length = t.seats.length := by
  rcases exec_effect hi hstep with ⟨-, rfl⟩ | ⟨rfl, heffect⟩
  · rfl
  cases heffect with
  | sits => exact length_setSeat t _ _
  | leaves => exact length_setSeat t _ _
  | readies => exact length_mapSeats t _
  | connects => exact length_mapSeats t _
  | starts _ _ _ hstarted => exact hstarted.sameSeating.length
  | aborts hhand =>
    rw [abortHand_eq hi.seating hhand]
    exact length_mapSeats t _
  | acts _ _ hp _ _ hacted _ _ _ hout =>
    obtain ⟨awards, hpaid⟩ := hout.paid
    exact hpaid.length.trans (hacted.sameSeating hp).length

/-- **Only a start and the dealer's leaving touch the button.** -/
theorem exec_button (hi : t.Inv) (hstep : t.Steps (op, e) t')
    (hnew : ¬ Starts ⟨t, (op, e), t'⟩) (hstays : ¬ RemovesDealer ⟨t, (op, e), t'⟩) :
    t'.dealerSeat = t.dealerSeat := by
  rcases exec_effect hi hstep with ⟨-, rfl⟩ | ⟨rfl, heffect⟩
  · rfl
  cases heffect with
  | sits => rfl
  | @leaves id i p hp hid _ =>
    have hother : t.dealerSeat ≠ some i := fun hdealer =>
      hstays ⟨i, p, hdealer, hp, by rw [hid]⟩
    exact if_neg hother
  | readies => rfl
  | connects => rfl
  | starts hdeals => exact absurd ⟨hdeals.begins, rfl⟩ hnew
  | aborts hhand =>
    rw [abortHand_eq hi.seating hhand]
    rfl
  | acts _ _ _ _ _ hacted _ _ _ hout =>
    obtain ⟨awards, hpaid⟩ := hout.paid
    rw [hpaid.dealer, hacted.frame]
    rfl

/-! ## From hand to hand -/

/-- The seats of one hand among the participants `S` of a table with `n` seats. -/
structure Picked (S : Finset Nat) (n : Nat) (hand : HandSeats) : Prop where
  range : ∀ seat ∈ S, seat < n
  dealer : hand.dealer ∈ S
  small : hand.small ∈ S
  big : hand.big ∈ S
  apart : hand.small ≠ hand.big
  smallIs : (if 2 < S.card then Clockwise.next (fun i => decide (i ∈ S)) n hand.dealer
    else some hand.dealer) = some hand.small
  bigIs : Clockwise.next (fun i => decide (i ∈ S)) n hand.small = some hand.big

theorem mem_participants {i : Nat} : i ∈ t.participants ↔ t.playsAt i = true := by
  unfold participants
  rw [List.mem_toFinset, List.mem_filter, List.mem_range]
  refine ⟨fun h => h.2, fun h => ⟨?_, h⟩⟩
  obtain ⟨p, hp, -⟩ := playsAt_iff.mp h
  exact seatAt_lt hp

theorem playsAt_eq (hS : t.participants = S) : t.playsAt = fun i => decide (i ∈ S) := by
  funext i
  rw [Bool.eq_iff_iff, decide_eq_true_iff, ← hS, mem_participants]

theorem readyPlayers_eq_card (hS : t.participants = S) : t.readyPlayers = S.card := by
  rw [← hS, participants, List.toFinset_card_of_nodup (List.nodup_range.filter _),
    length_participants]

theorem Blinds.picked {d s b : Nat} (h : t.Blinds d s b) (hS : t.participants = S) :
    Picked S t.seats.length ⟨d, s, b⟩ := by
  have hsmall := h.smallIs
  have hbig := h.bigIs
  rw [playsAt_eq hS] at hsmall hbig
  rw [readyPlayers_eq_card hS] at hsmall
  subst hS
  refine ⟨fun seat hseat => ?_, mem_participants.mpr h.dealer_plays,
    mem_participants.mpr h.small_plays, mem_participants.mpr h.big_plays, h.apart, hsmall, hbig⟩
  obtain ⟨p, hp, -⟩ := playsAt_iff.mp (mem_participants.mp hseat)
  exact seatAt_lt hp

/-- The hands of a run so far: each dealer sits next to the one before, and the last one has the
button. -/
structure Rotates (S : Finset Nat) (n : Nat) (hands : List HandSeats) (t : Table) : Prop where
  inv : t.Inv
  length : t.seats.length = n
  picked : ∀ hand ∈ hands, Picked S n hand
  follows : (hands.map HandSeats.dealer).IsChain
    fun d d' => Clockwise.next (fun i => decide (i ∈ S)) n d = some d'
  button : ∀ d ∈ (hands.map HandSeats.dealer).getLast?, t.dealerSeat = some d

theorem Rotates.start {hands : List HandSeats} (h : Rotates S n hands t)
    (hstep : t.Steps (op, e) t') (hstarts : Starts ⟨t, (op, e), t'⟩)
    (hS : t.participants = S) :
    ∃ hand, StartsHand ⟨t, (op, e), t'⟩ hand ∧ Rotates S n (hands ++ [hand]) t' := by
  obtain ⟨hbegins, hok⟩ := hstarts
  obtain rfl : e = .ok := hok
  obtain ⟨deck, hdeals⟩ : ∃ deck, op.Deals deck := by
    rcases exec_effect h.inv hstep with ⟨hne, -⟩ | ⟨-, heffect⟩
    · exact absurd rfl hne
    cases heffect with
    | starts hdeals => exact ⟨_, hdeals⟩
    | _ => exact absurd hbegins (by simp [TableOp.begins])
  obtain ⟨hand, hpicks, hblinds, hposted, hbutton⟩ :=
    startHand_seats h.inv.seating (hdeals.start hstep)
  refine ⟨hand, ⟨rfl, ⟨deck, hdeals, hpicks⟩, hposted, hbutton⟩, exec_inv h.inv hstep,
    (exec_length h.inv hstep).trans h.length, ?_, ?_, ?_⟩
  · intro other hother
    rcases List.mem_append.mp hother with hold | hnew
    · exact h.picked other hold
    · rw [List.mem_singleton.mp hnew, ← h.length]
      exact hblinds.picked hS
  · rw [List.map_append, List.isChain_append]
    refine ⟨h.follows, List.isChain_singleton _, fun d hd d' hd' => ?_⟩
    obtain rfl : hand.dealer = d' := by simpa using hd'
    have hmoves := hblinds.button
    unfold Table.button at hmoves
    rw [h.button d hd, playsAt_eq hS, h.length] at hmoves
    exact hmoves
  · intro d hd
    obtain rfl : hand.dealer = d := by simpa using hd
    exact hbutton

theorem Rotates.pass {hands : List HandSeats} (h : Rotates S n hands t)
    (hstep : t.Steps (op, e) t') (hnew : ¬ Starts ⟨t, (op, e), t'⟩)
    (hstays : ¬ RemovesDealer ⟨t, (op, e), t'⟩) : Rotates S n hands t' where
  inv := exec_inv h.inv hstep
  length := (exec_length h.inv hstep).trans h.length
  picked := h.picked
  follows := h.follows
  button d hd := (exec_button h.inv hstep hnew hstays).trans (h.button d hd)

/-- The hands of a run all of whose starts have the same participants. -/
theorem exists_hands (hr : Run Steps t trace u) (hi : t.Inv)
    (hplays : ∀ step ∈ trace, Starts step → step.before.participants = S)
    (hstays : ∀ step ∈ trace, ¬ RemovesDealer step) :
    ∃ hands, (trace.filter fun step => Starts step).Forall₂ StartsHand hands ∧
      Rotates S t.seats.length hands u := by
  induction hr with
  | nil => exact ⟨[], .nil, hi, rfl, by simp, .nil, by simp⟩
  | @snoc pre v w label hpre hstep ih =>
    obtain ⟨op, e⟩ := label
    obtain ⟨hands, hall, hrot⟩ := ih
      (fun step hmem => hplays step (List.mem_append_left _ hmem))
      fun step hmem => hstays step (List.mem_append_left _ hmem)
    have hlast : (⟨v, (op, e), w⟩ : Entry) ∈ pre ++ [⟨v, (op, e), w⟩] :=
      List.mem_append_right _ (List.mem_singleton.mpr rfl)
    rw [List.filter_append]
    by_cases hstarts : Starts ⟨v, (op, e), w⟩
    · obtain ⟨hand, hhand, hrot'⟩ := hrot.start hstep hstarts (hplays _ hlast hstarts)
      refine ⟨hands ++ [hand], List.rel_append hall ?_, hrot'⟩
      rw [List.filter_singleton, decide_eq_true hstarts, cond_true]
      exact .cons hhand .nil
    · refine ⟨hands, ?_, hrot.pass hstep hstarts (hstays _ hlast)⟩
      rw [List.filter_singleton, decide_eq_false hstarts, cond_false, List.append_nil]
      exact hall

/-! ## One round -/

theorem count_eq_one {seats : List Nat} (hnodup : seats.Nodup) (hin : ∀ seat ∈ seats, seat ∈ S)
    (hlen : seats.length = S.card) {seat : Nat} (hseat : seat ∈ S) : seats.count seat = 1 := by
  have hall : seats.toFinset = S := by
    refine Finset.eq_of_subset_of_card_le (fun x hx => hin x (List.mem_toFinset.mp hx)) ?_
    rw [List.toFinset_card_of_nodup hnodup, hlen]
  refine List.count_eq_one_of_mem hnodup ?_
  rw [← List.mem_toFinset, hall]
  exact hseat

theorem Picked.proper (h : Picked S n hand) : Proper S hand := by
  refine ⟨h.small, h.big, h.apart, fun htwo => ?_⟩
  have hsmall := h.smallIs
  rw [if_neg (by omega)] at hsmall
  exact (Option.some.inj hsmall).symm

theorem Picked.small_inj {other : HandSeats} (h : Picked S n hand) (h' : Picked S n other)
    (hsame : hand.small = other.small) : hand.dealer = other.dealer := by
  have hleft := h.smallIs
  have hright := h'.smallIs
  rw [hsame] at hleft
  split_ifs at hleft hright
  · exact Clockwise.next_inj (h.range _ h.dealer) (decide_eq_true h.dealer)
      (h'.range _ h'.dealer) (decide_eq_true h'.dealer) hleft hright
  · exact Option.some.inj (hleft.trans hright.symm)

theorem Picked.big_inj {other : HandSeats} (h : Picked S n hand) (h' : Picked S n other)
    (hsame : hand.big = other.big) : hand.small = other.small :=
  Clockwise.next_inj (h.range _ h.small) (decide_eq_true h.small) (h'.range _ h'.small)
    (decide_eq_true h'.small) (hsame ▸ h.bigIs) h'.bigIs

/-- The dealers of one round are different. -/
theorem Rotates.nodup_dealers {hands : List HandSeats} (h : Rotates S n hands t)
    (hlen : hands.length = S.card) : (hands.map HandSeats.dealer).Nodup := by
  cases hands with
  | nil => exact List.nodup_nil
  | cons first rest =>
    have hfirst := h.picked first List.mem_cons_self
    have hlt := hfirst.range _ hfirst.dealer
    have hhits : (Clockwise.hits (fun i => decide (i ∈ S)) n first.dealer).length = S.card := by
      rw [← List.toFinset_card_of_nodup (Clockwise.nodup_hits n first.dealer)]
      congr 1
      ext seat
      rw [List.mem_toFinset, Clockwise.mem_hits, decide_eq_true_iff]
      exact ⟨fun hseat => hseat.2, fun hseat => ⟨hfirst.range seat hseat, hseat⟩⟩
    have hperm := Clockwise.perm_of_isChain hlt (decide_eq_true hfirst.dealer) h.follows
      (by rw [hhits, ← hlen, List.length_cons, List.length_cons, List.length_map])
    exact hperm.nodup_iff.mpr (Clockwise.nodup_hits n first.dealer)

theorem Rotates.fair {hands : List HandSeats} (h : Rotates S n hands t)
    (hlen : hands.length = S.card) : Fair S hands := by
  have hdealers := h.nodup_dealers hlen
  have hsmalls : (hands.map HandSeats.small).Nodup :=
    List.Nodup.map_on (fun hand hhand other hother hsame =>
      List.inj_on_of_nodup_map hdealers hhand hother
        ((h.picked hand hhand).small_inj (h.picked other hother) hsame)) hdealers.of_map
  have hbigs : (hands.map HandSeats.big).Nodup :=
    List.Nodup.map_on (fun hand hhand other hother hsame =>
      List.inj_on_of_nodup_map hsmalls hhand hother
        ((h.picked hand hhand).big_inj (h.picked other hother) hsame)) hsmalls.of_map
  have hin : ∀ pick : HandSeats → Nat, (∀ hand ∈ hands, pick hand ∈ S) →
      ∀ seat ∈ hands.map pick, seat ∈ S := by
    intro pick hpick seat hseat
    obtain ⟨hand, hhand, rfl⟩ := List.mem_map.mp hseat
    exact hpick hand hhand
  have hmap : ∀ pick : HandSeats → Nat, (hands.map pick).length = S.card := fun pick => by
    rw [List.length_map, hlen]
  refine ⟨fun seat => ?_, fun seat => ?_, fun seat => ?_⟩
  · exact count_eq_one hdealers (hin _ fun hand hhand => (h.picked hand hhand).dealer) (hmap _)
  · exact count_eq_one hsmalls (hin _ fun hand hhand => (h.picked hand hhand).small) (hmap _)
  · exact count_eq_one hbigs (hin _ fun hand hhand => (h.picked hand hhand).big) (hmap _)

/-- **The button and the blinds rotate fairly**: where the seats `S` take part in every hand of a
run that never removes the dealer, the blinds of each hand are posted by two of them and by nobody
else, and over as many hands as there are seats in `S` each has the button once, posts the small
blind once and posts the big blind once. -/
theorem button_rotates (h : t.Reached) (hr : Run Steps t trace u)
    (hplays : ∀ step ∈ trace, Starts step → step.before.participants = S)
    (hstays : ∀ step ∈ trace, ¬ RemovesDealer step) :
    ∃ hands, (trace.filter fun step => Starts step).Forall₂ StartsHand hands ∧
      (∀ hand ∈ hands, Proper S hand) ∧ (hands.length = S.card → Fair S hands) := by
  rcases h.inv_or with hi | ⟨config, hc, rfl⟩
  · obtain ⟨hands, hall, hrot⟩ := exists_hands hr hi hplays hstays
    exact ⟨hands, hall, fun hand hhand => (hrot.picked hand hhand).proper, hrot.fair⟩
  · -- nothing is accepted under a refused configuration
    have hnone : (trace.filter fun step => Starts step) = [] := by
      rw [List.filter_eq_nil_iff]
      intro step hmem hstarts
      obtain ⟨hreach, hstep⟩ := hr.entry hmem
      rw [reach_new_invalid hc hreach] at hstep
      exact (exec_new_invalid hc hstep).1 (of_decide_eq_true hstarts).2
    rw [hnone]
    refine ⟨[], .nil, by simp, fun hlen => ?_⟩
    obtain rfl : S = ∅ := Finset.card_eq_zero.mp hlen.symm
    exact ⟨by simp, by simp, by simp⟩

/-- Three hands of three players with gaps between them; the dealer and the small blind fold. -/
def threeFolded : List TableOp :=
  let round := [.setReady 1 true, .setReady 2 true, .setReady 3 true,
    .startHandWithDeck orderedDeck]
  [.seatPlayer 1 0 2000, .seatPlayer 2 2 2000, .seatPlayer 3 5 2000] ++
    round ++ [.act { playerId := 1, type := .fold }, .act { playerId := 2, type := .fold }] ++
    round ++ [.act { playerId := 2, type := .fold }, .act { playerId := 3, type := .fold }] ++ round

theorem button_rotates_threeFolded :
    ∃ trace t hands, Run Steps (new {}) trace t ∧
      (trace.filter fun step => Starts step).Forall₂ StartsHand hands ∧ hands.length = 3 ∧
      (∀ hand ∈ hands, Proper {0, 2, 5} hand) ∧ Fair {0, 2, 5} hands := by
  have hcheck : (replay perform (new {}) threeFolded).any (fun r =>
      decide ((r.1.filter fun step => Starts step).length = 3 ∧
        ∀ step ∈ r.1, (Starts step → step.before.participants = {0, 2, 5}) ∧
          ¬ RemovesDealer step)) = true := by
    decide +kernel
  obtain ⟨⟨trace, t⟩, hr, hc⟩ := (Option.any_eq_true _ _).mp hcheck
  obtain ⟨hlen, hsteps⟩ := of_decide_eq_true hc
  have hrun := run_of_replay hr
  obtain ⟨hands, hall, hproper, hfair⟩ := button_rotates (reached_new {}) hrun
    (fun step hmem => (hsteps step hmem).1) fun step hmem => (hsteps step hmem).2
  have hthree : hands.length = 3 := by rw [← hall.length_eq, hlen]
  exact ⟨trace, t, hands, hrun, hall, hthree, hproper, hfair hthree⟩

end Table

end PokerServer

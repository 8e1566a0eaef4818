import PokerServer.Domain.Operations

/-!
# One hand

What a hand keeps from the deal to its settlement.

* `InHand t₀ deck folds t`: `t` is in, or has just settled, the hand that was started on `t₀` with
  `deck` and in which `folds` folded.
* `Played`: a hand as a run, from its start to the `act` that settles it. `Played.inHand` is the
  invariant carried over such a run.
-/

namespace PokerServer

namespace Table

variable {t t' u : Table} {i : Nat} {p q : Player}

theorem concludeAction_shows {seat : Nat} (h : u.concludeAction seat = .ok t') : Shows u t' := by
  unfold concludeAction at h
  split_ifs at h
  · exact settleFoldWin_shows h
  · have hrest := advanceLoop_shows h
    exact ⟨hrest.drawn, hrest.fits, hrest.supplied⟩
  · rw [Except.ok.injEq] at h
    subst h
    exact Shows.of_eq rfl rfl rfl

theorem act_shows {command : ActionCommand} {result : ActionResult} (ht : t.Awaiting)
    (h : t.act command = .ok (result, t')) : Shows t t' := by
  rcases act_cases h with ⟨-, rfl⟩ | ⟨i, p, u, -, -, hp, -, hact, -, happ, hconc, -⟩
  · exact Shows.refl _
  · obtain ⟨q, hacted, -⟩ := applyAction_acted ht.toBetting ht.matched hp hact happ
    have hframe := (hacted.sequenced (u.serverSequence + 1)).frame
    have hsame : Shows t { u with serverSequence := u.serverSequence + 1 } := by
      rw [hframe]
      exact Shows.of_eq rfl rfl rfl
    exact hsame.trans (concludeAction_shows hconc)

end Table

/-! ## The hand -/

/-- The cards a player holds. -/
def Player.cards (p : Player) : List Card := if p.hasHole then [p.hole.1, p.hole.2] else []

/-- `q` is what `p` became in a hand in which `folds` folded: the same player at the same seat, with
the chips it brought, less what it put into the pot and plus what it won. -/
structure Player.InHand (folds : Set PlayerId) (awards : List PotAward) (p q : Player) : Prop where
  id : q.id = p.id
  seat : q.seat = p.seat
  hasHole : q.hasHole = p.plays
  waiting : q.status = .waiting ↔ p.plays = false
  chips : q.stack + q.handCommitment = p.stack + wonBy awards p.id
  folded : q.status = .folded ↔ p.plays = true ∧ p.id ∈ folds

namespace Table

variable {t t' u : Table} {i : Nat} {p q : Player}

/-- The cards dealt face down. -/
def holeCards (t : Table) : List Card := t.players.flatMap Player.cards

/-- `t` is in the hand that was started on `t₀` with `deck`; `folds` folded so far and `awards` were
paid. -/
structure InHand (t₀ : Table) (deck : Deck) (folds : Set PlayerId) (awards : List PotAward)
    (t : Table) : Prop where
  config : t.config = t₀.config
  handId : t.handId = t₀.handId + 1
  length : t.seats.length = t₀.seats.length
  seat : ∀ i q, t.seatAt i = some q →
    ∃ p, t₀.seatAt i = some p ∧ p.InHand folds awards q
  stays : ∀ i p, t₀.seatAt i = some p → p.plays = true → ∃ q, t.seatAt i = some q
  cards : (t.holeCards ++ (t.board ++ t.rest)).Subperm deck.rest
  fits : t.BoardFits

/-- The hole cards, seat by seat. -/
theorem holeCards_eq (t : Table) :
    t.holeCards = (t.seats.map fun o => (o.map Player.cards).getD []).flatten := by
  unfold holeCards players
  induction t.seats with
  | nil => rfl
  | cons o seats ih =>
    cases o with
    | none => simpa using ih
    | some p => simpa using ih

theorem holeCards_congr (hlen : t'.seats.length = t.seats.length)
    (h : ∀ i, ((t'.seatAt i).map Player.cards).getD [] =
      ((t.seatAt i).map Player.cards).getD []) : t'.holeCards = t.holeCards := by
  rw [holeCards_eq, holeCards_eq]
  exact congrArg List.flatten (map_seats_congr hlen h)

variable {t₀ v : Table} {deck : Deck} {folds : Set PlayerId} {awards : List PotAward}

theorem holeCards_mapSeats {f : Player → Player} (hf : ∀ p : Player, (f p).cards = p.cards) :
    (t.mapSeats f).holeCards = t.holeCards := by
  refine holeCards_congr (length_mapSeats t f) fun i => ?_
  have hcards : Player.cards ∘ f = Player.cards := funext hf
  rw [seatAt_mapSeats, Option.map_map, hcards]

theorem PaidFrom.holeCards_eq (h : PaidFrom awards t t') : t'.holeCards = t.holeCards := by
  refine holeCards_congr h.length fun i => ?_
  have hseat := congrArg (Option.map Player.cards) (h.seat i)
  rw [Option.map_map, Option.map_map] at hseat
  exact congrArg (fun o => Option.getD o []) hseat

theorem Acted.holeCards_eq (h : Acted t i p q u) (hp : t.seatAt i = some p) :
    u.holeCards = t.holeCards := by
  refine holeCards_congr (by rw [h.seats, length_setSeat]) fun j => ?_
  by_cases hj : j = i
  · subst hj
    rw [h.seat_self hp, hp, h.actor]
    rfl
  · rw [h.seat_other hj]

/-! ## The deal -/

/-- Cards picked at distinct places of a list are cards of the list. -/
theorem subperm_of_zip {ys : List Nat} {cards : List Card} {players : List Player}
    {f : Player → Card} (hlen : cards.length = ys.length) (hs : (players.map (·.seat)).Nodup)
    (h : ∀ p ∈ players, (p.seat, f p) ∈ ys.zip cards) : (players.map f).Subperm cards := by
  have hnodup : (players.map fun p => (p.seat, f p)).Nodup := by
    refine List.Nodup.of_map Prod.fst ?_
    rw [List.map_map]
    exact hs
  have hsub : (players.map fun p => (p.seat, f p)) ⊆ ys.zip cards := by
    intro x hx
    obtain ⟨p, hp, rfl⟩ := List.mem_map.mp hx
    exact h p hp
  obtain ⟨l, hperm, hsublist⟩ := List.subperm_of_subset hnodup hsub
  refine ⟨l.map Prod.snd, ?_, ?_⟩
  · have := hperm.map Prod.snd
    rw [List.map_map] at this
    exact this
  · have := hsublist.map Prod.snd
    rw [List.map_snd_zip (by omega)] at this
    exact this

theorem Seating.nodup_seats (hs : t.Seating) : (t.players.map (·.seat)).Nodup := by
  refine List.Nodup.of_map (fun i => (t.seatAt i).map (·.id)) ?_
  rw [List.map_map]
  have hids : t.players.map ((fun i => (t.seatAt i).map (·.id)) ∘ (·.seat)) =
      (t.players.map (·.id)).map some := by
    rw [List.map_map]
    refine List.map_congr_left fun p hp => ?_
    obtain ⟨i, hi⟩ := mem_players.mp hp
    simp only [Function.comp_apply, hs.index hi, hi, Option.map_some]
  rw [hids]
  exact hs.nodup_ids.map (Option.some_injective _)

/-- The hole cards of an opened hand come off the top of the deck. -/
theorem Opening.holeCards (hopen : t₀.Opening deck v) (hs : t₀.Seating) :
    (v.holeCards ++ v.rest).Subperm deck.rest := by
  obtain ⟨deck', ys, firsts, seconds, hdeck, -, -, hf, hs2, hrest, hcards⟩ := hopen.cards
  have hsv := hs.of_same hopen.sameSeating
  have hnodup : ((v.players.filter (·.hasHole)).map (·.seat)).Nodup :=
    hsv.nodup_seats.sublist (List.filter_sublist.map _)
  have hmem : ∀ p ∈ v.players.filter (·.hasHole),
      (p.seat, p.hole.1) ∈ ys.zip firsts ∧ (p.seat, p.hole.2) ∈ ys.zip seconds := by
    intro p hp
    rw [List.mem_filter] at hp
    obtain ⟨i, hi⟩ := mem_players.mp hp.1
    rw [hsv.index hi]
    exact hcards i p hi hp.2
  have hfirst := subperm_of_zip hf hnodup fun p hp => (hmem p hp).1
  have hsecond := subperm_of_zip hs2 hnodup fun p hp => (hmem p hp).2
  have hperm : ((v.players.filter (·.hasHole)).map (·.hole.1) ++
      (v.players.filter (·.hasHole)).map (·.hole.2)).Perm v.holeCards := by
    have hflat : v.holeCards =
        (v.players.filter (·.hasHole)).flatMap fun p => [p.hole.1] ++ [p.hole.2] := by
      unfold Table.holeCards Player.cards
      induction v.players with
      | nil => rfl
      | cons p players ih =>
        rw [List.flatMap_cons, ih, List.filter_cons]
        split_ifs <;> simp
    rw [hflat, List.map_eq_flatMap, List.map_eq_flatMap]
    exact List.flatMap_append_perm _ _ _
  have hv : v.rest = deck'.rest := by
    unfold rest
    rw [hdeck]
    rfl
  rw [hrest, hv, ← List.append_assoc]
  exact (List.subperm_append_right _).mpr (hperm.symm.subperm.trans (hfirst.append hsecond))

/-! ## The steps of a hand -/

/-- The hand as it is opened. -/
theorem Opening.inHand (hopen : t₀.Opening deck v) (hs : t₀.Seating) :
    InHand t₀ deck ∅ [] v where
  config := hopen.config
  handId := hopen.handId
  length := hopen.length
  seat := fun i q hq => by
    obtain ⟨p, hole, hp, rfl⟩ := hopen.seat_back hq
    refine ⟨p, hp, ?_⟩
    by_cases hplays : p.plays = true
    · rw [Player.opens_of_plays hplays, hplays]
      refine ⟨rfl, rfl, hplays.symm, ?_, ?_, ?_⟩ <;> simp only
      · split_ifs <;> simp [hplays]
      · simp
      · split_ifs <;> simp
    · rw [Bool.not_eq_true] at hplays
      rw [Player.opens_of_not_plays hplays, hplays]
      exact ⟨rfl, rfl, hplays.symm, by simp [hplays], by simp, by simp⟩
  stays := fun i p hp _ => by
    obtain ⟨hole, hi⟩ := hopen.seat_some i p hp
    exact ⟨_, hi⟩
  cards := by
    rw [hopen.board]
    exact hopen.holeCards hs
  fits := by
    unfold BoardFits
    rw [hopen.street, hopen.board]
    rfl

/-- Dealing on and paying keeps the hand. -/
theorem InHand.paid (h : InHand t₀ deck folds [] u) (hpaid : PaidFrom awards u t')
    (hshows : Shows u t') : InHand t₀ deck folds awards t' where
  config := hpaid.config.trans h.config
  handId := hpaid.handId.trans h.handId
  length := hpaid.length.trans h.length
  seat := fun i q hq => by
    obtain ⟨r, hr, hrq⟩ := hpaid.seat_back hq
    obtain ⟨p, hp, hpr⟩ := h.seat i r hr
    refine ⟨p, hp, hrq.id.trans hpr.id, hrq.seat.trans hpr.seat, hrq.hasHole.trans hpr.hasHole,
      by rw [hrq.status]; exact hpr.waiting, ?_, by rw [hrq.status]; exact hpr.folded⟩
    have hchips := hpr.chips
    rw [wonBy_nil] at hchips
    rw [hrq.stack, hrq.hand, hpr.id]
    omega
  stays := fun i p hp hplays => by
    obtain ⟨r, hr⟩ := h.stays i p hp hplays
    obtain ⟨q, hq, -⟩ := hpaid.seat_some hr
    exact ⟨q, hq⟩
  cards := by
    rw [hpaid.holeCards_eq]
    exact ((List.Sublist.refl _).append hshows.drawn).subperm.trans h.cards
  fits := hshows.fits h.fits

/-- An accepted action keeps the hand; a fold adds its player. -/
theorem InHand.acted {folds' : Set PlayerId} (h : InHand t₀ deck folds [] t)
    (hacted : Acted t i p q u) (hp : t.seatAt i = some p) (hs : t.Seating)
    (hw : p.status ≠ .waiting) (hself : q.status = .folded ↔ p.id ∈ folds')
    (hother : ∀ id, id ≠ p.id → (id ∈ folds' ↔ id ∈ folds)) : InHand t₀ deck folds' [] u where
  config := by rw [hacted.frame]; exact h.config
  handId := by rw [hacted.frame]; exact h.handId
  length := by rw [hacted.frame]; exact (length_setSeat t i _).trans h.length
  seat := fun j r hr => by
    rcases hacted.seat_cases hp hr with ⟨rfl, rfl⟩ | ⟨hj, hr⟩
    · obtain ⟨p₀, hp₀, hin⟩ := h.seat j p hp
      have hplays : p₀.plays = true := by
        by_contra hc
        exact hw (hin.waiting.mpr (Bool.not_eq_true _ ▸ hc))
      have hchips := hacted.chips
      refine ⟨p₀, hp₀, ?_⟩
      rw [hin.id] at hself
      refine ⟨?_, ?_, ?_, ?_, hchips.trans hin.chips, ?_⟩
      · rw [hacted.actor]; exact hin.id
      · rw [hacted.actor]; exact hin.seat
      · rw [hacted.actor]; exact hin.hasHole
      · exact iff_of_false hacted.plays (by simp [hplays])
      · rw [hself]
        exact (and_iff_right hplays).symm
    · obtain ⟨p₀, hp₀, hin⟩ := h.seat j r hr
      have hne : p₀.id ≠ p.id := by
        rw [← hin.id]
        exact fun hc => hj (hs.unique hr hp hc)
      exact ⟨p₀, hp₀, hin.id, hin.seat, hin.hasHole, hin.waiting, hin.chips,
        hin.folded.trans (and_congr_right fun _ => (hother _ hne).symm)⟩
  stays := fun j r hr hplays => by
    obtain ⟨r', hr'⟩ := h.stays j r hr hplays
    by_cases hj : j = i
    · subst hj
      exact ⟨q, hacted.seat_self hp⟩
    · exact ⟨r', (hacted.seat_other hj).trans hr'⟩
  cards := by
    rw [hacted.holeCards_eq hp, show u.board = t.board by rw [hacted.frame]; rfl,
      show u.rest = t.rest by rw [hacted.frame]; rfl]
    exact h.cards
  fits := by rw [hacted.frame]; exact h.fits

/-- Readiness and connections are no part of the hand. -/
theorem InHand.sameBets {f : Player → Player} (h : InHand t₀ deck folds [] t) (hf : SameBets f)
    (n : Nat) : InHand t₀ deck folds [] { t.mapSeats f with serverSequence := n } where
  config := h.config
  handId := h.handId
  length := (length_mapSeats t f).trans h.length
  seat := fun i q hq => by
    obtain ⟨r, hr, rfl⟩ := mapSeats_back hq
    obtain ⟨p, hp, hin⟩ := h.seat i r hr
    refine ⟨p, hp, ?_⟩
    rw [hf r]
    exact ⟨hin.id, hin.seat, hin.hasHole, hin.waiting, hin.chips, hin.folded⟩
  stays := fun i p hp hplays => by
    obtain ⟨r, hr⟩ := h.stays i p hp hplays
    refine ⟨f r, ?_⟩
    change (t.mapSeats f).seatAt i = _
    rw [seatAt_mapSeats, hr, Option.map_some]
  cards := by
    change ((t.mapSeats f).holeCards ++ _).Subperm _
    rw [holeCards_mapSeats fun r => by rw [hf r]; rfl]
    exact h.cards
  fits := h.fits

/-- A player without cards leaves the table, not the hand. -/
theorem InHand.leave (h : InHand t₀ deck folds [] t) (hp : t.seatAt i = some p)
    (hw : p.status = .waiting) (d : Option Nat) (n : Nat) :
    InHand t₀ deck folds [] { t.setSeat i none with dealerSeat := d, serverSequence := n } where
  config := h.config
  handId := h.handId
  length := (length_setSeat t i none).trans h.length
  seat := fun j q hq => by
    change (t.setSeat i none).seatAt j = some q at hq
    obtain ⟨-, hq⟩ := seatAt_of_leave hq
    exact h.seat j q hq
  stays := fun j r hr hplays => by
    obtain ⟨q, hq⟩ := h.stays j r hr hplays
    have hij : i ≠ j := by
      rintro rfl
      obtain ⟨p₀, hp₀, hin⟩ := h.seat i p hp
      rw [Option.some.inj (hr.symm.trans hp₀), hin.waiting.mp hw] at hplays
      exact absurd hplays (by decide)
    exact ⟨q, (seatAt_setSeat_ne hij none).trans hq⟩
  cards := by
    have hsame : (t.setSeat i none).holeCards = t.holeCards := by
      refine holeCards_congr (length_setSeat t i none) fun j => ?_
      by_cases hij : i = j
      · subst hij
        obtain ⟨p₀, hp₀, hin⟩ := h.seat i p hp
        have hnone : p.cards = [] := by
          unfold Player.cards
          rw [hin.hasHole, hin.waiting.mp hw]
          rfl
        rw [seatAt_setSeat_self (seatAt_lt hp), hp, Option.map_some, hnone]
        rfl
      · rw [seatAt_setSeat_ne hij]
    change ((t.setSeat i none).holeCards ++ _).Subperm _
    rw [hsame]
    exact h.cards
  fits := h.fits

/-! ## A hand as a run -/

/-- Whom an accepted operation folds. -/
def foldedBy (label : TableOp × TableError) : Set PlayerId :=
  {id | ∃ command, label = (.act command, .ok) ∧ command.type = .fold ∧ command.playerId = id}

theorem foldedBy_act (command : ActionCommand) (id : PlayerId) :
    id ∈ foldedBy (.act command, .ok) ↔ command.type = .fold ∧ command.playerId = id := by
  constructor
  · rintro ⟨c, hc, hfold, hid⟩
    simp only [Prod.mk.injEq, TableOp.act.injEq, and_true] at hc
    exact hc ▸ ⟨hfold, hid⟩
  · rintro ⟨hfold, hid⟩
    exact ⟨command, rfl, hfold, hid⟩

/-- An accepted action keeps the hand, up to a settlement. -/
theorem InHand.act {command : ActionCommand} {result : ActionResult}
    (h : InHand t₀ deck folds [] t) (ht : t.Awaiting) (hact : t.act command = .ok (result, t'))
    (hok : result.error = .ok) :
    ∃ u, InHand t₀ deck (folds ∪ foldedBy (.act command, .ok)) [] u ∧ u.Betting ∧ Shows u t' ∧
      Outcome u t' ∧ result = t'.report t.street := by
  have hshows := act_shows ht hact
  obtain ⟨i, p, q, u, -, hp, hid, hcan, hacted, -, hkind, hout, hres⟩ := act_spec ht hact hok
  obtain ⟨hactive, -⟩ := Player.canAct_iff.mp hcan
  obtain ⟨p₀, hp₀, hin⟩ := h.seat i p hp
  have hfresh : p.id ∉ folds := by
    intro hc
    have hplays : p₀.plays = true := by
      by_contra hc
      rw [hin.waiting.mpr (Bool.not_eq_true _ ▸ hc)] at hactive
      exact absurd hactive (by decide)
    rw [hin.folded.mpr ⟨hplays, hin.id ▸ hc⟩] at hactive
    exact absurd hactive (by decide)
  have hu : InHand t₀ deck (folds ∪ foldedBy (.act command, .ok)) [] u := by
    refine h.acted hacted hp ht.toBetting.seating (by rw [hactive]; decide) ?_ fun id hne => ?_
    · rw [Set.mem_union, foldedBy_act, or_iff_right hfresh]
      rcases hkind with ⟨hfold, rfl⟩ | ⟨hfold, hcont⟩
      · exact iff_of_true rfl ⟨hfold, hid.symm⟩
      · exact iff_of_false (contends_iff.mp hcont).1 fun hc => hfold hc.1
    · rw [Set.mem_union, foldedBy_act, or_iff_left]
      rintro ⟨-, rfl⟩
      exact hne hid.symm
  refine ⟨u, hu, hacted.betting hp ht.toBetting, ?_, hout, hres⟩
  refine Shows.trans (Shows.of_eq ?_ ?_ ?_) hshows <;> rw [hacted.frame] <;> rfl

theorem InHand.act_step {command : ActionCommand} (h : InHand t₀ deck folds [] t) (hi : t.Inv)
    (hstep : t.Steps (.act command, .ok) t') (hbet' : t'.street.betting = true) :
    InHand t₀ deck (folds ∪ foldedBy (.act command, .ok)) [] t' := by
  simp only [Steps, exec, Checked.bind_ok_iff, Checked.pure_ok_iff, Prod.exists,
    Prod.mk.injEq] at hstep
  obtain ⟨result, u, hcall, hok, rfl⟩ := hstep
  by_cases hawait : t.Awaiting
  · obtain ⟨u, hu, -, hshows, hout, -⟩ := h.act hawait hcall hok
    cases hout with
    | awaiting _ _ hsame => exact hu.paid hsame hshows
    | foldWin _ hwin =>
      rw [hwin.street] at hbet'
      exact absurd hbet' (by decide)
    | showdown _ hshow =>
      rw [hshow.street] at hbet'
      exact absurd hbet' (by decide)
  · exact absurd hok (act_refused hi hawait hcall).1

/-- One step inside a hand. -/
theorem InHand.step {label : TableOp × TableError} (h : InHand t₀ deck folds [] t) (hi : t.Inv)
    (hbet : t.street.betting = true) (hstep : t.Steps label t') (hbet' : t'.street.betting = true) :
    InHand t₀ deck (folds ∪ foldedBy label) [] t' := by
  obtain ⟨op, e⟩ := label
  have hrun := Street.running_of_betting hbet
  have hs := hi.seating
  by_cases hact : e = .ok ∧ ∃ command, op = .act command
  · obtain ⟨rfl, command, rfl⟩ := hact
    exact h.act_step hi hstep hbet'
  have hnone : foldedBy (op, e) = ∅ := by
    refine Set.eq_empty_iff_forall_notMem.mpr ?_
    rintro id ⟨command, hc, -⟩
    exact hact ⟨(Prod.mk.inj hc).2, command, (Prod.mk.inj hc).1⟩
  rw [hnone, Set.union_empty]
  cases op with
  | seatPlayer id seat buyIn =>
    rcases seatPlayer_cases (Except.ok.inj hstep) with ⟨-, rfl⟩ | ⟨-, hidle, -⟩
    · exact h
    · rw [hrun] at hidle
      exact absurd hidle (by decide)
  | removePlayer id =>
    rcases removePlayer_cases (Except.ok.inj hstep) with ⟨-, rfl⟩ |
      ⟨i, p, -, hp, -, hidle | hw, rfl⟩
    · exact h
    · rw [hrun] at hidle
      exact absurd hidle (by decide)
    · exact h.leave hp hw _ _
  | setReady id ready =>
    rcases setReady_cases hs (Except.ok.inj hstep) with ⟨-, rfl⟩ | ⟨-, hidle, -⟩
    · exact h
    · rw [hrun] at hidle
      exact absurd hidle (by decide)
  | setConnected id connected =>
    rcases setConnected_cases hs (Except.ok.inj hstep) with ⟨-, rfl⟩ | ⟨-, rfl⟩
    · exact h
    · exact h.sameBets (sameBets_ite (fun _ => rfl) id) _
  | startHand deck' =>
    rcases startHand_cases hs hstep with ⟨-, rfl, -⟩ | ⟨-, hidle, -⟩
    · exact h
    · rw [hrun] at hidle
      exact absurd hidle (by decide)
  | startHandWithDeck cards =>
    rcases startHandWithDeck_cases hstep with ⟨-, rfl⟩ | ⟨deck', -, hstart⟩
    · exact h
    · rcases startHand_cases hs hstart with ⟨-, rfl, -⟩ | ⟨-, hidle, -⟩
      · exact h
      · rw [hrun] at hidle
        exact absurd hidle (by decide)
  | abortHand =>
    rcases abortHand_cases hs (Except.ok.inj hstep) with ⟨-, rfl⟩ | ⟨-, -, hidle, -⟩
    · exact h
    · rw [hidle.street] at hbet'
      exact absurd hbet' (by decide)
  | act command =>
    simp only [Steps, exec, Checked.bind_ok_iff, Checked.pure_ok_iff, Prod.exists,
      Prod.mk.injEq] at hstep
    obtain ⟨result, u, hcall, rfl, rfl⟩ := hstep
    rcases act_cases hcall with ⟨-, rfl⟩ | ⟨_, _, _, -, -, -, -, -, -, -, -, rfl⟩
    · exact h
    · exact absurd ⟨rfl, command, rfl⟩ hact

/-- Whom the accepted operations of a trace folded. -/
def foldsOf (trace : List (Step Table (TableOp × TableError))) : Set PlayerId :=
  {id | ∃ step ∈ trace, id ∈ foldedBy step.label}

/-- **A run inside a hand keeps the hand.** -/
theorem InHand.run {trace : List (Step Table (TableOp × TableError))} {t₁ : Table}
    (h : InHand t₀ deck ∅ [] t₁) (hi : t₁.Inv) (hbet : t₁.street.betting = true)
    (hrun : Run Steps t₁ trace t) (hgoing : ∀ step ∈ trace, step.after.street.betting = true) :
    InHand t₀ deck (foldsOf trace) [] t ∧ t.Inv ∧ t.street.betting = true := by
  induction hrun with
  | nil =>
    have hempty : foldsOf [] = ∅ := by simp [foldsOf]
    exact ⟨hempty ▸ h, hi, hbet⟩
  | @snoc trace a b label hr hstep ih =>
    obtain ⟨hin, hia, hba⟩ := ih fun step hs => hgoing step (List.mem_append_left _ hs)
    have hbb : b.street.betting = true :=
      hgoing _ (List.mem_append_right _ (List.mem_singleton.mpr rfl))
    have hfolds : foldsOf (trace ++ [⟨a, label, b⟩]) = foldsOf trace ∪ foldedBy label := by
      ext id
      simp [foldsOf, or_and_right, exists_or]
    rw [hfolds]
    exact ⟨hin.step hia hba hstep hbb, exec_inv hia hstep, hbb⟩

end Table

/-! ## A hand from its deck to its settlement -/

/-- `op` starts a hand on `deck`. -/
inductive TableOp.Deals : TableOp → Deck → Prop
  | startHand (deck : FullDeck) : Deals (.startHand deck) deck.toDeck
  | startHandWithDeck {cards : List Card} {deck : Deck} (h : Deck.ofCards cards = .ok deck) :
      Deals (.startHandWithDeck cards) deck

/-- A hand starts on 52 distinct cards. -/
theorem TableOp.Deals.distinct {op : TableOp} {deck : Deck} (h : op.Deals deck) :
    Distinct deck.rest ∧ deck.rest.length = 52 := by
  cases h with
  | startHand deck =>
    unfold Deck.rest
    rw [deck.fresh, List.drop_zero]
    exact ⟨distinct_orderedDeck.subperm deck.perm.subperm, deck.perm.length_eq⟩
  | startHandWithDeck h =>
    obtain ⟨rfl, hlen, hd⟩ := Deck.ofCards_ok h
    exact ⟨hd, hlen⟩

theorem TableOp.Deals.start {op : TableOp} {deck : Deck} {t t' : Table} (h : op.Deals deck)
    (hstep : t.Steps (op, .ok) t') : t.startHand deck = .ok (.ok, t') := by
  cases h with
  | startHand deck => exact hstep
  | startHandWithDeck h =>
    rcases Table.startHandWithDeck_cases hstep with ⟨hne, -⟩ | ⟨deck', hdeck', hstart⟩
    · exact absurd rfl hne
    · rw [h, Except.ok.injEq] at hdeck'
      exact hdeck' ▸ hstart

namespace Table

/-- A hand that `act` settles: it is started on `t₀` by `op`, goes on through `trace`, and
`command`, accepted at `t`, settles it. -/
structure Played (t₀ : Table) (op : TableOp) (trace : List (Step Table (TableOp × TableError)))
    (t : Table) (command : ActionCommand) (result : ActionResult) (t' : Table) : Prop where
  run : ∃ t₁, t₀.Steps (op, .ok) t₁ ∧ t₁.street.betting = true ∧ Run Steps t₁ trace t
  going : ∀ step ∈ trace, step.after.street.betting = true
  act : t.act command = .ok (result, t')
  accepted : result.error = .ok
  settled : t'.street = .settled

/-- Whom the actions of a settled hand folded. -/
def foldsOfHand (trace : List (Step Table (TableOp × TableError))) (command : ActionCommand) :
    Set PlayerId := foldsOf trace ∪ foldedBy (.act command, .ok)

variable {t₀ t t' : Table} {deck : Deck} {op : TableOp} {command : ActionCommand}
  {result : ActionResult} {trace : List (Step Table (TableOp × TableError))}

/-- **A played hand ends in a settlement of the hand that was dealt.** -/
theorem Played.outcome (h : Played t₀ op trace t command result t') (hi : t₀.Inv)
    (hdeals : op.Deals deck) :
    2 ≤ t₀.readyPlayers ∧ result.awards = t'.lastAwards ∧
      ∃ u, InHand t₀ deck (foldsOfHand trace command) [] u ∧ u.Betting ∧ Shows u t' ∧
        Outcome u t' := by
  obtain ⟨t₁, hstart, hbet, hrun⟩ := h.run
  have hi₁ := exec_inv hi hstart
  obtain ⟨-, htwo, hstarted⟩ := startHand_spec hi.seating (hdeals.start hstart)
  have hin : InHand t₀ deck ∅ [] t₁ := by
    cases hstarted with
    | awaiting hopen _ _ => exact hopen.inHand hi.seating
    | showdown _ _ hshow _ =>
      rw [hshow.street] at hbet
      exact absurd hbet (by decide)
    | @stranded v hopen _ _ hsame =>
      subst hsame
      exact (hopen.inHand hi.seating).paid ((PaidFrom.refl v).ask ∅ none)
        (Shows.of_eq rfl rfl rfl)
  obtain ⟨hin, hit, hbt⟩ := hin.run hi₁ hbet hrun h.going
  have hawait : t.Awaiting := by
    by_contra hc
    exact (act_refused hit hc h.act).1 h.accepted
  obtain ⟨u, hu, hub, hshows, hout, hres⟩ := hin.act hawait h.act h.accepted
  refine ⟨htwo, ?_, u, hu, hub, hshows, hout⟩
  rw [hres]
  exact if_pos h.settled

end Table

end PokerServer

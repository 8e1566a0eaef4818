import PokerServer.Domain.BettingState

/-!
# The rules do not read the cards

`relabel f` replaces every card of a table by its image under `f`, whatever `f` is: two cards may
be merged into one. Up to the showdown no function of `Table` looks at a card, so each of them
commutes with `relabel f`; a function that can fail does so with the same fault on both sides,
`(t.relabel f).g = relabel f <$> t.g`. Only `settleShowdown` compares hands, and all that can be
said of two tables with the same relabelling is that both are settled by it (`Parallel`).
-/

namespace PokerServer

variable {f : Card → Card}

/-- The player with other cards in hand. -/
def Player.relabel (f : Card → Card) (p : Player) : Player :=
  { p with hole := (f p.hole.1, f p.hole.2) }

@[simp] theorem Player.relabel_id (p : Player) : (p.relabel f).id = p.id := rfl

/-- The deck with other cards at the same positions. -/
def Deck.relabel (f : Card → Card) (deck : Deck) : Deck :=
  { deck with cards := deck.cards.map f }

/-- The table with other cards in the same places. -/
def Table.relabel (f : Card → Card) (t : Table) : Table :=
  { t.mapSeats (Player.relabel f) with
    board := t.board.map f
    deck := t.deck.map (Deck.relabel f) }

/-- The view with other cards in the same places. -/
def PlayerView.relabel (f : Card → Card) (view : PlayerView) : PlayerView :=
  { view with holeCards := view.holeCards.map f }

/-- The snapshot with other cards in the same places. -/
def TableSnapshot.relabel (f : Card → Card) (snapshot : TableSnapshot) : TableSnapshot :=
  { snapshot with
    board := snapshot.board.map f
    players := snapshot.players.map (PlayerView.relabel f) }

/-! ## The deck -/

theorem Deck.draw_relabel (deck : Deck) :
    (deck.relabel f).draw = (fun r => (f r.1, r.2.relabel f)) <$> deck.draw := by
  have hnext : (deck.relabel f).cards[(deck.relabel f).next]? = (deck.cards[deck.next]?).map f :=
    List.getElem?_map
  unfold Deck.draw
  rw [hnext]
  cases deck.cards[deck.next]? with
  | none => rfl
  | some card => rfl

theorem Deck.burn_relabel (deck : Deck) :
    (deck.relabel f).burn = Deck.relabel f <$> deck.burn := by
  unfold Deck.burn
  rw [Deck.draw_relabel, bind_map_left, map_bind]
  simp only [map_pure]

namespace Table

variable {t t' : Table} {i : Nat} {p : Player}

/-! ## Seats and players -/

@[simp] theorem seatAt_relabel (t : Table) (i : Nat) :
    (t.relabel f).seatAt i = (t.seatAt i).map (Player.relabel f) :=
  seatAt_mapSeats t _ i

@[simp] theorem players_relabel (t : Table) :
    (t.relabel f).players = t.players.map (Player.relabel f) :=
  players_mapSeats t _

@[simp] theorem length_relabel (t : Table) : (t.relabel f).seats.length = t.seats.length :=
  length_mapSeats t _

theorem setSeat_relabel (t : Table) (i : Nat) (o : Option Player) :
    (t.relabel f).setSeat i (o.map (Player.relabel f)) = (t.setSeat i o).relabel f := by
  have hset : (t.seats.map (Option.map (Player.relabel f))).set i (o.map (Player.relabel f)) =
      (t.seats.set i o).map (Option.map (Player.relabel f)) := List.map_set.symm
  unfold setSeat relabel mapSeats
  rw [← hset]

theorem mapSeats_relabel (t : Table) {g : Player → Player}
    (hg : ∀ p, g (p.relabel f) = (g p).relabel f) :
    (t.relabel f).mapSeats g = (t.mapSeats g).relabel f := by
  have hcomp : Option.map g ∘ Option.map (Player.relabel f) =
      Option.map (Player.relabel f) ∘ Option.map g := by
    funext o
    simp only [Function.comp, Option.map_map]
    congr 1
    funext p
    exact hg p
  unfold mapSeats relabel mapSeats
  simp only [List.map_map, hcomp]

@[simp] theorem countP_relabel (t : Table) {c : Player → Bool}
    (hc : ∀ p, c (p.relabel f) = c p) : (t.relabel f).players.countP c = t.players.countP c := by
  rw [players_relabel, List.countP_map]
  exact congrArg (fun c => t.players.countP c) (funext hc)

@[simp] theorem findPlayer_relabel (t : Table) (id : PlayerId) :
    (t.relabel f).findPlayer id = (t.findPlayer id).map (Player.relabel f) := by
  unfold findPlayer
  rw [players_relabel, List.find?_map]
  rfl

@[simp] theorem seatOf_relabel (t : Table) (id : PlayerId) :
    (t.relabel f).seatOf id = t.seatOf id := by
  unfold seatOf
  change (t.seats.map (Option.map (Player.relabel f))).findIdx? _ = _
  rw [List.findIdx?_map]
  congr 1
  funext o
  cases o with
  | none => rfl
  | some p => rfl

theorem modifyPlayer_relabel (t : Table) (id : PlayerId) {g : Player → Player}
    (hg : ∀ p, g (p.relabel f) = (g p).relabel f) :
    (t.relabel f).modifyPlayer id g = (t.modifyPlayer id g).relabel f := by
  unfold modifyPlayer
  rw [seatOf_relabel]
  cases t.seatOf id with
  | none => rfl
  | some i =>
    simp only [seatAt_relabel, ← setSeat_relabel, Option.map_map]
    congr 2
    funext p
    exact hg p

/-! ## Counting and searching -/

@[simp] theorem contenders_relabel (t : Table) : (t.relabel f).contenders = t.contenders :=
  countP_relabel t fun _ => rfl

@[simp] theorem actionable_relabel (t : Table) : (t.relabel f).actionable = t.actionable :=
  countP_relabel t fun _ => rfl

@[simp] theorem readyPlayers_relabel (t : Table) : (t.relabel f).readyPlayers = t.readyPlayers :=
  countP_relabel t fun _ => rfl

@[simp] theorem potSize_relabel (t : Table) : (t.relabel f).potSize = t.potSize := by
  unfold potSize
  rw [players_relabel, List.map_map]
  rfl

/-- A test of a seat that reads no card. -/
theorem any_relabel {c : Player → Bool} (hc : ∀ p, c (p.relabel f) = c p) (t : Table) (i : Nat) :
    ((t.relabel f).seatAt i).any c = (t.seatAt i).any c := by
  rw [seatAt_relabel, Option.any_map]
  exact congrArg (fun c => (t.seatAt i).any c) (funext hc)

@[simp] theorem awaits_relabel (t : Table) : (t.relabel f).awaits = t.awaits := by
  funext i
  exact any_relabel (fun _ => rfl) t i

@[simp] theorem nextCanActSeat_relabel (t : Table) :
    (t.relabel f).nextCanActSeat = t.nextCanActSeat := by
  funext i
  unfold nextCanActSeat
  rw [awaits_relabel, length_relabel]

@[simp] theorem nextParticipatingSeat_relabel (t : Table) :
    (t.relabel f).nextParticipatingSeat = t.nextParticipatingSeat := by
  funext i
  unfold nextParticipatingSeat
  rw [length_relabel]
  simp only [any_relabel (f := f) (c := Player.participates) (fun _ => rfl) t]

@[simp] theorem participatingSeats_relabel (t : Table) :
    (t.relabel f).participatingSeats = t.participatingSeats := by
  unfold participatingSeats
  rw [length_relabel]
  simp only [any_relabel (f := f) (c := fun p => p.status == .active) (fun _ => rfl) t]

@[simp] theorem firstPostflopActor_relabel (t : Table) :
    (t.relabel f).firstPostflopActor = t.firstPostflopActor := by
  unfold firstPostflopActor
  rw [nextCanActSeat_relabel]
  rfl

@[simp] theorem bettingRoundComplete_relabel (t : Table) :
    (t.relabel f).bettingRoundComplete = t.bettingRoundComplete := by
  unfold bettingRoundComplete
  rw [contenders_relabel, players_relabel, List.all_map]
  rfl

/-- The ids of the players that pass a test that reads no card. -/
theorem ids_relabel (t : Table) {c : Player → Bool} (hc : ∀ p, c (p.relabel f) = c p) :
    (((t.relabel f).players.filter c).map (·.id)) = ((t.players.filter c).map (·.id)) := by
  rw [players_relabel, List.filter_map, List.map_map,
    show c ∘ Player.relabel f = c from funext hc]
  rfl

@[simp] theorem canActIds_relabel (t : Table) : (t.relabel f).canActIds = t.canActIds := by
  unfold canActIds
  rw [ids_relabel t fun _ => rfl]

/-! ## Streets -/

theorem theDeck_relabel (t : Table) : (t.relabel f).theDeck = Deck.relabel f <$> t.theDeck := by
  have hdeck : (t.relabel f).deck = t.deck.map (Deck.relabel f) := rfl
  unfold theDeck
  rw [hdeck]
  cases t.deck with
  | none => rfl
  | some deck => rfl

theorem revealFlop_relabel (t : Table) :
    (t.relabel f).revealFlop = relabel f <$> t.revealFlop := by
  unfold revealFlop
  simp only [theDeck_relabel, Deck.burn_relabel, Deck.draw_relabel, bind_map_left, map_bind,
    map_pure]
  unfold relabel mapSeats
  simp only [List.map_append, List.map_cons, List.map_nil, Option.map_some]

theorem revealOne_relabel (t : Table) :
    (t.relabel f).revealOne = relabel f <$> t.revealOne := by
  unfold revealOne
  simp only [theDeck_relabel, Deck.burn_relabel, Deck.draw_relabel, bind_map_left, map_bind,
    map_pure]
  unfold relabel mapSeats
  simp only [List.map_append, List.map_cons, List.map_nil, Option.map_some]

theorem clearStreet_relabel (t : Table) : (t.relabel f).clearStreet = t.clearStreet.relabel f := by
  have hmap := mapSeats_relabel (f := f) t (g := fun p => { p with streetCommitment := 0 })
    fun _ => rfl
  unfold clearStreet
  rw [hmap]
  rfl

theorem askEveryone_relabel (t : Table) : (t.relabel f).askEveryone = t.askEveryone.relabel f := by
  unfold askEveryone
  rw [canActIds_relabel]
  rfl

theorem advanceStreet_relabel (t : Table) :
    (t.relabel f).advanceStreet = relabel f <$> t.advanceStreet := by
  unfold advanceStreet
  rw [clearStreet_relabel]
  have hstreet : (t.clearStreet.relabel f).street = t.street := rfl
  have hcleared : t.clearStreet.street = t.street := rfl
  simp only [hstreet, hcleared]
  have hask : ∀ u : Table, relabel f u.askEveryone = (u.relabel f).askEveryone :=
    fun u => (askEveryone_relabel u).symm
  cases t.street with
  | preflop =>
    have hreveal := revealFlop_relabel (f := f) { t.clearStreet with street := .flop }
    simp only [map_bind, map_pure, hask]
    exact (congrArg (· >>= _) hreveal).trans (bind_map_left _ _ _)
  | flop =>
    have hreveal := revealOne_relabel (f := f) { t.clearStreet with street := .turn }
    simp only [map_bind, map_pure, hask]
    exact (congrArg (· >>= _) hreveal).trans (bind_map_left _ _ _)
  | turn =>
    have hreveal := revealOne_relabel (f := f) { t.clearStreet with street := .river }
    simp only [map_bind, map_pure, hask]
    exact (congrArg (· >>= _) hreveal).trans (bind_map_left _ _ _)
  | waiting => rfl
  | river => rfl
  | showdown => rfl
  | settled => rfl

theorem markSettled_relabel (t : Table) : (t.relabel f).markSettled = t.markSettled.relabel f := by
  have hmap := mapSeats_relabel (f := f) t (g := fun p => { p with ready := false }) fun _ => rfl
  unfold markSettled
  rw [hmap]
  rfl

theorem settleFoldWin_relabel (t : Table) :
    (t.relabel f).settleFoldWin = relabel f <$> t.settleFoldWin := by
  unfold settleFoldWin
  rw [players_relabel, List.find?_map,
    show Player.contends ∘ Player.relabel f = Player.contends from rfl]
  cases t.players.find? Player.contends with
  | none => rfl
  | some winner =>
    have hmod := modifyPlayer_relabel (f := f) t winner.id
      (g := fun p => { p with stack := p.stack + t.potSize }) fun _ => rfl
    simp only [Option.map_some, potSize_relabel, Player.relabel_id, hmod]
    exact congrArg Except.ok (markSettled_relabel
      { t.modifyPlayer winner.id fun p => { p with stack := p.stack + t.potSize } with
        lastAwards := [{ potSize := t.potSize, winners := [winner.id], equalShare := t.potSize }] })

theorem awaitActor_relabel (t : Table) : (t.relabel f).awaitActor = t.awaitActor.relabel f := by
  unfold awaitActor
  rw [nextCanActSeat_relabel, firstPostflopActor_relabel]
  change (if t.actingSeat.isSome then t.relabel f
    else if t.street = .preflop ∧ t.dealerSeat.isSome then _ else _) = _
  split_ifs <;> rfl

theorem selectNextActor_relabel (t : Table) (i : Nat) :
    (t.relabel f).selectNextActor i = (t.selectNextActor i).relabel f := by
  unfold selectNextActor
  rw [nextCanActSeat_relabel]
  rfl

/-! ## Acting -/

theorem lift_relabel (t : Table) (i : Nat) (p : Player) (target size : Int) :
    (t.relabel f).lift i (p.relabel f) target size = (t.lift i p target size).relabel f := by
  have hset := setSeat_relabel (f := f) t i (some (p.payTo target))
  have hids := fun (u : Table) (bet : Int) => ids_relabel (f := f) u (c := fun q => q.id != p.id
    && q.canAct && decide (q.streetCommitment < bet)) fun _ => rfl
  simp only [Option.map_some] at hset
  unfold lift
  simp only [show (p.relabel f).payTo target = (p.payTo target).relabel f from rfl, hset,
    Player.relabel_id, show (t.relabel f).minimumRaise = t.minimumRaise from rfl]
  split_ifs with hfull
  · have hcan := canActIds_relabel (f := f)
      { t.setSeat i (some (p.payTo target)) with currentBet := target, minimumRaise := size }
    unfold resetAfterFullRaise
    exact congrArg (fun ids => { relabel f (t.setSeat i (some (p.payTo target))) with
      currentBet := target, minimumRaise := size, pendingAction := ids.erase p.id,
      raiseAllowed := ids.erase p.id }) hcan
  · unfold addUnderCalledPlayers removeFromActionSets
    have hunder := hids { t.setSeat i (some (p.payTo target)) with currentBet := target } target
    exact congrArg (fun ids : List PlayerId => { relabel f (t.setSeat i (some (p.payTo target)))
      with
      currentBet := target, pendingAction := (t.pendingAction ∪ ids.toFinset).erase p.id,
      raiseAllowed := t.raiseAllowed.erase p.id }) hunder

theorem applyAction_relabel (t : Table) (i : Nat) (p : Player) (command : ActionCommand) :
    (t.relabel f).applyAction i (p.relabel f) command =
      relabel f <$> t.applyAction i p command := by
  have hset : ∀ q : Player,
      (.ok (((t.relabel f).setSeat i (some (q.relabel f))).removeFromActionSets p.id) :
        Except (TableError × String) Table) =
      relabel f <$> .ok ((t.setSeat i (some q)).removeFromActionSets p.id) := fun q =>
    congrArg (fun u : Table => Except.ok (u.removeFromActionSets p.id))
      (setSeat_relabel t i (some q))
  unfold applyAction
  simp only [lift_relabel, Player.relabel_id]
  cases command.type with
  | fold => exact hset { p with status := .folded }
  | check =>
    dsimp only
    change (if p.streetCommitment ≠ t.currentBet then _ else _) = _
    split_ifs <;> rfl
  | call =>
    dsimp only
    change (if t.currentBet ≤ p.streetCommitment then _ else _) = _
    split_ifs
    · rfl
    · exact hset (p.payTo (min t.currentBet (p.streetCommitment + p.stack)))
  | bet =>
    dsimp only
    change (if t.currentBet ≠ 0 then _ else if command.amount ≤ p.streetCommitment ∨
      p.streetCommitment + p.stack < command.amount then _ else if command.amount < t.minimumRaise ∧
      command.amount ≠ p.streetCommitment + p.stack then _ else _) = _
    split_ifs <;> rfl
  | raise =>
    dsimp only
    change (if t.currentBet = 0 then _ else if p.id ∉ t.raiseAllowed then _ else
      if command.amount ≤ t.currentBet ∨ p.streetCommitment + p.stack < command.amount then _ else
      if command.amount - t.currentBet < t.minimumRaise ∧
      command.amount ≠ p.streetCommitment + p.stack then _ else _) = _
    split_ifs <;> rfl
  | allIn =>
    dsimp only
    change (if p.stack ≤ 0 then _ else if p.streetCommitment + p.stack ≤ t.currentBet then _ else
      if p.id ∉ t.raiseAllowed then _ else _) = _
    split_ifs
    · rfl
    · exact hset (p.payTo (p.streetCommitment + p.stack))
    · rfl
    · rfl

/-! ## Starting a hand -/

theorem openHand_relabel (t : Table) (deck : Deck) :
    (t.relabel f).openHand (deck.relabel f) = (t.openHand deck).relabel f := by
  have hmap := mapSeats_relabel (f := f) t (g := Player.deal) fun _ => rfl
  unfold openHand
  rw [hmap]
  rfl

theorem moveButton_relabel (t : Table) (participants : List Nat) :
    (t.relabel f).moveButton participants = (t.moveButton participants).relabel f := by
  unfold moveButton
  rw [nextParticipatingSeat_relabel]
  rfl

theorem takeCard_relabel (round : Nat) (card : Card) (p : Player) :
    (p.relabel f).takeCard round (f card) = (p.takeCard round card).relabel f := by
  unfold Player.takeCard
  split_ifs <;> rfl

theorem dealRound_relabel {round : Nat} : ∀ (k : Nat) (t : Table) (seat : Option Nat),
    dealRound round k (t.relabel f) seat =
      (fun r => (r.1.relabel f, r.2)) <$> dealRound round k t seat
  | 0, t, seat => rfl
  | k + 1, t, none => rfl
  | k + 1, t, some i => by
    rw [dealRound, dealRound]
    simp only [seatAt_relabel]
    cases t.seatAt i with
    | none => rfl
    | some p =>
      simp only [Option.map_some, theDeck_relabel, Deck.draw_relabel, bind_map_left, map_bind]
      refine bind_congr fun deck => bind_congr fun drawn => ?_
      have hset := setSeat_relabel (f := f) t i (some (p.takeCard round drawn.1))
      rw [Option.map_some, ← takeCard_relabel] at hset
      let u : Table := { t.setSeat i (some (p.takeCard round drawn.1)) with deck := some drawn.2 }
      have hdealt : { (t.relabel f).setSeat i (some ((p.relabel f).takeCard round (f drawn.1))) with
          deck := some (drawn.2.relabel f) } = u.relabel f :=
        congrArg (fun u : Table => { u with deck := some (drawn.2.relabel f) }) hset
      calc dealRound round k _ _
        _ = dealRound round k (u.relabel f) ((u.relabel f).nextParticipatingSeat i) := by
          rw [← hdealt]
          rfl
        _ = dealRound round k (u.relabel f) (u.nextParticipatingSeat i) := by
          rw [nextParticipatingSeat_relabel]
        _ = _ := dealRound_relabel k u (u.nextParticipatingSeat i)

theorem dealHoleCards_relabel (t : Table) (seats : List Nat) :
    (t.relabel f).dealHoleCards seats = relabel f <$> t.dealHoleCards seats := by
  have hdealer : (t.relabel f).dealerSeat = t.dealerSeat := rfl
  unfold dealHoleCards
  rw [hdealer]
  cases t.dealerSeat with
  | none => rfl
  | some dealer =>
    simp only [nextParticipatingSeat_relabel, dealRound_relabel, bind_map_left, map_bind, map_pure]

theorem blindSeats_relabel (t : Table) (dealer n : Nat) :
    (t.relabel f).blindSeats dealer n = t.blindSeats dealer n := by
  unfold blindSeats
  rw [nextParticipatingSeat_relabel]

theorem postBlindAt_relabel (t : Table) (i : Nat) (blind : Int) :
    (t.relabel f).postBlindAt i blind = relabel f <$> t.postBlindAt i blind := by
  unfold postBlindAt
  rw [seatAt_relabel]
  cases t.seatAt i with
  | none => rfl
  | some p => exact congrArg Except.ok (setSeat_relabel t i (some (p.postBlind blind)))

theorem streetCommitmentAt_relabel (t : Table) (i : Nat) :
    (t.relabel f).streetCommitmentAt i = t.streetCommitmentAt i := by
  unfold streetCommitmentAt
  rw [seatAt_relabel, Option.map_map]
  rfl

theorem postBlinds_relabel (t : Table) (participants : List Nat) (s b : Nat) :
    (t.relabel f).postBlinds participants s b = relabel f <$> t.postBlinds participants s b := by
  have hids : ∀ u : Table, ((participants.filterMap (u.relabel f).seatAt).filter Player.canAct).map
      (·.id) = ((participants.filterMap u.seatAt).filter Player.canAct).map (·.id) := by
    intro u
    have hseats : (u.relabel f).seatAt = fun i => (u.seatAt i).map (Player.relabel f) :=
      funext fun i => seatAt_relabel u i
    rw [hseats, ← List.map_filterMap, List.filter_map, List.map_map]
    rfl
  unfold postBlinds
  simp only [postBlindAt_relabel, bind_map_left, map_bind, map_pure, hids,
    streetCommitmentAt_relabel]
  rfl

theorem setInitialActor_relabel (t : Table) (b n : Nat) :
    (t.relabel f).setInitialActor b n = (t.setInitialActor b n).relabel f := by
  unfold setInitialActor
  rw [nextCanActSeat_relabel, awaits_relabel, show (t.relabel f).dealerSeat = t.dealerSeat from rfl]
  split
  · split_ifs <;> rfl
  · rfl

/-! ## Seats during a hand -/

theorem removePlayer_relabel (t : Table) (id : PlayerId) :
    (t.relabel f).removePlayer id =
      ((t.removePlayer id).1, (t.removePlayer id).2.relabel f) := by
  unfold removePlayer
  rw [seatOf_relabel]
  cases t.seatOf id with
  | none => rfl
  | some i =>
    have hset := setSeat_relabel (f := f) t i none
    rw [Option.map_none] at hset
    simp only [any_relabel (f := f) (c := fun p => p.status != .waiting) (fun _ => rfl) t, hset,
      show (t.relabel f).street = t.street from rfl,
      show (t.relabel f).dealerSeat = t.dealerSeat from rfl]
    split_ifs <;> rfl

theorem setConnected_relabel (t : Table) (id : PlayerId) (connected : Bool) :
    (t.relabel f).setConnected id connected =
      ((t.setConnected id connected).1, (t.setConnected id connected).2.relabel f) := by
  have hmod := modifyPlayer_relabel (f := f) t id (g := fun p => { p with connected := connected })
    fun _ => rfl
  unfold setConnected
  rw [findPlayer_relabel]
  cases t.findPlayer id with
  | none => rfl
  | some p =>
    simp only [Option.map_some, hmod]
    rfl

/-! ## Views -/

theorem snapshot_relabel (t : Table) (viewer : Option PlayerId) :
    (t.relabel f).snapshot viewer = (t.snapshot viewer).relabel f := by
  have hid : ∀ seat : Option Nat, ((seat.bind (t.relabel f).seatAt).map (·.id)) =
      (seat.bind t.seatAt).map (·.id) := by
    intro seat
    cases seat with
    | none => rfl
    | some i =>
      simp only [Option.bind_some, seatAt_relabel, Option.map_map]
      rfl
  unfold snapshot
  rw [potSize_relabel, players_relabel, hid, hid]
  unfold TableSnapshot.relabel
  simp only [List.map_map]
  congr 1
  refine List.map_congr_left fun p _ => ?_
  simp only [Function.comp, PlayerView.relabel]
  congr 1
  change (if p.hasHole = true ∧ (viewer = some p.id ∨ t.street = .settled ∧ p.status ≠ .folded ∧
    p.status ≠ .waiting) then [f p.hole.1, f p.hole.2] else []) = _
  split_ifs <;> rfl

end Table

end PokerServer

import Mathlib.Algebra.Ring.Int.Defs
import Mathlib.Data.Finset.Basic
import Mathlib.Data.List.Sort
import PokerServer.Domain.HandEvaluator
import PokerServer.Lib.Clockwise

/-!
# The table state machine

Model of `include/poker/domain/table.hpp` and `src/poker/domain/table.cpp`: one definition per
member function, under its name.

* `seats_` is a list of optional players of length `max_players`; `seats_[i]` is `t.seatAt i`.
* `pending_action_` and `raise_allowed_` are finite sets of player ids.
* `Chips` are integers and the two counters `hand_id_` and `server_sequence_` natural numbers.
* A member function that can throw (or dereference nothing) returns `Except Fault`.
* `ActionResult& result`, which the settlement functions fill, only ever receives a copy of
  `last_awards_`; `act` reads it from the table once the hand is settled.
-/

namespace PokerServer

abbrev PlayerId := Nat

inductive Street where
  | waiting
  | preflop
  | flop
  | turn
  | river
  | showdown
  | settled
  deriving DecidableEq, Repr

inductive PlayerStatus where
  | waiting
  | active
  | folded
  | allIn
  | disconnected
  deriving DecidableEq, Repr

inductive ActionType where
  | fold
  | check
  | call
  | bet
  | raise
  | allIn
  deriving DecidableEq, Repr

inductive TableError where
  | ok
  | invalidConfiguration
  | seatOutOfRange
  | seatOccupied
  | playerAlreadySeated
  | playerNotFound
  | invalidBuyIn
  | handInProgress
  | notEnoughPlayers
  | playerNotReady
  | notPlayersTurn
  | playerCannotAct
  | actionNotAllowed
  | invalidAmount
  | minimumRaiseNotMet
  | serviceUnavailable
  deriving DecidableEq, Repr

structure TableConfig where
  minPlayers : Nat := 2
  maxPlayers : Nat := 6
  smallBlind : Int := 50
  bigBlind : Int := 100
  minBuyIn : Int := 2000
  maxBuyIn : Int := 20000
  deriving DecidableEq, Repr

/-- `Table::Player`. -/
structure Player where
  id : PlayerId
  seat : Nat
  stack : Int
  streetCommitment : Int := 0
  handCommitment : Int := 0
  status : PlayerStatus := .waiting
  ready : Bool := false
  connected : Bool := true
  hole : Card × Card := ({}, {})
  hasHole : Bool := false
  deriving DecidableEq, Repr

structure PlayerView where
  id : PlayerId := 0
  seat : Nat := 0
  stack : Int := 0
  streetCommitment : Int := 0
  handCommitment : Int := 0
  status : PlayerStatus := .waiting
  ready : Bool := false
  connected : Bool := true
  holeCards : List Card := []
  deriving DecidableEq, Repr

structure TableSnapshot where
  street : Street := .waiting
  handId : Nat := 0
  serverSequence : Nat := 0
  dealer : Option PlayerId := none
  actingPlayer : Option PlayerId := none
  currentBet : Int := 0
  minimumRaise : Int := 0
  pot : Int := 0
  board : List Card := []
  players : List PlayerView := []
  deriving DecidableEq, Repr

/-- For bet and raise `amount` is the target total commitment on this street. -/
structure ActionCommand where
  playerId : PlayerId := 0
  type : ActionType := .fold
  amount : Int := 0
  deriving DecidableEq, Repr

structure PotAward where
  potSize : Int := 0
  winners : List PlayerId := []
  equalShare : Int := 0
  oddChips : Int := 0
  deriving DecidableEq, Repr

/-- The chips the winner at `index` receives. -/
def PotAward.share (award : PotAward) (index : Nat) : Int :=
  award.equalShare + if (index : Int) < award.oddChips then 1 else 0

structure ActionResult where
  error : TableError := .ok
  message : String := ""
  serverSequence : Nat := 0
  awards : List PotAward := []
  actionStreet : Street := .waiting
  deriving DecidableEq, Repr

structure Table where
  config : TableConfig
  seats : List (Option Player)
  street : Street := .waiting
  dealerSeat : Option Nat := none
  actingSeat : Option Nat := none
  currentBet : Int := 0
  minimumRaise : Int := 0
  pendingAction : Finset PlayerId := ∅
  raiseAllowed : Finset PlayerId := ∅
  board : List Card := []
  deck : Option Deck := none
  handId : Nat := 0
  serverSequence : Nat := 0
  lastAwards : List PotAward := []
  deriving DecidableEq

/-- `handIsRunning`: preflop to showdown. -/
def handIsRunning : Street → Bool
  | .preflop | .flop | .turn | .river | .showdown => true
  | .waiting | .settled => false

/-- `Table::validateConfig`, over unbounded chips. -/
def TableConfig.validateConfig (config : TableConfig) : TableError :=
  if config.minPlayers < 2 ∨ config.maxPlayers < config.minPlayers ∨ 6 < config.maxPlayers
      ∨ config.smallBlind ≤ 0 ∨ config.bigBlind < config.smallBlind * 2 ∨ config.minBuyIn ≤ 0
      ∨ config.maxBuyIn < config.minBuyIn then .invalidConfiguration
  else .ok

namespace Player

/-- `Table::canAct`. -/
def canAct (player : Player) : Bool :=
  player.status == .active && decide (0 < player.stack)

/-- The test `contenders()` and `settleFoldWin` make. -/
def contends (player : Player) : Bool :=
  player.status == .active || player.status == .allIn || player.status == .disconnected

/-- The test of `nextParticipatingSeat`. -/
def participates (player : Player) : Bool :=
  player.status == .active || player.status == .allIn || player.status == .folded

/-- `payTo` of `Table::act`: pay up to `target` on this street. -/
def payTo (player : Player) (target : Int) : Player :=
  let payment := target - player.streetCommitment
  { player with
    stack := player.stack - payment
    streetCommitment := player.streetCommitment + payment
    handCommitment := player.handCommitment + payment
    status := if player.stack - payment = 0 then .allIn else player.status }

/-- `Table::postBlind`. -/
def postBlind (player : Player) (blind : Int) : Player :=
  let payment := min blind player.stack
  { player with
    stack := player.stack - payment
    streetCommitment := player.streetCommitment + payment
    handCommitment := player.handCommitment + payment
    status := if player.stack - payment = 0 then .allIn else player.status }

/-- The last loop of `Table::abortHand`: the commitment is returned. -/
def refund (player : Player) : Player :=
  { player with
    stack := player.stack + player.handCommitment
    streetCommitment := 0
    handCommitment := 0
    status := .waiting
    ready := false
    hasHole := false }

/-- The reset loop of `Table::startHand`: everybody ready with chips plays. -/
def deal (player : Player) : Player :=
  { player with
    streetCommitment := 0
    handCommitment := 0
    hasHole := false
    status := if player.ready ∧ 0 < player.stack then .active else .waiting }

end Player

namespace Table

/-- `Table::Table(TableConfig)`. -/
def new (config : TableConfig) : Table :=
  { config := config
    seats := List.replicate config.maxPlayers none
    minimumRaise := config.bigBlind }

/-- `seats_[index]`, with no player past the end. -/
def seatAt (t : Table) (index : Nat) : Option Player := (t.seats[index]?).join

/-- Write a player to a seat. -/
def setSeat (t : Table) (index : Nat) (player : Option Player) : Table :=
  { t with seats := t.seats.set index player }

/-- `for (auto& seat : seats_) if (seat.has_value()) …`. -/
def mapSeats (t : Table) (f : Player → Player) : Table :=
  { t with seats := t.seats.map (Option.map f) }

/-- The seated players, in seat order. -/
def players (t : Table) : List Player := t.seats.filterMap id

/-- `Table::findPlayer`. -/
def findPlayer (t : Table) (id : PlayerId) : Option Player :=
  t.players.find? fun player => player.id == id

/-- `Table::seatOf`. -/
def seatOf (t : Table) (id : PlayerId) : Option Nat :=
  t.seats.findIdx? fun seat => seat.any fun player => player.id == id

/-! ## Seats outside a hand -/

/-- `Table::seatPlayer`. -/
def seatPlayer (t : Table) (id : PlayerId) (seat : Nat) (buyIn : Int) : TableError × Table :=
  if t.config.validateConfig ≠ .ok then (.invalidConfiguration, t)
  else if handIsRunning t.street then (.handInProgress, t)
  else if t.seats.length ≤ seat then (.seatOutOfRange, t)
  else if (t.findPlayer id).isSome then (.playerAlreadySeated, t)
  else if (t.seatAt seat).isSome then (.seatOccupied, t)
  else if buyIn < t.config.minBuyIn ∨ t.config.maxBuyIn < buyIn then (.invalidBuyIn, t)
  else
    (.ok, { t.setSeat seat (some { id := id, seat := seat, stack := buyIn }) with
      serverSequence := t.serverSequence + 1 })

/-- `Table::removePlayer`. -/
def removePlayer (t : Table) (id : PlayerId) : TableError × Table :=
  match t.seatOf id with
  | none => (.playerNotFound, t)
  | some seat =>
    if handIsRunning t.street && (t.seatAt seat).any (·.status != .waiting) then
      (.handInProgress, t)
    else
      (.ok, { t.setSeat seat none with
        dealerSeat := if t.dealerSeat = some seat then none else t.dealerSeat
        serverSequence := t.serverSequence + 1 })

/-- Change the player `findPlayer id` finds. -/
def modifyPlayer (t : Table) (id : PlayerId) (f : Player → Player) : Table :=
  match t.seatOf id with
  | none => t
  | some seat => t.setSeat seat ((t.seatAt seat).map f)

/-- `Table::setReady`. -/
def setReady (t : Table) (id : PlayerId) (ready : Bool) : TableError × Table :=
  if handIsRunning t.street then (.handInProgress, t)
  else match t.findPlayer id with
    | none => (.playerNotFound, t)
    | some player =>
      if ready ∧ player.stack ≤ 0 then (.invalidBuyIn, t)
      else
        (.ok, { t.modifyPlayer id (fun p => { p with ready := ready }) with
          serverSequence := t.serverSequence + 1 })

/-- `Table::setConnected`. -/
def setConnected (t : Table) (id : PlayerId) (connected : Bool) : TableError × Table :=
  match t.findPlayer id with
  | none => (.playerNotFound, t)
  | some _ =>
    (.ok, { t.modifyPlayer id (fun p => { p with connected := connected }) with
      serverSequence := t.serverSequence + 1 })

/-! ## Counting and searching -/

/-- `Table::participatingSeats`. -/
def participatingSeats (t : Table) : List Nat :=
  (List.range t.seats.length).filter fun i => (t.seatAt i).any (·.status == .active)

/-- `Table::nextParticipatingSeat`. -/
def nextParticipatingSeat (t : Table) (start : Nat) : Option Nat :=
  Clockwise.next (fun i => (t.seatAt i).any Player.participates) t.seats.length start

/-- The test of `nextCanActSeat`. -/
def awaits (t : Table) (index : Nat) : Bool :=
  (t.seatAt index).any fun player => player.canAct && decide (player.id ∈ t.pendingAction)

/-- `Table::nextCanActSeat`. -/
def nextCanActSeat (t : Table) (start : Nat) : Option Nat :=
  Clockwise.next t.awaits t.seats.length start

/-- `Table::firstPostflopActor`. -/
def firstPostflopActor (t : Table) : Option Nat :=
  t.dealerSeat.bind t.nextCanActSeat

/-- `Table::contenders`. -/
def contenders (t : Table) : Nat := t.players.countP Player.contends

/-- The `count_if` over `canAct` of `startHand` and `advanceUntilActionOrSettlement`. -/
def actionable (t : Table) : Nat := t.players.countP Player.canAct

/-- `Table::potSize`. -/
def potSize (t : Table) : Int := (t.players.map (·.handCommitment)).sum

/-- `Table::totalChips`. -/
def totalChips (t : Table) : Int :=
  (t.players.map fun player =>
    player.stack + if t.street = .settled then 0 else player.handCommitment).sum

/-- `Table::bettingRoundComplete`. -/
def bettingRoundComplete (t : Table) : Bool :=
  decide (t.contenders ≤ 1) || t.players.all fun player =>
    !player.canAct
      || !(decide (player.id ∈ t.pendingAction) || player.streetCommitment != t.currentBet)

/-! ## The action sets -/

/-- The ids of the players who can act. -/
def canActIds (t : Table) : Finset PlayerId :=
  ((t.players.filter Player.canAct).map (·.id)).toFinset

/-- `Table::removeFromActionSets`. -/
def removeFromActionSets (t : Table) (id : PlayerId) : Table :=
  { t with
    pendingAction := t.pendingAction.erase id
    raiseAllowed := t.raiseAllowed.erase id }

/-- `Table::resetAfterFullRaise`. -/
def resetAfterFullRaise (t : Table) (raiser : PlayerId) : Table :=
  { t with
    pendingAction := t.canActIds.erase raiser
    raiseAllowed := t.canActIds.erase raiser }

/-- `Table::addUnderCalledPlayers`. -/
def addUnderCalledPlayers (t : Table) (actor : PlayerId) : Table :=
  { t with
    pendingAction := t.pendingAction ∪
      ((t.players.filter fun player => player.id != actor && player.canAct
        && decide (player.streetCommitment < t.currentBet)).map (·.id)).toFinset }

/-! ## Streets -/

/-- The deck, which is set while a hand runs. -/
def theDeck (t : Table) : Except Fault Deck :=
  match t.deck with
  | none => .error .badAccess
  | some deck => .ok deck

/-- `Table::revealFlop`. -/
def revealFlop (t : Table) : Except Fault Table := do
  let deck ← t.theDeck
  let deck ← deck.burn
  let (first, deck) ← deck.draw
  let (second, deck) ← deck.draw
  let (third, deck) ← deck.draw
  return { t with board := t.board ++ [first, second, third], deck := some deck }

/-- `Table::revealOne`. -/
def revealOne (t : Table) : Except Fault Table := do
  let deck ← t.theDeck
  let deck ← deck.burn
  let (card, deck) ← deck.draw
  return { t with board := t.board ++ [card], deck := some deck }

/-- The first half of `Table::advanceStreet`: no commitment on the new street yet. -/
def clearStreet (t : Table) : Table :=
  { t.mapSeats (fun player => { player with streetCommitment := 0 }) with
    currentBet := 0
    minimumRaise := t.config.bigBlind
    pendingAction := ∅
    raiseAllowed := ∅ }

/-- The last loop of `Table::advanceStreet`: everybody who can act is asked. -/
def askEveryone (t : Table) : Table :=
  { t with pendingAction := t.canActIds, raiseAllowed := t.canActIds }

/-- `Table::advanceStreet`. -/
def advanceStreet (t : Table) : Except Fault Table := do
  let t := t.clearStreet
  let t ← match t.street with
    | .preflop => revealFlop { t with street := .flop }
    | .flop => revealOne { t with street := .turn }
    | .turn => revealOne { t with street := .river }
    | _ => .error (.logicError "cannot advance the current street")
  return t.askEveryone

/-! ## Settlement -/

/-- `Table::markSettled`. -/
def markSettled (t : Table) : Table :=
  { t.mapSeats (fun player => { player with ready := false }) with
    street := .settled
    actingSeat := none
    pendingAction := ∅
    raiseAllowed := ∅
    currentBet := 0
    serverSequence := t.serverSequence + 1 }

/-- `Table::settleFoldWin`. -/
def settleFoldWin (t : Table) : Except Fault Table :=
  match t.players.find? Player.contends with
  | none => .error (.logicError "fold settlement has no winner")
  | some winner =>
    let pot := t.potSize
    let t := t.modifyPlayer winner.id fun player => { player with stack := player.stack + pot }
    let award : PotAward := { potSize := pot, winners := [winner.id], equalShare := pot }
    .ok (markSettled { t with lastAwards := [award] })

/-- The distance of a seat from the dealer's left, the dealer last. -/
def clockwiseDistance (t : Table) (id : PlayerId) : Nat :=
  let origin := t.dealerSeat.getD 0
  let distance := ((t.seatOf id).getD 0 + t.seats.length - origin) % t.seats.length
  if distance = 0 then t.seats.length else distance

/-- `Table::orderedClockwise`. `seatOf(id).value()` throws for an id without a seat. -/
def orderedClockwise (t : Table) (ids : List PlayerId) : Except Fault (List PlayerId) :=
  if ids.any fun id => (t.seatOf id).isNone then .error .badAccess
  else .ok (ids.insertionSort fun lhs rhs => t.clockwiseDistance lhs ≤ t.clockwiseDistance rhs)

/-- One round of the winner loop: `best` and the ids holding it. -/
def compareHand (board : List Card) (best : Option (HandValue × List PlayerId))
    (player : Player) : Except Fault (Option (HandValue × List PlayerId)) := do
  let value ← evaluateBest (board ++ [player.hole.1, player.hole.2])
  match best with
  | none => return some (value, [player.id])
  | some (best, winners) =>
    if best.lt value then return some (value, [player.id])
    else if value = best then return some (best, winners ++ [player.id])
    else return some (best, winners)

/-- The payment loop over the winners. -/
def payWinners (award : PotAward) : Table → Nat → List PlayerId → Except Fault Table
  | t, _, [] => .ok t
  | t, index, id :: ids =>
    match t.seatOf id with
    | none => .error .badAccess
    | some _ =>
      payWinners award
        (t.modifyPlayer id fun player => { player with stack := player.stack + award.share index })
        (index + 1) ids

/-- The players who put at least `level` into the pot. -/
def contributors (t : Table) (level : Int) : List Player :=
  t.players.filter fun player => decide (level ≤ player.handCommitment)

/-- The contributors who still compete for the layer. -/
def eligible (t : Table) (level : Int) : List Player :=
  (t.contributors level).filter fun player =>
    player.status != .folded && player.status != .waiting

/-- One layer of `buildAndAwardPots`: the chips between `previous` and `level`. -/
def awardLayer (t : Table) (awards : List PotAward) (previous level : Int) :
    Except Fault (Table × List PotAward) :=
  let pot := (level - previous) * ((t.contributors level).length : Int)
  if pot ≤ 0 ∨ t.eligible level = [] then .ok (t, awards)
  else do
    let best ← (t.eligible level).foldlM (compareHand t.board) none
    let winners ← t.orderedClockwise ((best.map Prod.snd).getD [])
    let award : PotAward :=
      { potSize := pot
        winners := winners
        equalShare := pot.tdiv (winners.length : Int)
        oddChips := pot.tmod (winners.length : Int) }
    let t ← payWinners award t 0 winners
    return (t, awards ++ [award])

/-- The loop over the levels. -/
def awardLayers : Table → List PotAward → Int → List Int → Except Fault (Table × List PotAward)
  | t, awards, _, [] => .ok (t, awards)
  | t, awards, previous, level :: levels => do
    let (t, awards) ← t.awardLayer awards previous level
    awardLayers t awards level levels

/-- `std::unique` on a sorted range. -/
def dedupSorted : List Int → List Int
  | [] => []
  | [x] => [x]
  | x :: y :: rest => if x = y then dedupSorted (y :: rest) else x :: dedupSorted (y :: rest)

/-- `levels`: the positive commitments, sorted, once each. -/
def levels (t : Table) : List Int :=
  dedupSorted (((t.players.map (·.handCommitment)).filter fun c => decide (0 < c)).insertionSort
    (· ≤ ·))

/-- `Table::buildAndAwardPots`. -/
def buildAndAwardPots (t : Table) : Except Fault (Table × List PotAward) :=
  awardLayers t [] 0 t.levels

/-- The loop of `settleShowdown` that completes the board: at most five rounds are needed. -/
def completeBoard : Nat → Table → Except Fault Table
  | 0, t => .ok t
  | fuel + 1, t =>
    if t.board.length < 5 then do
      let t ← if t.board = [] then t.revealFlop else t.revealOne
      completeBoard fuel t
    else .ok t

/-- `Table::settleShowdown`. -/
def settleShowdown (t : Table) : Except Fault Table := do
  let t ← completeBoard 5 { t with street := .showdown }
  let (t, awards) ← t.buildAndAwardPots
  return markSettled { t with lastAwards := awards }

/-! ## The betting rounds -/

/-- `Table::selectNextActor`. -/
def selectNextActor (t : Table) (previousSeat : Nat) : Table :=
  { t with actingSeat := t.nextCanActSeat previousSeat }

/-- The wait at the top of the loop: name an actor if there is none. -/
def awaitActor (t : Table) : Table :=
  if t.actingSeat.isSome then t
  else if t.street = .preflop ∧ t.dealerSeat.isSome then
    { t with actingSeat := t.dealerSeat.bind t.nextCanActSeat }
  else { t with actingSeat := t.firstPostflopActor }

/-- The loop of `Table::advanceUntilActionOrSettlement`. Each round past the first is on a later
street, so four rounds are enough from the preflop on. -/
def advanceLoop : Nat → Table → Except Fault Table
  | 0, _ => .error (.logicError "cannot advance the current street")
  | fuel + 1, t =>
    if t.contenders ≤ 1 then t.settleFoldWin
    else if !t.bettingRoundComplete then .ok t.awaitActor
    else if t.street = .river then t.settleShowdown
    else do
      let t ← t.advanceStreet
      if t.actionable ≤ 1 then
        advanceLoop fuel { t with pendingAction := ∅, actingSeat := none }
      else return { t with actingSeat := t.firstPostflopActor }

/-- `Table::advanceUntilActionOrSettlement`. -/
def advanceUntilActionOrSettlement (t : Table) : Except Fault Table := advanceLoop 4 t

/-! ## Starting a hand -/

/-- One card to `seat`, and to the seats after it: the inner loop of `dealHoleCards`. -/
def dealRound (round : Nat) : Nat → Table → Option Nat → Except Fault (Table × Option Nat)
  | 0, t, seat => .ok (t, seat)
  | dealt + 1, t, seat =>
    match seat with
    | none => .error .badAccess
    | some index =>
      match t.seatAt index with
      | none => .error .badAccess
      | some player => do
        let deck ← t.theDeck
        let (card, deck) ← deck.draw
        let hole := if round = 0 then (card, player.hole.2) else (player.hole.1, card)
        let t := { t.setSeat index (some { player with hole := hole, hasHole := true }) with
          deck := some deck }
        dealRound round dealt t (t.nextParticipatingSeat index)

/-- `Table::dealHoleCards`. -/
def dealHoleCards (t : Table) (seats : List Nat) : Except Fault Table :=
  match t.dealerSeat with
  | none => .error (.logicError "dealer must be selected before dealing")
  | some dealer => do
    let (t, seat) ← dealRound 0 seats.length t (t.nextParticipatingSeat dealer)
    let (t, _) ← dealRound 1 seats.length t seat
    return t

/-- `postBlind(*seats_[seat], blind)`. -/
def postBlindAt (t : Table) (seat : Nat) (blind : Int) : Except Fault Table :=
  match t.seatAt seat with
  | none => .error .badAccess
  | some player => .ok (t.setSeat seat (some (player.postBlind blind)))

/-- `seats_[seat]->street_commitment`. -/
def streetCommitmentAt (t : Table) (seat : Nat) : Int :=
  ((t.seatAt seat).map (·.streetCommitment)).getD 0

/-- The seats of the blinds: heads up the dealer posts the small blind. -/
def blindSeats (t : Table) (dealer participants : Nat) : Except Fault (Nat × Nat) :=
  let small := if 2 < participants then t.nextParticipatingSeat dealer else some dealer
  match small with
  | none => .error .badAccess
  | some small =>
    match t.nextParticipatingSeat small with
    | none => .error .badAccess
    | some big => .ok (small, big)

/-- `Table::setInitialActor`. -/
def setInitialActor (t : Table) (bigBlindSeat participantCount : Nat) : Table :=
  match t.dealerSeat with
  | some dealer =>
    if participantCount = 2 then
      if t.awaits dealer then { t with actingSeat := some dealer }
      else { t with actingSeat := t.nextCanActSeat dealer }
    else { t with actingSeat := t.nextCanActSeat bigBlindSeat }
  | none => { t with actingSeat := t.nextCanActSeat bigBlindSeat }

/-- The state of `startHand` once the player count was checked. -/
def openHand (t : Table) (deck : Deck) : Table :=
  { t.mapSeats Player.deal with
    deck := some deck
    board := []
    lastAwards := []
    currentBet := 0
    minimumRaise := t.config.bigBlind
    pendingAction := ∅
    raiseAllowed := ∅
    actingSeat := none
    street := .preflop
    handId := t.handId + 1
    serverSequence := t.serverSequence + 1 }

/-- The button moves to the next participant. -/
def moveButton (t : Table) (participants : List Nat) : Table :=
  { t with dealerSeat :=
    match t.dealerSeat with
    | none => participants.head?
    | some dealer => (t.nextParticipatingSeat dealer).or participants.head? }

/-- Post both blinds and ask every participant who still can act. -/
def postBlinds (t : Table) (participants : List Nat) (smallSeat bigSeat : Nat) :
    Except Fault Table := do
  let t ← t.postBlindAt smallSeat t.config.smallBlind
  let t ← t.postBlindAt bigSeat t.config.bigBlind
  let ids := ((participants.filterMap t.seatAt).filter Player.canAct).map (·.id)
  return { t with
    currentBet := max (t.streetCommitmentAt smallSeat) (t.streetCommitmentAt bigSeat)
    pendingAction := t.pendingAction ∪ ids.toFinset
    raiseAllowed := t.raiseAllowed ∪ ids.toFinset }

/-- `Table::startHand(std::unique_ptr<Deck>)` from the deal on. -/
def playHand (t : Table) (participants : List Nat) : Except Fault Table := do
  let t ← t.dealHoleCards participants
  let (smallSeat, bigSeat) ← t.blindSeats (t.dealerSeat.getD 0) participants.length
  let t ← t.postBlinds participants smallSeat bigSeat
  let t := t.setInitialActor bigSeat participants.length
  if t.actionable ≤ 1 then
    advanceUntilActionOrSettlement { t with pendingAction := ∅, actingSeat := none }
  else return t

/-- The players `startHand` counts as ready. -/
def readyPlayers (t : Table) : Nat :=
  t.players.countP fun player => player.ready && decide (0 < player.stack)

/-- `Table::startHand(std::unique_ptr<Deck>)`. -/
def startHand (t : Table) (deck : Deck) : Except Fault (TableError × Table) :=
  if t.config.validateConfig ≠ .ok then .ok (.invalidConfiguration, t)
  else if handIsRunning t.street then .ok (.handInProgress, t)
  else if t.readyPlayers < t.config.minPlayers then .ok (.notEnoughPlayers, t)
  else
    let t := t.openHand deck
    let participants := t.participatingSeats
    if participants.length < t.config.minPlayers then
      .ok (.notEnoughPlayers, { t with street := .waiting })
    else do
      let t ← (t.moveButton participants).playHand participants
      return (.ok, t)

/-- `Table::startHandWithDeck`: `std::invalid_argument` is caught. Only the deck's constructor
throws it here, since any seven cards of a deck it accepts have distinct indices. -/
def startHandWithDeck (t : Table) (cards : List Card) : Except Fault (TableError × Table) :=
  match Deck.ofCards cards with
  | .error _ => .ok (.invalidConfiguration, t)
  | .ok deck => t.startHand deck

/-- The first loop of `abortHand`: the awards are taken back. -/
def revokeAwards (t : Table) : Table :=
  t.lastAwards.foldl (fun t award =>
    award.winners.zipIdx.foldl (fun t winner =>
      t.modifyPlayer winner.1 fun player =>
        { player with stack := player.stack - award.share winner.2 }) t) t

/-- `Table::abortHand`. -/
def abortHand (t : Table) : TableError × Table :=
  if t.street = .waiting then (.actionNotAllowed, t)
  else
    let revoked := if t.street = .settled then t.revokeAwards else t
    (.ok, { revoked.mapSeats Player.refund with
      street := .waiting
      actingSeat := none
      currentBet := 0
      minimumRaise := t.config.bigBlind
      pendingAction := ∅
      raiseAllowed := ∅
      board := []
      deck := none
      lastAwards := []
      serverSequence := t.serverSequence + 1 })

/-! ## Acting -/

/-- `Table::fail`. -/
def fail (t : Table) (error : TableError) (message : String) : ActionResult :=
  { error := error, message := message, serverSequence := t.serverSequence }

/-- The end of the bet, raise and all-in cases: `target` is the new bet. -/
def lift (t : Table) (index : Nat) (player : Player) (target raiseSize : Int) : Table :=
  let full := t.minimumRaise ≤ raiseSize
  let t := { t.setSeat index (some (player.payTo target)) with currentBet := target }
  if full then { t with minimumRaise := raiseSize }.resetAfterFullRaise player.id
  else (t.addUnderCalledPlayers player.id).removeFromActionSets player.id

/-- The `switch` of `Table::act`: the error and its text, or the table after the action. -/
def applyAction (t : Table) (index : Nat) (player : Player) (command : ActionCommand) :
    Except (TableError × String) Table :=
  let available := player.streetCommitment + player.stack
  match command.type with
  | .fold =>
    .ok ((t.setSeat index (some { player with status := .folded })).removeFromActionSets player.id)
  | .check =>
    if player.streetCommitment ≠ t.currentBet then
      .error (.actionNotAllowed, "check is only legal when no chips are owed")
    else .ok (t.removeFromActionSets player.id)
  | .call =>
    if t.currentBet ≤ player.streetCommitment then
      .error (.actionNotAllowed, "there is no bet to call")
    else
      .ok ((t.setSeat index (some (player.payTo (min t.currentBet available)))).removeFromActionSets
        player.id)
  | .bet =>
    if t.currentBet ≠ 0 then
      .error (.actionNotAllowed, "an existing bet must be raised, not bet again")
    else if command.amount ≤ player.streetCommitment ∨ available < command.amount then
      .error (.invalidAmount, "bet target is outside the player's available stack")
    else if command.amount < t.minimumRaise ∧ command.amount ≠ available then
      .error (.minimumRaiseNotMet, "bet is below the table minimum")
    else .ok (t.lift index player command.amount command.amount)
  | .raise =>
    if t.currentBet = 0 then
      .error (.actionNotAllowed, "raise requires an existing bet")
    else if player.id ∉ t.raiseAllowed then
      .error (.actionNotAllowed, "a short all-in did not reopen raising")
    else if command.amount ≤ t.currentBet ∨ available < command.amount then
      .error (.invalidAmount, "raise target must exceed the current bet and fit the stack")
    else if command.amount - t.currentBet < t.minimumRaise ∧ command.amount ≠ available then
      .error (.minimumRaiseNotMet, "raise increment is below the minimum raise")
    else .ok (t.lift index player command.amount (command.amount - t.currentBet))
  | .allIn =>
    if player.stack ≤ 0 then
      .error (.playerCannotAct, "the player has no chips left")
    else if available ≤ t.currentBet then
      .ok ((t.setSeat index (some (player.payTo available))).removeFromActionSets player.id)
    else if player.id ∉ t.raiseAllowed then
      .error (.actionNotAllowed, "raising was not reopened for this player")
    else .ok (t.lift index player available (available - t.currentBet))

/-- `Table::act` after the switch: settle, deal on or pass the action. -/
def concludeAction (t : Table) (previousSeat : Nat) : Except Fault Table :=
  if t.contenders ≤ 1 then t.settleFoldWin
  else if t.bettingRoundComplete then
    advanceUntilActionOrSettlement { t with actingSeat := none }
  else .ok (t.selectNextActor previousSeat)

/-- The result `succeed()` starts and the end of `act` completes. -/
def report (t : Table) (actionStreet : Street) : ActionResult :=
  { serverSequence := t.serverSequence
    awards := if t.street = .settled then t.lastAwards else []
    actionStreet := actionStreet }

/-- `Table::act`. -/
def act (t : Table) (command : ActionCommand) : Except Fault (ActionResult × Table) :=
  if !handIsRunning t.street || t.street == .showdown then
    .ok (t.fail .actionNotAllowed "no betting round is active", t)
  else match t.actingSeat with
    | none =>
      .ok (t.fail .notPlayersTurn "the command was not sent by the acting player", t)
    | some index =>
      match t.seatAt index with
      | none => .ok (t.fail .notPlayersTurn "the command was not sent by the acting player", t)
      | some player =>
        if player.id ≠ command.playerId then
          .ok (t.fail .notPlayersTurn "the command was not sent by the acting player", t)
        else if !player.canAct || decide (player.id ∉ t.pendingAction) then
          .ok (t.fail .playerCannotAct "the player cannot act in this betting round", t)
        else match t.applyAction index player command with
          | .error (error, message) => .ok (t.fail error message, t)
          | .ok acted => do
            let acted := { acted with serverSequence := acted.serverSequence + 1 }
            let settled ← acted.concludeAction player.seat
            return (settled.report t.street, settled)

/-! ## Views -/

/-- `Table::snapshot`. -/
def snapshot (t : Table) (viewer : Option PlayerId) : TableSnapshot :=
  { street := t.street
    handId := t.handId
    serverSequence := t.serverSequence
    dealer := (t.dealerSeat.bind t.seatAt).map (·.id)
    actingPlayer := (t.actingSeat.bind t.seatAt).map (·.id)
    currentBet := t.currentBet
    minimumRaise := t.minimumRaise
    pot := if t.street = .settled then 0 else t.potSize
    board := t.board
    players := t.players.map fun player =>
      let ownCards := viewer = some player.id
      let showdownCards :=
        t.street = .settled ∧ player.status ≠ .folded ∧ player.status ≠ .waiting
      { id := player.id
        seat := player.seat
        stack := player.stack
        streetCommitment := player.streetCommitment
        handCommitment := player.handCommitment
        status := player.status
        ready := player.ready
        connected := player.connected
        holeCards := if player.hasHole ∧ (ownCards ∨ showdownCards) then
            [player.hole.1, player.hole.2] else [] } }

/-- `Table::auditSnapshot`. -/
def auditSnapshot (t : Table) : TableSnapshot :=
  let result := t.snapshot none
  { result with
    players := result.players.map fun view =>
      match t.findPlayer view.id with
      | some source =>
        if source.hasHole then { view with holeCards := [source.hole.1, source.hole.2] } else view
      | none => view }

end Table

end PokerServer

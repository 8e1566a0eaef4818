import PokerServer.Domain.Integrity
import PokerServer.Domain.Relabel
import PokerServer.Lib.Lockstep

/-!
# Hidden cards do not influence or leak through play

Two runs from one table: the same operations, but the hand is dealt from two decks. If `f` maps
both decks to the same list, the tables of the two runs have the same relabelling under `f` as long
as the betting lasts (`respond_level`), since no rule before the showdown reads a card.

* With a constant `f` this holds of any two decks, so the two runs answer alike.
* With an `f` that keeps the cards shown to a viewer and merges all others it holds of two decks
  that agree where these cards lie, so the viewer sees the same (`snapshot_eq_of_relabel`).
-/

namespace PokerServer

/-- What the caller of an operation gets back, the payout apart. Only `act` returns a text; the
other operations return their code, and `server_sequence()` is read from the table. -/
structure TableReply where
  error : TableError
  message : String := ""
  serverSequence : Nat
  deriving DecidableEq, Repr

/-- The operations that may follow while a hand is played. -/
def TableOp.later : TableOp → Bool
  | .act _ | .setConnected _ _ | .setReady _ _ | .seatPlayer _ _ _ | .removePlayer _ => true
  | .startHand _ | .startHandWithDeck _ | .abortHand => false

/-! ## The cards of a snapshot -/

namespace TableSnapshot

variable {f : Card → Card} {snapshot : TableSnapshot}

/-- The cards a snapshot holds. -/
def cards (snapshot : TableSnapshot) : List Card :=
  snapshot.board ++ snapshot.players.flatMap (·.holeCards)

theorem cards_relabel (snapshot : TableSnapshot) :
    (snapshot.relabel f).cards = snapshot.cards.map f := by
  unfold cards relabel
  simp only [List.map_append, List.flatMap_map, List.map_flatMap]
  rfl

theorem relabel_eq_self (h : ∀ card ∈ snapshot.cards, f card = card) :
    snapshot.relabel f = snapshot := by
  have hfix : ∀ cards : List Card, (∀ card ∈ cards, f card = card) → cards.map f = cards :=
    fun cards hcards => (List.map_congr_left hcards).trans (List.map_id' cards)
  have hplayers : snapshot.players.map (PlayerView.relabel f) = snapshot.players := by
    refine (List.map_congr_left fun view hview => ?_).trans (List.map_id' _)
    unfold PlayerView.relabel
    rw [hfix view.holeCards fun card hcard => h card
      (List.mem_append_right _ (List.mem_flatMap.mpr ⟨view, hview, hcard⟩))]
  unfold relabel
  rw [hplayers, hfix snapshot.board fun card hcard => h card (List.mem_append_left _ hcard)]

end TableSnapshot

namespace Table

variable {f : Card → Card} {t t' u v : Table} {x y : Except Fault Table} {r r' : TableReply}
  {op : TableOp} {command : ActionCommand}

/-! ## Two tables with the same relabelling -/

/-- What reads no card is the same on both. -/
theorem eq_of_relabel {α : Type} {g : Table → α} (hg : ∀ t, g (t.relabel f) = g t)
    (h : t.relabel f = t'.relabel f) : g t = g t' := by
  rw [← hg t, h, hg]

/-- What moves the cards about without reading them leaves both alike. -/
theorem relabel_of_relabel {g : Table → Table} (hg : ∀ t, g (t.relabel f) = (g t).relabel f)
    (h : t.relabel f = t'.relabel f) : (g t).relabel f = (g t').relabel f := by
  rw [← hg t, h, hg]

theorem map_of_relabel {g : Table → Except Fault Table}
    (hg : ∀ t, g (t.relabel f) = relabel f <$> g t) (h : t.relabel f = t'.relabel f) :
    relabel f <$> g t = relabel f <$> g t' := by
  rw [← hg t, h, hg]

/-- Two ways on that `f` does not tell apart: to tables with the same relabelling, or to the
showdown of such tables. -/
def Parallel (f : Card → Card) (x y : Except Fault Table) : Prop :=
  relabel f <$> x = relabel f <$> y ∨
    ∃ u v, u.relabel f = v.relabel f ∧ x = settleShowdown u ∧ y = settleShowdown v

theorem Parallel.bind {g g' : Table → Except Fault Table} (h : relabel f <$> x = relabel f <$> y)
    (hg : ∀ u v, u.relabel f = v.relabel f → Parallel f (g u) (g' v)) :
    Parallel f (x >>= g) (y >>= g') := by
  rcases Checked.map_eq_map h with ⟨e, rfl, rfl⟩ | ⟨u, v, rfl, rfl, huv⟩
  · exact Or.inl rfl
  · exact hg u v huv

theorem advanceLoop_parallel {fuel : Nat} (h : t.relabel f = t'.relabel f) :
    Parallel f (advanceLoop fuel t) (advanceLoop fuel t') := by
  induction fuel generalizing t t' with
  | zero => exact Or.inl rfl
  | succ fuel ih =>
    rw [advanceLoop, advanceLoop, eq_of_relabel contenders_relabel h,
      eq_of_relabel bettingRoundComplete_relabel h,
      eq_of_relabel (g := Table.street) (fun _ => rfl) h]
    split_ifs with hfew hopen hriver
    · exact Or.inl (map_of_relabel settleFoldWin_relabel h)
    · exact Or.inl (congrArg Except.ok (relabel_of_relabel awaitActor_relabel h))
    · exact Or.inr ⟨t, t', h, rfl, rfl⟩
    · refine Parallel.bind (map_of_relabel advanceStreet_relabel h) fun u v huv => ?_
      rw [eq_of_relabel actionable_relabel huv, eq_of_relabel firstPostflopActor_relabel huv]
      split_ifs
      · exact ih (relabel_of_relabel
          (g := fun u => { u with pendingAction := ∅, actingSeat := none })
          (fun _ => rfl) huv)
      · exact Or.inl (congrArg Except.ok (relabel_of_relabel
          (g := fun u => { u with actingSeat := v.firstPostflopActor }) (fun _ => rfl) huv))

theorem concludeAction_parallel (h : t.relabel f = t'.relabel f) (seat : Nat) :
    Parallel f (t.concludeAction seat) (t'.concludeAction seat) := by
  unfold concludeAction
  rw [eq_of_relabel contenders_relabel h, eq_of_relabel bettingRoundComplete_relabel h]
  split_ifs
  · exact Or.inl (map_of_relabel settleFoldWin_relabel h)
  · exact advanceLoop_parallel (relabel_of_relabel (g := fun u => { u with actingSeat := none })
      (fun _ => rfl) h)
  · exact Or.inl (congrArg Except.ok
      (relabel_of_relabel (g := fun u => u.selectNextActor seat)
        (fun u => selectNextActor_relabel u seat) h))

theorem playHand_parallel (h : t.relabel f = t'.relabel f) (participants : List Nat) :
    Parallel f (t.playHand participants) (t'.playHand participants) := by
  unfold playHand
  refine Parallel.bind (map_of_relabel (g := fun u => u.dealHoleCards participants)
    (fun u => dealHoleCards_relabel u participants) h) fun u v huv => ?_
  rw [eq_of_relabel (g := Table.dealerSeat) (fun _ => rfl) huv,
    eq_of_relabel (g := fun u => u.blindSeats (v.dealerSeat.getD 0) participants.length)
      (fun u => blindSeats_relabel u _ _) huv]
  cases v.blindSeats (v.dealerSeat.getD 0) participants.length with
  | error e => exact Or.inl rfl
  | ok seats =>
    refine Parallel.bind (map_of_relabel (g := fun u => u.postBlinds participants seats.1 seats.2)
      (fun u => postBlinds_relabel u participants seats.1 seats.2) huv) fun u v huv => ?_
    have hactor := relabel_of_relabel (g := fun u => u.setInitialActor seats.2 participants.length)
      (fun u => setInitialActor_relabel u seats.2 participants.length) huv
    simp only [eq_of_relabel actionable_relabel hactor]
    split_ifs
    · exact advanceLoop_parallel (relabel_of_relabel
        (g := fun u => { u with pendingAction := ∅, actingSeat := none }) (fun _ => rfl) hactor)
    · exact Or.inl (congrArg Except.ok hactor)

/-! ## A showdown counts one step -/

theorem payWinners_sequence {award : PotAward} {ids : List PlayerId} {k : Nat}
    (h : payWinners award t k ids = .ok t') : t'.serverSequence = t.serverSequence := by
  induction ids generalizing t k with
  | nil =>
    rw [payWinners, Except.ok.injEq] at h
    rw [h]
  | cons id ids ih =>
    rw [payWinners] at h
    split at h
    · exact absurd h (by simp)
    · rw [ih h]
      unfold modifyPlayer
      split <;> rfl

theorem awardLayer_sequence {awards awards' : List PotAward} {previous level : Int}
    (h : t.awardLayer awards previous level = .ok (t', awards')) :
    t'.serverSequence = t.serverSequence := by
  unfold awardLayer at h
  dsimp only at h
  split_ifs at h
  · rw [Except.ok.injEq, Prod.mk.injEq] at h
    rw [h.1]
  · simp only [Checked.bind_ok_iff, Checked.pure_ok_iff, Prod.mk.injEq] at h
    obtain ⟨_, -, _, -, u, hpay, rfl, -⟩ := h
    exact payWinners_sequence hpay

theorem awardLayers_sequence {levels : List Int} {awards awards' : List PotAward} {previous : Int}
    (h : awardLayers t awards previous levels = .ok (t', awards')) :
    t'.serverSequence = t.serverSequence := by
  induction levels generalizing t awards previous with
  | nil =>
    rw [awardLayers, Except.ok.injEq, Prod.mk.injEq] at h
    rw [h.1]
  | cons level levels ih =>
    rw [awardLayers, Checked.bind_ok_iff] at h
    obtain ⟨⟨u, awards⟩, hlayer, hrest⟩ := h
    exact (ih hrest).trans (awardLayer_sequence hlayer)

theorem settleShowdown_sequence (h : t.settleShowdown = .ok t') :
    t'.serverSequence = t.serverSequence + 1 := by
  unfold settleShowdown at h
  simp only [Checked.bind_ok_iff, Checked.pure_ok_iff, Prod.exists] at h
  obtain ⟨u, hboard, v, awards, hpots, rfl⟩ := h
  obtain ⟨board, deck, hframe⟩ := completeBoard_ok hboard
  have hsame : u.serverSequence = t.serverSequence := by rw [hframe]
  unfold buildAndAwardPots at hpots
  exact congrArg (· + 1) ((awardLayers_sequence hpots).trans hsame)

/-! ## Two tables of the two runs -/

/-- The tables are in the same phase, and alike while the betting lasts. -/
structure Level (f : Card → Card) (u v : Table) : Prop where
  street : u.street = v.street
  sequence : u.serverSequence = v.serverSequence
  cards : u.street.betting = true → u.relabel f = v.relabel f

theorem Level.of_relabel (h : u.relabel f = v.relabel f) : Level f u v :=
  ⟨eq_of_relabel (g := Table.street) (fun _ => rfl) h,
    eq_of_relabel (g := Table.serverSequence) (fun _ => rfl) h, fun _ => h⟩

theorem Parallel.level (h : Parallel f x y) (hx : x = .ok u) (hy : y = .ok v) : Level f u v := by
  subst hx hy
  rcases h with h | ⟨w, w', hw, hu, hv⟩
  · exact Level.of_relabel (Except.ok.inj h)
  · have hstreet := settleShowdown_street hu.symm
    refine ⟨by rw [hstreet, settleShowdown_street hv.symm], ?_, fun hb => ?_⟩
    · rw [settleShowdown_sequence hu.symm, settleShowdown_sequence hv.symm,
        eq_of_relabel (g := Table.serverSequence) (fun _ => rfl) hw]
    · rw [hstreet] at hb
      exact absurd hb (by decide)

/-! ## The operations -/

/-- `act` up to the end of its `switch`: the error and its text, or the seat that acted and the
table after the action. -/
def attempt (t : Table) (command : ActionCommand) : Except (TableError × String) (Nat × Table) :=
  if !handIsRunning t.street || t.street == .showdown then
    .error (.actionNotAllowed, "no betting round is active")
  else match t.actingSeat with
    | none => .error (.notPlayersTurn, "the command was not sent by the acting player")
    | some index =>
      match t.seatAt index with
      | none => .error (.notPlayersTurn, "the command was not sent by the acting player")
      | some player =>
        if player.id ≠ command.playerId then
          .error (.notPlayersTurn, "the command was not sent by the acting player")
        else if !player.canAct || decide (player.id ∉ t.pendingAction) then
          .error (.playerCannotAct, "the player cannot act in this betting round")
        else (fun acted => (player.seat, acted)) <$> t.applyAction index player command

theorem act_eq (t : Table) (command : ActionCommand) :
    t.act command = match t.attempt command with
      | .error (error, message) => .ok (t.fail error message, t)
      | .ok (seat, acted) => do
        let settled ← concludeAction { acted with serverSequence := acted.serverSequence + 1 } seat
        return (settled.report t.street, settled) := by
  unfold act attempt
  split_ifs with hbetting
  · rfl
  cases t.actingSeat with
  | none => rfl
  | some i =>
    dsimp only
    cases t.seatAt i with
    | none => rfl
    | some p =>
      dsimp only
      split_ifs with hid hcan
      · rfl
      · rfl
      · cases t.applyAction i p command with
        | error e => rfl
        | ok acted => rfl

/-- The `switch` is reached by the acting player, who can act and is asked. -/
theorem attempt_ok {command : ActionCommand} {i : Nat} {p : Player} (hb : t.street.betting = true)
    (hacting : t.actingSeat = some i) (hp : t.seatAt i = some p) (hid : p.id = command.playerId)
    (hact : p.canAct = true) (hasked : p.id ∈ t.pendingAction)
    (happ : t.applyAction i p command = .ok u) : t.attempt command = .ok (p.seat, u) := by
  unfold attempt
  simp only [Street.open_of_betting hb, hacting, hp, hid, hact, happ, hid ▸ hasked, ne_eq,
    not_true_eq_false, if_false, Bool.false_eq_true, Bool.not_true, Bool.false_or, decide_false]
  rfl

theorem attempt_relabel (t : Table) (command : ActionCommand) :
    (t.relabel f).attempt command =
      (fun r => (r.1, r.2.relabel f)) <$> t.attempt command := by
  unfold attempt
  rw [show (t.relabel f).street = t.street from rfl,
    show (t.relabel f).actingSeat = t.actingSeat from rfl]
  split_ifs with hbetting
  · rfl
  cases t.actingSeat with
  | none => rfl
  | some i =>
    simp only [seatAt_relabel]
    cases t.seatAt i with
    | none => rfl
    | some p =>
      simp only [Option.map_some, applyAction_relabel, Player.relabel_id]
      change (if p.id ≠ command.playerId then _ else
        if (!p.canAct || decide (p.id ∉ t.pendingAction)) = true then _ else _) = _
      split_ifs with hid hcan
      · rfl
      · rfl
      · simp only [Functor.map_map]
        rfl

/-- Run one operation, with everything its caller gets back. -/
def respond (t : Table) : TableOp → Except Fault (TableReply × Table)
  | .act command => do
    let (result, t) ← t.act command
    return (⟨result.error, result.message, result.serverSequence⟩, t)
  | op => do
    let (error, t) ← t.exec op
    return ({ error := error, serverSequence := t.serverSequence }, t)

theorem act_level (h : t.relabel f = t'.relabel f)
    (hu : t.respond (.act command) = .ok (r, u)) (hv : t'.respond (.act command) = .ok (r', v)) :
    r = r' ∧ Level f u v := by
  have hattempt : (fun r => (r.1, r.2.relabel f)) <$> t.attempt command =
      (fun r => (r.1, r.2.relabel f)) <$> t'.attempt command := by
    rw [← attempt_relabel, h, attempt_relabel]
  have hseq := eq_of_relabel (g := Table.serverSequence) (fun _ => rfl) h
  simp only [respond, act_eq] at hu hv
  rcases Checked.map_eq_map hattempt with ⟨e, he, he'⟩ | ⟨⟨seat, w⟩, ⟨seat', w'⟩, hw, hw', heq⟩
  · rw [he] at hu
    rw [he'] at hv
    simp only [Checked.bind_ok_iff, Checked.pure_ok_iff, Prod.exists, Except.ok.injEq,
      Prod.mk.injEq] at hu hv
    obtain ⟨_, _, ⟨rfl, rfl⟩, rfl, rfl⟩ := hu
    obtain ⟨_, _, ⟨rfl, rfl⟩, rfl, rfl⟩ := hv
    refine ⟨?_, Level.of_relabel h⟩
    simp only [fail, hseq]
  · rw [hw] at hu
    rw [hw'] at hv
    simp only [Prod.mk.injEq] at heq
    obtain ⟨rfl, hww⟩ := heq
    simp only [Checked.bind_ok_iff, Checked.pure_ok_iff, Prod.exists, Prod.mk.injEq] at hu hv
    obtain ⟨_, _, ⟨a, ha, rfl, rfl⟩, rfl, rfl⟩ := hu
    obtain ⟨_, _, ⟨b, hb, rfl, rfl⟩, rfl, rfl⟩ := hv
    have hcount := eq_of_relabel (g := Table.serverSequence) (fun _ => rfl) hww
    have hlevel := (concludeAction_parallel (relabel_of_relabel
      (g := fun u => { u with serverSequence := w'.serverSequence + 1 }) (fun _ => rfl) hww)
      seat).level (hcount ▸ ha) hb
    refine ⟨?_, hlevel⟩
    simp only [report, hlevel.sequence]

/-- A hand that runs admits nobody. -/
theorem seatPlayer_running (h : handIsRunning t.street = true) (id : PlayerId) (seat : Nat)
    (buyIn : Int) : t.seatPlayer id seat buyIn =
      (if t.config.validateConfig ≠ .ok then .invalidConfiguration else .handInProgress, t) := by
  unfold seatPlayer
  rw [if_pos h]
  split_ifs <;> rfl

/-- **One operation in the two runs.** -/
theorem respond_level (hlater : op.later = true) (hb : t.street.betting = true)
    (h : t.relabel f = t'.relabel f) (hu : t.respond op = .ok (r, u))
    (hv : t'.respond op = .ok (r', v)) : r = r' ∧ Level f u v := by
  have hstreet := eq_of_relabel (g := Table.street) (fun _ => rfl) h
  have hconfig := eq_of_relabel (g := Table.config) (fun _ => rfl) h
  have hrun := Street.running_of_betting hb
  -- an operation that returns on both sides, with codes and tables that match
  have hpure : ∀ a b : TableError × Table, a.1 = b.1 → a.2.relabel f = b.2.relabel f →
      ((TableReply.mk a.1 "" a.2.serverSequence, a.2) : TableReply × Table) = (r, u) →
      ((TableReply.mk b.1 "" b.2.serverSequence, b.2) : TableReply × Table) = (r', v) →
      r = r' ∧ Level f u v := by
    rintro a b hcode hab ha hb
    simp only [Prod.mk.injEq] at ha hb
    obtain ⟨rfl, rfl⟩ := ha
    obtain ⟨rfl, rfl⟩ := hb
    have hlevel := Level.of_relabel hab
    exact ⟨by rw [hcode, hlevel.sequence], hlevel⟩
  cases op with
  | act command => exact act_level h hu hv
  | seatPlayer id seat buyIn =>
    refine hpure (t.seatPlayer id seat buyIn) (t'.seatPlayer id seat buyIn) ?_ ?_
      (Except.ok.inj hu) (Except.ok.inj hv)
    · rw [seatPlayer_running hrun, seatPlayer_running (hstreet ▸ hrun), hconfig]
    · rw [seatPlayer_running hrun, seatPlayer_running (hstreet ▸ hrun)]
      exact h
  | removePlayer id =>
    have hboth : ((t.removePlayer id).1, (t.removePlayer id).2.relabel f) =
        ((t'.removePlayer id).1, (t'.removePlayer id).2.relabel f) := by
      rw [← removePlayer_relabel, h, removePlayer_relabel]
    simp only [Prod.mk.injEq] at hboth
    exact hpure (t.removePlayer id) (t'.removePlayer id) hboth.1 hboth.2 (Except.ok.inj hu)
      (Except.ok.inj hv)
  | setReady id ready =>
    have hbusy : ∀ {w : Table}, handIsRunning w.street = true →
        w.setReady id ready = (.handInProgress, w) := fun hw => by
      unfold setReady
      exact if_pos hw
    refine hpure (t.setReady id ready) (t'.setReady id ready) ?_ ?_ (Except.ok.inj hu)
      (Except.ok.inj hv)
    · rw [hbusy hrun, hbusy (hstreet ▸ hrun)]
    · rw [hbusy hrun, hbusy (hstreet ▸ hrun)]
      exact h
  | setConnected id connected =>
    have hboth : ((t.setConnected id connected).1, (t.setConnected id connected).2.relabel f) =
        ((t'.setConnected id connected).1, (t'.setConnected id connected).2.relabel f) := by
      rw [← setConnected_relabel, h, setConnected_relabel]
    simp only [Prod.mk.injEq] at hboth
    exact hpure (t.setConnected id connected) (t'.setConnected id connected) hboth.1 hboth.2
      (Except.ok.inj hu) (Except.ok.inj hv)
  | startHand | startHandWithDeck | abortHand => exact absurd hlater (by simp [TableOp.later])

/-- One table, two decks with the same relabelling. -/
theorem startHand_level {deck deck' : Deck} {e e' : TableError}
    (h : deck.relabel f = deck'.relabel f) (hu : t.startHand deck = .ok (e, u))
    (hv : t.startHand deck' = .ok (e', v)) : e = e' ∧ Level f u v := by
  have hopen : (t.openHand deck).relabel f = (t.openHand deck').relabel f := by
    rw [← openHand_relabel, h, openHand_relabel]
  unfold startHand at hu hv
  have hseats := eq_of_relabel participatingSeats_relabel hopen
  dsimp only at hu hv
  rw [hseats, show (t.openHand deck).config = t.config from rfl] at hu
  rw [show (t.openHand deck').config = t.config from rfl] at hv
  -- the guards before the deal look at neither deck
  have hrefused : ∀ {why : TableError}, (Except.ok (why, t) : Except Fault _) = .ok (e, u) →
      (Except.ok (why, t) : Except Fault _) = .ok (e', v) → e = e' ∧ Level f u v := by
    intro why hu hv
    simp only [Except.ok.injEq, Prod.mk.injEq] at hu hv
    obtain ⟨rfl, rfl⟩ := hu
    obtain ⟨rfl, rfl⟩ := hv
    exact ⟨rfl, Level.of_relabel rfl⟩
  split_ifs at hu hv with hvalid hrun hready hfew
  · exact hrefused hu hv
  · exact hrefused hu hv
  · exact hrefused hu hv
  · simp only [Except.ok.injEq, Prod.mk.injEq] at hu hv
    obtain ⟨rfl, rfl⟩ := hu
    obtain ⟨rfl, rfl⟩ := hv
    exact ⟨rfl, Level.of_relabel (relabel_of_relabel
      (g := fun u => { u with street := .waiting }) (fun _ => rfl) hopen)⟩
  · simp only [Checked.bind_ok_iff, Checked.pure_ok_iff, Prod.mk.injEq] at hu hv
    obtain ⟨_, hu, rfl, rfl⟩ := hu
    obtain ⟨_, hv, rfl, rfl⟩ := hv
    have hbutton := relabel_of_relabel
      (g := fun u => u.moveButton (t.openHand deck').participatingSeats)
      (fun u => moveButton_relabel u _) hopen
    exact ⟨rfl, (playHand_parallel hbutton _).level hu hv⟩

theorem respond_of_exec {e : TableError} (h : t.exec op = .ok (e, u)) :
    ∃ r, t.respond op = .ok (r, u) := by
  cases op with
  | act command =>
    simp only [exec, Checked.bind_ok_iff, Checked.pure_ok_iff, Prod.exists, Prod.mk.injEq] at h
    obtain ⟨result, w, hact, -, rfl⟩ := h
    simp only [respond, hact]
    exact ⟨_, rfl⟩
  | seatPlayer | removePlayer | setReady | setConnected | startHand | startHandWithDeck
  | abortHand =>
    simp only [respond, h]
    exact ⟨_, rfl⟩

/-! ## What a viewer may see -/

/-- The cards dealt to `viewer` and the board so far. -/
def shownTo (t : Table) (viewer : Option PlayerId) : List Card :=
  t.board ++ (t.players.filter fun p => decide (viewer = some p.id)).flatMap Player.cards

/-- While the betting lasts a snapshot holds no other cards. -/
theorem cards_snapshot_subset (hb : t.street.betting = true) (viewer : Option PlayerId) :
    (t.snapshot viewer).cards ⊆ t.shownTo viewer := by
  intro card hcard
  rcases List.mem_append.mp hcard with hboard | hhole
  · exact List.mem_append_left _ hboard
  · obtain ⟨view, hview, hcard⟩ := List.mem_flatMap.mp hhole
    obtain ⟨p, hp, rfl⟩ := List.mem_map.mp hview
    have hopen : t.street ≠ .settled := fun hs => by
      rw [hs] at hb
      exact absurd hb (by decide)
    simp only [hopen, false_and, or_false] at hcard
    split_ifs at hcard with hown
    · refine List.mem_append_right _ (List.mem_flatMap.mpr ⟨p, List.mem_filter.mpr ⟨hp, ?_⟩, ?_⟩)
      · exact decide_eq_true hown.2
      · rw [Player.cards, if_pos hown.1]
        exact hcard
    · exact absurd hcard (by simp)

/-- Keep the cards of a list and make all others one that is in no deck. -/
def keep (shown : List Card) (card : Card) : Card := if card ∈ shown then card else ⟨0, 0⟩

/-- A viewer who sees only cards that are kept sees the same on both tables. -/
theorem snapshot_eq_of_relabel {shown : List Card} {viewer : Option PlayerId}
    (h : u.relabel (keep shown) = v.relabel (keep shown))
    (hshown : (u.snapshot viewer).cards ⊆ shown) (hreal : (⟨0, 0⟩ : Card) ∉ shown) :
    u.snapshot viewer = v.snapshot viewer := by
  have hkeep : ∀ card ∈ shown, keep shown card = card := fun card hcard => if_pos hcard
  have hu : (u.snapshot viewer).relabel (keep shown) = u.snapshot viewer :=
    TableSnapshot.relabel_eq_self fun card hcard => hkeep card (hshown hcard)
  have huv : u.snapshot viewer = (v.snapshot viewer).relabel (keep shown) := by
    rw [← snapshot_relabel, ← h, snapshot_relabel, hu]
  have hv : ∀ card ∈ (v.snapshot viewer).cards, keep shown card = card := by
    intro card hcard
    by_cases hin : card ∈ shown
    · exact hkeep card hin
    · -- a card that is not kept would show as the one that is in no deck
      have hmem : keep shown card ∈ (u.snapshot viewer).cards := by
        rw [huv, TableSnapshot.cards_relabel]
        exact List.mem_map_of_mem hcard
      have hjunk := hshown hmem
      rw [keep, if_neg hin] at hjunk
      exact absurd hjunk hreal
  rw [huv, TableSnapshot.relabel_eq_self hv]

/-! ## Two decks -/

/-- The positions of a deck at which the cards of `shown` lie. -/
def positions (cards shown : List Card) : Set Nat :=
  {i | ∃ card ∈ shown, cards[i]? = some card}

/-- Decks that agree where the cards of `shown` lie differ in cards that are not kept. -/
theorem map_keep_eq {cards cards' shown : List Card} (h : cards.Perm orderedDeck)
    (h' : cards'.Perm orderedDeck) (hagree : ∀ i ∈ positions cards shown, cards[i]? = cards'[i]?) :
    cards.map (keep shown) = cards'.map (keep shown) := by
  have hnodup : cards'.Nodup := h'.nodup_iff.mpr distinct_orderedDeck.nodup.of_map
  have hlen : cards.length = cards'.length := h.length_eq.trans h'.length_eq.symm
  refine List.ext_getElem (by simpa using hlen) fun i hi hi' => ?_
  rw [List.length_map] at hi hi'
  rw [List.getElem_map, List.getElem_map]
  by_cases hin : cards[i] ∈ shown
  · have hsame := hagree i ⟨cards[i], hin, List.getElem?_eq_getElem hi⟩
    rw [List.getElem?_eq_getElem hi, List.getElem?_eq_getElem hi', Option.some.injEq] at hsame
    rw [hsame]
  · -- the card at `i` of the second deck is kept only if it lies elsewhere in both
    have hout : cards'[i] ∉ shown := by
      intro hkept
      have hmem : cards'[i] ∈ cards :=
        h.mem_iff.mpr (h'.mem_iff.mp (List.getElem_mem hi'))
      obtain ⟨j, hj, hji⟩ := List.getElem_of_mem hmem
      have hget : cards[j]? = some cards'[i] := by rw [List.getElem?_eq_getElem hj, hji]
      have hboth := hagree j ⟨cards'[i], hkept, hget⟩
      rw [hget, List.getElem?_eq_getElem (hlen ▸ hj), Option.some.injEq] at hboth
      have hij : i = j := (List.Nodup.getElem_inj_iff hnodup).mp hboth
      subst hij
      rw [hji] at hin
      exact hin hkept
    rw [keep, keep, if_neg hin, if_neg hout]

/-- The table can start a hand. -/
structure ReadyToStart (t : Table) : Prop where
  valid : t.config.validateConfig = .ok
  idle : handIsRunning t.street = false
  ready : t.config.minPlayers ≤ t.readyPlayers

/-- **What one step of the two runs has in common.** The hand is dealt from `cards` and from
`cards'`. -/
structure Unrevealing (cards cards' : List Card) (x y : TableReply × Table) : Prop where
  reply : x.1 = y.1
  street : x.2.street = y.2.street
  sequence : x.2.serverSequence = y.2.serverSequence
  view : x.2.street.betting = true → ∀ viewer : Option PlayerId,
    (∀ i ∈ positions cards (x.2.shownTo viewer), cards[i]? = cards'[i]?) →
    x.2.snapshot viewer = y.2.snapshot viewer

theorem unrevealing {cards cards' : List Card} (h : cards.Perm orderedDeck)
    (h' : cards'.Perm orderedDeck) (hc : u.Carded Card.Valid)
    (hlevel : ∀ f : Card → Card, cards.map f = cards'.map f → r = r' ∧ Level f u v) :
    Unrevealing cards cards' (r, u) (r', v) := by
  have hlen : cards.length = cards'.length := h.length_eq.trans h'.length_eq.symm
  obtain ⟨hreply, hblind⟩ := hlevel (fun _ => {}) (by
    rw [List.map_const', List.map_const', hlen])
  refine ⟨hreply, hblind.street, hblind.sequence, fun hb viewer hagree => ?_⟩
  have hcards := (hlevel _ (map_keep_eq h h' hagree)).2.cards hb
  refine snapshot_eq_of_relabel hcards (cards_snapshot_subset hb viewer) fun hjunk => ?_
  have hplay : (⟨0, 0⟩ : Card) ∈ u.inPlay := by
    rcases List.mem_append.mp hjunk with hboard | hhole
    · exact List.mem_append_right _ (List.mem_append_left _ hboard)
    · obtain ⟨p, hp, hcard⟩ := List.mem_flatMap.mp hhole
      exact List.mem_append_left _ (List.mem_flatMap.mpr ⟨p, List.mem_of_mem_filter hp, hcard⟩)
  exact absurd (hc.good _ hplay) (by decide)

/-! ## The two runs -/

/-- A hand that can start does, with the cards of its deck. -/
theorem ReadyToStart.start (h : t.ReadyToStart) (hi : t.Inv) {cards : List Card}
    (hperm : cards.Perm orderedDeck) :
    ∃ u, t.startHand { cards := cards } = .ok (.ok, u) ∧
      t.respond (.startHandWithDeck cards) = .ok (⟨.ok, "", u.serverSequence⟩, u) ∧
      u.Inv ∧ u.Carded Card.Valid := by
  have hdeck := Deck.ofCards_of_perm hperm
  have hdeals := TableOp.Deals.startHandWithDeck hdeck
  have hvalid : ∀ card ∈ TableOp.cards (.startHandWithDeck cards), card.Valid := fun card hcard =>
    mem_orderedDeck_iff.mp (hperm.mem_iff.mp hcard)
  obtain ⟨hd, hlen⟩ := hdeals.distinct
  obtain ⟨⟨e, u⟩, hstart⟩ := (startHand_failsOnly (G := Card.Valid) hi.seating
    (fun card hcard => hvalid card (hdeals.rest_subset card hcard)) hd
      hlen).returns fun fault hf => by
      obtain ⟨-, card, hcard, hbad⟩ := hf
      exact hbad (Card.Valid.counted hcard)
  have hok : e = .ok := by
    rcases startHand_cases hi.seating hstart with ⟨-, -, hrun | hfew⟩ | ⟨he, -⟩
    · rw [h.idle] at hrun
      exact absurd hrun (by decide)
    · exact absurd h.ready (by omega)
    · exact he
  subst hok
  have hexec : t.exec (.startHandWithDeck cards) = .ok (.ok, u) := by
    change t.startHandWithDeck cards = _
    unfold startHandWithDeck
    rw [hdeck]
    exact hstart
  refine ⟨u, hstart, ?_, exec_inv hi hexec,
    (startHand_spec hi.seating hstart).2.2.carded hi.seating hdeals hvalid⟩
  simp only [respond, hexec]
  rfl

/-- A later operation returns. -/
theorem later_returns (hlater : op.later = true) (hi : t.Inv) (hc : t.Carded Card.Valid) :
    ∃ r u, t.respond op = .ok (r, u) ∧ u.Inv ∧ u.Carded Card.Valid := by
  have hnone : ∀ card ∈ op.cards, card.Valid := by
    cases op with
    | startHand | startHandWithDeck => exact absurd hlater (by simp [TableOp.later])
    | seatPlayer | removePlayer | setReady | setConnected | abortHand | act =>
      exact fun card hcard => absurd hcard (by simp [TableOp.cards])
  obtain ⟨e, u, hexec⟩ := hc.returns hi hnone
  obtain ⟨r, hr⟩ := respond_of_exec hexec
  exact ⟨r, u, hr, exec_inv hi hexec, exec_carded hi hc hnone hexec⟩

/-- The runs have come to `u` and to `v`, and the betting goes on. -/
structure Alike (cards cards' : List Card) (u v : Table) : Prop where
  inv : u.Inv
  carded : u.Carded Card.Valid
  betting : u.street.betting = true
  relabel : ∀ f : Card → Card, cards.map f = cards'.map f → u.relabel f = v.relabel f

/-- **The step lemma of the two runs.** -/
theorem Alike.respond {cards cards' : List Card} (h : Alike cards cards' t t')
    (hcards : cards.Perm orderedDeck) (hcards' : cards'.Perm orderedDeck)
    (hlater : op.later = true) (hu : t.respond op = .ok (r, u))
    (hv : t'.respond op = .ok (r', v)) :
    Unrevealing cards cards' (r, u) (r', v) ∧
      (u.street.betting = true → Alike cards cards' u v) := by
  obtain ⟨r₁, u₁, hr₁, hi, hc⟩ := later_returns hlater h.inv h.carded
  rw [hu, Except.ok.injEq, Prod.mk.injEq] at hr₁
  obtain ⟨rfl, rfl⟩ := hr₁
  have hlevel : ∀ f : Card → Card, cards.map f = cards'.map f → r = r' ∧ Level f u v :=
    fun f hf => respond_level hlater h.betting (h.relabel f hf) hu hv
  exact ⟨unrevealing hcards hcards' hc hlevel,
    fun hb => ⟨hi, hc, hb, fun f hf => (hlevel f hf).2.cards hb⟩⟩

/-- **Hidden cards do not influence or leak through play.** -/
theorem hidden_cards {config : TableConfig} (hreach : Reaches Steps (new config) t)
    (hready : t.ReadyToStart) {cards cards' : List Card} (hcards : cards.Perm orderedDeck)
    (hcards' : cards'.Perm orderedDeck) {ops : List TableOp}
    (hops : ∀ op ∈ ops, op.later = true) :
    ∃ run run', answers respond t (.startHandWithDeck cards :: ops) = .ok run ∧
      answers respond t (.startHandWithDeck cards' :: ops) = .ok run' ∧
      run.length = ops.length + 1 ∧ run'.length = ops.length + 1 ∧
      Lockstep (fun x => x.2.street.betting = true) (Unrevealing cards cards') run run' := by
  have hi : t.Inv := by
    by_cases hconfig : config.validateConfig = .ok
    · exact reach_inv hconfig hreach
    · have hvalid := hready.valid
      rw [reach_new_invalid hconfig hreach] at hvalid
      exact absurd hvalid hconfig
  obtain ⟨u, hstart, hu, hui, huc⟩ := hready.start hi hcards
  obtain ⟨v, hstart', hv, hvi, hvc⟩ := hready.start hi hcards'
  have hgoes : ∀ s : Table, ∀ op ∈ ops, (s.Inv ∧ s.Carded Card.Valid) →
      ∃ answer, s.respond op = .ok answer ∧ answer.2.Inv ∧ answer.2.Carded Card.Valid := by
    rintro s op hop ⟨hsi, hsc⟩
    obtain ⟨r, w, hr, hw⟩ := later_returns (hops op hop) hsi hsc
    exact ⟨(r, w), hr, hw⟩
  obtain ⟨rest, hrest, hlen⟩ := answers_returns hgoes ⟨hui, huc⟩
  obtain ⟨rest', hrest', hlen'⟩ := answers_returns hgoes ⟨hvi, hvc⟩
  refine ⟨_, _, answers_cons.mpr ⟨_, _, hu, hrest, rfl⟩, answers_cons.mpr ⟨_, _, hv, hrest', rfl⟩,
    congrArg (· + 1) hlen, congrArg (· + 1) hlen', ?_⟩
  have hlevel : ∀ f : Card → Card, cards.map f = cards'.map f →
      (⟨.ok, "", u.serverSequence⟩ : TableReply) = ⟨.ok, "", v.serverSequence⟩ ∧ Level f u v := by
    intro f hf
    have hdeck : Deck.relabel f { cards := cards } = Deck.relabel f { cards := cards' } :=
      congrArg (fun cards => ({ cards := cards } : Deck)) hf
    have hlevel := (startHand_level hdeck hstart hstart').2
    exact ⟨by rw [hlevel.sequence], hlevel⟩
  refine ⟨unrevealing hcards hcards' huc hlevel, fun hb => ?_⟩
  refine answers_lockstep (R := Alike cards cards') ?_
    ⟨hui, huc, hb, fun f hf => (hlevel f hf).2.cards hb⟩ hrest hrest'
  rintro s s' ⟨r, w⟩ ⟨r', w'⟩ op hop halike hr hr'
  exact halike.respond hcards hcards' (hops op hop) hr hr'

/-- Two players see a flop, dealt once from the ordered deck and once from its reverse; between the
actions somebody else asks for a seat and a player loses the connection. -/
theorem hidden_cards_flop :
    ∃ t run run', Reaches Steps (new {}) t ∧ t.ReadyToStart ∧
      orderedDeck ≠ orderedDeck.reverse ∧
      answers respond t [.startHandWithDeck orderedDeck, .act { playerId := 1, type := .call },
        .seatPlayer 3 2 2000, .setConnected 1 false, .act { playerId := 2, type := .check }] =
          .ok run ∧
      answers respond t [.startHandWithDeck orderedDeck.reverse,
        .act { playerId := 1, type := .call }, .seatPlayer 3 2 2000, .setConnected 1 false,
        .act { playerId := 2, type := .check }] = .ok run' ∧
      (∀ x ∈ run, x.2.street.betting = true) ∧
      Lockstep (fun x => x.2.street.betting = true)
        (Unrevealing orderedDeck orderedDeck.reverse) run run' := by
  have hcheck : (replay perform (new {}) [.seatPlayer 1 0 2000, .seatPlayer 2 1 2000,
      .setReady 1 true, .setReady 2 true]).any (fun r =>
        decide (r.2.config.validateConfig = .ok ∧ handIsRunning r.2.street = false ∧
          r.2.config.minPlayers ≤ r.2.readyPlayers) &&
        match answers respond r.2 [.startHandWithDeck orderedDeck,
          .act { playerId := 1, type := .call }, .seatPlayer 3 2 2000, .setConnected 1 false,
          .act { playerId := 2, type := .check }] with
        | .ok run => run.all fun x => x.2.street.betting
        | .error _ => false) = true := by
    decide +kernel
  obtain ⟨⟨trace, t⟩, hr, hc⟩ := (Option.any_eq_true _ _).mp hcheck
  rw [Bool.and_eq_true, decide_eq_true_eq] at hc
  obtain ⟨⟨hvalid, hidle, hready⟩, hbetting⟩ := hc
  have hreach : Reaches Steps (new {}) t := ⟨trace, run_of_replay hr⟩
  have hlater : ∀ op ∈ ([.act { playerId := 1, type := .call }, .seatPlayer 3 2 2000,
      .setConnected 1 false, .act { playerId := 2, type := .check }] : List TableOp),
      op.later = true := by decide
  obtain ⟨run, run', hrun, hrun', -, -, hlock⟩ := hidden_cards hreach ⟨hvalid, hidle, hready⟩
    (List.Perm.refl orderedDeck) (List.reverse_perm orderedDeck) hlater
  refine ⟨t, run, run', hreach, ⟨hvalid, hidle, hready⟩, by decide, hrun, hrun', ?_, hlock⟩
  rw [hrun] at hbetting
  exact List.all_eq_true.mp hbetting

end Table

end PokerServer

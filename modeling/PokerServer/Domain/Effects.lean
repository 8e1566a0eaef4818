import PokerServer.Domain.Hand

/-!
# What an accepted operation does

`Effect t op t'` lists, for every operation, all that an accepted call can do to a table some run
leads to, guards included. `exec_effect`: a call is refused and changes nothing, or has its effect.
Later invariants are case distinctions over it.
-/

namespace PokerServer

/-- What an abort makes of a player: `awards` taken back and the commitment returned. -/
def Player.rollBack (awards : List PotAward) (p : Player) : Player :=
  (p.gain fun id => - wonBy awards id).refund

namespace Table

variable {t t' : Table} {op : TableOp} {e : TableError}

/-- **What an accepted operation does.** -/
inductive Effect (t : Table) : TableOp → Table → Prop
  | sits {id : PlayerId} {seat : Nat} {buyIn : Int} (idle : handIsRunning t.street = false)
      (range : seat < t.seats.length) (absent : t.findPlayer id = none)
      (free : t.seatAt seat = none) (enough : t.config.minBuyIn ≤ buyIn) :
      Effect t (.seatPlayer id seat buyIn)
        { t.setSeat seat (some { id := id, seat := seat, stack := buyIn }) with
          serverSequence := t.serverSequence + 1 }
  | leaves {id : PlayerId} {i : Nat} {p : Player} (seat : t.seatAt i = some p) (player : p.id = id)
      (out : handIsRunning t.street = false ∨ p.status = .waiting) :
      Effect t (.removePlayer id)
        { t.setSeat i none with
          dealerSeat := if t.dealerSeat = some i then none else t.dealerSeat
          serverSequence := t.serverSequence + 1 }
  | readies {id : PlayerId} {ready : Bool} (idle : handIsRunning t.street = false) :
      Effect t (.setReady id ready)
        { t.mapSeats (fun p => if p.id = id then { p with ready := ready } else p) with
          serverSequence := t.serverSequence + 1 }
  | connects {id : PlayerId} {connected : Bool} :
      Effect t (.setConnected id connected)
        { t.mapSeats (fun p => if p.id = id then { p with connected := connected } else p) with
          serverSequence := t.serverSequence + 1 }
  | starts {op : TableOp} {deck : Deck} {t' : Table} (deals : op.Deals deck)
      (idle : handIsRunning t.street = false) (two : 2 ≤ t.readyPlayers)
      (started : t.Started deck t') : Effect t op t'
  | aborts (hand : t.street ≠ .waiting) : Effect t .abortHand t.abortHand.2
  | acts {command : ActionCommand} {i : Nat} {p q : Player} {u t' : Table} (awaiting : t.Awaiting)
      (acting : t.actingSeat = some i) (seat : t.seatAt i = some p)
      (player : p.id = command.playerId) (able : p.canAct = true) (acted : Acted t i p q u)
      (counts : u.serverSequence = t.serverSequence + 1)
      (kind : (command.type = .fold ∧ q = { p with status := .folded }) ∨
        (command.type ≠ .fold ∧ q.contends = true))
      (shows : Shows u t') (outcome : Outcome u t') : Effect t (.act command) t'

/-! ## The rollback -/

/-- The awards an abort takes back. -/
def revoked (t : Table) : List PotAward := if t.street = .settled then t.lastAwards else []

theorem Seating.gain (hs : t.Seating) (extra : PlayerId → Int) :
    (t.mapSeats (Player.gain extra)).Seating :=
  hs.of_same (sameSeating_mapSeats fun _ => rfl)

theorem revokeWinners (hs : t.Seating) (f : Nat → Int) : ∀ ws : List (PlayerId × Nat),
    ws.foldl (fun t winner => t.modifyPlayer winner.1 fun player =>
      { player with stack := player.stack - f winner.2 }) t =
    t.mapSeats (Player.gain fun id =>
      - (ws.map fun w => if w.1 = id then f w.2 else 0).sum) := by
  intro ws
  induction ws generalizing t with
  | nil => simp [mapSeats_gain_zero]
  | cons w ws ih =>
    have hmod : (t.modifyPlayer w.1 fun player => { player with stack := player.stack - f w.2 }) =
        t.mapSeats (Player.gain fun id => - if w.1 = id then f w.2 else 0) := by
      rw [hs.modifyPlayer_eq]
      congr 1
      funext p
      unfold Player.gain
      by_cases hp : p.id = w.1
      · simp [hp, sub_eq_add_neg]
      · simp [hp, Ne.symm hp]
    rw [List.foldl_cons, hmod, ih (hs.gain _), mapSeats_mapSeats]
    congr 1
    funext p
    rw [Player.gain_gain]
    simp only [List.map_cons, List.sum_cons, neg_add]

/-- Taking the awards back is paying their negatives. -/
theorem revokeAwards_eq (hs : t.Seating) :
    t.revokeAwards = t.mapSeats (Player.gain fun id => - wonBy t.lastAwards id) := by
  unfold revokeAwards
  generalize t.lastAwards = awards
  induction awards generalizing t with
  | nil => simp [mapSeats_gain_zero]
  | cons award awards ih =>
    rw [List.foldl_cons, revokeWinners hs award.share, ih (hs.gain _), mapSeats_mapSeats]
    congr 1
    funext p
    rw [Player.gain_gain]
    simp only [wonBy, PotAward.paidTo, List.map_cons, List.sum_cons, neg_add]

/-- **What an abort leaves.** -/
theorem abortHand_eq (hs : t.Seating) (hhand : t.street ≠ .waiting) :
    t.abortHand.2 = { t.mapSeats (Player.rollBack t.revoked) with
      street := .waiting
      actingSeat := none
      currentBet := 0
      minimumRaise := t.config.bigBlind
      pendingAction := ∅
      raiseAllowed := ∅
      board := []
      deck := none
      lastAwards := []
      serverSequence := t.serverSequence + 1 } := by
  have hseats : ((if t.street = .settled then t.revokeAwards else t).mapSeats Player.refund) =
      t.mapSeats (Player.rollBack t.revoked) := by
    unfold revoked
    split_ifs
    · rw [revokeAwards_eq hs, mapSeats_mapSeats]
      rfl
    · congr 1
      funext p
      simp [Player.rollBack, Player.gain]
  unfold abortHand
  rw [if_neg hhand]
  simp only [hseats]

/-! ## The operations -/

theorem seatPlayer_enough {id : PlayerId} {seat : Nat} {buyIn : Int}
    (h : t.seatPlayer id seat buyIn = (.ok, t')) : t.config.minBuyIn ≤ buyIn := by
  by_contra hsmall
  have hlow : buyIn < t.config.minBuyIn ∨ buyIn > t.config.maxBuyIn := by omega
  unfold seatPlayer at h
  split_ifs at h
  all_goals exact absurd (congrArg Prod.fst h) (by simp)

theorem effect_startHand {deck : Deck} (hi : t.Inv) (hdeals : op.Deals deck)
    (h : t.startHand deck = .ok (e, t')) : (e ≠ .ok ∧ t' = t) ∨ (e = .ok ∧ t.Effect op t') := by
  rcases startHand_cases hi.seating h with ⟨hne, hsame, -⟩ | ⟨rfl, -⟩
  · exact Or.inl ⟨hne, hsame⟩
  · obtain ⟨hidle, htwo, hstarted⟩ := startHand_spec hi.seating h
    exact Or.inr ⟨rfl, .starts hdeals hidle htwo hstarted⟩

theorem effect_act {command : ActionCommand} {result : ActionResult} (hi : t.Inv)
    (h : t.act command = .ok (result, t')) :
    (result.error ≠ .ok ∧ t' = t) ∨ (result.error = .ok ∧ t.Effect (.act command) t') := by
  by_cases hawait : t.Awaiting
  · by_cases hok : result.error = .ok
    · have hshows := act_shows hawait h
      obtain ⟨i, p, q, u, hacting, hp, hid, hcan, hacted, hseq, hkind, hout, -⟩ :=
        act_spec hawait h hok
      refine Or.inr ⟨hok, .acts hawait hacting hp hid hcan hacted hseq hkind ?_ hout⟩
      refine Shows.trans (Shows.of_eq ?_ ?_ ?_) hshows <;> rw [hacted.frame] <;> rfl
    · rcases act_cases h with hsame | ⟨_, _, _, -, -, -, -, -, -, -, -, hres⟩
      · exact Or.inl hsame
      · exact absurd (by rw [hres]; rfl) hok
  · exact Or.inl (act_refused hi hawait h)

/-- **A call is refused and changes nothing, or it has its effect.** -/
theorem exec_effect (hi : t.Inv) (h : t.exec op = .ok (e, t')) :
    (e ≠ .ok ∧ t' = t) ∨ (e = .ok ∧ t.Effect op t') := by
  have hs := hi.seating
  cases op with
  | seatPlayer id seat buyIn =>
    have hcall := Except.ok.inj h
    rcases seatPlayer_cases hcall with hsame | ⟨rfl, hidle, hrange, habsent, hfree, rfl⟩
    · exact Or.inl hsame
    · exact Or.inr ⟨rfl, .sits hidle hrange habsent hfree (seatPlayer_enough hcall)⟩
  | removePlayer id =>
    rcases removePlayer_cases (Except.ok.inj h) with hsame | ⟨i, p, rfl, hp, hid, hout, rfl⟩
    · exact Or.inl hsame
    · exact Or.inr ⟨rfl, .leaves hp hid hout⟩
  | setReady id ready =>
    rcases setReady_cases hs (Except.ok.inj h) with hsame | ⟨rfl, hidle, rfl⟩
    · exact Or.inl hsame
    · exact Or.inr ⟨rfl, .readies hidle⟩
  | setConnected id connected =>
    rcases setConnected_cases hs (Except.ok.inj h) with hsame | ⟨rfl, rfl⟩
    · exact Or.inl hsame
    · exact Or.inr ⟨rfl, .connects⟩
  | startHand deck => exact effect_startHand hi (.startHand deck) h
  | startHandWithDeck cards =>
    rcases startHandWithDeck_cases h with hsame | ⟨deck, hdeck, h⟩
    · exact Or.inl hsame
    · exact effect_startHand hi (.startHandWithDeck hdeck) h
  | abortHand =>
    have hcall : t.abortHand = (e, t') := Except.ok.inj h
    rcases abortHand_cases hs hcall with hsame | ⟨rfl, hhand, -⟩
    · exact Or.inl hsame
    · refine Or.inr ⟨rfl, ?_⟩
      rw [show t' = t.abortHand.2 by rw [hcall]]
      exact .aborts hhand
  | act command =>
    simp only [exec, Checked.bind_ok_iff, Checked.pure_ok_iff, Prod.exists, Prod.mk.injEq] at h
    obtain ⟨result, u, hact, rfl, rfl⟩ := h
    exact effect_act hi hact


end Table

end PokerServer

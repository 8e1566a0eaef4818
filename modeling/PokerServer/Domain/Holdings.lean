import PokerServer.Domain.Faultless
import PokerServer.Domain.Reached

/-!
# What the players hold

`holding t user` is the seat of a user and the chips a second copy of the table has to show for it:
between hands the stack, during a hand the stack with which the player came into it. Only sitting
down, leaving and a settlement change it, and a settlement only for the players who hold cards.
-/

namespace PokerServer

namespace Table

variable {t t' : Table} {user : PlayerId} {e : TableError}

/-- The chips of a player outside the pot of a running hand. -/
def banked (t : Table) (p : Player) : Int :=
  if handIsRunning t.street then p.stack + p.handCommitment else p.stack

/-- The seat of a user and its chips. -/
def holding (t : Table) (user : PlayerId) : Option (Nat × Int) :=
  (t.findPlayer user).map fun p => (p.seat, t.banked p)

theorem banked_idle (h : handIsRunning t.street = false) (p : Player) : t.banked p = p.stack := by
  unfold banked
  rw [h]
  rfl

theorem banked_betting (h : t.street.betting = true) (p : Player) :
    t.banked p = p.stack + p.handCommitment := by
  unfold banked
  rw [Street.running_of_betting h]
  rfl

theorem holding_idle (h : handIsRunning t.street = false) (user : PlayerId) :
    t.holding user = (t.findPlayer user).map fun p => (p.seat, p.stack) := by
  unfold holding
  simp only [banked_idle h]

theorem holding_new (config : TableConfig) (user : PlayerId) :
    (new config).holding user = none := by
  unfold holding
  rw [Option.map_eq_none_iff, ← seatOf_none_iff]
  by_contra hsome
  obtain ⟨i, hi⟩ := Option.ne_none_iff_exists'.mp hsome
  obtain ⟨p, hp, -⟩ := seatOf_some hi
  exact absurd hp (by simp [seatAt_new])

theorem Seating.holding_iff (hs : t.Seating) {i : Nat} {chips : Int} :
    t.holding user = some (i, chips) ↔
      ∃ p, t.seatAt i = some p ∧ p.id = user ∧ t.banked p = chips := by
  unfold holding
  rw [Option.map_eq_some_iff]
  constructor
  · rintro ⟨p, hfind, hp⟩
    obtain ⟨hseat, hchips⟩ := Prod.mk.inj hp
    obtain ⟨j, hj, hid⟩ := findPlayer_some hfind
    rw [← hseat, hs.index hj]
    exact ⟨p, hj, hid, hchips⟩
  · rintro ⟨p, hp, rfl, rfl⟩
    exact ⟨p, hs.findPlayer hp, by rw [hs.index hp]⟩

/-- Tables that show the same at every seat of a user. -/
theorem holding_ext (hs : t.Seating) (hs' : t'.Seating)
    (h : ∀ i chips, (∃ q, t'.seatAt i = some q ∧ q.id = user ∧ t'.banked q = chips) ↔
      ∃ p, t.seatAt i = some p ∧ p.id = user ∧ t.banked p = chips) :
    t'.holding user = t.holding user := by
  refine Option.ext fun held => ?_
  rw [hs'.holding_iff, hs.holding_iff]
  exact h held.1 held.2

/-- Tables with the same seating that bank a user alike. -/
theorem holding_congr (hs : t.Seating) (hsame : SameSeating t t')
    (h : ∀ i p q, t.seatAt i = some p → t'.seatAt i = some q → q.id = user →
      t'.banked q = t.banked p) : t'.holding user = t.holding user := by
  refine holding_ext hs (hs.of_same hsame) fun i chips => ⟨?_, ?_⟩
  · rintro ⟨q, hq, hid, hchips⟩
    obtain ⟨p, hp, hpid, -⟩ := hsame.symm.seat hq
    exact ⟨p, hp, hpid.trans hid, (h i p q hp hq hid).symm.trans hchips⟩
  · rintro ⟨p, hp, hid, hchips⟩
    obtain ⟨q, hq, hqid, -⟩ := hsame.seat hp
    exact ⟨q, hq, hqid.trans hid, (h i p q hp hq (hqid.trans hid)).trans hchips⟩

/-- A seat that is not the user's. -/
theorem holding_of_seat {i : Nat} (hs : t.Seating) (hs' : t'.Seating)
    (hstreet : t'.street = t.street) (hother : ∀ j, i ≠ j → t'.seatAt j = t.seatAt j)
    (hold : ∀ p, t.seatAt i = some p → p.id ≠ user)
    (hnew : ∀ p, t'.seatAt i = some p → p.id ≠ user) : t'.holding user = t.holding user := by
  have hbanked : t'.banked = t.banked := by
    funext p
    unfold banked
    rw [hstreet]
  refine holding_ext hs hs' fun j chips => ?_
  rw [hbanked]
  by_cases hij : i = j
  · subst hij
    constructor
    · rintro ⟨p, hp, hid, -⟩
      exact absurd hid (hnew p hp)
    · rintro ⟨p, hp, hid, -⟩
      exact absurd hid (hold p hp)
  · rw [hother j hij]

/-! ## Operations that leave the chips alone -/

/-- Changing the flags of a player. -/
theorem holding_mapSeats {f : Player → Player} (hs : t.Seating) (hkey : ∀ p, (f p).key = p.key)
    (hstack : ∀ p, (f p).stack = p.stack) (hhand : ∀ p, (f p).handCommitment = p.handCommitment)
    (n : Nat) (user : PlayerId) :
    ({ t.mapSeats f with serverSequence := n } : Table).holding user = t.holding user := by
  refine holding_congr hs (sameSeating_sequenced hkey n) fun i p q hp hq _ => ?_
  change (t.mapSeats f).seatAt i = some q at hq
  rw [seatAt_mapSeats, hp, Option.map_some, Option.some.injEq] at hq
  subst hq
  unfold banked
  rw [hstack, hhand]
  rfl

theorem Reached.holding_setConnected {id : PlayerId} {connected : Bool} (ht : t.Reached)
    (h : t.setConnected id connected = (e, t')) (user : PlayerId) :
    t'.holding user = t.holding user := by
  have hop : t.exec (.setConnected id connected) = .ok (e, t') := congrArg Except.ok h
  by_cases he : e = .ok
  · subst he
    have hs := (ht.inv hop).seating
    rcases setConnected_cases hs h with ⟨hne, -⟩ | ⟨-, rfl⟩
    · exact absurd rfl hne
    · refine holding_mapSeats hs (fun p => ?_) (fun p => ?_) (fun p => ?_) _ user <;>
        split_ifs <;> rfl
  · rcases ht.counts hop with ⟨-, rfl⟩ | ⟨hok, -⟩
    · rfl
    · exact absurd hok he

theorem Reached.holding_setReady {id : PlayerId} {ready : Bool} (ht : t.Reached)
    (h : t.setReady id ready = (e, t')) (user : PlayerId) : t'.holding user = t.holding user := by
  have hop : t.exec (.setReady id ready) = .ok (e, t') := congrArg Except.ok h
  by_cases he : e = .ok
  · subst he
    have hs := (ht.inv hop).seating
    rcases setReady_cases hs h with ⟨hne, -⟩ | ⟨-, -, rfl⟩
    · exact absurd rfl hne
    · refine holding_mapSeats hs (fun p => ?_) (fun p => ?_) (fun p => ?_) _ user <;>
        split_ifs <;> rfl
  · rcases ht.counts hop with ⟨-, rfl⟩ | ⟨hok, -⟩
    · rfl
    · exact absurd hok he

/-! ## Sitting down and leaving -/

/-- A user who was not at the table sits down. -/
theorem Reached.holding_seatPlayer {id : PlayerId} {seat : Nat} {buyIn : Int} (ht : t.Reached)
    (h : t.seatPlayer id seat buyIn = (.ok, t')) :
    t'.holding id = some (seat, buyIn) ∧ ∀ user, user ≠ id → t'.holding user = t.holding user := by
  have hop : t.exec (.seatPlayer id seat buyIn) = .ok (.ok, t') := congrArg Except.ok h
  have hi := ht.inv hop
  have hs' : t'.Seating := (exec_inv hi hop).seating
  rcases seatPlayer_cases h with ⟨hne, -⟩ | ⟨-, hidle, hrange, -, hfree, ht'⟩
  · exact absurd rfl hne
  have hstreet : t'.street = t.street := by rw [ht']; rfl
  have hself : t'.seatAt seat = some { id := id, seat := seat, stack := buyIn } := by
    rw [ht']
    exact seatAt_setSeat_self hrange _
  have hother : ∀ j, seat ≠ j → t'.seatAt j = t.seatAt j := fun j hj => by
    rw [ht']
    exact seatAt_setSeat_ne hj _
  refine ⟨hs'.holding_iff.mpr ⟨_, hself, rfl, banked_idle (hstreet ▸ hidle) _⟩, fun user hne => ?_⟩
  refine holding_of_seat hi.seating hs' hstreet hother (fun p hp => ?_) fun p hp => ?_
  · exact absurd hp (by simp [hfree])
  · rw [← Option.some.inj (hself.symm.trans hp)]
    exact hne.symm

/-- Between hands a user is removed, or was not at the table. -/
theorem Reached.holding_removePlayer {id : PlayerId} (ht : t.Reached)
    (hidle : handIsRunning t.street = false) (h : t.removePlayer id = (e, t')) :
    t'.holding id = none ∧ ∀ user, user ≠ id → t'.holding user = t.holding user := by
  have hop : t.exec (.removePlayer id) = .ok (e, t') := congrArg Except.ok h
  rcases removePlayer_cases h with ⟨hne, rfl⟩ | ⟨i, p, rfl, hp, hid, -, ht'⟩
  · refine ⟨?_, fun user _ => rfl⟩
    have hnone : t'.seatOf id = none := by
      by_contra hsome
      obtain ⟨i, hi⟩ := Option.ne_none_iff_exists'.mp hsome
      obtain ⟨p, hp, -⟩ := seatOf_some hi
      unfold removePlayer at h
      rw [hi] at h
      simp only [hidle, Bool.false_and, Bool.false_eq_true, if_false, Prod.mk.injEq] at h
      exact hne h.1.symm
    unfold holding
    rw [seatOf_none_iff.mp hnone]
    rfl
  · have hi := ht.inv hop
    have hs' : t'.Seating := (exec_inv hi hop).seating
    have hstreet : t'.street = t.street := by rw [ht']; rfl
    have hself : t'.seatAt i = none := by
      rw [ht']
      exact seatAt_setSeat_self (seatAt_lt hp) _
    have hother : ∀ j, i ≠ j → t'.seatAt j = t.seatAt j := fun j hj => by
      rw [ht']
      exact seatAt_setSeat_ne hj _
    constructor
    · rw [Option.eq_none_iff_forall_ne_some]
      rintro ⟨j, chips⟩ hheld
      obtain ⟨q, hq, hqid, -⟩ := hs'.holding_iff.mp hheld
      by_cases hij : i = j
      · subst hij
        exact absurd hq (by simp [hself])
      · rw [hother j hij] at hq
        exact hij (hi.seating.unique hp hq (hid.trans hqid.symm))
    · intro user hne
      refine holding_of_seat hi.seating hs' hstreet hother (fun q hq => ?_) fun q hq => ?_
      · rw [← Option.some.inj (hp.symm.trans hq), hid]
        exact hne.symm
      · exact absurd hq (by simp [hself])

/-! ## Hands -/

/-- A hand that waits for somebody, or for nobody, has taken nothing out of the table. -/
theorem Reached.holding_startHand {deck : FullDeck} (ht : t.Reached)
    (h : t.startHand deck.toDeck = .ok (.ok, t')) (hruns : ¬ t.RunsOut) (user : PlayerId) :
    t'.holding user = t.holding user := by
  have hop : t.exec (.startHand deck) = .ok (.ok, t') := h
  have hs := (ht.inv hop).seating
  obtain ⟨hidle, -, hstarted⟩ := startHand_spec hs h
  have hopening (v : Table) (hopen : t.Opening deck.toDeck v) :
      v.holding user = t.holding user := by
    refine holding_congr hs hopen.sameSeating fun i p q hp hq _ => ?_
    obtain ⟨hole, hv⟩ := hopen.seat_some i p hp
    obtain rfl := Option.some.inj (hv.symm.trans hq)
    rw [banked_idle hidle, banked_betting (by rw [hopen.street]; rfl)]
    cases hplays : p.plays with
    | true =>
      rw [Player.opens_of_plays hplays]
      dsimp only
      omega
    | false =>
      rw [Player.opens_of_not_plays hplays]
      simp
  cases hstarted with
  | awaiting hopen _ _ => exact hopening t' hopen
  | showdown _ hout _ _ => exact absurd hout hruns
  | @stranded v hopen _ _ hsame =>
    rw [hsame]
    exact hopening v hopen

/-- In a hand, whoever holds no cards is waiting. -/
theorem Reached.waiting_of_hole {i : Nat} {p : Player} (ht : t.Reached)
    (hb : t.street.betting = true) (hp : t.seatAt i = some p) (hhole : p.hasHole = false) :
    p.status = .waiting := by
  obtain ⟨config, hreach⟩ := ht
  have hcarded : t.Carded fun _ => True := by
    by_cases hconfig : config.validateConfig = .ok
    · refine (hreach.invariant (I := fun t => t.Inv ∧ t.Carded fun _ => True)
        ⟨inv_new hconfig, carded_new config⟩ ?_).2
      rintro a ⟨op, e⟩ b ⟨hi, hc⟩ hstep
      exact ⟨exec_inv hi hstep, exec_carded hi hc (fun _ _ => trivial) hstep⟩
    · rw [reach_new_invalid hconfig hreach]
      exact carded_new config
  by_contra hw
  rw [hcarded.dealt hb i p hp hw] at hhole
  exact absurd hhole (by decide)

/-- An action that does not end the hand. -/
theorem Reached.holding_act {command : ActionCommand} {result : ActionResult} (ht : t.Reached)
    (h : t.act command = .ok (result, t')) (hok : result.error = .ok)
    (hplays : t'.street ≠ .settled) (user : PlayerId) : t'.holding user = t.holding user := by
  have hacc := ht.accepted h hok
  have hb := hacc.awaiting.toBetting
  obtain ⟨i, p, q, u, -, hp, -, -, hacted, -, -, hout, -⟩ := act_spec hacc.awaiting h hok
  cases hout with
  | foldWin _ hwin => exact absurd hwin.street hplays
  | showdown _ hshow => exact absurd hshow.street hplays
  | awaiting _ hawait hsame =>
    refine holding_congr hb.seating hacc.seating fun j r y hr hy _ => ?_
    obtain ⟨x, hx, hpaid⟩ := hsame.seat_back hy
    rw [banked_betting hb.street, banked_betting hawait.toBetting.street, hpaid.hand, hpaid.stack,
      ← hacted.chips_at hp hr hx]
    simp [wonBy]

/-- An action that ends the hand changes the chips of those who hold cards. -/
theorem Reached.holding_act_settled {command : ActionCommand} {result : ActionResult}
    (ht : t.Reached) (h : t.act command = .ok (result, t')) (hok : result.error = .ok)
    (hsettled : t'.street = .settled)
    (hcardless : ∀ i q, t'.seatAt i = some q → q.id = user → q.hasHole = false) :
    t'.holding user = t.holding user := by
  have hacc := ht.accepted h hok
  have hb := hacc.awaiting.toBetting
  obtain ⟨i, p, q, u, -, hp, -, hcan, hacted, -, -, hout, -⟩ := act_spec hacc.awaiting h hok
  have hpaid : SettledFrom u t' := by
    cases hout with
    | foldWin _ hwin => exact hwin.toSettledFrom
    | showdown _ hshow => exact hshow.toSettledFrom
    | awaiting _ hawait _ =>
      have hbetting := hawait.toBetting.street
      rw [hsettled] at hbetting
      exact absurd hbetting (by decide)
  refine holding_congr hb.seating hacc.seating fun j r y hr hy hid => ?_
  obtain ⟨x, hx, hxy⟩ := hpaid.paid.seat_back hy
  have hhole : x.hasHole = false := hxy.hasHole.symm.trans (hcardless j y hy hid)
  have hother : j ≠ i := by
    -- the player who acted holds cards
    rintro rfl
    rw [hacted.seat_self hp, Option.some.injEq] at hx
    have hown : p.hasHole = false := by
      rw [← hhole, ← hx, hacted.actor]
    exact (contends_iff.mp (Player.contends_of_canAct hcan)).2
      (ht.waiting_of_hole hb.street hp hown)
  rw [hacted.seat_other hother] at hx
  obtain rfl := Option.some.inj (hx.symm.trans hr)
  have hwaits := ht.waiting_of_hole hb.street hr hhole
  have hwon : wonBy t'.lastAwards x.id = 0 := by
    refine hpaid.won_contends j x (by rw [hacted.seat_other hother, hr]) ?_
    rw [← Bool.not_eq_true, contends_iff, hwaits]
    simp
  rw [banked_idle (by rw [hsettled]; rfl), banked_betting hb.street, hxy.stack, hwon,
    (hb.sound j x hr).waiting_hand hwaits]

end Table

end PokerServer

import PokerServer.Domain.Operations

/-!
# Tables as the service finds them

Facts about any table some run of operations leads to, whatever its configuration (`Reached`). An
operation is refused and changes nothing, or counts the server sequence up (`Reached.counts`), so
two views with one sequence show one table. `Reached.served` says what the operations the service
uses do to the hand number, the street and the seats.
-/

namespace PokerServer

/-- The operations the service asks for. It posts `abortHand` without a callback, which runs
nothing. -/
def TableOp.served : TableOp → Bool
  | .abortHand | .startHandWithDeck _ => false
  | _ => true

namespace Table

variable {t t' : Table} {e : TableError} {op : TableOp}

/-- Some run of operations on a new table leads here. -/
def Reached (t : Table) : Prop := ∃ config, Reaches Steps (new config) t

theorem reached_new (config : TableConfig) : (new config).Reached := ⟨config, Reaches.refl _⟩

theorem Reached.exec (h : t.Reached) (hop : t.exec op = .ok (e, t')) : t'.Reached := by
  obtain ⟨config, hreach⟩ := h
  exact ⟨config, hreach.tail (l := (op, e)) hop⟩

/-- A table is reached under an accepted configuration, or it refuses everything. -/
theorem Reached.inv_or (h : t.Reached) :
    t.Inv ∨ ∃ config, config.validateConfig ≠ .ok ∧ t = new config := by
  obtain ⟨config, hreach⟩ := h
  by_cases hc : config.validateConfig = .ok
  · exact Or.inl (reach_inv hc hreach)
  · exact Or.inr ⟨config, hc, reach_new_invalid hc hreach⟩

theorem Reached.inv (h : t.Reached) (hop : t.exec op = .ok (.ok, t')) : t.Inv := by
  rcases h.inv_or with hi | ⟨config, hc, rfl⟩
  · exact hi
  · exact absurd rfl (exec_new_invalid hc hop).1

/-- **An operation is refused and changes nothing, or counts up.** -/
theorem Reached.counts (h : t.Reached) (hop : t.exec op = .ok (e, t')) :
    (e ≠ .ok ∧ t' = t) ∨ (e = .ok ∧ t.serverSequence < t'.serverSequence) := by
  rcases h.inv_or with hi | ⟨config, hc, rfl⟩
  · exact exec_sequence hi hop
  · exact Or.inl (exec_new_invalid hc hop)

theorem Reached.sequence_le (h : t.Reached) (hop : t.exec op = .ok (e, t')) :
    t.serverSequence ≤ t'.serverSequence := by
  rcases h.counts hop with ⟨-, rfl⟩ | ⟨-, hlt⟩
  · exact Nat.le_refl _
  · exact Nat.le_of_lt hlt

/-- A table that never changed asks nobody. -/
theorem Reached.sequence_pos (h : t.Reached) (hacting : t.actingSeat ≠ none) :
    0 < t.serverSequence := by
  obtain ⟨config, hreach⟩ := h
  have hinv : t.Reached ∧ (t.actingSeat ≠ none → 0 < t.serverSequence) := by
    refine hreach.invariant (I := fun u => u.Reached ∧ (u.actingSeat ≠ none → 0 < u.serverSequence))
      ⟨reached_new config, fun hn => absurd rfl hn⟩ ?_
    intro u label u' hu hstep
    refine ⟨hu.1.exec hstep, fun hn => ?_⟩
    rcases hu.1.counts hstep with ⟨-, rfl⟩ | ⟨-, hlt⟩
    · exact hu.2 hn
    · omega
  exact hinv.2 hacting

/-! ## Accepted actions -/

theorem exec_act {command : ActionCommand} {result : ActionResult}
    (h : t.act command = .ok (result, t')) :
    t.exec (.act command) = .ok (result.error, t') := by
  simp only [Table.exec, h]
  rfl

/-- What the service reads off an accepted action. -/
structure Accepted (t : Table) (command : ActionCommand) (result : ActionResult) (t' : Table) :
    Prop where
  awaiting : t.Awaiting
  actor : ∃ i p, t.actingSeat = some i ∧ t.seatAt i = some p ∧ p.id = command.playerId
  handId : t'.handId = t.handId
  sequence : result.serverSequence = t'.serverSequence
  grows : t.serverSequence < t'.serverSequence
  street : result.actionStreet = t.street
  seating : SameSeating t t'
  awards : result.awards = if t'.street = .settled then t'.lastAwards else []

theorem Outcome.sameSeating {u : Table} (h : Outcome u t') : SameSeating u t' := by
  cases h with
  | foldWin _ h => exact h.paid.sameSeating
  | awaiting _ _ h => exact h.sameSeating
  | showdown _ h => exact h.paid.sameSeating

theorem Outcome.handId {u : Table} (h : Outcome u t') : t'.handId = u.handId := by
  cases h with
  | foldWin _ h => exact h.paid.handId
  | awaiting _ _ h => exact h.handId
  | showdown _ h => exact h.paid.handId

theorem Reached.accepted (h : t.Reached) {command : ActionCommand} {result : ActionResult}
    (hact : t.act command = .ok (result, t')) (hok : result.error = .ok) :
    Accepted t command result t' := by
  have hexec := exec_act hact
  rw [hok] at hexec
  have hi := h.inv hexec
  have hawait : t.Awaiting := by
    by_contra hno
    exact (act_refused hi hno hact).1 hok
  obtain ⟨i, p, q, u, hi', hp, hid, -, hacted, -, -, hout, rfl⟩ := act_spec hawait hact hok
  rcases act_sequence hi hact with ⟨hne, -⟩ | ⟨-, hlt⟩
  · exact absurd hok hne
  · exact
      { awaiting := hawait
        actor := ⟨i, p, hi', hp, hid⟩
        handId := hout.handId.trans (by rw [hacted.frame]; rfl)
        sequence := rfl
        grows := hlt
        street := rfl
        seating := (hacted.sameSeating hp).trans hout.sameSeating
        awards := rfl }

/-! ## Hand number, street and seats -/

/-- What an operation of the service does to the hand. -/
inductive Served (t : Table) (op : TableOp) (e : TableError) (t' : Table) : Prop
  | refused (error : e ≠ .ok) (same : t' = t)
  | beside (handId : t'.handId = t.handId) (street : t'.street = t.street)
  | acted (handId : t'.handId = t.handId) (betting : t.street.betting = true)
  | started (handId : t'.handId = t.handId + 1)

theorem Reached.served (h : t.Reached) (hserved : op.served = true)
    (hop : t.exec op = .ok (e, t')) : Served t op e t' := by
  rcases h.counts hop with ⟨hne, hsame⟩ | ⟨rfl, -⟩
  · exact .refused hne hsame
  have hi := h.inv hop
  have hs := hi.seating
  cases op with
  | seatPlayer id seat buyIn =>
    rcases seatPlayer_cases (Except.ok.inj hop) with ⟨hne, -⟩ | ⟨-, -, -, -, -, rfl⟩
    · exact absurd rfl hne
    · exact .beside rfl rfl
  | removePlayer id =>
    rcases removePlayer_cases (Except.ok.inj hop) with ⟨hne, -⟩ | ⟨_, _, -, -, -, -, rfl⟩
    · exact absurd rfl hne
    · exact .beside rfl rfl
  | setReady id ready =>
    rcases setReady_cases hs (Except.ok.inj hop) with ⟨hne, -⟩ | ⟨-, -, rfl⟩
    · exact absurd rfl hne
    · exact .beside rfl rfl
  | setConnected id connected =>
    rcases setConnected_cases hs (Except.ok.inj hop) with ⟨hne, -⟩ | ⟨-, rfl⟩
    · exact absurd rfl hne
    · exact .beside rfl rfl
  | startHand deck =>
    obtain ⟨-, -, hstarted⟩ := startHand_spec hs hop
    exact .started hstarted.handId
  | startHandWithDeck cards => exact absurd hserved (by simp [TableOp.served])
  | abortHand => exact absurd hserved (by simp [TableOp.served])
  | act command =>
    simp only [Table.exec, Checked.bind_ok_iff, Checked.pure_ok_iff, Prod.exists, Prod.mk.injEq]
      at hop
    obtain ⟨result, u, hact, hok, rfl⟩ := hop
    have hacc := h.accepted hact hok
    exact .acted hacc.handId hacc.awaiting.toBetting.street

/-- A connection changes nothing about the hand. -/
theorem Reached.setConnected (h : t.Reached) {id : PlayerId} {connected : Bool}
    (hcall : t.setConnected id connected = (e, t')) :
    t'.handId = t.handId ∧ t'.street = t.street ∧ t'.actingSeat = t.actingSeat ∧
      SameSeating t t' := by
  have hop : t.exec (.setConnected id connected) = .ok (e, t') := congrArg Except.ok hcall
  rcases h.counts hop with ⟨-, rfl⟩ | ⟨rfl, -⟩
  · exact ⟨rfl, rfl, rfl, SameSeating.of_seats rfl rfl⟩
  rcases setConnected_cases (h.inv hop).seating hcall with ⟨hne, -⟩ | ⟨-, rfl⟩
  · exact absurd rfl hne
  · refine ⟨rfl, rfl, rfl, sameSeating_sequenced (fun q => ?_) _⟩
    split_ifs <;> rfl

/-- The ids at a table are those that sat down. -/
theorem Reached.ids (h : t.Reached) (hserved : op.served = true) (hop : t.exec op = .ok (e, t'))
    {P : PlayerId → Prop} (hP : ∀ i p, t.seatAt i = some p → P p.id)
    (hsit : ∀ id seat buyIn, op = .seatPlayer id seat buyIn → P id) :
    ∀ i p, t'.seatAt i = some p → P p.id := by
  intro i p hp
  rcases h.counts hop with ⟨-, rfl⟩ | ⟨rfl, -⟩
  · exact hP i p hp
  have hi := h.inv hop
  have hs := hi.seating
  have hsame (hsame : SameSeating t t') : P p.id := by
    obtain ⟨q, hq, hid, -⟩ := hsame.symm.seat hp
    exact hid ▸ hP i q hq
  cases op with
  | seatPlayer id seat buyIn =>
    rcases seatPlayer_cases (Except.ok.inj hop) with ⟨hne, -⟩ | ⟨-, -, hlt, -, -, rfl⟩
    · exact absurd rfl hne
    · change (t.setSeat seat _).seatAt i = some p at hp
      by_cases hij : seat = i
      · subst hij
        rw [seatAt_setSeat_self hlt] at hp
        exact Option.some.inj hp ▸ hsit id seat buyIn rfl
      · rw [seatAt_setSeat_ne hij] at hp
        exact hP i p hp
  | removePlayer id =>
    rcases removePlayer_cases (Except.ok.inj hop) with ⟨hne, -⟩ | ⟨j, q, -, hq, -, -, rfl⟩
    · exact absurd rfl hne
    · change (t.setSeat j none).seatAt i = some p at hp
      by_cases hij : j = i
      · subst hij
        rw [seatAt_setSeat_self (seatAt_lt hq)] at hp
        exact absurd hp (by simp)
      · rw [seatAt_setSeat_ne hij] at hp
        exact hP i p hp
  | setReady id ready =>
    rcases setReady_cases hs (Except.ok.inj hop) with ⟨hne, -⟩ | ⟨-, -, rfl⟩
    · exact absurd rfl hne
    · refine hsame (sameSeating_sequenced (fun q => ?_) _)
      split_ifs <;> rfl
  | setConnected id connected =>
    rcases setConnected_cases hs (Except.ok.inj hop) with ⟨hne, -⟩ | ⟨-, rfl⟩
    · exact absurd rfl hne
    · refine hsame (sameSeating_sequenced (fun q => ?_) _)
      split_ifs <;> rfl
  | startHand deck =>
    obtain ⟨-, -, hstarted⟩ := startHand_spec hs hop
    exact hsame hstarted.sameSeating
  | startHandWithDeck cards => exact absurd hserved (by simp [TableOp.served])
  | abortHand => exact absurd hserved (by simp [TableOp.served])
  | act command =>
    simp only [Table.exec, Checked.bind_ok_iff, Checked.pure_ok_iff, Prod.exists, Prod.mk.injEq]
      at hop
    obtain ⟨result, u, hact, hok, rfl⟩ := hop
    exact hsame (h.accepted hact hok).seating

end Table

end PokerServer

import PokerServer.Domain.Streets

/-!
# One call of `act`

* `act_cases`: a call is refused and changes nothing, or applies an action of the acting player
  and concludes it.
* `Outcome u t'`: after the action, which left `u`, the hand is settled by folds, waits for a
  player, or is settled by a showdown.
* `act_spec`: the two together, for a table that waits for a player.
-/

namespace PokerServer.Table

variable {t t' u : Table} {i : Nat} {p q : Player} {command : ActionCommand}
  {result : ActionResult}

theorem applyAction_error {e : TableError} {m : String}
    (h : t.applyAction i p command = .error (e, m)) : e ≠ .ok := by
  rintro rfl
  unfold applyAction at h
  cases htype : command.type <;> simp only [htype] at h
  case fold => exact absurd h (by simp)
  all_goals split_ifs at h <;> exact absurd h (by simp)

theorem applyAction_keeps (h : t.applyAction i p command = .ok u) :
    u.street = t.street ∧ u.serverSequence = t.serverSequence := by
  unfold applyAction at h
  cases htype : command.type <;> simp only [htype] at h
  case fold => exact Except.ok.inj h ▸ ⟨rfl, rfl⟩
  all_goals
    split_ifs at h
    all_goals
      rw [Except.ok.injEq] at h
      subst h
      first | exact ⟨rfl, rfl⟩ | exact ⟨lift_street .., lift_serverSequence ..⟩

/-- The two ways a call of `act` returns. -/
theorem act_cases (h : t.act command = .ok (result, t')) :
    (result.error ≠ .ok ∧ t' = t) ∨
    ∃ i p u, t.street.betting = true ∧ t.actingSeat = some i ∧ t.seatAt i = some p ∧
      p.id = command.playerId ∧ p.canAct = true ∧ p.id ∈ t.pendingAction ∧
      t.applyAction i p command = .ok u ∧
      concludeAction { u with serverSequence := u.serverSequence + 1 } p.seat = .ok t' ∧
      result = t'.report t.street := by
  unfold act at h
  split at h
  · simp only [Except.ok.injEq, Prod.mk.injEq] at h
    exact Or.inl ⟨h.1 ▸ by simp [fail], h.2.symm⟩
  · rename_i hstreet
    have hbet : t.street.betting = true := by
      cases hs : t.street <;> rw [hs] at hstreet <;> first | rfl | exact absurd rfl hstreet
    split at h
    · simp only [Except.ok.injEq, Prod.mk.injEq] at h
      exact Or.inl ⟨h.1 ▸ by simp [fail], h.2.symm⟩
    · rename_i i hi
      split at h
      · simp only [Except.ok.injEq, Prod.mk.injEq] at h
        exact Or.inl ⟨h.1 ▸ by simp [fail], h.2.symm⟩
      · rename_i p hp
        split_ifs at h with hid hcan
        · simp only [Except.ok.injEq, Prod.mk.injEq] at h
          exact Or.inl ⟨h.1 ▸ by simp [fail], h.2.symm⟩
        · simp only [Except.ok.injEq, Prod.mk.injEq] at h
          exact Or.inl ⟨h.1 ▸ by simp [fail], h.2.symm⟩
        · simp only [Bool.or_eq_true, Bool.not_eq_true', decide_eq_true_eq, not_or, not_not,
            Bool.not_eq_false] at hcan
          split at h
          · rename_i e m happ
            simp only [Except.ok.injEq, Prod.mk.injEq] at h
            exact Or.inl ⟨h.1 ▸ applyAction_error happ, h.2.symm⟩
          · rename_i u happ
            simp only [Checked.bind_ok_iff, Checked.pure_ok_iff, Prod.mk.injEq] at h
            obtain ⟨v, hv, hres, rfl⟩ := h
            exact Or.inr ⟨i, p, u, hbet, hi, hp, not_not.mp hid, hcan.1, hcan.2, happ, hv,
              hres.symm⟩

/-- What follows an action that left `u`. -/
inductive Outcome (u t' : Table) : Prop
  | foldWin (few : u.contenders ≤ 1) (h : FoldWin u t')
  | awaiting (two : 2 ≤ u.contenders) (h : Awaiting t') (same : PaidFrom [] u t')
  | showdown (two : 2 ≤ u.contenders) (h : Showdown u t')

theorem concludeAction_spec {seat : Nat} (hb : u.Betting) (hm : u.Matched)
    (h : u.concludeAction seat = .ok t') : Outcome u t' := by
  unfold concludeAction at h
  have hnn : ∀ i p, u.seatAt i = some p → 0 ≤ p.handCommitment := fun i p hp =>
    (hb.sound i p hp).hand_nonneg
  split_ifs at h with hfew hdone
  · exact .foldWin hfew (settleFoldWin_foldWin hb.seating hnn h)
  · have hpaid := (PaidFrom.refl u).ask u.pendingAction none
    have htwo : 2 ≤ u.contenders := by omega
    rcases advanceLoop_spec (hb.ask u.pendingAction none) htwo hdone h with
      ⟨haw, hrest, -⟩ | hshow
    · exact .awaiting htwo haw (hpaid.trans hrest)
    · exact .showdown htwo (hshow.of_paidFrom hpaid)
  · rw [Except.ok.injEq] at h
    subst h
    have hsome := hm.awaits_of_not_complete (Bool.not_eq_true _ ▸ hdone)
    obtain ⟨k, hk, hkw⟩ := nextCanActSeat_isSome hsome seat
    have htwo : 2 ≤ u.contenders := by omega
    exact .awaiting htwo
      { toBetting := hb.ask u.pendingAction _, matched := hm, asking := ⟨k, hk, hkw⟩,
        contested := htwo }
      ((PaidFrom.refl u).ask u.pendingAction _)

/-- **An accepted action on a table that waits for a player.** -/
theorem act_spec (ht : t.Awaiting) (h : t.act command = .ok (result, t'))
    (hok : result.error = .ok) :
    ∃ i p q u, t.actingSeat = some i ∧ t.seatAt i = some p ∧ p.id = command.playerId ∧
      p.canAct = true ∧ Acted t i p q u ∧ u.serverSequence = t.serverSequence + 1 ∧
      ((command.type = .fold ∧ q = { p with status := .folded }) ∨
        (command.type ≠ .fold ∧ q.contends = true)) ∧
      Outcome u t' ∧ result = t'.report t.street := by
  rcases act_cases h with ⟨herr, -⟩ | ⟨i, p, u, -, hi, hp, hid, hact, -, happ, hconc, hres⟩
  · exact absurd hok herr
  · obtain ⟨q, hacted, hkind⟩ := applyAction_acted ht.toBetting ht.matched hp hact happ
    have hseq := (applyAction_keeps happ).2
    have hacted' := hacted.sequenced (u.serverSequence + 1)
    exact ⟨i, p, q, _, hi, hp, hid, hact, hacted', by simp [hseq], hkind,
      concludeAction_spec (hacted'.betting hp ht.toBetting) hacted'.matched hconc, hres⟩

end PokerServer.Table

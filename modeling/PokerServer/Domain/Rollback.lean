import PokerServer.Domain.History

/-!
# The abort of a hand

`abortHand` means to undo a hand: `RolledBack t₀ post t'` says that everybody seated since before it
has the stack of then, everybody seated later its buy-in, nobody a debt, and that all chips are
accounted for. A running hand is undone. A settled hand is undone by taking its awards back from the
ids they were paid to, from whoever sits there under that id now, and by returning the commitments
of whoever is still seated: what a player of the hand carried away stays away, and a winner who has
sat down again pays for the hand it took with it. `rolledBack_iff` says exactly when this is a
rollback; `skew` is what one step puts the accounts off by.
-/

namespace PokerServer.Table

variable {config : TableConfig} {t₀ t t' u v : Table} {trace post : List Entry} {start : Entry}
  {op : TableOp} {e : TableError} {i : Nat} {p q : Player} {id : PlayerId} {awards : List PotAward}

/-- What a step brings to the table or takes from it. -/
def moved (step : Entry) : Int :=
  if step.label.2 = .ok then step.before.chipChange step.label.1 else 0

/-- **A true rollback** of the hand that began at `t₀`, after `post`. -/
structure RolledBack (t₀ : Table) (post : List Entry) (t' : Table) : Prop where
  stayed : ∀ i p, t₀.seatAt i = some p → ¬ Left post p.id →
    ∃ q, t'.seatAt i = some q ∧ q.id = p.id ∧ q.stack = p.stack
  joined : ∀ id i buyIn, Joined post id i buyIn →
    ∃ q, t'.seatAt i = some q ∧ q.id = id ∧ q.stack = buyIn
  nonneg : ∀ q ∈ t'.players, 0 ≤ q.stack
  sum : t'.stackSum = t₀.stackSum + (post.map moved).sum

/-- What an accepted change of seats puts the accounts of an abort off by: who leaves takes the
winnings along and leaves the commitment behind, and who sits down owes what was paid under its
id. -/
def skew (step : Entry) : Int :=
  match step.label with
  | (.removePlayer id, .ok) =>
    ((step.before.findPlayer id).map fun p =>
      wonBy step.before.revoked id - p.handCommitment).getD 0
  | (.seatPlayer id _ _, .ok) => - wonBy step.before.revoked id
  | _ => 0

/-- What a rollback needs: nobody outside the hand was paid by it, the changes of seats since the
settlement cancel out, and whoever was in debt before has left. -/
structure Undoable (t₀ : Table) (post : List Entry) (t : Table) : Prop where
  paid : ∀ q ∈ t.players, q.status = .waiting → wonBy t.revoked q.id = 0
  even : (post.map skew).sum = 0
  debts : ∀ p ∈ t₀.players, p.stack < 0 → Left post p.id

/-! ## The accounts -/

/-- The chips an abort would leave in the stacks. -/
def restored (t : Table) : Int :=
  (t.players.map fun p => p.stack + p.handCommitment - wonBy t.revoked p.id).sum

theorem restored_of_betting (h : t.street.betting = true) : t.restored = t.chips := by
  unfold restored chips
  rw [revoked_of_betting h]
  congr 1
  exact List.map_congr_left fun p _ => by rw [wonBy_nil, sub_zero]

/-- Paying awards does not change what taking them back restores. -/
theorem PaidFrom.restored_eq (h : PaidFrom awards t t') (hrev : t'.revoked = awards) :
    t'.restored = t.chips := by
  have hsum := h.sum_eq (f := fun p => p.stack + p.handCommitment - wonBy awards p.id)
    fun _ => rfl
  unfold restored chips
  rw [hrev, hsum]
  congr 1
  refine List.map_congr_left fun p _ => ?_
  simp only [Player.gain]
  omega

theorem abortHand_stackSum (hs : t.Seating) (hhand : t.street ≠ .waiting) :
    t.abortHand.2.stackSum = t.restored := by
  rw [abortHand_eq hs hhand]
  unfold stackSum restored
  change ((t.mapSeats (Player.rollBack t.revoked)).players.map (·.stack)).sum = _
  rw [players_mapSeats, List.map_map]
  congr 1
  refine List.map_congr_left fun p _ => ?_
  simp only [Function.comp, Player.rollBack, Player.refund, Player.gain]
  omega

/-- **One step of the accounts.** -/
theorem restored_step (hi : t.Inv) (hstep : t.Steps (op, e) t')
    (hstart : ¬ Starts ⟨t, (op, e), t'⟩) (habort : ¬ Aborts ⟨t, (op, e), t'⟩) :
    t'.restored = t.restored + moved ⟨t, (op, e), t'⟩ + skew ⟨t, (op, e), t'⟩ := by
  rcases exec_effect hi hstep with ⟨he, rfl⟩ | ⟨rfl, heffect⟩
  · have hmoved : moved ⟨t', (op, e), t'⟩ = 0 := if_neg he
    have hskew : skew ⟨t', (op, e), t'⟩ = 0 := by
      unfold skew
      split
      · rename_i heq
        exact absurd (Prod.mk.inj heq).2 he
      · rename_i heq
        exact absurd (Prod.mk.inj heq).2 he
      · rfl
    rw [hmoved, hskew, add_zero, add_zero]
  have hmap : ∀ {f : Player → Player} (n : Nat), SameBets f →
      restored { t.mapSeats f with serverSequence := n } = t.restored := by
    intro f n hf
    unfold restored
    change ((t.mapSeats f).players.map fun p =>
      p.stack + p.handCommitment - wonBy t.revoked p.id).sum = _
    rw [players_mapSeats, List.map_map]
    congr 1
    refine List.map_congr_left fun p _ => ?_
    rw [Function.comp_apply, hf p]
  cases heffect with
  | @sits id seat buyIn _ hrange _ hfree _ =>
    change ((t.setSeat seat (some { id := id, seat := seat, stack := buyIn })).players.map fun p =>
      p.stack + p.handCommitment - wonBy t.revoked p.id).sum = t.restored + buyIn + - wonBy
        t.revoked id
    rw [sum_setSeat hrange, hfree]
    simp only [amountAt, Option.map_none, Option.map_some, Option.getD_none, Option.getD_some]
    unfold restored
    omega
  | @leaves id i p hp hid _ =>
    subst hid
    have hfind := hi.seating.findPlayer hp
    have hmoved : ∀ t', moved ⟨t, (.removePlayer p.id, .ok), t'⟩ = - p.stack := fun t' => by
      simp only [moved, chipChange, hfind, if_true, Option.map_some, Option.getD_some]
    have hskew : ∀ t', skew ⟨t, (.removePlayer p.id, .ok), t'⟩ =
        wonBy t.revoked p.id - p.handCommitment := fun t' => by
      simp only [skew, hfind, Option.map_some, Option.getD_some]
    rw [hmoved, hskew]
    change ((t.setSeat i none).players.map fun p =>
      p.stack + p.handCommitment - wonBy t.revoked p.id).sum = _
    rw [sum_setSeat (seatAt_lt hp), hp]
    simp only [amountAt, Option.map_none, Option.map_some, Option.getD_none, Option.getD_some]
    unfold restored
    omega
  | readies _ =>
    rw [hmap _ (sameBets_ite (fun _ => rfl) _)]
    simp [moved, skew, chipChange]
  | connects =>
    rw [hmap _ (sameBets_ite (fun _ => rfl) _)]
    simp [moved, skew, chipChange]
  | starts hdeals => exact absurd ⟨hdeals.begins, rfl⟩ hstart
  | aborts _ => exact absurd rfl habort
  | acts hawait _ hp _ _ hacted _ _ _ hout =>
    have hsame : t'.restored = t.restored := by
      rw [restored_of_betting hawait.toBetting.street, ← hacted.chips_eq hp]
      cases hout with
      | foldWin _ hwin => exact hwin.paid.restored_eq (revoked_of_settled hwin.street)
      | awaiting _ haw hpaid =>
        exact hpaid.restored_eq (revoked_of_betting haw.toBetting.street)
      | showdown _ hshow => exact hshow.paid.restored_eq (revoked_of_settled hshow.street)
    rw [hsame]
    simp [moved, skew, chipChange]

theorem Started.restored_eq {deck : Deck} (h : t₀.Started deck t) : t.restored = t₀.stackSum := by
  cases h with
  | awaiting hopen _ haw =>
    rw [restored_of_betting haw.toBetting.street, hopen.chips_eq]
  | showdown hopen _ hshow _ =>
    rw [hshow.paid.restored_eq (revoked_of_settled hshow.street), hopen.chips_eq]
  | stranded hopen _ hst hsame =>
    rw [restored_of_betting hst.toBetting.street, ← hopen.chips_eq, hsame]
    rfl

/-- **The accounts of a hand.** -/
theorem restored_run {t₁ : Table} (hi : t₁.Inv) (hrun : Run Steps t₁ post t)
    (hquiet : ∀ step ∈ post, ¬ Starts step ∧ ¬ Aborts step) :
    t.restored = t₁.restored + (post.map moved).sum + (post.map skew).sum := by
  induction hrun with
  | nil => simp
  | @snoc post a b label hr hstep ih =>
    obtain ⟨op, e⟩ := label
    have hbefore : ∀ step ∈ post, ¬ Starts step ∧ ¬ Aborts step := fun step hs =>
      hquiet step (List.mem_append_left _ hs)
    obtain ⟨hstart, habort⟩ := hquiet _ (List.mem_append_right _ (List.mem_singleton.mpr rfl))
    have hia : a.Inv := hr.invariant hi fun _ _ _ hx hs => exec_inv hx hs
    rw [restored_step hia hstep hstart habort, ih hbefore]
    simp only [List.map_append, List.map_cons, List.map_nil, List.sum_append, List.sum_cons,
      List.sum_nil]
    omega

/-! ## The stacks -/

/-- What an abort makes of a seat. -/
theorem seatAt_abortHand (hs : t.Seating) (hhand : t.street ≠ .waiting) (i : Nat) :
    t.abortHand.2.seatAt i = (t.seatAt i).map (Player.rollBack t.revoked) := by
  rw [abortHand_eq hs hhand]
  exact seatAt_mapSeats t _ i

theorem rollBack_stack (awards : List PotAward) (p : Player) :
    (p.rollBack awards).stack = p.stack + p.handCommitment - wonBy awards p.id := by
  simp only [Player.rollBack, Player.refund, Player.gain]
  omega

/-- Whoever was there before the hand gets its stack back, whatever has happened. -/
theorem Story.rollBack_stayed {p₀ : Player} (h : Story t₀ post awards i q)
    (hp₀ : t₀.seatAt i = some p₀) (hid : q.id = p₀.id) (hleft : ¬ Left post p₀.id) :
    (q.rollBack awards).stack = p₀.stack := by
  rw [rollBack_stack]
  cases h with
  | dealt seat plays _ stayed _ status folded chips =>
    rw [Option.some.inj (seat.symm.trans hp₀)] at chips
    omega
  | watching seat plays _ stayed apart stack won =>
    rw [Option.some.inj (seat.symm.trans hp₀)] at stack
    rw [stack, apart.hand, won]
    omega
  | joined sat fresh apart stack enough =>
    rcases fresh with hback | hnew
    · exact absurd (hid ▸ hback) hleft
    · exact absurd hid.symm (hnew i p₀ hp₀)

/-- A hand that began in a run is one of an accepted configuration. -/
theorem HandOf.underway (hrun : Run Steps (new config) trace t) (hhand : HandOf trace start post) :
    config.validateConfig = .ok ∧ Underway config trace t start post := by
  obtain ⟨pre, rfl⟩ := hhand.split
  obtain ⟨hpre, hstep, hpost⟩ := hrun.split
  refine ⟨?_, hhand, ⟨pre, hpre⟩, hstep, hpost⟩
  by_contra hconfig
  rw [reach_new_invalid hconfig ⟨pre, hpre⟩] at hstep
  exact (exec_new_invalid hconfig hstep).1 hhand.starts.2

/-- **The accounts of a hand, from its start to its abort.** -/
theorem Underway.stackSum_abort (hconfig : config.validateConfig = .ok)
    (h : Underway config trace t start post) (hhand : t.street ≠ .waiting) :
    t.abortHand.2.stackSum =
      start.before.stackSum + (post.map moved).sum + (post.map skew).sum := by
  have hi := reach_inv hconfig h.reached
  obtain ⟨deck, -, -, hstarted⟩ := Starts.started h.starts hi h.step
  rw [abortHand_stackSum (h.since hconfig).2.seating hhand,
    restored_run (exec_inv hi h.step) h.run h.quiet, hstarted.restored_eq]

/-- **When an abort is a rollback.** -/
theorem rolledBack_iff (hrun : Run Steps (new config) trace t) (hhand : HandOf trace start post)
    (habort : t.abortHand = (.ok, t')) :
    RolledBack start.before post t' ↔ Undoable start.before post t := by
  obtain ⟨hconfig, hunder⟩ := hhand.underway hrun
  obtain ⟨hsince, hi⟩ := hunder.since hconfig
  have hsum := hunder.stackSum_abort hconfig hsince.hand
  have hat := seatAt_abortHand hi.seating hsince.hand
  rw [habort] at hsum hat
  constructor
  · rintro ⟨hstayed, hjoined, hnonneg, hbalance⟩
    refine ⟨fun q hq hw => ?_, by simp only at hsum; omega, fun p hp hneg => ?_⟩
    · obtain ⟨i, hqi⟩ := mem_players.mp hq
      cases hsince.story i q hqi with
      | dealt _ _ _ _ _ status _ _ => exact absurd hw status
      | watching _ _ _ _ _ _ won => exact won
      | joined sat _ apart stack _ =>
        obtain ⟨q', hq', -, hstack⟩ := hjoined q.id i _ sat
        rw [hat, hqi, Option.map_some, Option.some.injEq] at hq'
        rw [← hq', rollBack_stack, apart.hand] at hstack
        omega
    · by_contra hleft
      obtain ⟨i, hpi⟩ := mem_players.mp hp
      obtain ⟨q, hq, -, hstack⟩ := hstayed i p hpi hleft
      have := hnonneg q (mem_players.mpr ⟨i, hq⟩)
      omega
  · rintro ⟨hpaid, heven, hdebts⟩
    refine ⟨fun i p hp hleft => ?_, fun id i buyIn hj => ?_, fun q' hq' => ?_,
      by simp only at hsum; omega⟩
    · obtain ⟨q, hq, hid⟩ := hsince.stays i p hp hleft
      refine ⟨q.rollBack t.revoked, by rw [hat, hq]; rfl, hid, ?_⟩
      exact (hsince.story i q hq).rollBack_stayed hp hid hleft
    · obtain ⟨q, hq, hid, hapart, hstack⟩ := hsince.sits id i buyIn hj
      refine ⟨q.rollBack t.revoked, by rw [hat, hq]; rfl, hid, ?_⟩
      rw [rollBack_stack, hapart.hand, hpaid q (mem_players.mpr ⟨i, hq⟩) hapart.status]
      omega
    · obtain ⟨i, hi'⟩ := mem_players.mp hq'
      rw [hat, Option.map_eq_some_iff] at hi'
      obtain ⟨q, hq, rfl⟩ := hi'
      have hstory := hsince.story i q hq
      have hstack := rollBack_stack t.revoked q
      cases hstory with
      | dealt seat plays hid stayed _ _ _ chips =>
        have hpos := (Player.plays_iff.mp plays).2
        omega
      | @watching p seat _ hid stayed apart stack won =>
        have hsolvent : 0 ≤ p.stack := by
          by_contra hneg
          exact stayed (hid ▸ hdebts p (mem_players.mpr ⟨i, seat⟩) (by omega))
        rw [apart.hand, won] at hstack
        omega
      | joined sat _ apart stack enough =>
        rw [apart.hand, hpaid q (mem_players.mpr ⟨i, hq⟩) apart.status] at hstack
        omega

/-! ## Two hands -/

theorem handOf_drop {steps : List Entry} {k : Nat} (hk : steps[k]? = some start)
    (hstarts : Starts start) (hquiet : ∀ step ∈ steps.drop (k + 1), ¬ Starts step ∧ ¬ Aborts step) :
    HandOf steps start (steps.drop (k + 1)) := by
  obtain ⟨hlt, rfl⟩ := List.getElem?_eq_some_iff.mp hk
  refine ⟨⟨steps.take k, ?_⟩, hstarts, hquiet⟩
  rw [← List.drop_eq_getElem_cons hlt, List.take_append_drop]

/-- Two players sit down and a hand begins: the fifth step of the run. -/
def twoSeated : List TableOp :=
  [.seatPlayer 1 0 2000, .seatPlayer 2 1 2000, .setReady 1 true, .setReady 2 true,
    .startHandWithDeck orderedDeck]

instance (t₀ : Table) (post : List Entry) (t : Table) : Decidable (Undoable t₀ post t) :=
  decidable_of_iff ((∀ q ∈ t.players, q.status = .waiting → wonBy t.revoked q.id = 0) ∧
      (post.map skew).sum = 0 ∧ ∀ p ∈ t₀.players, p.stack < 0 →
        ∃ step ∈ post, step.label = (.removePlayer p.id, .ok))
    ⟨fun h => ⟨h.1, h.2.1, h.2.2⟩, fun h => ⟨h.paid, h.even, h.debts⟩⟩

/-- A hand settled by a fold and then aborted, with everybody still there. -/
theorem rolledBack_settled :
    ∃ trace t start post t', Run Steps (new {}) trace t ∧ t.street = .settled ∧
      HandOf trace start post ∧ t.abortHand = (.ok, t') ∧ RolledBack start.before post t' := by
  have hcheck : (replay perform (new {}) (twoSeated ++
      [.act { playerId := 1, type := .fold }])).any (fun r => r.1[4]?.any fun start =>
        decide (Starts start ∧ (∀ step ∈ r.1.drop 5, ¬ Starts step ∧ ¬ Aborts step) ∧
          r.2.street = .settled ∧ r.2.abortHand.1 = .ok ∧
          Undoable start.before (r.1.drop 5) r.2)) = true := by
    decide +kernel
  obtain ⟨⟨trace, t⟩, hr, hc⟩ := (Option.any_eq_true _ _).mp hcheck
  obtain ⟨start, hstart, hc⟩ := (Option.any_eq_true _ _).mp hc
  rw [decide_eq_true_eq] at hc
  obtain ⟨hstarts, hquiet, hset, hok, hundo⟩ := hc
  have hrun := run_of_replay hr
  have hhand := handOf_drop hstart hstarts hquiet
  have habort : t.abortHand = (.ok, t.abortHand.2) := by rw [← hok]
  exact ⟨trace, t, start, _, _, hrun, hset, hhand, habort,
    (rolledBack_iff hrun hhand habort).mpr hundo⟩

/-- The winner of a settled hand leaves with it and sits down again with one chip: the abort takes
the pot from that chip. -/
theorem abort_leaves_debt :
    ∃ config trace t start post t', config.validateConfig = .ok ∧
      Run Steps (new config) trace t ∧ (∀ step ∈ trace, step.label.2 = .ok) ∧
      HandOf trace start post ∧ t.abortHand = (.ok, t') ∧ (∃ q ∈ t'.players, q.stack = -149) ∧
      ¬ RolledBack start.before post t' := by
  have hcheck : (replay perform (new { minBuyIn := 1 }) (twoSeated ++
      [.act { playerId := 1, type := .fold }, .removePlayer 2, .seatPlayer 2 1 1])).any
      (fun r => r.1[4]?.any fun start =>
        decide (Starts start ∧ (∀ step ∈ r.1.drop 5, ¬ Starts step ∧ ¬ Aborts step) ∧
          (∀ step ∈ r.1, step.label.2 = .ok) ∧ r.2.abortHand.1 = .ok ∧
          ∃ q ∈ r.2.abortHand.2.players, q.stack = -149)) = true := by
    decide +kernel
  obtain ⟨⟨trace, t⟩, hr, hc⟩ := (Option.any_eq_true _ _).mp hcheck
  obtain ⟨start, hstart, hc⟩ := (Option.any_eq_true _ _).mp hc
  rw [decide_eq_true_eq] at hc
  obtain ⟨hstarts, hquiet, hall, hok, q, hq, hdebt⟩ := hc
  refine ⟨_, trace, t, start, _, t.abortHand.2, by decide, run_of_replay hr, hall,
    handOf_drop hstart hstarts hquiet, by rw [← hok], ⟨q, hq, hdebt⟩, fun hroll => ?_⟩
  have := hroll.nonneg q hq
  omega

end PokerServer.Table

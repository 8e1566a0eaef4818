import PokerServer.Domain.Effects
import PokerServer.Domain.Stakes

/-!
# Who is paid at a showdown

`PaysByStrength t` states what the awards of a settled table owe to the hands shown, without
mentioning the layers they were paid in: a contender who beats all others wins `min` of the two
commitments from everybody, one beaten by an equal or larger commitment wins nothing, and tied
contenders who cover everybody share up to one odd chip a pot.

`Awards t previous levels awards` is what the loop over the layers does; each clause is an induction
over it. `showdown_pays` is the statement for the hands of a run.
-/

namespace PokerServer.Table

variable {t t' u : Table} {p q : Player} {e : TableError} {previous : Int} {levels : List Int}
  {awards : List PotAward}

/-- The hand of `p` is strictly better than that of `q`. -/
def Beats (t : Table) (p q : Player) : Prop :=
  ∃ v w, p.handOn t.board = .ok v ∧ q.handOn t.board = .ok w ∧ w.lt v = true

/-- No contender at the table beats `p`, and none put in more. -/
def Covers (t : Table) (p : Player) : Prop :=
  ∀ q ∈ t.players, q.contends = true →
    ¬ t.Beats q p ∧ q.handCommitment ≤ p.handCommitment

/-- **What `awards` pay by strength and coverage.** -/
structure PaysByStrength (t : Table) (awards : List PotAward) : Prop where
  shown : ∀ p ∈ t.players, p.contends = true → 0 < p.handCommitment →
    ∃ value, p.handOn t.board = .ok value
  out : ∀ p ∈ t.players, p.contends = false → wonBy awards p.id = 0
  best : ∀ p ∈ t.players, p.contends = true →
    (∀ q ∈ t.players, q.contends = true → q.id ≠ p.id → t.Beats p q) →
    wonBy awards p.id = (t.players.map fun q => min p.handCommitment q.handCommitment).sum
  beaten : ∀ p ∈ t.players, ∀ q ∈ t.players, q.contends = true → t.Beats q p →
    p.handCommitment ≤ q.handCommitment → wonBy awards p.id = 0
  tied : ∀ p ∈ t.players, ∀ q ∈ t.players, p.contends = true → q.contends = true →
    t.Covers p → t.Covers q → |wonBy awards p.id - wonBy awards q.id| ≤ awards.length

/-! ## The layers -/

/-- The awards of the layers above `previous`: a level nobody competes for is skipped, every other
one pays its layer to the strongest hands. -/
inductive Awards (t : Table) : Int → List Int → List PotAward → Prop
  | nil {previous : Int} : Awards t previous [] []
  | skip {previous level : Int} {levels : List Int} {awards : List PotAward}
      (nobody : t.eligible level = []) (rest : Awards t level levels awards) :
      Awards t previous (level :: levels) awards
  | pay {previous level : Int} {levels : List Int} {award : PotAward} {awards : List PotAward}
      (size : award.potSize = Layers.layer previous level t.commitments)
      (sound : t.AwardSound level award) (strongest : t.Strongest level award.winners)
      (rest : Awards t level levels awards) : Awards t previous (level :: levels) (award :: awards)

theorem strongest_gain {extra : PlayerId → Int} {level : Int} {winners : List PlayerId}
    (h : (t.mapSeats (Player.gain extra)).Strongest level winners) :
    t.Strongest level winners := by
  obtain ⟨hnodup, best, hmax, hmem⟩ := h
  rw [eligible_gain] at hmax hmem
  refine ⟨hnodup, best, fun p hp => ?_, fun id => ?_⟩
  · exact hmax (p.gain extra) (List.mem_map_of_mem hp)
  · rw [hmem]
    constructor
    · rintro ⟨_, hq, hid, hvalue⟩
      obtain ⟨p, hp, rfl⟩ := List.mem_map.mp hq
      exact ⟨p, hp, hid, hvalue⟩
    · rintro ⟨p, hp, hid, hvalue⟩
      exact ⟨p.gain extra, List.mem_map_of_mem hp, hid, hvalue⟩

/-- Paying a layer leaves the later layers what they were. -/
theorem Awards.of_gain {extra : PlayerId → Int}
    (h : Awards (t.mapSeats (Player.gain extra)) previous levels awards) :
    Awards t previous levels awards := by
  induction h with
  | nil => exact .nil
  | skip nobody _ ih =>
    rw [eligible_gain, List.map_eq_nil_iff] at nobody
    exact .skip nobody ih
  | pay size sound strongest _ ih =>
    rw [commitments_gain] at size
    exact .pay size (awardSound_gain sound) (strongest_gain strongest) ih

/-- The loop over the levels makes such awards. -/
theorem awardLayers_awards : ∀ {levels : List Int} {t t' : Table} {awards awards' : List PotAward}
    {previous : Int}, t.Seating → (previous :: levels).Pairwise (· < ·) →
    awardLayers t awards previous levels = .ok (t', awards') →
    ∃ new, awards' = awards ++ new ∧ Awards t previous levels new
  | [], t, t', awards, awards', previous, _, _, h => by
    simp only [awardLayers, Except.ok.injEq, Prod.mk.injEq] at h
    exact ⟨[], by rw [List.append_nil, h.2], .nil⟩
  | level :: levels, t, t', awards, awards', previous, hs, hinc, h => by
    rw [awardLayers, Checked.bind_ok_iff] at h
    obtain ⟨⟨u, mid⟩, hlayer, h⟩ := h
    rw [List.pairwise_cons] at hinc
    have hlt : previous < level := hinc.1 level List.mem_cons_self
    rcases awardLayer_spec hs hlayer with ⟨hskip, rfl, rfl⟩ |
      ⟨award, -, hsize, hsound, hstrong, rfl, rfl⟩
    · obtain ⟨new, rfl, hnew⟩ := awardLayers_awards hs hinc.2 h
      refine ⟨new, rfl, .skip ?_ hnew⟩
      rcases hskip with hpot | hnil
      · -- a level above `previous` holds nothing only if nobody reached it
        have hnone : (u.contributors level).length = 0 := by
          by_contra hne
          have hpos : 0 < (level - previous) * ((u.contributors level).length : Int) :=
            mul_pos (by omega) (by omega)
          omega
        unfold eligible
        rw [List.length_eq_zero_iff.mp hnone]
        rfl
      · exact hnil
    · have hsame : SameSeating t (t.mapSeats (Player.gain award.paidTo)) :=
        sameSeating_mapSeats fun _ => rfl
      obtain ⟨new, rfl, hnew⟩ := awardLayers_awards (hs.of_same hsame) hinc.2 h
      refine ⟨award :: new, by simp, .pay ?_ hsound hstrong hnew.of_gain⟩
      rw [hsize, length_contributors, Layers.layer]

/-! ## One award -/

theorem mem_eligible_of {level : Int} (hp : p ∈ t.players) (hc : p.contends = true)
    (hle : level ≤ p.handCommitment) : p ∈ t.eligible level := by
  have := contends_iff.mp hc
  unfold eligible contributors
  simp only [List.mem_filter, decide_eq_true_eq, Bool.and_eq_true, bne_iff_ne, ne_eq]
  exact ⟨⟨hp, hle⟩, this.1, this.2⟩

theorem Seating.eq_of_id (hs : t.Seating) (hp : p ∈ t.players) (hq : q ∈ t.players)
    (hid : p.id = q.id) : p = q := by
  obtain ⟨i, hi⟩ := mem_players.mp hp
  obtain ⟨j, hj⟩ := mem_players.mp hq
  obtain rfl := hs.unique hi hj hid
  exact Option.some.inj (hi.symm.trans hj)

/-- A winner of a level is one of its eligible players, unbeaten among them. -/
theorem Strongest.of_mem {level : Int} {winners : List PlayerId} (h : t.Strongest level winners)
    (hs : t.Seating) (hp : p ∈ t.players) (hw : p.id ∈ winners) :
    p.contends = true ∧ level ≤ p.handCommitment ∧ ∀ q ∈ t.eligible level, ¬ t.Beats q p := by
  obtain ⟨-, best, hmax, hmem⟩ := h
  obtain ⟨r, hr, hid, hbest⟩ := (hmem p.id).mp hw
  obtain ⟨hseat, hle, hf, hwait⟩ := mem_eligible hr
  obtain rfl := hs.eq_of_id (mem_players.mpr hseat) hp hid
  refine ⟨contends_iff.mpr ⟨hf, hwait⟩, hle, ?_⟩
  rintro q hq ⟨v, w, hv, hw', hlt⟩
  obtain ⟨v', hv', hnot⟩ := hmax q hq
  rw [hv, Except.ok.injEq] at hv'
  rw [hbest, Except.ok.injEq] at hw'
  subst hv' hw'
  exact hnot hlt

/-- An eligible player nobody eligible beats is a winner. -/
theorem Strongest.mem {level : Int} {award : PotAward} (h : t.Strongest level award.winners)
    (hsound : t.AwardSound level award) (hp : p ∈ t.eligible level)
    (hunbeaten : ∀ q ∈ t.eligible level, ¬ t.Beats q p) : p.id ∈ award.winners := by
  obtain ⟨-, best, hmax, hmem⟩ := h
  obtain ⟨w, hw⟩ := List.exists_mem_of_ne_nil _ hsound.winners_ne
  obtain ⟨q, hq, -, hbest⟩ := (hmem w).mp hw
  obtain ⟨v, hv, hle⟩ := hmax p hp
  refine (hmem p.id).mpr ⟨p, hp, rfl, ?_⟩
  rw [hv, HandValue.eq_of_not_lt hle fun hlt => hunbeaten q hq ⟨best, v, hbest, hv, hlt⟩]

/-- In a list without repetition one entry is paid. -/
theorem sum_zipIdx_of_mem {id : PlayerId} {f : Nat → Int} : ∀ {ids : List PlayerId} {n : Nat},
    ids.Nodup → id ∈ ids →
    ∃ k, ((ids.zipIdx n).map fun w => if w.1 = id then f w.2 else 0).sum = f k
  | [], _, _, hmem => absurd hmem (by simp)
  | a :: ids, n, hnodup, hmem => by
    rw [List.nodup_cons] at hnodup
    rw [List.zipIdx_cons, List.map_cons, List.sum_cons]
    by_cases ha : a = id
    · refine ⟨n, ?_⟩
      rw [if_pos ha, add_eq_left]
      refine List.sum_eq_zero fun x hx => ?_
      obtain ⟨⟨b, m⟩, hb, rfl⟩ := List.mem_map.mp hx
      refine if_neg ?_
      rintro rfl
      exact hnodup.1 (ha ▸ List.fst_mem_of_mem_zipIdx hb)
    · obtain ⟨k, hk⟩ := sum_zipIdx_of_mem (n := n + 1) hnodup.2
        ((List.mem_cons.mp hmem).resolve_left (Ne.symm ha))
      refine ⟨k, ?_⟩
      rw [if_neg ha, hk, zero_add]

theorem share_bounds (award : PotAward) (k : Nat) :
    award.equalShare ≤ award.share k ∧ award.share k ≤ award.equalShare + 1 := by
  unfold PotAward.share
  split_ifs <;> omega

/-- Two winners of one pot are paid the same up to an odd chip. -/
theorem Strongest.paidTo_close {level : Int} {award : PotAward} {a b : PlayerId}
    (h : t.Strongest level award.winners) (ha : a ∈ award.winners) (hb : b ∈ award.winners) :
    |award.paidTo a - award.paidTo b| ≤ 1 := by
  obtain ⟨k, hk⟩ := sum_zipIdx_of_mem (f := award.share) (n := 0) h.1 ha
  obtain ⟨m, hm⟩ := sum_zipIdx_of_mem (f := award.share) (n := 0) h.1 hb
  have hka := share_bounds award k
  have hmb := share_bounds award m
  unfold PotAward.paidTo
  rw [hk, hm, abs_le]
  omega

/-- A lone winner takes the whole pot. -/
theorem AwardSound.paidTo_alone {level : Int} {award : PotAward} {id : PlayerId}
    (h : t.AwardSound level award) (hnodup : award.winners.Nodup)
    (halone : ∀ w, w ∈ award.winners ↔ w = id) : award.paidTo id = award.potSize := by
  have hwinners : award.winners = [id] := by
    refine List.perm_singleton.mp ((List.perm_ext_iff_of_nodup hnodup (by simp)).mpr fun w => ?_)
    rw [halone, List.mem_singleton]
  rw [← h.sum_shares]
  unfold PotAward.paidTo
  simp [hwinners]

/-! ## The clauses, layer by layer -/

theorem wonBy_cons (award : PotAward) (awards : List PotAward) (id : PlayerId) :
    wonBy (award :: awards) id = award.paidTo id + wonBy awards id := by
  simp [wonBy]

/-- Nobody wins who is never among the winners. -/
theorem Awards.won_zero {id : PlayerId} (h : Awards t previous levels awards)
    (hnot : ∀ level award, t.AwardSound level award → t.Strongest level award.winners →
      id ∉ award.winners) : wonBy awards id = 0 := by
  induction h with
  | nil => rfl
  | skip _ _ ih => exact ih
  | pay _ sound strongest _ ih =>
    rw [wonBy_cons, ih, paidTo_eq_zero (hnot _ _ sound strongest), add_zero]

theorem Awards.out (h : Awards t previous levels awards) (hs : t.Seating) (hp : p ∈ t.players)
    (hc : p.contends = false) : wonBy awards p.id = 0 := by
  refine h.won_zero fun level award _ hstrong hw => ?_
  rw [(hstrong.of_mem hs hp hw).1] at hc
  exact absurd hc (by simp)

theorem Awards.beaten (h : Awards t previous levels awards) (hs : t.Seating) (hp : p ∈ t.players)
    (hq : q ∈ t.players) (hc : q.contends = true) (hbeats : t.Beats q p)
    (hle : p.handCommitment ≤ q.handCommitment) : wonBy awards p.id = 0 := by
  refine h.won_zero fun level award _ hstrong hw => ?_
  obtain ⟨-, hlevel, hunbeaten⟩ := hstrong.of_mem hs hp hw
  exact hunbeaten q (mem_eligible_of hq hc (hlevel.trans hle)) hbeats

/-- **The best hand alone takes every layer it reaches.** -/
theorem Awards.best (h : Awards t previous levels awards) (hs : t.Seating) (hp : p ∈ t.players)
    (hc : p.contends = true)
    (hbest : ∀ q ∈ t.players, q.contends = true → q.id ≠ p.id → t.Beats p q) :
    wonBy awards p.id = Layers.layerSum p.handCommitment previous levels t.commitments := by
  induction h with
  | nil => rfl
  | @skip previous level levels awards nobody _ ih =>
    rw [Layers.layerSum, ih, if_neg, zero_add]
    intro hle
    exact absurd (mem_eligible_of hp hc hle) (by simp [nobody])
  | @pay previous level levels award awards size sound strongest _ ih =>
    rw [wonBy_cons, Layers.layerSum, ih, ← size]
    congr 1
    by_cases hle : level ≤ p.handCommitment
    · rw [if_pos hle]
      refine sound.paidTo_alone strongest.1 fun w => ⟨fun hw => ?_, ?_⟩
      · obtain ⟨r, hr, rfl⟩ := sound.winners_eligible w hw
        obtain ⟨hseat, -, hf, hwait⟩ := mem_eligible hr
        by_contra hne
        have hrp := mem_players.mpr hseat
        exact (strongest.of_mem hs hrp hw).2.2 p (mem_eligible_of hp hc hle)
          (hbest r hrp (contends_iff.mpr ⟨hf, hwait⟩) hne)
      · rintro rfl
        refine strongest.mem sound (mem_eligible_of hp hc hle) fun q hq hbeats => ?_
        obtain ⟨hseat, -, hf, hwait⟩ := mem_eligible hq
        obtain ⟨v, w, hv, hw, hlt⟩ := hbeats
        by_cases hid : q.id = p.id
        · obtain rfl := hs.eq_of_id (mem_players.mpr hseat) hp hid
          rw [hv, Except.ok.injEq] at hw
          rw [hw, HandValue.lt_irrefl] at hlt
          exact absurd hlt (by simp)
        · obtain ⟨w', v', hw', hv', hgt⟩ :=
            hbest q (mem_players.mpr hseat) (contends_iff.mpr ⟨hf, hwait⟩) hid
          rw [hv, Except.ok.injEq] at hv'
          rw [hw, Except.ok.injEq] at hw'
          subst hv' hw'
          have hself := HandValue.lt_trans hlt hgt
          rw [HandValue.lt_irrefl] at hself
          exact absurd hself (by simp)
    · rw [if_neg hle, paidTo_eq_zero]
      exact fun hw => hle (strongest.of_mem hs hp hw).2.1

/-- Who covers everybody is among the winners of every pot. -/
theorem Covers.mem_winners {level : Int} {award : PotAward} (hcov : t.Covers p)
    (hp : p ∈ t.players) (hc : p.contends = true) (hsound : t.AwardSound level award)
    (hstrong : t.Strongest level award.winners) : p.id ∈ award.winners := by
  obtain ⟨w, hw⟩ := List.exists_mem_of_ne_nil _ hsound.winners_ne
  obtain ⟨r, hr, -⟩ := hsound.winners_eligible w hw
  obtain ⟨hseat, hle, hf, hwait⟩ := mem_eligible hr
  have hreach := (hcov r (mem_players.mpr hseat) (contends_iff.mpr ⟨hf, hwait⟩)).2
  refine hstrong.mem hsound (mem_eligible_of hp hc (hle.trans hreach)) fun q hq => ?_
  obtain ⟨hseat, -, hf, hwait⟩ := mem_eligible hq
  exact (hcov q (mem_players.mpr hseat) (contends_iff.mpr ⟨hf, hwait⟩)).1

theorem Awards.tied (h : Awards t previous levels awards) (hp : p ∈ t.players)
    (hq : q ∈ t.players) (hcp : p.contends = true) (hcq : q.contends = true) (hcovp : t.Covers p)
    (hcovq : t.Covers q) : |wonBy awards p.id - wonBy awards q.id| ≤ awards.length := by
  induction h with
  | nil => simp
  | skip _ _ ih => exact ih
  | @pay _ _ _ award awards _ sound strongest _ ih =>
    have hclose := strongest.paidTo_close (hcovp.mem_winners hp hcp sound strongest)
      (hcovq.mem_winners hq hcq sound strongest)
    rw [abs_le] at hclose ih ⊢
    rw [wonBy_cons, wonBy_cons, List.length_cons]
    push_cast
    omega

/-- Whoever competes for a layer has a hand. -/
theorem Awards.shown (h : Awards t previous levels awards) (hp : p ∈ t.players)
    (hc : p.contends = true) (hlevel : p.handCommitment ∈ levels) :
    ∃ value, p.handOn t.board = .ok value := by
  induction h with
  | nil => exact absurd hlevel (by simp)
  | @skip previous level levels awards nobody _ ih =>
    rcases List.mem_cons.mp hlevel with heq | hrest
    · exact absurd (mem_eligible_of hp hc (le_of_eq heq.symm)) (by simp [nobody])
    · exact ih hrest
  | @pay previous level levels award awards _ _ strongest _ ih =>
    rcases List.mem_cons.mp hlevel with heq | hrest
    · obtain ⟨-, best, hmax, -⟩ := strongest
      obtain ⟨value, hvalue, -⟩ := hmax p (mem_eligible_of hp hc (le_of_eq heq.symm))
      exact ⟨value, hvalue⟩
    · exact ih hrest

/-! ## The settled table -/

/-- **`buildAndAwardPots` pays by strength.** -/
theorem buildAndAwardPots_strength (hs : t.Seating)
    (hnn : ∀ i p, t.seatAt i = some p → 0 ≤ p.handCommitment)
    (h : t.buildAndAwardPots = .ok (t', awards)) : t.PaysByStrength awards := by
  obtain ⟨new, hnew, hlayers⟩ := awardLayers_awards hs (pairwise_levels t) h
  rw [List.nil_append] at hnew
  subst hnew
  have hlevel : ∀ p ∈ t.players, p.handCommitment ∈ 0 :: t.levels := fun p hp => by
    obtain ⟨i, hi⟩ := mem_players.mp hp
    rcases lt_or_eq_of_le (hnn i p hi) with hpos | hzero
    · exact List.mem_cons_of_mem _ (mem_levels.mpr ⟨List.mem_map.mpr ⟨p, hp, rfl⟩, hpos⟩)
    · exact hzero ▸ List.mem_cons_self
  refine ⟨fun p hp hc hpos => ?_, fun p hp => hlayers.out hs hp, fun p hp hc hbest => ?_,
    fun p hp q hq => hlayers.beaten hs hp hq, fun p hp q hq => hlayers.tied hp hq⟩
  · exact hlayers.shown hp hc (mem_levels.mpr ⟨List.mem_map.mpr ⟨p, hp, rfl⟩, hpos⟩)
  · rw [hlayers.best hs hp hc hbest,
      Layers.layerSum_eq_sum_min (pairwise_levels t) (hlevel p hp), commitments, List.map_map]
    · congr 1
      exact List.map_congr_left fun q _ => min_comm _ _
    · intro c hc
      obtain ⟨q, hq, rfl⟩ := List.mem_map.mp hc
      exact hlevel q hq

/-- What the clauses read of a player: everything but the chips left and the ready flag. -/
theorem PaysByStrength.map {f : Player → Player} (h : t.PaysByStrength awards)
    (hplayers : t'.players = t.players.map f) (hboard : t'.board = t.board)
    (hf : ∀ p, (f p).id = p.id ∧ (f p).hole = p.hole ∧ (f p).contends = p.contends ∧
      (f p).handCommitment = p.handCommitment) : t'.PaysByStrength awards := by
  have hhand : ∀ p, (f p).handOn t'.board = p.handOn t.board := fun p => by
    unfold Player.handOn
    rw [hboard, (hf p).2.1]
  have hbeats : ∀ p q, t'.Beats (f p) (f q) ↔ t.Beats p q := fun p q => by
    unfold Beats
    rw [hhand, hhand]
  have hcov : ∀ p, t'.Covers (f p) → t.Covers p := fun p hc q hq hcq => by
    have := hc (f q) (by rw [hplayers]; exact List.mem_map_of_mem hq) (by rw [(hf q).2.2.1, hcq])
    rw [hbeats, (hf q).2.2.2, (hf p).2.2.2] at this
    exact this
  constructor
  · rw [hplayers]
    simp only [List.forall_mem_map]
    intro p hp hc hpos
    rw [hhand]
    rw [(hf p).2.2.1] at hc
    rw [(hf p).2.2.2] at hpos
    exact h.shown p hp hc hpos
  · rw [hplayers]
    simp only [List.forall_mem_map]
    intro p hp hc
    rw [(hf p).2.2.1] at hc
    rw [(hf p).1]
    exact h.out p hp hc
  · rw [hplayers]
    simp only [List.forall_mem_map]
    intro p hp hc hbest
    rw [(hf p).2.2.1] at hc
    rw [(hf p).1, h.best p hp hc fun q hq hcq hid => (hbeats p q).mp
      (hbest q hq (by rw [(hf q).2.2.1, hcq]) (by rw [(hf q).1, (hf p).1]; exact hid)),
      List.map_map]
    congr 1
    refine List.map_congr_left fun q _ => ?_
    simp only [Function.comp, (hf p).2.2.2, (hf q).2.2.2]
  · rw [hplayers]
    simp only [List.forall_mem_map]
    intro p hp q hq hc hb hle
    rw [(hf q).2.2.1] at hc
    rw [hbeats] at hb
    rw [(hf p).2.2.2, (hf q).2.2.2] at hle
    rw [(hf p).1]
    exact h.beaten p hp q hq hc hb hle
  · rw [hplayers]
    simp only [List.forall_mem_map]
    intro p hp q hq hcp hcq hcovp hcovq
    rw [(hf p).2.2.1] at hcp
    rw [(hf q).2.2.1] at hcq
    rw [(hf p).1, (hf q).1]
    exact h.tied p hp q hq hcp hcq (hcov p hcovp) (hcov q hcovq)

/-- **A showdown pays by strength.** -/
theorem settleShowdown_strength (hs : t.Seating)
    (hnn : ∀ i p, t.seatAt i = some p → 0 ≤ p.handCommitment) (hc : 0 < t.contenders)
    (h : t.settleShowdown = .ok t') : t'.PaysByStrength t'.lastAwards := by
  obtain ⟨w, awards, -, hws, hwnn, -, hpots, rfl⟩ := settleShowdown_pots hs hnn hc h
  refine (buildAndAwardPots_strength hws hwnn hpots).map
    (f := fun p => { p.gain (wonBy awards) with ready := false }) ?_ rfl
    fun p => ⟨rfl, rfl, rfl, rfl⟩
  change ((w.mapSeats (Player.gain (wonBy awards))).mapSeats _).players = _
  rw [players_mapSeats, players_mapSeats, List.map_map]
  rfl

/-! ## Runs -/

/-- A fold of the acting player that leaves one contender. -/
def FoldsOut (t : Table) : TableOp → Prop
  | .act command =>
    command.type = .fold ∧ (t.actingSeat.bind t.seatAt).map (·.id) = some command.playerId ∧
      (t.rivals command.playerId).length = 1
  | _ => False

instance (t : Table) : (op : TableOp) → Decidable (t.FoldsOut op)
  | .act _ => inferInstanceAs (Decidable (_ ∧ _ ∧ _))
  | .seatPlayer .. | .removePlayer .. | .setReady .. | .setConnected .. | .startHand ..
  | .startHandWithDeck .. | .abortHand => inferInstanceAs (Decidable False)

theorem PaidFrom.contenders_paid (h : PaidFrom awards t t') : t'.contenders = t.contenders := by
  have hsum := h.sum_eq (f := fun p => if p.contends then (1 : Int) else 0) fun p => rfl
  have hgain : ∀ p : Player, (p.gain (wonBy awards)).contends = p.contends := fun p => rfl
  simp only [hgain, sum_countP] at hsum
  unfold contenders
  exact_mod_cast hsum

/-- How an accepted operation ends a hand: the board is run out at once, the last rival folds, or
the last word leads to a showdown. -/
inductive Ends (t : Table) : TableOp → Table → Prop
  | runsOut {op : TableOp} {deck : Deck} {v t' : Table} (deals : op.Deals deck)
      (two : 2 ≤ t.readyPlayers) (opening : t.Opening deck v) (shown : Showdown v t') : Ends t op t'
  | folds {command : ActionCommand} {i : Nat} {p q : Player} {u t' : Table} (awaiting : t.Awaiting)
      (acting : t.actingSeat = some i) (seat : t.seatAt i = some p)
      (player : p.id = command.playerId) (acted : Acted t i p q u)
      (kind : (command.type = .fold ∧ q = { p with status := .folded }) ∨
        (command.type ≠ .fold ∧ q.contends = true))
      (few : u.contenders ≤ 1) (won : FoldWin u t') : Ends t (.act command) t'
  | shows {command : ActionCommand} {i : Nat} {p q : Player} {u t' : Table} (awaiting : t.Awaiting)
      (seat : t.seatAt i = some p) (acted : Acted t i p q u) (two : 2 ≤ u.contenders)
      (shown : Showdown u t') : Ends t (.act command) t'

theorem exec_ends {op : TableOp} (hi : t.Inv) (h : t.exec op = .ok (e, t'))
    (hset : Settles ⟨t, (op, e), t'⟩) : e = .ok ∧ Ends t op t' := by
  obtain ⟨hnow, hnew⟩ := hset
  simp only at hnow hnew
  rcases exec_effect hi h with ⟨-, rfl⟩ | ⟨rfl, heffect⟩
  · exact absurd hnow (hnew.resolve_right fun hne => hne rfl)
  refine ⟨rfl, ?_⟩
  cases heffect with
  | sits => exact absurd hnow (hnew.resolve_right fun hne => hne rfl)
  | leaves => exact absurd hnow (hnew.resolve_right fun hne => hne rfl)
  | readies => exact absurd hnow (hnew.resolve_right fun hne => hne rfl)
  | connects => exact absurd hnow (hnew.resolve_right fun hne => hne rfl)
  | aborts hhand =>
    rw [abortHand, if_neg hhand] at hnow
    exact absurd hnow (by simp)
  | starts hdeals _ htwo hstarted =>
    cases hstarted with
    | awaiting _ _ haw => exact absurd hnow (betting_ne_settled haw.toBetting.street)
    | stranded _ _ hst => exact absurd hnow (betting_ne_settled hst.toBetting.street)
    | showdown hopen _ hshow _ => exact .runsOut hdeals htwo hopen hshow
  | acts hawait hacting hp hid _ hacted _ hkind _ hout =>
    cases hout with
    | awaiting _ haw _ => exact absurd hnow (betting_ne_settled haw.toBetting.street)
    | showdown htwo hshow => exact .shows hawait hp hacted htwo hshow
    | foldWin hfew hwin => exact .folds hawait hacting hp hid hacted hkind hfew hwin

/-- A step that ends a hand settles a betting table: by the last fold, or by a showdown. -/
theorem exec_settles {op : TableOp} (hi : t.Inv) (h : t.exec op = .ok (e, t'))
    (hset : Settles ⟨t, (op, e), t'⟩) :
    ∃ u, u.Betting ∧ ((u.contenders ≤ 1 ∧ FoldWin u t' ∧ e = .ok ∧ t.FoldsOut op) ∨
      (2 ≤ u.contenders ∧ Showdown u t')) := by
  obtain ⟨rfl, hends⟩ := exec_ends hi h hset
  cases hends with
  | runsOut _ htwo hopen hshow =>
    exact ⟨_, hopen.betting hi.seating, Or.inr ⟨hopen.contested htwo, hshow⟩⟩
  | shows hawait hp hacted htwo hshow =>
    exact ⟨_, hacted.betting hp hawait.toBetting, Or.inr ⟨htwo, hshow⟩⟩
  | @folds command i p q u _ hawait hacting hp hid hacted hkind hfew hwin =>
    obtain ⟨htype, rfl⟩ := hacted.fold_of_few hawait hp hfew hkind
    obtain ⟨k, w, hw, hwc, -⟩ := hwin.winner
    have hriv := (hacted.mem_rivals_of_fold hawait.toBetting.seating hp (r := w)).mpr
      ⟨k, hw, hwc⟩
    refine ⟨u, hacted.betting hp hawait.toBetting, Or.inl ⟨hfew, hwin, rfl, htype, ?_, ?_⟩⟩
    · rw [hacting, Option.bind_some, hp, Option.map_some, hid]
    · rw [← hid]
      exact hacted.rivals_length_of_few hp hfew ⟨w, hriv⟩

theorem exec_strength {op : TableOp} (hi : t.Inv) (h : t.exec op = .ok (e, t'))
    (hset : Settles ⟨t, (op, e), t'⟩) (htwo : 2 ≤ t'.contenders) :
    t'.PaysByStrength t'.lastAwards := by
  obtain ⟨u, hb, ⟨hfew, hwin, -⟩ | ⟨hmany, hshow⟩⟩ := exec_settles hi h hset
  · rw [hwin.paid.contenders_paid] at htwo
    omega
  · obtain ⟨w, hpaid, hcall⟩ := hshow.called
    refine settleShowdown_strength (hb.seating.of_same hpaid.sameSeating) (fun i q hq => ?_) ?_
      hcall
    · obtain ⟨p, hp, hpq⟩ := hpaid.seat_back hq
      rw [hpq.hand]
      exact (hb.sound i p hp).hand_nonneg
    · rw [hpaid.contenders_eq]
      omega

/-- Hands end at tables with an accepted configuration only: any other refuses every operation. -/
theorem inv_of_settles {config : TableConfig} {trace : List (Step Table (TableOp × TableError))}
    (hrun : Run Steps (new config) trace t) {step : Step Table (TableOp × TableError)}
    (hstep : step ∈ trace) (hset : Settles step) :
    step.before.Inv ∧ step.before.exec step.label.1 = .ok (step.label.2, step.after) := by
  obtain ⟨hreach, hexec⟩ := hrun.entry hstep
  refine ⟨?_, hexec⟩
  by_cases hconfig : config.validateConfig = .ok
  · exact reach_inv hconfig hreach
  · rw [reach_new_invalid hconfig hreach] at hexec
    have hsame := (exec_new_invalid hconfig hexec).2
    have hnow := hset.1
    rw [hsame] at hnow
    exact absurd hnow (by simp [new])

/-- **Every hand of a run that ends with several contenders is paid by strength.** -/
theorem showdown_pays {config : TableConfig} {trace : List (Step Table (TableOp × TableError))}
    (hrun : Run Steps (new config) trace t) {step : Step Table (TableOp × TableError)}
    (hstep : step ∈ trace) (hset : Settles step) (htwo : 2 ≤ step.after.contenders) :
    step.after.PaysByStrength step.after.lastAwards := by
  obtain ⟨hi, hexec⟩ := inv_of_settles hrun hstep hset
  exact exec_strength hi hexec hset htwo

/-- Three stacks of different size all in before the flop: the main pot, a side pot and the part
nobody called. -/
theorem showdown_pays_allIn :
    ∃ trace t, Run Steps (new { minBuyIn := 1 }) trace t ∧ t.lastAwards.length = 3 ∧
      t.PaysByStrength t.lastAwards := by
  have hcheck : (replay perform (new { minBuyIn := 1 })
      [.seatPlayer 1 0 100, .seatPlayer 2 1 200, .seatPlayer 3 2 300, .setReady 1 true,
        .setReady 2 true, .setReady 3 true, .startHandWithDeck orderedDeck,
        .act { playerId := 1, type := .allIn }, .act { playerId := 2, type := .allIn },
        .act { playerId := 3, type := .allIn }]).any (fun r => r.1.getLast?.any fun step =>
          decide (step.after = r.2 ∧ Settles step ∧ 2 ≤ step.after.contenders ∧
            r.2.lastAwards.length = 3)) = true := by
    decide +kernel
  obtain ⟨⟨trace, t⟩, hr, hc⟩ := (Option.any_eq_true _ _).mp hcheck
  obtain ⟨step, hlast, hstep⟩ := (Option.any_eq_true _ _).mp hc
  rw [decide_eq_true_eq] at hstep
  obtain ⟨rfl, hset, htwo, hlen⟩ := hstep
  have hrun := run_of_replay hr
  exact ⟨trace, _, hrun, hlen, showdown_pays hrun (List.mem_of_getLast? hlast) hset htwo⟩

end PokerServer.Table

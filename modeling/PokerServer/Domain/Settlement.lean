import Mathlib.Algebra.Order.BigOperators.Group.List
import Mathlib.Data.Finset.Max
import Mathlib.Data.Int.Cast.Lemmas
import Mathlib.Tactic.Linarith
import Mathlib.Tactic.Positivity
import PokerServer.Domain.Seats
import PokerServer.Lib.Checked
import PokerServer.Lib.Layers

/-!
# Settling a hand

What `settleFoldWin` and `buildAndAwardPots` do to the stacks, and what their awards add up to.

* `paidTo` / `wonBy` read off a list of awards what it pays a player: the sum `handSettlement`
  builds in its `winnings` map. Both settlements add exactly that to each stack
  (`settleFoldWin_spec`, `buildAndAwardPots_spec`).
* `AwardSound`: what is known of one award of `buildAndAwardPots`.
* `buildAndAwardPots_spec` also says that the awards of a showdown add up to `∑ min c m`, where `m`
  is the largest commitment of a player who still contends. Layers above it have no eligible player
  and are skipped, so they hold the chips the loop pays to nobody.
-/

namespace PokerServer

/-- The chips an award pays to `id`. -/
def PotAward.paidTo (award : PotAward) (id : PlayerId) : Int :=
  (award.winners.zipIdx.map fun w => if w.1 = id then award.share w.2 else 0).sum

/-- The chips a list of awards pays to `id`. -/
def wonBy (awards : List PotAward) (id : PlayerId) : Int :=
  (awards.map fun award => award.paidTo id).sum

@[simp] theorem wonBy_nil (id : PlayerId) : wonBy [] id = 0 := rfl

namespace Player

/-- The player's best hand on a board. -/
def handOn (board : List Card) (p : Player) : Except Fault HandValue :=
  evaluateBest (board ++ [p.hole.1, p.hole.2])

/-- The player with `extra` chips more in the stack. -/
def gain (extra : PlayerId → Int) (p : Player) : Player :=
  { p with stack := p.stack + extra p.id }

@[simp] theorem gain_key (extra : PlayerId → Int) (p : Player) : (p.gain extra).key = p.key := rfl

theorem gain_gain (a b : PlayerId → Int) (p : Player) :
    (p.gain a).gain b = p.gain fun id => a id + b id := by
  simp [gain, add_assoc]

end Player

namespace Table

variable {t t' : Table} {i : Nat} {p : Player}

theorem mapSeats_mapSeats (t : Table) (f g : Player → Player) :
    (t.mapSeats f).mapSeats g = t.mapSeats fun p => g (f p) := by
  simp [mapSeats, Function.comp_def]

theorem mapSeats_id (t : Table) : (t.mapSeats fun p => p) = t := by
  simp [mapSeats]

theorem mapSeats_gain_zero (t : Table) : t.mapSeats (Player.gain fun _ => 0) = t := by
  have : (Player.gain fun _ => 0) = fun p : Player => p := by
    funext p
    simp [Player.gain]
  rw [this, mapSeats_id]

/-! ## Paying the winners of one award -/

/-- The payment loop adds each winner's share to the stack with its id. -/
theorem payWinners_spec {award : PotAward} {k : Nat} {ids : List PlayerId} (hs : t.Seating)
    (h : payWinners award t k ids = .ok t') :
    t' = t.mapSeats (Player.gain fun id =>
      ((ids.zipIdx k).map fun w => if w.1 = id then award.share w.2 else 0).sum) ∧
    ∀ id ∈ ids, ∃ i p, t.seatAt i = some p ∧ p.id = id := by
  induction ids generalizing t k with
  | nil =>
    rw [payWinners, Except.ok.injEq] at h
    refine ⟨?_, by simp⟩
    simp only [List.zipIdx_nil, List.map_nil, List.sum_nil, mapSeats_gain_zero, h]
  | cons id ids ih =>
    rw [payWinners] at h
    cases hid : t.seatOf id with
    | none => rw [hid] at h; exact absurd h (by simp)
    | some i =>
      rw [hid] at h
      simp only at h
      obtain ⟨p, hp, hpid⟩ := seatOf_some hid
      rw [hs.modifyPlayer_eq] at h
      have hsame : SameSeating t (t.mapSeats fun q =>
          if q.id = id then { q with stack := q.stack + award.share k } else q) :=
        sameSeating_mapSeats fun q => by split <;> rfl
      obtain ⟨heq, hids⟩ := ih (hs.of_same hsame) h
      constructor
      · rw [heq, mapSeats_mapSeats]
        congr 1
        funext q
        simp only [List.zipIdx_cons, List.map_cons, List.sum_cons]
        by_cases hq : q.id = id
        · simp only [Player.gain, hq, if_true]
          rw [add_assoc]
        · simp only [Player.gain, if_neg hq, if_neg (Ne.symm hq), zero_add]
      · intro w hw
        rcases List.mem_cons.mp hw with rfl | hw
        · exact ⟨i, p, hp, hpid⟩
        · obtain ⟨j, q, hq, hqid⟩ := hids w hw
          obtain ⟨q', hq', hid', -⟩ := hsame.symm.seat hq
          exact ⟨j, q', hq', by rw [hid', hqid]⟩

/-! ## The hands compared for one layer -/

/-- What the winner loop holds after `players`: the best of their hands, and who holds it. -/
def Leads (board : List Card) (players : List Player) :
    Option (HandValue × List PlayerId) → Prop
  | none => players = []
  | some (best, winners) =>
    (∃ p ∈ players, p.handOn board = .ok best) ∧
    (∀ p ∈ players, ∃ value, p.handOn board = .ok value ∧ ¬ best.lt value = true) ∧
    (∀ id, id ∈ winners ↔ ∃ p ∈ players, p.id = id ∧ p.handOn board = .ok best) ∧
    winners.Sublist (players.map (·.id))

/-- A hand better than all before leads alone. -/
theorem leads_alone {board : List Card} {players : List Player} {value : HandValue}
    (hvalue : p.handOn board = .ok value)
    (hbetter : ∀ q ∈ players, ∃ v, q.handOn board = .ok v ∧ v.lt value = true) :
    Leads board (players ++ [p]) (some (value, [p.id])) := by
  refine ⟨⟨p, by simp, hvalue⟩, fun q hq => ?_, fun id => ?_, ?_⟩
  · rcases List.mem_append.mp hq with hq | hq
    · obtain ⟨v, hv, hlt⟩ := hbetter q hq
      refine ⟨v, hv, fun hgt => ?_⟩
      have hself := HandValue.lt_trans hlt hgt
      rw [HandValue.lt_irrefl] at hself
      exact absurd hself (by simp)
    · rw [List.mem_singleton.mp hq]
      exact ⟨value, hvalue, by rw [HandValue.lt_irrefl]; simp⟩
  · rw [List.mem_singleton]
    refine ⟨fun h => ⟨p, by simp, h.symm, hvalue⟩, ?_⟩
    rintro ⟨q, hq, rfl, hsame⟩
    rcases List.mem_append.mp hq with hq | hq
    · obtain ⟨v, hv, hlt⟩ := hbetter q hq
      rw [hv, Except.ok.injEq] at hsame
      rw [hsame, HandValue.lt_irrefl] at hlt
      exact absurd hlt (by simp)
    · rw [List.mem_singleton.mp hq]
  · rw [List.map_append]
    exact List.sublist_append_right _ _

/-- One round of the winner loop. -/
theorem Leads.compare {board : List Card} {players : List Player}
    {b r : Option (HandValue × List PlayerId)} (hb : Leads board players b)
    (h : compareHand board b p = .ok r) : Leads board (players ++ [p]) r := by
  unfold compareHand at h
  rw [Checked.bind_ok_iff] at h
  obtain ⟨value, hvalue, h⟩ := h
  cases b with
  | none =>
    rw [Checked.pure_ok_iff] at h
    have hnil : players = [] := hb
    subst hnil h
    exact leads_alone hvalue (by simp)
  | some bw =>
    obtain ⟨best, winners⟩ := bw
    obtain ⟨⟨q, hq, hbest⟩, hmax, hmem, hsub⟩ := hb
    simp only at h
    split at h
    · rename_i hlt
      rw [Checked.pure_ok_iff] at h
      subst h
      refine leads_alone hvalue fun r hr => ?_
      obtain ⟨v, hv, hle⟩ := hmax r hr
      refine ⟨v, hv, ?_⟩
      by_cases hvb : v.lt best = true
      · exact HandValue.lt_trans hvb hlt
      · rw [HandValue.eq_of_not_lt hvb hle]
        exact hlt
    · rename_i hlt
      have hmax' : ∀ r ∈ players ++ [p], ∃ v, r.handOn board = .ok v ∧ ¬ best.lt v = true := by
        intro r hr
        rcases List.mem_append.mp hr with hr | hr
        · exact hmax r hr
        · rw [List.mem_singleton.mp hr]
          exact ⟨value, hvalue, hlt⟩
      split at h
      · rename_i heq
        rw [Checked.pure_ok_iff] at h
        subst h heq
        refine ⟨⟨q, List.mem_append_left _ hq, hbest⟩, hmax', fun id => ?_, ?_⟩
        · rw [List.mem_append, hmem, List.mem_singleton]
          constructor
          · rintro (⟨r, hr, hid, hv⟩ | rfl)
            · exact ⟨r, List.mem_append_left _ hr, hid, hv⟩
            · exact ⟨p, by simp, rfl, hvalue⟩
          · rintro ⟨r, hr, rfl, hv⟩
            rcases List.mem_append.mp hr with hr | hr
            · exact Or.inl ⟨r, hr, rfl, hv⟩
            · exact Or.inr (by rw [List.mem_singleton.mp hr])
        · rw [List.map_append]
          exact hsub.append (List.Sublist.refl _)
      · rename_i hne
        rw [Checked.pure_ok_iff] at h
        subst h
        refine ⟨⟨q, List.mem_append_left _ hq, hbest⟩, hmax', fun id => ?_, ?_⟩
        · rw [hmem]
          constructor
          · rintro ⟨r, hr, hid, hv⟩
            exact ⟨r, List.mem_append_left _ hr, hid, hv⟩
          · rintro ⟨r, hr, rfl, hv⟩
            rcases List.mem_append.mp hr with hr | hr
            · exact ⟨r, hr, rfl, hv⟩
            · rw [List.mem_singleton.mp hr] at hv
              exact absurd (Except.ok.inj (hvalue.symm.trans hv)) hne
        · rw [List.map_append]
          exact hsub.trans (List.sublist_append_left _ _)

/-- **The winner loop finds the best hand and everybody who holds it.** -/
theorem compareHand_fold {board : List Card} {rest : List Player} :
    ∀ {players : List Player} {b r : Option (HandValue × List PlayerId)}, Leads board players b →
    rest.foldlM (compareHand board) b = .ok r → Leads board (players ++ rest) r := by
  induction rest with
  | nil =>
    intro players b r hb h
    rw [List.foldlM_nil, Checked.pure_ok_iff] at h
    rw [List.append_nil, ← h]
    exact hb
  | cons p rest ih =>
    intro players b r hb h
    rw [List.foldlM_cons, Checked.bind_ok_iff] at h
    obtain ⟨c, hc, h⟩ := h
    rw [← List.singleton_append, ← List.append_assoc]
    exact ih (hb.compare hc) h

/-! ## One layer -/

/-- What is known of an award `buildAndAwardPots` makes at `level`. -/
structure AwardSound (t : Table) (level : Int) (award : PotAward) : Prop where
  pot_pos : 0 < award.potSize
  winners_ne : award.winners ≠ []
  winners_eligible : ∀ w ∈ award.winners, ∃ p ∈ t.eligible level, p.id = w
  share_eq : award.equalShare = award.potSize.tdiv (award.winners.length : Int)
  odd_eq : award.oddChips = award.potSize.tmod (award.winners.length : Int)

/-- The winners of a level are the eligible players with the best hand, each once. -/
def Strongest (t : Table) (level : Int) (winners : List PlayerId) : Prop :=
  winners.Nodup ∧ ∃ best,
    (∀ p ∈ t.eligible level, ∃ value, p.handOn t.board = .ok value ∧ ¬ best.lt value = true) ∧
    ∀ id, id ∈ winners ↔ ∃ p ∈ t.eligible level, p.id = id ∧ p.handOn t.board = .ok best

theorem nodup_eligible (hs : t.Seating) (level : Int) :
    ((t.eligible level).map (·.id)).Nodup := by
  refine hs.nodup_ids.sublist (List.Sublist.map _ ?_)
  unfold eligible contributors
  exact List.filter_sublist.trans List.filter_sublist

/-- A layer is skipped, or pays its pot to the eligible players with the best hand. -/
theorem awardLayer_spec {awards awards' : List PotAward} {previous level : Int} (hs : t.Seating)
    (h : t.awardLayer awards previous level = .ok (t', awards')) :
    (((level - previous) * ((t.contributors level).length : Int) ≤ 0 ∨ t.eligible level = []) ∧
      t' = t ∧ awards' = awards) ∨
    ∃ award, t.eligible level ≠ [] ∧
      award.potSize = (level - previous) * ((t.contributors level).length : Int) ∧
      t.AwardSound level award ∧ t.Strongest level award.winners ∧ awards' = awards ++ [award] ∧
      t' = t.mapSeats (Player.gain award.paidTo) := by
  unfold awardLayer at h
  simp only at h
  split at h
  · rename_i hskip
    simp only [Except.ok.injEq, Prod.mk.injEq] at h
    exact Or.inl ⟨hskip, h.1.symm, h.2.symm⟩
  · rename_i hgo
    rw [not_or, not_le] at hgo
    right
    simp only [Checked.bind_ok_iff, Checked.pure_ok_iff, Prod.mk.injEq] at h
    obtain ⟨best, hbest, winners, hwin, u, hu, rfl, rfl⟩ := h
    have hstart : Leads t.board [] none := rfl
    have hleads := compareHand_fold hstart hbest
    rw [List.nil_append] at hleads
    obtain ⟨hpay, -⟩ := payWinners_spec hs hu
    cases best with
    | none => exact absurd hleads hgo.2
    | some leader =>
    obtain ⟨value, ids⟩ := leader
    obtain ⟨⟨q, hq, hvalue⟩, hmax, hmem, hsub⟩ := hleads
    have hperm : winners.Perm ids := by
      unfold orderedClockwise at hwin
      split at hwin
      · exact absurd hwin (by simp)
      · simp only [Option.map_some, Option.getD_some, Except.ok.injEq] at hwin
        rw [← hwin]
        exact List.perm_insertionSort _ _
    refine ⟨_, hgo.2, rfl, ⟨hgo.1, ?_, ?_, rfl, rfl⟩, ⟨?_, value, hmax, ?_⟩, rfl, hpay⟩
    · exact List.ne_nil_of_mem (hperm.mem_iff.mpr ((hmem q.id).mpr ⟨q, hq, rfl, hvalue⟩))
    · intro w hw
      obtain ⟨p, hp, hid, -⟩ := (hmem w).mp (hperm.mem_iff.mp hw)
      exact ⟨p, hp, hid⟩
    · exact hperm.nodup_iff.mpr ((nodup_eligible hs level).sublist hsub)
    · exact fun id => hperm.mem_iff.trans (hmem id)

/-! ## What one award adds up to -/

theorem sum_odd (odd : Int) (h0 : 0 ≤ odd) : ∀ n : Nat, odd ≤ n →
    ((List.range n).map fun k => if ((k : Nat) : Int) < odd then (1 : Int) else 0).sum = odd := by
  intro n
  induction n with
  | zero => intro h; simp; omega
  | succ n ih =>
    intro h
    rw [List.range_succ, List.map_append, List.sum_append, List.map_singleton, List.sum_singleton]
    by_cases hn : odd ≤ n
    · rw [ih hn, if_neg (by omega), add_zero]
    · have hodd : odd = n + 1 := by push_cast at h; omega
      have hall : ((List.range n).map fun k => if ((k : Nat) : Int) < odd then (1 : Int) else 0) =
          (List.range n).map fun _ => (1 : Int) := by
        refine List.map_congr_left fun k hk => if_pos ?_
        have := List.mem_range.mp hk
        omega
      rw [hall, if_pos (by omega), List.map_const', List.sum_replicate, List.length_range, hodd]
      simp

/-- The shares of an award add up to its pot. -/
theorem AwardSound.sum_shares {level : Int} {award : PotAward} (h : t.AwardSound level award) :
    (award.winners.zipIdx.map fun w => award.share w.2).sum = award.potSize := by
  have hlen : 0 < (award.winners.length : Int) := by
    exact_mod_cast List.length_pos_iff.mpr h.winners_ne
  have hmap : (award.winners.zipIdx.map fun w => award.share w.2) =
      (List.range award.winners.length).map award.share := by
    rw [show (fun w : PlayerId × Nat => award.share w.2) = award.share ∘ Prod.snd from rfl,
      ← List.map_map, List.zipIdx_map_snd, List.range_eq_range']
  have hpos := le_of_lt h.pot_pos
  have hodd0 : 0 ≤ award.oddChips := by rw [h.odd_eq]; exact Int.tmod_nonneg _ hpos
  have hoddlt : award.oddChips < award.winners.length := by
    rw [h.odd_eq]; exact Int.tmod_lt_of_pos _ hlen
  have hdiv := Int.mul_tdiv_add_tmod award.potSize (award.winners.length : Int)
  rw [← h.share_eq, ← h.odd_eq] at hdiv
  rw [hmap]
  unfold PotAward.share
  rw [List.sum_map_add, sum_odd _ hodd0 _ (le_of_lt hoddlt), List.map_const', List.sum_replicate,
    List.length_range, nsmul_eq_mul]
  exact hdiv

/-- No award pays a player a negative amount. -/
theorem AwardSound.paidTo_nonneg {level : Int} {award : PotAward} (h : t.AwardSound level award)
    (id : PlayerId) : 0 ≤ award.paidTo id := by
  have hshare : 0 ≤ award.equalShare := by
    rw [h.share_eq]
    exact Int.tdiv_nonneg (le_of_lt h.pot_pos) (by positivity)
  refine List.sum_nonneg fun x hx => ?_
  obtain ⟨w, -, rfl⟩ := List.mem_map.mp hx
  unfold PotAward.share
  split_ifs <;> omega

/-- A player who is not among the winners is paid nothing. -/
theorem paidTo_eq_zero {award : PotAward} {id : PlayerId} (h : id ∉ award.winners) :
    award.paidTo id = 0 := by
  refine List.sum_eq_zero fun x hx => ?_
  obtain ⟨w, hw, rfl⟩ := List.mem_map.mp hx
  refine if_neg fun heq => h ?_
  obtain ⟨a, k⟩ := w
  exact heq ▸ (List.mem_zipIdx' hw).2 ▸ List.getElem_mem _

/-- A sum over the players of sums over the winners, the other way round. -/
theorem sum_paid_comm (hs : t.Seating) (f : Nat → Int) :
    ∀ ws : List (PlayerId × Nat), (∀ w ∈ ws, ∃ i p, t.seatAt i = some p ∧ p.id = w.1) →
    (t.players.map fun p => (ws.map fun w => if w.1 = p.id then f w.2 else 0).sum).sum =
      (ws.map fun w => f w.2).sum
  | [], _ => by simp
  | w :: ws, h => by
    obtain ⟨i, p, hp, hid⟩ := h w List.mem_cons_self
    simp only [List.map_cons, List.sum_cons]
    rw [List.sum_map_add, sum_paid_comm hs f ws fun w hw => h w (List.mem_cons_of_mem _ hw),
      ← hid, hs.sum_single hp]

theorem mem_eligible {level : Int} (hp : p ∈ t.eligible level) :
    (∃ i, t.seatAt i = some p) ∧ level ≤ p.handCommitment ∧ p.status ≠ .folded ∧
      p.status ≠ .waiting := by
  unfold eligible contributors at hp
  simp only [List.mem_filter, decide_eq_true_eq, Bool.and_eq_true, bne_iff_ne, ne_eq] at hp
  exact ⟨mem_players.mp hp.1.1, hp.1.2, hp.2.1, hp.2.2⟩

/-- What an award pays the seated players is its pot. -/
theorem AwardSound.sum_paidTo {level : Int} {award : PotAward} (h : t.AwardSound level award)
    (hs : t.Seating) : (t.players.map fun p => award.paidTo p.id).sum = award.potSize := by
  rw [← h.sum_shares]
  refine sum_paid_comm hs award.share _ fun w hw => ?_
  obtain ⟨a, k⟩ := w
  have ha : a ∈ award.winners := (List.mem_zipIdx' hw).2 ▸ List.getElem_mem _
  obtain ⟨p, hp, hid⟩ := h.winners_eligible a ha
  obtain ⟨⟨i, hi⟩, -⟩ := mem_eligible hp
  exact ⟨i, p, hi, hid⟩

theorem AwardSound.paidTo_le {level : Int} {award : PotAward} (h : t.AwardSound level award)
    (id : PlayerId) : award.paidTo id ≤ award.potSize := by
  have hshare : 0 ≤ award.equalShare := by
    rw [h.share_eq]
    exact Int.tdiv_nonneg (le_of_lt h.pot_pos) (by positivity)
  rw [← h.sum_shares]
  refine List.sum_le_sum fun w _ => ?_
  unfold PotAward.share
  split_ifs <;> omega

/-! ## The layers of a showdown

Paying a layer changes stacks only, so the contributors and the eligible players of every later
layer are those of the table the loop started from. -/

/-- The hand commitments of the seated players. -/
def commitments (t : Table) : List Int := t.players.map (·.handCommitment)

theorem length_contributors (t : Table) (level : Int) :
    (t.contributors level).length = t.commitments.countP fun c => decide (level ≤ c) := by
  unfold contributors commitments
  rw [List.countP_map, List.countP_eq_length_filter]
  rfl

theorem commitments_gain (t : Table) (extra : PlayerId → Int) :
    (t.mapSeats (Player.gain extra)).commitments = t.commitments := by
  unfold commitments
  rw [players_mapSeats, List.map_map]
  rfl

theorem eligible_gain (t : Table) (extra : PlayerId → Int) (level : Int) :
    (t.mapSeats (Player.gain extra)).eligible level =
      (t.eligible level).map (Player.gain extra) := by
  unfold eligible contributors
  rw [players_mapSeats, List.filter_map, List.filter_map]
  rfl

theorem awardSound_gain {extra : PlayerId → Int} {level : Int} {award : PotAward}
    (h : (t.mapSeats (Player.gain extra)).AwardSound level award) : t.AwardSound level award where
  pot_pos := h.pot_pos
  winners_ne := h.winners_ne
  winners_eligible := fun w hw => by
    obtain ⟨p, hp, hid⟩ := h.winners_eligible w hw
    rw [eligible_gain] at hp
    obtain ⟨q, hq, rfl⟩ := List.mem_map.mp hp
    exact ⟨q, hq, hid⟩
  share_eq := h.share_eq
  odd_eq := h.odd_eq

/-- The loop over the levels pays each stack what its awards say, every award is sound at its
level, and the pots it pays are the layers that have an eligible player. -/
theorem awardLayers_spec {m : Int} {levels : List Int} :
    ∀ {t t' : Table} {awards awards' : List PotAward} {previous : Int}, t.Seating →
    (previous :: levels).Pairwise (· < ·) →
    (∀ level ∈ levels, t.eligible level ≠ [] ↔ level ≤ m) →
    awardLayers t awards previous levels = .ok (t', awards') →
    ∃ new, awards' = awards ++ new ∧ t' = t.mapSeats (Player.gain (wonBy new)) ∧
      (∀ award ∈ new, ∃ level ∈ levels, t.AwardSound level award) ∧
      (new.map (·.potSize)).sum = Layers.layerSum m previous levels t.commitments ∧
      ∀ i p, t.seatAt i = some p →
        wonBy new p.id ≤ Layers.layerSum p.handCommitment previous levels t.commitments := by
  induction levels with
  | nil =>
    intro t t' awards awards' previous _ _ _ h
    simp only [awardLayers, Except.ok.injEq, Prod.mk.injEq] at h
    refine ⟨[], by simp [h.2], ?_, by simp, by simp [Layers.layerSum], by simp [Layers.layerSum]⟩
    rw [show wonBy [] = fun _ => 0 from rfl, mapSeats_gain_zero, h.1]
  | cons level levels ih =>
    intro t t' awards awards' previous hs hinc helig h
    rw [awardLayers, Checked.bind_ok_iff] at h
    obtain ⟨⟨u, mid⟩, hlayer, h⟩ := h
    simp only at h
    rw [List.pairwise_cons] at hinc
    have hlt : previous < level := hinc.1 level List.mem_cons_self
    have hpot : (level - previous) * ((t.contributors level).length : Int) =
        Layers.layer previous level t.commitments := by
      rw [length_contributors, Layers.layer]
    have hnonneg : 0 ≤ Layers.layer previous level t.commitments := by
      rw [← hpot]
      exact mul_nonneg (by omega) (by positivity)
    rcases awardLayer_spec hs hlayer with ⟨hskip, rfl, rfl⟩ |
      ⟨award, hne, hsize, hsound, -, rfl, rfl⟩
    · obtain ⟨new, rfl, rfl, hlev, hsum, hcap⟩ :=
        ih hs hinc.2 (fun l hl => helig l (List.mem_cons_of_mem _ hl)) h
      refine ⟨new, rfl, rfl, fun a ha => ?_, ?_, fun i p hp => ?_⟩
      · obtain ⟨l, hl, hsnd⟩ := hlev a ha
        exact ⟨l, List.mem_cons_of_mem _ hl, hsnd⟩
      · rw [hsum, Layers.layerSum]
        rcases hskip with hle | hnil
        · rw [hpot] at hle
          rw [show Layers.layer previous level u.commitments = 0 from le_antisymm hle hnonneg]
          simp
        · rw [if_neg fun hc => (helig level List.mem_cons_self).mpr hc hnil, zero_add]
      · rw [Layers.layerSum]
        have := hcap i p hp
        split_ifs <;> omega
    · have hsame : SameSeating t (t.mapSeats (Player.gain award.paidTo)) :=
        sameSeating_mapSeats fun _ => rfl
      obtain ⟨new, rfl, rfl, hlev, hsum, hcap⟩ := ih (hs.of_same hsame) hinc.2
        (fun l hl => by
          rw [eligible_gain, ne_eq, List.map_eq_nil_iff]
          exact helig l (List.mem_cons_of_mem _ hl)) h
      rw [commitments_gain] at hsum hcap
      have hwon : ∀ id, wonBy (award :: new) id = award.paidTo id + wonBy new id := fun id => by
        simp [wonBy]
      refine ⟨award :: new, by simp, ?_, ?_, ?_, ?_⟩
      · rw [mapSeats_mapSeats]
        congr 1
        funext p
        rw [Player.gain_gain]
        simp only [Player.gain, hwon]
      · intro a ha
        rcases List.mem_cons.mp ha with rfl | ha
        · exact ⟨level, List.mem_cons_self, hsound⟩
        · obtain ⟨l, hl, hsnd⟩ := hlev a ha
          exact ⟨l, List.mem_cons_of_mem _ hl, awardSound_gain hsnd⟩
      · rw [List.map_cons, List.sum_cons, hsum, Layers.layerSum,
          if_pos ((helig level List.mem_cons_self).mp hne), hsize, hpot]
      · intro i p hp
        rw [hwon, Layers.layerSum]
        have hrest : wonBy new p.id ≤ Layers.layerSum p.handCommitment level levels t.commitments :=
          hcap i (p.gain award.paidTo) (by rw [seatAt_mapSeats, hp]; rfl)
        by_cases hle : level ≤ p.handCommitment
        · rw [if_pos hle]
          have := hsound.paidTo_le p.id
          rw [hsize, hpot] at this
          omega
        · rw [if_neg hle, paidTo_eq_zero]
          · omega
          · intro hw
            obtain ⟨q, hq, hid⟩ := hsound.winners_eligible _ hw
            obtain ⟨⟨j, hj⟩, hc, -⟩ := mem_eligible hq
            have hij := hs.unique hj hp hid
            subst hij
            rw [hj] at hp
            exact hle (Option.some.inj hp ▸ hc)

/-- What sound awards pay the seated players is the sum of their pots. -/
theorem sum_wonBy (hs : t.Seating) : ∀ {awards : List PotAward},
    (∀ award ∈ awards, ∃ level, t.AwardSound level award) →
    (t.players.map fun p => wonBy awards p.id).sum = (awards.map (·.potSize)).sum
  | [], _ => by simp
  | award :: awards, h => by
    obtain ⟨level, hsound⟩ := h award List.mem_cons_self
    have hwon : ∀ p : Player, wonBy (award :: awards) p.id =
        award.paidTo p.id + wonBy awards p.id :=
      fun p => by simp [wonBy]
    simp only [hwon]
    rw [List.sum_map_add, hsound.sum_paidTo hs,
      sum_wonBy hs fun a ha => h a (List.mem_cons_of_mem _ ha), List.map_cons, List.sum_cons]

theorem wonBy_nonneg {awards : List PotAward}
    (h : ∀ award ∈ awards, ∃ level, t.AwardSound level award) (id : PlayerId) :
    0 ≤ wonBy awards id := by
  refine List.sum_nonneg fun x hx => ?_
  obtain ⟨a, ha, rfl⟩ := List.mem_map.mp hx
  obtain ⟨level, hsound⟩ := h a ha
  exact hsound.paidTo_nonneg id

/-! ## The levels -/

theorem mem_dedupSorted {x : Int} : ∀ {l : List Int}, x ∈ dedupSorted l ↔ x ∈ l
  | [] => Iff.rfl
  | [_] => Iff.rfl
  | a :: b :: rest => by
    rw [dedupSorted]
    split_ifs with h
    · rw [mem_dedupSorted, List.mem_cons, List.mem_cons, List.mem_cons, h]
      tauto
    · simp only [List.mem_cons, mem_dedupSorted]

theorem pairwise_dedupSorted : ∀ {l : List Int}, l.Pairwise (· ≤ ·) →
    (dedupSorted l).Pairwise (· < ·)
  | [], _ => List.Pairwise.nil
  | [_], _ => List.pairwise_singleton _ _
  | a :: b :: rest, h => by
    rw [List.pairwise_cons] at h
    rw [dedupSorted]
    split_ifs with hab
    · exact pairwise_dedupSorted h.2
    · rw [List.pairwise_cons]
      refine ⟨fun x hx => ?_, pairwise_dedupSorted h.2⟩
      rw [mem_dedupSorted] at hx
      have hb := h.1 b List.mem_cons_self
      have hbx : b ≤ x := by
        rcases List.mem_cons.mp hx with rfl | hx
        · exact le_refl _
        · exact (List.pairwise_cons.mp h.2).1 x hx
      omega

theorem mem_levels {x : Int} : x ∈ t.levels ↔ x ∈ t.commitments ∧ 0 < x := by
  unfold levels commitments
  rw [mem_dedupSorted, (List.perm_insertionSort _ _).mem_iff, List.mem_filter]
  simp

theorem pairwise_levels (t : Table) : ((0 : Int) :: t.levels).Pairwise (· < ·) := by
  rw [List.pairwise_cons]
  refine ⟨fun x hx => (mem_levels.mp hx).2, ?_⟩
  exact pairwise_dedupSorted (List.pairwise_insertionSort (· ≤ ·) _)

theorem contends_iff : p.contends = true ↔ p.status ≠ .folded ∧ p.status ≠ .waiting := by
  unfold Player.contends
  cases p.status <;> simp

/-- A level has an eligible player iff a contender committed that much. -/
theorem eligible_ne_nil {level : Int} :
    t.eligible level ≠ [] ↔
      ∃ i p, t.seatAt i = some p ∧ p.contends = true ∧ level ≤ p.handCommitment := by
  constructor
  · intro h
    obtain ⟨p, hp⟩ := List.exists_mem_of_ne_nil _ h
    obtain ⟨⟨i, hi⟩, hle, hf, hw⟩ := mem_eligible hp
    exact ⟨i, p, hi, contends_iff.mpr ⟨hf, hw⟩, hle⟩
  · rintro ⟨i, p, hi, hc, hle⟩
    refine List.ne_nil_of_mem (a := p) ?_
    have := contends_iff.mp hc
    unfold eligible contributors
    simp only [List.mem_filter, decide_eq_true_eq, Bool.and_eq_true, bne_iff_ne, ne_eq]
    exact ⟨⟨mem_players.mpr ⟨i, hi⟩, hle⟩, this.1, this.2⟩

/-- Some contender committed at least as much as every other. -/
theorem exists_top_contender (h : 0 < t.contenders) :
    ∃ i p, t.seatAt i = some p ∧ p.contends = true ∧
      ∀ j q, t.seatAt j = some q → q.contends = true → q.handCommitment ≤ p.handCommitment := by
  unfold contenders at h
  have hne : t.players.filter Player.contends ≠ [] := by
    rw [List.countP_eq_length_filter] at h
    exact List.length_pos_iff.mp h
  obtain ⟨p, hp, hmax⟩ := (t.players.filter Player.contends).toFinset.exists_max_image
    (·.handCommitment) (List.toFinset_nonempty_iff _ |>.mpr hne)
  simp only [List.mem_toFinset] at hp hmax
  rw [List.mem_filter] at hp
  obtain ⟨i, hi⟩ := mem_players.mp hp.1
  exact ⟨i, p, hi, hp.2, fun j q hq hc =>
    hmax q (List.mem_filter.mpr ⟨mem_players.mpr ⟨j, hq⟩, hc⟩)⟩

/-! ## The two settlements -/

/-- What a settlement leaves behind: each stack grew by what the awards pay it, and every award is
paid in full to seated players. -/
structure Paid (t : Table) (awards : List PotAward) : Prop where
  sum_won : (t.players.map fun p => wonBy awards p.id).sum = (awards.map (·.potSize)).sum
  nonneg : ∀ id, 0 ≤ wonBy awards id

/-- **The showdown.** The awards of `buildAndAwardPots` are exactly the stacks' gains; they add up
to `∑ min c m` for the largest contending commitment `m`; and nobody wins more than
`∑ min c own`. -/
theorem buildAndAwardPots_spec {awards : List PotAward} (hs : t.Seating)
    (hnn : ∀ i p, t.seatAt i = some p → 0 ≤ p.handCommitment) {m : Int}
    (hm : ∃ i p, t.seatAt i = some p ∧ p.contends = true ∧ p.handCommitment = m)
    (hmax : ∀ i p, t.seatAt i = some p → p.contends = true → p.handCommitment ≤ m)
    (h : t.buildAndAwardPots = .ok (t', awards)) :
    t' = t.mapSeats (Player.gain (wonBy awards)) ∧ t.Paid awards ∧
      (awards.map (·.potSize)).sum = (t.commitments.map fun c => min c m).sum ∧
      (∀ award ∈ awards, ∃ level, t.AwardSound level award) ∧
      ∀ i p, t.seatAt i = some p →
        wonBy awards p.id ≤ (t.commitments.map fun c => min c p.handCommitment).sum := by
  have hmem : ∀ i p, t.seatAt i = some p → p.handCommitment ∈ 0 :: t.levels := by
    intro i p hp
    have hin : p.handCommitment ∈ t.commitments :=
      List.mem_map.mpr ⟨p, mem_players.mpr ⟨i, hp⟩, rfl⟩
    rcases lt_or_eq_of_le (hnn i p hp) with hpos | hzero
    · exact List.mem_cons_of_mem _ (mem_levels.mpr ⟨hin, hpos⟩)
    · exact hzero ▸ List.mem_cons_self
  have hcs : ∀ c ∈ t.commitments, c ∈ 0 :: t.levels := by
    intro c hc
    obtain ⟨p, hp, rfl⟩ := List.mem_map.mp hc
    obtain ⟨i, hi⟩ := mem_players.mp hp
    exact hmem i p hi
  obtain ⟨i₀, p₀, hp₀, hc₀, rfl⟩ := hm
  have helig : ∀ level ∈ t.levels, t.eligible level ≠ [] ↔ level ≤ p₀.handCommitment := by
    intro level _
    rw [eligible_ne_nil]
    constructor
    · rintro ⟨i, p, hp, hc, hle⟩
      exact hle.trans (hmax i p hp hc)
    · intro hle
      exact ⟨i₀, p₀, hp₀, hc₀, hle⟩
  obtain ⟨new, rfl, rfl, hlev, hsum, hcap⟩ :=
    awardLayers_spec hs (pairwise_levels t) helig h
  have hsound : ∀ award ∈ awards, ∃ level, t.AwardSound level award := fun a ha => by
    obtain ⟨level, -, hl⟩ := hlev a ha
    exact ⟨level, hl⟩
  refine ⟨rfl, ⟨sum_wonBy hs hsound, wonBy_nonneg hsound⟩, ?_, hsound, fun i p hp => ?_⟩
  · rw [hsum, Layers.layerSum_eq_sum_min (pairwise_levels t) (hmem i₀ p₀ hp₀) hcs]
  · rw [← Layers.layerSum_eq_sum_min (pairwise_levels t) (hmem i p hp) hcs]
    exact hcap i p hp

/-- **The fold-out.** The last contender receives the whole pot. -/
theorem settleFoldWin_spec (hs : t.Seating) (h : t.settleFoldWin = .ok t') :
    ∃ i winner, t.seatAt i = some winner ∧ winner.contends = true ∧
      t' = markSettled { t.mapSeats (Player.gain (wonBy t'.lastAwards)) with
        lastAwards := t'.lastAwards } ∧
      t'.lastAwards =
        [{ potSize := t.potSize, winners := [winner.id], equalShare := t.potSize }] := by
  unfold settleFoldWin at h
  split at h
  · exact absurd h (by simp)
  · rename_i winner hfind
    simp only [Except.ok.injEq] at h
    obtain ⟨i, hi⟩ := mem_players.mp (List.mem_of_find?_eq_some hfind)
    have hawards : t'.lastAwards =
        [{ potSize := t.potSize, winners := [winner.id], equalShare := t.potSize }] := by
      rw [← h]; rfl
    refine ⟨i, winner, hi, List.find?_some hfind, ?_, hawards⟩
    have hgain : (fun p : Player =>
        if p.id = winner.id then { p with stack := p.stack + t.potSize } else p) =
        Player.gain (wonBy t'.lastAwards) := by
      funext p
      rw [hawards]
      by_cases hp : p.id = winner.id
      · simp [Player.gain, wonBy, PotAward.paidTo, PotAward.share, hp]
      · simp [Player.gain, wonBy, PotAward.paidTo, hp, Ne.symm hp]
    rw [← hgain, hawards, ← h, hs.modifyPlayer_eq]

end Table

end PokerServer

import PokerServer.Domain.Showdown

/-!
# The hand a run is in

A table does not remember how its hand came about; a run does. `HandOf trace start post`: the last
hand of `trace` was begun by the step `start`, and `post` is what has happened since. `Since t₀ post
t` says what `t` still shows of it: every seated player was dealt in at `t₀`, watches since `t₀`, or
sat down since (`Story`), with the chips and the status that follow. Every state of every run that
is not between hands is in a hand of the run (`exists_underway`) and shows it (`Underway.since`).
-/

namespace PokerServer

/-- An operation that begins a hand when it is accepted. -/
def TableOp.begins : TableOp → Bool
  | .startHand _ | .startHandWithDeck _ => true
  | _ => false

theorem TableOp.Deals.begins {op : TableOp} {deck : Deck} (h : op.Deals deck) :
    op.begins = true := by
  cases h <;> rfl

/-- A player who is not in the hand. -/
structure Player.Apart (p : Player) : Prop where
  status : p.status = .waiting
  hole : p.hasHole = false
  hand : p.handCommitment = 0

theorem Player.Apart.not_contends {p : Player} (h : p.Apart) : p.contends = false := by
  unfold Player.contends
  rw [h.status]
  rfl

theorem Player.Apart.paid {awards : List PotAward} {p q : Player} (h : p.Apart)
    (hpq : p.PaidBy awards q) : q.Apart :=
  ⟨hpq.status.trans h.status, hpq.hasHole.trans h.hole, hpq.hand.trans h.hand⟩

namespace Table

/-- One entry of a table's trace. -/
abbrev Entry := Step Table (TableOp × TableError)

/-- An accepted start. -/
def Starts (step : Entry) : Prop := step.label.1.begins = true ∧ step.label.2 = .ok

/-- An accepted abort. -/
def Aborts (step : Entry) : Prop := step.label = (.abortHand, .ok)

instance (step : Entry) : Decidable (Starts step) := inferInstanceAs (Decidable (_ ∧ _))

instance (step : Entry) : Decidable (Aborts step) := inferInstanceAs (Decidable (_ = _))

/-- `start` began the last hand of `trace`, and `post` has happened in it since. -/
structure HandOf (trace : List Entry) (start : Entry) (post : List Entry) : Prop where
  split : ∃ pre, trace = pre ++ start :: post
  starts : Starts start
  quiet : ∀ step ∈ post, ¬ Starts step ∧ ¬ Aborts step

/-- The player left the table. -/
def Left (post : List Entry) (id : PlayerId) : Prop :=
  ∃ step ∈ post, step.label = (.removePlayer id, .ok)

/-- The player sat down with `buyIn` and has not left since. -/
def Joined (post : List Entry) (id : PlayerId) (seat : Nat) (buyIn : Int) : Prop :=
  ∃ a step b, post = a ++ step :: b ∧ step.label = (.seatPlayer id seat buyIn, .ok) ∧ ¬ Left b id

/-- **How the player `q` at seat `i` came to be what it is**: since the hand began at `t₀`, `post`
has happened and `awards` were paid. -/
inductive Story (t₀ : Table) (post : List Entry) (awards : List PotAward) (i : Nat) (q : Player) :
    Prop
  | dealt {p : Player} (seat : t₀.seatAt i = some p) (plays : p.plays = true) (id : q.id = p.id)
      (stayed : ¬ Left post q.id) (hole : q.hasHole = true) (status : q.status ≠ .waiting)
      (folded : q.status = .folded ↔ q.id ∈ foldsOf post)
      (chips : q.stack + q.handCommitment = p.stack + wonBy awards q.id)
  | watching {p : Player} (seat : t₀.seatAt i = some p) (plays : p.plays = false) (id : q.id = p.id)
      (stayed : ¬ Left post q.id) (apart : q.Apart) (stack : q.stack = p.stack)
      (won : wonBy awards q.id = 0)
  | joined {buyIn : Int} (sat : Joined post q.id i buyIn)
      (fresh : Left post q.id ∨ ∀ j p, t₀.seatAt j = some p → p.id ≠ q.id) (apart : q.Apart)
      (stack : q.stack = buyIn) (enough : 0 < buyIn)

/-- **What a table shows of the hand that began at `t₀`.** -/
structure Since (t₀ : Table) (post : List Entry) (t : Table) : Prop where
  config : t.config = t₀.config
  length : t.seats.length = t₀.seats.length
  hand : t.street ≠ .waiting
  story : ∀ i q, t.seatAt i = some q → Story t₀ post t.revoked i q
  stays : ∀ i p, t₀.seatAt i = some p → ¬ Left post p.id → ∃ q, t.seatAt i = some q ∧ q.id = p.id
  sits : ∀ id i buyIn, Joined post id i buyIn →
    ∃ q, t.seatAt i = some q ∧ q.id = id ∧ q.Apart ∧ q.stack = buyIn

variable {t₀ t t' u v : Table} {post trace : List Entry} {s : Entry} {awards : List PotAward}
  {i : Nat} {p q : Player} {id : PlayerId} {op : TableOp} {e : TableError}

/-- Who played from the start and never left was dealt in. -/
theorem Story.of_plays (h : Story t₀ post awards i q) (hp : t₀.seatAt i = some p)
    (hplays : p.plays = true) (hstayed : ¬ Left post p.id) (hid : q.id = p.id) :
    q.status ≠ .waiting ∧ q.stack + q.handCommitment = p.stack + wonBy awards q.id := by
  cases h with
  | dealt hseat _ _ _ _ hstatus _ hchips =>
    obtain rfl := Option.some.inj (hseat.symm.trans hp)
    exact ⟨hstatus, hchips⟩
  | watching hseat hnot =>
    obtain rfl := Option.some.inj (hseat.symm.trans hp)
    exact absurd (hplays.symm.trans hnot) (by simp)
  | joined _ hfresh =>
    rcases hfresh with hleft | hnew
    · exact absurd (hid ▸ hleft) hstayed
    · exact absurd hid.symm (hnew i p hp)

/-! ## One more step -/

theorem left_snoc : Left (post ++ [s]) id ↔ Left post id ∨ s.label = (.removePlayer id, .ok) := by
  unfold Left
  simp [or_and_right, exists_or]

theorem joined_snoc {seat : Nat} {buyIn : Int} :
    Joined (post ++ [s]) id seat buyIn ↔
      s.label = (.seatPlayer id seat buyIn, .ok) ∨
        (Joined post id seat buyIn ∧ s.label ≠ (.removePlayer id, .ok)) := by
  constructor
  · rintro ⟨a, step, b, hsplit, hlabel, hleft⟩
    rcases List.eq_nil_or_concat b with rfl | ⟨b, last, rfl⟩
    · obtain ⟨-, hlast⟩ := List.append_inj' hsplit rfl
      rw [(List.cons.inj hlast).1]
      exact Or.inl hlabel
    · rw [List.concat_eq_append] at hsplit hleft
      rw [← List.cons_append, ← List.append_assoc] at hsplit
      obtain ⟨hpost, hlast⟩ := List.append_inj' hsplit rfl
      rw [left_snoc, not_or] at hleft
      rw [(List.cons.inj hlast).1]
      exact Or.inr ⟨⟨a, step, b, hpost, hlabel, hleft.1⟩, hleft.2⟩
  · rintro (hlabel | ⟨⟨a, step, b, rfl, hlabel, hleft⟩, hnot⟩)
    · exact ⟨post, s, [], rfl, hlabel, by simp [Left]⟩
    · refine ⟨a, step, b ++ [s], by simp, hlabel, ?_⟩
      rw [left_snoc, not_or]
      exact ⟨hleft, hnot⟩

theorem foldsOf_snoc : foldsOf (post ++ [s]) = foldsOf post ∪ foldedBy s.label := by
  ext id
  simp [foldsOf, or_and_right, exists_or]

/-- A step that neither removes nor folds the player adds nothing to its story. -/
theorem Story.later (h : Story t₀ post awards i q) (hleft : s.label ≠ (.removePlayer q.id, .ok))
    (hfold : q.id ∉ foldedBy s.label) : Story t₀ (post ++ [s]) awards i q := by
  cases h with
  | dealt seat plays hid stayed hole status folded chips =>
    refine .dealt seat plays hid ?_ hole status ?_ chips
    · rw [left_snoc, not_or]
      exact ⟨stayed, hleft⟩
    · rw [folded, foldsOf_snoc, Set.mem_union, or_iff_left hfold]
  | watching seat plays hid stayed apart stack won =>
    refine .watching seat plays hid ?_ apart stack won
    rw [left_snoc, not_or]
    exact ⟨stayed, hleft⟩
  | joined sat fresh apart stack enough =>
    exact .joined (joined_snoc.mpr (Or.inr ⟨sat, hleft⟩))
      (fresh.imp_left fun h => left_snoc.mpr (Or.inl h)) apart stack enough

/-- Awards are paid on top, to contenders only. -/
theorem Story.paid (h : Story t₀ post [] i p) (hpq : p.PaidBy awards q)
    (hwon : p.contends = false → wonBy awards p.id = 0) : Story t₀ post awards i q := by
  have hout : p.Apart → wonBy awards p.id = 0 := fun hap => hwon hap.not_contends
  cases h with
  | dealt seat plays hid stayed hole status folded chips =>
    rw [← hpq.id] at hid stayed folded
    refine .dealt seat plays hid stayed (hpq.hasHole.trans hole) (hpq.status ▸ status)
      (hpq.status ▸ folded) ?_
    rw [wonBy_nil] at chips
    rw [hpq.stack, hpq.hand, hpq.id]
    omega
  | watching seat plays hid stayed apart stack _ =>
    have hzero := hout apart
    rw [← hpq.id] at hid stayed
    refine .watching seat plays hid stayed (apart.paid hpq) ?_ (hpq.id ▸ hzero)
    rw [hpq.stack, hzero, stack, add_zero]
  | joined sat fresh apart stack enough =>
    have hzero := hout apart
    rw [← hpq.id] at sat fresh
    refine .joined sat fresh (apart.paid hpq) ?_ enough
    rw [hpq.stack, hzero, stack, add_zero]

/-- A player changed in readiness or connection only keeps its story. -/
theorem Story.sameBets {f : Player → Player} (h : Story t₀ post awards i p) (hf : SameBets f) :
    Story t₀ post awards i (f p) := by
  rw [hf p]
  cases h with
  | dealt seat plays hid stayed hole status folded chips =>
    exact .dealt seat plays hid stayed hole status folded chips
  | watching seat plays hid stayed apart stack won =>
    exact .watching seat plays hid stayed ⟨apart.status, apart.hole, apart.hand⟩ stack won
  | joined sat fresh apart stack enough =>
    exact .joined sat fresh ⟨apart.status, apart.hole, apart.hand⟩ stack enough

/-! ## The start -/

theorem revoked_of_betting (h : t.street.betting = true) : t.revoked = [] :=
  if_neg (betting_ne_settled h)

theorem revoked_of_settled (h : t.street = .settled) : t.revoked = t.lastAwards := if_pos h

theorem Opening.story {deck : Deck} (hopen : t₀.Opening deck v) (hs : t₀.Seating)
    (hq : v.seatAt i = some q) : Story t₀ [] [] i q := by
  have hin := hopen.inHand hs
  obtain ⟨p, hp, hpq⟩ := hin.seat i q hq
  by_cases hplays : p.plays = true
  · refine .dealt hp hplays hpq.id (by simp [Left]) (hpq.hasHole.trans hplays) ?_ ?_ ?_
    · rw [ne_eq, hpq.waiting, hplays]
      simp
    · rw [hpq.folded]
      simp [foldsOf]
    · have hchips := hpq.chips
      rw [wonBy_nil] at hchips ⊢
      exact hchips
  · rw [Bool.not_eq_true] at hplays
    obtain ⟨p', hole, hp', hopens⟩ := hopen.seat_back hq
    obtain rfl : p = p' := Option.some.inj (hp.symm.trans hp')
    rw [Player.opens_of_not_plays hplays] at hopens
    refine .watching hp hplays hpq.id (by simp [Left])
      ⟨hpq.waiting.mpr hplays, hpq.hasHole.trans hplays, ?_⟩ ?_ rfl
    · rw [hopens]
    · rw [hopens]

/-- A table paid from one of the hand is one of the hand. -/
theorem since_of_paid (hconfig : u.config = t₀.config) (hlen : u.seats.length = t₀.seats.length)
    (hpaid : PaidFrom awards u t') (hhand : t'.street ≠ .waiting) (hrev : t'.revoked = awards)
    (hstory : ∀ i q, u.seatAt i = some q → Story t₀ post [] i q)
    (hwon : ∀ i p, u.seatAt i = some p → p.contends = false → wonBy awards p.id = 0)
    (hstays : ∀ i p, t₀.seatAt i = some p → ¬ Left post p.id →
      ∃ q, u.seatAt i = some q ∧ q.id = p.id)
    (hsits : ∀ id i buyIn, Joined post id i buyIn →
      ∃ q, u.seatAt i = some q ∧ q.id = id ∧ q.Apart ∧ q.stack = buyIn) :
    Since t₀ post t' := by
  refine ⟨hpaid.config.trans hconfig, hpaid.length.trans hlen, hhand, fun i q hq => ?_,
    fun i p hp hleft => ?_, fun id i buyIn hj => ?_⟩
  · obtain ⟨p, hp, hpq⟩ := hpaid.seat_back hq
    rw [hrev]
    exact (hstory i p hp).paid hpq (hwon i p hp)
  · obtain ⟨r, hr, hid⟩ := hstays i p hp hleft
    obtain ⟨q, hq, hrq⟩ := hpaid.seat_some hr
    exact ⟨q, hq, hrq.id.trans hid⟩
  · obtain ⟨r, hr, hid, hapart, hstack⟩ := hsits id i buyIn hj
    obtain ⟨q, hq, hrq⟩ := hpaid.seat_some hr
    refine ⟨q, hq, hrq.id.trans hid, hapart.paid hrq, ?_⟩
    rw [hrq.stack, hwon i r hr hapart.not_contends, add_zero, hstack]

theorem ne_waiting_of_betting (h : t.street.betting = true) : t.street ≠ .waiting := by
  intro hw
  rw [hw] at h
  exact absurd h (by decide)

/-- **The hand as it begins.** -/
theorem Started.since {deck : Deck} (h : t₀.Started deck t) (hs : t₀.Seating) :
    Since t₀ [] t := by
  have hall : ∀ {v w : Table} {awards : List PotAward}, t₀.Opening deck v → PaidFrom awards v w →
      w.street ≠ .waiting → w.revoked = awards →
      (∀ i p, v.seatAt i = some p → p.contends = false → wonBy awards p.id = 0) →
      Since t₀ [] w := by
    intro v w awards hopen hpaid hhand hrev hwon
    refine since_of_paid hopen.config hopen.length hpaid hhand hrev
      (fun i q hq => hopen.story hs hq) hwon (fun i p hp _ => ?_) fun id i buyIn hj => ?_
    · obtain ⟨q, hq, hid, -⟩ := hopen.sameSeating.seat hp
      exact ⟨q, hq, hid⟩
    · obtain ⟨a, step, b, hsplit, -⟩ := hj
      exact absurd hsplit (by simp)
  cases h with
  | awaiting hopen _ haw =>
    exact hall hopen (PaidFrom.refl t) (ne_waiting_of_betting haw.toBetting.street)
      (revoked_of_betting haw.toBetting.street) fun _ _ _ _ => rfl
  | @showdown v hopen _ hshow _ =>
    refine hall hopen hshow.paid ?_ (revoked_of_settled hshow.street) hshow.won_contends
    rw [hshow.street]
    simp
  | @stranded v hopen _ hst hsame =>
    refine hall hopen ?_ (ne_waiting_of_betting hst.toBetting.street)
      (revoked_of_betting hst.toBetting.street) fun _ _ _ _ => rfl
    rw [hsame]
    exact (PaidFrom.refl v).ask ∅ none

/-! ## The steps of a hand -/

/-- The steps that do not touch the seats' players but for readiness and connection. -/
theorem Since.sameBets {f : Player → Player} (h : Since t₀ post t) (hf : SameBets f) (n : Nat)
    (hleft : ∀ id, s.label ≠ (.removePlayer id, .ok))
    (hsit : ∀ id i buyIn, s.label ≠ (.seatPlayer id i buyIn, .ok)) (hfold : foldedBy s.label = ∅) :
    Since t₀ (post ++ [s]) { t.mapSeats f with serverSequence := n } := by
  have hat : ∀ i, Table.seatAt { t.mapSeats f with serverSequence := n } i =
      (t.seatAt i).map f := seatAt_mapSeats t f
  refine ⟨h.config, (length_mapSeats t f).trans h.length, h.hand, fun i q hq => ?_,
    fun i p hp hnot => ?_, fun id i buyIn hj => ?_⟩
  · rw [hat, Option.map_eq_some_iff] at hq
    obtain ⟨p, hp, rfl⟩ := hq
    exact ((h.story i p hp).later (hleft _) (by simp [hfold])).sameBets hf
  · rw [left_snoc, not_or] at hnot
    obtain ⟨q, hq, hid⟩ := h.stays i p hp hnot.1
    refine ⟨f q, by rw [hat, hq]; rfl, ?_⟩
    rw [hf q]
    exact hid
  · rw [joined_snoc] at hj
    obtain ⟨q, hq, hid, hapart, hstack⟩ := h.sits id i buyIn (hj.resolve_left (hsit _ _ _)).1
    refine ⟨f q, by rw [hat, hq]; rfl, ?_⟩
    rw [hf q]
    exact ⟨hid, ⟨hapart.status, hapart.hole, hapart.hand⟩, hstack⟩

theorem foldedBy_of_not_act (h : ∀ command, op ≠ .act command) : foldedBy (op, e) = ∅ := by
  refine Set.eq_empty_iff_forall_notMem.mpr ?_
  rintro id ⟨command, hc, -⟩
  exact h command (Prod.mk.inj hc).1

/-- A refused operation is no part of the hand. -/
theorem Since.refused (h : Since t₀ post t) (he : e ≠ .ok) :
    Since t₀ (post ++ [⟨t, (op, e), t⟩]) t := by
  have hno : ∀ op' : TableOp, (op, e) ≠ (op', TableError.ok) := fun op' hc =>
    he (Prod.mk.inj hc).2
  refine ⟨h.config, h.length, h.hand, fun i q hq => ?_, fun i p hp hnot => ?_,
    fun id i buyIn hj => ?_⟩
  · refine (h.story i q hq).later (hno _) ?_
    rintro ⟨command, hc, -⟩
    exact hno _ hc
  · rw [left_snoc, not_or] at hnot
    exact h.stays i p hp hnot.1
  · rw [joined_snoc] at hj
    exact h.sits id i buyIn (hj.resolve_left (hno _)).1

/-- Somebody sits down at a settled table. -/
theorem Since.sit {seat : Nat} {buyIn : Int} (h : Since t₀ post t) (hrange : seat < t.seats.length)
    (habsent : t.findPlayer id = none) (hfree : t.seatAt seat = none) (hpos : 0 < buyIn) (n : Nat)
    (hs : s.label = (.seatPlayer id seat buyIn, .ok)) :
    Since t₀ (post ++ [s]) { t.setSeat seat (some { id := id, seat := seat, stack := buyIn }) with
      serverSequence := n } := by
  have hself := seatAt_setSeat_self hrange (some { id := id, seat := seat, stack := buyIn })
  have hother : ∀ {j}, seat ≠ j →
      (t.setSeat seat (some { id := id, seat := seat, stack := buyIn })).seatAt j = t.seatAt j :=
    fun hj => seatAt_setSeat_ne hj _
  have hfree' : ∀ {j r}, t.seatAt j = some r → seat ≠ j := by
    rintro j r hr rfl
    rw [hfree] at hr
    exact absurd hr (by simp)
  have hno : ∀ id', s.label ≠ (.removePlayer id', .ok) := fun id' hc => by
    rw [hs] at hc
    exact absurd hc (by simp)
  have hfold : foldedBy s.label = ∅ := by
    rw [hs]
    exact foldedBy_of_not_act (by simp)
  refine ⟨h.config, (length_setSeat t seat _).trans h.length, h.hand, fun j q hq => ?_,
    fun j p hp hnot => ?_, fun id' j buyIn' hj => ?_⟩
  · by_cases hj : seat = j
    · subst hj
      obtain rfl := Option.some.inj (hself.symm.trans hq)
      refine .joined (joined_snoc.mpr (Or.inl hs)) ?_ ⟨rfl, rfl, rfl⟩ rfl hpos
      by_cases hleft : Left post id
      · exact Or.inl (left_snoc.mpr (Or.inl hleft))
      · -- whoever was there at the start and has not left is still there
        refine Or.inr fun j p hp hid => ?_
        change p.id = id at hid
        obtain ⟨r, hr, hrid⟩ := h.stays j p hp (hid ▸ hleft)
        exact findPlayer_none habsent hr (hrid.trans hid)
    · exact (h.story j q ((hother hj).symm.trans hq)).later (hno _) (by simp [hfold])
  · rw [left_snoc, not_or] at hnot
    obtain ⟨q, hq, hid⟩ := h.stays j p hp hnot.1
    exact ⟨q, (hother (hfree' hq)).trans hq, hid⟩
  · rcases joined_snoc.mp hj with hnew | ⟨hold, -⟩
    · rw [hs] at hnew
      simp only [Prod.mk.injEq, TableOp.seatPlayer.injEq, and_true] at hnew
      obtain ⟨rfl, rfl, rfl⟩ := hnew
      exact ⟨_, hself, rfl, ⟨rfl, rfl, rfl⟩, rfl⟩
    · obtain ⟨q, hq, hrest⟩ := h.sits id' j buyIn' hold
      exact ⟨q, (hother (hfree' hq)).trans hq, hrest⟩

/-- Somebody leaves. -/
theorem Since.leave (h : Since t₀ post t) (hseats : t.Seating) (hp : t.seatAt i = some p)
    (d : Option Nat) (n : Nat) (hs : s.label = (.removePlayer p.id, .ok)) :
    Since t₀ (post ++ [s]) { t.setSeat i none with dealerSeat := d, serverSequence := n } := by
  have hother : ∀ {j}, i ≠ j → (t.setSeat i none).seatAt j = t.seatAt j :=
    fun hj => seatAt_setSeat_ne hj _
  have hkeep : ∀ {j q}, t.seatAt j = some q → q.id ≠ p.id →
      (t.setSeat i none).seatAt j = some q := by
    intro j q hq hid
    refine (hother ?_).trans hq
    rintro rfl
    exact hid (by rw [Option.some.inj (hp.symm.trans hq)])
  have hfold : foldedBy s.label = ∅ := by
    rw [hs]
    exact foldedBy_of_not_act (by simp)
  refine ⟨h.config, (length_setSeat t i _).trans h.length, h.hand, fun j q hq => ?_,
    fun j r hr hnot => ?_, fun id' j buyIn hj => ?_⟩
  · obtain ⟨hij, hq⟩ := seatAt_of_leave hq
    refine (h.story j q hq).later (fun hc => ?_) (by simp [hfold])
    rw [hs] at hc
    simp only [Prod.mk.injEq, TableOp.removePlayer.injEq, and_true] at hc
    exact hij (hseats.unique hp hq hc)
  · rw [left_snoc, not_or, hs] at hnot
    obtain ⟨q, hq, hid⟩ := h.stays j r hr hnot.1
    refine ⟨q, hkeep hq fun hc => hnot.2 ?_, hid⟩
    rw [← hid, hc]
  · rcases joined_snoc.mp hj with hnew | ⟨hold, hnot⟩
    · rw [hs] at hnew
      exact absurd hnew (by simp)
    · obtain ⟨q, hq, hid, hrest⟩ := h.sits id' j buyIn hold
      refine ⟨q, hkeep hq fun hc => hnot ?_, hid, hrest⟩
      rw [hs, ← hid, hc]

/-- The action itself: a fold is written into the actor's story. -/
theorem Since.acted {command : ActionCommand} (h : Since t₀ post t) (ht : t.Awaiting)
    (hp : t.seatAt i = some p) (hid : p.id = command.playerId) (hcan : p.canAct = true)
    (hacted : Acted t i p q u)
    (hkind : (command.type = .fold ∧ q = { p with status := .folded }) ∨
      (command.type ≠ .fold ∧ q.contends = true))
    (hs : s.label = (.act command, .ok)) {j : Nat} {r : Player} (hr : u.seatAt j = some r) :
    Story t₀ (post ++ [s]) [] j r := by
  have hstory : ∀ {j r}, t.seatAt j = some r → Story t₀ post [] j r := fun hr => by
    have := h.story _ _ hr
    rwa [revoked_of_betting ht.toBetting.street] at this
  have hleft : ∀ id', s.label ≠ (.removePlayer id', .ok) := fun id' hc => by
    rw [hs] at hc
    exact absurd hc (by simp)
  have hfold : ∀ id', id' ∈ foldedBy s.label ↔ command.type = .fold ∧ command.playerId = id' := by
    rw [hs]
    exact foldedBy_act command
  rcases hacted.seat_cases hp hr with ⟨rfl, rfl⟩ | ⟨hj, hr⟩
  · have hqid : r.id = p.id := by rw [hacted.actor]
    have hactive := (Player.canAct_iff.mp hcan).1
    cases hstory hp with
    | dealt seat plays hpid stayed hole status folded chips =>
      refine .dealt seat plays (hqid.trans hpid) ?_ ?_ hacted.plays ?_ ?_
      · rw [left_snoc, not_or, hqid]
        exact ⟨stayed, hleft _⟩
      · rw [hacted.actor]
        exact hole
      · have hnot : p.id ∉ foldsOf post := fun hc => by
          rw [← folded, hactive] at hc
          exact absurd hc (by decide)
        rw [foldsOf_snoc, Set.mem_union, hqid, or_iff_right hnot, hfold]
        rcases hkind with ⟨htype, rfl⟩ | ⟨htype, hcont⟩
        · exact iff_of_true rfl ⟨htype, hid.symm⟩
        · exact iff_of_false (contends_iff.mp hcont).1 fun hc => htype hc.1
      · rw [hqid]
        have := hacted.chips
        omega
    | watching _ _ _ _ apart _ _ =>
      rw [apart.status] at hactive
      exact absurd hactive (by decide)
    | joined _ _ apart _ _ =>
      rw [apart.status] at hactive
      exact absurd hactive (by decide)
  · refine (hstory hr).later (hleft _) ?_
    rw [hfold]
    rintro ⟨-, hc⟩
    exact hj (ht.toBetting.seating.unique hr hp (hc.symm.trans hid.symm))

theorem Since.act {command : ActionCommand} (h : Since t₀ post t) (ht : t.Awaiting)
    (hp : t.seatAt i = some p) (hid : p.id = command.playerId) (hcan : p.canAct = true)
    (hacted : Acted t i p q u)
    (hkind : (command.type = .fold ∧ q = { p with status := .folded }) ∨
      (command.type ≠ .fold ∧ q.contends = true))
    (hout : Outcome u t') (hs : s.label = (.act command, .ok)) : Since t₀ (post ++ [s]) t' := by
  have hlater : ∀ {w : Table} {awards : List PotAward}, PaidFrom awards u w → w.street ≠ .waiting →
      w.revoked = awards →
      (∀ i p, u.seatAt i = some p → p.contends = false → wonBy awards p.id = 0) →
      Since t₀ (post ++ [s]) w := by
    intro w awards hpaid hhand hrev hwon
    have hsame := hacted.sameSeating hp
    refine since_of_paid (hsame.config.trans h.config) (hsame.length.trans h.length) hpaid hhand
      hrev
      (fun j r hr => h.acted ht hp hid hcan hacted hkind hs hr) hwon (fun j r hr hnot => ?_)
      fun id' j buyIn hj => ?_
    · rw [left_snoc, not_or] at hnot
      obtain ⟨r', hr', hrid⟩ := h.stays j r hr hnot.1
      obtain ⟨r'', hr'', hid', -⟩ := hsame.seat hr'
      exact ⟨r'', hr'', hid'.trans hrid⟩
    · rcases joined_snoc.mp hj with hnew | ⟨hold, -⟩
      · rw [hs] at hnew
        exact absurd hnew (by simp)
      · obtain ⟨r', hr', hrid, hapart, hstack⟩ := h.sits id' j buyIn hold
        have hji : j ≠ i := by
          rintro rfl
          rw [Option.some.inj (hp.symm.trans hr'), Player.canAct_iff, hapart.status] at hcan
          exact absurd hcan.1 (by decide)
        exact ⟨r', (hacted.seat_other hji).trans hr', hrid, hapart, hstack⟩
  cases hout with
  | foldWin _ hwin =>
    refine hlater hwin.paid ?_ (revoked_of_settled hwin.street) hwin.won_contends
    rw [hwin.street]
    simp
  | awaiting _ haw hpaid =>
    exact hlater hpaid (ne_waiting_of_betting haw.toBetting.street)
      (revoked_of_betting haw.toBetting.street) fun _ _ _ _ => rfl
  | showdown _ hshow =>
    refine hlater hshow.paid ?_ (revoked_of_settled hshow.street) hshow.won_contends
    rw [hshow.street]
    simp

/-- **A step inside a hand.** -/
theorem Since.step (h : Since t₀ post t) (hi : t.Inv) (hstep : t.Steps (op, e) t')
    (hstart : ¬ Starts ⟨t, (op, e), t'⟩) (habort : ¬ Aborts ⟨t, (op, e), t'⟩) :
    Since t₀ (post ++ [⟨t, (op, e), t'⟩]) t' := by
  rcases exec_effect hi hstep with ⟨he, rfl⟩ | ⟨rfl, heffect⟩
  · exact h.refused he
  have hbuy := (blinds_pos hi.seating.valid).2.2.2.2
  cases heffect with
  | sits _ hrange habsent hfree henough =>
    exact h.sit hrange habsent hfree (by omega) _ rfl
  | leaves hp hid _ =>
    subst hid
    exact h.leave hi.seating hp _ _ rfl
  | readies _ =>
    exact h.sameBets (sameBets_ite (fun _ => rfl) _) _ (by simp) (by simp)
      (foldedBy_of_not_act (by simp))
  | connects =>
    exact h.sameBets (sameBets_ite (fun _ => rfl) _) _ (by simp) (by simp)
      (foldedBy_of_not_act (by simp))
  | starts hdeals => exact absurd ⟨hdeals.begins, rfl⟩ hstart
  | aborts _ => exact absurd rfl habort
  | acts hawait _ hp hid hcan hacted _ hkind _ hout =>
    exact h.act hawait hp hid hcan hacted hkind hout rfl

/-! ## Runs -/

/-- A run inside a hand. -/
theorem Since.run {t₁ : Table} (h : Since t₀ [] t₁) (hi : t₁.Inv) (hrun : Run Steps t₁ post t)
    (hquiet : ∀ step ∈ post, ¬ Starts step ∧ ¬ Aborts step) : Since t₀ post t ∧ t.Inv := by
  induction hrun with
  | nil => exact ⟨h, hi⟩
  | @snoc post a b label hr hstep ih =>
    obtain ⟨hsince, hia⟩ := ih fun step hs => hquiet step (List.mem_append_left _ hs)
    obtain ⟨hstart, habort⟩ := hquiet _ (List.mem_append_right _ (List.mem_singleton.mpr rfl))
    exact ⟨hsince.step hia hstep hstart habort, exec_inv hia hstep⟩

theorem Starts.started {label : TableOp × TableError} (hstart : Starts ⟨t₀, label, t⟩)
    (hi : t₀.Inv) (hstep : t₀.Steps label t) :
    ∃ deck, label.1.Deals deck ∧ 2 ≤ t₀.readyPlayers ∧ t₀.Started deck t := by
  obtain ⟨op, e⟩ := label
  obtain ⟨hbegins, rfl⟩ := hstart
  rcases exec_effect hi hstep with ⟨he, -⟩ | ⟨-, heffect⟩
  · exact absurd rfl he
  · cases heffect with
    | starts hdeals _ htwo hstarted => exact ⟨_, hdeals, htwo, hstarted⟩
    | sits => exact absurd hbegins (by simp [TableOp.begins])
    | leaves => exact absurd hbegins (by simp [TableOp.begins])
    | readies => exact absurd hbegins (by simp [TableOp.begins])
    | connects => exact absurd hbegins (by simp [TableOp.begins])
    | aborts => exact absurd hbegins (by simp [TableOp.begins])
    | acts => exact absurd hbegins (by simp [TableOp.begins])

/-- Between hands only a start begins one. -/
theorem waiting_step (hi : t.Inv) (hw : t.street = .waiting) (hstep : t.Steps (op, e) t')
    (hstart : ¬ Starts ⟨t, (op, e), t'⟩) : t'.street = .waiting := by
  rcases exec_effect hi hstep with ⟨-, rfl⟩ | ⟨rfl, heffect⟩
  · exact hw
  · cases heffect with
    | sits => exact hw
    | leaves => exact hw
    | readies => exact hw
    | connects => exact hw
    | starts hdeals => exact absurd ⟨hdeals.begins, rfl⟩ hstart
    | aborts hhand => exact absurd hw hhand
    | acts hawait _ _ _ _ _ _ _ _ _ =>
      exact absurd hw (ne_waiting_of_betting hawait.toBetting.street)

/-- The hand a run is in, as a run of its own. -/
structure Underway (config : TableConfig) (trace : List Entry) (t : Table) (start : Entry)
    (post : List Entry) : Prop extends HandOf trace start post where
  reached : Reaches Steps (new config) start.before
  step : start.before.Steps start.label start.after
  run : Run Steps start.after post t

theorem Underway.since {config : TableConfig} {start : Entry}
    (hconfig : config.validateConfig = .ok)
    (h : Underway config trace t start post) : Since start.before post t ∧ t.Inv := by
  have hi := reach_inv hconfig h.reached
  obtain ⟨deck, -, -, hstarted⟩ := Starts.started h.starts hi h.step
  exact (hstarted.since hi.seating).run (exec_inv hi h.step) h.run h.quiet

/-- **Every state of a run outside the breaks is in a hand of the run.** -/
theorem exists_underway {config : TableConfig} (hconfig : config.validateConfig = .ok)
    (hrun : Run Steps (new config) trace t) (hhand : t.street ≠ .waiting) :
    ∃ start post, Underway config trace t start post := by
  induction hrun with
  | nil => exact absurd rfl hhand
  | @snoc trace a b label hr hstep ih =>
    have hi : a.Inv := reach_inv hconfig ⟨trace, hr⟩
    by_cases hstart : Starts ⟨a, label, b⟩
    · exact ⟨⟨a, label, b⟩, [], ⟨⟨trace, rfl⟩, hstart, by simp⟩, ⟨trace, hr⟩, hstep, Run.nil⟩
    · have habort : ¬ Aborts ⟨a, label, b⟩ := by
        intro habort
        obtain rfl : label = (.abortHand, .ok) := habort
        rcases abortHand_cases hi.seating (Except.ok.inj hstep) with ⟨he, -⟩ | ⟨-, -, hidle, -⟩
        · exact he rfl
        · exact hhand hidle.street
      have hbefore : a.street ≠ .waiting := fun hw => hhand (waiting_step hi hw hstep hstart)
      obtain ⟨start, post, hunder⟩ := ih hbefore
      obtain ⟨pre, hsplit⟩ := hunder.split
      refine ⟨start, post ++ [⟨a, label, b⟩], ⟨⟨pre, by simp [hsplit]⟩, hunder.starts, ?_⟩,
        hunder.reached, hunder.step, hunder.run.snoc hstep⟩
      intro step hmem
      rcases List.mem_append.mp hmem with hmem | hmem
      · exact hunder.quiet step hmem
      · rw [List.mem_singleton.mp hmem]
        exact ⟨hstart, habort⟩

/-- A settled hand was settled by one of its steps. -/
theorem Underway.settled {config : TableConfig} {start : Entry}
    (hconfig : config.validateConfig = .ok) (h : Underway config trace t start post)
    (hset : t.street = .settled) : ∃ step ∈ start :: post, Settles step := by
  have hi := reach_inv hconfig h.reached
  obtain ⟨deck, -, -, hstarted⟩ := Starts.started h.starts hi h.step
  obtain ⟨-, -, -, hrun⟩ := h
  induction hrun with
  | nil =>
    refine ⟨start, List.mem_cons_self, hset, Or.inr ?_⟩
    rw [hstarted.handId]
    omega
  | @snoc post a b label hr hstep ih =>
    by_cases hbefore : a.street = .settled
    · obtain ⟨step, hmem, hsettles⟩ := ih hbefore
      exact ⟨step, List.mem_cons.mpr ((List.mem_cons.mp hmem).imp_right (List.mem_append_left _)),
        hsettles⟩
    · refine ⟨⟨a, label, b⟩, List.mem_cons_of_mem _ (List.mem_append_right _ ?_), hset,
        Or.inl hbefore⟩
      exact List.mem_singleton.mpr rfl

end Table

end PokerServer

import Mathlib.Data.Set.Insert
import PokerServer.Storage.Calls

/-!
# The hands of the store

A hand is begun at a table and settled once; `hand_in_progress` says whether the table has a hand
that is not settled yet. The flag is kept with the table and the records are kept by hand id, and
`settleHand` looks at the flag of the table it is told and at the id, never at the start record:

* a settlement under another table's id ends the hand of that table, and one that leaves out
  players settles the rest of them with their old stacks;
* `appendAction` looks at no table at all, so it goes on after the table was aborted.

`lifecycle_iff`: the records and the flags agree along a run iff no call of it strays in one of
these ways.
-/

namespace PokerServer

/-- The settlement names the players that the start record names. -/
def SamePlayers (start : HandStartRecord) (value : HandSettlementRecord) : Prop :=
  ∀ user, user ∈ start.players.map (·.userId) ↔ user ∈ value.players.map (·.userId)

namespace InMemoryGameStore

variable {store store' : InMemoryGameStore} {call : StoreOp} {answer : StoreAnswer}
  {table : StoredTable} {tableId handId : Nat} {value : HandSettlementRecord}
  {action : HandActionRecord} {trace : List StoreStep}

/-- The hands begun at a table that have no settlement. -/
def openHands (store : InMemoryGameStore) (tableId : Nat) : Set Nat :=
  { handId | (∃ start, store.handStarts.lookup handId = some start ∧ start.tableId = tableId) ∧
    store.settlements.lookup handId = none }

/-- The flag of every table that is not aborted tells whether one hand is open there or none. -/
def Tracked (store : InMemoryGameStore) : Prop :=
  ∀ tableId table, store.tables.lookup tableId = some table → table.aborted = false →
    (table.handInProgress = true ↔ ∃! handId, handId ∈ store.openHands tableId) ∧
    (table.handInProgress = false → store.openHands tableId = ∅)

/-- The hand is the one in progress at a table that is not aborted. -/
def Current (store : InMemoryGameStore) (tableId handId : Nat) : Prop :=
  ∃ table, store.tables.lookup tableId = some table ∧ table.aborted = false ∧
    table.handInProgress = true ∧ store.openHands tableId = {handId}

/-- **The records a call is answered `ok` for are those of the hand in progress.** -/
def Lawful (e : StoreStep) : Prop :=
  match e.label with
  | (.settleHand value, .plain .ok) =>
    ∃ start, e.before.handStarts.lookup value.handId = some start ∧
      start.tableId = value.tableId ∧ SamePlayers start value ∧
      Current e.before value.tableId value.handId
  | (.appendAction action, .plain .ok) =>
    ∃ start, e.before.handStarts.lookup action.handId = some start ∧
      Current e.before start.tableId action.handId
  | _ => True

/-- The step settles the hand. -/
def SettlesHand (handId : Nat) (e : StoreStep) : Prop :=
  ∃ value, e.label = (.settleHand value, .plain .ok) ∧ value.handId = handId

/-- **The lifecycle of hands along a run.** -/
structure Lifecycle (trace : List StoreStep) (store : InMemoryGameStore) : Prop where
  tracked : store.Tracked ∧ ∀ e ∈ trace, e.before.Tracked
  lawful : ∀ e ∈ trace, Lawful e
  once : ∀ pre e post, trace = pre ++ e :: post → ∀ handId, SettlesHand handId e →
    ∀ later ∈ post, ¬ SettlesHand handId later

/-! ## Calls that stray -/

/-- What `settleHand` checks. -/
def Settleable (store : InMemoryGameStore) (value : HandSettlementRecord) : Prop :=
  validHandSettlement value = true ∧ store.settlements.lookup value.handId = none ∧
    ∃ table, store.tables.lookup value.tableId = some table ∧ table.aborted = false ∧
      table.handInProgress = true ∧
      ∀ player ∈ value.players,
        seatMatches table player.userId player.seat player.startStack = true

/-- What `appendAction` checks. -/
def Appendable (store : InMemoryGameStore) (action : HandActionRecord) : Prop :=
  action.handId ≠ 0 ∧ action.sequence ≠ 0 ∧ action.requestId ≠ 0 ∧ action.userId ≠ 0 ∧
    store.settlements.lookup action.handId = none ∧
    store.actions.lookup (action.handId, action.sequence) = none ∧
    ∀ entry ∈ store.actions.entries, ¬ (entry.2.handId = action.handId ∧
      entry.2.userId = action.userId ∧ entry.2.requestId = action.requestId)

/-- **A record that passes the checks and is not of the hand it names**: a settlement with another
table or other players than the start record, or an action at a table that was aborted. -/
def Strays (store : InMemoryGameStore) : StoreOp → Prop
  | .settleHand value => store.Settleable value ∧
    ∃ start, store.handStarts.lookup value.handId = some start ∧
      ¬ (start.tableId = value.tableId ∧ SamePlayers start value)
  | .appendAction action => store.Appendable action ∧
    ∃ start table, store.handStarts.lookup action.handId = some start ∧
      store.tables.lookup start.tableId = some table ∧ table.aborted = true
  | _ => False

theorem settleHand_ok (h : store.Settleable value) {start : HandStartRecord}
    (hstart : store.handStarts.lookup value.handId = some start) :
    (store.settleHand value).1 = .ok := by
  obtain ⟨hvalid, hnew, table, hfound, hopen, hplaying, hmatches⟩ := h
  obtain ⟨-, -, hbalanced⟩ := validHandSettlement_balanced hvalid
  have hlines : (value.players.all fun player =>
      seatMatches table player.userId player.seat player.startStack
        && decide (0 ≤ player.committed ∧ 0 ≤ player.winnings ∧ 0 ≤ player.endStack
          ∧ player.endStack = player.startStack - player.committed + player.winnings)) = true := by
    rw [List.all_eq_true]
    intro player hp
    rw [Bool.and_eq_true, decide_eq_true_eq]
    exact ⟨hmatches player hp, hbalanced player hp⟩
  unfold settleHand
  rw [hvalid, if_neg (by decide), hnew]
  dsimp only
  rw [hstart, if_neg (by simp), hfound]
  dsimp only
  rw [hopen, if_neg (by decide), hplaying, if_neg (by decide), if_pos hlines]

theorem appendAction_ok (h : store.Appendable action) {start : HandStartRecord}
    (hstart : store.handStarts.lookup action.handId = some start) :
    (store.appendAction action).1 = .ok := by
  obtain ⟨hhand, hsequence, hrequest, huser, hunsettled, hnew, hfirst⟩ := h
  have hfind : (store.actions.entries.find? fun entry =>
      entry.2.handId = action.handId ∧ entry.2.userId = action.userId
        ∧ entry.2.requestId = action.requestId) = none := by
    rw [List.find?_eq_none]
    intro entry hentry
    rw [decide_eq_true_eq]
    exact hfirst entry hentry
  unfold appendAction
  rw [if_neg (by simp [hhand, hsequence, hrequest, huser]), hstart, if_neg (by simp), hunsettled,
    if_neg (by simp), hnew]
  dsimp only
  rw [hfind]

theorem appendable_of_ok (h : (store.appendAction action).1 = .ok) :
    store.Appendable action ∧ ∃ start, store.handStarts.lookup action.handId = some start := by
  unfold appendAction at h
  split_ifs at h with hinvalid hstart hsettled
  simp only [not_or] at hinvalid
  obtain ⟨hhand, hsequence, hrequest, huser⟩ := hinvalid
  split at h
  · split_ifs at h
  · rename_i hnew
    split at h
    · split_ifs at h
    · rename_i hfind
      rw [List.find?_eq_none] at hfind
      refine ⟨⟨hhand, hsequence, hrequest, huser, Option.not_isSome_iff_eq_none.mp hsettled, hnew,
        fun entry hentry => ?_⟩, Option.ne_none_iff_exists'.mp ?_⟩
      · have hother := hfind entry hentry
        rwa [decide_eq_true_eq] at hother
      · rw [Option.isNone_iff_eq_none] at hstart
        exact hstart

/-! ## What a call does to the open hands -/

theorem openHands_congr (hstarts : store'.handStarts = store.handStarts)
    (hsettled : store'.settlements = store.settlements) (tableId : Nat) :
    store'.openHands tableId = store.openHands tableId := by
  unfold openHands
  rw [hstarts, hsettled]

/-- A new hand is open at its table, next to the hands that were. -/
theorem openHands_begun {hand : HandStartRecord}
    (hnew : store.handStarts.lookup hand.handId = none)
    (hunsettled : store.settlements.lookup hand.handId = none)
    (hstarts : store'.handStarts = store.handStarts.insert hand.handId hand)
    (hsettled : store'.settlements = store.settlements) (tableId : Nat) :
    store'.openHands tableId =
      if tableId = hand.tableId then insert hand.handId (store.openHands tableId)
      else store.openHands tableId := by
  have hlookup : ∀ id, id ≠ hand.handId →
      (id ∈ store'.openHands tableId ↔ id ∈ store.openHands tableId) := by
    intro id hne
    unfold openHands
    rw [Set.mem_ofPred_eq, Set.mem_ofPred_eq, hstarts, hsettled, AList.lookup_insert_ne hne]
  have hself : hand.handId ∈ store'.openHands tableId ↔ tableId = hand.tableId := by
    unfold openHands
    rw [Set.mem_ofPred_eq, hstarts, hsettled, AList.lookup_insert]
    constructor
    · rintro ⟨⟨start, hstart, rfl⟩, -⟩
      rw [Option.some.inj hstart]
    · rintro rfl
      exact ⟨⟨hand, rfl, rfl⟩, hunsettled⟩
  have hbefore : hand.handId ∉ store.openHands tableId := by
    rintro ⟨⟨start, hstart, -⟩, -⟩
    rw [hnew] at hstart
    exact absurd hstart (by simp)
  ext id
  by_cases heq : id = hand.handId
  · rw [heq, hself]
    split_ifs with hhere
    · simp [hhere]
    · simp [hhere, hbefore]
  · rw [hlookup id heq]
    split_ifs with hhere
    · simp [heq]
    · rfl

/-- A settled hand is no longer open. -/
theorem openHands_settled
    (hstarts : store'.handStarts = store.handStarts)
    (hsettled : store'.settlements = store.settlements.insert value.handId value) (tableId : Nat) :
    store'.openHands tableId = store.openHands tableId \ {value.handId} := by
  ext id
  unfold openHands
  rw [Set.mem_sdiff, Set.mem_ofPred_eq, Set.mem_ofPred_eq, Set.mem_singleton_iff, hstarts, hsettled]
  by_cases heq : id = value.handId
  · rw [heq, AList.lookup_insert]
    simp
  · rw [AList.lookup_insert_ne heq]
    simp [heq]

/-! ## The invariant -/

/-- Hands are begun at known tables, and each flag tells the open hands of its table. -/
structure Booked (store : InMemoryGameStore) : Prop where
  begun : ∀ handId start, store.handStarts.lookup handId = some start →
    ∃ table, store.tables.lookup start.tableId = some table
  busy : ∀ tableId table, store.tables.lookup tableId = some table → table.aborted = false →
    table.handInProgress = true → ∃ handId, store.openHands tableId = {handId}
  idle : ∀ tableId table, store.tables.lookup tableId = some table → table.aborted = false →
    table.handInProgress = false → store.openHands tableId = ∅

theorem Booked.tracked (h : store.Booked) : store.Tracked := by
  intro tableId table hfound hopen
  have hbusy := h.busy tableId table hfound hopen
  have hidle := h.idle tableId table hfound hopen
  refine ⟨⟨fun hplaying => ?_, fun ⟨handId, hmem, _⟩ => ?_⟩, hidle⟩
  · obtain ⟨handId, hhands⟩ := hbusy hplaying
    refine ⟨handId, ?_, fun other hother => ?_⟩ <;> simp_all
  · by_contra hplaying
    have hnone := hidle (Bool.not_eq_true _ ▸ hplaying)
    rw [hnone] at hmem
    exact hmem

/-- The open hand of a table that is not aborted is the hand in progress there. -/
theorem Booked.current (h : store.Booked) (hfound : store.tables.lookup tableId = some table)
    (hopen : table.aborted = false) (hhand : handId ∈ store.openHands tableId) :
    store.Current tableId handId := by
  cases hplaying : table.handInProgress with
  | false =>
    rw [h.idle tableId table hfound hopen hplaying] at hhand
    exact absurd hhand (by simp)
  | true =>
    obtain ⟨current, hhands⟩ := h.busy tableId table hfound hopen hplaying
    rw [hhands, Set.mem_singleton_iff] at hhand
    exact ⟨table, hfound, hopen, hplaying, by rw [hhands, hhand]⟩

/-- A call that writes one table and leaves the open hands of the others. -/
theorem Booked.write (h : store.Booked)
    (htables : store'.tables = store.tables.insert tableId table)
    (hbegun : ∀ handId start, store'.handStarts.lookup handId = some start →
      start.tableId = tableId ∨ store.handStarts.lookup handId = some start)
    (hothers : ∀ other, other ≠ tableId → store'.openHands other = store.openHands other)
    (hbusy : table.aborted = false → table.handInProgress = true →
      ∃ handId, store'.openHands tableId = {handId})
    (hidle : table.aborted = false → table.handInProgress = false →
      store'.openHands tableId = ∅) : store'.Booked := by
  refine ⟨fun hand start hstart => ?_, fun id found hfound hopen hplaying => ?_,
    fun id found hfound hopen hplaying => ?_⟩
  · rw [htables]
    by_cases heq : start.tableId = tableId
    · rw [heq]
      exact ⟨table, AList.lookup_insert _⟩
    · rw [AList.lookup_insert_ne heq]
      exact h.begun hand start ((hbegun hand start hstart).resolve_left heq)
  · rw [htables] at hfound
    by_cases heq : id = tableId
    · rw [heq, AList.lookup_insert, Option.some.injEq] at hfound
      subst heq hfound
      exact hbusy hopen hplaying
    · rw [AList.lookup_insert_ne heq] at hfound
      rw [hothers id heq]
      exact h.busy id found hfound hopen hplaying
  · rw [htables] at hfound
    by_cases heq : id = tableId
    · rw [heq, AList.lookup_insert, Option.some.injEq] at hfound
      subst heq hfound
      exact hidle hopen hplaying
    · rw [AList.lookup_insert_ne heq] at hfound
      rw [hothers id heq]
      exact h.idle id found hfound hopen hplaying

/-- A call that leaves the records of hands, and the flags of the table it writes. -/
theorem Booked.seats (h : store.Booked) {old : StoredTable}
    (hfound : store.tables.lookup tableId = some old)
    (htables : store'.tables = store.tables.insert tableId table)
    (hstarts : store'.handStarts = store.handStarts)
    (hsettled : store'.settlements = store.settlements) (haborted : table.aborted = old.aborted)
    (hflag : table.handInProgress = old.handInProgress) : store'.Booked := by
  refine h.write htables (fun _ _ hstart => Or.inr (hstarts ▸ hstart))
    (fun other _ => openHands_congr hstarts hsettled other) ?_ ?_
  · rw [haborted, hflag, openHands_congr hstarts hsettled]
    exact h.busy tableId old hfound
  · rw [haborted, hflag, openHands_congr hstarts hsettled]
    exact h.idle tableId old hfound

/-- The tables and the records of hands are the same. -/
theorem Booked.same (h : store.Booked) (htables : store'.tables = store.tables)
    (hstarts : store'.handStarts = store.handStarts)
    (hsettled : store'.settlements = store.settlements) : store'.Booked := by
  refine ⟨?_, fun id table hfound => ?_, fun id table hfound => ?_⟩
  · rw [htables, hstarts]
    exact h.begun
  · rw [openHands_congr hstarts hsettled]
    exact h.busy id table (htables ▸ hfound)
  · rw [openHands_congr hstarts hsettled]
    exact h.idle id table (htables ▸ hfound)

theorem Booked.begin (h : store.Booked) {hand : HandStartRecord}
    (hnew : store.handStarts.lookup hand.handId = none)
    (hunsettled : store.settlements.lookup hand.handId = none)
    (hfound : store.tables.lookup hand.tableId = some table) (hopen : table.aborted = false)
    (hidle : table.handInProgress = false)
    (htables : store'.tables = store.tables.insert hand.tableId
      { table with handInProgress := true })
    (hstarts : store'.handStarts = store.handStarts.insert hand.handId hand)
    (hsettled : store'.settlements = store.settlements) : store'.Booked := by
  have hhands := openHands_begun hnew hunsettled hstarts hsettled
  refine h.write htables (fun handId start hstart => ?_) (fun other hne => ?_)
    (fun _ _ => ⟨hand.handId, ?_⟩) fun _ hplaying => absurd hplaying (by simp)
  · rw [hstarts] at hstart
    by_cases heq : handId = hand.handId
    · rw [heq, AList.lookup_insert, Option.some.injEq] at hstart
      exact Or.inl (by rw [← hstart])
    · rw [AList.lookup_insert_ne heq] at hstart
      exact Or.inr hstart
  · rw [hhands, if_neg hne]
  · rw [hhands, if_pos rfl, h.idle _ table hfound hopen hidle]
    simp

theorem Booked.settle (h : store.Booked) {start : HandStartRecord} {settled : StoredTable}
    (hstart : store.handStarts.lookup value.handId = some start)
    (hfits : start.tableId = value.tableId)
    (hunsettled : store.settlements.lookup value.handId = none)
    (hfound : store.tables.lookup value.tableId = some table) (hopen : table.aborted = false)
    (hplaying : table.handInProgress = true)
    (htables : store'.tables = store.tables.insert value.tableId settled)
    (hdone : settled.handInProgress = false) (hstarts : store'.handStarts = store.handStarts)
    (hsettled : store'.settlements = store.settlements.insert value.handId value) :
    store'.Booked := by
  have hhands := openHands_settled hstarts hsettled
  have hmine : value.handId ∈ store.openHands value.tableId :=
    ⟨⟨start, hstart, hfits⟩, hunsettled⟩
  refine h.write htables (fun _ _ hbegun => Or.inr (hstarts ▸ hbegun)) (fun other hne => ?_)
    (fun _ hflag => absurd (hdone.symm.trans hflag) (by simp)) fun _ _ => ?_
  · -- The hand was begun at this table, so it was open at no other.
    rw [hhands, Set.sdiff_singleton_eq_self]
    rintro ⟨⟨start', hstart', hat⟩, -⟩
    rw [hstart, Option.some.injEq] at hstart'
    rw [← hstart', hfits] at hat
    exact hne hat.symm
  · obtain ⟨current, hcurrent⟩ := h.busy _ table hfound hopen hplaying
    rw [hcurrent, Set.mem_singleton_iff] at hmine
    rw [hhands, hcurrent, hmine, Set.sdiff_self]

/-- **A call that does not stray keeps the books.** -/
theorem Performed.booked (h : Performed store call answer store') (hbooked : store.Booked)
    (hstray : ¬ store.Strays call) : store'.Booked := by
  cases h with
  | refused error => exact hbooked
  | repeated again => exact hbooked
  | seeded real solvent new => exact hbooked.same rfl rfl rfl
  | @created record new =>
    refine hbooked.write rfl (fun _ _ hstart => Or.inr hstart) (fun _ _ => rfl)
      (fun _ hplaying => absurd hplaying (by simp)) fun _ _ => ?_
    rw [Set.eq_empty_iff_forall_notMem]
    rintro handId ⟨⟨start, hstart, hat⟩, -⟩
    obtain ⟨table, hfound⟩ := hbooked.begun handId start hstart
    rw [hat, new] at hfound
    exact absurd hfound (by simp)
  | boughtIn fresh found => exact hbooked.seats found rfl rfl rfl rfl rfl
  | cashedOut fresh found => exact hbooked.seats found rfl rfl rfl rfl rfl
  | begun new unsettled found opened idle =>
    exact hbooked.begin new unsettled found opened idle rfl rfl rfl
  | appended begun unsettled => exact hbooked.same rfl rfl rfl
  | @settled value start table valid begun unsettled found opened playing lines =>
    have hfits : start.tableId = value.tableId := by
      by_contra hne
      exact hstray ⟨⟨valid, unsettled, table, found, opened, playing, lines⟩, start, begun,
        fun hfits => hne hfits.1⟩
    exact hbooked.settle begun hfits unsettled found opened playing rfl rfl rfl rfl
  | @refunded tableId table wallets found opened complete =>
    exact hbooked.write rfl (fun _ _ hstart => Or.inr hstart) (fun _ _ => rfl)
      (fun hopen => absurd hopen (by simp)) (fun hopen => absurd hopen (by simp))
  | halted found opened stopped => exact hbooked.same rfl rfl rfl

/-! ## What an accepted record says -/

/-- A settlement is accepted for a hand that was begun and has none. -/
theorem Performed.settles (h : Performed store (.settleHand value) (.plain .ok) store') :
    store.Settleable value ∧ (∃ start, store.handStarts.lookup value.handId = some start) ∧
      store'.settlements.lookup value.handId = some value := by
  cases h with
  | refused error => exact absurd rfl error
  | repeated again => exact absurd again (by simp [Repeatable])
  | @settled _ start table valid begun unsettled found opened playing lines =>
    exact ⟨⟨valid, unsettled, table, found, opened, playing, lines⟩, ⟨start, begun⟩,
      AList.lookup_insert _⟩

/-- Settlements stay. -/
theorem Performed.settlements (h : Performed store call answer store')
    (hsettled : store.settlements.lookup handId = some value) :
    store'.settlements.lookup handId = some value := by
  cases h with
  | @settled new start table valid begun unsettled =>
    change (store.settlements.insert new.handId new).lookup handId = _
    rw [AList.lookup_insert_ne]
    · exact hsettled
    · rintro rfl
      rw [unsettled] at hsettled
      exact absurd hsettled (by simp)
  | _ => exact hsettled

theorem settleHand_lawful (hbooked : store.Booked)
    (hperformed : Performed store (.settleHand value) (.plain .ok) store')
    (hstray : ¬ store.Strays (.settleHand value)) :
    ∃ start, store.handStarts.lookup value.handId = some start ∧
      start.tableId = value.tableId ∧ SamePlayers start value ∧
      store.Current value.tableId value.handId := by
  obtain ⟨hsettleable, ⟨start, hstart⟩, -⟩ := hperformed.settles
  have hfits : start.tableId = value.tableId ∧ SamePlayers start value := by
    by_contra hnot
    exact hstray ⟨hsettleable, start, hstart, hnot⟩
  obtain ⟨-, hunsettled, table, hfound, hopen, -, -⟩ := hsettleable
  exact ⟨start, hstart, hfits.1, hfits.2,
    hbooked.current hfound hopen ⟨⟨start, hstart, hfits.1⟩, hunsettled⟩⟩

theorem appendAction_lawful (hbooked : store.Booked) (happendable : store.Appendable action)
    {start : HandStartRecord} (hstart : store.handStarts.lookup action.handId = some start)
    (hstray : ¬ store.Strays (.appendAction action)) :
    store.Current start.tableId action.handId := by
  obtain ⟨table, hfound⟩ := hbooked.begun action.handId start hstart
  refine hbooked.current hfound ?_ ⟨⟨start, hstart, rfl⟩, happendable.2.2.2.2.1⟩
  rw [← Bool.not_eq_true]
  exact fun haborted => hstray ⟨happendable, start, table, hstart, hfound, haborted⟩

theorem lawful_of_does {label : StoreOp × StoreAnswer} (hdoes : Does store label store')
    (hbooked : store.Booked) (hstray : ¬ store.Strays label.1) :
    Lawful ⟨store, label, store'⟩ := by
  unfold Lawful
  split
  · rename_i value heq
    subst heq
    exact settleHand_lawful hbooked (perform_performed hdoes) hstray
  · rename_i action heq
    subst heq
    have hok : (store.appendAction action).1 = .ok :=
      StoreAnswer.plain.inj (congrArg Prod.fst hdoes)
    obtain ⟨happendable, start, hstart⟩ := appendable_of_ok hok
    exact ⟨start, hstart, appendAction_lawful hbooked happendable hstart hstray⟩
  · trivial

/-- A call that strays is answered `ok`, against the law. -/
theorem Lawful.not_strays {label : StoreOp × StoreAnswer} (h : Lawful ⟨store, label, store'⟩)
    (hdoes : Does store label store') : ¬ store.Strays label.1 := by
  obtain ⟨call, answer⟩ := label
  intro hstray
  cases call with
  | settleHand value =>
    obtain ⟨hsettleable, start, hstart, hnot⟩ := hstray
    obtain rfl : .plain .ok = answer := by
      rw [← settleHand_ok hsettleable hstart]
      exact congrArg Prod.fst hdoes
    obtain ⟨start', hstart', hat, hplayers, -⟩ := h
    rw [hstart, Option.some.injEq] at hstart'
    subst hstart'
    exact hnot ⟨hat, hplayers⟩
  | appendAction action =>
    obtain ⟨happendable, start, table, hstart, hfound, haborted⟩ := hstray
    obtain rfl : .plain .ok = answer := by
      rw [← appendAction_ok happendable hstart]
      exact congrArg Prod.fst hdoes
    obtain ⟨start', hstart', table', hfound', hopen, -⟩ := h
    rw [hstart, Option.some.injEq] at hstart'
    subst hstart'
    rw [hfound, Option.some.injEq] at hfound'
    rw [hfound', hopen] at haborted
    exact absurd haborted (by simp)
  | _ => exact hstray

/-! ## Runs -/

theorem booked_empty : Booked {} := ⟨by simp, by simp, by simp⟩

/-- Whatever its records say, no hand is settled twice. -/
theorem settled_once (hr : Run Does {} trace store) : ∀ pre e post, trace = pre ++ e :: post →
    ∀ handId, SettlesHand handId e → ∀ later ∈ post, ¬ SettlesHand handId later := by
  rintro pre e post rfl handId ⟨value, hlabel, rfl⟩ later hlater ⟨value', hlabel', hsame⟩
  obtain ⟨-, hdoes, hpost⟩ := hr.split
  obtain ⟨pre', post', rfl⟩ := List.append_of_mem hlater
  obtain ⟨hbetween, hdoes', -⟩ := hpost.split
  rw [hlabel] at hdoes
  rw [hlabel'] at hdoes'
  have hkept : later.before.settlements.lookup value.handId = some value :=
    hbetween.invariant (I := fun s => s.settlements.lookup value.handId = some value)
      (perform_performed hdoes).settles.2.2
      fun _ _ _ hI hstep => (perform_performed hstep).settlements hI
  obtain ⟨⟨-, hnew, -⟩, -⟩ := (perform_performed hdoes').settles
  rw [hsame, hkept] at hnew
  exact absurd hnew (by simp)

/-- **The flags and the records of hands agree along a run iff no call strays**, that is, iff no
settlement passes the checks with another table or other players than its start record, and no
action passes them after its table was aborted. -/
theorem lifecycle_iff (hr : Run Does {} trace store) :
    Lifecycle trace store ↔ ∀ e ∈ trace, ¬ e.before.Strays e.label.1 := by
  constructor
  · intro h e he
    obtain ⟨-, hdoes⟩ := hr.entry he
    exact (h.lawful e he).not_strays hdoes
  · intro hstray
    have hkeeps : ∀ a l b, Booked a → Does a l b → ¬ a.Strays l.1 → Booked b :=
      fun _ _ _ hbooked hdoes hno => (perform_performed hdoes).booked hbooked hno
    refine ⟨⟨?_, fun e he => ?_⟩, fun e he => ?_, settled_once hr⟩
    · exact (hr.guarded booked_empty hkeeps hstray).tracked
    · exact (hr.guarded_entry booked_empty hkeeps hstray he).1.tracked
    · obtain ⟨hbooked, hdoes⟩ := hr.guarded_entry booked_empty hkeeps hstray he
      exact lawful_of_does hdoes hbooked (hstray e he)

/-- The comparison with the start record and the aborted table that would do. -/
def fits (store : InMemoryGameStore) : StoreOp → Bool
  | .settleHand value => (store.handStarts.lookup value.handId).all fun start =>
    start.tableId = value.tableId ∧ start.players.map (·.userId) = value.players.map (·.userId)
  | .appendAction action => (store.handStarts.lookup action.handId).all fun start =>
    (store.tables.lookup start.tableId).all fun table => !table.aborted
  | _ => true

theorem not_strays_of_fits (h : store.fits call = true) : ¬ store.Strays call := by
  intro hstray
  cases call with
  | settleHand value =>
    obtain ⟨-, start, hstart, hnot⟩ := hstray
    simp only [fits, hstart, Option.all_some, decide_eq_true_eq] at h
    exact hnot ⟨h.1, fun user => by rw [h.2]⟩
  | appendAction action =>
    obtain ⟨-, start, table, hstart, hfound, haborted⟩ := hstray
    simp only [fits, hstart, hfound, Option.all_some, haborted] at h
    exact absurd h (by simp)
  | _ => exact hstray

theorem lifecycle_playedHand :
    ∃ trace store, Run Does {} trace store ∧ (store.settlements.lookup 900).isSome = true ∧
      Lifecycle trace store := by
  have hcheck : (replay performs {} playedHand).any (fun r =>
      (r.2.settlements.lookup 900).isSome && r.1.all fun e => e.before.fits e.label.1) = true := by
    decide +kernel
  obtain ⟨⟨trace, store⟩, hreplay, hfacts⟩ := (Option.any_eq_true _ _).mp hcheck
  rw [Bool.and_eq_true, List.all_eq_true] at hfacts
  obtain ⟨hsettled, hfits⟩ := hfacts
  have hr := run_of_calls hreplay
  exact ⟨trace, store, hr, hsettled,
    (lifecycle_iff hr).mpr fun e he => not_strays_of_fits (hfits e he)⟩

/-- Table 7 plays hand 900 and table 8 plays hand 901; then hand 900 is settled with the players of
table 8. The store accepts it: table 8 is free while its hand is open, and table 7 is busy with no
hand. -/
theorem settlement_of_other_table :
    ∃ trace store, Run Does {} trace store ∧ (∀ e ∈ trace, e.label.2.error = .ok) ∧
      ¬ Lifecycle trace store := by
  have hcheck : (replay performs {} (playedHand.take 6 ++
      [.seedWallet 3 1000, .seedWallet 4 1000,
       .createTable { tableId := 8, name := "other", nodeId := "node", createdBy := 3,
                      config := { minBuyIn := 200, maxBuyIn := 2000 } },
       .reserveBuyIn 8 3 0 300 "buy:3", .reserveBuyIn 8 4 1 500 "buy:4",
       .beginHand { handId := 901, tableId := 8, handNumber := 1, players :=
         [{ userId := 3, seat := 0, startStack := 300, holeCards := [⟨14, 0⟩, ⟨14, 1⟩] },
          { userId := 4, seat := 1, startStack := 500, holeCards := [⟨13, 0⟩, ⟨13, 1⟩] }] },
       .settleHand { handId := 900, tableId := 8, handNumber := 1, totalPot := 600, players :=
         [{ userId := 3, seat := 0, startStack := 300, committed := 300, winnings := 600,
            endStack := 600, holeCards := [⟨14, 0⟩, ⟨14, 1⟩] },
          { userId := 4, seat := 1, startStack := 500, committed := 300, winnings := 0,
            endStack := 200, holeCards := [⟨13, 0⟩, ⟨13, 1⟩] }] }])).any (fun r =>
        (r.2.tables.lookup 8).any (fun table => !table.aborted && !table.handInProgress) &&
        (r.2.handStarts.lookup 901).any (fun start => start.tableId = 8) &&
        decide (r.2.settlements.lookup 901 = none ∧ ∀ e ∈ r.1, e.label.2.error = .ok)) = true := by
    decide +kernel
  obtain ⟨⟨trace, store⟩, hreplay, hfacts⟩ := (Option.any_eq_true _ _).mp hcheck
  simp only [Bool.and_eq_true, Option.any_eq_true, decide_eq_true_eq, Bool.not_eq_true'] at hfacts
  obtain ⟨⟨⟨table, hfound, hopen, hfree⟩, start, hstart, hat⟩, hunsettled, hok⟩ := hfacts
  refine ⟨trace, store, run_of_calls hreplay, hok, fun h => ?_⟩
  have hnone := (h.tracked.1 8 table hfound hopen).2 hfree
  have hmem : 901 ∈ store.openHands 8 := ⟨⟨start, hstart, hat⟩, hunsettled⟩
  rw [hnone] at hmem
  exact hmem

end InMemoryGameStore

end PokerServer

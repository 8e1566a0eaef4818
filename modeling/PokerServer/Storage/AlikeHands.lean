import PokerServer.Storage.AlikeMoney

/-!
# Actions and settlements in both stores

An action is inserted while its hand is being played. Both stores compare it with the action of its
sequence and with the one of its user and request; the database finds one of the two that clashed
and compares it as a whole, which comes to the same because a stored action has one sequence.

A settlement compares its lines with the seats of the table in the in-memory store, and with the
rows of the hand and of the seats in the database, one line after the other
(`settlePlayers_ok`, `settlePlayers_conflict`).
-/

namespace PokerServer

variable {db db' cur next : MySqlGameStore} {store store' : InMemoryGameStore} {tableId : Nat}
  {table : StoredTable} {action : HandActionRecord} {value : HandSettlementRecord}
  {player : HandPlayerSettlement}

/-! ## Actions -/

namespace InMemoryGameStore

/-- The sequence of the action is used in its hand, or the request of its user. -/
def Taken (store : InMemoryGameStore) (action : HandActionRecord) : Prop :=
  ∃ sequence existing, store.actions.lookup (action.handId, sequence) = some existing ∧
    (sequence = action.sequence ∨
      existing.userId = action.userId ∧ existing.requestId = action.requestId)

/-- The action is stored as it is. -/
def Has (store : InMemoryGameStore) (action : HandActionRecord) : Prop :=
  store.actions.lookup (action.handId, action.sequence) = some action

end InMemoryGameStore

/-- **When an action is treated alike.** It has no zero id (`ids`), its hand is known (`known`), at
an aborted table it clashes with another one (`aborted`), and a new one is of a user (`user`). -/
structure AlikeAppend (db : MySqlGameStore) (store : InMemoryGameStore)
    (action : HandActionRecord) :
    Prop where
  ids : ¬ (action.handId = 0 ∨ action.sequence = 0 ∨ action.requestId = 0 ∨ action.userId = 0)
  known : (store.handStarts.lookup action.handId).isSome = true
  aborted : ∀ start table, store.settlements.lookup action.handId = none →
    store.handStarts.lookup action.handId = some start →
    store.tables.lookup start.tableId = some table → table.aborted = true →
    store.Taken action ∧ ¬ store.Has action
  user : store.settlements.lookup action.handId = none → ¬ store.Taken action →
    action.userId ∈ db.users

theorem streetName_injective {street street' : Street} (h : street.Stored) (h' : street'.Stored)
    (heq : streetName street = streetName street') : street = street' := by
  rcases h with rfl | rfl | rfl | rfl <;> rcases h' with rfl | rfl | rfl | rfl <;>
    first | rfl | exact absurd heq (by decide)

theorem actionName_injective {action action' : ActionType}
    (heq : actionName action = actionName action') : action = action' := by
  cases action <;> cases action' <;> first | rfl | exact absurd heq (by decide)

/-- The row of an action has all its fields but the key. -/
theorem HandActionRow.of_injective {existing : HandActionRecord}
    (hhand : existing.handId = action.handId) (hsequence : existing.sequence = action.sequence)
    (hstored : existing.street.Stored) (hstored' : action.street.Stored)
    (heq : HandActionRow.of existing = HandActionRow.of action) : existing = action := by
  obtain ⟨handId, sequence, requestId, userId, street, type, amount⟩ := existing
  obtain ⟨handId', sequence', requestId', userId', street', type', amount'⟩ := action
  obtain ⟨rfl, rfl, hstreet, htype, rfl⟩ := HandActionRow.mk.inj heq
  obtain rfl := streetName_injective hstored hstored' hstreet
  obtain rfl := actionName_injective htype
  obtain rfl : handId = handId' := hhand
  obtain rfl : sequence = sequence' := hsequence
  rfl

namespace InMemoryGameStore

/-- **What the in-memory store does with an action of a hand that is not settled.** -/
theorem appendAction_unsettled (h : HandsCorrespond db store)
    (hids : ¬ (action.handId = 0 ∨ action.sequence = 0 ∨ action.requestId = 0 ∨ action.userId = 0))
    (hknown : (store.handStarts.lookup action.handId).isSome = true)
    (hunsettled : store.settlements.lookup action.handId = none) :
    (store.Has action → store.appendAction action = (.duplicate, store)) ∧
    (store.Taken action → ¬ store.Has action → store.appendAction action = (.conflict, store)) ∧
    (¬ store.Taken action → store.appendAction action = (.ok, { store with
      actions := store.actions.insert (action.handId, action.sequence) action })) := by
  unfold appendAction Has
  rw [if_neg hids,
    if_neg (by rw [Option.isNone_iff_eq_none]; exact Option.isSome_iff_ne_none.mp hknown),
    hunsettled, if_neg (by simp)]
  cases hsequence : store.actions.lookup (action.handId, action.sequence) with
  | some existing =>
    dsimp only
    refine ⟨fun hhas => ?_, fun _ hno => ?_, fun hfree => ?_⟩
    · rw [if_pos (Option.some.inj hhas)]
    · rw [if_neg fun heq => hno (congrArg some heq)]
    · exact absurd ⟨action.sequence, existing, hsequence, Or.inl rfl⟩ hfree
  | none =>
    dsimp only
    refine ⟨fun hhas => absurd hhas (by simp), fun htaken _ => ?_, fun hfree => ?_⟩
    · obtain ⟨sequence, existing, hlookup, hsame⟩ := htaken
      have hrequest : existing.userId = action.userId ∧ existing.requestId = action.requestId := by
        refine hsame.resolve_left fun heq => ?_
        rw [heq, hsequence] at hlookup
        exact absurd hlookup (by simp)
      obtain ⟨hhand, -⟩ := h.numbered action.handId sequence existing hlookup
      cases hfind : store.actions.entries.find? fun entry =>
          entry.2.handId = action.handId ∧ entry.2.userId = action.userId
            ∧ entry.2.requestId = action.requestId with
      | none =>
        have hmissed := List.find?_eq_none.mp hfind _ (AList.mem_lookup_iff.mp hlookup)
        exact absurd (decide_eq_true (And.intro hhand hrequest)) hmissed
      | some entry =>
        -- the action that is found has another sequence
        have hentry : store.actions.lookup entry.1 = some entry.2 :=
          AList.mem_lookup_iff.mpr (List.mem_of_find?_eq_some hfind)
        obtain ⟨hhand', hnumber, -⟩ := h.numbered entry.1.1 entry.1.2 entry.2 hentry
        dsimp only
        rw [if_neg]
        intro heq
        have hkey : entry.1 = (action.handId, action.sequence) :=
          Prod.ext (hhand'.symm.trans (congrArg _ heq)) (hnumber.symm.trans (congrArg _ heq))
        rw [hkey, hsequence] at hentry
        exact absurd hentry (by simp)
    · have hnone : (store.actions.entries.find? fun entry =>
          entry.2.handId = action.handId ∧ entry.2.userId = action.userId
            ∧ entry.2.requestId = action.requestId) = none := by
        refine List.find?_eq_none.mpr fun entry hentry hcond => hfree ?_
        obtain ⟨hhand, hrequest⟩ := of_decide_eq_true hcond
        have hlookup : store.actions.lookup entry.1 = some entry.2 :=
          AList.mem_lookup_iff.mpr hentry
        obtain ⟨hhand', -⟩ := h.numbered entry.1.1 entry.1.2 entry.2 hlookup
        refine ⟨entry.1.2, entry.2, ?_, Or.inr hrequest⟩
        rw [← hhand, hhand']
        exact hlookup
      rw [hnone]

end InMemoryGameStore

/-- The unique keys of the actions refuse a taken action. -/
theorem HandsCorrespond.clash_iff (h : HandsCorrespond db store) :
    ((db.handActions.lookup (action.handId, action.sequence)).isSome = true ∨
      anyRow (fun key row => key.1 = action.handId ∧ row.userId = action.userId
        ∧ row.requestId = action.requestId) db.handActions = true) ↔ store.Taken action := by
  constructor
  · rintro (hsequence | hany)
    · rw [h.actions, Option.isSome_map] at hsequence
      obtain ⟨existing, hexisting⟩ := Option.isSome_iff_exists.mp hsequence
      exact ⟨action.sequence, existing, hexisting, Or.inl rfl⟩
    · obtain ⟨⟨handId, sequence⟩, row, hrow, hcond⟩ := anyRow_iff.mp hany
      rw [h.actions] at hrow
      obtain ⟨existing, hexisting, rfl⟩ := Option.map_eq_some_iff.mp hrow
      obtain ⟨rfl, hrequest⟩ := of_decide_eq_true hcond
      exact ⟨sequence, existing, hexisting, Or.inr hrequest⟩
  · rintro ⟨sequence, existing, hexisting, rfl | hrequest⟩
    · refine Or.inl ?_
      rw [h.actions, hexisting]
      rfl
    · refine Or.inr (anyRow_iff.mpr ⟨(action.handId, sequence), HandActionRow.of existing, ?_,
        decide_eq_true ⟨rfl, hrequest⟩⟩)
      rw [h.actions, hexisting, Option.map_some]

/-- **The row that a clash finds is the action's own iff the action is stored.** -/
theorem HandsCorrespond.isExactActionDuplicate (h : HandsCorrespond db store)
    (hstored : action.street.Stored) :
    db.isExactActionDuplicate action = true ↔ store.Has action := by
  unfold MySqlGameStore.isExactActionDuplicate InMemoryGameStore.Has
  constructor
  · intro hexact
    obtain ⟨⟨⟨handId, sequence⟩, row⟩, hfind, hsame⟩ := (Option.any_eq_true _ _).mp hexact
    obtain ⟨hsequence, hrequest, huser, hamount, hstreet, htype⟩ := of_decide_eq_true hsame
    have hfound := List.find?_some hfind
    obtain ⟨hhand, -⟩ := of_decide_eq_true hfound
    dsimp only at hhand hsequence
    subst hhand hsequence
    have hrow := AList.mem_lookup_iff.mpr (List.mem_of_find?_eq_some hfind)
    rw [h.actions] at hrow
    obtain ⟨existing, hexisting, rfl⟩ := Option.map_eq_some_iff.mp hrow
    obtain ⟨hhand, hnumber, hstored'⟩ := h.numbered _ _ existing hexisting
    have hsame : HandActionRow.of existing = HandActionRow.of action := by
      rw [HandActionRow.of, HandActionRow.mk.injEq]
      exact ⟨hrequest, huser, hstreet, htype, hamount⟩
    rw [hexisting, HandActionRow.of_injective hhand hnumber hstored' hstored hsame]
  · intro hhas
    have hown : db.handActions.lookup (action.handId, action.sequence) =
        some (HandActionRow.of action) := by rw [h.actions, hhas, Option.map_some]
    rw [Option.any_eq_true]
    cases hfind : db.handActions.entries.find? fun entry =>
        entry.1.1 = action.handId ∧ (entry.1.2 = action.sequence ∨
          entry.2.userId = action.userId ∧ entry.2.requestId = action.requestId) with
    | none =>
      have hmissed := List.find?_eq_none.mp hfind _ (AList.mem_lookup_iff.mp hown)
      exact absurd (decide_eq_true (And.intro rfl (Or.inl rfl))) hmissed
    | some entry =>
      obtain ⟨⟨handId, sequence⟩, row⟩ := entry
      have hfound := List.find?_some hfind
      obtain ⟨hhand, hcause⟩ := of_decide_eq_true hfound
      dsimp only at hhand hcause
      subst hhand
      have hrow := AList.mem_lookup_iff.mpr (List.mem_of_find?_eq_some hfind)
      -- a row of the same user and request has the same sequence
      have hsequence : sequence = action.sequence := by
        rcases hcause with hsequence | ⟨huser, hrequest⟩
        · exact hsequence
        · rw [h.actions] at hrow
          obtain ⟨existing, hexisting, rfl⟩ := Option.map_eq_some_iff.mp hrow
          exact h.requests _ _ _ existing action hexisting hhas huser hrequest
      subst hsequence
      obtain rfl := Option.some.inj (hrow.symm.trans hown)
      exact ⟨_, rfl, decide_eq_true ⟨rfl, rfl, rfl, rfl, rfl, rfl⟩⟩

/-- A free action of a hand keeps the hands corresponding. -/
theorem HandsCorrespond.append (h : HandsCorrespond db store) (hstored : action.street.Stored)
    (hfree : ¬ store.Taken action) :
    HandsCorrespond
      { db with handActions :=
          db.handActions.insert (action.handId, action.sequence) (HandActionRow.of action) }
      { store with
        actions := store.actions.insert (action.handId, action.sequence) action } := by
  have hrequest : ∀ sequence existing,
      store.actions.lookup (action.handId, sequence) = some existing →
      ¬ (existing.userId = action.userId ∧ existing.requestId = action.requestId) :=
    fun sequence existing hexisting hsame => hfree ⟨sequence, existing, hexisting, Or.inr hsame⟩
  refine ⟨h.hands, h.settled, h.players, fun handId sequence => ?_,
    fun handId sequence other hother => ?_,
    fun handId sequence sequence' first second hfirst hsecond huser hsame => ?_⟩
  · dsimp only
    by_cases heq : (handId, sequence) = (action.handId, action.sequence)
    · rw [heq, AList.lookup_insert, AList.lookup_insert, Option.map_some]
    · rw [AList.lookup_insert_ne heq, AList.lookup_insert_ne heq, h.actions]
  · dsimp only at hother
    by_cases heq : (handId, sequence) = (action.handId, action.sequence)
    · rw [heq, AList.lookup_insert, Option.some.injEq] at hother
      obtain ⟨rfl, rfl⟩ := Prod.mk.inj heq
      exact hother ▸ ⟨rfl, rfl, hstored⟩
    · rw [AList.lookup_insert_ne heq] at hother
      exact h.numbered handId sequence other hother
  · dsimp only at hfirst hsecond
    by_cases heq : (handId, sequence) = (action.handId, action.sequence)
    · obtain ⟨rfl, rfl⟩ := Prod.mk.inj heq
      rw [AList.lookup_insert, Option.some.injEq] at hfirst
      subst hfirst
      by_cases heq' : sequence' = action.sequence
      · exact heq'.symm
      · rw [AList.lookup_insert_ne (by simp [heq'])] at hsecond
        exact absurd ⟨huser.symm, hsame.symm⟩ (hrequest sequence' second hsecond)
    · rw [AList.lookup_insert_ne heq] at hfirst
      by_cases heq' : (handId, sequence') = (action.handId, action.sequence)
      · obtain ⟨rfl, rfl⟩ := Prod.mk.inj heq'
        rw [AList.lookup_insert, Option.some.injEq] at hsecond
        subst hsecond
        exact absurd ⟨huser, hsame⟩ (hrequest sequence first hfirst)
      · rw [AList.lookup_insert_ne heq'] at hsecond
        exact h.requests handId sequence sequence' first second hfirst hsecond huser hsame

/-- **An action that is treated alike** returns the same error. -/
theorem Corresponds.appendAction (h : Corresponds db store) (hrange : action.street.Stored)
    (halike : AlikeAppend db store action) :
    (db.appendAction action).1 = (store.appendAction action).1 ∧
      Corresponds (db.appendAction action).2 (store.appendAction action).2 := by
  have hsound : (store.appendAction action).2.Sound := sound_perform h.sound (.appendAction action)
  obtain ⟨hids, hknown, haborted, huser⟩ := halike
  obtain ⟨start, hstart⟩ := Option.isSome_iff_exists.mp hknown
  obtain ⟨row, hrow, hstate⟩ := h.hand hstart
  obtain ⟨-, -, hstatus⟩ := HandState.mk.inj hstate
  unfold MySqlGameStore.appendAction MySqlGameStore.insertAction
  rw [hrow, Option.any_some]
  cases hsettled : store.settlements.lookup action.handId with
  | some settlement =>
    rw [hsettled, if_pos (by simp)] at hstatus
    have hrefused : store.appendAction action = (.conflict, store) := by
      unfold InMemoryGameStore.appendAction
      rw [if_neg hids, hstart, if_neg (by simp), hsettled, if_pos (by simp)]
    rw [hrefused, if_neg (by simp [hstatus])]
    exact ⟨rfl, h⟩
  | none =>
    rw [hsettled, if_neg (by simp)] at hstatus
    obtain ⟨hhas, hclash, hfresh⟩ :=
      InMemoryGameStore.appendAction_unsettled h.toHandsCorrespond hids hknown hsettled
    by_cases hclosed : (store.tables.lookup start.tableId).any (·.aborted) = true
    · rw [if_pos hclosed] at hstatus
      obtain ⟨table, htable, hflag⟩ := (Option.any_eq_true _ _).mp hclosed
      obtain ⟨htaken, hother⟩ := haborted start table hsettled hstart htable hflag
      rw [hclash htaken hother, if_neg (by simp [hstatus])]
      exact ⟨rfl, h⟩
    rw [if_neg hclosed] at hstatus
    rw [if_pos (by simp [hstatus])]
    by_cases htaken : store.Taken action
    · rw [if_pos (h.clash_iff.mpr htaken)]
      dsimp only
      by_cases hown : store.Has action
      · rw [if_pos ((h.isExactActionDuplicate hrange).mpr hown), hhas hown]
        exact ⟨rfl, h⟩
      · rw [if_neg fun hc => hown ((h.isExactActionDuplicate hrange).mp hc), hclash htaken hown]
        exact ⟨rfl, h⟩
    · rw [if_neg fun hc => htaken (h.clash_iff.mp hc), if_neg (not_not.mpr (huser hsettled htaken))]
      revert hsound
      rw [hfresh htaken]
      intro hsound
      exact ⟨rfl, { h.toMoneyCorresponds with sound := hsound }, h.append hrange htaken⟩

/-! ## The lines of a settlement -/

namespace MySqlGameStore

/-- The line has a row of its hand and a row of its seat, both with its start stack. -/
structure Settles (db : MySqlGameStore) (value : HandSettlementRecord)
    (player : HandPlayerSettlement) : Prop where
  started : ∃ row, db.handPlayers.lookup (value.handId, player.userId) = some row ∧
    row.startStack = player.startStack
  seated : ∃ row, db.tableSeats.lookup (value.tableId, player.userId) = some row ∧
    row.handStartStack = player.startStack

/-- What a round leaves. -/
def settle (db : MySqlGameStore) (value : HandSettlementRecord) (player : HandPlayerSettlement) :
    MySqlGameStore :=
  { db with
    handPlayers := updateRows (closePlayer value.handId player) db.handPlayers
    tableSeats := updateRows (paySeat value.tableId player) db.tableSeats }

theorem affectedRows_closePlayer {handId : Nat} :
    affectedRows (closePlayer handId player) db.handPlayers = 1 ↔
      ∃ row, db.handPlayers.lookup (handId, player.userId) = some row ∧
        row.startStack = player.startStack :=
  affectedRows_atKey_iff

theorem affectedRows_paySeat :
    affectedRows (paySeat tableId player) db.tableSeats = 1 ↔
      ∃ row, db.tableSeats.lookup (tableId, player.userId) = some row ∧
        row.handStartStack = player.startStack :=
  affectedRows_atKey_iff

/-- The update of a seat passes its checks, as the end stack does. -/
theorem updateSeats_paySeat (db : MySqlGameStore) (tableId : Nat) (hend : 0 ≤ player.endStack) :
    db.updateSeats (paySeat tableId player) =
      some (affectedRows (paySeat tableId player) db.tableSeats,
        { db with tableSeats := updateRows (paySeat tableId player) db.tableSeats }) := by
  refine if_pos ?_
  rw [paySeat, writesPass_atKey, Option.all_eq_true]
  intro new hnew
  obtain ⟨row, -, hset⟩ := Option.bind_eq_some_iff.mp hnew
  split at hset
  · rw [← Option.some.inj hset]
    exact decide_eq_true ⟨hend, hend⟩
  · exact absurd hset (by simp)

/-- **A round succeeds iff the line has its two rows**, and is a conflict otherwise. -/
theorem settlePlayer_eq (hend : 0 ≤ player.endStack) :
    (cur.Settles value player → settlePlayer value cur player = .ok (cur.settle value player)) ∧
    (¬ cur.Settles value player → settlePlayer value cur player = .error .conflict) := by
  unfold settlePlayer
  constructor
  · rintro ⟨hstarted, hseated⟩
    rw [if_neg (not_not.mpr (affectedRows_closePlayer.mpr hstarted))]
    dsimp only
    rw [updateSeats_paySeat _ _ hend]
    dsimp only
    rw [if_neg (not_not.mpr (affectedRows_paySeat.mpr hseated))]
    rfl
  · intro hrefused
    by_cases hstarted : affectedRows (closePlayer value.handId player) cur.handPlayers = 1
    · have hunseated : ¬ affectedRows (paySeat value.tableId player) cur.tableSeats = 1 :=
        fun hseated => hrefused
          ⟨affectedRows_closePlayer.mp hstarted, affectedRows_paySeat.mp hseated⟩
      rw [if_neg (not_not.mpr hstarted)]
      dsimp only
      rw [updateSeats_paySeat _ _ hend]
      dsimp only
      rw [if_pos hunseated]
    · rw [if_pos hstarted]

/-- The lines of the other users are settled as before. -/
theorem settles_settle {other : HandPlayerSettlement} (hne : other.userId ≠ player.userId) :
    (cur.settle value player).Settles value other ↔ cur.Settles value other := by
  have hplayers : (cur.settle value player).handPlayers.lookup (value.handId, other.userId) =
      cur.handPlayers.lookup (value.handId, other.userId) := lookup_atKey_ne (by simp [hne]) _ _
  have hseats : (cur.settle value player).tableSeats.lookup (value.tableId, other.userId) =
      cur.tableSeats.lookup (value.tableId, other.userId) := lookup_atKey_ne (by simp [hne]) _ _
  constructor
  · rintro ⟨hstarted, hseated⟩
    rw [hplayers] at hstarted
    rw [hseats] at hseated
    exact ⟨hstarted, hseated⟩
  · rintro ⟨hstarted, hseated⟩
    refine ⟨?_, ?_⟩
    · rw [hplayers]
      exact hstarted
    · rw [hseats]
      exact hseated

/-- A round keeps the start stacks of the hand. -/
theorem startStack_settle (key : Nat × UserId) :
    ((cur.settle value player).handPlayers.lookup key).map (·.startStack) =
      (cur.handPlayers.lookup key).map (·.startStack) := by
  rw [settle, lookup_updateRows, Option.map_map]
  congr 1
  funext row
  unfold closePlayer atKey
  rw [Function.comp_apply]
  split
  · dsimp only
    split <;> rfl
  · rfl

/-- **The loop over lines that all have their rows** keeps the start stacks of the hand and pays
out the end stacks. -/
theorem settlePlayers_ok : ∀ {players : List HandPlayerSettlement} {cur : MySqlGameStore},
    (players.map (·.userId)).Nodup → (∀ player ∈ players, 0 ≤ player.endStack) →
    (∀ player ∈ players, cur.Settles value player) →
    ∃ handPlayers tableSeats, players.foldlM (settlePlayer value) cur =
        .ok { cur with handPlayers := handPlayers, tableSeats := tableSeats } ∧
      (∀ key, (handPlayers.lookup key).map (·.startStack) =
        (cur.handPlayers.lookup key).map (·.startStack)) ∧
      (∀ player ∈ players, tableSeats.lookup (value.tableId, player.userId) =
        (cur.tableSeats.lookup (value.tableId, player.userId)).map fun row =>
          { row with stack := player.endStack, handStartStack := player.endStack }) ∧
      ∀ key, (∀ player ∈ players, key ≠ (value.tableId, player.userId)) →
        tableSeats.lookup key = cur.tableSeats.lookup key
  | [], cur, _, _, _ =>
    ⟨cur.handPlayers, cur.tableSeats, rfl, fun _ => rfl, fun _ hp => absurd hp (by simp),
      fun _ _ => rfl⟩
  | player :: players, cur, hnodup, hends, hsettles => by
    rw [List.map_cons, List.nodup_cons] at hnodup
    have hne : ∀ other ∈ players, other.userId ≠ player.userId := fun other hother heq =>
      hnodup.1 (heq ▸ List.mem_map_of_mem hother)
    have hround := (settlePlayer_eq (hends player List.mem_cons_self)).1
      (hsettles player List.mem_cons_self)
    have hrest : ∀ other ∈ players, (cur.settle value player).Settles value other :=
      fun other hother => (settles_settle (hne other hother)).mpr
        (hsettles other (List.mem_cons_of_mem _ hother))
    obtain ⟨handPlayers, tableSeats, hloop, hplayers, hpaid, hothers⟩ := settlePlayers_ok
      hnodup.2 (fun p hp => hends p (List.mem_cons_of_mem _ hp)) hrest
    refine ⟨handPlayers, tableSeats, ?_, fun key => ?_, fun other hother => ?_, fun key hkey => ?_⟩
    · rw [List.foldlM_cons, hround]
      exact hloop
    · exact (hplayers key).trans (startStack_settle key)
    · rcases List.mem_cons.mp hother with rfl | hother
      · rw [hothers _ fun p hp heq => hne p hp (congrArg Prod.snd heq).symm]
        obtain ⟨row, hrow, hstack⟩ := (hsettles other List.mem_cons_self).seated
        rw [settle, paySeat, lookup_atKey_self, hrow, Option.map_some, Option.map_some,
          if_pos hstack]
        rfl
      · rw [hpaid other hother, settle, paySeat]
        dsimp only
        rw [lookup_atKey_ne (by simp [hne other hother])]
    · rw [hothers key fun p hp => hkey p (List.mem_cons_of_mem _ hp)]
      exact lookup_atKey_ne (hkey player List.mem_cons_self) _ _

/-- **The loop conflicts at a line without its rows.** -/
theorem settlePlayers_conflict : ∀ {players : List HandPlayerSettlement} {cur : MySqlGameStore},
    (players.map (·.userId)).Nodup → (∀ player ∈ players, 0 ≤ player.endStack) →
    ¬ (∀ player ∈ players, cur.Settles value player) →
    players.foldlM (settlePlayer value) cur = .error .conflict
  | [], _, _, _, hrefused => absurd (fun _ hp => absurd hp (by simp)) hrefused
  | player :: players, cur, hnodup, hends, hrefused => by
    rw [List.map_cons, List.nodup_cons] at hnodup
    rw [List.foldlM_cons]
    by_cases hsettles : cur.Settles value player
    · rw [(settlePlayer_eq (hends player List.mem_cons_self)).1 hsettles]
      refine settlePlayers_conflict hnodup.2 (fun p hp => hends p (List.mem_cons_of_mem _ hp))
        fun hall => hrefused (List.forall_mem_cons.mpr ⟨hsettles, fun p hp => ?_⟩)
      have hne : p.userId ≠ player.userId := fun heq => hnodup.1 (heq ▸ List.mem_map_of_mem hp)
      exact (settles_settle hne).mp (hall p hp)
    · rw [(settlePlayer_eq (hends player List.mem_cons_self)).2 hsettles]
      rfl

end MySqlGameStore

/-! ## Settlements -/

/-- The line has the start stack that its user started the hand with and still has. -/
def HandStartRecord.Covers (start : HandStartRecord) (table : StoredTable)
    (player : HandPlayerSettlement) : Prop :=
  start.stackOf player.userId = some player.startStack ∧
    ∃ record, table.seats.lookup player.userId = some record ∧ record.stack = player.startStack

/-- **When a settlement is treated alike.** A settled hand is settled otherwise at a known table
(`settled`), an unknown hand is settled at an unknown table (`unknown`), and any other one at a
table where a hand is being played (`playing`). There the lines have the seats of the table iff the
hand was started at it and they have the stacks of the hand and of the seats (`lines`). -/
structure AlikeSettle (store : InMemoryGameStore) (value : HandSettlementRecord) : Prop where
  settled : ∀ existing, store.settlements.lookup value.handId = some existing →
    existing ≠ value ∧ (store.tables.lookup value.tableId).isSome = true
  unknown : store.settlements.lookup value.handId = none →
    store.handStarts.lookup value.handId = none → store.tables.lookup value.tableId = none
  playing : ∀ start table, store.settlements.lookup value.handId = none →
    store.handStarts.lookup value.handId = some start →
    store.tables.lookup value.tableId = some table →
    table.aborted = false ∧ table.handInProgress = true
  lines : ∀ start table, store.settlements.lookup value.handId = none →
    store.handStarts.lookup value.handId = some start →
    store.tables.lookup value.tableId = some table →
    ((∀ player ∈ value.players,
        InMemoryGameStore.seatMatches table player.userId player.seat player.startStack = true) ↔
      start.tableId = value.tableId ∧ ∀ player ∈ value.players, start.Covers table player)

/-- The rows of a line are those that its hand and its seat have. -/
theorem Corresponds.settles_iff (h : Corresponds db store) {start : HandStartRecord}
    (hstart : store.handStarts.lookup value.handId = some start)
    (htable : store.tables.lookup value.tableId = some table) :
    db.Settles value player ↔ start.Covers table player := by
  have hplayers := h.players value.handId player.userId
  rw [hstart, Option.bind_some] at hplayers
  have hseats := h.seats value.tableId player.userId
  rw [InMemoryGameStore.holding_of_lookup htable, Option.map_map] at hseats
  constructor
  · rintro ⟨hstarted, row, hrow, hstack⟩
    refine ⟨hplayers ▸ Option.map_eq_some_iff.mpr hstarted, ?_⟩
    rw [hseats] at hrow
    obtain ⟨record, hrecord, rfl⟩ := Option.map_eq_some_iff.mp hrow
    exact ⟨record, hrecord, hstack⟩
  · rintro ⟨hstarted, record, hrecord, hstack⟩
    refine ⟨Option.map_eq_some_iff.mp (hplayers.trans hstarted),
      TableSeatRow.of (record.seat, record.stack), ?_, hstack⟩
    rw [hseats, hrecord, Option.map_some]
    rfl

/-- The update of a hand affects it iff it is being played at the table of the settlement. -/
theorem affectedRows_settleRow {row : HandRow} (hrow : db.hands.lookup value.handId = some row) :
    affectedRows (MySqlGameStore.settleRow value) db.hands = 1 ↔
      row.tableId = value.tableId ∧ row.status = .playing := by
  rw [MySqlGameStore.settleRow, affectedRows_atKey_iff, hrow]
  simp

/-- The lines that the in-memory store checks one by one add up already. -/
theorem all_lines_iff (hbalanced : ∀ player ∈ value.players, player.Balanced) :
    (value.players.all fun player =>
      InMemoryGameStore.seatMatches table player.userId player.seat player.startStack
        && decide (0 ≤ player.committed ∧ 0 ≤ player.winnings ∧ 0 ≤ player.endStack
          ∧ player.endStack = player.startStack - player.committed + player.winnings)) = true ↔
      ∀ player ∈ value.players,
        InMemoryGameStore.seatMatches table player.userId player.seat player.startStack = true := by
  rw [List.all_eq_true]
  constructor
  · intro h player hplayer
    exact (Bool.and_eq_true_iff.mp (h player hplayer)).1
  · intro h player hplayer
    exact Bool.and_eq_true_iff.mpr ⟨h player hplayer, decide_eq_true (hbalanced player hplayer)⟩

/-- The settlement of a hand that is being played. -/
theorem HandsCorrespond.settle (h : HandsCorrespond db store) {start : HandStartRecord}
    (hstart : store.handStarts.lookup value.handId = some start) {row : HandRow}
    (hrow : db.hands.lookup value.handId = some row)
    (hstate : row.state = store.handState value.handId start)
    (hplaying : row.tableId = value.tableId ∧ row.status = .playing)
    (hstarts : store'.handStarts = store.handStarts)
    (htables : store'.tables = store.tables.insert value.tableId table)
    (haborted : table.aborted = (store.tables.lookup value.tableId).any (·.aborted))
    (hsettlements : store'.settlements = store.settlements.insert value.handId value)
    (hsame : store'.actions = store.actions)
    (hhands : db'.hands = updateRows (MySqlGameStore.settleRow value) db.hands)
    (hplayers : ∀ key, (db'.handPlayers.lookup key).map (·.startStack) =
      (db.handPlayers.lookup key).map (·.startStack))
    (hactions : db'.handActions = db.handActions) : HandsCorrespond db' store' := by
  obtain ⟨hid, hnumber, -⟩ := HandState.mk.inj hstate
  refine h.of_sameActions hactions hsame (fun handId => ?_) (fun handId hnone => ?_)
    fun handId user => ?_
  · have hsettle := lookup_atKey (fun row : HandRow =>
      if row.tableId = value.tableId ∧ row.status = .playing then
        some { row with
          status := .settled, boardCards := some (encodeCards value.board)
          totalPot := value.totalPot }
      else none) hrow (if_pos hplaying) handId
    rw [hhands, hstarts]
    refine (congrArg (Option.map HandRow.state) hsettle).trans ?_
    by_cases heq : handId = value.handId
    · rw [heq, AList.lookup_insert, hstart, Option.map_some, Option.map_some,
        InMemoryGameStore.handState, hsettlements, AList.lookup_insert, HandRow.state, hid, hnumber]
      rfl
    · rw [AList.lookup_insert_ne heq, InMemoryGameStore.handState_write htables haborted
        (by rw [hsettlements, AList.lookup_insert_ne heq])]
      exact h.hands handId
  · rw [hstarts] at hnone
    have hne : handId ≠ value.handId := fun heq => by
      rw [heq, hstart] at hnone
      exact absurd hnone (by simp)
    rw [hsettlements, AList.lookup_insert_ne hne]
    exact h.settled handId hnone
  · rw [hplayers, hstarts]
    exact h.players handId user

/-- The rows of the seats after the loop are those of the table after its second loop. -/
theorem MoneyCorresponds.writeStacks (h : MoneyCorresponds db store)
    (htable : store.tables.lookup value.tableId = some table)
    (hnodup : (value.players.map (·.userId)).Nodup)
    (hmatches : ∀ player ∈ value.players,
      InMemoryGameStore.seatMatches table player.userId player.seat player.startStack = true)
    {tableSeats : Dict (Nat × UserId) TableSeatRow}
    (hpaid : ∀ player ∈ value.players, tableSeats.lookup (value.tableId, player.userId) =
      (db.tableSeats.lookup (value.tableId, player.userId)).map fun row =>
        { row with stack := player.endStack, handStartStack := player.endStack })
    (hothers : ∀ key, (∀ player ∈ value.players, key ≠ (value.tableId, player.userId)) →
      tableSeats.lookup key = db.tableSeats.lookup key) (user : UserId) :
    tableSeats.lookup (value.tableId, user) =
      (((InMemoryGameStore.writeStacks table value.players).seats.lookup user).map
        fun record => (record.seat, record.stack)).map TableSeatRow.of := by
  by_cases hline : ∃ player ∈ value.players, player.userId = user
  · obtain ⟨player, hplayer, rfl⟩ := hline
    obtain ⟨record, hrecord, -⟩ := InMemoryGameStore.seatMatches_iff.mp (hmatches player hplayer)
    have hends : ∀ other ∈ value.players, other.userId = player.userId →
        other.endStack = player.endStack := fun other hother heq => by
      rw [List.inj_on_of_nodup_map hnodup hother hplayer heq]
    obtain ⟨record', hrecord', hseat, hstack⟩ :=
      InMemoryGameStore.writeStacks_own hrecord ⟨player, hplayer, rfl⟩ hends
    rw [hpaid player hplayer, h.seats, InMemoryGameStore.holding_of_lookup htable, hrecord,
      hrecord',
      Option.map_some, Option.map_some, Option.map_some, Option.map_some, Option.map_some, hseat,
      hstack]
    rfl
  · have hnone : ∀ player ∈ value.players, player.userId ≠ user :=
      fun player hplayer heq => hline ⟨player, hplayer, heq⟩
    rw [hothers _ fun player hplayer heq => hnone player hplayer (congrArg Prod.snd heq).symm,
      InMemoryGameStore.writeStacks_other hnone, h.seats,
      InMemoryGameStore.holding_of_lookup htable]

/-- **A settlement that is treated alike** returns the same error. -/
theorem Corresponds.settleHand (h : Corresponds db store)
    (halike : validHandSettlement value = true → AlikeSettle store value) :
    (db.settleHand value).1 = (store.settleHand value).1 ∧
      Corresponds (db.settleHand value).2 (store.settleHand value).2 := by
  have hsound : (store.settleHand value).2.Sound := sound_perform h.sound (.settleHand value)
  revert hsound
  unfold MySqlGameStore.settleHand InMemoryGameStore.settleHand
  by_cases hinvalid : (!validHandSettlement value) = true
  · intro _
    rw [if_pos hinvalid, if_pos hinvalid]
    exact ⟨rfl, h⟩
  rw [if_neg hinvalid, if_neg hinvalid]
  have hvalid : validHandSettlement value = true := by simpa using hinvalid
  obtain ⟨hnodup, -, hbalanced⟩ := validHandSettlement_balanced hvalid
  obtain ⟨hsettled, hunknown, hplaying, hlines⟩ := halike hvalid
  cases hknown : store.settlements.lookup value.handId with
  | some existing =>
    intro _
    obtain ⟨hother, hfound⟩ := hsettled existing hknown
    obtain ⟨table, htable⟩ := Option.isSome_iff_exists.mp hfound
    obtain ⟨row, hrow, -⟩ := h.row htable
    rw [hrow]
    dsimp only
    have hequal : ¬ (equivalentHandSettlement existing value = true) := by
      simpa [equivalentHandSettlement] using hother
    rw [if_neg hequal]
    have hnone : affectedRows (MySqlGameStore.settleRow value) db.hands ≠ 1 := by
      cases hstart : store.handStarts.lookup value.handId with
      | none => exact absurd (h.settled _ hstart) (by simp [hknown])
      | some start =>
        obtain ⟨hand, hhand, hstate⟩ := h.hand hstart
        obtain ⟨-, -, hstatus⟩ := HandState.mk.inj hstate
        rw [hknown, if_pos (by simp)] at hstatus
        rw [ne_eq, affectedRows_settleRow hhand, hstatus]
        simp
    by_cases hopen : row.status = .playing
    · rw [if_neg (not_not.mpr hopen), if_pos hnone]
      exact ⟨rfl, h⟩
    · rw [if_pos hopen]
      exact ⟨rfl, h⟩
  | none =>
    dsimp only
    cases hstart : store.handStarts.lookup value.handId with
    | none =>
      intro _
      rw [h.no_row (hunknown hknown hstart)]
      exact ⟨rfl, h⟩
    | some start =>
      rw [if_neg (by simp)]
      cases htable : store.tables.lookup value.tableId with
      | none =>
        intro _
        rw [h.no_row htable]
        exact ⟨rfl, h⟩
      | some table =>
        obtain ⟨hopen, hgoing⟩ := hplaying start table hknown hstart htable
        have hmatch := hlines start table hknown hstart htable
        obtain ⟨row, hrow, hrules⟩ := h.row htable
        obtain ⟨hstatus, -⟩ := rules_inj hrules
        rw [status_playing hopen hgoing] at hstatus
        obtain ⟨hand, hhand, hstate⟩ := h.hand hstart
        obtain ⟨hid, -, hphase⟩ := HandState.mk.inj hstate
        rw [hknown, if_neg (by simp)] at hphase
        have haffected := affectedRows_settleRow hhand
        rw [hrow]
        dsimp only
        rw [if_neg (by simp [hopen]), if_neg (by simp [hgoing]), if_neg (not_not.mpr hstatus)]
        have hends : ∀ player ∈ value.players, 0 ≤ player.endStack :=
          fun player hplayer => (hbalanced player hplayer).2.2.1
        have hsettles : ∀ player, MySqlGameStore.Settles
            { db with hands := updateRows (MySqlGameStore.settleRow value) db.hands } value player ↔
            start.Covers table player := fun player =>
          ⟨fun hs => (h.settles_iff hstart htable).mp ⟨hs.started, hs.seated⟩,
            fun hc => ⟨((h.settles_iff hstart htable).mpr hc).started,
              ((h.settles_iff hstart htable).mpr hc).seated⟩⟩
        by_cases hseated : ∀ player ∈ value.players,
            InMemoryGameStore.seatMatches table player.userId player.seat player.startStack = true
        · obtain ⟨hthere, hcovers⟩ := hmatch.mp hseated
          rw [hthere, htable, Option.any_some, hopen, if_neg (by simp)] at hphase
          have hplaying := And.intro (hid.trans hthere) hphase
          obtain ⟨handPlayers, tableSeats, hloop, hplayers, hpaid, hothers⟩ :=
            MySqlGameStore.settlePlayers_ok hnodup hends
              fun player hplayer => (hsettles player).mpr (hcovers player hplayer)
          have hzero :
              (InMemoryGameStore.writeStacks table value.players).seats.lookup 0 = none := by
            rw [InMemoryGameStore.writeStacks_other fun player hplayer heq => ?_]
            · exact h.seat_zero htable
            · obtain ⟨record, hrecord, -⟩ :=
                InMemoryGameStore.seatMatches_iff.mp (hseated player hplayer)
              rw [heq, h.seat_zero htable] at hrecord
              exact absurd hrecord (by simp)
          have hframe := InMemoryGameStore.writeStacks_frame table value.players
          have hrecord := congrArg StoredTable.record hframe
          have haborted := congrArg StoredTable.aborted hframe
          rw [if_pos ((all_lines_iff hbalanced).mpr hseated),
            if_neg (not_not.mpr (haffected.mpr hplaying)), hloop]
          dsimp only
          intro hsound
          refine ⟨rfl, ⟨hsound, h.wallets, h.purse, ?_, ?_, ?_, h.ledger⟩, ?_⟩
          · refine h.status_write hrow hrules ?_ rfl hrecord rfl
            have hwaits : StoredTable.aborted
                { InMemoryGameStore.writeStacks table value.players with handInProgress := false } =
                false := haborted.trans hopen
            rw [status_waiting hwaits rfl]
          · refine h.seats_write rfl (h.writeStacks htable hnodup hseated hpaid hothers)
              fun other user hne => hothers _ fun player _ heq => hne (congrArg Prod.fst heq)
          · exact h.real_write rfl hzero
          · refine h.settle hstart hhand hstate hplaying rfl rfl ?_ rfl rfl rfl hplayers rfl
            rw [htable]
            exact haborted
        · rw [if_neg fun hall => hseated ((all_lines_iff hbalanced).mp hall)]
          intro _
          by_cases hplaying : hand.tableId = value.tableId ∧ hand.status = .playing
          · have hthere : start.tableId = value.tableId := hid.symm.trans hplaying.1
            have hrefused : ¬ ∀ player ∈ value.players, start.Covers table player :=
              fun hall => hseated (hmatch.mpr ⟨hthere, hall⟩)
            rw [if_neg (not_not.mpr (haffected.mpr hplaying)),
              MySqlGameStore.settlePlayers_conflict hnodup hends fun hall =>
                hrefused fun player hplayer => (hsettles player).mp (hall player hplayer)]
            exact ⟨rfl, h⟩
          · rw [if_pos fun hone => hplaying (haffected.mp hone)]
            exact ⟨rfl, h⟩

end PokerServer

import PokerServer.Lib.Text
import PokerServer.Storage.Calls

/-!
# Idempotency keys

Every buy-in and every cash-out carries a key of its user. The ledger keeps the first of them that
moved money, under user and key; whatever happens afterwards, a later call under the same key finds
that entry, moves nothing, and answers with the first receipt or with an error.
-/

namespace PokerServer

/-- The user and the key of a call that may move money. -/
def StoreOp.keyed : StoreOp → Option (UserId × String)
  | .reserveBuyIn _ userId _ _ key => some (userId, key)
  | .cashOut _ userId key => some (userId, key)
  | _ => none

namespace InMemoryGameStore

variable {store store' : InMemoryGameStore} {call call' : StoreOp} {answer answer' : StoreAnswer}
  {user user' : UserId} {key key' : String} {entry : LedgerResult}

/-- The seat of a user at a table. -/
def seatOf (store : InMemoryGameStore) (tableId : Nat) (userId : UserId) : Option SeatRecord :=
  (store.tables.lookup tableId).bind fun table => table.seats.lookup userId

/-- A wallet or a seat changes. -/
def Moves (e : StoreStep) : Prop :=
  (∃ user, e.after.wallets.lookup user ≠ e.before.wallets.lookup user) ∨
    ∃ tableId user, e.after.seatOf tableId user ≠ e.before.seatOf tableId user

/-- **The later call repeats the first one or is refused.** -/
structure Replays (first later : StoreStep) : Prop where
  store : later.after = later.before
  repeats : later.label.2.error = .ok → later.label = first.label
  refused : later.label.2.error ≠ .ok →
    later.label.2.error = .conflict ∨ later.label.2.error = .invalidData

/-! ## Keys -/

/-- The first colon ends the user, whatever the key holds. -/
theorem ledgerKey_injective (h : ledgerKey user key = ledgerKey user' key') :
    user = user' ∧ key = key' := by
  have hlist : Nat.toDigits 10 user ++ ':' :: key.toList =
      Nat.toDigits 10 user' ++ ':' :: key'.toList := by
    have := congrArg String.toList h
    simpa [ledgerKey] using this
  have hcolon (n : Nat) : ':' ∉ Nat.toDigits 10 n := Text.not_mem_toDigits (by decide) n
  have hplace := congrArg (Text.find ':') hlist
  rw [Text.find_append (hcolon user), Text.find_append (hcolon user')] at hplace
  obtain ⟨hdigits, hrest⟩ := List.append_inj hlist (Option.some.inj hplace)
  have hkey := (List.cons.inj hrest).2
  refine ⟨?_, String.toList_inj.mp hkey⟩
  rw [← Nat.ofDigitChars_ten_toDigits (n := user), hdigits, Nat.ofDigitChars_ten_toDigits]

/-! ## The ledger -/

/-- The entry a call leaves when it moves money. -/
def Recorded : StoreOp × StoreAnswer → LedgerResult → Prop
  | (.reserveBuyIn tableId _ seat amount _, .buyIn result), entry =>
    entry.IsBuyIn tableId seat amount ∧
      result = { error := .ok
                 value := some { walletBalance := entry.walletBalance
                                 tableStack := entry.chips } }
  | (.cashOut tableId _ _, .cashOut result), entry =>
    entry.IsCashOut tableId ∧
      result = { error := .ok
                 value := some { walletBalance := entry.walletBalance
                                 returnedStack := entry.chips } }
  | _, _ => False

/-- An entry says which call it is of, and what the call was answered. -/
theorem Recorded.unique (h : Recorded (call, answer) entry) (h' : Recorded (call', answer') entry)
    (hkey : call.keyed = some (user, key)) (hkey' : call'.keyed = some (user, key)) :
    (call', answer') = (call, answer) := by
  unfold Recorded at h h'
  split at h
  · rename_i tableId _ seat amount _ result entry heq
    obtain ⟨rfl, rfl⟩ := Prod.mk.inj heq
    obtain ⟨⟨hkind, rfl, rfl, rfl⟩, rfl⟩ := h
    obtain ⟨rfl, rfl⟩ := Prod.mk.inj (Option.some.inj hkey)
    split at h'
    · rename_i heq'
      obtain ⟨rfl, rfl⟩ := Prod.mk.inj heq'
      obtain ⟨⟨-, rfl, rfl, rfl⟩, rfl⟩ := h'
      obtain ⟨rfl, rfl⟩ := Prod.mk.inj (Option.some.inj hkey')
      rfl
    · exact absurd (h'.1.1.symm.trans hkind) (by simp)
    · exact h'.elim
  · rename_i tableId _ _ result entry heq
    obtain ⟨rfl, rfl⟩ := Prod.mk.inj heq
    obtain ⟨⟨hkind, rfl⟩, rfl⟩ := h
    obtain ⟨rfl, rfl⟩ := Prod.mk.inj (Option.some.inj hkey)
    split at h'
    · exact absurd (h'.1.1.symm.trans hkind) (by simp)
    · rename_i heq'
      obtain ⟨rfl, rfl⟩ := Prod.mk.inj heq'
      obtain ⟨⟨-, rfl⟩, rfl⟩ := h'
      obtain ⟨rfl, rfl⟩ := Prod.mk.inj (Option.some.inj hkey')
      rfl
    · exact h'.elim
  · exact h.elim

theorem Performed.ledger (h : Performed store call answer store') {id : String}
    (hentry : store.ledger.lookup id = some entry) : store'.ledger.lookup id = some entry := by
  -- A new entry takes a key that was free.
  have hnew : ∀ {id' : String} {new : LedgerResult}, store.ledger.lookup id' = none →
      (store.ledger.insert id' new).lookup id = some entry := by
    intro id' new hfree
    rw [AList.lookup_insert_ne]
    · exact hentry
    · rintro rfl
      rw [hfree] at hentry
      exact absurd hentry (by simp)
  cases h with
  | boughtIn fresh => exact hnew fresh
  | cashedOut fresh => exact hnew fresh
  | _ => exact hentry

/-- A keyed call that moves money leaves its entry. -/
theorem Performed.recorded (h : Performed store call answer store')
    (hkey : call.keyed = some (user, key)) (hmoves : Moves ⟨store, (call, answer), store'⟩) :
    ∃ entry, store'.ledger.lookup (ledgerKey user key) = some entry ∧
      Recorded (call, answer) entry := by
  have hstill : store' ≠ store := by
    rintro rfl
    rcases hmoves with ⟨_, hne⟩ | ⟨_, _, hne⟩ <;> exact hne rfl
  cases h with
  | refused error => exact absurd rfl hstill
  | repeated again => exact absurd rfl hstill
  | boughtIn =>
    obtain ⟨rfl, rfl⟩ := Prod.mk.inj (Option.some.inj hkey)
    exact ⟨_, AList.lookup_insert _, ⟨rfl, rfl, rfl, rfl⟩, rfl⟩
  | cashedOut =>
    obtain ⟨rfl, rfl⟩ := Prod.mk.inj (Option.some.inj hkey)
    exact ⟨_, AList.lookup_insert _, ⟨rfl, rfl⟩, rfl⟩
  | seeded => exact absurd hkey (by simp [StoreOp.keyed])
  | created => exact absurd hkey (by simp [StoreOp.keyed])
  | begun => exact absurd hkey (by simp [StoreOp.keyed])
  | appended => exact absurd hkey (by simp [StoreOp.keyed])
  | settled => exact absurd hkey (by simp [StoreOp.keyed])
  | refunded => exact absurd hkey (by simp [StoreOp.keyed])
  | halted => exact absurd hkey (by simp [StoreOp.keyed])

/-- A call whose key is in the ledger. -/
theorem perform_known (h : store.perform call = (answer, store'))
    (hkey : call.keyed = some (user, key))
    (hentry : store.ledger.lookup (ledgerKey user key) = some entry) :
    store' = store ∧ (answer.error = .ok → Recorded (call, answer) entry) ∧
      (answer.error ≠ .ok → answer.error = .conflict ∨ answer.error = .invalidData) := by
  cases call with
  | reserveBuyIn tableId userId seat amount key =>
    obtain ⟨⟨result, after⟩, hcall⟩ : ∃ r, store.reserveBuyIn tableId userId seat amount key = r :=
      ⟨_, rfl⟩
    rw [perform, hcall] at h
    obtain ⟨rfl, rfl⟩ := Prod.mk.inj h
    obtain ⟨rfl, rfl⟩ := Prod.mk.inj (Option.some.inj hkey)
    rcases reserveBuyIn_cases hcall with ⟨herror, -, rfl, hwhy⟩ | ⟨known, hknown, hsame, rfl, rfl⟩ |
      ⟨_, _, fresh, -⟩
    · refine ⟨rfl, fun hok => absurd hok herror, fun _ => hwhy.resolve_left ?_⟩
      rw [hentry]
      simp
    · rw [hentry, Option.some.injEq] at hknown
      subst hknown
      exact ⟨rfl, fun _ => ⟨hsame, rfl⟩, fun hne => absurd rfl hne⟩
    · rw [hentry] at fresh
      exact absurd fresh (by simp)
  | cashOut tableId userId key =>
    obtain ⟨⟨result, after⟩, hcall⟩ : ∃ r, store.cashOut tableId userId key = r := ⟨_, rfl⟩
    rw [perform, hcall] at h
    obtain ⟨rfl, rfl⟩ := Prod.mk.inj h
    obtain ⟨rfl, rfl⟩ := Prod.mk.inj (Option.some.inj hkey)
    rcases cashOut_cases hcall with ⟨herror, rfl, hwhy⟩ | ⟨known, hknown, hsame, rfl, rfl⟩ |
      ⟨_, _, _, fresh, -⟩
    · refine ⟨rfl, fun hok => absurd hok herror, fun _ => hwhy.resolve_left ?_⟩
      rw [hentry]
      simp
    · rw [hentry, Option.some.injEq] at hknown
      subst hknown
      exact ⟨rfl, fun _ => ⟨hsame, rfl⟩, fun hne => absurd rfl hne⟩
    · rw [hentry] at fresh
      exact absurd fresh (by simp)
  | _ => exact absurd hkey (by simp [StoreOp.keyed])

/-! ## Runs -/

/-- **Each key moves money once.** After a call that changed a wallet or a seat, every later call of
the same user under the same key changes nothing, and is the same request with the same answer
unless it is refused with `conflict` or `invalidData`. Two users, or two keys, never share an
entry. -/
theorem key_moves_once {trace : List StoreStep} (hr : Run Does {} trace store) :
    (∀ pre first post, trace = pre ++ first :: post →
      ∀ user key, first.label.1.keyed = some (user, key) → Moves first →
      ∀ later ∈ post, later.label.1.keyed = some (user, key) →
        Replays first later ∧ ¬ Moves later) ∧
    ∀ user key user' key', ledgerKey user key = ledgerKey user' key' →
      user = user' ∧ key = key' := by
  refine ⟨?_, fun _ _ _ _ => ledgerKey_injective⟩
  rintro pre first post rfl user key hkey hmoves later hlater hkey'
  obtain ⟨-, hfirst, hpost⟩ := hr.split
  obtain ⟨entry, hentry, hrecorded⟩ := (perform_performed hfirst).recorded hkey hmoves
  obtain ⟨pre', post', rfl⟩ := List.append_of_mem hlater
  obtain ⟨hbetween, hdoes, -⟩ := hpost.split
  have hkept : later.before.ledger.lookup (ledgerKey user key) = some entry :=
    hbetween.invariant (I := fun s => s.ledger.lookup (ledgerKey user key) = some entry) hentry
      fun _ _ _ hI hstep => (perform_performed hstep).ledger hI
  obtain ⟨hsame, hok, hrefused⟩ := perform_known hdoes hkey' hkept
  refine ⟨⟨hsame, fun h => hrecorded.unique (hok h) hkey hkey', hrefused⟩, ?_⟩
  rintro (⟨_, hne⟩ | ⟨_, _, hne⟩) <;> exact hne (by rw [hsame])

/-- A cash-out that is asked for again after the table was aborted. -/
theorem key_moves_once_cashOut :
    ∃ trace store first later, Run Does {} trace store ∧ first ∈ trace ∧ later ∈ trace ∧
      Moves first ∧ later.label.2.error = .ok ∧ Replays first later := by
  have hcheck : (replay performs {} (playedHand ++
      [.cashOut 7 1 "cash:1", .abortTableAndRefund 7, .cashOut 7 1 "cash:1"])).any (fun r =>
        r.1[8]?.any (fun first => r.1[10]?.any (fun later =>
          decide (r.1.length = 11 ∧ first.label.1.keyed = some (1, "cash:1") ∧
            first.after.wallets.lookup 1 ≠ first.before.wallets.lookup 1 ∧
            later.label.1.keyed = some (1, "cash:1") ∧ later.label.2.error = .ok)))) = true := by
    decide +kernel
  obtain ⟨⟨trace, store⟩, hreplay, hfacts⟩ := (Option.any_eq_true _ _).mp hcheck
  obtain ⟨first, hfirst, hfacts⟩ := (Option.any_eq_true _ _).mp hfacts
  obtain ⟨later, hlater, hfacts⟩ := (Option.any_eq_true _ _).mp hfacts
  obtain ⟨hlength, hkey, hmoves, hkey', hok⟩ := of_decide_eq_true hfacts
  have hr := run_of_calls hreplay
  have hsplit : trace = trace.take 8 ++ first :: trace.drop 9 := by
    rw [List.getElem?_eq_some_iff] at hfirst
    obtain ⟨hlt, rfl⟩ := hfirst
    rw [List.getElem_cons_drop, List.take_append_drop]
  have hpost : later ∈ trace.drop 9 := by
    refine List.mem_of_getElem? (i := 1) ?_
    rw [List.getElem?_drop]
    exact hlater
  obtain ⟨honce, -⟩ := key_moves_once hr
  obtain ⟨hreplays, -⟩ := honce _ first _ hsplit 1 "cash:1" hkey (Or.inl ⟨1, hmoves⟩) later hpost
    hkey'
  exact ⟨trace, store, first, later, hr, List.mem_of_getElem? hfirst, List.mem_of_getElem? hlater,
    Or.inl ⟨1, hmoves⟩, hok, hreplays⟩

end InMemoryGameStore

end PokerServer

import PokerServer.Storage.InMemoryGameStore

/-!
# The account store

Model of `src/poker/storage/in_memory_account_store.cpp`: users by id and by name, sessions by the
hash of their token. User ids and client sequences are 64-bit numbers. `users_.at` throws where an
id is unknown, so `findUserByName` may have no answer.
-/

namespace PokerServer

/-- `explicit operator bool`, with the value. -/
def StorageResult.toOption {α : Type} (r : StorageResult α) : Option α :=
  if r.error = .ok then r.value else none

structure UserRecord where
  id : UserId := 0
  username : String := ""
  passwordHash : String := ""
  walletBalance : Int := 0
  disabled : Bool := false
  deriving DecidableEq

structure SessionRecord where
  userId : UserId := 0
  tokenHash : String := ""
  expiresAtUnixMs : Int := 0
  lastClientSequence : Nat := 0
  revoked : Bool := false
  deriving DecidableEq

structure InMemoryAccountStore where
  nextUserId : Nat := 1
  users : Dict Nat UserRecord := ∅
  usernames : Dict String Nat := ∅
  sessions : Dict String SessionRecord := ∅

namespace InMemoryAccountStore

variable (store : InMemoryAccountStore)

def createUser (username passwordHash : String) (initialChips : Int) :
    StorageResult UserRecord × InMemoryAccountStore :=
  if username = "" ∨ passwordHash = "" ∨ initialChips < 0 then
    ({ error := .invalidData, message := "invalid account data" }, store)
  else if (store.usernames.lookup username).isSome then
    ({ error := .duplicate, message := "username already exists" }, store)
  else
    let record : UserRecord :=
      { id := store.nextUserId, username, passwordHash, walletBalance := initialChips }
    ({ value := some record },
      { store with
        nextUserId := (store.nextUserId + 1) % 2 ^ 64
        usernames := store.usernames.insert username record.id
        -- an id that came round again keeps its first user
        users :=
          if (store.users.lookup record.id).isSome then store.users
          else store.users.insert record.id record })

def findUserByName (username : String) : Option (StorageResult UserRecord) :=
  match store.usernames.lookup username with
  | none => some { error := .notFound, message := "user not found" }
  | some id => (store.users.lookup id).map fun user => { value := some user }

def findUserById (userId : UserId) : StorageResult UserRecord :=
  match store.users.lookup userId with
  | none => { error := .notFound, message := "user not found" }
  | some user => { value := some user }

def storeSession (session : SessionRecord) : StorageError × InMemoryAccountStore :=
  if session.userId = 0 ∨ session.tokenHash = "" ∨ session.expiresAtUnixMs ≤ 0 then
    (.invalidData, store)
  else if (store.users.lookup session.userId).isNone then (.notFound, store)
  else if (store.sessions.lookup session.tokenHash).isSome then (.conflict, store)
  else (.ok, { store with sessions := store.sessions.insert session.tokenHash session })

def findSession (tokenHash : String) (nowUnixMs : Int) : StorageResult SessionRecord :=
  match store.sessions.lookup tokenHash with
  | none => { error := .notFound, message := "session not found or expired" }
  | some session =>
    if session.revoked ∨ session.expiresAtUnixMs ≤ nowUnixMs then
      { error := .notFound, message := "session not found or expired" }
    else { value := some session }

def rotateSession (currentTokenHash : String) (replacement : SessionRecord) (nowUnixMs : Int) :
    StorageError × InMemoryAccountStore :=
  if replacement.userId = 0 ∨ replacement.tokenHash = "" ∨
      replacement.expiresAtUnixMs ≤ nowUnixMs then (.invalidData, store)
  else
    match store.sessions.lookup currentTokenHash with
    | none => (.notFound, store)
    | some current =>
      if current.revoked ∨ current.expiresAtUnixMs ≤ nowUnixMs ∨
          current.userId ≠ replacement.userId then (.notFound, store)
      else if replacement.tokenHash ≠ currentTokenHash ∧
          (store.sessions.lookup replacement.tokenHash).isSome then (.conflict, store)
      else
        let sessions := store.sessions.insert replacement.tokenHash replacement
        (.ok, { store with
          sessions :=
            if replacement.tokenHash ≠ currentTokenHash then sessions.erase currentTokenHash
            else sessions })

def revokeSession (tokenHash : String) : StorageError × InMemoryAccountStore :=
  match store.sessions.lookup tokenHash with
  | none => (.notFound, store)
  | some session =>
    (.ok,
      { store with sessions := store.sessions.insert tokenHash { session with revoked := true } })

def updateSessionSequence (tokenHash : String) (expected replacement : Nat) :
    StorageError × InMemoryAccountStore :=
  match store.sessions.lookup tokenHash with
  | none => (.notFound, store)
  | some session =>
    if session.revoked then (.notFound, store)
    else if session.lastClientSequence ≠ expected ∨ replacement ≠ (expected + 1) % 2 ^ 64 then
      (.conflict, store)
    else
      (.ok, { store with
        sessions := store.sessions.insert tokenHash
          { session with lastClientSequence := replacement } })

end InMemoryAccountStore

/-! ## The calls -/

inductive AccountOp where
  | createUser (username passwordHash : String) (initialChips : Int)
  | findUserByName (username : String)
  | findUserById (userId : UserId)
  | storeSession (session : SessionRecord)
  | findSession (tokenHash : String) (nowUnixMs : Int)
  | rotateSession (currentTokenHash : String) (replacement : SessionRecord) (nowUnixMs : Int)
  | revokeSession (tokenHash : String)
  | updateSessionSequence (tokenHash : String) (expected replacement : Nat)

abbrev AccountOp.Ans : AccountOp → Type
  | .createUser .. => StorageResult UserRecord
  | .findUserByName _ => StorageResult UserRecord
  | .findUserById _ => StorageResult UserRecord
  | .storeSession _ => StorageError
  | .findSession .. => StorageResult SessionRecord
  | .rotateSession .. => StorageError
  | .revokeSession _ => StorageError
  | .updateSessionSequence .. => StorageError

namespace InMemoryAccountStore

def perform (store : InMemoryAccountStore) :
    (op : AccountOp) → Option (op.Ans × InMemoryAccountStore)
  | .createUser username passwordHash initialChips =>
    some (store.createUser username passwordHash initialChips)
  | .findUserByName username => (store.findUserByName username).map (·, store)
  | .findUserById userId => some (store.findUserById userId, store)
  | .storeSession session => some (store.storeSession session)
  | .findSession tokenHash nowUnixMs => some (store.findSession tokenHash nowUnixMs, store)
  | .rotateSession currentTokenHash replacement nowUnixMs =>
    some (store.rotateSession currentTokenHash replacement nowUnixMs)
  | .revokeSession tokenHash => some (store.revokeSession tokenHash)
  | .updateSessionSequence tokenHash expected replacement =>
    some (store.updateSessionSequence tokenHash expected replacement)

variable {store store' : InMemoryAccountStore}

/-! ## What the calls do -/

/-- Users and their names as the store keeps them. -/
structure Enrolled (store : InMemoryAccountStore) : Prop where
  user : ∀ id user, store.users.lookup id = some user → user.id = id ∧ user.disabled = false
  name : ∀ name id, store.usernames.lookup name = some id →
      ∃ user, store.users.lookup id = some user
  session : ∀ key session, store.sessions.lookup key = some session →
    ∃ user, store.users.lookup session.userId = some user

theorem enrolled_empty : Enrolled {} := ⟨by simp, by simp, by simp⟩

theorem Enrolled.createUser (h : store.Enrolled) (username passwordHash : String) (chips : Int) :
    (store.createUser username passwordHash chips).2.Enrolled := by
  unfold InMemoryAccountStore.createUser
  split
  · exact h
  split
  · exact h
  by_cases htaken : (store.users.lookup store.nextUserId).isSome = true
  · simp only [if_pos htaken]
    refine ⟨h.user, fun name id hname => ?_, h.session⟩
    by_cases heq : name = username
    · rw [heq, AList.lookup_insert, Option.some.injEq] at hname
      exact hname ▸ Option.isSome_iff_exists.mp htaken
    · rw [AList.lookup_insert_ne heq] at hname
      exact h.name name id hname
  · simp only [if_neg htaken]
    have hgrows : ∀ record id user, store.users.lookup id = some user → ∃ user',
        (store.users.insert store.nextUserId record).lookup id = some user' := by
      intro record id user huser
      have hne : id ≠ store.nextUserId := by
        rintro rfl
        exact htaken (Option.isSome_iff_exists.mpr ⟨user, huser⟩)
      exact ⟨user, (AList.lookup_insert_ne hne).trans huser⟩
    refine ⟨fun id user huser => ?_, fun name id hname => ?_, fun key session hsession => ?_⟩
    · by_cases heq : id = store.nextUserId
      · rw [heq, AList.lookup_insert, Option.some.injEq] at huser
        exact huser ▸ ⟨heq.symm, rfl⟩
      · rw [AList.lookup_insert_ne heq] at huser
        exact h.user id user huser
    · by_cases heq : name = username
      · rw [heq, AList.lookup_insert, Option.some.injEq] at hname
        exact hname ▸ ⟨_, AList.lookup_insert _⟩
      · rw [AList.lookup_insert_ne heq] at hname
        obtain ⟨user, huser⟩ := h.name name id hname
        exact hgrows _ id user huser
    · obtain ⟨user, huser⟩ := h.session key session hsession
      exact hgrows _ _ user huser

/-- Sessions of enrolled users keep the store as it is. -/
theorem Enrolled.sessions (h : store.Enrolled) {sessions : Dict String SessionRecord}
    (hsessions : ∀ key session, sessions.lookup key = some session →
      ∃ user, store.users.lookup session.userId = some user) :
    Enrolled { store with sessions := sessions } :=
  ⟨h.user, h.name, hsessions⟩

theorem Enrolled.session_insert (h : store.Enrolled) {key : String} {session : SessionRecord}
    (huser : ∃ user, store.users.lookup session.userId = some user) :
    ∀ other record, (store.sessions.insert key session).lookup other = some record →
      ∃ user, store.users.lookup record.userId = some user := by
  intro other record hrecord
  by_cases heq : other = key
  · rw [heq, AList.lookup_insert, Option.some.injEq] at hrecord
    exact hrecord ▸ huser
  · rw [AList.lookup_insert_ne heq] at hrecord
    exact h.session other record hrecord

theorem findSession_eq_some {tokenHash : String} {now : Int} {session : SessionRecord} :
    (store.findSession tokenHash now).toOption = some session ↔
      store.sessions.lookup tokenHash = some session ∧ session.revoked = false ∧
        now < session.expiresAtUnixMs := by
  unfold findSession
  cases store.sessions.lookup tokenHash with
  | none => simp [StorageResult.toOption]
  | some record =>
    by_cases hdead : record.revoked = true ∨ record.expiresAtUnixMs ≤ now
    · simp only [if_pos hdead, Option.some.injEq]
      constructor
      · intro h
        exact absurd h (by simp [StorageResult.toOption])
      · rintro ⟨rfl, hrevoked, hnow⟩
        rcases hdead with hdead | hdead
        · exact absurd (hdead.symm.trans hrevoked) (by simp)
        · omega
    · simp only [if_neg hdead, Option.some.injEq]
      rw [not_or, Bool.not_eq_true, not_le] at hdead
      constructor
      · intro h
        obtain rfl := Option.some.inj h
        exact ⟨rfl, hdead⟩
      · rintro ⟨rfl, -⟩
        rfl

theorem findUserById_eq_some {userId : UserId} {user : UserRecord} :
    (store.findUserById userId).toOption = some user ↔ store.users.lookup userId = some user := by
  unfold findUserById
  cases store.users.lookup userId with
  | none => simp [StorageResult.toOption]
  | some record => simp [StorageResult.toOption]

theorem storeSession_ok {session : SessionRecord}
    (h : store.storeSession session = (.ok, store')) :
    (∃ user, store.users.lookup session.userId = some user) ∧
      store.sessions.lookup session.tokenHash = none ∧
      store' = { store with sessions := store.sessions.insert session.tokenHash session } := by
  unfold storeSession at h
  split at h
  · exact absurd (congrArg Prod.fst h) (by simp)
  split at h
  · exact absurd (congrArg Prod.fst h) (by simp)
  rename_i huser
  split at h
  · exact absurd (congrArg Prod.fst h) (by simp)
  rename_i hfree
  obtain ⟨-, rfl⟩ := Prod.mk.inj h
  refine ⟨?_, Option.not_isSome_iff_eq_none.mp hfree, rfl⟩
  exact Option.ne_none_iff_exists'.mp fun hnone => huser (by rw [hnone]; rfl)

theorem rotateSession_ok {key : String} {replacement : SessionRecord} {now : Int}
    (h : store.rotateSession key replacement now = (.ok, store')) :
    ∃ current, store.sessions.lookup key = some current ∧ current.revoked = false ∧
      now < current.expiresAtUnixMs ∧ current.userId = replacement.userId ∧
      (replacement.tokenHash ≠ key → store.sessions.lookup replacement.tokenHash = none) ∧
      store' = { store with
        sessions :=
          if replacement.tokenHash ≠ key then
            (store.sessions.insert replacement.tokenHash replacement).erase key
          else store.sessions.insert replacement.tokenHash replacement } := by
  unfold rotateSession at h
  split at h
  · exact absurd (congrArg Prod.fst h) (by simp)
  split at h
  · exact absurd (congrArg Prod.fst h) (by simp)
  rename_i current hcurrent
  split at h
  · exact absurd (congrArg Prod.fst h) (by simp)
  rename_i hlive
  split at h
  · exact absurd (congrArg Prod.fst h) (by simp)
  rename_i hfree
  obtain ⟨-, rfl⟩ := Prod.mk.inj h
  rw [not_or, not_or, Bool.not_eq_true, not_le, not_not] at hlive
  refine ⟨current, hcurrent, hlive.1, hlive.2.1, hlive.2.2, fun hne => ?_, rfl⟩
  exact Option.not_isSome_iff_eq_none.mp fun hsome => hfree ⟨hne, hsome⟩

theorem revokeSession_ok {key : String} (h : store.revokeSession key = (.ok, store')) :
    ∃ session, store.sessions.lookup key = some session ∧
      store' = { store with
        sessions := store.sessions.insert key { session with revoked := true } } := by
  unfold revokeSession at h
  split at h
  · exact absurd (congrArg Prod.fst h) (by simp)
  · rename_i session hsession
    exact ⟨session, hsession, (Prod.mk.inj h).2.symm⟩

theorem updateSessionSequence_ok {key : String} {expected replacement : Nat}
    (h : store.updateSessionSequence key expected replacement = (.ok, store')) :
    ∃ session, store.sessions.lookup key = some session ∧ session.revoked = false ∧
      session.lastClientSequence = expected ∧ replacement = (expected + 1) % 2 ^ 64 ∧
      store' = { store with
        sessions := store.sessions.insert key
          { session with lastClientSequence := replacement } } := by
  unfold updateSessionSequence at h
  split at h
  · exact absurd (congrArg Prod.fst h) (by simp)
  rename_i session hsession
  split at h
  · exact absurd (congrArg Prod.fst h) (by simp)
  rename_i hrevoked
  split at h
  · exact absurd (congrArg Prod.fst h) (by simp)
  rename_i hmatch
  rw [not_or, not_not, not_not] at hmatch
  exact ⟨session, hsession, Bool.not_eq_true _ ▸ hrevoked, hmatch.1, hmatch.2,
    (Prod.mk.inj h).2.symm⟩

/-! ## Refused calls -/

theorem storeSession_refused {session : SessionRecord} {e : StorageError}
    (h : store.storeSession session = (e, store')) (he : e ≠ .ok) : store' = store := by
  unfold storeSession at h
  split_ifs at h <;> obtain ⟨rfl, rfl⟩ := Prod.mk.inj h
  · rfl
  · rfl
  · rfl
  · exact absurd rfl he

theorem rotateSession_refused {key : String} {replacement : SessionRecord} {now : Int}
    {e : StorageError} (h : store.rotateSession key replacement now = (e, store')) (he : e ≠ .ok) :
    store' = store := by
  unfold rotateSession at h
  split at h
  · exact (Prod.mk.inj h).2.symm
  split at h
  · exact (Prod.mk.inj h).2.symm
  split at h
  · exact (Prod.mk.inj h).2.symm
  split at h
  · exact (Prod.mk.inj h).2.symm
  · exact absurd (Prod.mk.inj h).1.symm he

theorem revokeSession_refused {key : String} {e : StorageError}
    (h : store.revokeSession key = (e, store')) (he : e ≠ .ok) : store' = store := by
  unfold revokeSession at h
  split at h
  · exact (Prod.mk.inj h).2.symm
  · exact absurd (Prod.mk.inj h).1.symm he

theorem updateSessionSequence_refused {key : String} {expected replacement : Nat} {e : StorageError}
    (h : store.updateSessionSequence key expected replacement = (e, store')) (he : e ≠ .ok) :
    store' = store := by
  unfold updateSessionSequence at h
  split at h
  · exact (Prod.mk.inj h).2.symm
  split at h
  · exact (Prod.mk.inj h).2.symm
  split at h
  · exact (Prod.mk.inj h).2.symm
  · exact absurd (Prod.mk.inj h).1.symm he

theorem createUser_sessions (store : InMemoryAccountStore) (username passwordHash : String)
    (chips : Int) : (store.createUser username passwordHash chips).2.sessions = store.sessions := by
  unfold createUser
  split
  · rfl
  · split <;> rfl

/-- Every call keeps the users, their names and the sessions in step. -/
theorem Enrolled.perform (h : store.Enrolled) {op : AccountOp} {ans : op.Ans}
    (hop : store.perform op = some (ans, store')) : store'.Enrolled := by
  cases op with
  | createUser username passwordHash chips =>
    have henrolled := h.createUser username passwordHash chips
    rw [Option.some.inj hop] at henrolled
    exact henrolled
  | findUserByName username =>
    obtain ⟨user, -, heq⟩ := Option.map_eq_some_iff.mp hop
    exact (Prod.mk.inj heq).2 ▸ h
  | findUserById userId => exact (Prod.mk.inj (Option.some.inj hop)).2 ▸ h
  | findSession tokenHash now => exact (Prod.mk.inj (Option.some.inj hop)).2 ▸ h
  | storeSession session =>
    by_cases hok : ans = .ok
    · subst hok
      obtain ⟨huser, -, rfl⟩ := storeSession_ok (Option.some.inj hop)
      exact h.sessions (h.session_insert huser)
    · exact storeSession_refused (Option.some.inj hop) hok ▸ h
  | rotateSession key replacement now =>
    by_cases hok : ans = .ok
    · subst hok
      obtain ⟨current, hcurrent, -, -, huser, -, rfl⟩ := rotateSession_ok (Option.some.inj hop)
      have hinsert : ∀ other record,
          (store.sessions.insert replacement.tokenHash replacement).lookup other = some record →
            ∃ user, store.users.lookup record.userId = some user :=
        h.session_insert (huser ▸ h.session key current hcurrent)
      refine h.sessions fun other session hsession => ?_
      split at hsession
      · by_cases heq : other = key
        · rw [heq, AList.lookup_erase] at hsession
          exact absurd hsession (by simp)
        · rw [AList.lookup_erase_ne heq] at hsession
          exact hinsert other session hsession
      · exact hinsert other session hsession
    · exact rotateSession_refused (Option.some.inj hop) hok ▸ h
  | revokeSession key =>
    by_cases hok : ans = .ok
    · subst hok
      obtain ⟨session, hsession, rfl⟩ := revokeSession_ok (Option.some.inj hop)
      exact h.sessions (h.session_insert (h.session key session hsession))
    · exact revokeSession_refused (Option.some.inj hop) hok ▸ h
  | updateSessionSequence key expected replacement =>
    by_cases hok : ans = .ok
    · subst hok
      obtain ⟨session, hsession, -, -, -, rfl⟩ := updateSessionSequence_ok (Option.some.inj hop)
      exact h.sessions (h.session_insert (h.session key session hsession))
    · exact updateSessionSequence_refused (Option.some.inj hop) hok ▸ h

end InMemoryAccountStore

end PokerServer

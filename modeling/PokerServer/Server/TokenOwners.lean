import PokerServer.Server.Connections

/-!
# Whose token a connection holds

The account store keeps sessions under the hashes of their tokens, and a connection keeps the token
it logged in, came back or was refreshed with. Between the call that stores or finds a session and
the block that writes the token into the connection, other requests store, rotate and revoke
sessions. Whatever they do, a token never changes hands (`OwnedBy`): a session is stored only under
a token that its request has just generated and that nobody else has.

`tokens` is the typestate of a request: the token it has generated and not used, and what it knows
of owners.
-/

namespace PokerServer

/-- What a request has come to know: a token that it generated, and owners of token hashes. -/
structure Knowledge where
  fresh : Option String := none
  owners : List (String × UserId) := []

namespace Knowledge

def after (k : Knowledge) : (op : AuthOp) → op.Ans → Knowledge
  | .generateSessionToken, token => { k with fresh := some token }
  | .store (.storeSession session), .ok =>
    { fresh := none, owners := (session.tokenHash, session.userId) :: k.owners }
  | .store (.rotateSession _ replacement _), .ok =>
    { fresh := none, owners := (replacement.tokenHash, replacement.userId) :: k.owners }
  | .store (.findSession tokenHash _), found =>
    match found.toOption with
    | some session => { k with owners := (tokenHash, session.userId) :: k.owners }
    | none => k
  | _, _ => k

end Knowledge

namespace Knowledge

theorem after_storeSession {k : Knowledge} {session : SessionRecord} {error : StorageError}
    (h : error ≠ .ok) : k.after (.store (.storeSession session)) error = k := by
  cases error <;> first | rfl | exact absurd rfl h

theorem after_rotateSession {k : Knowledge} {current : String} {replacement : SessionRecord}
    {now : Int} {error : StorageError} (h : error ≠ .ok) :
    k.after (.store (.rotateSession current replacement now)) error = k := by
  cases error <;> first | rfl | exact absurd rfl h

end Knowledge

variable (crypto : CryptoProvider)

/-- The typestate of the calls of the account store. -/
def accountTokens : Typestate AuthOp AuthOp.Ans Knowledge where
  allows k op :=
    match op with
    | .store (.storeSession session) =>
      ∃ token, k.fresh = some token ∧ session.tokenHash = crypto.hashSessionToken token
    | .store (.rotateSession _ replacement _) =>
      ∃ token, k.fresh = some token ∧ replacement.tokenHash = crypto.hashSessionToken token
    | _ => True
  answers op ans :=
    match op, ans with
    | .store (.findUserById userId), found => ∀ user, found.toOption = some user → user.id = userId
    | _, _ => True
  next := Knowledge.after

namespace AuthService

variable {auth : AuthService} {k : Knowledge}

/-- A session that is given out belongs to its user under the token. -/
def Issued (crypto : CryptoProvider) (rawToken : AuthenticatedSession → String) (k : Knowledge)
    (result : AuthResult AuthenticatedSession) : Prop :=
  ∀ value, result.toOption = some value →
    (crypto.hashSessionToken (rawToken value), value.userId) ∈ k.owners

theorem not_issued {rawToken : AuthenticatedSession → String} {error : AuthError} (message : String)
    (h : error ≠ .ok) : Issued crypto rawToken k { error, message } := by
  intro value hvalue
  rw [AuthResult.toOption, if_neg h] at hvalue
  cases hvalue

theorem openSession_obeys (user : UserRecord) (now : Int) :
    (auth.openSession user now).Obeys (accountTokens auth.crypto)
      (Issued auth.crypto (·.rawToken)) k := by
  refine Script.obeys_perform_bind.mpr ⟨trivial, fun rawToken _ => ?_⟩
  refine Script.obeys_perform_bind.mpr ⟨⟨rawToken, rfl, rfl⟩, fun stored _ => ?_⟩
  split
  · exact not_issued auth.crypto _ (by simp)
  · rename_i hstored
    obtain rfl := not_not.mp hstored
    rintro value heq
    obtain rfl := Option.some.inj heq
    exact List.mem_cons_self ..

theorem login_obeys (username password : String) (now : Int) :
    (auth.login username password now).Obeys (accountTokens auth.crypto)
      (Issued auth.crypto (·.rawToken)) k := by
  have hrefused : ∀ {k : Knowledge} (found : StorageResult UserRecord),
      Issued auth.crypto (·.rawToken) k
        { error := if found.error = .unavailable then .storageUnavailable else .invalidCredentials
          message := "invalid username or password" } := by
    intro k found
    refine not_issued auth.crypto _ ?_
    split <;> simp
  refine Script.obeys_perform_bind.mpr ⟨trivial, fun found _ => ?_⟩
  extract_lets encodedHash passwordMatches
  cases found.toOption with
  | none => exact hrefused found
  | some user =>
    cases passwordMatches with
    | false => exact hrefused found
    | true =>
      simp only
      split
      · exact not_issued auth.crypto _ (by simp)
      · exact openSession_obeys _ _

theorem authenticate_obeys (rawToken : String) (now : Int) :
    (auth.authenticate rawToken now).Obeys (accountTokens auth.crypto)
      (Issued auth.crypto fun _ => rawToken) k := by
  unfold authenticate
  split
  · exact not_issued auth.crypto _ (by simp)
  refine Script.obeys_perform_bind.mpr ⟨trivial, fun found _ => ?_⟩
  split
  · refine not_issued auth.crypto _ ?_
    split <;> simp
  · rename_i session hfound
    refine Script.obeys_perform_bind.mpr ⟨trivial, fun user hanswer => ?_⟩
    split
    · exact not_issued auth.crypto _ (by simp)
    · rename_i record huser
      rintro value heq
      obtain rfl := Option.some.inj heq
      have hid := hanswer record (Option.filter_eq_some_iff.mp huser).1
      simp only [accountTokens, Knowledge.after, hfound, hid]
      exact List.mem_cons_self ..

/-- Both tokens of a refreshed session are its user's. -/
def Refreshed (crypto : CryptoProvider) (rawToken : String) (k : Knowledge)
    (result : AuthResult AuthenticatedSession) : Prop :=
  ∀ value, result.toOption = some value →
    (crypto.hashSessionToken rawToken, value.userId) ∈ k.owners ∧
      (crypto.hashSessionToken value.rawToken, value.userId) ∈ k.owners

theorem not_refreshed {rawToken : String} {result : AuthResult AuthenticatedSession}
    (h : result.toOption = none) : Refreshed crypto rawToken k result :=
  fun value hvalue => absurd (h.symm.trans hvalue) (by simp)

theorem rotate_obeys (rawToken : String) (authenticated : AuthenticatedSession) (now : Int)
    (hknown : (auth.crypto.hashSessionToken rawToken, authenticated.userId) ∈ k.owners) :
    (auth.rotate rawToken authenticated now).Obeys (accountTokens auth.crypto)
      (Refreshed auth.crypto rawToken) k := by
  refine Script.obeys_perform_bind.mpr ⟨trivial, fun newRawToken _ => ?_⟩
  refine Script.obeys_perform_bind.mpr ⟨⟨newRawToken, rfl, rfl⟩, fun rotated _ => ?_⟩
  split
  · refine not_refreshed auth.crypto (if_neg ?_)
    split <;> simp
  · rename_i hrotated
    obtain rfl := not_not.mp hrotated
    rintro value heq
    obtain rfl := Option.some.inj heq
    exact ⟨List.mem_cons_of_mem _ hknown, List.mem_cons_self ..⟩

theorem refresh_obeys (rawToken : String) (now : Int) :
    (auth.refresh rawToken now).Obeys (accountTokens auth.crypto)
      (Refreshed auth.crypto rawToken) k := by
  refine (authenticate_obeys rawToken now).bind fun k' authenticated hissued => ?_
  split
  · rename_i hnone
    exact not_refreshed auth.crypto hnone
  · rename_i session hsome
    exact rotate_obeys rawToken session now (hissued session hsome)

theorem registerUser_obeys (username password : String) :
    (auth.registerUser username password).Obeys (accountTokens auth.crypto)
    (fun _ _ => True) k := by
  unfold registerUser
  split
  · trivial
  split
  · trivial
  refine Script.obeys_perform_bind.mpr ⟨trivial, fun passwordHash _ => ?_⟩
  refine Script.obeys_perform_bind.mpr ⟨trivial, fun created _ => ?_⟩
  split
  · trivial
  · split <;> trivial

theorem logout_obeys (rawToken : String) :
    (auth.logout rawToken).Obeys (accountTokens auth.crypto) (fun _ _ => True) k := by
  unfold logout
  split
  · trivial
  refine Script.obeys_perform_bind.mpr ⟨trivial, fun error _ => ?_⟩
  split <;> trivial

end AuthService

namespace ProtocolService

/-- The typestate of a request: what it writes into a session it knows. -/
def tokens : Typestate ConnectionOp ConnectionOp.Ans Knowledge where
  allows k op :=
    match op with
    | .account op => (accountTokens crypto).allows k op
    | .session _ (.setIdentity user _ rawToken _) =>
      (crypto.hashSessionToken rawToken, user) ∈ k.owners
    | .session _ (.renewToken _ token rawToken _) =>
      ∃ user, (crypto.hashSessionToken token, user) ∈ k.owners ∧
        (crypto.hashSessionToken rawToken, user) ∈ k.owners
    | _ => True
  answers op ans :=
    match op, ans with
    | .account op, ans => (accountTokens crypto).answers op ans
    | _, _ => True
  next k op ans :=
    match op, ans with
    | .account op, ans => k.after op ans
    | _, _ => k

variable {crypto} {α : Type} {k : Knowledge}

theorem account_obeys {call : AuthScript α} {final : Knowledge → α → Prop}
    (h : call.Obeys (accountTokens crypto) final k) :
    (account call).Obeys (tokens crypto) final k :=
  h.subst fun _ _ hallows => ⟨hallows, fun _ hans => ⟨hans, rfl⟩⟩

theorem plain_obeys {s : ConnectionScript α} (h : s.Only Plain) (k : Knowledge) :
    s.Obeys (tokens crypto) (fun _ _ => True) k := by
  refine (h.obeys (I := fun _ => True) (fun k op _ hop => ⟨?_, fun _ => trivial⟩) trivial)
  cases op with
  | account op => exact hop.elim
  | session conn op => cases op <;> first | exact hop.elim | trivial
  | _ => trivial

variable (service : ProtocolService)

theorem authenticating_knows {conn : Nat} {request : Envelope}
    {call : Int → AuthScript (AuthResult AuthenticatedSession)}
    {rawToken : AuthenticatedSession → String}
    {respond : AuthenticatedSession → ConnectionScript Outcome}
    (hcall : ∀ now k, (call now).Obeys (accountTokens crypto)
      (AuthService.Issued crypto rawToken) k)
    (hrespond : ∀ value, (respond value).Only Plain) :
    (authenticating conn request call rawToken respond).Obeys (tokens crypto)
    (fun _ _ => True) k := by
  refine Script.obeys_perform_bind.mpr ⟨trivial, fun accepted _ => ?_⟩
  split
  · refine Script.obeys_perform_bind.mpr ⟨trivial, fun now _ => ?_⟩
    refine (account_obeys (hcall now _)).bind fun k' result hissued => ?_
    split
    · exact Script.obeys_perform_bind.mpr ⟨trivial, fun _ _ => plain_obeys (plain_fail _ _ _ _) _⟩
    · rename_i value hvalue
      refine Script.obeys_perform_bind.mpr ⟨hissued value hvalue, fun _ _ => ?_⟩
      exact Script.obeys_perform_bind.mpr ⟨trivial, fun _ _ => plain_obeys (hrespond _) _⟩
  · exact Script.obeys_perform_bind.mpr ⟨trivial, fun _ _ => plain_obeys (plain_fail _ _ _ _) _⟩

theorem takeTurn_knows {conn : Nat} {request : Envelope} {already begun : ConnectionScript Outcome}
    (halready : already.Obeys (tokens crypto) (fun _ _ => True) k)
    (hbegun : begun.Obeys (tokens crypto) (fun _ _ => True) k) :
    (takeTurn conn request already begun).Obeys (tokens crypto) (fun _ _ => True) k := by
  refine Script.obeys_perform_bind.mpr ⟨trivial, fun turn _ => ?_⟩
  cases turn with
  | alreadyAuthenticated => exact halready
  | inProgress => exact plain_obeys (plain_fail _ _ _ _) _
  | begun => exact hbegun

theorem logout_knows (conn : Nat) (user : UserId) (request : Envelope) :
    (service.logout conn user request).Obeys (tokens service.auth.crypto) (fun _ _ => True) k := by
  refine Script.obeys_perform_bind.mpr ⟨trivial, fun session _ => ?_⟩
  refine Script.obeys_perform_bind.mpr ⟨trivial, fun accepted _ => ?_⟩
  split
  · refine (account_obeys (AuthService.logout_obeys _)).bind fun k' error _ => ?_
    split
    · exact plain_obeys (plain_fail _ _ _ _) _
    · refine Script.obeys_perform_bind.mpr ⟨trivial, fun _ _ => ?_⟩
      refine Script.obeys_perform_bind.mpr ⟨trivial, fun _ _ => ?_⟩
      exact plain_obeys ((plain_leaveTable _ _).bind fun _ => plain_reply _ _ _) _
  · exact plain_obeys (plain_fail _ _ _ _) _

theorem refreshSession_knows (conn : Nat) (user : UserId) (request : Envelope) (token : String) :
    (service.refreshSession conn user request token).Obeys (tokens service.auth.crypto)
      (fun _ _ => True) k := by
  refine Script.obeys_perform_bind.mpr ⟨trivial, fun session _ => ?_⟩
  split
  · exact plain_obeys (plain_fail _ _ _ _) _
  refine Script.obeys_perform_bind.mpr ⟨trivial, fun accepted _ => ?_⟩
  split
  · refine Script.obeys_perform_bind.mpr ⟨trivial, fun now _ => ?_⟩
    refine (account_obeys (AuthService.refresh_obeys _ _)).bind fun k' refreshed hrefreshed => ?_
    split
    · exact plain_obeys (plain_fail _ _ _ _) _
    · rename_i value hvalue
      refine Script.obeys_perform_bind.mpr ⟨⟨_, hrefreshed value hvalue⟩, fun changed _ => ?_⟩
      split
      · exact plain_obeys (plain_fail _ _ _ _) _
      · exact plain_obeys (plain_reply _ _ _) _
  · exact plain_obeys (plain_fail _ _ _ _) _

theorem serve_knows (conn : Nat) (request : Envelope) :
    (service.serve conn request).Obeys (tokens service.auth.crypto) (fun _ _ => True) k := by
  refine (plain_obeys (plain_authorize conn request) k).bind fun k' authorized _ => ?_
  split
  · trivial
  split
  · exact plain_obeys (plain_fail _ _ _ _) _
  · exact plain_obeys (plain_fail _ _ _ _) _
  · exact plain_obeys (plain_fail _ _ _ _) _
  · exact service.logout_knows _ _ _
  · split
    · exact plain_obeys (plain_fail _ _ _ _) _
    · exact service.refreshSession_knows _ _ _ _
  · exact plain_obeys (plain_fail _ _ _ _) _
  · trivial

theorem registering_knows (request : Envelope) (username password : String) :
    (service.registering request username password).Obeys (tokens service.auth.crypto)
      (fun _ _ => True) k := by
  refine Script.obeys_perform_bind.mpr ⟨trivial, fun accepted _ => ?_⟩
  split
  · refine (account_obeys (AuthService.registerUser_obeys _ _)).bind fun k' registered _ => ?_
    split
    · exact plain_obeys (plain_fail _ _ _ _) _
    · exact plain_obeys (plain_send _ _) _
  · exact plain_obeys (plain_fail _ _ _ _) _

theorem handle_knows (conn : Nat) (request : Envelope) :
    (service.handle conn request).Obeys (tokens service.auth.crypto) (fun _ _ => True) k := by
  unfold handle
  split
  · exact plain_obeys (plain_fail _ _ _ _) _
  split
  · exact plain_obeys (plain_fail _ _ _ _) _
  · exact service.registering_knows _ _ _
  · exact plain_obeys (plain_fail _ _ _ _) _
  · exact takeTurn_knows (plain_obeys (plain_fail _ _ _ _) _)
      (authenticating_knows (fun now _ => AuthService.login_obeys _ _ now) fun _ => plain_send _ _)
  · exact plain_obeys (plain_fail _ _ _ _) _
  · exact takeTurn_knows (plain_obeys (plain_fail _ _ _ _) _)
      (authenticating_knows (fun now _ => AuthService.authenticate_obeys _ now)
        fun _ => plain_send _ _)
  · exact Script.obeys_perform_bind.mpr ⟨trivial, fun now _ => plain_obeys (plain_send _ _) _⟩
  · exact plain_obeys (plain_fail _ _ _ _) _
  · exact takeTurn_knows (service.serve_knows _ _)
      (authenticating_knows (fun now _ => AuthService.authenticate_obeys _ now) fun _ => trivial)
  · exact service.serve_knows _ _

theorem program_knows (call : ConnectionCall) :
    (service.program call).Obeys (tokens service.auth.crypto) (fun _ _ => True) {} := by
  cases call with
  | handle conn request => exact service.handle_knows conn request
  | setTable conn tableId => exact Script.obeys_perform_bind.mpr ⟨trivial, fun _ _ => trivial⟩

/-! ## Owners -/

/-- A call of the account store, seen from the request that makes it. -/
inductive AccountMove (crypto : CryptoProvider) (k k' : Knowledge) (a a' : Accounts) : Prop
  /-- Sessions stay with their users, and the request learns of owners at most. -/
  | quiet : a'.issued = a.issued →
      (∀ key record', a'.store.sessions.lookup key = some record' →
        ∃ record, a.store.sessions.lookup key = some record ∧ record.userId = record'.userId) →
      k'.fresh = k.fresh →
      (∀ key user, (key, user) ∈ k'.owners → (key, user) ∈ k.owners ∨
        ∃ record, a.store.sessions.lookup key = some record ∧ record.userId = user) →
      AccountMove crypto k k' a a'
  | generated {token : String} : token ∉ a.issued →
      a' = { a with issued := token :: a.issued } → k' = { k with fresh := some token } →
      AccountMove crypto k k' a a'
  | stored {token : String} {user : UserId} : k.fresh = some token → a'.issued = a.issued →
      (∀ key record', a'.store.sessions.lookup key = some record' →
        key = crypto.hashSessionToken token ∧ record'.userId = user ∨
          a.store.sessions.lookup key = some record') →
      k' = { fresh := none, owners := (crypto.hashSessionToken token, user) :: k.owners } →
      AccountMove crypto k k' a a'

theorem lookup_of_insert {sessions : Dict String SessionRecord} {key other : String}
    {record record' : SessionRecord}
    (h : (sessions.insert key record).lookup other = some record') :
    other = key ∧ record' = record ∨ sessions.lookup other = some record' := by
  by_cases heq : other = key
  · subst heq
    rw [AList.lookup_insert] at h
    exact Or.inl ⟨rfl, (Option.some.inj h).symm⟩
  · rw [AList.lookup_insert_ne heq] at h
    exact Or.inr h

theorem lookup_of_erase {sessions : Dict String SessionRecord} {key other : String}
    {record : SessionRecord} (h : (sessions.erase key).lookup other = some record) :
    sessions.lookup other = some record := by
  by_cases heq : other = key
  · subst heq
    rw [AList.lookup_erase] at h
    cases h
  · rwa [AList.lookup_erase_ne heq] at h

theorem account_move {env : AuthEnv} {a a' : Accounts} {op : AuthOp} {ans : op.Ans}
    (hallows : (accountTokens crypto).allows k op) (h : a.exec env op = some (ans, a')) :
    AccountMove crypto k (k.after op ans) a a' := by
  cases op with
  | hashPassword password =>
    obtain ⟨rfl, rfl⟩ := Prod.mk.inj (Option.some.inj h)
    exact .quiet rfl (fun _ record h => ⟨record, h, rfl⟩) rfl fun _ _ h => Or.inl h
  | generateSessionToken =>
    obtain ⟨-, hfresh, rfl⟩ := Accounts.exec_token h
    exact .generated hfresh rfl rfl
  | store op =>
    obtain ⟨store', hop, rfl⟩ := Accounts.exec_store h
    have hsame : a.store.sessions = store'.sessions → (k.after (.store op) ans).fresh = k.fresh →
        (∀ key user, (key, user) ∈ (k.after (.store op) ans).owners → (key, user) ∈ k.owners ∨
          ∃ record, a.store.sessions.lookup key = some record ∧ record.userId = user) →
        AccountMove crypto k (k.after (.store op) ans) a { a with store := store' } :=
      fun hsessions hfresh howners =>
        .quiet rfl (fun key record h => ⟨record, hsessions ▸ h, rfl⟩) hfresh howners
    cases op with
    | createUser username passwordHash chips =>
      refine hsame ?_ rfl fun _ _ h => Or.inl h
      rw [← InMemoryAccountStore.createUser_sessions a.store username passwordHash chips]
      exact congrArg (fun r => r.2.sessions) (Option.some.inj hop)
    | findUserByName username =>
      obtain ⟨found, -, heq⟩ := Option.map_eq_some_iff.mp hop
      obtain ⟨rfl, rfl⟩ := Prod.mk.inj heq
      exact hsame rfl rfl fun _ _ h => Or.inl h
    | findUserById userId =>
      obtain ⟨rfl, rfl⟩ := Prod.mk.inj (Option.some.inj hop)
      exact hsame rfl rfl fun _ _ h => Or.inl h
    | storeSession session =>
      obtain ⟨token, hfresh, hhash⟩ := hallows
      have hcall := Option.some.inj hop
      by_cases hok : ans = .ok
      · subst hok
        obtain ⟨-, -, rfl⟩ := InMemoryAccountStore.storeSession_ok hcall
        refine @AccountMove.stored _ _ _ _ _ token session.userId hfresh rfl
          (fun key record' h => ?_) ?_
        · rcases lookup_of_insert h with ⟨rfl, rfl⟩ | h
          · exact Or.inl ⟨hhash, rfl⟩
          · exact Or.inr h
        · rw [← hhash]
          rfl
      · rw [Knowledge.after_storeSession hok] at hsame ⊢
        exact hsame (by rw [InMemoryAccountStore.storeSession_refused hcall hok]) rfl
          fun _ _ h => Or.inl h
    | findSession tokenHash now =>
      obtain ⟨rfl, rfl⟩ := Prod.mk.inj (Option.some.inj hop)
      cases hfound : (a.store.findSession tokenHash now).toOption with
      | none =>
        have hafter : k.after (.store (.findSession tokenHash now))
            (a.store.findSession tokenHash now) = k := by
          simp only [Knowledge.after, hfound]
        rw [hafter] at hsame ⊢
        exact hsame rfl rfl fun _ _ h => Or.inl h
      | some session =>
        have hafter : k.after (.store (.findSession tokenHash now))
            (a.store.findSession tokenHash now) =
              { k with owners := (tokenHash, session.userId) :: k.owners } := by
          simp only [Knowledge.after, hfound]
        rw [hafter] at hsame ⊢
        refine hsame rfl rfl fun key user h => ?_
        rcases List.mem_cons.mp h with heq | h
        · obtain ⟨rfl, rfl⟩ := Prod.mk.inj heq
          exact Or.inr ⟨session, (InMemoryAccountStore.findSession_eq_some.mp hfound).1, rfl⟩
        · exact Or.inl h
    | rotateSession current replacement now =>
      obtain ⟨token, hfresh, hhash⟩ := hallows
      have hcall := Option.some.inj hop
      by_cases hok : ans = .ok
      · subst hok
        obtain ⟨-, -, -, -, -, -, rfl⟩ := InMemoryAccountStore.rotateSession_ok hcall
        refine @AccountMove.stored _ _ _ _ _ token replacement.userId hfresh rfl
          (fun key record' h => ?_) ?_
        · have hinsert : (a.store.sessions.insert replacement.tokenHash replacement).lookup key =
              some record' := by
            simp only at h
            split at h
            · exact lookup_of_erase h
            · exact h
          rcases lookup_of_insert hinsert with ⟨rfl, rfl⟩ | h
          · exact Or.inl ⟨hhash, rfl⟩
          · exact Or.inr h
        · rw [← hhash]
          rfl
      · rw [Knowledge.after_rotateSession hok] at hsame ⊢
        exact hsame (by rw [InMemoryAccountStore.rotateSession_refused hcall hok]) rfl
          fun _ _ h => Or.inl h
    | revokeSession tokenHash =>
      have hcall := Option.some.inj hop
      by_cases hok : ans = .ok
      · subst hok
        obtain ⟨session, hsession, rfl⟩ := InMemoryAccountStore.revokeSession_ok hcall
        refine .quiet rfl (fun key record' h => ?_) rfl fun _ _ h => Or.inl h
        rcases lookup_of_insert h with ⟨rfl, rfl⟩ | h
        · exact ⟨session, hsession, rfl⟩
        · exact ⟨record', h, rfl⟩
      · exact hsame (by rw [InMemoryAccountStore.revokeSession_refused hcall hok]) rfl
          fun _ _ h => Or.inl h
    | updateSessionSequence tokenHash expected replacement =>
      have hcall := Option.some.inj hop
      by_cases hok : ans = .ok
      · subst hok
        obtain ⟨session, hsession, -, -, -, rfl⟩ :=
          InMemoryAccountStore.updateSessionSequence_ok hcall
        refine .quiet rfl (fun key record' h => ?_) rfl fun _ _ h => Or.inl h
        rcases lookup_of_insert h with ⟨rfl, rfl⟩ | h
        · exact ⟨session, hsession, rfl⟩
        · exact ⟨record', h, rfl⟩
      · exact hsame (by rw [InMemoryAccountStore.updateSessionSequence_refused hcall hok]) rfl
          fun _ _ h => Or.inl h

/-- Every token hash has one owner, in the store, in the connections and in what requests know. -/
structure OwnedBy (crypto : CryptoProvider) (owner : String → Option UserId) (s : Connections)
    (phases : List (Nat × Knowledge)) : Prop where
  stored : ∀ key record, s.accounts.store.sessions.lookup key = some record →
    owner key = some record.userId
  held : ∀ conn user, (s.sessions conn).userId = some user →
    owner (crypto.hashSessionToken (s.sessions conn).rawToken) = some user
  known : ∀ m ∈ phases, ∀ key user, (key, user) ∈ m.2.owners → owner key = some user
  issued : ∀ key user, owner key = some user →
    ∃ token ∈ s.accounts.issued, crypto.hashSessionToken token = key
  fresh : ∀ m ∈ phases, ∀ token, m.2.fresh = some token →
    token ∈ s.accounts.issued ∧ owner (crypto.hashSessionToken token) = none
  apart : ∀ m ∈ phases, ∀ m' ∈ phases, ∀ token, m.2.fresh = some token →
    m'.2.fresh = some token → m.1 = m'.1
  enrolled : s.accounts.store.Enrolled

namespace OwnedBy

variable {owner : String → Option UserId} {s s' : Connections} {early late : List (Nat × Knowledge)}
  {phases : List (Nat × Knowledge)} {id : Nat} {k' : Knowledge}

theorem self (h : OwnedBy crypto owner s (early ++ (id, k) :: late)) :
    (∀ key user, (key, user) ∈ k.owners → owner key = some user) ∧
      ∀ token, k.fresh = some token →
        token ∈ s.accounts.issued ∧ owner (crypto.hashSessionToken token) = none :=
  ⟨h.known (id, k) (by simp), h.fresh (id, k) (by simp)⟩

/-- A call that leaves sessions with their users. -/
theorem quiet (h : OwnedBy crypto owner s (early ++ (id, k) :: late)) {accounts : Accounts}
    (hissued : accounts.issued = s.accounts.issued)
    (hstored : ∀ key record', accounts.store.sessions.lookup key = some record' →
      ∃ record, s.accounts.store.sessions.lookup key = some record ∧ record.userId = record'.userId)
    (hfresh : k'.fresh = k.fresh)
    (howners : ∀ key user, (key, user) ∈ k'.owners → (key, user) ∈ k.owners ∨
      ∃ record, s.accounts.store.sessions.lookup key = some record ∧ record.userId = user)
    (henrolled : accounts.store.Enrolled) :
    OwnedBy crypto owner { s with accounts := accounts } (early ++ (id, k') :: late) := by
  have hbefore : ∀ m ∈ early ++ (id, k') :: late, ∃ m' ∈ early ++ (id, k) :: late,
      m'.1 = m.1 ∧ m'.2.fresh = m.2.fresh := by
    intro m hm
    rcases Typestate.mem_replaced.mp hm with hm | rfl
    · exact ⟨m, Typestate.mem_replaced.mpr (Or.inl hm), rfl, rfl⟩
    · exact ⟨(id, k), Typestate.mem_replaced.mpr (Or.inr rfl), rfl, hfresh.symm⟩
  refine ⟨fun key record' hrecord => ?_, h.held, fun m hm key user howner => ?_, ?_, ?_, ?_,
    henrolled⟩
  · obtain ⟨record, hold, huser⟩ := hstored key record' hrecord
    exact huser ▸ h.stored key record hold
  · rcases Typestate.mem_replaced.mp hm with hm | rfl
    · exact h.known m (Typestate.mem_replaced.mpr (Or.inl hm)) key user howner
    · rcases howners key user howner with howner | ⟨record, hold, rfl⟩
      · exact h.self.1 key user howner
      · exact h.stored key record hold
  · rw [hissued]
    exact h.issued
  · rw [hissued]
    intro m hm token htoken
    obtain ⟨m', hm', -, heq⟩ := hbefore m hm
    exact h.fresh m' hm' token (heq.trans htoken)
  · intro m hm n hn token hm' hn'
    obtain ⟨m', hmem, hid, heq⟩ := hbefore m hm
    obtain ⟨n', hnem, hid', heq'⟩ := hbefore n hn
    rw [← hid, ← hid']
    exact h.apart m' hmem n' hnem token (heq.trans hm') (heq'.trans hn')

/-- A new token is nobody's. -/
theorem generated (h : OwnedBy crypto owner s (early ++ (id, k) :: late)) {token : String}
    (hnew : token ∉ s.accounts.issued) :
    OwnedBy crypto owner
      { s with accounts := { s.accounts with issued := token :: s.accounts.issued } }
      (early ++ (id, { k with fresh := some token }) :: late) := by
  have hnone : owner (crypto.hashSessionToken token) = none := by
    cases howner : owner (crypto.hashSessionToken token) with
    | none => rfl
    | some user =>
      obtain ⟨token', hissued, hhash⟩ := h.issued _ user howner
      exact absurd (crypto.hash_injective hhash ▸ hissued) hnew
  have hother : ∀ m ∈ early ++ late, ∀ token', m.2.fresh = some token' → token' ≠ token := by
    rintro m hm token' hfresh rfl
    exact hnew (h.fresh m (Typestate.mem_replaced.mpr (Or.inl hm)) token' hfresh).1
  refine ⟨h.stored, h.held, fun m hm key user howner => ?_, fun key user howner => ?_,
    fun m hm token' hfresh => ?_, fun m hm n hn token' hfresh hfresh' => ?_, h.enrolled⟩
  · rcases Typestate.mem_replaced.mp hm with hm | rfl
    · exact h.known m (Typestate.mem_replaced.mpr (Or.inl hm)) key user howner
    · exact h.self.1 key user howner
  · obtain ⟨token', hissued, hhash⟩ := h.issued key user howner
    exact ⟨token', List.mem_cons_of_mem _ hissued, hhash⟩
  · rcases Typestate.mem_replaced.mp hm with hm | rfl
    · obtain ⟨hissued, howner⟩ := h.fresh m (Typestate.mem_replaced.mpr (Or.inl hm)) token' hfresh
      exact ⟨List.mem_cons_of_mem _ hissued, howner⟩
    · obtain rfl := Option.some.inj hfresh
      exact ⟨List.mem_cons_self .., hnone⟩
  · rcases Typestate.mem_replaced.mp hm with hm | rfl <;>
      rcases Typestate.mem_replaced.mp hn with hn | rfl
    · exact h.apart m (Typestate.mem_replaced.mpr (Or.inl hm)) n
        (Typestate.mem_replaced.mpr (Or.inl hn)) token' hfresh hfresh'
    · exact absurd (Option.some.inj hfresh').symm (hother m hm token' hfresh)
    · exact absurd (Option.some.inj hfresh).symm (hother n hn token' hfresh')
    · rfl

/-- A session that is stored under the new token makes its user the owner. -/
theorem store (h : OwnedBy crypto owner s (early ++ (id, k) :: late))
    (hids : ∀ m ∈ early ++ late, m.1 ≠ id) {accounts : Accounts} {token : String} {user : UserId}
    (hfresh : k.fresh = some token) (hissued : accounts.issued = s.accounts.issued)
    (hstored : ∀ key record', accounts.store.sessions.lookup key = some record' →
      key = crypto.hashSessionToken token ∧ record'.userId = user ∨
        s.accounts.store.sessions.lookup key = some record')
    (henrolled : accounts.store.Enrolled) :
    OwnedBy crypto (Function.update owner (crypto.hashSessionToken token) (some user))
      { s with accounts := accounts }
      (early ++ (id, { fresh := none
                       owners := (crypto.hashSessionToken token, user) :: k.owners }) :: late) := by
  obtain ⟨hold, hnone⟩ := h.self.2 token hfresh
  have hkeep : ∀ key user', owner key = some user' →
      Function.update owner (crypto.hashSessionToken token) (some user) key = some user' := by
    intro key user' howner
    rw [Function.update_of_ne]
    · exact howner
    · rintro rfl
      rw [hnone] at howner
      cases howner
  have hother : ∀ m ∈ early ++ late, ∀ token', m.2.fresh = some token' → token' ≠ token := by
    rintro m hm token' hm' rfl
    exact hids m hm (h.apart m (Typestate.mem_replaced.mpr (Or.inl hm)) (id, k)
      (Typestate.mem_replaced.mpr (Or.inr rfl)) token' hm' hfresh)
  refine ⟨fun key record' hrecord => ?_,
    fun conn user' huser => hkeep _ _ (h.held conn user' huser),
    fun m hm key user' howner => ?_, fun key user' howner => ?_, fun m hm token' hm' => ?_,
    fun m hm n hn token' hm' hn' => ?_, henrolled⟩
  · rcases hstored key record' hrecord with ⟨rfl, rfl⟩ | hrecord
    · exact Function.update_self ..
    · exact hkeep _ _ (h.stored key record' hrecord)
  · rcases Typestate.mem_replaced.mp hm with hm | rfl
    · exact hkeep _ _ (h.known m (Typestate.mem_replaced.mpr (Or.inl hm)) key user' howner)
    · rcases List.mem_cons.mp howner with heq | howner
      · obtain ⟨rfl, rfl⟩ := Prod.mk.inj heq
        exact Function.update_self ..
      · exact hkeep _ _ (h.self.1 key user' howner)
  · rw [hissued]
    by_cases hkey : key = crypto.hashSessionToken token
    · exact ⟨token, hold, hkey.symm⟩
    · rw [Function.update_of_ne hkey] at howner
      exact h.issued key user' howner
  · rcases Typestate.mem_replaced.mp hm with hm | rfl
    · rw [hissued, Function.update_of_ne (crypto.hash_injective.ne (hother m hm token' hm'))]
      exact h.fresh m (Typestate.mem_replaced.mpr (Or.inl hm)) token' hm'
    · cases hm'
  · rcases Typestate.mem_replaced.mp hm with hm | rfl
    · rcases Typestate.mem_replaced.mp hn with hn | rfl
      · exact h.apart m (Typestate.mem_replaced.mpr (Or.inl hm)) n
          (Typestate.mem_replaced.mpr (Or.inl hn)) token' hm' hn'
      · cases hn'
    · cases hm'

/-- A block of a session that leaves it to nobody, to its user, or to the owner of its token. -/
theorem session (h : OwnedBy crypto owner s phases) {conn : Nat} {session : ConnectionSession}
    (hsession : ∀ user, session.userId = some user →
      owner (crypto.hashSessionToken session.rawToken) = some user) :
    OwnedBy crypto owner (s.setSession conn session) phases := by
  refine ⟨h.stored, fun other user huser => ?_, h.known, h.issued, h.fresh, h.apart, h.enrolled⟩
  by_cases heq : other = conn
  · subst heq
    simp only [Connections.setSession, Function.update_self] at huser ⊢
    exact hsession user huser
  · simp only [Connections.setSession, Function.update_of_ne heq] at huser ⊢
    exact h.held other user huser

theorem perform (h : OwnedBy crypto owner s (early ++ (id, k) :: late)) {conn : Nat}
    {op : ConnectionSession.Op} (hallows : (tokens crypto).allows k (.session conn op))
    (now : Int) :
    OwnedBy crypto owner (s.setSession conn ((s.sessions conn).perform now op).2)
      (early ++ (id, k) :: late) := by
  refine h.session fun user huser => ?_
  cases op with
  | beginAuthentication =>
    simp only [ConnectionSession.perform] at huser ⊢
    split at huser
    · rename_i hlive
      rw [if_pos hlive]
      exact h.held conn user huser
    · simp only at huser
      split at huser
      · cases huser
      · rename_i hnone
        rw [Option.not_isSome_iff_eq_none.mp hnone] at huser
        cases huser
  | endAuthentication => exact h.held conn user huser
  | setIdentity user' username rawToken expires =>
    obtain rfl := Option.some.inj huser
    exact h.self.1 _ _ hallows
  | checkExpiry =>
    simp only [ConnectionSession.perform] at huser ⊢
    split at huser
    · cases huser
    · rename_i hlive
      rw [if_neg hlive]
      exact h.held conn user huser
  | read => exact h.held conn user huser
  | clearIdentity => cases huser
  | renewToken user' token rawToken expires =>
    simp only [ConnectionSession.perform] at huser ⊢
    split at huser
    · rename_i hchanged
      rw [if_pos hchanged]
      exact h.held conn user huser
    · rename_i hsame
      rw [if_neg hsame]
      simp only [decide_eq_true_eq, not_or, not_not] at hsame
      obtain ⟨known, htoken, hrawToken⟩ := hallows
      have hheld := h.held conn user huser
      rw [hsame.2, h.self.1 _ _ htoken] at hheld
      rw [h.self.1 _ _ hrawToken, hheld]
  | setTable tableId => exact h.held conn user huser

/-- Fewer requests know less. -/
theorem subset (h : OwnedBy crypto owner s phases) {fewer : List (Nat × Knowledge)}
    (hsubset : fewer ⊆ phases) : OwnedBy crypto owner s fewer :=
  ⟨h.stored, h.held, fun m hm => h.known m (hsubset hm), h.issued,
    fun m hm => h.fresh m (hsubset hm),
    fun m hm n hn => h.apart m (hsubset hm) n (hsubset hn), h.enrolled⟩

theorem begin (h : OwnedBy crypto owner s phases) (id : Nat) :
    OwnedBy crypto owner s (phases ++ [(id, ({} : Knowledge))]) := by
  have hcases : ∀ m ∈ phases ++ [(id, ({} : Knowledge))],
      m ∈ phases ∨ m = (id, ({} : Knowledge)) := by
    simp
  refine ⟨h.stored, h.held, fun m hm key user howner => ?_, h.issued, fun m hm token hfresh => ?_,
    fun m hm n hn token hfresh hfresh' => ?_, h.enrolled⟩
  · rcases hcases m hm with hm | rfl
    · exact h.known m hm key user howner
    · cases howner
  · rcases hcases m hm with hm | rfl
    · exact h.fresh m hm token hfresh
    · cases hfresh
  · rcases hcases m hm with hm | rfl
    · rcases hcases n hn with hn | rfl
      · exact h.apart m hm n hn token hfresh hfresh'
      · cases hfresh'
    · cases hfresh

theorem answers (h : OwnedBy crypto owner s phases) {env : AuthEnv} {op : AuthOp} {ans : op.Ans}
    {accounts : Accounts} (hexec : s.accounts.exec env op = some (ans, accounts)) :
    (accountTokens crypto).answers op ans := by
  cases op with
  | store op =>
    cases op with
    | findUserById userId =>
      intro user huser
      obtain ⟨store', hop, -⟩ := Accounts.exec_store hexec
      obtain ⟨rfl, -⟩ := Prod.mk.inj (Option.some.inj hop)
      exact (h.enrolled.user _ _ (InMemoryAccountStore.findUserById_eq_some.mp huser)).1
    | _ => trivial
  | _ => trivial

theorem enrolled_exec (h : OwnedBy crypto owner s phases) {env : AuthEnv} {op : AuthOp}
    {ans : op.Ans} {accounts : Accounts} (hexec : s.accounts.exec env op = some (ans, accounts)) :
    accounts.store.Enrolled := by
  cases op with
  | store op =>
    obtain ⟨store', hop, rfl⟩ := Accounts.exec_store hexec
    exact h.enrolled.perform hop
  | hashPassword password =>
    obtain rfl := Accounts.exec_hash hexec
    exact h.enrolled
  | generateSessionToken =>
    obtain ⟨-, -, rfl⟩ := Accounts.exec_token hexec
    exact h.enrolled

/-- **A call keeps tokens with their owners.** -/
theorem made (h : OwnedBy crypto owner s (early ++ (id, k) :: late))
    (hids : ∀ m ∈ early ++ late, m.1 ≠ id) {env : ConnectionEnv} {op : ConnectionOp} {ans : op.Ans}
    (hallows : (tokens crypto).allows k op) (hexec : s.exec env op = some (ans, s')) :
    (tokens crypto).answers op ans ∧
      ∃ owner, OwnedBy crypto owner s' (early ++ (id, (tokens crypto).next k op ans) :: late) := by
  cases op with
  | account op =>
    obtain ⟨⟨ans', accounts⟩, hcall, heq⟩ := Option.map_eq_some_iff.mp hexec
    obtain ⟨rfl, rfl⟩ := Prod.mk.inj heq
    refine ⟨h.answers hcall, ?_⟩
    have henrolled := h.enrolled_exec hcall
    have hmove : AccountMove crypto k ((tokens crypto).next k (.account op) ans') _ accounts :=
      account_move hallows hcall
    cases hmove with
    | quiet hissued hstored hfresh howners =>
      exact ⟨owner, h.quiet hissued hstored hfresh howners henrolled⟩
    | generated hnew haccounts hk =>
      rw [haccounts, hk]
      exact ⟨owner, h.generated hnew⟩
    | stored hfresh hissued hstored hk =>
      rw [hk]
      exact ⟨_, h.store hids hfresh hissued hstored henrolled⟩
  | session conn op =>
    obtain ⟨rfl, rfl⟩ := Prod.mk.inj (Option.some.inj hexec)
    exact ⟨trivial, owner, h.perform hallows env.now⟩
  | _ =>
    obtain ⟨rfl, rfl⟩ := Prod.mk.inj (Option.some.inj hexec)
    exact ⟨trivial, owner, h.stored, h.held, h.known, h.issued, h.fresh, h.apart, h.enrolled⟩

end OwnedBy

theorem tokens_keeps : ConnectionsKeep (tokens crypto) (fun _ => {}) (fun _ _ _ => True)
    fun _ s phases => ∃ owner, OwnedBy crypto owner s phases where
  begin := fun id _ ⟨owner, h⟩ _ => ⟨owner, h.begin id⟩
  made := fun ⟨_, h⟩ hids hallows hexec => h.made hids hallows hexec
  returned := fun ⟨owner, h⟩ _ _ =>
    ⟨owner, h.subset fun _ hm => Typestate.mem_replaced.mpr (Or.inl hm)⟩

theorem owned_init : ∃ owner, OwnedBy crypto owner {} [] :=
  ⟨fun _ => none, by simp, by simp, by simp, by simp, by simp, by simp,
    InMemoryAccountStore.enrolled_empty⟩

variable {service} {trace : ConnectionTrace} {t : ConnectionThreads}

/-- **A connection's token is its user's**: it was generated here, and the session that the store
keeps under it, if there is one, is a session of this user. -/
theorem token_of_user (hr : Run service.Serves { shared := {} } trace t) {conn : Nat}
    {user : UserId}
    (huser : (t.shared.sessions conn).userId = some user) :
    (t.shared.sessions conn).rawToken ∈ t.shared.accounts.issued ∧
      ∀ record, t.shared.accounts.store.sessions.lookup
          (service.auth.crypto.hashSessionToken (t.shared.sessions conn).rawToken) = some record →
        record.userId = user := by
  obtain ⟨phases, -, owner, h⟩ := Threads.typestate_run hr service.program_knows tokens_keeps
    owned_init
  have howner := h.held conn user huser
  refine ⟨?_, fun record hrecord => ?_⟩
  · obtain ⟨token, hissued, hhash⟩ := h.issued _ user howner
    rwa [← service.auth.crypto.hash_injective hhash]
  · rw [h.stored _ record hrecord] at howner
    exact Option.some.inj howner

end ProtocolService

end PokerServer

import PokerServer.Security.Sessions

/-!
# Sequence updates and refreshes

`AuthService::refresh` reads the session in one call on the store and writes its replacement in
another. Here every call on the store is a step, and calls of the service run as threads together
with `updateSessionSequence` calls.

* `Chain`: the key that a session is stored under now, and the largest sequence accepted for it or a
  session it replaces.
* `Steady`: at every rotation the stored sequence is still the one that the refresh has read, and no
  update wraps around.
* `update_lost`: a run in which an update comes between the two calls.
-/

namespace PokerServer

/-- A call of the service, or an update of the client sequence. -/
inductive SessionCall where
  | auth (call : AuthCall)
  | updateSessionSequence (tokenHash : String) (expected replacement : Nat)

abbrev SessionCall.Res : SessionCall → Type
  | .auth call => call.Res
  | .updateSessionSequence .. => StorageError

def AuthService.sessionProgram (auth : AuthService) : (call : SessionCall) → AuthScript call.Res
  | .auth call => auth.program call
  | .updateSessionSequence tokenHash expected replacement =>
    AuthService.ask (.updateSessionSequence tokenHash expected replacement)

abbrev SessionThreads := Threads Accounts AuthOp AuthOp.Ans SessionCall SessionCall.Res
abbrev SessionEvent := ThreadsEvent AuthEnv AuthOp AuthOp.Ans SessionCall SessionCall.Res
abbrev SessionTrace := ThreadsTrace Accounts AuthEnv AuthOp AuthOp.Ans SessionCall SessionCall.Res

abbrev AuthService.SessionStep (auth : AuthService) :
    SessionThreads → SessionEvent → SessionThreads → Prop :=
  ThreadsStep auth.sessionProgram Accounts.exec

/-- The key of a session, and the largest sequence accepted so far. -/
structure Chain where
  key : String
  largest : Nat
  deriving DecidableEq

namespace Chain

/-- A successful rotation moves the session, a successful update counts. -/
def follow (chain : Chain) : SessionEvent → Chain
  | .made _ _ (.store (.rotateSession current replacement _)) .ok =>
    if current = chain.key then { chain with key := replacement.tokenHash } else chain
  | .made _ _ (.store (.updateSessionSequence key _ replacement)) .ok =>
    if key = chain.key then { chain with largest := max chain.largest replacement } else chain
  | _ => chain

def after (chain : Chain) (trace : SessionTrace) : Chain :=
  trace.foldl (fun chain e => chain.follow e.label) chain

theorem after_snoc (chain : Chain) (trace : SessionTrace) (e : Step SessionThreads SessionEvent) :
    chain.after (trace ++ [e]) = (chain.after trace).follow e.label := by
  unfold after
  rw [List.foldl_append]
  rfl

end Chain

namespace AuthService

open Script

variable {auth : AuthService} {trace : SessionTrace} {t : SessionThreads} {s : Accounts}

/-- The session that a call of the thread has found. -/
def readBy (id : Nat) : SessionEvent → Option SessionRecord
  | .made id' _ (.store (.findSession _ _)) found => if id' = id then found.toOption else none
  | _ => none

/-- The thread has read this session. -/
def Reads (trace : SessionTrace) (id : Nat) (session : SessionRecord) : Prop :=
  ∃ e ∈ trace, readBy id e.label = some session

/-- **No update between a read and its rotation**, and none that wraps around. -/
structure Steady (trace : SessionTrace) : Prop where
  rotation : ∀ before e after, trace = before ++ e :: after →
    ∀ id env current replacement now,
      e.label = .made id env (.store (.rotateSession current replacement now)) .ok →
      ∀ read stored : SessionRecord, Reads before id read →
        e.before.shared.store.sessions.lookup current = some stored →
          stored.lastClientSequence = read.lastClientSequence
  update : ∀ e ∈ trace, ∀ id env key expected replacement,
    e.label = .made id env (.store (.updateSessionSequence key expected replacement)) .ok →
      expected + 1 < 2 ^ 64

theorem Steady.init {e : Step SessionThreads SessionEvent} (h : Steady (trace ++ [e])) :
    Steady trace := by
  refine ⟨fun before e' after hsplit => ?_, fun e' he' => ?_⟩
  · exact h.rotation before e' (after ++ [e]) (by rw [hsplit]; simp)
  · exact h.update e' (List.mem_append_left _ he')

/-! ## Only a refresh rotates -/

/-- The call is not a rotation. -/
def Rotationless (op : AuthOp) : Prop :=
  ∀ current replacement now, op ≠ .store (.rotateSession current replacement now)

theorem only_authenticate (auth : AuthService) (rawToken : String) (now : Int) :
    (auth.authenticate rawToken now).Only Rotationless := by
  unfold authenticate
  split
  · exact trivial
  refine only_perform_bind.mpr ⟨fun _ _ _ => by simp, fun found => ?_⟩
  split
  · exact trivial
  refine only_perform_bind.mpr ⟨fun _ _ _ => by simp, fun user => ?_⟩
  split <;> exact trivial

theorem only_login (auth : AuthService) (username password : String) (now : Int) :
    (auth.login username password now).Only Rotationless := by
  refine only_perform_bind.mpr ⟨fun _ _ _ => by simp, fun found => ?_⟩
  simp only
  split
  · split
    · exact trivial
    refine only_perform_bind.mpr ⟨fun _ _ _ => by simp, fun token => ?_⟩
    refine only_perform_bind.mpr ⟨fun _ _ _ => by simp, fun stored => ?_⟩
    split <;> exact trivial
  · exact trivial

theorem only_registerUser (auth : AuthService) (username password : String) :
    (auth.registerUser username password).Only Rotationless := by
  unfold registerUser
  split
  · exact trivial
  split
  · exact trivial
  refine only_perform_bind.mpr ⟨fun _ _ _ => by simp, fun hash => ?_⟩
  refine only_perform_bind.mpr ⟨fun _ _ _ => by simp, fun created => ?_⟩
  split
  · exact trivial
  · split <;> exact trivial

theorem only_logout (auth : AuthService) (rawToken : String) :
    (auth.logout rawToken).Only Rotationless := by
  unfold logout
  split
  · exact trivial
  refine only_perform_bind.mpr ⟨fun _ _ _ => by simp, fun error => ?_⟩
  split <;> exact trivial

/-- A rotation is made by a refresh. -/
theorem refresh_of_rotation (auth : AuthService) (call : SessionCall) :
    (auth.sessionProgram call).Only Rotationless ∨
      ∃ rawToken now, call = .auth (.refresh rawToken now) := by
  cases call with
  | updateSessionSequence tokenHash expected replacement =>
    exact Or.inl ⟨fun _ _ _ => by simp, fun _ => trivial⟩
  | auth call =>
    cases call with
    | registerUser username password => exact Or.inl (auth.only_registerUser username password)
    | login username password now => exact Or.inl (auth.only_login username password now)
    | authenticate rawToken now => exact Or.inl (auth.only_authenticate rawToken now)
    | refresh rawToken now => exact Or.inr ⟨rawToken, now, rfl⟩
    | logout rawToken => exact Or.inl (auth.only_logout rawToken)

/-! ## What a refresh writes -/

abbrev AuthCalls := List ((op : AuthOp) × op.Ans)

variable {made : AuthCalls} {rawToken : String} {now : Int}

/-- Among the calls is one that found the session. -/
def Found (made : AuthCalls) (session : SessionRecord) : Prop :=
  ∃ (key : String) (now : Int) (found : StorageResult SessionRecord),
    ⟨.store (.findSession key now), found⟩ ∈ made ∧ found.toOption = some session

theorem authenticate_returns {result : AuthResult AuthenticatedSession}
    {session : AuthenticatedSession} (h : (auth.authenticate rawToken now).Returns made result)
    (hok : result.toOption = some session) :
    ∃ read, Found made read ∧ session.lastClientSequence = read.lastClientSequence := by
  unfold authenticate at h
  split at h
  · obtain ⟨-, rfl⟩ := h
    exact absurd hok (by simp [AuthResult.toOption])
  obtain ⟨found, rest, rfl, hrest⟩ := returns_perform_bind.mp h
  split at hrest
  · obtain ⟨-, rfl⟩ := hrest
    refine absurd hok ?_
    simp only [AuthResult.toOption]
    split <;> simp
  · rename_i read hread
    obtain ⟨user, rest', rfl, hlast⟩ := returns_perform_bind.mp hrest
    split at hlast
    · obtain ⟨-, rfl⟩ := hlast
      exact absurd hok (by simp [AuthResult.toOption])
    · obtain ⟨-, rfl⟩ := hlast
      obtain rfl := Option.some.inj hok
      exact ⟨read, ⟨_, now, found, List.mem_cons_self, hread⟩, rfl⟩

theorem rotate_returns {authenticated : AuthenticatedSession}
    {result : AuthResult AuthenticatedSession}
    (h : (auth.rotate rawToken authenticated now).Returns made result) :
    ∃ (token : String) (rotated : StorageError), made = [⟨.generateSessionToken, token⟩,
      ⟨.store (.rotateSession (auth.crypto.hashSessionToken rawToken)
        { userId := authenticated.userId
          tokenHash := auth.crypto.hashSessionToken token
          expiresAtUnixMs := auth.expiry now
          lastClientSequence := authenticated.lastClientSequence } now), rotated⟩] := by
  obtain ⟨token, rest, rfl, hrest⟩ := returns_perform_bind.mp h
  obtain ⟨rotated, rest', rfl, hlast⟩ := returns_perform_bind.mp hrest
  have hnil : rest' = [] := by
    split at hlast
    · exact hlast.1
    · exact hlast.1
  rw [hnil]
  exact ⟨token, rotated, rfl⟩

/-- **A refresh writes the sequence that it has read.** -/
theorem refresh_rotates {result : AuthResult AuthenticatedSession} {current : String}
    {replacement : SessionRecord} {time : Int} {ans : StorageError} {more : AuthCalls}
    (h : (auth.refresh rawToken now).Returns
      (made ++ ⟨.store (.rotateSession current replacement time), ans⟩ :: more) result) :
    ∃ read, Found made read ∧ replacement.lastClientSequence = read.lastClientSequence := by
  obtain ⟨first, rest, authenticated, hsplit, hauth, hrest⟩ := returns_bind.mp h
  have honly := (auth.only_authenticate rawToken now).returns hauth
  cases hok : authenticated.toOption with
  | none =>
    rw [hok] at hrest
    obtain ⟨rfl, -⟩ := hrest
    have hmem : ⟨.store (.rotateSession current replacement time), ans⟩ ∈ first := by
      rw [List.append_nil] at hsplit
      rw [← hsplit]
      simp
    exact absurd rfl (honly _ hmem current replacement time)
  | some session =>
    rw [hok] at hrest
    obtain ⟨token, rotated, rfl⟩ := rotate_returns hrest
    obtain ⟨read, ⟨key, now', found, hmem, hfound⟩, hsequence⟩ := authenticate_returns hauth hok
    rcases List.append_eq_append_iff.mp hsplit with ⟨a, rfl, heq⟩ | ⟨c, rfl, heq⟩
    · cases a with
      | nil => exact absurd (congrArg Sigma.fst (List.cons.inj heq).1) (by simp)
      | cons x a =>
        obtain ⟨rfl, -⟩ := List.cons.inj heq
        exact absurd rfl (honly _ (List.mem_append_right _ List.mem_cons_self) current replacement
          time)
    · cases c with
      | nil => exact absurd (congrArg Sigma.fst (List.cons.inj heq).1) (by simp)
      | cons x c =>
        obtain ⟨rfl, htail⟩ := List.cons.inj heq
        cases c with
        | nil =>
          cases (List.cons.inj htail).1
          exact ⟨read, ⟨key, now', found, by simp [hmem], hfound⟩, hsequence⟩
        | cons y c => exact absurd (congrArg List.length (List.cons.inj htail).2) (by simp)

/-! ## What a call does to one session -/

/-- The session under the key is still there, with this sequence. -/
def Holding (store : InMemoryAccountStore) (key : String) (sequence : Nat) : Prop :=
  ∃ record, store.sessions.lookup key = some record ∧ record.lastClientSequence = sequence

variable {store store' : InMemoryAccountStore} {key : String} {sequence : Nat}

theorem Holding.insert (h : Holding store key sequence) {other : String} {record : SessionRecord}
    (hrecord : other = key → record.lastClientSequence = sequence) :
    Holding { store with sessions := store.sessions.insert other record } key sequence := by
  by_cases heq : key = other
  · subst heq
    exact ⟨record, AList.lookup_insert _, hrecord rfl⟩
  · obtain ⟨stored, hstored, hsequence⟩ := h
    exact ⟨stored, (AList.lookup_insert_ne heq).trans hstored, hsequence⟩

/-- A rotation moves the session, or leaves it where it is. -/
theorem Holding.rotate (h : Holding store key sequence) {current : String}
    {replacement : SessionRecord} {now : Int}
    (hcall : store.rotateSession current replacement now = (.ok, store'))
    (hcopy : current = key → replacement.lastClientSequence = sequence) :
    Holding store' (if current = key then replacement.tokenHash else key) sequence := by
  obtain ⟨old, hold, -, -, -, hfree, rfl⟩ := InMemoryAccountStore.rotateSession_ok hcall
  by_cases hcurrent : current = key
  · subst hcurrent
    refine ⟨replacement, ?_, hcopy rfl⟩
    rw [if_pos rfl]
    dsimp only
    split
    · rename_i hne
      rw [AList.lookup_erase_ne hne, AList.lookup_insert]
    · exact AList.lookup_insert _
  · obtain ⟨stored, hstored, hsequence⟩ := h
    rw [if_neg hcurrent]
    have hother : replacement.tokenHash ≠ key := by
      rintro rfl
      exact absurd ((hfree (Ne.symm hcurrent)).symm.trans hstored) (by simp)
    refine ⟨stored, ?_, hsequence⟩
    dsimp only
    split
    · rw [AList.lookup_erase_ne (Ne.symm hcurrent), AList.lookup_insert_ne (Ne.symm hother),
        hstored]
    · rw [AList.lookup_insert_ne (Ne.symm hother), hstored]

/-- An update counts, where it is one of this session. -/
theorem Holding.update (h : Holding store key sequence) {other : String}
    {expected replacement : Nat}
    (hcall : store.updateSessionSequence other expected replacement = (.ok, store'))
    (hwrap : expected + 1 < 2 ^ 64) :
    Holding store' key (if other = key then max sequence replacement else sequence) := by
  obtain ⟨record, hrecord, -, hexpected, hreplacement, rfl⟩ :=
    InMemoryAccountStore.updateSessionSequence_ok hcall
  rw [Nat.mod_eq_of_lt hwrap] at hreplacement
  by_cases hother : other = key
  · subst hother
    obtain ⟨stored, hstored, hsequence⟩ := h
    obtain rfl := Option.some.inj (hrecord.symm.trans hstored)
    rw [if_pos rfl]
    refine ⟨_, AList.lookup_insert _, ?_⟩
    dsimp only
    omega
  · rw [if_neg hother]
    exact h.insert fun heq => absurd heq hother

/-! ## Every run -/

/-- **A step keeps the session and its largest sequence**, if it is steady. -/
theorem holding_step {chain : Chain} {t t' : SessionThreads} {event : SessionEvent}
    (h : Holding t.shared.store chain.key chain.largest) (hs : auth.SessionStep t event t')
    (hcopy : ∀ id env current replacement now,
      event = .made id env (.store (.rotateSession current replacement now)) .ok →
        ∀ stored : SessionRecord, t.shared.store.sessions.lookup current = some stored →
          replacement.lastClientSequence = stored.lastClientSequence)
    (hwrap : ∀ id env key expected replacement,
      event = .made id env (.store (.updateSessionSequence key expected replacement)) .ok →
        expected + 1 < 2 ^ 64) :
    Holding t'.shared.store (chain.follow event).key (chain.follow event).largest := by
  rcases Threads.shared_step hs with ⟨hsame, hquiet⟩ | ⟨id, env, op, ans, rfl, hexec⟩
  · rw [hsame]
    cases event with
    | made id env op ans => exact absurd rfl (hquiet id env op ans)
    | _ => exact h
  cases op with
  | hashPassword password =>
    obtain ⟨-, hstate⟩ := Prod.mk.inj (Option.some.inj hexec)
    rw [← hstate]
    exact h
  | generateSessionToken =>
    obtain ⟨-, -, hstate⟩ := Accounts.exec_token hexec
    rw [hstate]
    exact h
  | store op =>
    obtain ⟨store', hperform, hstate⟩ := Accounts.exec_store hexec
    rw [hstate]
    cases op with
    | createUser username passwordHash chips =>
      have hsessions := InMemoryAccountStore.createUser_sessions t.shared.store username
        passwordHash
        chips
      rw [Option.some.inj hperform] at hsessions
      obtain ⟨record, hrecord, hsequence⟩ := h
      exact ⟨record, (congrArg (AList.lookup chain.key) hsessions).trans hrecord, hsequence⟩
    | findUserByName username =>
      obtain ⟨found, -, heq⟩ := Option.map_eq_some_iff.mp hperform
      exact (Prod.mk.inj heq).2 ▸ h
    | findUserById userId => exact (Prod.mk.inj (Option.some.inj hperform)).2 ▸ h
    | findSession tokenHash now => exact (Prod.mk.inj (Option.some.inj hperform)).2 ▸ h
    | storeSession session =>
      by_cases hok : ans = .ok
      · subst hok
        obtain ⟨-, hfree, rfl⟩ := InMemoryAccountStore.storeSession_ok (Option.some.inj hperform)
        refine h.insert fun heq => ?_
        obtain ⟨record, hrecord, -⟩ := h
        exact absurd (hfree.symm.trans (heq ▸ hrecord)) (by simp)
      · exact InMemoryAccountStore.storeSession_refused (Option.some.inj hperform) hok ▸ h
    | revokeSession tokenHash =>
      by_cases hok : ans = .ok
      · subst hok
        obtain ⟨record, hrecord, rfl⟩ :=
          InMemoryAccountStore.revokeSession_ok (Option.some.inj hperform)
        refine h.insert fun heq => ?_
        obtain ⟨stored, hstored, hsequence⟩ := h
        obtain rfl := Option.some.inj (hrecord.symm.trans (heq ▸ hstored))
        exact hsequence
      · exact InMemoryAccountStore.revokeSession_refused (Option.some.inj hperform) hok ▸ h
    | rotateSession current replacement now =>
      by_cases hok : ans = .ok
      · subst hok
        have hmoved := h.rotate (Option.some.inj hperform) fun heq => by
          obtain ⟨stored, hstored, hsequence⟩ := h
          exact (hcopy id env current replacement now rfl stored (heq ▸ hstored)).trans hsequence
        simp only [Chain.follow]
        split
        · rename_i heq
          rwa [if_pos heq] at hmoved
        · rename_i hne
          rwa [if_neg hne] at hmoved
      · have hstay := InMemoryAccountStore.rotateSession_refused (Option.some.inj hperform) hok ▸ h
        have hfollow : chain.follow
            (.made id env (.store (.rotateSession current replacement now)) ans) = chain := by
          cases ans with
          | ok => exact absurd rfl hok
          | _ => rfl
        rw [hfollow]
        exact hstay
    | updateSessionSequence key expected replacement =>
      by_cases hok : ans = .ok
      · subst hok
        have hcounted := h.update (Option.some.inj hperform)
          (hwrap id env key expected replacement rfl)
        simp only [Chain.follow]
        split
        · rename_i heq
          rwa [if_pos heq] at hcounted
        · rename_i hne
          rwa [if_neg hne] at hcounted
      · have hstay :=
          InMemoryAccountStore.updateSessionSequence_refused (Option.some.inj hperform) hok ▸ h
        have hfollow : chain.follow
            (.made id env (.store (.updateSessionSequence key expected replacement)) ans) =
              chain := by
          cases ans with
          | ok => exact absurd rfl hok
          | _ => rfl
        rw [hfollow]
        exact hstay

theorem nonempty_ans (op : AuthOp) : Nonempty op.Ans := by
  cases op with
  | hashPassword | generateSessionToken => exact ⟨""⟩
  | store op =>
    cases op with
    | createUser | findUserByName | findUserById | findSession => exact ⟨{}⟩
    | storeSession | rotateSession | revokeSession | updateSessionSequence => exact ⟨.ok⟩

/-- **A rotation writes a sequence that its thread has read.** -/
theorem rotation_run {before after : SessionTrace} {e : Step SessionThreads SessionEvent}
    (hr : Run auth.SessionStep { shared := s } (before ++ e :: after) t) {id : Nat} {env : AuthEnv}
    {current : String} {replacement : SessionRecord} {now : Int} {ans : StorageError}
    (hlabel : e.label = .made id env (.store (.rotateSession current replacement now)) ans) :
    ∃ read, Reads before id read ∧ replacement.lastClientSequence = read.lastClientSequence := by
  obtain ⟨hbefore, hs, -⟩ := hr.split
  have hpending := Threads.pending_run hbefore
  rw [hlabel] at hs
  generalize e.after = after' at hs
  cases hs with
  | @made early late id call op next env ans s' hsplit hexec =>
    rw [hsplit] at hpending
    obtain ⟨-, made, hshows, hrest⟩ := hpending ⟨id, call, .call _ next⟩ (by simp)
    obtain ⟨more, result, hmore⟩ := exists_returns nonempty_ans (next ans)
    have hreturns := hrest _ result ⟨ans, more, rfl, hmore⟩
    rcases auth.refresh_of_rotation call with honly | ⟨rawToken, time, rfl⟩
    · exact absurd rfl (honly.returns hreturns _ (List.mem_append_right _ List.mem_cons_self)
        current replacement now)
    · obtain ⟨read, ⟨key, time', found, hmem, hfound⟩, hsequence⟩ := refresh_rotates hreturns
      obtain ⟨e', he', env', hlabel'⟩ := hshows _ hmem
      refine ⟨read, ⟨e', he', ?_⟩, hsequence⟩
      rw [hlabel']
      exact (if_pos rfl).trans hfound

/-- **Refreshes lose no sequence update**, in a run without an update between the read of a refresh
and its rotation. -/
theorem refresh_keeps_updates (hr : Run auth.SessionStep { shared := s } trace t) {key : String}
    {record : SessionRecord} (hstart : s.store.sessions.lookup key = some record)
    (hsteady : Steady trace) :
    ∃ stored, t.shared.store.sessions.lookup
        (Chain.after ⟨key, record.lastClientSequence⟩ trace).key = some stored ∧
      stored.lastClientSequence = (Chain.after ⟨key, record.lastClientSequence⟩ trace).largest := by
  induction hr with
  | nil => exact ⟨record, hstart, rfl⟩
  | @snoc trace t u event hr hs ih =>
    rw [Chain.after_snoc]
    refine holding_step (ih hsteady.init) hs ?_ ?_
    · rintro id env current replacement now rfl stored hstored
      obtain ⟨read, hreads, hcopy⟩ := rotation_run (hr.snoc hs) rfl
      have hsame := hsteady.rotation trace _ [] rfl id env current replacement now rfl read stored
        hreads hstored
      exact hcopy.trans hsame.symm
    · rintro id env other expected replacement rfl
      exact hsteady.update _ (List.mem_append_right _ (List.mem_singleton.mpr rfl)) id env other
        expected replacement rfl

/-- Entry `k` of the trace is steady. -/
def steadyAt (trace : SessionTrace) (k : Nat) : Bool :=
  match (trace.drop k).head? with
  | none => true
  | some e =>
    match e.label with
    | .made id _ (.store (.rotateSession current _ _)) .ok =>
      ((trace.take k).filterMap fun e' => readBy id e'.label).all fun read =>
        (e.before.shared.store.sessions.lookup current).all fun stored =>
          stored.lastClientSequence == read.lastClientSequence
    | .made _ _ (.store (.updateSessionSequence _ expected _)) .ok => decide (expected + 1 < 2 ^ 64)
    | _ => true

theorem steady_of_check (h : ∀ k < trace.length, steadyAt trace k = true) : Steady trace := by
  have hat : ∀ before e after, trace = before ++ e :: after → steadyAt trace before.length = true ∧
      trace.take before.length = before ∧ (trace.drop before.length).head? = some e := by
    rintro before e after rfl
    refine ⟨h _ (by simp), by simp, by simp⟩
  refine ⟨?_, ?_⟩
  · intro before e after hsplit id env current replacement now hlabel read stored hreads hstored
    obtain ⟨hcheck, htake, hhead⟩ := hat before e after hsplit
    obtain ⟨e', he', hread⟩ := hreads
    rw [steadyAt, hhead, htake] at hcheck
    simp only [hlabel] at hcheck
    have hall := List.all_eq_true.mp hcheck read (List.mem_filterMap.mpr ⟨e', he', hread⟩)
    rw [hstored, Option.all_some] at hall
    exact beq_iff_eq.mp hall
  · intro e he id env key expected replacement hlabel
    obtain ⟨before, after, hsplit⟩ := List.append_of_mem he
    obtain ⟨hcheck, -, hhead⟩ := hat before e after hsplit
    rw [steadyAt, hhead] at hcheck
    simp only [hlabel] at hcheck
    exact of_decide_eq_true hcheck

/-- User 1 is logged in with token `t1`. -/
def loggedIn : Accounts where
  store :=
    { nextUserId := 2
      users := (∅ : Dict Nat UserRecord).insert 1 { id := 1, username := "alice_1" }
      usernames := (∅ : Dict String Nat).insert "alice_1" 1
      sessions := (∅ : Dict String SessionRecord).insert "token:t1"
        { userId := 1, tokenHash := "token:t1", expiresAtUnixMs := 61000 } }
  issued := ["t1"]

/-- An update, and then a refresh. -/
theorem refresh_keeps_updates_inOrder : ∃ (trace : SessionTrace) (t : SessionThreads),
    Run markingService.SessionStep { shared := loggedIn } trace t ∧
      (Chain.after ⟨"token:t1", 0⟩ trace) = ⟨"token:t2", 1⟩ ∧
      ∃ stored, t.shared.store.sessions.lookup "token:t2" = some stored ∧
        stored.lastClientSequence = 1 := by
  have hcheck : (replay (Threads.play markingService.sessionProgram Accounts.exec)
      { shared := loggedIn }
      [.begin (.updateSessionSequence "token:t1" 0 1), .advance 0 {}, .advance 0 {},
        .begin (.auth (.refresh "t1" 2000)), .advance 0 {}, .advance 0 {},
        .advance 0 { token := "t2" }, .advance 0 {}, .advance 0 {}]).any
      (fun run : SessionTrace × SessionThreads =>
        decide (Chain.after ⟨"token:t1", 0⟩ run.1 = ⟨"token:t2", 1⟩) &&
        (List.range run.1.length).all (steadyAt run.1)) = true := by
    decide +kernel
  obtain ⟨⟨trace, t⟩, hrun, hfacts⟩ := (Option.any_eq_true _ _).mp hcheck
  simp only [Bool.and_eq_true, decide_eq_true_eq, List.all_eq_true, List.mem_range] at hfacts
  obtain ⟨hchain, hsteady⟩ := hfacts
  have hr := replay_run Threads.play_step hrun
  have hstart : loggedIn.store.sessions.lookup "token:t1" =
      some { userId := 1, tokenHash := "token:t1", expiresAtUnixMs := 61000 } := rfl
  obtain ⟨stored, hstored, hsequence⟩ := refresh_keeps_updates hr hstart (steady_of_check hsteady)
  rw [hchain] at hstored hsequence
  exact ⟨trace, t, hr, hchain, stored, hstored, hsequence⟩

/-- An update between the read of a refresh and its rotation is lost. -/
theorem update_lost : ∃ (trace : SessionTrace) (t : SessionThreads),
    Run markingService.SessionStep { shared := loggedIn } trace t ∧
      (Chain.after ⟨"token:t1", 0⟩ trace) = ⟨"token:t2", 1⟩ ∧
      ∃ stored, t.shared.store.sessions.lookup "token:t2" = some stored ∧
        stored.lastClientSequence = 0 := by
  have hcheck : (replay (Threads.play markingService.sessionProgram Accounts.exec)
      { shared := loggedIn }
      [.begin (.auth (.refresh "t1" 2000)), .advance 0 {},
        .begin (.updateSessionSequence "token:t1" 0 1), .advance 1 {}, .advance 1 {},
        .advance 0 {}, .advance 0 { token := "t2" }, .advance 0 {}, .advance 0 {}]).any
      (fun run : SessionTrace × SessionThreads =>
        decide (Chain.after ⟨"token:t1", 0⟩ run.1 = ⟨"token:t2", 1⟩) &&
        (run.2.shared.store.sessions.lookup "token:t2").any fun stored =>
          stored.lastClientSequence == 0) = true := by
    decide +kernel
  obtain ⟨⟨trace, t⟩, hrun, hfacts⟩ := (Option.any_eq_true _ _).mp hcheck
  simp only [Bool.and_eq_true, decide_eq_true_eq] at hfacts
  obtain ⟨stored, hstored, hsequence⟩ := (Option.any_eq_true _ _).mp hfacts.2
  exact ⟨trace, t, replay_run Threads.play_step hrun, hfacts.1, stored, hstored,
    beq_iff_eq.mp hsequence⟩

end AuthService

end PokerServer

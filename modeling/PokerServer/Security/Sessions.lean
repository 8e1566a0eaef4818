import PokerServer.Security.AuthService

/-!
# Session tokens

A run of the authentication service: calls with their results, one after another. `Effect` says once
what a call does to the sessions. What a run has promised is read off its trace: the tokens that it
returned (`issues`) and took back (`ends`), and from which login a token descends (`rootOf`).

`tokens_live_as_long_as_they_should` puts together what `authenticate` answers after a run.
-/

namespace PokerServer

/-- A call with its result. -/
abbrev AuthEvent := (call : AuthCall) × call.Res

def AuthService.Performs (auth : AuthService) (s : Accounts) (event : AuthEvent) (s' : Accounts) :
    Prop :=
  ∃ env, (auth.program event.1).run (Accounts.exec env) s = some (event.2, s')

abbrev AuthTrace := List (Step Accounts AuthEvent)

namespace AuthService

open Script

/-! ## What a trace says -/

/-- The session of a successful login or refresh, with its token. -/
def issues : AuthEvent → Option AuthenticatedSession
  | ⟨.login .., result⟩ => result.toOption
  | ⟨.refresh .., result⟩ => result.toOption
  | _ => none

/-- The token of a successful refresh or logout. -/
def ends : AuthEvent → Option String
  | ⟨.refresh rawToken _, result⟩ => if result.toOption.isSome then some rawToken else none
  | ⟨.logout rawToken, error⟩ => if error = .ok then some rawToken else none
  | _ => none

/-- The session was issued, and its token has not been refreshed or logged out since. -/
def Valid (trace : AuthTrace) (session : AuthenticatedSession) : Prop :=
  ∃ early e late, trace = early ++ e :: late ∧ issues e.label = some session ∧
    ∀ e' ∈ late, ends e'.label ≠ some session.rawToken

/-- The login at the start of the refresh chain of each token, as far as the trace goes. -/
def noteRoot (roots : String → Option AuthenticatedSession) (event : AuthEvent) :
    String → Option AuthenticatedSession :=
  match event with
  | ⟨.login .., result⟩ =>
    match result.toOption with
    | none => roots
    | some session => Function.update roots session.rawToken (some session)
  | ⟨.refresh rawToken _, result⟩ =>
    match result.toOption with
    | none => roots
    | some session => Function.update roots session.rawToken (roots rawToken)
  | _ => roots

def rootOf (trace : AuthTrace) : String → Option AuthenticatedSession :=
  trace.foldl (fun roots e => noteRoot roots e.label) fun _ => none

/-! ## What a call does to the sessions -/

variable {auth : AuthService} {s s' : Accounts} {env : AuthEnv}

/-- The record that `openSession` and `rotate` write. -/
def record (auth : AuthService) (session : AuthenticatedSession) : SessionRecord :=
  { userId := session.userId
    tokenHash := auth.crypto.hashSessionToken session.rawToken
    expiresAtUnixMs := session.expiresAtUnixMs
    lastClientSequence := session.lastClientSequence }

/-- The session belongs to a token that the call has generated. -/
def Generated (s s' : Accounts) (session : AuthenticatedSession) : Prop :=
  session.rawToken ≠ "" ∧ session.rawToken ∉ s.issued ∧ s'.issued = session.rawToken :: s.issued

inductive Effect (auth : AuthService) (s : Accounts) : AuthEvent → Accounts → Prop
  | quiet {event : AuthEvent} {s' : Accounts} (same : s'.store.sessions = s.store.sessions)
      (grows : s.issued ⊆ s'.issued) (issued : issues event = none) (ended : ends event = none) :
      Effect auth s event s'
  | opened {username password : String} {now : Int} {result : AuthResult AuthenticatedSession}
      {session : AuthenticatedSession} {s' : Accounts} (ok : result.toOption = some session)
      (generated : Generated s s' session)
      (free : s.store.sessions.lookup (auth.crypto.hashSessionToken session.rawToken) = none)
      (stored : s'.store.sessions = s.store.sessions.insert
        (auth.crypto.hashSessionToken session.rawToken) (auth.record session)) :
      Effect auth s ⟨.login username password now, result⟩ s'
  | rotated {rawToken : String} {now : Int} {result : AuthResult AuthenticatedSession}
      {current : SessionRecord} {session : AuthenticatedSession} {s' : Accounts}
      (ok : result.toOption = some session) (generated : Generated s s' session)
      (found : s.store.sessions.lookup (auth.crypto.hashSessionToken rawToken) = some current)
      (live : current.revoked = false) (owner : current.userId = session.userId)
      (free : session.rawToken ≠ rawToken →
        s.store.sessions.lookup (auth.crypto.hashSessionToken session.rawToken) = none)
      (stored : s'.store.sessions =
        if session.rawToken ≠ rawToken then
          (s.store.sessions.insert (auth.crypto.hashSessionToken session.rawToken)
            (auth.record session)).erase (auth.crypto.hashSessionToken rawToken)
        else s.store.sessions.insert (auth.crypto.hashSessionToken session.rawToken)
          (auth.record session)) :
      Effect auth s ⟨.refresh rawToken now, result⟩ s'
  | revoked {rawToken : String} {current : SessionRecord} {s' : Accounts}
      (found : s.store.sessions.lookup (auth.crypto.hashSessionToken rawToken) = some current)
      (same : s'.issued = s.issued)
      (stored : s'.store.sessions = s.store.sessions.insert (auth.crypto.hashSessionToken rawToken)
        { current with revoked := true }) :
      Effect auth s ⟨.logout rawToken, .ok⟩ s'

theorem openSession_run {user : UserRecord} {now : Int} {result : AuthResult AuthenticatedSession}
    (h : (auth.openSession user now).run (Accounts.exec env) s = some (result, s')) :
    (result.toOption = none ∧ s'.store = s.store ∧ s.issued ⊆ s'.issued) ∨
      ∃ session, result.toOption = some session ∧ Generated s s' session ∧
        s.store.sessions.lookup (auth.crypto.hashSessionToken session.rawToken) = none ∧
        s'.store.sessions = s.store.sessions.insert
          (auth.crypto.hashSessionToken session.rawToken) (auth.record session) := by
  obtain ⟨token, u, htoken, hrest⟩ := run_perform_bind.mp h
  obtain ⟨hne, hfresh, rfl⟩ := Accounts.exec_token htoken
  obtain ⟨stored, v, hstore, hlast⟩ := run_perform_bind.mp hrest
  obtain ⟨store', hperform, rfl⟩ := Accounts.exec_store hstore
  have hcall := Option.some.inj hperform
  by_cases hok : stored = .ok
  · subst hok
    obtain ⟨rfl, rfl⟩ := run_pure.mp hlast
    obtain ⟨-, hfree, rfl⟩ := InMemoryAccountStore.storeSession_ok hcall
    exact Or.inr ⟨_, rfl, ⟨hne, hfresh, rfl⟩, hfree, rfl⟩
  · rw [if_pos hok] at hlast
    obtain ⟨rfl, rfl⟩ := run_pure.mp hlast
    refine Or.inl ⟨rfl, InMemoryAccountStore.storeSession_refused hcall hok, ?_⟩
    exact List.subset_cons_self _ _

theorem login_run {username password : String} {now : Int}
    {result : AuthResult AuthenticatedSession}
    (h : (auth.login username password now).run (Accounts.exec env) s = some (result, s')) :
    Effect auth s ⟨.login username password now, result⟩ s' := by
  obtain ⟨found, u, hfound, hrest⟩ := run_perform_bind.mp h
  obtain ⟨store', hperform, rfl⟩ := Accounts.exec_store hfound
  obtain ⟨answer, -, heq⟩ := Option.map_eq_some_iff.mp hperform
  obtain ⟨-, rfl⟩ := Prod.mk.inj heq
  have hquiet {r : AuthResult AuthenticatedSession} (hnone : r.toOption = none)
      (hrun : (pure r : AuthScript _).run (Accounts.exec env) s = some (result, s')) :
      Effect auth s ⟨.login username password now, result⟩ s' := by
    obtain ⟨rfl, rfl⟩ := run_pure.mp hrun
    exact .quiet rfl (List.Subset.refl _) hnone rfl
  simp only at hrest
  split at hrest
  · split at hrest
    · exact hquiet rfl hrest
    rcases openSession_run hrest with ⟨hnone, hstore, hgrows⟩ | ⟨session, hok, hgen, hfree, hstored⟩
    · exact .quiet (congrArg InMemoryAccountStore.sessions hstore) hgrows hnone rfl
    · exact .opened hok hgen hfree hstored
  · refine hquiet ?_ hrest
    split <;> rfl

/-- **What `authenticate` does**: it always returns, and succeeds on the token of a session that is
neither revoked nor expired. -/
theorem authenticate_spec (auth : AuthService) (henrolled : s.store.Enrolled) (rawToken : String)
    (now : Int) :
    ∃ result, (∀ env, (auth.authenticate rawToken now).run (Accounts.exec env) s =
        some (result, s)) ∧
      ((result.toOption = none ∧ (rawToken = "" ∨ ∀ record : SessionRecord,
          s.store.sessions.lookup (auth.crypto.hashSessionToken rawToken) = some record →
            ¬ (record.revoked = false ∧ now < record.expiresAtUnixMs))) ∨
        ∃ (record : SessionRecord) (session : AuthenticatedSession), rawToken ≠ "" ∧
          s.store.sessions.lookup (auth.crypto.hashSessionToken rawToken) = some record ∧
          record.revoked = false ∧ now < record.expiresAtUnixMs ∧
          result.toOption = some session ∧ session.userId = record.userId) := by
  by_cases hempty : rawToken = ""
  · refine ⟨{ error := .invalidSession, message := "session token is required" }, fun env => ?_,
      Or.inl ⟨rfl, Or.inl hempty⟩⟩
    rw [authenticate, if_pos hempty]
    rfl
  cases hfound : (s.store.findSession (auth.crypto.hashSessionToken rawToken) now).toOption with
  | none =>
    refine ⟨{
      error :=
        if (s.store.findSession (auth.crypto.hashSessionToken rawToken) now).error = .unavailable
        then .storageUnavailable else .invalidSession
      message := (s.store.findSession (auth.crypto.hashSessionToken rawToken) now).message },
      fun env => ?_, Or.inl ⟨?_, Or.inr fun record hrecord hlive => ?_⟩⟩
    · rw [authenticate, if_neg hempty, ask, run_perform_bind]
      refine ⟨_, s, rfl, ?_⟩
      rw [hfound]
      rfl
    · simp only [AuthResult.toOption]
      split <;> rfl
    · rw [InMemoryAccountStore.findSession_eq_some.mpr ⟨hrecord, hlive⟩] at hfound
      exact absurd hfound (by simp)
  | some record =>
    obtain ⟨hrecord, hrevoked, hnow⟩ := InMemoryAccountStore.findSession_eq_some.mp hfound
    obtain ⟨user, huser⟩ := henrolled.session _ _ hrecord
    obtain ⟨hid, henabled⟩ := henrolled.user _ _ huser
    refine ⟨.success {
      userId := user.id
      username := user.username
      walletBalance := user.walletBalance
      expiresAtUnixMs := record.expiresAtUnixMs
      lastClientSequence := record.lastClientSequence }, fun env => ?_,
      Or.inr ⟨record, _, hempty, hrecord, hrevoked, hnow, rfl, hid⟩⟩
    rw [authenticate, if_neg hempty, ask, run_perform_bind]
    refine ⟨_, s, rfl, ?_⟩
    rw [hfound]
    refine run_perform_bind.mpr ⟨_, s, rfl, ?_⟩
    rw [InMemoryAccountStore.findUserById_eq_some.mpr huser, Option.filter_some, henabled]
    rfl

theorem rotate_run {rawToken : String} {authenticated : AuthenticatedSession} {now : Int}
    {result : AuthResult AuthenticatedSession} {current : SessionRecord}
    (hfound : s.store.sessions.lookup (auth.crypto.hashSessionToken rawToken) = some current)
    (hlive : current.revoked = false) (howner : authenticated.userId = current.userId)
    (h : (auth.rotate rawToken authenticated now).run (Accounts.exec env) s = some (result, s')) :
    Effect auth s ⟨.refresh rawToken now, result⟩ s' := by
  obtain ⟨token, u, htoken, hrest⟩ := run_perform_bind.mp h
  obtain ⟨hne, hfresh, rfl⟩ := Accounts.exec_token htoken
  obtain ⟨rotated, v, hrotate, hlast⟩ := run_perform_bind.mp hrest
  obtain ⟨store', hperform, rfl⟩ := Accounts.exec_store hrotate
  have hcall := Option.some.inj hperform
  by_cases hok : rotated = .ok
  · subst hok
    obtain ⟨rfl, rfl⟩ := run_pure.mp hlast
    obtain ⟨record, hrecord, -, -, -, hfree, rfl⟩ := InMemoryAccountStore.rotateSession_ok hcall
    have hhash : ∀ {t t' : String},
        auth.crypto.hashSessionToken t ≠ auth.crypto.hashSessionToken t' ↔ t ≠ t' :=
      auth.crypto.hash_injective.ne_iff
    refine .rotated rfl ⟨hne, hfresh, rfl⟩ hfound hlive howner.symm
      (fun hdifferent => hfree (hhash.mpr hdifferent)) ?_
    simp only [hhash]
    rfl
  · rw [if_pos hok] at hlast
    obtain ⟨rfl, rfl⟩ := run_pure.mp hlast
    have hnone : ∀ error message, error ≠ AuthError.ok → AuthResult.toOption
        ({ error, message } : AuthResult AuthenticatedSession) = none :=
      fun error message hne => if_neg hne
    have herror : (if rotated = .unavailable then AuthError.storageUnavailable
        else AuthError.invalidSession) ≠ .ok := by
      split <;> simp
    refine .quiet ?_ (List.subset_cons_self _ _) (hnone _ _ herror) ?_
    · exact congrArg InMemoryAccountStore.sessions
        (InMemoryAccountStore.rotateSession_refused hcall hok)
    · rw [ends, hnone _ _ herror]
      rfl

/-- **What a call does to the sessions.** -/
theorem effect_of_performs {event : AuthEvent} (henrolled : s.store.Enrolled)
    (h : auth.Performs s event s') : Effect auth s event s' := by
  obtain ⟨call, result⟩ := event
  obtain ⟨env, h⟩ := h
  cases call with
  | registerUser username password =>
    simp only [program, registerUser] at h
    split at h
    · obtain ⟨rfl, rfl⟩ := run_pure.mp h
      exact .quiet rfl (List.Subset.refl _) rfl rfl
    split at h
    · obtain ⟨rfl, rfl⟩ := run_pure.mp h
      exact .quiet rfl (List.Subset.refl _) rfl rfl
    obtain ⟨hash, u, hhash, hrest⟩ := run_perform_bind.mp h
    obtain rfl := Accounts.exec_hash hhash
    obtain ⟨created, v, hcreate, hlast⟩ := run_perform_bind.mp hrest
    obtain ⟨store', hperform, rfl⟩ := Accounts.exec_store hcreate
    have hsessions : store'.sessions = u.store.sessions := by
      have hcall := Option.some.inj hperform
      rw [← InMemoryAccountStore.createUser_sessions u.store username hash auth.initialChips, hcall]
    have hend : s' = { u with store := store' } := by
      split at hlast
      · exact (run_pure.mp hlast).2.symm
      · split at hlast <;> exact (run_pure.mp hlast).2.symm
    rw [hend]
    exact .quiet hsessions (List.Subset.refl _) rfl rfl
  | login username password now => exact login_run h
  | authenticate rawToken now =>
    obtain ⟨result', hrun, -⟩ := auth.authenticate_spec henrolled rawToken now
    obtain ⟨rfl, rfl⟩ := Prod.mk.inj (Option.some.inj ((hrun env).symm.trans h))
    exact .quiet rfl (List.Subset.refl _) rfl rfl
  | refresh rawToken now =>
    obtain ⟨authenticated, u, hauth, hrest⟩ := run_bind.mp h
    obtain ⟨result', hrun, hcases⟩ := auth.authenticate_spec henrolled rawToken now
    obtain ⟨rfl, rfl⟩ := Prod.mk.inj (Option.some.inj ((hrun env).symm.trans hauth))
    rcases hcases with ⟨hnone, -⟩ | ⟨current, session, -, hfound, hlive, -, hok, howner⟩
    · rw [hnone] at hrest
      obtain ⟨rfl, rfl⟩ := run_pure.mp hrest
      refine .quiet rfl (List.Subset.refl _) hnone ?_
      rw [ends, hnone]
      rfl
    · rw [hok] at hrest
      exact rotate_run hfound hlive howner hrest
  | logout rawToken =>
    simp only [program, logout] at h
    split at h
    · obtain ⟨rfl, rfl⟩ := run_pure.mp h
      exact .quiet rfl (List.Subset.refl _) rfl rfl
    obtain ⟨error, u, hrevoke, hlast⟩ := run_perform_bind.mp h
    obtain ⟨store', hperform, rfl⟩ := Accounts.exec_store hrevoke
    have hcall := Option.some.inj hperform
    by_cases hok : error = .ok
    · subst hok
      obtain ⟨rfl, rfl⟩ := run_pure.mp hlast
      obtain ⟨current, hcurrent, rfl⟩ := InMemoryAccountStore.revokeSession_ok hcall
      exact .revoked hcurrent rfl rfl
    · rw [if_neg hok] at hlast
      obtain ⟨rfl, rfl⟩ := run_pure.mp hlast
      refine .quiet ?_ (List.Subset.refl _) rfl ?_
      · exact congrArg InMemoryAccountStore.sessions
          (InMemoryAccountStore.revokeSession_refused hcall hok)
      · unfold ends
        simp only
        split <;> simp

/-! ## One more event -/

variable {trace : AuthTrace} {e : Step Accounts AuthEvent} {session : AuthenticatedSession}

theorem valid_snoc : Valid (trace ++ [e]) session ↔
    issues e.label = some session ∨
      (Valid trace session ∧ ends e.label ≠ some session.rawToken) := by
  constructor
  · rintro ⟨early, e', late, heq, hissues, hends⟩
    rcases List.eq_nil_or_concat' late with rfl | ⟨late, last, rfl⟩
    · obtain ⟨-, he⟩ := List.append_inj' heq rfl
      obtain rfl := (List.cons.inj he).1
      exact Or.inl hissues
    · rw [← List.cons_append, ← List.append_assoc] at heq
      obtain ⟨rfl, he⟩ := List.append_inj' heq rfl
      obtain rfl := (List.cons.inj he).1
      exact Or.inr ⟨⟨early, e', late, rfl, hissues, fun x hx =>
        hends x (List.mem_append_left _ hx)⟩, hends _ (by simp)⟩
  · rintro (hissues | ⟨⟨early, e', late, rfl, hissues, hends⟩, hlast⟩)
    · exact ⟨trace, e, [], rfl, hissues, fun x hx => absurd hx (by simp)⟩
    · refine ⟨early, e', late ++ [e], by simp, hissues, fun x hx => ?_⟩
      rcases List.mem_append.mp hx with hx | hx
      · exact hends x hx
      · rwa [List.mem_singleton.mp hx]

theorem rootOf_snoc : rootOf (trace ++ [e]) = noteRoot (rootOf trace) e.label := by
  unfold rootOf
  rw [List.foldl_append]
  rfl

theorem noteRoot_quiet {roots : String → Option AuthenticatedSession} {event : AuthEvent}
    (h : issues event = none) : noteRoot roots event = roots := by
  obtain ⟨call, result⟩ := event
  cases call with
  | login => simp only [issues] at h; simp only [noteRoot, h]
  | refresh => simp only [issues] at h; simp only [noteRoot, h]
  | _ => rfl

/-! ## What holds after every run -/

/-- The sessions of the store are the valid sessions of the trace, and of each chain of refreshes
there is at most one. -/
structure Tracked (auth : AuthService) (trace : AuthTrace) (s : Accounts) : Prop where
  enrolled : s.store.Enrolled
  stored : ∀ session, Valid trace session → ∃ record : SessionRecord,
    s.store.sessions.lookup (auth.crypto.hashSessionToken session.rawToken) = some record ∧
      record.revoked = false ∧ record.userId = session.userId ∧
      record.expiresAtUnixMs = session.expiresAtUnixMs
  valid : ∀ key (record : SessionRecord), s.store.sessions.lookup key = some record →
    record.revoked = false → ∃ session, Valid trace session ∧
      key = auth.crypto.hashSessionToken session.rawToken
  token : ∀ session, Valid trace session → session.rawToken ∈ s.issued ∧ session.rawToken ≠ ""
  rooted : ∀ session, Valid trace session → ∃ root,
    rootOf trace session.rawToken = some root ∧ root.userId = session.userId
  root : ∀ token root, rootOf trace token = some root → token ∈ s.issued ∧ root.rawToken ∈ s.issued
  unique : ∀ session session', Valid trace session → Valid trace session' →
    rootOf trace session.rawToken = rootOf trace session'.rawToken → session = session'

theorem tracked_empty : Tracked auth [] {} := by
  have hnone : ∀ session, ¬ Valid [] session := by
    rintro session ⟨early, e, late, heq, -⟩
    exact absurd heq (by simp)
  exact ⟨InMemoryAccountStore.enrolled_empty, fun session h => absurd h (hnone session), by simp,
    fun session h => absurd h (hnone session), fun session h => absurd h (hnone session),
    fun token root h => absurd h (by simp [rootOf]), fun session _ h => absurd h (hnone session)⟩

theorem enrolled_performs {event : AuthEvent} (henrolled : s.store.Enrolled)
    (h : auth.Performs s event s') : s'.store.Enrolled := by
  obtain ⟨env, h⟩ := h
  refine run_invariant (I := fun s : Accounts => s.store.Enrolled) (fun s op ans t hs hexec => ?_) h
    henrolled
  cases op with
  | store op =>
    obtain ⟨store', hperform, rfl⟩ := Accounts.exec_store hexec
    exact hs.perform hperform
  | hashPassword password => exact Accounts.exec_hash hexec ▸ hs
  | generateSessionToken =>
    obtain ⟨-, -, rfl⟩ := Accounts.exec_token hexec
    exact hs

namespace Tracked

/-- Nothing is issued or taken back. -/
theorem quiet (h : Tracked auth trace s) (henrolled : s'.store.Enrolled)
    (hsame : s'.store.sessions = s.store.sessions) (hgrows : s.issued ⊆ s'.issued)
    (hissues : issues e.label = none) (hends : ends e.label = none) :
    Tracked auth (trace ++ [e]) s' := by
  have hvalid : ∀ session, Valid (trace ++ [e]) session ↔ Valid trace session := by
    intro session
    rw [valid_snoc, hissues, hends]
    simp
  have hroot : rootOf (trace ++ [e]) = rootOf trace := by rw [rootOf_snoc, noteRoot_quiet hissues]
  refine ⟨henrolled, ?_, ?_, ?_, ?_, ?_, ?_⟩
  · intro session hs
    rw [hsame]
    exact h.stored session ((hvalid session).mp hs)
  · intro key record hrecord hlive
    rw [hsame] at hrecord
    obtain ⟨session, hs, hkey⟩ := h.valid key record hrecord hlive
    exact ⟨session, (hvalid session).mpr hs, hkey⟩
  · intro session hs
    obtain ⟨hmem, hne⟩ := h.token session ((hvalid session).mp hs)
    exact ⟨hgrows hmem, hne⟩
  · intro session hs
    rw [hroot]
    exact h.rooted session ((hvalid session).mp hs)
  · intro token root hr
    rw [hroot] at hr
    obtain ⟨htoken, hmem⟩ := h.root token root hr
    exact ⟨hgrows htoken, hgrows hmem⟩
  · intro session session' hs hs' heq
    rw [hroot] at heq
    exact h.unique session session' ((hvalid session).mp hs) ((hvalid session').mp hs') heq

/-- A session is issued, with a new token, and the session of `ends` taken back, if there is one. -/
theorem issue (h : Tracked auth trace s) (henrolled : s'.store.Enrolled)
    (hissues : issues e.label = some session) (hgen : Generated s s' session)
    (hself : s'.store.sessions.lookup (auth.crypto.hashSessionToken session.rawToken) =
      some (auth.record session))
    (hother : ∀ key, key ≠ auth.crypto.hashSessionToken session.rawToken →
      s'.store.sessions.lookup key =
        if (ends e.label).map auth.crypto.hashSessionToken = some key then none
        else s.store.sessions.lookup key)
    (root : AuthenticatedSession)
    (hroots : rootOf (trace ++ [e]) = Function.update (rootOf trace) session.rawToken (some root))
    (howner : root.userId = session.userId) (hroot : root.rawToken ∈ s'.issued)
    (hchain : ∀ other, Valid trace other → ends e.label ≠ some other.rawToken →
      rootOf trace other.rawToken ≠ some root) :
    Tracked auth (trace ++ [e]) s' := by
  obtain ⟨hne, hfresh, hissued⟩ := hgen
  have hvalid : ∀ other, Valid (trace ++ [e]) other ↔
      session = other ∨ (Valid trace other ∧ ends e.label ≠ some other.rawToken) := by
    intro other
    rw [valid_snoc, hissues, Option.some.injEq]
  have hgrows : ∀ token ∈ s.issued, token ∈ s'.issued := fun token htoken => by
    rw [hissued]
    exact List.mem_cons_of_mem _ htoken
  have hold : ∀ other, Valid trace other → other.rawToken ≠ session.rawToken := by
    intro other hv heq
    exact hfresh (heq ▸ (h.token other hv).1)
  have hkey : ∀ other, Valid trace other → auth.crypto.hashSessionToken other.rawToken ≠
      auth.crypto.hashSessionToken session.rawToken := fun other hv heq =>
    hold other hv (auth.crypto.hash_injective heq)
  have hrootOld : ∀ other, Valid trace other →
      rootOf (trace ++ [e]) other.rawToken = rootOf trace other.rawToken := by
    intro other hv
    rw [hroots, Function.update_of_ne (hold other hv)]
  have hrootNew : rootOf (trace ++ [e]) session.rawToken = some root := by
    rw [hroots, Function.update_self]
  refine ⟨henrolled, ?_, ?_, ?_, ?_, ?_, ?_⟩
  · intro other hv
    rcases (hvalid other).mp hv with rfl | ⟨hv, hends⟩
    · exact ⟨_, hself, rfl, rfl, rfl⟩
    · rw [hother _ (hkey other hv), if_neg]
      · exact h.stored other hv
      · intro heq
        obtain ⟨ended, hended, hhash⟩ := Option.map_eq_some_iff.mp heq
        exact hends (auth.crypto.hash_injective hhash ▸ hended)
  · intro key record hrecord hlive
    by_cases heq : key = auth.crypto.hashSessionToken session.rawToken
    · exact ⟨session, (hvalid session).mpr (Or.inl rfl), heq⟩
    rw [hother key heq] at hrecord
    obtain ⟨hkept, hrecord⟩ := Option.ite_none_left_eq_some.mp hrecord
    obtain ⟨other, hv, rfl⟩ := h.valid key record hrecord hlive
    refine ⟨other, (hvalid other).mpr (Or.inr ⟨hv, fun hended => hkept ?_⟩), rfl⟩
    rw [hended, Option.map_some]
  · intro other hv
    rcases (hvalid other).mp hv with rfl | ⟨hv, -⟩
    · rw [hissued]
      exact ⟨List.mem_cons_self, hne⟩
    · obtain ⟨hmem, hempty⟩ := h.token other hv
      exact ⟨hgrows _ hmem, hempty⟩
  · intro other hv
    rcases (hvalid other).mp hv with rfl | ⟨hv, -⟩
    · exact ⟨root, hrootNew, howner⟩
    · rw [hrootOld other hv]
      exact h.rooted other hv
  · intro token root' hr
    by_cases heq : token = session.rawToken
    · rw [heq, hrootNew, Option.some.injEq] at hr
      rw [heq, ← hr]
      exact ⟨hissued ▸ List.mem_cons_self, hroot⟩
    · rw [hroots, Function.update_of_ne heq] at hr
      obtain ⟨htoken, hmem⟩ := h.root token root' hr
      exact ⟨hgrows _ htoken, hgrows _ hmem⟩
  · intro other other' hv hv' heq
    rcases (hvalid other).mp hv with rfl | ⟨hv, hends⟩ <;>
      rcases (hvalid other').mp hv' with rfl | ⟨hv', hends'⟩
    · rfl
    · rw [hrootNew, hrootOld other' hv'] at heq
      exact absurd heq.symm (hchain other' hv' hends')
    · rw [hrootNew, hrootOld other hv] at heq
      exact absurd heq (hchain other hv hends)
    · rw [hrootOld other hv, hrootOld other' hv'] at heq
      exact h.unique other other' hv hv' heq

/-- A session is revoked. -/
theorem revoke (h : Tracked auth trace s) (henrolled : s'.store.Enrolled) {rawToken : String}
    {current : SessionRecord} (hissues : issues e.label = none)
    (hends : ends e.label = some rawToken)
    (hsame : s'.issued = s.issued)
    (hstored : s'.store.sessions = s.store.sessions.insert (auth.crypto.hashSessionToken rawToken)
      { current with revoked := true }) :
    Tracked auth (trace ++ [e]) s' := by
  have hvalid : ∀ session, Valid (trace ++ [e]) session ↔
      Valid trace session ∧ rawToken ≠ session.rawToken := by
    intro session
    rw [valid_snoc, hissues, hends]
    simp
  have hroot : rootOf (trace ++ [e]) = rootOf trace := by rw [rootOf_snoc, noteRoot_quiet hissues]
  refine ⟨henrolled, ?_, ?_, ?_, ?_, ?_, ?_⟩
  · intro session hs
    obtain ⟨hv, hne⟩ := (hvalid session).mp hs
    rw [hstored, AList.lookup_insert_ne fun heq => hne (auth.crypto.hash_injective heq).symm]
    exact h.stored session hv
  · intro key record hrecord hlive
    rw [hstored] at hrecord
    by_cases heq : key = auth.crypto.hashSessionToken rawToken
    · rw [heq, AList.lookup_insert, Option.some.injEq] at hrecord
      rw [← hrecord] at hlive
      exact absurd hlive (by simp)
    · rw [AList.lookup_insert_ne heq] at hrecord
      obtain ⟨session, hv, rfl⟩ := h.valid key record hrecord hlive
      refine ⟨session, (hvalid session).mpr ⟨hv, ?_⟩, rfl⟩
      rintro rfl
      exact heq rfl
  · intro session hs
    rw [hsame]
    exact h.token session ((hvalid session).mp hs).1
  · intro session hs
    rw [hroot]
    exact h.rooted session ((hvalid session).mp hs).1
  · intro token root hr
    rw [hroot] at hr
    rw [hsame]
    exact h.root token root hr
  · intro session session' hs hs' heq
    rw [hroot] at heq
    exact h.unique session session' ((hvalid session).mp hs).1 ((hvalid session').mp hs').1 heq

/-- **Every call keeps track.** -/
theorem step (h : Tracked auth trace s) {event : AuthEvent} (hs : auth.Performs s event s') :
    Tracked auth (trace ++ [⟨s, event, s'⟩]) s' := by
  have henrolled := enrolled_performs h.enrolled hs
  cases effect_of_performs h.enrolled hs with
  | quiet same grows issued ended => exact h.quiet henrolled same grows issued ended
  | @opened username password now result session s' ok generated free stored =>
    refine h.issue henrolled ok generated ?_ ?_ session ?_ rfl ?_ ?_
    · rw [stored, AList.lookup_insert]
    · intro key hkey
      rw [stored, AList.lookup_insert_ne hkey]
      exact (if_neg (by simp [ends])).symm
    · rw [rootOf_snoc]
      simp only [noteRoot, ok]
    · rw [generated.2.2]
      exact List.mem_cons_self
    · intro other hv _ hroot
      exact generated.2.1 (h.root _ _ hroot).2
  | @rotated rawToken now result current session s' ok generated found live owner free stored =>
    obtain ⟨previous, hv, hhash⟩ := h.valid _ _ found live
    obtain rfl := auth.crypto.hash_injective hhash
    obtain ⟨htoken, -⟩ := h.token previous hv
    have hne : session.rawToken ≠ previous.rawToken := fun heq => generated.2.1 (heq ▸ htoken)
    obtain ⟨record, hrecord, -, huser, -⟩ := h.stored previous hv
    obtain rfl := Option.some.inj (found.symm.trans hrecord)
    obtain ⟨root, hroot, hrootUser⟩ := h.rooted previous hv
    have hends : ends ⟨.refresh previous.rawToken now, result⟩ = some previous.rawToken := by
      rw [ends, ok]
      rfl
    rw [if_pos hne] at stored
    refine h.issue henrolled ok generated ?_ ?_ root ?_ ?_ ?_ ?_
    · rw [stored, AList.lookup_erase_ne (auth.crypto.hash_injective.ne hne), AList.lookup_insert]
    · intro key hkey
      rw [stored, hends, Option.map_some]
      by_cases heq : auth.crypto.hashSessionToken previous.rawToken = key
      · rw [if_pos (congrArg some heq), ← heq, AList.lookup_erase]
      · rw [if_neg fun hsome => heq (Option.some.inj hsome), AList.lookup_erase_ne (Ne.symm heq),
          AList.lookup_insert_ne hkey]
    · rw [rootOf_snoc]
      simp only [noteRoot, ok, hroot]
    · exact hrootUser.trans (huser.symm.trans owner)
    · rw [generated.2.2]
      exact List.mem_cons_of_mem _ (h.root _ _ hroot).2
    · intro other hother hkept hsame
      obtain rfl := h.unique other previous hother hv (hsame.trans hroot.symm)
      exact hkept hends
  | @revoked rawToken current s' found same stored =>
    have hends : ends ⟨.logout rawToken, .ok⟩ = some rawToken := by simp [ends]
    exact h.revoke henrolled rfl hends same stored

end Tracked

theorem tracked_run (hr : Run auth.Performs {} trace s) : Tracked auth trace s := by
  induction hr with
  | nil => exact tracked_empty
  | snoc hr hs ih => exact ih.step hs

/-- **Session tokens live exactly as long as they should.** -/
theorem tokens_live_as_long_as_they_should (hr : Run auth.Performs {} trace s) (rawToken : String)
    (now : Int) :
    ∃ result, (∀ env, (auth.authenticate rawToken now).run (Accounts.exec env) s =
        some (result, s)) ∧
      ((∃ session, result.toOption = some session) ↔
        ∃ issued, Valid trace issued ∧ issued.rawToken = rawToken ∧
          now < issued.expiresAtUnixMs) ∧
      (∀ session, result.toOption = some session →
        ∃ root, rootOf trace rawToken = some root ∧ session.userId = root.userId) ∧
      ∀ issued issued', Valid trace issued → Valid trace issued' →
        rootOf trace issued.rawToken = rootOf trace issued'.rawToken → issued = issued' := by
  have h := tracked_run hr
  obtain ⟨result, hrun, hcases⟩ := auth.authenticate_spec h.enrolled rawToken now
  refine ⟨result, hrun, ?_, ?_, h.unique⟩
  · constructor
    · rintro ⟨session, hok⟩
      rcases hcases with ⟨hnone, -⟩ | ⟨record, session', -, hfound, hlive, hnow, -⟩
      · exact absurd (hnone.symm.trans hok) (by simp)
      · obtain ⟨issued, hv, hhash⟩ := h.valid _ _ hfound hlive
        obtain rfl := auth.crypto.hash_injective hhash
        obtain ⟨record', hrecord, -, -, hexpires⟩ := h.stored issued hv
        obtain rfl := Option.some.inj (hfound.symm.trans hrecord)
        exact ⟨issued, hv, rfl, hexpires ▸ hnow⟩
    · rintro ⟨issued, hv, rfl, hnow⟩
      obtain ⟨record, hrecord, hlive, -, hexpires⟩ := h.stored issued hv
      rcases hcases with ⟨-, hempty | hdead⟩ | ⟨record', session, -, -, -, -, hok, -⟩
      · exact absurd hempty (h.token issued hv).2
      · exact absurd ⟨hlive, hexpires ▸ hnow⟩ (hdead record hrecord)
      · exact ⟨session, hok⟩
  · intro session hok
    rcases hcases with ⟨hnone, -⟩ | ⟨record, session', -, hfound, hlive, -, hok', howner⟩
    · exact absurd (hnone.symm.trans hok) (by simp)
    · obtain rfl := Option.some.inj (hok'.symm.trans hok)
      obtain ⟨issued, hv, hhash⟩ := h.valid _ _ hfound hlive
      obtain rfl := auth.crypto.hash_injective hhash
      obtain ⟨record', hrecord, -, huser, -⟩ := h.stored issued hv
      obtain rfl := Option.some.inj (hfound.symm.trans hrecord)
      obtain ⟨root, hroot, hrootUser⟩ := h.rooted issued hv
      exact ⟨root, hroot, howner.trans (huser.trans hrootUser.symm)⟩

/-- A call that is given what the environment answers. -/
def act (auth : AuthService) (s : Accounts) (move : AuthEnv × AuthCall) :
    Option (AuthEvent × Accounts) :=
  ((auth.program move.2).run (Accounts.exec move.1) s).map fun r => (⟨move.2, r.1⟩, r.2)

theorem act_performs (s : Accounts) (move : AuthEnv × AuthCall) (event : AuthEvent) (s' : Accounts)
    (h : auth.act s move = some (event, s')) : auth.Performs s event s' := by
  obtain ⟨⟨result, s''⟩, hrun, heq⟩ := Option.map_eq_some_iff.mp h
  obtain ⟨rfl, rfl⟩ := Prod.mk.inj heq
  exact ⟨move.1, hrun⟩

/-- Passwords and tokens with a mark in front of them. -/
def markingCrypto : CryptoProvider where
  verifyPassword password encodedHash := decide (encodedHash = "password:" ++ password)
  hashSessionToken token := "token:" ++ token
  hash_injective _ _ h := String.append_right_inj _ |>.mp h

def markingService : AuthService where
  crypto := markingCrypto
  sessionTtlSeconds := 60
  dummyPasswordHash := "-"

/-- A user registers, logs in and refreshes the token. -/
theorem tokens_live_as_long_as_they_should_refreshed : ∃ (trace : AuthTrace) (s : Accounts),
    Run markingService.Performs {} trace s ∧ trace.length = 3 ∧ ∃ result session root,
      (∀ env, (markingService.authenticate "t2" 61000).run (Accounts.exec env) s =
        some (result, s)) ∧
      result.toOption = some session ∧ rootOf trace "t2" = some root ∧ root.rawToken = "t1" ∧
      session.userId = root.userId := by
  have hcheck : (replay markingService.act {}
      [({ passwordHash := "password:correct-horse" }, .registerUser "alice_1" "correct-horse"),
        ({ token := "t1" }, .login "alice_1" "correct-horse" 1000),
        ({ token := "t2" }, .refresh "t1" 2000)]).any (fun run : AuthTrace × Accounts =>
      decide (run.1.length = 3) &&
      ((run.1.map fun e => issues e.label)[2]?.join.any fun session =>
        session.rawToken == "t2" && session.expiresAtUnixMs == 62000) &&
      (rootOf run.1 "t2").any fun root => root.rawToken == "t1") = true := by
    decide +kernel
  obtain ⟨⟨calls, s⟩, hrun, hfacts⟩ := (Option.any_eq_true _ _).mp hcheck
  simp only [Bool.and_eq_true, decide_eq_true_eq] at hfacts
  obtain ⟨⟨hlength, hissued⟩, hroot⟩ := hfacts
  obtain ⟨issued, hissues, htoken⟩ := (Option.any_eq_true _ _).mp hissued
  obtain ⟨root, hrootOf, hfirst⟩ := (Option.any_eq_true _ _).mp hroot
  simp only [Bool.and_eq_true, beq_iff_eq] at htoken hfirst
  have hr := replay_run act_performs hrun
  have hvalid : Valid calls issued := by
    have h2 : 2 < calls.length := by omega
    rw [List.getElem?_map, List.getElem?_eq_getElem h2, Option.map_some] at hissues
    have hsplit : calls = calls.take 2 ++ [calls[2]] := by
      rw [← List.take_succ_eq_append_getElem h2, List.take_of_length_le (by omega)]
    rw [hsplit]
    exact valid_snoc.mpr (Or.inl hissues)
  obtain ⟨result, hauth, hiff, hroots, -⟩ := tokens_live_as_long_as_they_should hr "t2" 61000
  obtain ⟨session, hok⟩ := hiff.mpr ⟨issued, hvalid, htoken.1, by rw [htoken.2]; decide⟩
  obtain ⟨root', hroot', hsame⟩ := hroots session hok
  obtain rfl := Option.some.inj (hrootOf.symm.trans hroot')
  exact ⟨calls, s, hr, hlength, result, session, root, hauth, hok, hrootOf, hfirst, hsame⟩

end AuthService

end PokerServer

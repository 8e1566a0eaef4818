import PokerServer.Server.Authentications
import PokerServer.Server.TokenOwners

/-!
# Commands run for users who proved themselves

A connection speaks for a user only after a login on this very connection with the password of the
user, or after a token of the user was presented on it (`Proved`), and a command runs only for the
user that the connection speaks for, in a session that has not expired. This holds whatever the
requests of this and of other connections do between the calls.

`proofs` is the typestate that remembers all that a request has done.
-/

namespace PokerServer

/-- A request, and the calls it has made. -/
structure Did where
  call : ConnectionCall
  made : List ((op : ConnectionOp) × op.Ans) := []

namespace Did

/-- `q` comes after `p`. -/
def Before (p q : Did) : Prop := q.call = p.call ∧ ∀ m ∈ p.made, m ∈ q.made

def add (p : Did) (op : ConnectionOp) (ans : op.Ans) : Did :=
  { p with made := p.made ++ [⟨op, ans⟩] }

theorem Before.refl (p : Did) : p.Before p := ⟨rfl, fun _ hm => hm⟩

theorem Before.trans {p q r : Did} (h : p.Before q) (h' : q.Before r) : p.Before r :=
  ⟨h'.1.trans h.1, fun m hm => h'.2 m (h.2 m hm)⟩

theorem before_add (p : Did) (op : ConnectionOp) (ans : op.Ans) : p.Before (p.add op ans) :=
  ⟨rfl, fun _ hm => List.mem_append_left _ hm⟩

theorem mem_add (p : Did) (op : ConnectionOp) (ans : op.Ans) : ⟨op, ans⟩ ∈ (p.add op ans).made :=
  List.mem_append_right _ (List.mem_singleton_self _)

end Did

namespace ProtocolService

/-- The token that a request presents. -/
def presentedToken (request : Envelope) : Option String :=
  match request.body with
  | .authenticateSession body => body
  | .reconnect body => body.map fun token => if token = "" then request.sessionToken else token
  | _ => none

/-- What the account store has answered a request proves who it comes from. -/
inductive Proves (crypto : CryptoProvider) (request : Envelope)
    (made : List ((op : ConnectionOp) × op.Ans)) : UserId → Prop
  | password {username password : String} {found : StorageResult UserRecord} {user : UserRecord} :
      request.body = .login (some (username, password)) →
      ⟨.account (.store (.findUserByName username)), found⟩ ∈ made → found.toOption = some user →
      crypto.verifyPassword password user.passwordHash = true → user.disabled = false →
      Proves crypto request made user.id
  | token {token : String} {now : Int} {found : StorageResult SessionRecord}
      {session : SessionRecord} {foundUser : StorageResult UserRecord} {user : UserRecord} :
      presentedToken request = some token →
      ⟨.account (.store (.findSession (crypto.hashSessionToken token) now)), found⟩ ∈ made →
      found.toOption = some session →
      ⟨.account (.store (.findUserById session.userId)), foundUser⟩ ∈ made →
      foundUser.toOption = some user → user.disabled = false →
      Proves crypto request made user.id

/-- A request on the connection has proved to come from the user. -/
def Proved (crypto : CryptoProvider) (past : List ConnectionEvent) (conn : Nat) (user : UserId) :
    Prop :=
  ∃ id request made, .begin id (.handle conn request) ∈ past ∧
    (∀ m ∈ made, ∃ env, .made id env m.1 m.2 ∈ past) ∧ Proves crypto request made user

variable {crypto : CryptoProvider} {request : Envelope} {conn : Nat} {user : UserId} {α : Type}

theorem Proves.mono {made more : List ((op : ConnectionOp) × op.Ans)}
    (h : Proves crypto request made user) (hsubset : ∀ m ∈ made, m ∈ more) :
    Proves crypto request more user := by
  cases h with
  | password hbody hfound hsome hmatches henabled =>
    exact .password hbody (hsubset _ hfound) hsome hmatches henabled
  | token htoken hfound hsome hfoundUser huser henabled =>
    exact .token htoken (hsubset _ hfound) hsome (hsubset _ hfoundUser) huser henabled

theorem Proved.mono {past : List ConnectionEvent} (h : Proved crypto past conn user)
    (event : ConnectionEvent) : Proved crypto (past ++ [event]) conn user := by
  obtain ⟨id, request, made, hbegin, hmade, hproves⟩ := h
  refine ⟨id, request, made, List.mem_append_left _ hbegin, fun m hm => ?_, hproves⟩
  obtain ⟨env, hevent⟩ := hmade m hm
  exact ⟨env, List.mem_append_left _ hevent⟩

/-! ## The typestate -/

/-- A request sets an identity only where it has proved it. -/
def proofs (crypto : CryptoProvider) : Typestate ConnectionOp ConnectionOp.Ans Did where
  allows p op :=
    match op with
    | .session conn (.setIdentity user _ _ _) =>
      ∃ request, p.call = .handle conn request ∧ Proves crypto request p.made user
    | _ => True
  answers _ _ := True
  next := Did.add

/-- The same for the calls of `auth_`. -/
def accountProofs : Typestate AuthOp AuthOp.Ans Did where
  allows _ _ := True
  answers _ _ := True
  next p op ans := p.add (.account op) ans

theorem proofs_account {call : AuthScript α} {final : Did → α → Prop} {p : Did}
    (h : call.Obeys accountProofs final p) : (account call).Obeys (proofs crypto) final p :=
  h.subst fun _ _ _ => ⟨trivial, fun _ _ => ⟨trivial, rfl⟩⟩

theorem proofs_calm {s : ConnectionScript α} (h : s.Only fun op => ¬ Turning op) (p : Did) :
    s.Obeys (proofs crypto) (fun q _ => p.Before q) p := by
  refine h.obeys (I := p.Before) (fun q op hq hop => ⟨?_, fun ans => ?_⟩) (Did.Before.refl p)
  · cases op with
    | session conn op => cases op <;> first | exact trivial | exact absurd trivial hop
    | _ => trivial
  · exact hq.trans (q.before_add op ans)

/-- What a call of `auth_` gives out it has proved. -/
def ProvesResult (crypto : CryptoProvider) (request : Envelope) (p q : Did)
    (result : AuthResult AuthenticatedSession) : Prop :=
  p.Before q ∧ ∀ value, result.toOption = some value → Proves crypto request q.made value.userId

variable {auth : AuthService} {p q : Did}

theorem proves_refused {result : AuthResult AuthenticatedSession} (hbefore : p.Before q)
    (h : result.toOption = none) : ProvesResult crypto request p q result :=
  ⟨hbefore, fun value hvalue => absurd (h.symm.trans hvalue) (by simp)⟩

theorem openSession_proofs {record : UserRecord} {now : Int} (hbefore : p.Before q)
    (hproves : Proves auth.crypto request q.made record.id) :
    (auth.openSession record now).Obeys accountProofs (ProvesResult auth.crypto request p) q := by
  refine Script.obeys_perform_bind.mpr ⟨trivial, fun rawToken _ => ?_⟩
  refine Script.obeys_perform_bind.mpr ⟨trivial, fun stored _ => ?_⟩
  have hlater : q.Before (accountProofs.next (accountProofs.next q .generateSessionToken rawToken)
      (.store (.storeSession _)) stored) :=
    (q.before_add _ _).trans (Did.before_add _ _ _)
  split
  · exact proves_refused (hbefore.trans hlater) (if_neg (by simp))
  · refine ⟨hbefore.trans hlater, fun value hvalue => ?_⟩
    obtain rfl := Option.some.inj hvalue
    exact hproves.mono hlater.2

theorem login_proofs {username password : String} {now : Int}
    (hbody : request.body = .login (some (username, password))) :
    (auth.login username password now).Obeys accountProofs
    (ProvesResult auth.crypto request p) p := by
  refine Script.obeys_perform_bind.mpr ⟨trivial, fun found _ => ?_⟩
  have hbefore := p.before_add (.account (.store (.findUserByName username))) found
  have hmem := p.mem_add (.account (.store (.findUserByName username))) found
  have hrefused : ProvesResult auth.crypto request p
      (p.add (.account (.store (.findUserByName username))) found)
      { error := if found.error = .unavailable then .storageUnavailable else .invalidCredentials
        message := "invalid username or password" } := by
    refine proves_refused hbefore (if_neg ?_)
    split <;> simp
  extract_lets encodedHash passwordMatches
  cases hfound : found.toOption with
  | none => exact hrefused
  | some user =>
    cases hmatches : passwordMatches with
    | false => exact hrefused
    | true =>
      simp only
      split
      · exact proves_refused hbefore (if_neg (by simp))
      · rename_i henabled
        refine openSession_proofs hbefore (.password hbody hmem hfound ?_ (by simpa using henabled))
        simpa [passwordMatches, encodedHash, hfound] using hmatches

theorem authenticate_proofs {token : String} {now : Int}
    (htoken : presentedToken request = some token) :
    (auth.authenticate token now).Obeys accountProofs (ProvesResult auth.crypto request p) p := by
  unfold AuthService.authenticate
  split
  · exact proves_refused (Did.Before.refl p) (if_neg (by simp))
  refine Script.obeys_perform_bind.mpr ⟨trivial, fun found _ => ?_⟩
  split
  · refine proves_refused (p.before_add _ _) (if_neg ?_)
    split <;> simp
  · rename_i session hfound
    refine Script.obeys_perform_bind.mpr ⟨trivial, fun foundUser _ => ?_⟩
    have hbefore : p.Before (accountProofs.next (accountProofs.next p
        (.store (.findSession (auth.crypto.hashSessionToken token) now)) found)
        (.store (.findUserById session.userId)) foundUser) :=
      (p.before_add _ _).trans (Did.before_add _ _ _)
    split
    · exact proves_refused hbefore (if_neg (by simp))
    · rename_i user huser
      obtain ⟨hsome, henabled⟩ := Option.filter_eq_some_iff.mp huser
      refine ⟨hbefore, fun value hvalue => ?_⟩
      obtain rfl := Option.some.inj hvalue
      have hmem := p.mem_add
        (.account (.store (.findSession (auth.crypto.hashSessionToken token) now))) found
      exact .token htoken ((Did.before_add _ _ _).2 _ hmem) hfound (Did.mem_add _ _ _) hsome
        (by simpa using henabled)

/-! ## Requests -/

/-- A command goes on for the user that the check of its session found. -/
def Checked (q : Did) (outcome : Outcome) : Prop :=
  ∀ user, outcome = .command user →
    ∃ tableId, ⟨.session q.call.connection .checkExpiry, ⟨some user, false, tableId⟩⟩ ∈ q.made

/-- An outcome that is no command. -/
def Answered : Outcome → Prop
  | .command _ => False
  | _ => True

theorem checked_of_answered {outcome : Outcome} (h : Answered outcome) : Checked q outcome :=
  fun user heq => by rw [heq] at h; exact h.elim

theorem ends_send (request : Envelope) (response : Response) :
    (send request response).Ends Answered :=
  Script.Ends.bind fun _ => trivial

theorem ends_reply (user : UserId) (request : Envelope) (response : Response) :
    (reply user request response).Ends Answered :=
  Script.Ends.bind fun _ => ends_send request response

theorem ends_fail (request : Envelope) (code : ErrorCode) (message : String)
    (user : Option UserId) :
    (fail request code message user).Ends Answered := by
  cases user with
  | none => exact ends_send request _
  | some user => exact ends_reply user request _

/-- A script that is only answered. -/
theorem answered_obeys {s : ConnectionScript Outcome} (hcalm : s.Only fun op => ¬ Turning op)
    (hends : s.Ends Answered) (p : Did) :
    s.Obeys (proofs crypto) (fun q r => p.Before q ∧ Checked q r) p :=
  ((proofs_calm hcalm p).ends hends).mono fun _ _ h => ⟨h.1, checked_of_answered h.2⟩

theorem fail_obeys (request : Envelope) (code : ErrorCode) (message : String) (user : Option UserId)
    (p : Did) :
    (fail request code message user).Obeys (proofs crypto)
    (fun q r => p.Before q ∧ Checked q r) p :=
  answered_obeys (calm_fail _ _ _ _) (ends_fail _ _ _ _) p

variable (service : ProtocolService)

theorem ends_logout (conn : Nat) (user : UserId) (request : Envelope) :
    (service.logout conn user request).Ends Answered := by
  refine Script.Ends.bind fun session => Script.Ends.bind fun accepted => ?_
  split
  · refine Script.Ends.bind fun error => ?_
    split
    · exact ends_fail _ _ _ _
    · refine Script.Ends.bind fun _ => Script.Ends.bind fun _ => Script.Ends.bind fun _ => ?_
      exact ends_reply _ _ _
  · exact ends_fail _ _ _ _

theorem ends_refreshSession (conn : Nat) (user : UserId) (request : Envelope) (token : String) :
    (service.refreshSession conn user request token).Ends Answered := by
  refine Script.Ends.bind fun session => ?_
  split
  · exact ends_fail _ _ _ _
  refine Script.Ends.bind fun accepted => ?_
  split
  · refine Script.Ends.bind fun now => Script.Ends.bind fun refreshed => ?_
    split
    · exact ends_fail _ _ _ _
    · refine Script.Ends.bind fun changed => ?_
      split
      · exact ends_fail _ _ _ _
      · exact ends_reply _ _ _
  · exact ends_fail _ _ _ _

theorem ends_registering (request : Envelope) (username password : String) :
    (service.registering request username password).Ends Answered := by
  refine Script.Ends.bind fun accepted => ?_
  split
  · refine Script.Ends.bind fun registered => ?_
    split
    · exact ends_fail _ _ _ _
    · exact ends_send _ _
  · exact ends_fail _ _ _ _

/-- `authorize` lets a request pass for the user that its check found. -/
theorem authorize_checks :
    (authorize conn request).Obeys (proofs crypto)
      (fun q authorized => p.Before q ∧ ∀ user, authorized = some user →
        ∃ tableId, ⟨.session conn .checkExpiry, ⟨some user, false, tableId⟩⟩ ∈ q.made) p := by
  have hrefused : ∀ {s : ConnectionScript (Option UserId)} (p' : Did), p.Before p' →
      s.Only (fun op => ¬ Turning op) → s.Ends (· = none) → s.Obeys (proofs crypto)
        (fun q authorized => p.Before q ∧ ∀ user, authorized = some user →
          ∃ tableId, ⟨.session conn .checkExpiry, ⟨some user, false, tableId⟩⟩ ∈ q.made) p' := by
    intro s p' hbefore hcalm hends
    refine ((proofs_calm hcalm p').ends hends).mono ?_
    rintro q authorized ⟨hq, rfl⟩
    exact ⟨hbefore.trans hq, fun user heq => nomatch heq⟩
  refine Script.obeys_perform_bind.mpr ⟨trivial, fun check _ => ?_⟩
  have hbefore := p.before_add (.session conn .checkExpiry) check
  have hmem := p.mem_add (.session conn .checkExpiry) check
  split
  · rename_i user huser hlive
    refine (proofs_calm (calm_of_plain (plain_beginRequest _ _)) _).bind fun q begun hq => ?_
    split
    · refine ⟨hbefore.trans hq, fun user' heq => ?_⟩
      obtain rfl := Option.some.inj heq
      refine ⟨check.tableId, hq.2 _ ?_⟩
      rw [← huser, ← hlive]
      exact hmem
    · exact ⟨hbefore.trans hq, fun user heq => nomatch heq⟩
  · exact hrefused _ hbefore
      ((calm_of_plain (plain_leaveTable _ _)).bind fun _ => (calm_fail _ _ _ _).bind fun _ =>
        trivial)
      (Script.Ends.bind fun _ => Script.Ends.bind fun _ => rfl)
  · exact hrefused _ hbefore ((calm_fail _ _ _ _).bind fun _ => trivial)
      (Script.Ends.bind fun _ => rfl)

theorem serve_checks (hconn : p.call.connection = conn) :
    (service.serve conn request).Obeys (proofs crypto) (fun q r => p.Before q ∧ Checked q r) p := by
  refine authorize_checks.bind fun q authorized hq => ?_
  obtain ⟨hbefore, hcheck⟩ := hq
  have hanswered : ∀ s : ConnectionScript Outcome, s.Only (fun op => ¬ Turning op) →
      s.Ends Answered → s.Obeys (proofs crypto) (fun q r => p.Before q ∧ Checked q r) q :=
    fun s hcalm hends => (answered_obeys hcalm hends q).mono fun _ _ h => ⟨hbefore.trans h.1, h.2⟩
  have hfail : ∀ code message user, (fail request code message user).Obeys (proofs crypto)
      (fun q r => p.Before q ∧ Checked q r) q :=
    fun code message user => hanswered _ (calm_fail _ _ _ _) (ends_fail _ _ _ _)
  split
  · exact ⟨hbefore, checked_of_answered trivial⟩
  rename_i user
  split
  · exact hfail _ _ _
  · exact hfail _ _ _
  · exact hfail _ _ _
  · exact hanswered _ (service.calm_logout _ _ _) (service.ends_logout _ _ _)
  · split
    · exact hfail _ _ _
    · exact hanswered _ (service.calm_refreshSession _ _ _ _) (service.ends_refreshSession _ _ _ _)
  · exact hfail _ _ _
  · refine ⟨hbefore, fun user' heq => ?_⟩
    obtain rfl : user = user' := by injection heq
    rw [hbefore.1, hconn]
    exact hcheck user rfl

theorem authenticating_proofs {call : Int → AuthScript (AuthResult AuthenticatedSession)}
    {rawToken : AuthenticatedSession → String}
    {respond : AuthenticatedSession → ConnectionScript Outcome}
    (hhandle : p.call = .handle conn request)
    (hcall : ∀ now p, (call now).Obeys accountProofs (ProvesResult crypto request p) p)
    (hrespond : ∀ value, (respond value).Only (fun op => ¬ Turning op) ∧
      (respond value).Ends Answered) :
    (authenticating conn request call rawToken respond).Obeys (proofs crypto)
      (fun q r => p.Before q ∧ Checked q r) p := by
  have hanswered : ∀ (q : Did) (s : ConnectionScript Outcome), p.Before q →
      s.Only (fun op => ¬ Turning op) → s.Ends Answered →
      s.Obeys (proofs crypto) (fun q r => p.Before q ∧ Checked q r) q :=
    fun q s hbefore hcalm hends =>
      (answered_obeys hcalm hends q).mono fun _ _ h => ⟨hbefore.trans h.1, h.2⟩
  refine Script.obeys_perform_bind.mpr ⟨trivial, fun accepted _ => ?_⟩
  have hpost := p.before_add .post accepted
  split
  · refine Script.obeys_perform_bind.mpr ⟨trivial, fun now _ => ?_⟩
    have hnow := hpost.trans (Did.before_add _ .nowUnixMs now)
    refine (proofs_account (hcall now _)).bind fun q result hresult => ?_
    obtain ⟨hbefore, hproves⟩ := hresult
    have hq := hnow.trans hbefore
    split
    · exact Script.obeys_perform_bind.mpr ⟨trivial, fun _ _ => hanswered _ _
        (hq.trans (q.before_add _ _)) (calm_fail _ _ _ _) (ends_fail _ _ _ _)⟩
    · rename_i value hvalue
      refine Script.obeys_perform_bind.mpr
        ⟨⟨request, hq.1.trans hhandle, hproves value hvalue⟩, fun _ _ => ?_⟩
      exact Script.obeys_perform_bind.mpr ⟨trivial, fun _ _ => hanswered _ _
        (hq.trans ((q.before_add _ _).trans (Did.before_add _ _ _)))
        (hrespond value).1 (hrespond value).2⟩
  · exact Script.obeys_perform_bind.mpr ⟨trivial, fun _ _ => hanswered _ _
      (hpost.trans (Did.before_add _ _ _)) (calm_fail _ _ _ _) (ends_fail _ _ _ _)⟩

theorem takeTurn_proofs {already begun : ConnectionScript Outcome}
    (halready : ∀ q, p.Before q →
      already.Obeys (proofs crypto) (fun r out => q.Before r ∧ Checked r out) q)
    (hbegun : ∀ q, p.Before q →
      begun.Obeys (proofs crypto) (fun r out => q.Before r ∧ Checked r out) q) :
    (takeTurn conn request already begun).Obeys (proofs crypto)
      (fun q r => p.Before q ∧ Checked q r) p := by
  refine Script.obeys_perform_bind.mpr ⟨trivial, fun turn _ => ?_⟩
  have hbefore := p.before_add (.session conn .beginAuthentication) turn
  cases turn with
  | alreadyAuthenticated =>
    exact (halready _ hbefore).mono fun _ _ h => ⟨hbefore.trans h.1, h.2⟩
  | inProgress => exact (fail_obeys _ _ _ _ _).mono fun _ _ h => ⟨hbefore.trans h.1, h.2⟩
  | begun => exact (hbegun _ hbefore).mono fun _ _ h => ⟨hbefore.trans h.1, h.2⟩

theorem handle_proofs (hhandle : p.call = .handle conn request) :
    (service.handle conn request).Obeys (proofs service.auth.crypto)
      (fun q r => p.Before q ∧ Checked q r) p := by
  have hconn : ∀ q, p.Before q → q.call.connection = conn := fun q hq => by rw [hq.1, hhandle]; rfl
  unfold handle
  split
  · exact fail_obeys _ _ _ _ _
  split
  · exact fail_obeys _ _ _ _ _
  · exact answered_obeys (service.calm_registering _ _ _) (service.ends_registering _ _ _) p
  · exact fail_obeys _ _ _ _ _
  · rename_i hbody
    exact takeTurn_proofs (fun q _ => fail_obeys _ _ _ _ _) fun q hq =>
      authenticating_proofs (hq.1.trans hhandle) (fun now _ => login_proofs hbody)
        fun value => ⟨calm_send _ _, ends_send _ _⟩
  · exact fail_obeys _ _ _ _ _
  · rename_i hbody
    exact takeTurn_proofs (fun q _ => fail_obeys _ _ _ _ _) fun q hq =>
      authenticating_proofs (hq.1.trans hhandle)
        (fun now _ => authenticate_proofs (by rw [presentedToken, hbody]))
        fun value => ⟨calm_send _ _, ends_send _ _⟩
  · refine answered_obeys ?_ (Script.Ends.bind fun _ => ends_send _ _) p
    exact Script.only_perform_bind.mpr ⟨fun h => h, fun now => calm_send _ _⟩
  · exact fail_obeys _ _ _ _ _
  · rename_i token hbody
    exact takeTurn_proofs (fun q hq => service.serve_checks (hconn q hq)) fun q hq =>
      authenticating_proofs (hq.1.trans hhandle)
        (fun now _ => authenticate_proofs (by rw [presentedToken, hbody]; rfl))
        fun value => ⟨trivial, trivial⟩
  · exact service.serve_checks (hconn p (Did.Before.refl p))

theorem program_proofs (call : ConnectionCall) :
    (service.program call).Obeys (proofs service.auth.crypto)
      (fun q r => q.call = call ∧ Checked q r) ⟨call, []⟩ := by
  cases call with
  | handle conn request =>
    exact (service.handle_proofs rfl).mono fun q r h => ⟨h.1.1, h.2⟩
  | setTable conn tableId =>
    exact Script.obeys_perform_bind.mpr
      ⟨trivial, fun _ _ => ⟨rfl, fun user heq => nomatch heq⟩⟩

/-! ## Runs -/

/-- The phases tell what happened, and who is known on a connection has been proved on it. -/
structure ProvedBy (crypto : CryptoProvider) (past : List ConnectionEvent) (s : Connections)
    (phases : List (Nat × Did)) : Prop where
  begun : ∀ m ∈ phases, .begin m.1 m.2.call ∈ past
  made : ∀ m ∈ phases, ∀ x ∈ m.2.made, ∃ env, .made m.1 env x.1 x.2 ∈ past
  proved : ∀ conn user, (s.sessions conn).userId = some user → Proved crypto past conn user

theorem identity_perform {session : ConnectionSession} {now : Int} {op : ConnectionSession.Op}
    (h : (session.perform now op).2.userId = some user) :
    session.userId = some user ∨
      ∃ username rawToken expires, op = .setIdentity user username rawToken expires := by
  cases op with
  | setIdentity user' username rawToken expires =>
    obtain rfl := Option.some.inj h
    exact Or.inr ⟨username, rawToken, expires, rfl⟩
  | beginAuthentication =>
    refine Or.inl ?_
    simp only [ConnectionSession.perform] at h
    split at h
    · exact h
    · simp only at h
      split at h
      · cases h
      · exact h
  | checkExpiry =>
    refine Or.inl ?_
    simp only [ConnectionSession.perform] at h
    split at h
    · cases h
    · exact h
  | renewToken user' token rawToken expires =>
    refine Or.inl ?_
    simp only [ConnectionSession.perform] at h
    split at h <;> exact h
  | clearIdentity => cases h
  | _ => exact Or.inl h

/-- Who is known after a call was known before, or is set by it. -/
theorem identity_exec {env : ConnectionEnv} {s s' : Connections} {op : ConnectionOp} {ans : op.Ans}
    (hexec : s.exec env op = some (ans, s')) (h : (s'.sessions conn).userId = some user) :
    (s.sessions conn).userId = some user ∨
      ∃ username rawToken expires,
        op = .session conn (.setIdentity user username rawToken expires) := by
  cases op with
  | account op =>
    obtain ⟨r, -, heq⟩ := Option.map_eq_some_iff.mp hexec
    obtain ⟨rfl, rfl⟩ := Prod.mk.inj heq
    exact Or.inl h
  | session conn' op =>
    obtain ⟨rfl, rfl⟩ := Prod.mk.inj (Option.some.inj hexec)
    by_cases heq : conn = conn'
    · subst heq
      simp only [Connections.setSession, Function.update_self] at h
      rcases identity_perform h with h | ⟨username, rawToken, expires, rfl⟩
      · exact Or.inl h
      · exact Or.inr ⟨username, rawToken, expires, rfl⟩
    · simp only [Connections.setSession, Function.update_of_ne heq] at h
      exact Or.inl h
  | _ =>
    obtain ⟨rfl, rfl⟩ := Prod.mk.inj (Option.some.inj hexec)
    exact Or.inl h

theorem proofs_keeps : ConnectionsKeep (proofs crypto) (fun call => ⟨call, []⟩)
    (fun call q r => q.call = call ∧ Checked q r) (ProvedBy crypto) where
  begin := by
    intro past s phases id call h _
    have hcases : ∀ m ∈ phases ++ [(id, (⟨call, []⟩ : Did))],
        m ∈ phases ∨ m = (id, ⟨call, []⟩) := by
      simp
    refine ⟨fun m hm => ?_, fun m hm x hx => ?_, fun conn user huser => ?_⟩
    · rcases hcases m hm with hm | rfl
      · exact List.mem_append_left _ (h.begun m hm)
      · exact List.mem_append_right _ (List.mem_singleton_self _)
    · rcases hcases m hm with hm | rfl
      · obtain ⟨env, hmade⟩ := h.made m hm x hx
        exact ⟨env, List.mem_append_left _ hmade⟩
      · cases hx
    · exact (h.proved conn user huser).mono _
  made := by
    intro past s s' early late id p env op ans h _ hallows hexec
    have hself : (id, p) ∈ early ++ (id, p) :: late := Typestate.mem_replaced.mpr (Or.inr rfl)
    have hbegun := h.begun _ hself
    refine ⟨trivial, fun m hm => ?_, fun m hm x hx => ?_, fun conn user huser => ?_⟩
    · rcases Typestate.mem_replaced.mp hm with hm | rfl
      · exact List.mem_append_left _ (h.begun m (Typestate.mem_replaced.mpr (Or.inl hm)))
      · exact List.mem_append_left _ hbegun
    · rcases Typestate.mem_replaced.mp hm with hm | rfl
      · obtain ⟨env', hmade⟩ := h.made m (Typestate.mem_replaced.mpr (Or.inl hm)) x hx
        exact ⟨env', List.mem_append_left _ hmade⟩
      · rcases List.mem_append.mp hx with hx | hx
        · obtain ⟨env', hmade⟩ := h.made _ hself x hx
          exact ⟨env', List.mem_append_left _ hmade⟩
        · obtain rfl := List.mem_singleton.mp hx
          exact ⟨env, List.mem_append_right _ (List.mem_singleton_self _)⟩
    · rcases identity_exec hexec huser with huser | ⟨username, rawToken, expires, rfl⟩
      · exact (h.proved conn user huser).mono _
      · obtain ⟨request, hcall, hproves⟩ := hallows
        rw [hcall] at hbegun
        exact Proved.mono ⟨id, request, p.made, hbegun, h.made _ hself, hproves⟩ _
  returned := by
    intro past s early late id call p r h _ _
    refine ⟨fun m hm => ?_, fun m hm x hx => ?_, fun conn user huser => ?_⟩
    · exact List.mem_append_left _ (h.begun m (Typestate.mem_replaced.mpr (Or.inl hm)))
    · obtain ⟨env, hmade⟩ := h.made m (Typestate.mem_replaced.mpr (Or.inl hm)) x hx
      exact ⟨env, List.mem_append_left _ hmade⟩
    · exact (h.proved conn user huser).mono _

theorem proved_init : ProvedBy crypto [] {} [] :=
  ⟨by simp, by simp, by simp⟩

variable {service} {trace before after : ConnectionTrace} {t : ConnectionThreads}

/-- Who is known on a connection has been proved on it. -/
theorem proved_run (hr : Run service.Serves { shared := {} } trace t)
    (huser : (t.shared.sessions conn).userId = some user) :
    Proved service.auth.crypto (trace.map Step.label) conn user := by
  obtain ⟨phases, -, h⟩ := Threads.typestate_run hr service.program_proofs proofs_keeps proved_init
  exact h.proved conn user huser

/-- What a check of a session says. -/
theorem check_exec {env : ConnectionEnv} {s s' : Connections} {tableId : Option Nat}
    (h : s.exec env (.session conn .checkExpiry) = some (⟨some user, false, tableId⟩, s')) :
    (s.sessions conn).userId = some user ∧ env.now < (s.sessions conn).expiresAtUnixMs := by
  have hcheck := (Prod.mk.inj (Option.some.inj h)).1
  simp only [ConnectionSession.perform, ConnectionSession.Check.mk.injEq] at hcheck
  obtain ⟨huser, hlive, -⟩ := hcheck
  rw [huser, Option.isSome_some, Bool.true_and, decide_eq_false_iff_not] at hlive
  exact ⟨huser, not_le.mp hlive⟩

/-- **A command runs only for a user who has proved to be one**: when the session of its
connection was checked, the connection spoke for that user, the session had not expired, the user
had been proved by a login or a token on this connection, and the token that the connection holds
is one of the user's. -/
theorem commands_run_for_proved_users {e : Step ConnectionThreads ConnectionEvent} {id : Nat}
    (hr : Run service.Serves { shared := {} } (before ++ e :: after) t)
    (hlabel : e.label = .returned id (.handle conn request) (.command user)) :
    ∃ early b late env tableId, before = early ++ b :: late ∧
      b.label = .made id env (.session conn .checkExpiry) ⟨some user, false, tableId⟩ ∧
      (b.before.shared.sessions conn).userId = some user ∧
      env.now < (b.before.shared.sessions conn).expiresAtUnixMs ∧
      Proved service.auth.crypto (early.map Step.label) conn user ∧
      ∀ record, b.before.shared.accounts.store.sessions.lookup (service.auth.crypto.hashSessionToken
        (b.before.shared.sessions conn).rawToken) = some record → record.userId = user := by
  obtain ⟨phases, p, hp, ⟨hcall, hchecked⟩, hproved⟩ := Threads.final_run hr service.program_proofs
    proofs_keeps proved_init hlabel
  obtain ⟨tableId, hmade⟩ := hchecked user rfl
  rw [hcall] at hmade
  obtain ⟨env, hevent⟩ := hproved.made _ hp _ hmade
  obtain ⟨b, hb, hblabel⟩ := List.mem_map.mp hevent
  obtain ⟨early, late, rfl⟩ := List.append_of_mem hb
  obtain ⟨hearly, hs, -⟩ := hr.split.1.split
  rw [hblabel] at hs
  generalize b.after = after' at hs
  cases hs with
  | made hpending hexec =>
    obtain ⟨huser, hlive⟩ := check_exec hexec
    exact ⟨early, b, late, env, tableId, rfl, hblabel, huser, hlive, proved_run hearly huser,
      (token_of_user hearly huser).2⟩

/-- `id` has come to a command of the user on the connection. -/
def runsFor (id conn : Nat) (user : UserId) : ConnectionEvent → Bool
  | .returned id' (.handle conn' _) (.command user') => id' == id && conn' == conn && user' == user
  | _ => false

theorem exists_of_runsFor {id : Nat} {event : ConnectionEvent}
    (h : runsFor id conn user event = true) :
    ∃ request, event = .returned id (.handle conn request) (.command user) := by
  unfold runsFor at h
  split at h
  · rename_i id' conn' request user'
    simp only [Bool.and_eq_true, beq_iff_eq] at h
    obtain ⟨⟨rfl, rfl⟩, rfl⟩ := h
    exact ⟨request, rfl⟩
  · cases h

/-- A user registers, logs in and sends a command. -/
theorem commands_run_for_proved_users_login :
    ∃ (trace : ConnectionTrace) (t : ConnectionThreads) (request : Envelope),
      Run ({ auth := AuthService.markingService } : ProtocolService).Serves { shared := {} }
        trace t ∧
      (∃ e ∈ trace, e.label = .returned 2 (.handle 7 request) (.command 1)) ∧
      ∃ early : ConnectionTrace, early <+: trace ∧
        Proved AuthService.markingCrypto (early.map Step.label) 7 1 := by
  let advance : ConnectionEnv → Threads.Move ConnectionEnv ConnectionCall := .advance 0
  have hcheck : (replay (Threads.play
      ({ auth := AuthService.markingService } : ProtocolService).program Connections.exec)
      { shared := {} }
      ([.begin (.handle 7
          { requestId := 1, body := .register (some ("alice_1", "correct-horse")) })] ++
        List.replicate 5 (advance { auth := { passwordHash := "password:correct-horse" } }) ++
        [.begin (.handle 7
          { requestId := 2, body := .login (some ("alice_1", "correct-horse")) })] ++
        List.replicate 10 (advance { now := 1000, auth := { token := "t1" } }) ++
        [.begin (.handle 7 { requestId := 1, clientSequence := 1, body := .gameCommand })] ++
        List.replicate 3 (advance { now := 2000 }))).any
      (fun run : ConnectionTrace × ConnectionThreads => run.1.any fun e => runsFor 2 7 1 e.label) =
        true := by
    decide +kernel
  obtain ⟨⟨trace, t⟩, hrun, hfacts⟩ := (Option.any_eq_true _ _).mp hcheck
  obtain ⟨e, he, hlabel⟩ := List.any_eq_true.mp hfacts
  have hr := replay_run Threads.play_step hrun
  obtain ⟨request, heq⟩ := exists_of_runsFor hlabel
  obtain ⟨before, after, rfl⟩ := List.append_of_mem he
  obtain ⟨early, b, late, -, -, rfl, -, -, -, hproved, -⟩ := commands_run_for_proved_users hr heq
  exact ⟨_, t, request, hr, ⟨e, he, heq⟩, early, by simp, hproved⟩

end ProtocolService

end PokerServer

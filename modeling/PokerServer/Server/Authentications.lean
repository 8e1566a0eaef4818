import PokerServer.Security.Sessions
import PokerServer.Server.Connections

/-!
# One authentication at a time

A login, a token and a reconnect each ask the account store who the connection is, in a storage
task that takes its time. `authentication_in_progress` is to keep them from crossing: here it is
up from the block that lets one of them begin to the block that ends it, whatever requests and
storage tasks come in between.

`turns` is the typestate of a request: it has not begun to authenticate, is at it, or has ended.
-/

namespace PokerServer

namespace ProtocolService

open ConnectionSession

/-- `id` gets its turn to authenticate the connection. -/
def Opens (id conn : Nat) : ConnectionEvent → Prop
  | .made id' _ (.session conn' .beginAuthentication) .begun => id' = id ∧ conn' = conn
  | _ => False

/-- `id` ends its turn. -/
def Closes (id conn : Nat) : ConnectionEvent → Prop
  | .made id' _ (.session conn' .endAuthentication) _ => id' = id ∧ conn' = conn
  | .made id' _ (.session conn' (.setIdentity ..)) _ => id' = id ∧ conn' = conn
  | _ => False

/-- `id` is authenticating the connection. -/
def Authenticates (past : List ConnectionEvent) (id conn : Nat) : Prop :=
  (∃ event ∈ past, Opens id conn event) ∧ ∀ event ∈ past, ¬ Closes id conn event

/-! ## The typestate -/

inductive Stage where
  | idle
  | running
  | ended
  deriving DecidableEq

/-- The calls that have to do with a turn. -/
def Turning : ConnectionOp → Prop
  | .session _ .beginAuthentication => True
  | .session _ .endAuthentication => True
  | .session _ (.setIdentity ..) => True
  | _ => False

def nextStage (p : Nat × Stage) : (op : ConnectionOp) → op.Ans → Nat × Stage
  | .session _ .beginAuthentication, .begun => (p.1, .running)
  | .session _ .endAuthentication, _ => (p.1, .ended)
  | .session _ (.setIdentity ..), _ => (p.1, .ended)
  | _, _ => p

def turns : Typestate ConnectionOp ConnectionOp.Ans (Nat × Stage) where
  allows p op :=
    match op with
    | .session conn .beginAuthentication => conn = p.1 ∧ p.2 = .idle
    | .session conn .endAuthentication => conn = p.1 ∧ p.2 = .running
    | .session conn (.setIdentity ..) => conn = p.1 ∧ p.2 = .running
    | _ => True
  answers _ _ := True
  next := nextStage

theorem turns_calm {op : ConnectionOp} (h : ¬ Turning op) (p : Nat × Stage) :
    turns.allows p op ∧ ∀ ans, turns.next p op ans = p := by
  cases op with
  | session conn op => cases op <;> first | exact ⟨trivial, fun ans => rfl⟩ | exact absurd trivial h
  | _ => exact ⟨trivial, fun ans => rfl⟩

variable {α : Type} {request : Envelope} {conn : Nat} {p : Nat × Stage}

theorem calm_obeys {s : ConnectionScript α} (h : s.Only fun op => ¬ Turning op) (p : Nat × Stage) :
    s.Obeys turns (fun q _ => q = p) p :=
  h.obeys (I := fun q => q = p)
    (fun q _ hq hop => hq ▸ ⟨(turns_calm hop q).1, (turns_calm hop q).2⟩) rfl

theorem calm_account (call : AuthScript α) : (account call).Only fun op => ¬ Turning op :=
  Script.Only.subst (p := fun _ => True) (Script.only_true call)
    fun _ _ => ⟨fun h => h, fun _ => trivial⟩

theorem calm_of_plain {s : ConnectionScript α} (h : s.Only Plain) : s.Only fun op => ¬ Turning op :=
  h.mono fun op hplain hturning => by
    cases op with
    | session conn op => cases op <;> first | exact hturning | exact hplain
    | _ => exact hturning

theorem calm_send (request : Envelope) (response : Response) :
    (send request response).Only fun op => ¬ Turning op :=
  calm_of_plain (plain_send request response)

theorem calm_fail (request : Envelope) (code : ErrorCode) (message : String)
    (user : Option UserId) :
    (fail request code message user).Only fun op => ¬ Turning op :=
  calm_of_plain (plain_fail request code message user)

variable (service : ProtocolService)

theorem calm_logout (conn : Nat) (user : UserId) (request : Envelope) :
    (service.logout conn user request).Only fun op => ¬ Turning op := by
  refine Script.only_perform_bind.mpr ⟨fun h => h, fun session => ?_⟩
  refine Script.only_perform_bind.mpr ⟨fun h => h, fun accepted => ?_⟩
  split
  · refine (calm_account _).bind fun error => ?_
    split
    · exact calm_fail _ _ _ _
    · refine Script.only_perform_bind.mpr ⟨fun h => h, fun _ => ?_⟩
      refine Script.only_perform_bind.mpr ⟨fun h => h, fun _ => ?_⟩
      exact (calm_of_plain (plain_leaveTable _ _)).bind fun _ => calm_of_plain (plain_reply _ _ _)
  · exact calm_fail _ _ _ _

theorem calm_refreshSession (conn : Nat) (user : UserId) (request : Envelope) (token : String) :
    (service.refreshSession conn user request token).Only fun op => ¬ Turning op := by
  refine Script.only_perform_bind.mpr ⟨fun h => h, fun session => ?_⟩
  split
  · exact calm_fail _ _ _ _
  refine Script.only_perform_bind.mpr ⟨fun h => h, fun accepted => ?_⟩
  split
  · refine Script.only_perform_bind.mpr ⟨fun h => h, fun now => ?_⟩
    refine (calm_account _).bind fun refreshed => ?_
    split
    · exact calm_fail _ _ _ _
    · refine Script.only_perform_bind.mpr ⟨fun h => h, fun changed => ?_⟩
      split
      · exact calm_fail _ _ _ _
      · exact calm_of_plain (plain_reply _ _ _)
  · exact calm_fail _ _ _ _

theorem calm_serve (conn : Nat) (request : Envelope) :
    (service.serve conn request).Only fun op => ¬ Turning op := by
  refine (calm_of_plain (plain_authorize conn request)).bind fun authorized => ?_
  split
  · trivial
  split
  · exact calm_fail _ _ _ _
  · exact calm_fail _ _ _ _
  · exact calm_fail _ _ _ _
  · exact service.calm_logout _ _ _
  · split
    · exact calm_fail _ _ _ _
    · exact service.calm_refreshSession _ _ _ _
  · exact calm_fail _ _ _ _
  · trivial

theorem calm_registering (request : Envelope) (username password : String) :
    (service.registering request username password).Only fun op => ¬ Turning op := by
  refine Script.only_perform_bind.mpr ⟨fun h => h, fun accepted => ?_⟩
  split
  · refine (calm_account _).bind fun registered => ?_
    split
    · exact calm_fail _ _ _ _
    · exact calm_send _ _
  · exact calm_fail _ _ _ _

/-! ## A request takes one turn at most -/

theorem authenticating_obeys {call : Int → AuthScript (AuthResult AuthenticatedSession)}
    {rawToken : AuthenticatedSession → String}
    {respond : AuthenticatedSession → ConnectionScript Outcome}
    (hrespond : ∀ value, (respond value).Only fun op => ¬ Turning op) :
    (authenticating conn request call rawToken respond).Obeys turns
      (fun q _ => q = (conn, .ended)) (conn, .running) := by
  refine Script.obeys_perform_bind.mpr ⟨trivial, fun accepted _ => ?_⟩
  split
  · refine Script.obeys_perform_bind.mpr ⟨trivial, fun now _ => ?_⟩
    refine (calm_obeys (calm_account _) _).bind ?_
    rintro q result rfl
    split
    · exact Script.obeys_perform_bind.mpr
        ⟨⟨rfl, rfl⟩, fun _ _ => calm_obeys (calm_fail _ _ _ _) _⟩
    · refine Script.obeys_perform_bind.mpr ⟨⟨rfl, rfl⟩, fun _ _ => ?_⟩
      exact Script.obeys_perform_bind.mpr ⟨trivial, fun _ _ => calm_obeys (hrespond _) _⟩
  · exact Script.obeys_perform_bind.mpr ⟨⟨rfl, rfl⟩, fun _ _ => calm_obeys (calm_fail _ _ _ _) _⟩

theorem idle_obeys {s : ConnectionScript Outcome} (h : s.Only fun op => ¬ Turning op) :
    s.Obeys turns (fun q _ => q.2 ≠ .running) (conn, .idle) :=
  (calm_obeys h _).mono fun q _ hq => by rw [hq]; simp

theorem takeTurn_obeys {already begun : ConnectionScript Outcome}
    (halready : already.Only fun op => ¬ Turning op)
    (hbegun : begun.Obeys turns (fun q _ => q = (conn, .ended)) (conn, .running)) :
    (takeTurn conn request already begun).Obeys turns (fun q _ => q.2 ≠ .running)
    (conn, .idle) := by
  refine Script.obeys_perform_bind.mpr ⟨⟨rfl, rfl⟩, fun turn _ => ?_⟩
  cases turn with
  | alreadyAuthenticated => exact idle_obeys halready
  | inProgress => exact idle_obeys (calm_fail _ _ _ _)
  | begun => exact hbegun.mono fun q _ hq => by rw [hq]; simp

theorem handle_obeys (conn : Nat) (request : Envelope) :
    (service.handle conn request).Obeys turns (fun q _ => q.2 ≠ .running) (conn, .idle) := by
  unfold handle
  split
  · exact idle_obeys (calm_fail _ _ _ _)
  split
  · exact idle_obeys (calm_fail _ _ _ _)
  · exact idle_obeys (service.calm_registering _ _ _)
  · exact idle_obeys (calm_fail _ _ _ _)
  · exact takeTurn_obeys (calm_fail _ _ _ _) (authenticating_obeys fun value => calm_send _ _)
  · exact idle_obeys (calm_fail _ _ _ _)
  · exact takeTurn_obeys (calm_fail _ _ _ _) (authenticating_obeys fun value => calm_send _ _)
  · exact idle_obeys (Script.only_perform_bind.mpr ⟨fun h => h, fun now => calm_send _ _⟩)
  · exact idle_obeys (calm_fail _ _ _ _)
  · exact takeTurn_obeys (service.calm_serve _ _) (authenticating_obeys fun value => trivial)
  · exact idle_obeys (service.calm_serve _ _)

/-! ## The flag -/

/-- What a call does to turns: nothing, or it opens or closes one. -/
inductive TurnMove (id : Nat) (p p' : Nat × Stage) (event : ConnectionEvent)
    (flag flag' : Nat → Bool) : Prop
  | none : p' = p → flag' = flag → (∀ other conn, ¬ Opens other conn event) →
      (∀ other conn, ¬ Closes other conn event) → TurnMove id p p' event flag flag'
  | opened : p.2 = .idle → p' = (p.1, .running) → flag p.1 = false →
      flag' = Function.update flag p.1 true →
      (∀ other conn, Opens other conn event ↔ id = other ∧ p.1 = conn) →
      (∀ other conn, ¬ Closes other conn event) → TurnMove id p p' event flag flag'
  | closed : p.2 = .running → p' = (p.1, .ended) → flag' = Function.update flag p.1 false →
      (∀ other conn, ¬ Opens other conn event) →
      (∀ other conn, Closes other conn event ↔ id = other ∧ p.1 = conn) →
      TurnMove id p p' event flag flag'

def flags (s : Connections) (conn : Nat) : Bool := (s.sessions conn).authenticationInProgress

theorem flags_setSession (s : Connections) (conn : Nat) (session : ConnectionSession) :
    flags (s.setSession conn session) =
      Function.update (flags s) conn session.authenticationInProgress := by
  funext other
  by_cases h : other = conn
  · subst h
    simp [flags, Connections.setSession]
  · simp [flags, Connections.setSession, h]

theorem flags_same {s : Connections} {conn : Nat} {session : ConnectionSession}
    (h : session.authenticationInProgress = (s.sessions conn).authenticationInProgress) :
    flags (s.setSession conn session) = flags s := by
  rw [flags_setSession, h]
  exact Function.update_eq_self conn (flags s)

/-- What `beginAuthentication` answers. -/
inductive TurnAnswer (session : ConnectionSession) : Turn × ConnectionSession → Prop
  | alreadyAuthenticated : TurnAnswer session (.alreadyAuthenticated, session)
  | inProgress {session' : ConnectionSession} : session.authenticationInProgress = true →
      session'.authenticationInProgress = true → session'.userId = none →
      TurnAnswer session (.inProgress, session')
  | begun {session' : ConnectionSession} : session.authenticationInProgress = false →
      session'.authenticationInProgress = true → session'.userId = none →
      TurnAnswer session (.begun, session')

theorem turn_answer (session : ConnectionSession) (now : Int) :
    TurnAnswer session (session.perform now .beginAuthentication) := by
  have hflag :
      (if session.userId.isSome then session.cleared else session).authenticationInProgress =
      session.authenticationInProgress := by
    split <;> rfl
  have huser : (if session.userId.isSome then session.cleared else session).userId = none := by
    split
    · rfl
    · rename_i hnone
      exact Option.not_isSome_iff_eq_none.mp hnone
  simp only [perform]
  split
  · exact .alreadyAuthenticated
  · cases hbusy : session.authenticationInProgress with
    | true =>
      rw [hflag, hbusy]
      exact .inProgress hbusy rfl huser
    | false =>
      rw [hflag, hbusy]
      exact .begun hbusy rfl huser

theorem turn_move {id : Nat} {env : ConnectionEnv} {s s' : Connections} {op : ConnectionOp}
    {ans : op.Ans} (hallows : turns.allows p op) (h : s.exec env op = some (ans, s')) :
    TurnMove id p (turns.next p op ans) (.made id env op ans) (flags s) (flags s') := by
  cases op with
  | account op =>
    obtain ⟨r, -, heq⟩ := Option.map_eq_some_iff.mp h
    obtain ⟨rfl, rfl⟩ := Prod.mk.inj heq
    exact .none rfl rfl (fun _ _ h => h) fun _ _ h => h
  | session conn op =>
    obtain ⟨rfl, rfl⟩ := Prod.mk.inj (Option.some.inj h)
    cases op with
    | beginAuthentication =>
      obtain ⟨rfl, hidle⟩ := hallows
      have hanswer := turn_answer (s.sessions p.1) env.now
      generalize (s.sessions p.1).perform env.now .beginAuthentication = answer at hanswer ⊢
      cases hanswer with
      | alreadyAuthenticated =>
        exact .none rfl (flags_same rfl) (fun _ _ h => h) fun _ _ h => h
      | inProgress hbusy hbusy' =>
        exact .none rfl (flags_same (hbusy'.trans hbusy.symm)) (fun _ _ h => h) fun _ _ h => h
      | begun hfree hbusy =>
        refine .opened hidle rfl hfree ?_ (fun _ _ => Iff.rfl) fun _ _ h => h
        rw [flags_setSession, hbusy]
    | endAuthentication =>
      obtain ⟨rfl, hrunning⟩ := hallows
      exact .closed hrunning rfl (flags_setSession ..) (fun _ _ h => h) fun _ _ => Iff.rfl
    | setIdentity user username rawToken expires =>
      obtain ⟨rfl, hrunning⟩ := hallows
      exact .closed hrunning rfl (flags_setSession ..) (fun _ _ h => h) fun _ _ => Iff.rfl
    | checkExpiry =>
      refine .none rfl (flags_same ?_) (fun _ _ h => h) fun _ _ h => h
      simp only [perform]
      split <;> rfl
    | read => exact .none rfl (flags_same rfl) (fun _ _ h => h) fun _ _ h => h
    | clearIdentity => exact .none rfl (flags_same rfl) (fun _ _ h => h) fun _ _ h => h
    | renewToken user token rawToken expires =>
      refine .none rfl (flags_same ?_) (fun _ _ h => h) fun _ _ h => h
      simp only [perform]
      split <;> rfl
    | setTable tableId => exact .none rfl (flags_same rfl) (fun _ _ h => h) fun _ _ h => h
  | _ =>
    obtain ⟨rfl, rfl⟩ := Prod.mk.inj (Option.some.inj h)
    exact .none rfl rfl (fun _ _ h => h) fun _ _ h => h

theorem exists_snoc {past : List ConnectionEvent} {event : ConnectionEvent}
    {q : ConnectionEvent → Prop} :
    (∃ e ∈ past ++ [event], q e) ↔ (∃ e ∈ past, q e) ∨ q event := by
  simp only [List.mem_append, List.mem_singleton, or_and_right, exists_or, exists_eq_left]

theorem exists_snoc_quiet {past : List ConnectionEvent} {event : ConnectionEvent}
    {q : ConnectionEvent → Prop} (h : ¬ q event) :
    (∃ e ∈ past ++ [event], q e) ↔ ∃ e ∈ past, q e := by
  rw [exists_snoc, or_iff_left h]

/-- Who had a turn, and that the flags tell who has one. -/
structure Turns (past : List ConnectionEvent) (s : Connections)
    (phases : List (Nat × Nat × Stage)) :
    Prop where
  opened : ∀ m ∈ phases, ∀ conn,
    (∃ event ∈ past, Opens m.1 conn event) ↔ m.2.1 = conn ∧ m.2.2 ≠ .idle
  closed : ∀ m ∈ phases, ∀ conn,
    (∃ event ∈ past, Closes m.1 conn event) ↔ m.2.1 = conn ∧ m.2.2 = .ended
  gone : ∀ id, (∀ m ∈ phases, m.1 ≠ id) → ∀ conn, (∃ event ∈ past, Opens id conn event) →
    ∃ event ∈ past, Closes id conn event
  flag : ∀ conn, phases.countP (fun m => m.2 = (conn, .running)) = (flags s conn).toNat

theorem opens_id {id conn : Nat} {event : ConnectionEvent} (h : Opens id conn event) :
    event.id = id := by
  unfold Opens at h
  split at h
  · exact h.1
  · exact h.elim

theorem closes_id {id conn : Nat} {event : ConnectionEvent} (h : Closes id conn event) :
    event.id = id := by
  unfold Closes at h
  split at h
  · exact h.1
  · exact h.1
  · exact h.elim

theorem turns_init {s : Connections} (h : ∀ conn, flags s conn = false) : Turns [] s [] where
  opened := by simp
  closed := by simp
  gone := by simp
  flag := by simp [h]

theorem turns_begin {past : List ConnectionEvent} {s : Connections}
    {phases : List (Nat × Nat × Stage)} (h : Turns past s phases) (id : Nat) (call : ConnectionCall)
    (hpast : ∀ event ∈ past, event.id ≠ id) :
    Turns (past ++ [.begin id call]) s (phases ++ [(id, call.connection, .idle)]) := by
  have hopens : ∀ id' conn, ¬ Opens id' conn (.begin id call) := fun _ _ h => h
  have hcloses : ∀ id' conn, ¬ Closes id' conn (.begin id call) := fun _ _ h => h
  refine ⟨fun m hm conn => ?_, fun m hm conn => ?_, fun other hother conn => ?_, fun conn => ?_⟩
  · rw [exists_snoc_quiet (hopens _ _)]
    rcases List.mem_append.mp hm with hm | hm
    · exact h.opened m hm conn
    · obtain rfl := List.mem_singleton.mp hm
      refine iff_of_false ?_ fun hidle => hidle.2 rfl
      rintro ⟨event, hevent, hopen⟩
      exact hpast event hevent (opens_id hopen)
  · rw [exists_snoc_quiet (hcloses _ _)]
    rcases List.mem_append.mp hm with hm | hm
    · exact h.closed m hm conn
    · obtain rfl := List.mem_singleton.mp hm
      refine iff_of_false ?_ fun hended => absurd hended.2 (by simp)
      rintro ⟨event, hevent, hclose⟩
      exact hpast event hevent (closes_id hclose)
  · rw [exists_snoc_quiet (hopens _ _), exists_snoc_quiet (hcloses _ _)]
    exact h.gone other (fun m hm => hother m (List.mem_append_left _ hm)) conn
  · rw [List.countP_append, h.flag conn]
    simp

theorem turns_made {past : List ConnectionEvent} {s s' : Connections}
    {early late : List (Nat × Nat × Stage)} {id : Nat} {p p' : Nat × Stage}
    {event : ConnectionEvent}
    (h : Turns past s (early ++ (id, p) :: late)) (hids : ∀ m ∈ early ++ late, m.1 ≠ id)
    (hmove : TurnMove id p p' event (flags s) (flags s')) :
    Turns (past ++ [event]) s' (early ++ (id, p') :: late) := by
  have hself : (id, p) ∈ early ++ (id, p) :: late := Typestate.mem_replaced.mpr (Or.inr rfl)
  have hother : ∀ m ∈ early ++ late, m ∈ early ++ (id, p) :: late :=
    fun m hm => Typestate.mem_replaced.mpr (Or.inl hm)
  have hgone : ∀ other, (∀ m ∈ early ++ (id, p') :: late, m.1 ≠ other) →
      (∀ m ∈ early ++ (id, p) :: late, m.1 ≠ other) ∧ id ≠ other := by
    intro other hm
    have hne : id ≠ other := hm (id, p') (Typestate.mem_replaced.mpr (Or.inr rfl))
    refine ⟨fun m hmem => ?_, hne⟩
    rcases Typestate.mem_replaced.mp hmem with hmem | rfl
    · exact hm m (Typestate.mem_replaced.mpr (Or.inl hmem))
    · exact hne
  have hcount := h.flag
  simp only [List.countP_append, List.countP_cons] at hcount
  cases hmove with
  | none hp hflag hopens hcloses =>
    subst hp
    refine ⟨fun m hm conn => ?_, fun m hm conn => ?_, fun other hm conn => ?_, fun conn => ?_⟩
    · rw [exists_snoc_quiet (hopens _ _)]
      exact h.opened m hm conn
    · rw [exists_snoc_quiet (hcloses _ _)]
      exact h.closed m hm conn
    · rw [exists_snoc_quiet (hopens _ _), exists_snoc_quiet (hcloses _ _)]
      exact h.gone other hm conn
    · rw [hflag]
      exact h.flag conn
  | opened hidle hp hfree hflag hopens hcloses =>
    subst hp
    refine ⟨fun m hm conn => ?_, fun m hm conn => ?_, fun other hm conn => ?_, fun conn => ?_⟩
    · rcases Typestate.mem_replaced.mp hm with hm | rfl
      · rw [exists_snoc_quiet fun hopen => hids m hm ((hopens _ _).mp hopen).1.symm]
        exact h.opened m (hother m hm) conn
      · rw [exists_snoc, h.opened _ hself, hopens]
        simp [hidle]
    · rw [exists_snoc_quiet (hcloses _ _)]
      rcases Typestate.mem_replaced.mp hm with hm | rfl
      · exact h.closed m (hother m hm) conn
      · rw [h.closed _ hself]
        simp [hidle]
    · obtain ⟨hm, hne⟩ := hgone other hm
      rw [exists_snoc_quiet fun hopen => hne ((hopens _ _).mp hopen).1,
        exists_snoc_quiet (hcloses _ _)]
      exact h.gone other hm conn
    · have hcount := hcount conn
      have hidle' : p ≠ (conn, .running) := fun heq => by rw [heq] at hidle; cases hidle
      rw [List.countP_append, List.countP_cons, hflag]
      by_cases heq : conn = p.1
      · subst heq
        simp only [hidle', decide_false, Bool.false_eq_true, if_false, hfree,
          Bool.toNat_false] at hcount
        simp only [Function.update_self, decide_true, if_true, Bool.toNat_true]
        omega
      · have hne : (p.1, Stage.running) ≠ (conn, Stage.running) :=
          fun h => heq (congrArg Prod.fst h).symm
        simp only [hidle', decide_false, Bool.false_eq_true, if_false] at hcount
        simpa [hne, Function.update_of_ne heq] using hcount
  | closed hrunning hp hflag hopens hcloses =>
    subst hp
    refine ⟨fun m hm conn => ?_, fun m hm conn => ?_, fun other hm conn => ?_, fun conn => ?_⟩
    · rw [exists_snoc_quiet (hopens _ _)]
      rcases Typestate.mem_replaced.mp hm with hm | rfl
      · exact h.opened m (hother m hm) conn
      · rw [h.opened _ hself]
        simp [hrunning]
    · rcases Typestate.mem_replaced.mp hm with hm | rfl
      · rw [exists_snoc_quiet fun hclose => hids m hm ((hcloses _ _).mp hclose).1.symm]
        exact h.closed m (hother m hm) conn
      · rw [exists_snoc, h.closed _ hself, hcloses]
        simp [hrunning]
    · obtain ⟨hm, hne⟩ := hgone other hm
      rw [exists_snoc_quiet (hopens _ _),
        exists_snoc_quiet fun hclose => hne ((hcloses _ _).mp hclose).1]
      exact h.gone other hm conn
    · have hcount := hcount conn
      have hended : (p.1, Stage.ended) ≠ (conn, Stage.running) :=
        fun h => absurd (congrArg Prod.snd h) (by simp)
      rw [List.countP_append, List.countP_cons, hflag]
      by_cases heq : conn = p.1
      · subst heq
        have hp : p = (p.1, Stage.running) := by rw [← hrunning]
        have hle : (flags s p.1).toNat ≤ 1 := Bool.toNat_le _
        rw [if_pos (decide_eq_true hp)] at hcount
        simp only [hended, decide_false, Bool.false_eq_true, if_false, Function.update_self,
          Bool.toNat_false]
        omega
      · have hne : p ≠ (conn, Stage.running) := fun h => heq (by rw [h])
        simp only [hne, decide_false, Bool.false_eq_true, if_false] at hcount
        simpa [hended, Function.update_of_ne heq] using hcount

theorem turns_returned {past : List ConnectionEvent} {s : Connections}
    {early late : List (Nat × Nat × Stage)} {id : Nat} {p : Nat × Stage} {event : ConnectionEvent}
    (h : Turns past s (early ++ (id, p) :: late)) (hp : p.2 ≠ .running)
    (hopens : ∀ other conn, ¬ Opens other conn event)
    (hcloses : ∀ other conn, ¬ Closes other conn event) :
    Turns (past ++ [event]) s (early ++ late) := by
  have hself : (id, p) ∈ early ++ (id, p) :: late := Typestate.mem_replaced.mpr (Or.inr rfl)
  refine ⟨fun m hm conn => ?_, fun m hm conn => ?_, fun other hm conn => ?_, fun conn => ?_⟩
  · rw [exists_snoc_quiet (hopens _ _)]
    exact h.opened m (Typestate.mem_replaced.mpr (Or.inl hm)) conn
  · rw [exists_snoc_quiet (hcloses _ _)]
    exact h.closed m (Typestate.mem_replaced.mpr (Or.inl hm)) conn
  · rw [exists_snoc_quiet (hopens _ _), exists_snoc_quiet (hcloses _ _)]
    intro hopen
    by_cases hid : id = other
    · subst hid
      obtain ⟨hconn, hstage⟩ := (h.opened _ hself conn).mp hopen
      refine (h.closed _ hself conn).mpr ⟨hconn, ?_⟩
      cases hs : p.2 with
      | idle => exact absurd hs hstage
      | running => exact absurd hs hp
      | ended => rfl
    · refine h.gone other (fun m hmem => ?_) conn hopen
      rcases Typestate.mem_replaced.mp hmem with hmem | rfl
      · exact hm m hmem
      · exact hid
  · rw [← h.flag conn, List.countP_append, List.countP_append, List.countP_cons]
    have hne : ¬ p = (conn, .running) := fun heq => hp (by rw [heq])
    simp [hne]

/-! ## Runs -/

theorem program_obeys (call : ConnectionCall) :
    (service.program call).Obeys turns (fun p _ => p.2 ≠ .running) (call.connection, .idle) := by
  cases call with
  | handle conn request => exact service.handle_obeys conn request
  | setTable conn tableId =>
    exact idle_obeys (Script.only_perform_bind.mpr ⟨fun h => h, fun _ => trivial⟩)

theorem turns_keeps : ConnectionsKeep turns (fun call => (call.connection, .idle))
    (fun _ p _ => p.2 ≠ .running) Turns where
  begin id call h hpast := turns_begin h id call hpast
  made h hids hallows hexec := ⟨trivial, turns_made h hids (turn_move hallows hexec)⟩
  returned h _ hfinal := turns_returned h hfinal (fun _ _ h => h) fun _ _ h => h

theorem Turns.authenticates_iff {past : List ConnectionEvent} {s : Connections}
    {phases : List (Nat × Nat × Stage)} (h : Turns past s phases) {id conn : Nat} :
    Authenticates past id conn ↔ (id, conn, .running) ∈ phases := by
  constructor
  · rintro ⟨hopen, hclose⟩
    by_cases hid : ∃ m ∈ phases, m.1 = id
    · obtain ⟨m, hm, rfl⟩ := hid
      obtain ⟨hconn, hstage⟩ := (h.opened m hm conn).mp hopen
      have hended : m.2.2 ≠ .ended := by
        intro hended
        obtain ⟨event, hevent, hcloses⟩ := (h.closed m hm conn).mpr ⟨hconn, hended⟩
        exact hclose event hevent hcloses
      obtain ⟨id, conn', stage⟩ := m
      obtain rfl : conn' = conn := hconn
      cases stage with
      | idle => exact absurd rfl hstage
      | running => exact hm
      | ended => exact absurd rfl hended
    · obtain ⟨event, hevent, hcloses⟩ := h.gone id (fun m hm heq => hid ⟨m, hm, heq⟩) conn hopen
      exact absurd hcloses (hclose event hevent)
  · intro hm
    refine ⟨(h.opened _ hm conn).mpr ⟨rfl, by simp⟩, fun event hevent hcloses => ?_⟩
    exact absurd ((h.closed _ hm conn).mp ⟨event, hevent, hcloses⟩).2 (by simp)

/-- Nobody is known on a connection that is authenticating. -/
def Anonymous (s : Connections) : Prop :=
  ∀ conn, (s.sessions conn).authenticationInProgress = true → (s.sessions conn).userId = none

theorem Anonymous.setSession {s : Connections} (h : Anonymous s) {conn : Nat}
    {session : ConnectionSession}
    (hsession : session.authenticationInProgress = true → session.userId = none) :
    Anonymous (s.setSession conn session) := by
  intro other hflag
  by_cases heq : other = conn
  · subst heq
    simp only [Connections.setSession, Function.update_self] at hflag ⊢
    exact hsession hflag
  · simp only [Connections.setSession, Function.update_of_ne heq] at hflag ⊢
    exact h other hflag

theorem Anonymous.exec {env : ConnectionEnv} {s s' : Connections} {op : ConnectionOp} {ans : op.Ans}
    (h : Anonymous s) (hexec : s.exec env op = some (ans, s')) : Anonymous s' := by
  cases op with
  | account op =>
    obtain ⟨r, -, heq⟩ := Option.map_eq_some_iff.mp hexec
    obtain ⟨rfl, rfl⟩ := Prod.mk.inj heq
    exact h
  | session conn op =>
    obtain ⟨rfl, rfl⟩ := Prod.mk.inj (Option.some.inj hexec)
    refine h.setSession fun hflag => ?_
    cases op with
    | beginAuthentication =>
      have hanswer := turn_answer (s.sessions conn) env.now
      generalize (s.sessions conn).perform env.now .beginAuthentication = answer at hanswer hflag ⊢
      cases hanswer with
      | alreadyAuthenticated => exact h conn hflag
      | inProgress _ _ huser => exact huser
      | begun _ _ huser => exact huser
    | endAuthentication => cases hflag
    | setIdentity user username rawToken expires => cases hflag
    | checkExpiry =>
      simp only [perform] at hflag ⊢
      split
      · rfl
      · rename_i hlive
        rw [if_neg hlive] at hflag
        exact h conn hflag
    | read => exact h conn hflag
    | clearIdentity => rfl
    | renewToken user token rawToken expires =>
      simp only [perform] at hflag ⊢
      split
      · rename_i hchanged
        rw [if_pos hchanged] at hflag
        exact h conn hflag
      · rename_i hchanged
        rw [if_neg hchanged] at hflag
        exact h conn hflag
    | setTable tableId => exact h conn hflag
  | _ =>
    obtain ⟨rfl, rfl⟩ := Prod.mk.inj (Option.some.inj hexec)
    exact h

/-- Who is authenticating a connection. -/
structure OneTurn (past : List ConnectionEvent) (t : ConnectionThreads) (conn : Nat) : Prop where
  one : ∀ id id', Authenticates past id conn → Authenticates past id' conn → id = id'
  pending : ∀ id, Authenticates past id conn → ∃ p ∈ t.pending, p.id = id
  flag : (t.shared.sessions conn).authenticationInProgress = true ↔
    ∃ id, Authenticates past id conn
  anonymous : ∀ id, Authenticates past id conn → (t.shared.sessions conn).userId = none

variable {service} {accounts : Accounts} {trace : ConnectionTrace} {t : ConnectionThreads}

theorem one_turn (hr : Run service.Serves { shared := { accounts } } trace t) (conn : Nat) :
    OneTurn (trace.map Step.label) t conn := by
  obtain ⟨phases, hphases, hturns⟩ := Threads.typestate_run hr service.program_obeys turns_keeps
    (turns_init fun conn => rfl)
  have hanonymous : Anonymous t.shared := Threads.invariant_run hr (fun conn h => nomatch h)
    fun env a op ans b ha hexec => ha.exec hexec
  have hflag : (t.shared.sessions conn).authenticationInProgress = true ↔
      ∃ id, Authenticates (trace.map Step.label) id conn := by
    have hcount := hturns.flag conn
    constructor
    · intro hup
      rw [flags, hup, Bool.toNat_true] at hcount
      obtain ⟨m, hm, heq⟩ := List.countP_pos_iff.mp (hcount ▸ Nat.one_pos)
      refine ⟨m.1, hturns.authenticates_iff.mpr ?_⟩
      rw [← of_decide_eq_true heq]
      exact hm
    · rintro ⟨id, hid⟩
      have hpos : 0 < (flags t.shared conn).toNat := by
        rw [← hcount]
        exact List.countP_pos_iff.mpr ⟨_, hturns.authenticates_iff.mp hid, decide_eq_true rfl⟩
      by_contra hdown
      rw [flags, Bool.eq_false_of_not_eq_true hdown] at hpos
      exact absurd hpos (by simp)
  refine ⟨fun id id' hid hid' => ?_, fun id hid => ?_, hflag, fun id hid => ?_⟩
  · have hle : phases.countP (fun m => decide (m.2 = (conn, Stage.running))) ≤ 1 := by
      rw [hturns.flag conn]
      exact Bool.toNat_le _
    exact congrArg Prod.fst (Threads.eq_of_countP_le_one hle (hturns.authenticates_iff.mp hid)
      (hturns.authenticates_iff.mp hid') (decide_eq_true rfl) (decide_eq_true rfl))
  · have hmem : id ∈ t.pending.map Pending.id := by
      rw [Threads.ids_phases hphases]
      exact List.mem_map_of_mem (hturns.authenticates_iff.mp hid)
    obtain ⟨p, hp, hpid⟩ := List.mem_map.mp hmem
    exact ⟨p, hp, hpid⟩
  · exact hanonymous conn (hflag.mpr ⟨id, hid⟩)

/-- An identity is set by the request whose turn it is. -/
theorem set_in_turn {before after : ConnectionTrace} {e : Step ConnectionThreads ConnectionEvent}
    (hr : Run service.Serves { shared := { accounts } } (before ++ e :: after) t) {id conn : Nat}
    {env : ConnectionEnv} {user : UserId} {username rawToken : String} {expires : Int} {ans : Unit}
    (hlabel : e.label =
      .made id env (.session conn (.setIdentity user username rawToken expires)) ans) :
    Authenticates (before.map Step.label) id conn := by
  obtain ⟨phases, p, hp, ⟨rfl, hrunning⟩, hturns⟩ := Threads.allows_run hr service.program_obeys
    turns_keeps (turns_init fun conn => rfl) hlabel
  refine hturns.authenticates_iff.mpr ?_
  rw [← hrunning]
  exact hp

/-- **One authentication at a time**: however requests and storage tasks interleave, at most one
request is authenticating a connection, it has not returned, the flag is up just then, and nobody
is known on the connection; an identity is set only by that request. -/
theorem one_authentication_at_a_time (hr : Run service.Serves { shared := { accounts } } trace t)
    (conn : Nat) :
    OneTurn (trace.map Step.label) t conn ∧
      ∀ before e after, trace = before ++ e :: after →
        ∀ id env user username rawToken expires ans,
          e.label = .made id env (.session conn (.setIdentity user username rawToken expires)) ans →
          Authenticates (before.map Step.label) id conn ∧
            (e.before.shared.sessions conn).userId = none := by
  refine ⟨one_turn hr conn, ?_⟩
  rintro before e after rfl id env user username rawToken expires ans hlabel
  have hturn := set_in_turn hr hlabel
  exact ⟨hturn, (one_turn hr.split.1 conn).anonymous id hturn⟩

/-- A login is refused, and over, while a token is being looked up. -/
theorem one_authentication_at_a_time_refused : ∃ (trace : ConnectionTrace) (t : ConnectionThreads),
    Run ({ auth := AuthService.markingService } : ProtocolService).Serves
        { shared := { accounts := {} } } trace t ∧
      t.calls = 2 ∧ t.pending.length = 1 ∧ ∃ id, Authenticates (trace.map Step.label) id 7 ∧
        ∀ id', Authenticates (trace.map Step.label) id' 7 → id' = id := by
  have hcheck : (replay (Threads.play
      ({ auth := AuthService.markingService } : ProtocolService).program Connections.exec)
      { shared := { accounts := {} } }
      [.begin (.handle 7 { requestId := 1, body := .authenticateSession (some "t1") }),
        .advance 0 {},
        .begin (.handle 7 { requestId := 2, body := .login (some ("alice_1", "password")) }),
        .advance 1 {}, .advance 1 {}, .advance 1 {}]).any
      (fun run : ConnectionTrace × ConnectionThreads =>
        run.2.calls == 2 && run.2.pending.length == 1 &&
          (run.2.shared.sessions 7).authenticationInProgress) = true := by
    decide +kernel
  obtain ⟨⟨trace, t⟩, hrun, hfacts⟩ := (Option.any_eq_true _ _).mp hcheck
  simp only [Bool.and_eq_true, beq_iff_eq] at hfacts
  obtain ⟨⟨hcalls, hpending⟩, hflag⟩ := hfacts
  have hr := replay_run Threads.play_step hrun
  obtain ⟨hturn, -⟩ := one_authentication_at_a_time hr 7
  obtain ⟨id, hid⟩ := hturn.flag.mp hflag
  exact ⟨trace, t, hr, hcalls, hpending, id, hid, fun id' hid' => hturn.one id' id hid' hid⟩

end ProtocolService

end PokerServer

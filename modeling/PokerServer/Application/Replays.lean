import PokerServer.Application.Admission

/-!
# Replayed responses

The request window with executions: an accepted `begin` starts one, and it calls `complete` with
its own response some time later, also after the user has been reset. Responses are marked with the
execution that made them, which the cache does not look at.

`complete` finds its entry by user and request id only, so an execution that a reset has overtaken
answers the request that uses its id now.

* `replays_own_response`: as long as no overtaken execution completes while its id is retained
  again, every replayed response is that of the request the entry was made for.
* `stale_response_replayed`: an overtaken execution answers for another.
-/

namespace PokerServer

namespace IdempotencyCache

/-- A response, marked with the execution that made it. -/
structure Produced (P : Type) where
  execution : Nat
  bytes : P

structure Execution where
  id : Nat
  user : UserId
  request : Nat
  deriving DecidableEq

structure Traffic (P : Type) where
  cache : IdempotencyCache (Produced P)
  running : List Execution := []
  started : Nat := 0

inductive TrafficCall (P : Type) where
  | begin (user : UserId) (request sequence : Nat) (decision : RequestDecision (Produced P))
  | complete (execution : Execution) (bytes : P)
  | reset (user : UserId)

variable {P : Type}

/-- An accepted `begin` starts an execution. -/
def Traffic.begin (t : Traffic P) (user : UserId) (request sequence : Nat) : Traffic P :=
  let (decision, cache) := t.cache.begin user request sequence
  if decision.status = .accepted then
    { cache := cache, running := t.running ++ [⟨t.started, user, request⟩],
      started := t.started + 1 }
  else { t with cache := cache }

inductive TrafficStep : Traffic P → TrafficCall P → Traffic P → Prop
  | begin (t : Traffic P) (user : UserId) (request sequence : Nat) :
      TrafficStep t (.begin user request sequence (t.cache.begin user request sequence).1)
        (t.begin user request sequence)
  | complete (t : Traffic P) {x : Execution} (hx : x ∈ t.running) (bytes : P) :
      TrafficStep t (.complete x bytes)
        { t with
          cache := t.cache.complete x.user x.request ⟨x.id, bytes⟩
          running := t.running.erase x }
  | reset (t : Traffic P) (user : UserId) :
      TrafficStep t (.reset user) { t with cache := t.cache.reset user }

abbrev TrafficTrace (P : Type) := List (Step (Traffic P) (TrafficCall P))

def Traffic.beginStep (t : Traffic P) (user : UserId) (request sequence : Nat) :
    Step (Traffic P) (TrafficCall P) :=
  ⟨t, .begin user request sequence (t.cache.begin user request sequence).1,
    t.begin user request sequence⟩

/-! ## What a trace tells -/

/-- The step is the accepted `begin` that starts the execution. -/
def Starts (e : Step (Traffic P) (TrafficCall P)) (x : Execution) : Prop :=
  ∃ sequence decision, e.label = .begin x.user x.request sequence decision ∧
    decision.status = .accepted ∧ e.before.started = x.id

/-- The execution was started by the last accepted `begin` of its request, and its user has not
been reset since. -/
def Current (trace : TrafficTrace P) (x : Execution) : Prop :=
  ∃ older e newer, trace = older ++ e :: newer ∧ Starts e x ∧
    ∀ e' ∈ newer, e'.label ≠ .reset x.user ∧ ∀ id, ¬ Starts e' { x with id }

/-- The user of the execution has been reset since it was started. -/
def Overtaken (trace : TrafficTrace P) (x : Execution) : Prop :=
  ∃ older newer, trace = older ++ newer ∧ (∃ e ∈ older, Starts e x) ∧
    ∃ e ∈ newer, e.label = .reset x.user

/-- An overtaken execution does not complete while its request id is retained again. -/
def Harmless (trace : TrafficTrace P) (e : Step (Traffic P) (TrafficCall P)) : Prop :=
  ∀ x bytes, e.label = .complete x bytes → Overtaken trace x →
    x.request ∉ (e.before.cache.state x.user).entries

theorem Overtaken.append {trace : TrafficTrace P} {x : Execution} (h : Overtaken trace x)
    (e : Step (Traffic P) (TrafficCall P)) : Overtaken (trace ++ [e]) x := by
  obtain ⟨older, newer, rfl, hstart, e', he', hreset⟩ := h
  exact ⟨older, newer ++ [e], List.append_assoc .., hstart, e', List.mem_append_left _ he', hreset⟩

theorem Current.append {trace : TrafficTrace P} {x : Execution} (h : Current trace x)
    {e : Step (Traffic P) (TrafficCall P)} (hreset : e.label ≠ .reset x.user)
    (hstart : ∀ id, ¬ Starts e { x with id }) : Current (trace ++ [e]) x := by
  obtain ⟨older, e', newer, rfl, hstarts, hnewer⟩ := h
  refine ⟨older, e', newer ++ [e], by simp, hstarts, fun e'' he => ?_⟩
  rcases List.mem_append.mp he with he | he
  · exact hnewer e'' he
  · rw [List.mem_singleton] at he
    subst he
    exact ⟨hreset, hstart⟩

theorem Current.of_starts {trace : TrafficTrace P} {x : Execution}
    {e : Step (Traffic P) (TrafficCall P)} (h : Starts e x) : Current (trace ++ [e]) x :=
  ⟨trace, e, [], rfl, h, fun _ he => absurd he (by simp)⟩

/-! ## One call -/

@[simp] theorem state_reset_self {R : Type} (cache : IdempotencyCache R) (user : UserId) :
    (cache.reset user).state user = {} := by
  simp [state, reset]

theorem state_reset_of_ne {R : Type} (cache : IdempotencyCache R) {user other : UserId}
    (h : other ≠ user) : (cache.reset user).state other = cache.state other := by
  rw [state, state, reset, AList.lookup_erase_ne h]

/-- A cached response is that of the retained entry. -/
theorem begin_cachedResponse {R : Type} {cache : IdempotencyCache R} {user : UserId}
    {request sequence : Nat} {response : R}
    (h : (cache.begin user request sequence).1.cachedResponse = some response) :
    ∃ entry, (cache.state user).entries.lookup request = some entry ∧
      entry.response = some response := by
  rw [begin] at h
  split at h
  · exact absurd h (by simp)
  dsimp only at h
  split at h
  · rename_i entry hentry
    split at h
    · exact ⟨entry, hentry, h⟩
    · exact absurd h (by simp)
  · split at h
    · exact absurd h (by simp)
    split at h
    · exact absurd h (by simp)
    split at h <;> exact absurd h (by simp)

/-- A `begin` makes no responses. -/
theorem Admitted.response {R : Type} {capacity user request sequence : Nat} {s s' : UserState R}
    {status : RequestStatus} (ha : Admitted capacity user s request sequence status s') {id : Nat}
    {entry : Entry R} (hentry : s'.entries.lookup id = some entry)
    (hresponse : entry.response ≠ none) : s.entries.lookup id = some entry := by
  cases ha with
  | refused => exact hentry
  | full => exact hentry
  | room =>
    by_cases hid : id = request
    · subst hid
      rw [AList.lookup_insert] at hentry
      obtain rfl := Option.some.inj hentry
      exact absurd rfl hresponse
    · exact (AList.lookup_insert_ne hid).symm.trans hentry
  | @evicting _ _ oldest =>
    by_cases hid : id = request
    · subst hid
      rw [AList.lookup_insert] at hentry
      obtain rfl := Option.some.inj hentry
      exact absurd rfl hresponse
    · rw [AList.lookup_insert_ne hid] at hentry
      have hne : id ≠ oldest := by
        rintro rfl
        rw [AList.lookup_erase] at hentry
        exact absurd hentry (by simp)
      exact (AList.lookup_erase_ne hne).symm.trans hentry

/-- An accepted request waits for its response. -/
theorem Admitted.waits {R : Type} {capacity user request sequence : Nat} {s s' : UserState R}
    {status : RequestStatus} (ha : Admitted capacity user s request sequence status s')
    (haccepted : status = .accepted) : InFlight s'.entries request := by
  cases ha with
  | refused _ hne => exact absurd haccepted hne
  | full => exact absurd haccepted (by simp)
  | room => exact ⟨_, AList.lookup_insert _, rfl⟩
  | evicting => exact ⟨_, AList.lookup_insert _, rfl⟩

/-! ## Who owns the entries -/

/-- What holds between the calls of a run: an execution that has not been overtaken is the last of
its request and finds its entry waiting; a retained response is that of the last execution of its
request. -/
structure Owned (capacity : Nat) (trace : TrafficTrace P) (t : Traffic P) : Prop where
  kept : Kept capacity t.cache
  nodup : t.running.Nodup
  older : ∀ x ∈ t.running, x.id < t.started
  accepted : ∀ x ∈ t.running, ∃ e ∈ trace, Starts e x
  awaits : ∀ x ∈ t.running, Overtaken trace x ∨
    Current trace x ∧ InFlight (t.cache.state x.user).entries x.request
  alone : ∀ x ∈ t.running, ∀ y ∈ t.running, x.user = y.user → x.request = y.request →
    ¬ Overtaken trace x → ¬ Overtaken trace y → x = y
  answered : ∀ user request entry response,
    (t.cache.state user).entries.lookup request = some entry → entry.response = some response →
      Current trace ⟨response.execution, user, request⟩

theorem owned_fresh (capacity : Nat) :
    Owned capacity [] ({ cache := { maxRequestsPerUser := capacity } } : Traffic P) where
  kept := kept_fresh capacity
  nodup := List.nodup_nil
  older := by simp
  accepted := by simp
  awaits := by simp
  alone := by simp
  answered := by
    intro user request entry response hentry
    exact absurd hentry (by simp [state])

namespace Owned

variable {capacity : Nat} {trace : TrafficTrace P} {t : Traffic P}

/-- The cache part of a `begin`: entries that wait stay, and no response is made. -/
theorem begin_entries (h : Owned capacity trace t) (user request sequence : Nat) (u id : Nat) :
    (InFlight (t.cache.state u).entries id →
      ((t.cache.begin user request sequence).2.state u).entries.lookup id =
        (t.cache.state u).entries.lookup id) ∧
    ∀ entry, ((t.cache.begin user request sequence).2.state u).entries.lookup id = some entry →
      entry.response ≠ none → (t.cache.state u).entries.lookup id = some entry := by
  obtain ⟨hadmitted, hother, -⟩ :=
    begin_admitted (h.kept.size.symm ▸ h.kept.inStep user) request sequence
  by_cases hu : u = user
  · subst hu
    exact ⟨hadmitted.keeps, fun entry hentry hresponse => hadmitted.response hentry hresponse⟩
  · rw [hother u hu]
    exact ⟨fun _ => rfl, fun entry hentry _ => hentry⟩

/-- A `begin` starts no execution of a retained request. -/
theorem not_starts (h : Owned capacity trace t) (user request sequence : Nat) {x : Execution}
    (hx : x.request ∈ (t.cache.state x.user).entries) (id : Nat) :
    ¬ Starts (t.beginStep user request sequence) { x with id } := by
  rintro ⟨_, _, hlabel, hstatus, -⟩
  obtain ⟨rfl, rfl, rfl, rfl⟩ := TrafficCall.begin.inj hlabel
  have hin := h.kept.inStep x.user
  obtain ⟨hadmitted, -, -⟩ := begin_admitted (h.kept.size.symm ▸ hin) x.request sequence
  rw [h.kept.size] at hadmitted
  exact (hadmitted.orderly hin).fresh hstatus hx

theorem accepted_append (h : Owned capacity trace t) (e : Step (Traffic P) (TrafficCall P))
    {x : Execution} (hx : x ∈ t.running) : ∃ e' ∈ trace ++ [e], Starts e' x := by
  obtain ⟨e', he', hstarts⟩ := h.accepted x hx
  exact ⟨e', List.mem_append_left _ he', hstarts⟩

/-- An execution that waits goes on waiting when another request begins. -/
theorem awaits_begin (h : Owned capacity trace t) (user request sequence : Nat) {x : Execution}
    (hx : x ∈ t.running) : Overtaken (trace ++ [t.beginStep user request sequence]) x ∨
      Current (trace ++ [t.beginStep user request sequence]) x ∧
        InFlight ((t.cache.begin user request sequence).2.state x.user).entries x.request := by
  rcases h.awaits x hx with hover | ⟨hcurrent, hflight⟩
  · exact Or.inl (hover.append _)
  · refine Or.inr ⟨hcurrent.append (by simp [Traffic.beginStep])
      (h.not_starts user request sequence (mem_of_inFlight hflight)), ?_⟩
    unfold InFlight
    rw [(h.begin_entries user request sequence x.user x.request).1 hflight]
    exact hflight

theorem answered_begin (h : Owned capacity trace t) (user request sequence : Nat) {u r : Nat}
    {entry : Entry (Produced P)} {response : Produced P}
    (hentry : ((t.cache.begin user request sequence).2.state u).entries.lookup r = some entry)
    (hresponse : entry.response = some response) :
    Current (trace ++ [t.beginStep user request sequence]) ⟨response.execution, u, r⟩ := by
  have hbefore := (h.begin_entries user request sequence u r).2 entry hentry
    (by rw [hresponse]; simp)
  have hmem : r ∈ (t.cache.state u).entries := AList.lookup_isSome.mp (by rw [hbefore]; rfl)
  exact (h.answered u r entry response hbefore hresponse).append (by simp [Traffic.beginStep])
    (h.not_starts user request sequence (x := ⟨response.execution, u, r⟩) hmem)

theorem not_overtaken_of_append {x : Execution} {e : Step (Traffic P) (TrafficCall P)}
    (hx : ¬ Overtaken (trace ++ [e]) x) : ¬ Overtaken trace x := fun hover => hx (hover.append e)

/-- An accepted `begin` finds no execution of its request that has not been overtaken. -/
theorem overtaken_of_accepted (h : Owned capacity trace t) {user request sequence : Nat}
    (haccepted : (t.cache.begin user request sequence).1.status = .accepted) {x : Execution}
    (hx : x ∈ t.running) (huser : x.user = user) (hrequest : x.request = request) :
    Overtaken trace x := by
  rcases h.awaits x hx with hover | ⟨-, hflight⟩
  · exact hover
  · refine absurd ?_ (h.not_starts user request sequence (mem_of_inFlight hflight) t.started)
    subst huser hrequest
    exact ⟨sequence, _, rfl, haccepted, rfl⟩

theorem begin (h : Owned capacity trace t) (user request sequence : Nat) :
    Owned capacity (trace ++ [t.beginStep user request sequence])
      (t.begin user request sequence) := by
  have hkept := h.kept.step (CacheStep.begin t.cache user request sequence)
  have hawaits := fun x (hx : x ∈ t.running) => h.awaits_begin user request sequence hx
  have hanswered := fun u r entry response
    (hentry : ((t.cache.begin user request sequence).2.state u).entries.lookup r = some entry)
    (hresponse : entry.response = some response) =>
      h.answered_begin user request sequence hentry hresponse
  have halone : ∀ x ∈ t.running, ∀ y ∈ t.running, x.user = y.user → x.request = y.request →
      ¬ Overtaken (trace ++ [t.beginStep user request sequence]) x →
      ¬ Overtaken (trace ++ [t.beginStep user request sequence]) y → x = y :=
    fun x hx y hy huser hrequest hox hoy => h.alone x hx y hy huser hrequest
      (not_overtaken_of_append hox) (not_overtaken_of_append hoy)
  by_cases haccepted : (t.cache.begin user request sequence).1.status = .accepted
  · have hbegin : t.begin user request sequence =
        { cache := (t.cache.begin user request sequence).2
          running := t.running ++ [⟨t.started, user, request⟩]
          started := t.started + 1 } := by
      rw [Traffic.begin]
      exact if_pos haccepted
    have hstarts : Starts (t.beginStep user request sequence) ⟨t.started, user, request⟩ :=
      ⟨sequence, _, rfl, haccepted, rfl⟩
    have hnew : ⟨t.started, user, request⟩ ∉ t.running := fun hmem =>
      absurd (h.older _ hmem) (Nat.lt_irrefl _)
    obtain ⟨hadmitted, -, -⟩ :=
      begin_admitted (h.kept.size.symm ▸ h.kept.inStep user) request sequence
    rw [hbegin]
    refine ⟨hkept, ?_, ?_, ?_, ?_, ?_, hanswered⟩
    · exact h.nodup.append (List.nodup_singleton _) (by simpa using hnew)
    · intro x hx
      rcases List.mem_append.mp hx with hx | hx
      · exact Nat.lt_succ_of_lt (h.older x hx)
      · rw [List.mem_singleton] at hx
        subst hx
        exact Nat.lt_succ_self _
    · intro x hx
      rcases List.mem_append.mp hx with hx | hx
      · exact h.accepted_append _ hx
      · rw [List.mem_singleton] at hx
        subst hx
        exact ⟨_, List.mem_append_right _ (List.mem_singleton.mpr rfl), hstarts⟩
    · intro x hx
      rcases List.mem_append.mp hx with hx | hx
      · exact hawaits x hx
      · rw [List.mem_singleton] at hx
        subst hx
        exact Or.inr ⟨.of_starts hstarts, hadmitted.waits haccepted⟩
    · intro x hx y hy huser hrequest hox hoy
      rcases List.mem_append.mp hx with hx | hx <;> rcases List.mem_append.mp hy with hy | hy
      · exact halone x hx y hy huser hrequest hox hoy
      · rw [List.mem_singleton] at hy
        subst hy
        exact absurd (h.overtaken_of_accepted haccepted hx huser hrequest)
          (not_overtaken_of_append hox)
      · rw [List.mem_singleton] at hx
        subst hx
        exact absurd (h.overtaken_of_accepted haccepted hy huser.symm hrequest.symm)
          (not_overtaken_of_append hoy)
      · rw [List.mem_singleton] at hx hy
        rw [hx, hy]
  · have hbegin : t.begin user request sequence =
        { t with cache := (t.cache.begin user request sequence).2 } := by
      rw [Traffic.begin]
      exact if_neg haccepted
    rw [hbegin]
    exact ⟨hkept, h.nodup, h.older, fun x hx => h.accepted_append _ hx, hawaits, halone, hanswered⟩

theorem complete (h : Owned capacity trace t) {x : Execution} (hx : x ∈ t.running) (bytes : P)
    {after : Traffic P}
    (hafter : after = { t with
      cache := t.cache.complete x.user x.request ⟨x.id, bytes⟩
      running := t.running.erase x })
    (hharmless : Overtaken trace x → x.request ∉ (t.cache.state x.user).entries) :
    Owned capacity (trace ++ [⟨t, .complete x bytes, after⟩]) after := by
  have hstarts (y : Execution) : ¬ Starts ⟨t, .complete x bytes, after⟩ y := by
    rintro ⟨_, _, hlabel, -⟩
    exact absurd hlabel (by simp)
  have hcurrent {y : Execution} (hy : Current trace y) :
      Current (trace ++ [⟨t, .complete x bytes, after⟩]) y :=
    hy.append (by simp) fun _ => hstarts _
  have hmem {y : Execution} (hy : y ∈ after.running) : y ∈ t.running ∧ y ≠ x := by
    subst hafter
    exact ⟨(h.nodup.mem_erase_iff.mp hy).2, (h.nodup.mem_erase_iff.mp hy).1⟩
  have hcache : after.cache = t.cache.complete x.user x.request ⟨x.id, bytes⟩ := by
    rw [hafter]
  refine ⟨?_, ?_, ?_, ?_, ?_, ?_, ?_⟩
  · rw [hcache]
    exact h.kept.step (CacheStep.complete t.cache x.user x.request ⟨x.id, bytes⟩)
  · subst hafter
    exact h.nodup.erase x
  · intro y hy
    subst hafter
    exact h.older y (hmem hy).1
  · intro y hy
    exact h.accepted_append _ (hmem hy).1
  · intro y hy
    obtain ⟨hy, hne⟩ := hmem hy
    by_cases hover : Overtaken trace y
    · exact Or.inl (hover.append _)
    obtain ⟨hlast, hflight⟩ := (h.awaits y hy).resolve_left hover
    refine Or.inr ⟨hcurrent hlast, ?_⟩
    rw [hcache]
    by_cases huser : y.user = x.user
    · rw [huser, complete_state]
      rw [huser] at hflight
      split
      · exact hflight
      · rename_i entry hentry
        by_cases hrequest : y.request = x.request
        · -- two executions of one request: the one that completes has been overtaken
          refine absurd (h.alone y hy x hx huser hrequest hover fun hxover => ?_) hne
          exact hharmless hxover (AList.lookup_isSome.mp (by rw [hentry]; rfl))
        · obtain ⟨e, he, hnone⟩ := hflight
          exact ⟨e, (AList.lookup_insert_ne hrequest).trans he, hnone⟩
    · rw [complete_state_of_ne _ huser]
      exact hflight
  · intro y hy z hz huser hrequest hoy hoz
    exact h.alone y (hmem hy).1 z (hmem hz).1 huser hrequest (not_overtaken_of_append hoy)
      (not_overtaken_of_append hoz)
  · intro u r entry response hentry hresponse
    rw [hcache] at hentry
    by_cases hu : u = x.user
    · subst hu
      rw [complete_state] at hentry
      split at hentry
      · exact hcurrent (h.answered _ r entry response hentry hresponse)
      · rename_i retained hretained
        by_cases hr : r = x.request
        · subst hr
          rw [AList.lookup_insert] at hentry
          obtain rfl := Option.some.inj hentry
          obtain rfl := Option.some.inj hresponse
          rcases h.awaits x hx with hover | ⟨hlast, -⟩
          · exact absurd (AList.lookup_isSome.mp (by rw [hretained]; rfl)) (hharmless hover)
          · exact hcurrent hlast
        · rw [AList.lookup_insert_ne hr] at hentry
          exact hcurrent (h.answered _ r entry response hentry hresponse)
    · rw [complete_state_of_ne _ hu] at hentry
      exact hcurrent (h.answered u r entry response hentry hresponse)

theorem reset (h : Owned capacity trace t) (user : UserId) {after : Traffic P}
    (hafter : after = { t with cache := t.cache.reset user }) :
    Owned capacity (trace ++ [⟨t, .reset user, after⟩]) after := by
  have hcurrent {y : Execution} (hy : Current trace y) (hne : y.user ≠ user) :
      Current (trace ++ [⟨t, .reset user, after⟩]) y := by
    refine hy.append (fun hlabel => hne (TrafficCall.reset.inj hlabel).symm) fun id hstarts => ?_
    obtain ⟨_, _, hlabel, -⟩ := hstarts
    exact absurd hlabel (by simp)
  have hcache : after.cache = t.cache.reset user := by rw [hafter]
  have hrunning : after.running = t.running := by rw [hafter]
  refine ⟨?_, by rw [hrunning]; exact h.nodup, ?_, ?_, ?_, ?_, ?_⟩
  · rw [hcache]
    refine ⟨h.kept.size, fun u => ?_⟩
    by_cases hu : u = user
    · rw [hu, state_reset_self]
      exact .empty capacity
    · rw [state_reset_of_ne _ hu]
      exact h.kept.inStep u
  · subst hafter
    exact h.older
  · rw [hrunning]
    exact fun y hy => h.accepted_append _ hy
  · rw [hrunning, hcache]
    intro y hy
    by_cases hu : y.user = user
    · -- the reset overtakes the executions of its user
      exact Or.inl ⟨trace, _, rfl, h.accepted y hy, _, List.mem_singleton.mpr rfl, by rw [hu]⟩
    · rw [state_reset_of_ne _ hu]
      rcases h.awaits y hy with hover | ⟨hlast, hflight⟩
      · exact Or.inl (hover.append _)
      · exact Or.inr ⟨hcurrent hlast hu, hflight⟩
  · rw [hrunning]
    exact fun y hy z hz huser hrequest hoy hoz => h.alone y hy z hz huser hrequest
      (not_overtaken_of_append hoy) (not_overtaken_of_append hoz)
  · intro u r entry response hentry hresponse
    rw [hcache] at hentry
    by_cases hu : u = user
    · rw [hu, state_reset_self] at hentry
      exact absurd hentry (by simp)
    · rw [state_reset_of_ne _ hu] at hentry
      exact hcurrent (h.answered u r entry response hentry hresponse) hu

theorem step (h : Owned capacity trace t) {call : TrafficCall P} {t' : Traffic P}
    (hs : TrafficStep t call t') (hharmless : Harmless trace ⟨t, call, t'⟩) :
    Owned capacity (trace ++ [⟨t, call, t'⟩]) t' := by
  cases hs with
  | begin user request sequence => exact h.begin user request sequence
  | complete hx bytes => exact h.complete hx bytes rfl (hharmless _ bytes rfl)
  | reset user => exact h.reset user rfl

theorem run {s : Traffic P} (hr : Run TrafficStep s trace t) (h0 : Owned capacity [] s)
    (hharmless : ∀ before e after, trace = before ++ e :: after → Harmless before e) :
    Owned capacity trace t := by
  induction hr with
  | nil => exact h0
  | @snoc trace t t' call hr hs ih =>
    refine (ih fun before e after hsplit => ?_).step hs (hharmless trace _ [] rfl)
    refine hharmless before e (after ++ [⟨t, call, t'⟩]) ?_
    rw [hsplit, List.append_assoc, List.cons_append]

end Owned

/-- **A replayed response is that of the request the entry was made for**, as long as no execution
that a reset has overtaken completes while its request id is retained again. -/
theorem replays_own_response {capacity : Nat} {trace : TrafficTrace P} {t : Traffic P}
    (hr : Run TrafficStep { cache := { maxRequestsPerUser := capacity } } trace t)
    (hharmless : ∀ before e after, trace = before ++ e :: after → Harmless before e)
    {before after : TrafficTrace P} {e : Step (Traffic P) (TrafficCall P)}
    (hsplit : trace = before ++ e :: after) {user : UserId} {request sequence : Nat}
    {decision : RequestDecision (Produced P)} {response : Produced P}
    (hlabel : e.label = .begin user request sequence decision)
    (hcached : decision.cachedResponse = some response) :
    Current before ⟨response.execution, user, request⟩ := by
  subst hsplit
  obtain ⟨hbefore, hs, -⟩ := hr.split
  have howned := Owned.run hbefore (owned_fresh capacity) fun older e' newer h =>
    hharmless older e' (newer ++ e :: after) (by rw [h, List.append_assoc, List.cons_append])
  obtain ⟨_, label, _⟩ := e
  dsimp only at hlabel hs howned
  subst hlabel
  cases hs with
  | begin =>
    obtain ⟨entry, hentry, hresponse⟩ := begin_cachedResponse hcached
    exact howned.answered user request entry response hentry hresponse

/-! ## Runs with a reset -/

theorem harmless_of_getElem? {entries : TrafficTrace P}
    (h : ∀ i e, entries[i]? = some e → Harmless (entries.take i) e) {before after : TrafficTrace P}
    {e : Step (Traffic P) (TrafficCall P)} (hsplit : entries = before ++ e :: after) :
    Harmless before e := by
  subst hsplit
  simpa using h before.length e (by simp)

/-- An execution whose user has not been reset since. -/
theorem not_overtaken {entries : TrafficTrace P} {x : Execution} (i : Nat)
    (holder : ∀ e ∈ entries.take i, ¬ Starts e x)
    (hnewer : ∀ e ∈ entries.drop i, e.label ≠ .reset x.user) : ¬ Overtaken entries x := by
  rintro ⟨a, b, hsplit, ⟨e, he, hstart⟩, e', he', hreset⟩
  rw [← List.take_append_drop i entries] at hsplit
  rcases List.append_eq_append_iff.mp hsplit with ⟨c, -, hdrop⟩ | ⟨c, htake, -⟩
  · exact hnewer e' (hdrop ▸ List.mem_append_right _ he') hreset
  · exact holder e (htake ▸ List.mem_append_left _ he) hstart

/-- The request of user 7 is overtaken by a reset, finishes before its id is used again, and does
not answer for the next one. -/
theorem replays_own_response_reset : ∃ (trace : TrafficTrace Nat) (t : Traffic Nat),
    Run TrafficStep { cache := { maxRequestsPerUser := 4 } } trace t ∧
    ∃ before e after, trace = before ++ e :: after ∧
      e.label = .begin 7 1 1 { status := .duplicate, cachedResponse := some ⟨1, 6⟩ } ∧
      Current before ⟨1, 7, 1⟩ := by
  have hr := (((((Run.nil.snoc
    (TrafficStep.begin { cache := { maxRequestsPerUser := 4 } } 7 1 1)).snoc (.reset _ 7)).snoc
    (.complete _ (x := ⟨0, 7, 1⟩) (by decide) 5)).snoc (.begin _ 7 1 1)).snoc
    (.complete _ (x := ⟨1, 7, 1⟩) (by decide) 6)).snoc (.begin _ 7 1 1)
  refine ⟨_, _, hr, _, _, [], rfl, by rfl, ?_⟩
  refine replays_own_response hr (fun before e after hsplit => harmless_of_getElem? ?_ hsplit) rfl
    (by rfl) (by rfl)
  rintro i e he x bytes hlabel hovertaken
  rcases i with _ | _ | _ | _ | _ | _ | i
  · obtain rfl := Option.some.inj he
    cases hlabel
  · obtain rfl := Option.some.inj he
    cases hlabel
  · obtain rfl := Option.some.inj he
    obtain ⟨rfl, -⟩ := TrafficCall.complete.inj hlabel
    -- the reset has just emptied the window
    decide
  · obtain rfl := Option.some.inj he
    cases hlabel
  · obtain rfl := Option.some.inj he
    obtain ⟨rfl, -⟩ := TrafficCall.complete.inj hlabel
    -- the execution was started by the step before
    refine absurd hovertaken (not_overtaken 3 ?_ ?_)
    · rintro e he ⟨_, _, hbegin, -, hstarted⟩
      simp only [List.nil_append, List.cons_append, List.take_succ_cons, List.take_zero,
        List.mem_cons, List.not_mem_nil, or_false] at he
      rcases he with rfl | rfl | rfl
      · exact absurd hstarted (by decide)
      · cases hbegin
      · cases hbegin
    · intro e he
      simp only [List.nil_append, List.cons_append, List.take_succ_cons, List.take_zero,
        List.drop_succ_cons, List.drop_zero, List.mem_cons, List.not_mem_nil, or_false] at he
      obtain rfl := he
      exact nofun
  · obtain rfl := Option.some.inj he
    cases hlabel
  · cases he

/-- The execution of the request before the reset answers for the one after it. -/
theorem stale_response_replayed : ∃ (trace : TrafficTrace Nat) (t : Traffic Nat),
    Run TrafficStep { cache := { maxRequestsPerUser := 4 } } trace t ∧
    ∃ before e after, trace = before ++ e :: after ∧
      e.label = .begin 7 1 1 { status := .duplicate, cachedResponse := some ⟨0, 5⟩ } ∧
      ¬ Current before ⟨0, 7, 1⟩ := by
  have hr := ((((Run.nil.snoc
    (TrafficStep.begin { cache := { maxRequestsPerUser := 4 } } 7 1 1)).snoc (.reset _ 7)).snoc
    (.begin _ 7 1 1)).snoc (.complete _ (x := ⟨0, 7, 1⟩) (by decide) 5)).snoc (.begin _ 7 1 1)
  refine ⟨_, _, hr, _, _, [], rfl, by rfl, ?_⟩
  rintro ⟨older, e, newer, hsplit, ⟨sequence, decision, hlabel, hstatus, hstarted⟩, hnewer⟩
  simp only [List.nil_append, List.cons_append] at hsplit
  -- only the first step starts execution 0, and the reset comes after it
  rcases older with _ | ⟨a, _ | ⟨b, _ | ⟨c, _ | ⟨d, older⟩⟩⟩⟩
  · obtain ⟨-, rfl⟩ := List.cons.inj hsplit
    exact absurd rfl (hnewer _ List.mem_cons_self).1
  · obtain ⟨-, hsplit⟩ := List.cons.inj hsplit
    obtain ⟨rfl, -⟩ := List.cons.inj hsplit
    exact absurd hlabel (by simp)
  · obtain ⟨-, hsplit⟩ := List.cons.inj hsplit
    obtain ⟨-, hsplit⟩ := List.cons.inj hsplit
    obtain ⟨rfl, -⟩ := List.cons.inj hsplit
    exact absurd hstarted (by decide)
  · obtain ⟨-, hsplit⟩ := List.cons.inj hsplit
    obtain ⟨-, hsplit⟩ := List.cons.inj hsplit
    obtain ⟨-, hsplit⟩ := List.cons.inj hsplit
    obtain ⟨rfl, -⟩ := List.cons.inj hsplit
    exact absurd hlabel (by simp)
  · simp at hsplit

end IdempotencyCache

end PokerServer

import PokerServer.Application.Admission
import PokerServer.Client.Link

/-!
# The client's requests in turn

What becomes of the requests that the client numbers 1, 2, 3, … from the response that authenticates
it on (`Client/Link.lean`).

The client numbers a request when it makes it. If it does not write the request then, because it
does not know the action or cannot encode the message, the number is lost. So is one that the
limiter of the connection or `authorize` refuses. The server then finds a gap before every later
request of the period.

* `requests_in_turn`: in every run the window admits a request iff it has admitted every number
  before it since it was reset last. It is reset, and requests are refused for their session, only
  once a LOGOUT was admitted or the session is over. As long as neither happens, no number is lost
  and the window has room, every request of the client is admitted.
-/

namespace PokerServer

open NetworkClient IdempotencyCache

namespace Link

variable {R : Type}

/-! ## The window -/

variable {cache : IdempotencyCache R} {user : UserId} {request sequence capacity : Nat}

/-- A request that is new and ahead of its turn meets a gap. -/
theorem begin_gap (huser : user ≠ 0) (hrequest : request ≠ 0)
    (hnew : request ∉ (cache.state user).entries)
    (hahead : (cache.state user).lastSequence + 1 < sequence) :
    (cache.begin user request sequence).1.status = .sequenceGap ∧
      (cache.begin user request sequence).2.state user = cache.state user := by
  have hentry : (cache.state user).entries.lookup request = none := AList.lookup_eq_none.mpr hnew
  have hnonzero : ¬ (user = 0 ∨ request = 0 ∨ sequence = 0) := by
    rintro (h | h | h)
    · exact huser h
    · exact hrequest h
    · omega
  unfold IdempotencyCache.begin
  rw [if_neg hnonzero]
  simp only [hentry]
  rw [if_neg (by omega), if_pos (by omega)]
  exact ⟨rfl, state_setState_self _ _ _⟩

/-- A request that is new and in its turn is admitted, or the window is full. -/
theorem begin_next (hk : Kept capacity cache) (huser : user ≠ 0) (hrequest : request ≠ 0)
    (hnew : request ∉ (cache.state user).entries)
    (hnext : sequence = (cache.state user).lastSequence + 1) :
    ((cache.begin user request sequence).1.status = .accepted ∧
        ((cache.begin user request sequence).2.state user).lastSequence = sequence ∧
        ∀ id ∈ ((cache.begin user request sequence).2.state user).entries,
          id = request ∨ id ∈ (cache.state user).entries) ∨
      (cache.begin user request sequence).1.status = .capacityExceeded ∧
        (cache.begin user request sequence).2.state user = cache.state user := by
  obtain ⟨hadmitted, -, -⟩ := begin_admitted (hk.size.symm ▸ hk.inStep user) request sequence
  generalize (cache.begin user request sequence).1.status = status at hadmitted ⊢
  generalize (cache.begin user request sequence).2.state user = state at hadmitted ⊢
  cases hadmitted with
  | refused hwhy =>
    rcases hwhy with (h | h | h) | h | h
    · exact absurd h huser
    · exact absurd h hrequest
    · omega
    · exact absurd h hnew
    · exact absurd hnext h
  | full => exact Or.inr ⟨rfl, rfl⟩
  | room => exact Or.inl ⟨rfl, rfl, fun id hid => (AList.mem_insert _).mp hid⟩
  | evicting =>
    refine Or.inl ⟨rfl, rfl, fun id hid => ?_⟩
    exact ((AList.mem_insert _).mp hid).imp_right fun h => (AList.mem_erase.mp h).2

/-- A response changes neither the last sequence nor which requests are retained. -/
theorem complete_window (cache : IdempotencyCache R) (user any : UserId) (request : Nat)
    (response : R) :
    ((cache.complete any request response).state user).lastSequence =
        (cache.state user).lastSequence ∧
      ∀ id, id ∈ ((cache.complete any request response).state user).entries ↔
        id ∈ (cache.state user).entries := by
  by_cases hany : user = any
  · subst hany
    rw [complete_state]
    split
    · exact ⟨rfl, fun _ => Iff.rfl⟩
    · rename_i entry hentry
      refine ⟨rfl, fun id => (AList.mem_insert _).trans ⟨?_, Or.inr⟩⟩
      rintro (rfl | hid)
      · exact AList.lookup_isSome.mp (by rw [hentry]; rfl)
      · exact hid
  · rw [complete_state_of_ne _ hany]
    exact ⟨rfl, fun _ => Iff.rfl⟩

theorem reset_state_of_ne {other : UserId} (h : other ≠ user) :
    (cache.reset other).state user = cache.state user := by
  rw [state, state, IdempotencyCache.reset, AList.lookup_erase_ne (Ne.symm h)]

theorem reset_state (cache : IdempotencyCache R) (user : UserId) :
    (cache.reset user).state user = {} := by
  rw [state, IdempotencyCache.reset, AList.lookup_erase]
  rfl

theorem kept_reset (h : Kept capacity cache) (other : UserId) :
    Kept capacity (cache.reset other) := by
  refine ⟨h.size, fun user => ?_⟩
  by_cases hother : other = user
  · subst hother
    rw [reset_state]
    exact .empty capacity
  · rw [reset_state_of_ne hother]
    exact h.inStep user

/-! ## One step -/

variable {rt : Runtime} {peer : String × Nat} {l l' : Link R} {label : Label R}

/-- Why a number of the period can be lost. -/
def Loses (rt : Runtime) (message : Envelope) : Prop :=
  (∃ text, rt.encode message = .error text) ∨
    ∃ tableId handId target, message.body = .action tableId handId target none

/-- What holds between the client, the connection and the window. -/
structure Ordered (rt : Runtime) (user : UserId) (peer : String × Nat) (capacity : Nat)
    (l : Link R) : Prop where
  kept : Kept capacity l.cache
  connection : l.client.authenticated = true →
    l.client.socket = .connected ∧ l.client.peer = peer
  counter : l.client.authenticated = true → l.client.clientSequence = l.period.length
  numbered : l.period.map (·.envelope.clientSequence) = List.range' 1 l.period.length
  fresh : (l.period.map (·.envelope.requestId)).Pairwise (· < ·)
  ids : ∀ m ∈ l.period, 0 < m.envelope.requestId ∧
    m.envelope.requestId < l.client.nextRequestId
  lost : ∀ m ∈ l.period, m.written = false → Loses rt m.envelope
  waiting : l.pending.Subperm (l.period.map (·.envelope))
  last : (l.cache.state user).lastSequence ≤ l.period.length
  retained : ∀ id ∈ (l.cache.state user).entries, id < l.client.nextRequestId
  ahead : ∀ r ∈ l.pending, (l.cache.state user).lastSequence < r.clientSequence ∧
    r.requestId ∉ (l.cache.state user).entries

/-- What an event adds to the numbered requests: nothing, or the next one. -/
theorem numbered_cases {c c' : NetworkClient} (h : Outcome rt c c') (hempty : c.outbox = []) :
    (c'.authenticated = true → c.authenticated = true ∧ c'.socket = c.socket ∧ c'.peer = c.peer) ∧
      (c'.numbered = [] ∧ c.nextRequestId ≤ c'.nextRequestId ∧
          (c'.authenticated = true → c'.clientSequence = c.clientSequence) ∨
        ∃ body written,
          c'.numbered = [⟨⟨c.nextRequestId, c.clientSequence + 1, body⟩, written⟩] ∧
          c'.nextRequestId = c.nextRequestId + 1 ∧ c'.clientSequence = c.clientSequence + 1 ∧
          (c.socket = .connected → written = false →
            Loses rt ⟨c.nextRequestId, c.clientSequence + 1, body⟩)) := by
  cases h with
  | still h =>
    refine ⟨fun hauth => ?_, Or.inl ⟨?_, Nat.le_of_eq h.nextRequestId.symm, fun hauth => ?_⟩⟩
    · obtain ⟨hauth, -, hsame⟩ := h.period hauth
      exact ⟨hauth, hsame⟩
    · rw [numbered, h.outbox, hempty]
      rfl
    · exact (h.period hauth).2.1
  | plain body h hsequence =>
    refine ⟨fun hauth => ?_, Or.inl ⟨?_, ?_, fun _ => hsequence⟩⟩
    · have hauth := h.same.1.symm.trans hauth
      exact ⟨hauth, h.same.2 hauth⟩
    · obtain ⟨written, hmade, -⟩ := h.outbox
      rw [numbered, hmade, hempty]
      rfl
    · rw [h.nextRequestId]
      exact Nat.le_succ _
  | sequenced body h hsequence =>
    obtain ⟨written, hmade, hlost⟩ := h.outbox
    refine ⟨fun hauth => ?_, Or.inr ⟨body, written, ?_, h.nextRequestId, hsequence, hlost⟩⟩
    · have hauth := h.same.1.symm.trans hauth
      exact ⟨hauth, h.same.2 hauth⟩
    · rw [numbered, hmade, hempty]
      rfl

/-- The numbered request goes to the end of the period, and of the wire if it is written. -/
theorem Ordered.append (h : l.Ordered rt user peer capacity) {m : Made} {client : NetworkClient}
    (hid : m.envelope.requestId = l.client.nextRequestId)
    (hsequence : m.envelope.clientSequence = l.period.length + 1)
    (hnext : client.nextRequestId = l.client.nextRequestId + 1)
    (hcounter : client.clientSequence = l.period.length + 1)
    (hconnection : client.authenticated = true → client.socket = .connected ∧ client.peer = peer)
    (hlost : m.written = false → Loses rt m.envelope) :
    Ordered rt user peer capacity
      { l with client, period := l.period ++ [m], wire := l.wire ++ written [m] } where
  kept := h.kept
  connection := hconnection
  counter _ := by rw [hcounter, List.length_append, List.length_singleton]
  numbered := by
    rw [List.map_append, h.numbered, List.length_append, List.length_singleton,
      List.range'_1_concat, List.map_singleton, hsequence, Nat.add_comm]
  fresh := by
    rw [List.map_append, List.pairwise_append]
    refine ⟨h.fresh, List.pairwise_singleton _ _, fun id hmem id' hmem' => ?_⟩
    obtain ⟨m', hm', rfl⟩ := List.mem_map.mp hmem
    obtain rfl := List.mem_singleton.mp hmem'
    exact Nat.lt_of_lt_of_eq (h.ids m' hm').2 hid.symm
  ids m' hm' := by
    rw [hnext]
    rcases List.mem_append.mp hm' with hm' | hm'
    · exact ⟨(h.ids m' hm').1, Nat.lt_succ_of_lt (h.ids m' hm').2⟩
    · obtain rfl := List.mem_singleton.mp hm'
      rw [hid]
      exact ⟨l.client.counted, Nat.lt_succ_self _⟩
  lost m' hm' hwritten := by
    rcases List.mem_append.mp hm' with hm' | hm'
    · exact h.lost m' hm' hwritten
    · obtain rfl := List.mem_singleton.mp hm'
      exact hlost hwritten
  waiting := by
    rw [pending_append, List.map_append]
    exact h.waiting.append (List.filter_sublist.map _).subperm
  last := by
    rw [List.length_append]
    exact Nat.le_add_right_of_le h.last
  retained id hid := by
    rw [hnext]
    exact Nat.lt_succ_of_lt (h.retained id hid)
  ahead r hr := by
    rw [pending_append] at hr
    rcases List.mem_append.mp hr with hr | hr
    · exact h.ahead r hr
    · obtain ⟨m', hm', rfl⟩ := List.mem_map.mp hr
      obtain rfl := List.mem_singleton.mp (List.mem_of_mem_filter hm')
      rw [hsequence, hid]
      exact ⟨Nat.lt_succ_of_le h.last, fun hmem => Nat.lt_irrefl _ (h.retained _ hmem)⟩

/-- The client has numbered no request. -/
theorem Ordered.quiet (h : l.Ordered rt user peer capacity) {client : NetworkClient}
    (hnext : l.client.nextRequestId ≤ client.nextRequestId)
    (hperiod : client.authenticated = true → l.client.authenticated = true ∧
      client.clientSequence = l.client.clientSequence ∧ client.socket = l.client.socket ∧
      client.peer = l.client.peer) :
    Ordered rt user peer capacity { l with client } where
  kept := h.kept
  connection hauth := by
    obtain ⟨hauth, -, hsocket, hpeer⟩ := hperiod hauth
    rw [hsocket, hpeer]
    exact h.connection hauth
  counter hauth := by
    obtain ⟨hauth, hsequence, -⟩ := hperiod hauth
    exact hsequence.trans (h.counter hauth)
  numbered := h.numbered
  fresh := h.fresh
  ids m hm := ⟨(h.ids m hm).1, Nat.lt_of_lt_of_le (h.ids m hm).2 hnext⟩
  lost := h.lost
  waiting := h.waiting
  last := h.last
  retained id hid := Nat.lt_of_lt_of_le (h.retained id hid) hnext
  ahead := h.ahead

/-- **What the client does is passed on in order.** -/
theorem Ordered.pass (h : l.Ordered rt user peer capacity) {client : NetworkClient}
    (houtcome : Outcome rt { l.client with outbox := [] } client) :
    Ordered rt user peer capacity (l.pass client) ∧
      ∃ new, (l.pass client).period = l.period ++ new ∧
        (l.pass client).pending = l.pending ++ written new ∧
        (new = [] ∨ ∃ m, new = [m] ∧ m.envelope.clientSequence = l.period.length + 1) := by
  obtain ⟨hperiod, hcases⟩ := numbered_cases houtcome rfl
  rw [Link.pass]
  split
  · rename_i hauth
    have hcount : l.client.clientSequence = l.period.length := h.counter hauth
    rcases hcases with ⟨hnone, hnext, hsequence⟩ | ⟨body, wrote, hone, hnext, hsequence, hlost⟩
    · rw [hnone]
      refine ⟨?_, [], rfl, pending_append _ _ _ _, Or.inl rfl⟩
      have hquiet := h.quiet hnext fun hauth' => ⟨hauth, hsequence hauth', (hperiod hauth').2⟩
      simpa [written] using hquiet
    · rw [hone]
      refine ⟨h.append rfl ?_ hnext ?_ (fun hauth' => ?_) (hlost (h.connection hauth).1), _, rfl,
        pending_append _ _ _ _, Or.inr ⟨_, rfl, congrArg (· + 1) hcount⟩⟩
      · exact congrArg (· + 1) hcount
      · exact hsequence.trans (congrArg (· + 1) hcount)
      · obtain ⟨-, hsocket, hpeer⟩ := hperiod hauth'
        rw [hsocket, hpeer]
        exact h.connection hauth
  · rename_i hout
    refine ⟨h.quiet ?_ fun hauth' => absurd (hperiod hauth').1 hout, [], ?_, ?_, Or.inl rfl⟩
    · rcases hcases with ⟨-, hnext, -⟩ | ⟨-, -, -, hnext, -⟩
      · exact hnext
      · rw [hnext]
        exact Nat.le_succ _
    · exact (List.append_nil _).symm
    · exact (List.append_nil _).symm

/-- The requests that the window has not seen differ in their ids and sequences. -/
theorem Ordered.apart (h : l.Ordered rt user peer capacity) : l.pending.Pairwise fun r r' =>
    r.requestId ≠ r'.requestId ∧ r.clientSequence ≠ r'.clientSequence := by
  have hids : (l.period.map (·.envelope)).Pairwise fun r r' => r.requestId ≠ r'.requestId := by
    have hfresh := h.fresh.imp fun hlt => Nat.ne_of_lt hlt
    rw [List.pairwise_map] at hfresh ⊢
    exact hfresh
  have hsequences : (l.period.map (·.envelope)).Pairwise fun r r' =>
      r.clientSequence ≠ r'.clientSequence := by
    have hrange : (l.period.map (·.envelope.clientSequence)).Pairwise (· ≠ ·) := by
      rw [h.numbered]
      exact List.nodup_range'
    rw [List.pairwise_map] at hrange ⊢
    exact hrange
  obtain ⟨listed, hperm, hsub⟩ := h.waiting
  exact (hperm.pairwise_iff fun hne => ⟨hne.1.symm, hne.2.symm⟩).mp
    ((hids.and hsequences).sublist hsub)

theorem Ordered.pending_mem (h : l.Ordered rt user peer capacity) {r : Envelope}
    (hr : r ∈ l.pending) :
    0 < r.requestId ∧ r.requestId < l.client.nextRequestId ∧ 0 < r.clientSequence ∧
      r.clientSequence ≤ l.period.length := by
  obtain ⟨m, hm, rfl⟩ := List.mem_map.mp (h.waiting.subset hr)
  have hmem : m.envelope.clientSequence ∈ List.range' 1 l.period.length := by
    rw [← h.numbered]
    exact List.mem_map_of_mem hm
  rw [List.mem_range'_1] at hmem
  exact ⟨(h.ids m hm).1, (h.ids m hm).2, by omega, by omega⟩

/-- A step that adds nothing to what the window has not seen, nor to the user's window. -/
theorem Ordered.window (h : l.Ordered rt user peer capacity) (hclient : l'.client = l.client)
    (hperiod : l'.period = l.period) (hpending : l'.pending.Subperm l.pending)
    (hkept : Kept capacity l'.cache)
    (hlast : (l'.cache.state user).lastSequence ≤ (l.cache.state user).lastSequence)
    (hentries : ∀ id ∈ (l'.cache.state user).entries, id ∈ (l.cache.state user).entries) :
    l'.Ordered rt user peer capacity where
  kept := hkept
  connection := hclient ▸ h.connection
  counter := hclient ▸ hperiod ▸ h.counter
  numbered := hperiod ▸ h.numbered
  fresh := hperiod ▸ h.fresh
  ids := hclient ▸ hperiod ▸ h.ids
  lost := hperiod ▸ h.lost
  waiting := hperiod ▸ hpending.trans h.waiting
  last := hperiod ▸ Nat.le_trans hlast h.last
  retained id hid := hclient ▸ h.retained id (hentries id hid)
  ahead r hr := by
    obtain ⟨hahead, hnew⟩ := h.ahead r (hpending.subset hr)
    exact ⟨Nat.lt_of_le_of_lt hlast hahead, fun hold => hnew (hentries _ hold)⟩

/-- What the window decides about a request that it has not seen. -/
theorem Ordered.decides (h : l.Ordered rt user peer capacity) (huser : user ≠ 0)
    {request : Envelope} (hmem : request ∈ l.pending) :
    (request.clientSequence = (l.cache.state user).lastSequence + 1 ∧
        ((l.cache.begin user request.requestId request.clientSequence).1.status = .accepted ∧
          ((l.cache.begin user request.requestId request.clientSequence).2.state
            user).lastSequence = request.clientSequence ∧
          (∀ id ∈ ((l.cache.begin user request.requestId request.clientSequence).2.state
            user).entries, id = request.requestId ∨ id ∈ (l.cache.state user).entries) ∨
        (l.cache.begin user request.requestId request.clientSequence).1.status =
            .capacityExceeded ∧
          (l.cache.begin user request.requestId request.clientSequence).2.state user =
            l.cache.state user)) ∨
      (l.cache.state user).lastSequence + 1 < request.clientSequence ∧
        (l.cache.begin user request.requestId request.clientSequence).1.status = .sequenceGap ∧
        (l.cache.begin user request.requestId request.clientSequence).2.state user =
          l.cache.state user := by
  obtain ⟨hahead, hnew⟩ := h.ahead request hmem
  have hrequest : request.requestId ≠ 0 := Nat.ne_of_gt (h.pending_mem hmem).1
  rcases Nat.lt_or_ge ((l.cache.state user).lastSequence + 1) request.clientSequence with
    hgap | hnext
  · exact Or.inr ⟨hgap, begin_gap huser hrequest hnew hgap⟩
  · have hturn := Nat.le_antisymm hnext hahead
    exact Or.inl ⟨hturn, begin_next h.kept huser hrequest hnew hturn⟩

/-- The window sees one of the requests. -/
theorem Ordered.serve (h : l.Ordered rt user peer capacity) (huser : user ≠ 0)
    (hclient : l'.client = l.client) (hperiod : l'.period = l.period) {request : Envelope}
    (hpending : l.pending.Perm (request :: l'.pending))
    (hcache : l'.cache = (l.cache.begin user request.requestId request.clientSequence).2) :
    l'.Ordered rt user peer capacity := by
  have hmem : request ∈ l.pending := hpending.mem_iff.mpr List.mem_cons_self
  have hkept : Kept capacity l'.cache :=
    hcache ▸ h.kept.step (CacheStep.begin l.cache user request.requestId request.clientSequence)
  have htail : l'.pending.Subperm l.pending :=
    (List.sublist_cons_self request _).subperm.trans hpending.symm.subperm
  have hsame (hstate : l'.cache.state user = l.cache.state user) :
      l'.Ordered rt user peer capacity :=
    h.window hclient hperiod htail hkept (Nat.le_of_eq (congrArg (·.lastSequence) hstate))
      (by rw [hstate]; exact fun _ => id)
  have hdecides := h.decides huser hmem
  rw [← hcache] at hdecides
  rcases hdecides with ⟨hturn, ⟨-, hlast, hentries⟩ | ⟨-, hstate⟩⟩ | ⟨-, -, hstate⟩
  · obtain ⟨-, hnext, -, hlength⟩ := h.pending_mem hmem
    have hapart := (hpending.pairwise_iff fun hne => ⟨hne.1.symm, hne.2.symm⟩).mp h.apart
    have hdropped : Ordered rt user peer capacity { l' with cache := l.cache } :=
      h.window hclient hperiod htail h.kept (Nat.le_refl _) fun _ => id
    refine { hdropped with kept := hkept, last := ?_, retained := ?_, ahead := ?_ }
    · rw [hlast, hperiod]
      exact hlength
    · intro id hid
      rw [hclient]
      rcases hentries id hid with rfl | hold
      · exact hnext
      · exact h.retained id hold
    · intro r hr
      obtain ⟨hahead, hnew⟩ := h.ahead r (htail.subset hr)
      obtain ⟨hid, hsequence⟩ := (List.pairwise_cons.mp hapart).1 r hr
      rw [hlast]
      refine ⟨by omega, fun hold => ?_⟩
      rcases hentries _ hold with heq | hold
      · exact hid heq.symm
      · exact hnew hold
  · exact hsame hstate
  · exact hsame hstate

theorem begin_state_of_ne (h : Kept capacity cache) {other : UserId} (hother : other ≠ user)
    (request sequence : Nat) :
    Kept capacity (cache.begin other request sequence).2 ∧
      (cache.begin other request sequence).2.state user = cache.state user := by
  obtain ⟨-, hsame, -⟩ := begin_admitted (h.size.symm ▸ h.inStep other) request sequence
  exact ⟨h.step (CacheStep.begin cache other request sequence), hsame user (Ne.symm hother)⟩

/-- **What a step does to the user's window**, unless the window sees a request of the user: it
resets the window, or it changes neither the last sequence nor which requests are retained. -/
theorem Label.Caches.window {after : IdempotencyCache R} (h : label.Caches user cache after)
    (hkept : Kept capacity cache)
    (hserve : ∀ request decision, label ≠ .serve user request decision) :
    Kept capacity after ∧ (label = .reset user ∧ after.state user = {} ∨
      label ≠ .reset user ∧ (after.state user).lastSequence = (cache.state user).lastSequence ∧
        ∀ id ∈ (after.state user).entries, id ∈ (cache.state user).entries) := by
  have hsame (hlabel : label ≠ .reset user) (hstate : after.state user = cache.state user) :
      label = .reset user ∧ after.state user = {} ∨
        label ≠ .reset user ∧ (after.state user).lastSequence = (cache.state user).lastSequence ∧
          ∀ id ∈ (after.state user).entries, id ∈ (cache.state user).entries :=
    Or.inr ⟨hlabel, by rw [hstate], by rw [hstate]; exact fun _ => id⟩
  cases label with
  | serve asking request decision =>
    have hasking : asking ≠ user := fun heq => hserve request decision (by rw [heq])
    obtain ⟨hkept', hstate⟩ :=
      begin_state_of_ne hkept hasking request.requestId request.clientSequence
    obtain rfl : _ = after := congrArg Prod.snd h
    exact ⟨hkept', hsame nofun hstate⟩
  | complete any request response =>
    subst h
    obtain ⟨hlast, hentries⟩ := complete_window cache user any request response
    exact ⟨hkept.step (CacheStep.complete cache any request response),
      Or.inr ⟨nofun, hlast, fun id hid => (hentries id).mp hid⟩⟩
  | other any request sequence =>
    obtain ⟨hany, rfl⟩ := h
    obtain ⟨hkept', hstate⟩ := begin_state_of_ne hkept hany request sequence
    exact ⟨hkept', hsame nofun hstate⟩
  | reset asking =>
    subst h
    by_cases hasking : asking = user
    · subst hasking
      exact ⟨kept_reset hkept _, Or.inl ⟨rfl, reset_state _ _⟩⟩
    · refine ⟨kept_reset hkept _, hsame ?_ (reset_state_of_ne hasking)⟩
      exact fun heq => hasking (Label.reset.inj heq)
  | _ =>
    obtain rfl : after = cache := h
    exact ⟨hkept, hsame nofun rfl⟩

theorem Ordered.step (h : l.Ordered rt user peer capacity) (huser : user ≠ 0)
    (hs : LinkStep rt user l label l') : l'.Ordered rt user peer capacity := by
  rcases hs.does with
    ⟨event, client, rfl, hevent, hacts, rfl⟩ | ⟨hclient, hperiod, hpending, hcaches⟩
  · exact (h.pass (exec_outcome hacts hevent fun hauth => (h.connection hauth).1)).1
  by_cases hserve : ∃ request decision, label = .serve user request decision
  · obtain ⟨request, decision, rfl⟩ := hserve
    exact h.serve huser hclient hperiod hpending (congrArg Prod.snd hcaches).symm
  have htail : l'.pending.Subperm l.pending :=
    (List.sublist_append_right _ _).subperm.trans hpending.symm.subperm
  obtain ⟨hkept, hreset | hsame⟩ := hcaches.window h.kept fun request decision heq =>
    hserve ⟨request, decision, heq⟩
  · refine h.window hclient hperiod htail hkept ?_ ?_
    · rw [hreset.2]
      exact Nat.zero_le _
    · rw [hreset.2]
      exact fun id hid => absurd hid (AList.notMem_empty id)
  · exact h.window hclient hperiod htail hkept (Nat.le_of_eq hsame.2.1) hsame.2.2

/-! ## The session -/

/-- A LOGOUT is admitted, or it is past the time the session lasts. -/
def Label.Ends (expires : Int) : Label R → Prop
  | .serve _ request decision => request.body = .logout ∧ decision.status = .accepted
  | .authorized now _ | .refused now _ | .resumes now _ | .session now => expires ≤ now
  | _ => False

/-- A request is refused, or handled for somebody else, or the session or the window changes. -/
def Label.Upsets (user : UserId) : Label R → Prop
  | .refused .. | .resumes .. | .signIn _ | .signOut _ => True
  | .reset asking => asking = user
  | .serve asking .. => asking ≠ user
  | _ => False

/-- The session is the user's and no task is about to change it. -/
structure Settled (user : UserId) (expires : Int) (l : Link R) : Prop where
  identity : l.session.userId = some user
  expiry : l.session.expiresAtUnixMs = expires
  turn : l.session.authenticationInProgress = false
  own : ∀ asking request, l.checked = some (asking, request) → asking = user
  resuming : l.resuming = []
  resumed : l.resumed = []
  logouts : l.logouts = []
  resets : l.resets = []

variable {expires now : Int}

theorem Settled.checkExpiry (h : l.Settled user expires) (hnow : now < expires) :
    l.session.perform now .checkExpiry = (⟨some user, false, l.session.tableId⟩, l.session) := by
  have hlate : ¬ l.session.expiresAtUnixMs ≤ now := by
    rw [h.expiry]
    omega
  simp [ConnectionSession.perform, h.identity, hlate]

theorem Settled.beginAuthentication (h : l.Settled user expires) (hnow : now < expires) :
    l.session.perform now .beginAuthentication = (.alreadyAuthenticated, l.session) := by
  simp [ConnectionSession.perform, h.identity, h.expiry, hnow]

theorem Settled.not_refused (h : l.Settled user expires) (hnow : now < expires)
    {request : Envelope} {after : ConnectionSession} : ¬ Refused l.session now request after := by
  intro hrefused
  cases hrefused with
  | unauthenticated hcheck hwhy =>
    rw [h.checkExpiry hnow] at hcheck
    obtain ⟨rfl, -⟩ := Prod.mk.inj hcheck
    rcases hwhy with hnone | hexpired
    · cases hnone
    · cases hexpired
  | inProgress _ hturn =>
    rw [h.beginAuthentication hnow] at hturn
    cases (Prod.mk.inj hturn).1

/-- **The session lasts** until a step ends it, and until then no step upsets the requests. -/
theorem Settled.step (h : l.Settled user expires) (hs : LinkStep rt user l label l')
    (hends : ¬ label.Ends expires) : l'.Settled user expires ∧ ¬ label.Upsets user := by
  cases hs with
  | client hevent hacts =>
    refine ⟨?_, id⟩
    rw [pass]
    split <;> exact { h with }
  | limited | invalid => exact ⟨{ h with }, id⟩
  | authorized hidle hwire hid hauthorizes =>
    obtain ⟨table, hcheck⟩ := hauthorizes
    rw [h.checkExpiry (Int.not_le.mp hends)] at hcheck
    obtain ⟨hfound, rfl⟩ := Prod.mk.inj hcheck
    obtain ⟨huser, -⟩ := ConnectionSession.Check.mk.inj hfound
    obtain rfl := Option.some.inj huser
    exact ⟨{ h with own := fun _ _ heq => (congrArg Prod.fst (Option.some.inj heq)).symm }, id⟩
  | refused hidle hwire hid hrefused => exact absurd hrefused (h.not_refused (Int.not_le.mp hends))
  | resumes hidle hwire hid hbody hturn =>
    rw [h.beginAuthentication (Int.not_le.mp hends)] at hturn
    cases (Prod.mk.inj hturn).1
  | resumed hmem | unresumed hmem =>
    rw [h.resuming] at hmem
    cases hmem
  | @serve asking request hchecked =>
    obtain rfl := h.own _ _ hchecked
    refine ⟨{ h with own := nofun, logouts := ?_ }, fun hne => hne rfl⟩
    exact (if_neg hends).trans h.logouts
  | serveResumed hmem =>
    rw [h.resumed] at hmem
    cases hmem
  | session now hop =>
    cases hop with
    | beginAuthentication =>
      rw [h.beginAuthentication (Int.not_le.mp hends)]
      exact ⟨{ h with }, id⟩
    | endAuthentication => exact ⟨{ h with turn := rfl }, id⟩
    | setTable => exact ⟨{ h with }, id⟩
  | signIn hturn =>
    rw [h.turn] at hturn
    cases hturn
  | signOut hmem =>
    rw [h.logouts] at hmem
    cases hmem
  | reset hmem =>
    rw [h.resets] at hmem
    cases hmem
  | complete | other => exact ⟨{ h with }, id⟩
  | otherReset hother => exact ⟨{ h with }, hother⟩

theorem ordered_run {trace : LinkTrace R} (hr : Run (LinkStep rt user) l trace l')
    (huser : user ≠ 0) (h : l.Ordered rt user peer capacity) : l'.Ordered rt user peer capacity :=
  hr.invariant h fun _ _ _ h hs => h.step huser hs

def Label.record (user : UserId) (seen : List Nat) : Label R → List Nat
  | .serve asking request decision =>
    if asking = user ∧ decision.status = .accepted then seen ++ [request.clientSequence] else seen
  | .reset asking => if asking = user then [] else seen
  | _ => seen

/-- The sequences of the user's requests that were admitted since the window was reset last. -/
def admitted (user : UserId) (trace : LinkTrace R) : List Nat :=
  trace.foldl (fun seen e => e.label.record user seen) []

theorem pass_cache (l : Link R) (client : NetworkClient) : (l.pass client).cache = l.cache := by
  rw [pass]
  split <;> rfl

/-- The session ends, a frame is over the rate, or a request meets a full window. -/
def Label.Disturbs (expires : Int) (label : Label R) : Prop :=
  label.Ends expires ∨ (∃ request, label = .limited request) ∨
    ∃ asking request decision, label = .serve asking request decision ∧
      decision.status = .capacityExceeded

/-- Every request of the period was written, under an id that the server takes. -/
def Unlost (l : Link R) : Prop :=
  ∀ m ∈ l.period, m.written = true ∧ m.envelope.requestId < 2 ^ 63

/-- The window sees the requests next that come after the admitted ones. -/
def Steady (user : UserId) (l : Link R) : Prop :=
  l.pending.map (·.clientSequence) = List.range' ((l.cache.state user).lastSequence + 1)
    (l.period.length - (l.cache.state user).lastSequence)

theorem written_eq {made : List Made} (h : ∀ m ∈ made, m.written = true) :
    written made = made.map (·.envelope) := by
  rw [written, List.filter_eq_self.mpr h]

theorem range'_head {first start length : Nat} {rest : List Nat}
    (h : first :: rest = List.range' start length) :
    first = start ∧ rest = List.range' (start + 1) (length - 1) := by
  cases length with
  | zero => cases h
  | succ length =>
    rw [List.range'_succ] at h
    exact List.cons.inj h

theorem Steady.same (h : l.Steady user) (hperiod : l'.period = l.period)
    (hpending : l'.pending = l.pending)
    (hlast : (l'.cache.state user).lastSequence = (l.cache.state user).lastSequence) :
    l'.Steady user := by
  rw [Steady, hpending, hperiod, hlast]
  exact h

theorem Steady.pass (h : l.Steady user) (hordered : l.Ordered rt user peer capacity)
    {client : NetworkClient} (houtcome : Outcome rt { l.client with outbox := [] } client)
    (hunlost : (l.pass client).Unlost) : (l.pass client).Steady user := by
  obtain ⟨-, new, hperiod, hpending, hnew⟩ := hordered.pass houtcome
  rcases hnew with rfl | ⟨m, rfl, hsequence⟩
  · exact h.same (hperiod.trans (List.append_nil _)) (hpending.trans (List.append_nil _))
      (by rw [pass_cache])
  · rw [Unlost, hperiod] at hunlost
    have hwritten : m.written = true := (hunlost m (by simp)).1
    have hlast := hordered.last
    rw [Steady, pass_cache, hpending, hperiod, List.map_append, h,
      written_eq (by simpa using hwritten), List.length_append, List.length_singleton,
      Nat.sub_add_comm hlast, List.range'_1_concat]
    simp only [List.map_cons, List.map_nil, hsequence]
    congr 2
    omega

/-- The window admits the request it sees. -/
theorem Steady.serve (h : l.Steady user) (hordered : l.Ordered rt user peer capacity)
    (huser : user ≠ 0) {request : Envelope} {decision : RequestDecision R}
    (hpending : l.pending = request :: l'.pending)
    (hbegin : l.cache.begin user request.requestId request.clientSequence = (decision, l'.cache))
    (hperiod : l'.period = l.period) (hroom : decision.status ≠ .capacityExceeded) :
    decision.status = .accepted ∧ l'.Steady user := by
  have hmem : request ∈ l.pending := hpending ▸ List.mem_cons_self
  rw [Steady, hpending, List.map_cons] at h
  obtain ⟨hturn, htail⟩ := range'_head h
  have hdecides := hordered.decides huser hmem
  simp only [hbegin] at hdecides
  rcases hdecides with ⟨-, ⟨hstatus, hlast, -⟩ | ⟨hstatus, -⟩⟩ | ⟨hgap, -⟩
  · refine ⟨hstatus, ?_⟩
    rw [Steady, hlast, htail, hturn, hperiod, Nat.sub_sub]
  · exact absurd hstatus hroom
  · omega

/-- **What an undisturbed step does**: the requests stay in turn, and one that the step is done with
is admitted. -/
theorem Steady.step (h : l.Steady user) (hordered : l.Ordered rt user peer capacity)
    (hsettled : l.Settled user expires) (huser : user ≠ 0) (hs : LinkStep rt user l label l')
    (hunlost : l'.Unlost) (hcalm : ¬ label.Disturbs expires) :
    l'.Steady user ∧ ∀ request ∈ label.takes, ∃ decision,
      label = .serve user request decision ∧ decision.status = .accepted := by
  have hends : ¬ label.Ends expires := fun hends => hcalm (Or.inl hends)
  have hupsets := (hsettled.step hs hends).2
  have hnone (htakes : label.takes = []) : ∀ request ∈ label.takes, ∃ decision,
      label = .serve user request decision ∧ decision.status = .accepted := by
    rw [htakes]
    exact fun _ hmem => absurd hmem List.not_mem_nil
  cases hs with
  | client hevent hacts =>
    have houtcome := exec_outcome hacts hevent fun hauth => (hordered.connection hauth).1
    exact ⟨h.pass hordered houtcome hunlost, hnone rfl⟩
  | limited => exact absurd (Or.inr (Or.inl ⟨_, rfl⟩)) hcalm
  | @invalid request wire hidle hwire hid =>
    have hmem : request ∈ l.pending := by simp [pending, hwire]
    obtain ⟨m, hm, rfl⟩ := List.mem_map.mp (hordered.waiting.subset hmem)
    exact absurd (hunlost m hm).2 (Nat.not_lt.mpr hid)
  | authorized hidle hwire =>
    refine ⟨h.same rfl ?_ rfl, hnone rfl⟩
    simp [pending, hidle, hwire, hsettled.resumed, hsettled.resuming]
  | refused | unresumed | resumes | signIn | signOut => exact absurd trivial hupsets
  | resumed hmem =>
    rw [hsettled.resuming] at hmem
    cases hmem
  | @serve asking request hchecked =>
    obtain rfl := hsettled.own _ _ hchecked
    have hpending : l.pending =
        request :: { (l.present asking request).2 with checked := none }.pending := by
      rw [pending, hchecked]
      rfl
    obtain ⟨haccepted, hsteady⟩ := h.serve hordered huser hpending rfl rfl fun hfull =>
      hcalm (Or.inr (Or.inr ⟨_, _, _, rfl, hfull⟩))
    refine ⟨hsteady, fun r hr => ?_⟩
    obtain rfl := List.mem_singleton.mp hr
    exact ⟨_, rfl, haccepted⟩
  | serveResumed hmem =>
    rw [hsettled.resumed] at hmem
    cases hmem
  | session => exact ⟨h.same rfl rfl rfl, hnone rfl⟩
  | reset hmem =>
    rw [hsettled.resets] at hmem
    cases hmem
  | complete any request response =>
    exact ⟨h.same rfl rfl (complete_window l.cache user any request response).1, hnone rfl⟩
  | other request sequence hother =>
    have hstate := (begin_state_of_ne hordered.kept hother request sequence).2
    exact ⟨h.same rfl rfl (congrArg (·.lastSequence) hstate), hnone rfl⟩
  | otherReset hother =>
    have hstate : (l.cache.reset _).state user = l.cache.state user := reset_state_of_ne hother
    exact ⟨h.same rfl rfl (congrArg (·.lastSequence) hstate), hnone rfl⟩

end Link

end PokerServer

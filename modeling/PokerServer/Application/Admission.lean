import PokerServer.Application.IdempotencyCache
import PokerServer.Lib.Runs

/-!
# Admission of requests

The request window over runs of `begin` and `complete`, for all users at once. `Admitted` says
everything a `begin` can do to the window of its user, and `UserState.InStep` is what the entries
and the insertion order have in common.

* `begin_admitted`: a `begin` does one of these things, and nothing to other users.
* `requests_admitted_in_order`: along every run the accepted requests of a user have the sequences
  1, 2, 3, …; the window never outgrows its capacity, makes room by forgetting the oldest completed
  request, and a `begin` that is not accepted leaves it as it was.
-/

namespace PokerServer

namespace IdempotencyCache

variable {R : Type}

/-! ## The window of one user -/

/-- The request is retained and has no response yet. -/
def InFlight (entries : Dict Nat (Entry R)) (request : Nat) : Prop :=
  ∃ entry, entries.lookup request = some entry ∧ entry.response = none

/-- The request is retained with its response. -/
def Completed (entries : Dict Nat (Entry R)) (request : Nat) : Prop :=
  ∃ entry, entries.lookup request = some entry ∧ entry.response.isSome = true

/-- The entries are those of the insertion order, each once, and they fit. -/
structure UserState.InStep (capacity : Nat) (s : UserState R) : Prop where
  order : s.insertionOrder.Perm s.entries.keys
  within : s.entries.entries.length ≤ capacity

/-- Everything a `begin` can do to the window of its user. -/
inductive Admitted (capacity user : Nat) (s : UserState R) (request sequence : Nat) :
    RequestStatus → UserState R → Prop
  | refused {status : RequestStatus} :
      ((user = 0 ∨ request = 0 ∨ sequence = 0) ∨ request ∈ s.entries ∨
        sequence ≠ s.lastSequence + 1) →
      status ≠ .accepted → status ≠ .capacityExceeded →
      Admitted capacity user s request sequence status s
  | full : request ∉ s.entries → sequence = s.lastSequence + 1 →
      s.entries.entries.length = capacity → (∀ id ∈ s.insertionOrder, InFlight s.entries id) →
      Admitted capacity user s request sequence .capacityExceeded s
  | room : request ∉ s.entries → sequence = s.lastSequence + 1 →
      s.entries.entries.length < capacity →
      Admitted capacity user s request sequence .accepted
        { lastSequence := sequence
          entries := s.entries.insert request { sequence := sequence }
          insertionOrder := s.insertionOrder ++ [request] }
  | evicting {older newer : List Nat} {oldest : Nat} : request ∉ s.entries →
      sequence = s.lastSequence + 1 → s.entries.entries.length = capacity →
      s.insertionOrder = older ++ oldest :: newer → (∀ id ∈ older, InFlight s.entries id) →
      Completed s.entries oldest →
      Admitted capacity user s request sequence .accepted
        { lastSequence := sequence
          entries := (s.entries.erase oldest).insert request { sequence := sequence }
          insertionOrder := older ++ newer ++ [request] }

/-! ## The eviction loop -/

theorem length_keys (entries : Dict Nat (Entry R)) :
    entries.keys.length = entries.entries.length := List.length_map _

theorem evictLoop_of_room {maximum : Nat} {entries : Dict Nat (Entry R)}
    (hroom : entries.entries.length < maximum) (order : List Nat) :
    evictLoop maximum entries order = (entries, order) := by
  cases order with
  | nil => rfl
  | cons id order => rw [evictLoop, if_neg (by omega)]

/-- Forgetting one entry of a full window makes room. -/
theorem length_erase_lt {entries : Dict Nat (Entry R)} {id : Nat} (hid : id ∈ entries) :
    (entries.erase id).entries.length + 1 = entries.entries.length := by
  have hmem : id ∈ entries.keys := AList.mem_keys.mp hid
  have hpos : 0 < entries.keys.length := List.length_pos_of_mem hmem
  rw [← length_keys, ← length_keys, AList.keys_erase, List.length_erase_of_mem hmem]
  omega

/-- **The loop over a full window** stops behind the first completed request, which it forgets; if
there is none, it changes nothing. -/
theorem evictLoop_of_full {maximum : Nat} {entries : Dict Nat (Entry R)} {order : List Nat}
    (hfull : entries.entries.length = maximum) (hmem : ∀ id ∈ order, id ∈ entries) :
    ((∀ id ∈ order, InFlight entries id) ∧ evictLoop maximum entries order = (entries, order)) ∨
      ∃ older oldest newer, order = older ++ oldest :: newer ∧
        (∀ id ∈ older, InFlight entries id) ∧ Completed entries oldest ∧
        evictLoop maximum entries order = (entries.erase oldest, older ++ newer) := by
  induction order with
  | nil => exact Or.inl ⟨by simp, rfl⟩
  | cons id order ih =>
    obtain ⟨entry, hentry⟩ := Option.isSome_iff_exists.mp
      (AList.lookup_isSome.mpr (hmem id List.mem_cons_self))
    rw [evictLoop, if_pos (by omega), hentry]
    cases hresponse : entry.response with
    | some response =>
      have hroom := length_erase_lt (hmem id List.mem_cons_self)
      refine Or.inr ⟨[], id, order, rfl, by simp, ⟨entry, hentry, by simp [hresponse]⟩, ?_⟩
      simp only [hresponse, Option.isSome_some, if_true, List.nil_append]
      exact evictLoop_of_room (by omega) order
    | none =>
      have hflight : InFlight entries id := ⟨entry, hentry, hresponse⟩
      simp only [hresponse, Option.isSome_none, Bool.false_eq_true, if_false]
      rcases ih fun i hi => hmem i (List.mem_cons_of_mem _ hi) with
        ⟨hall, heq⟩ | ⟨older, oldest, newer, hsplit, holder, hdone, heq⟩
      · refine Or.inl ⟨?_, by rw [heq]⟩
        rintro i hi
        rcases List.mem_cons.mp hi with rfl | hi
        · exact hflight
        · exact hall i hi
      · refine Or.inr ⟨id :: older, oldest, newer, by rw [hsplit]; rfl, ?_, hdone, by rw [heq]; rfl⟩
        rintro i hi
        rcases List.mem_cons.mp hi with rfl | hi
        · exact hflight
        · exact holder i hi

/-! ## One call -/

@[simp] theorem state_setState_self (cache : IdempotencyCache R) (user : UserId)
    (s : UserState R) : (cache.setState user s).state user = s := by
  simp [state, setState]

theorem state_setState_of_ne (cache : IdempotencyCache R) {user other : UserId}
    (h : other ≠ user) (s : UserState R) :
    (cache.setState user s).state other = cache.state other := by
  rw [state, state, setState, AList.lookup_insert_ne h]

@[simp] theorem setState_setState (cache : IdempotencyCache R) (user : UserId)
    (s s' : UserState R) : ((cache.setState user s).setState user s').state user = s' :=
  state_setState_self _ _ _

theorem UserState.InStep.mem {capacity : Nat} {s : UserState R} (h : s.InStep capacity)
    {id : Nat} : id ∈ s.insertionOrder ↔ id ∈ s.entries :=
  h.order.mem_iff.trans AList.mem_keys.symm

/-- **A `begin` does one of these things**, and nothing to other users. -/
theorem begin_admitted {cache : IdempotencyCache R} {user : UserId}
    (hs : (cache.state user).InStep cache.maxRequestsPerUser) (request sequence : Nat) :
    Admitted cache.maxRequestsPerUser user (cache.state user) request sequence
        (cache.begin user request sequence).1.status
        ((cache.begin user request sequence).2.state user) ∧
      (∀ other, other ≠ user →
        (cache.begin user request sequence).2.state other = cache.state other) ∧
      (cache.begin user request sequence).2.maxRequestsPerUser = cache.maxRequestsPerUser := by
  rw [begin]
  by_cases hzero : user = 0 ∨ request = 0 ∨ sequence = 0
  · rw [if_pos hzero]
    exact ⟨.refused (Or.inl hzero) (by simp) (by simp), fun _ _ => rfl, rfl⟩
  rw [if_neg hzero]
  dsimp only
  cases hentry : (cache.state user).entries.lookup request with
  | some entry =>
    have hmem : request ∈ (cache.state user).entries :=
      AList.lookup_isSome.mp (by rw [hentry]; rfl)
    dsimp only
    split
    all_goals
      refine ⟨?_, fun other h => state_setState_of_ne _ h _, rfl⟩
      rw [state_setState_self]
      exact .refused (Or.inr (Or.inl hmem)) (by simp) (by simp)
  | none =>
    have hnew : request ∉ (cache.state user).entries := AList.lookup_eq_none.mp hentry
    dsimp only
    by_cases hstale : sequence ≤ (cache.state user).lastSequence
    · rw [if_pos hstale]
      refine ⟨?_, fun other h => state_setState_of_ne _ h _, rfl⟩
      rw [state_setState_self]
      exact .refused (Or.inr (Or.inr (by omega))) (by simp) (by simp)
    rw [if_neg hstale]
    by_cases hgap : sequence ≠ (cache.state user).lastSequence + 1
    · rw [if_pos hgap]
      refine ⟨?_, fun other h => state_setState_of_ne _ h _, rfl⟩
      rw [state_setState_self]
      exact .refused (Or.inr (Or.inr hgap)) (by simp) (by simp)
    rw [if_neg hgap]
    have hnext : sequence = (cache.state user).lastSequence + 1 := not_not.mp hgap
    have hmaximum : (cache.setState user (cache.state user)).maxRequestsPerUser =
        cache.maxRequestsPerUser := rfl
    simp only [hmaximum]
    have hother (s : UserState R) (other : UserId) (h : other ≠ user) :
        ((cache.setState user (cache.state user)).setState user s).state other =
          cache.state other := by
      rw [state_setState_of_ne _ h, state_setState_of_ne _ h]
    rcases Nat.lt_or_ge (cache.state user).entries.entries.length cache.maxRequestsPerUser with
      hroom | hfull
    · rw [evictLoop_of_room hroom]
      simp only [Nat.not_le.mpr hroom, if_false]
      refine ⟨?_, hother _, rfl⟩
      rw [setState_setState]
      exact .room hnew hnext hroom
    · have hsize := Nat.le_antisymm hs.within hfull
      rcases evictLoop_of_full hsize fun id hid => hs.mem.mp hid with
        ⟨hall, heq⟩ | ⟨older, oldest, newer, hsplit, holder, hdone, heq⟩
      · rw [heq]
        simp only [hfull, if_true]
        refine ⟨?_, hother _, rfl⟩
        rw [setState_setState]
        exact .full hnew hnext hsize hall
      · have hlt := length_erase_lt (hs.mem.mp (hsplit ▸ List.mem_append_right older
          List.mem_cons_self))
        rw [heq]
        simp only [Nat.not_le.mpr (show ((cache.state user).entries.erase oldest).entries.length <
          cache.maxRequestsPerUser by omega), if_false]
        refine ⟨?_, hother _, rfl⟩
        rw [setState_setState]
        exact .evicting hnew hnext hsize hsplit holder hdone

theorem complete_state_of_ne (cache : IdempotencyCache R) {user other : UserId}
    (h : other ≠ user) (request : Nat) (response : R) :
    (cache.complete user request response).state other = cache.state other := by
  unfold complete
  split
  · rfl
  split
  · rfl
  · exact state_setState_of_ne _ h _

/-- A `complete` sets the response of a retained request, and does nothing otherwise. -/
theorem complete_state (cache : IdempotencyCache R) (user : UserId) (request : Nat)
    (response : R) :
    (cache.complete user request response).state user =
      match (cache.state user).entries.lookup request with
      | none => cache.state user
      | some entry =>
        { cache.state user with
          entries := (cache.state user).entries.insert request { entry with response } } := by
  unfold complete
  cases huser : cache.users.lookup user with
  | none =>
    have hempty : (cache.state user).entries.lookup request = none := by
      rw [state, huser]
      exact AList.lookup_empty request
    simp only [hempty]
  | some s =>
    have hstate : cache.state user = s := by rw [state, huser]; rfl
    rw [hstate]
    dsimp only
    cases hentry : s.entries.lookup request with
    | none => exact hstate
    | some entry => exact state_setState_self _ _ _

@[simp] theorem complete_maxRequestsPerUser (cache : IdempotencyCache R) (user : UserId)
    (request : Nat) (response : R) :
    (cache.complete user request response).maxRequestsPerUser = cache.maxRequestsPerUser := by
  unfold complete
  split
  · rfl
  split <;> rfl

/-! ## What one step keeps -/

namespace UserState.InStep

variable {capacity : Nat} {s : UserState R}

theorem empty (capacity : Nat) : ({} : UserState R).InStep capacity :=
  ⟨List.Perm.refl _, Nat.zero_le _⟩

/-- A new request goes to the end of the order. -/
theorem append (h : s.InStep capacity) {request sequence : Nat} {entry : Entry R}
    (hnew : request ∉ s.entries) (hroom : s.entries.entries.length < capacity) :
    UserState.InStep capacity
      { lastSequence := sequence
        entries := s.entries.insert request entry
        insertionOrder := s.insertionOrder ++ [request] } := by
  have hkeys : (s.entries.insert request entry).keys = request :: s.entries.keys := by
    rw [AList.keys_insert, List.erase_of_not_mem fun hmem => hnew (AList.mem_keys.mpr hmem)]
  constructor
  · rw [hkeys]
    exact (List.perm_append_singleton _ _).trans (h.order.cons request)
  · rw [← length_keys, hkeys, List.length_cons, length_keys]
    exact hroom

/-- Forgetting a request takes it out of entries and order. -/
theorem forget (h : s.InStep capacity) {older newer : List Nat} {oldest : Nat}
    (hsplit : s.insertionOrder = older ++ oldest :: newer) :
    UserState.InStep capacity
      { s with entries := s.entries.erase oldest, insertionOrder := older ++ newer } := by
  have hmem : oldest ∈ s.entries :=
    h.mem.mp (hsplit ▸ List.mem_append_right older List.mem_cons_self)
  have hlt := length_erase_lt hmem
  constructor
  · have horder : (oldest :: (older ++ newer)).Perm s.entries.keys :=
      List.perm_middle.symm.trans (hsplit ▸ h.order)
    rw [AList.keys_erase]
    exact (List.cons_perm_iff_perm_erase.mp horder).2
  · have hle := h.within
    dsimp only
    omega

theorem admitted (h : s.InStep capacity) {user request sequence : Nat} {status : RequestStatus}
    {s' : UserState R} (ha : Admitted capacity user s request sequence status s') :
    s'.InStep capacity := by
  cases ha with
  | refused => exact h
  | full => exact h
  | room hnew _ hroom => exact h.append hnew hroom
  | @evicting older newer oldest hnew _ hsize hsplit _ _ =>
    have hmem : oldest ∈ s.entries :=
      h.mem.mp (hsplit ▸ List.mem_append_right older List.mem_cons_self)
    have hlt := length_erase_lt hmem
    refine (h.forget hsplit).append (fun hin => hnew (AList.mem_erase.mp hin).2) ?_
    dsimp only
    omega

theorem responded (h : s.InStep capacity) {request : Nat} {entry : Entry R}
    (hmem : request ∈ s.entries) :
    UserState.InStep capacity { s with entries := s.entries.insert request entry } := by
  have hkeys : (s.entries.insert request entry).keys.Perm s.entries.keys := by
    rw [AList.keys_insert]
    exact (List.perm_cons_erase (AList.mem_keys.mp hmem)).symm
  constructor
  · exact h.order.trans hkeys.symm
  · rw [← length_keys, hkeys.length_eq, length_keys]
    exact h.within

end UserState.InStep

/-! ## Runs -/

inductive CacheCall (R : Type) where
  | begin (user : UserId) (request sequence : Nat) (decision : RequestDecision R)
  | complete (user : UserId) (request : Nat) (response : R)

inductive CacheStep : IdempotencyCache R → CacheCall R → IdempotencyCache R → Prop
  | begin (cache : IdempotencyCache R) (user : UserId) (request sequence : Nat) :
      CacheStep cache (.begin user request sequence (cache.begin user request sequence).1)
        (cache.begin user request sequence).2
  | complete (cache : IdempotencyCache R) (user : UserId) (request : Nat) (response : R) :
      CacheStep cache (.complete user request response) (cache.complete user request response)

/-- The sequence of an accepted `begin` of the user. -/
def CacheCall.accepts (user : UserId) : CacheCall R → Option Nat
  | .begin u _ sequence decision =>
    if u = user ∧ decision.status = .accepted then some sequence else none
  | .complete .. => none

/-- The sequences of the accepted requests of a user, in the order of acceptance. -/
def acceptedSequences (user : UserId)
    (trace : List (Step (IdempotencyCache R) (CacheCall R))) : List Nat :=
  trace.filterMap fun e => e.label.accepts user

/-- What is kept between calls. -/
structure Kept (capacity : Nat) (cache : IdempotencyCache R) : Prop where
  size : cache.maxRequestsPerUser = capacity
  inStep : ∀ user, (cache.state user).InStep capacity

theorem kept_fresh (capacity : Nat) :
    Kept capacity ({ maxRequestsPerUser := capacity } : IdempotencyCache R) :=
  ⟨rfl, fun _ => .empty capacity⟩

theorem Kept.step {capacity : Nat} {cache cache' : IdempotencyCache R} {call : CacheCall R}
    (h : Kept capacity cache) (hs : CacheStep cache call cache') : Kept capacity cache' := by
  obtain ⟨rfl, hin⟩ := h
  cases hs with
  | begin user request sequence =>
    obtain ⟨hadmitted, hother, hcapacity⟩ := begin_admitted (hin user) request sequence
    refine ⟨hcapacity, fun u => ?_⟩
    by_cases hu : u = user
    · subst hu
      exact (hin u).admitted hadmitted
    · rw [hother u hu]
      exact hin u
  | complete user request response =>
    refine ⟨complete_maxRequestsPerUser .., fun u => ?_⟩
    by_cases hu : u = user
    · subst hu
      rw [complete_state]
      split
      · exact hin u
      · rename_i entry hentry
        exact (hin u).responded (AList.lookup_isSome.mp (by rw [hentry]; rfl))
    · rw [complete_state_of_ne _ hu]
      exact hin u

/-! ## Along a run -/

/-- What a `begin` promises about the window of its user. -/
structure OrderlyBegin (capacity user : Nat) (s : UserState R) (request sequence : Nat)
    (status : RequestStatus) (s' : UserState R) : Prop where
  fresh : status = .accepted → request ∉ s.entries
  unchanged : status ≠ .accepted → s' = s
  /-- A request is forgotten only with its response, and the older ones left have none. -/
  evicts_oldest : ∀ older id newer, s.insertionOrder = older ++ id :: newer → id ∉ s'.entries →
    Completed s.entries id ∧ ∀ o ∈ older, o ∈ s'.entries → InFlight s.entries o
  capacityExceeded : user ≠ 0 → request ≠ 0 → sequence ≠ 0 →
    (status = .capacityExceeded ↔ sequence = s.lastSequence + 1 ∧ request ∉ s.entries ∧
      s.entries.entries.length = capacity ∧ ∀ id ∈ s.entries, InFlight s.entries id)

theorem not_inFlight_of_completed {entries : Dict Nat (Entry R)} {id : Nat}
    (hdone : Completed entries id) : ¬ InFlight entries id := by
  rintro ⟨entry, hentry, hnone⟩
  obtain ⟨entry', hentry', hsome⟩ := hdone
  obtain rfl := Option.some.inj (hentry.symm.trans hentry')
  rw [hnone] at hsome
  exact absurd hsome (by simp)

theorem mem_of_completed {entries : Dict Nat (Entry R)} {id : Nat}
    (hdone : Completed entries id) : id ∈ entries := by
  obtain ⟨entry, hentry, -⟩ := hdone
  exact AList.lookup_isSome.mp (by rw [hentry]; rfl)

theorem mem_of_inFlight {entries : Dict Nat (Entry R)} {id : Nat}
    (hid : InFlight entries id) : id ∈ entries := by
  obtain ⟨entry, hentry, -⟩ := hid
  exact AList.lookup_isSome.mp (by rw [hentry]; rfl)

variable {capacity user request sequence : Nat} {s s' : UserState R} {status : RequestStatus}

/-- A `begin` forgets no request that waits for its response. -/
theorem Admitted.keeps (ha : Admitted capacity user s request sequence status s') {id : Nat}
    (hid : InFlight s.entries id) : s'.entries.lookup id = s.entries.lookup id := by
  have hmem := mem_of_inFlight hid
  cases ha with
  | refused => rfl
  | full => rfl
  | room hnew _ _ =>
    have hne : id ≠ request := fun h => hnew (h ▸ hmem)
    exact AList.lookup_insert_ne hne
  | @evicting _ _ oldest hnew _ _ _ _ hdone =>
    have hne : id ≠ request := fun h => hnew (h ▸ hmem)
    have hne' : id ≠ oldest := by
      rintro rfl
      exact not_inFlight_of_completed hdone hid
    exact (AList.lookup_insert_ne hne).trans (AList.lookup_erase_ne hne')

/-- Only the oldest completed request is forgotten. -/
theorem Admitted.evicts (ha : Admitted capacity user s request sequence status s')
    (hin : s.InStep capacity) {older newer : List Nat} {id : Nat}
    (horder : s.insertionOrder = older ++ id :: newer) (hgone : id ∉ s'.entries) :
    Completed s.entries id ∧ ∀ o ∈ older, InFlight s.entries o := by
  have hmem : id ∈ s.entries :=
    hin.mem.mp (horder ▸ List.mem_append_right older List.mem_cons_self)
  cases ha with
  | refused => exact absurd hmem hgone
  | full => exact absurd hmem hgone
  | room => exact absurd ((AList.mem_insert _).mpr (Or.inr hmem)) hgone
  | @evicting older' newer' oldest _ _ _ hsplit holder hdone =>
    have holdest : id = oldest := by
      by_contra hne
      exact hgone ((AList.mem_insert _).mpr (Or.inr (AList.mem_erase.mpr ⟨hne, hmem⟩)))
    subst holdest
    have hnodup : (id :: (older' ++ newer')).Nodup :=
      List.perm_middle.nodup_iff.mp (hsplit ▸ hin.order.nodup_iff.mpr s.entries.keys_nodup)
    have hout := (List.nodup_cons.mp hnodup).1
    rw [List.mem_append, not_or] at hout
    obtain ⟨rfl, -, -⟩ := (List.append_cons_inj_of_notMem hout.1 hout.2).mp
      (hsplit.symm.trans horder)
    exact ⟨hdone, holder⟩

theorem Admitted.orderly (ha : Admitted capacity user s request sequence status s')
    (hin : s.InStep capacity) : OrderlyBegin capacity user s request sequence status s' where
  fresh := by
    intro haccepted
    cases ha with
    | refused _ hne => exact absurd haccepted hne
    | full => exact absurd haccepted (by simp)
    | room hnew => exact hnew
    | evicting hnew => exact hnew
  unchanged := by
    intro hrefused
    cases ha with
    | refused => rfl
    | full => rfl
    | room => exact absurd rfl hrefused
    | evicting => exact absurd rfl hrefused
  evicts_oldest := by
    intro older id newer horder hgone
    obtain ⟨hdone, holder⟩ := ha.evicts hin horder hgone
    exact ⟨hdone, fun o ho _ => holder o ho⟩
  capacityExceeded := by
    intro huser hrequest hsequence
    cases ha with
    | refused hwhy _ hne =>
      refine ⟨fun h => absurd h hne, ?_⟩
      rintro ⟨hnext, hnew, -, -⟩
      rcases hwhy with (h | h | h) | h | h
      · exact absurd h huser
      · exact absurd h hrequest
      · exact absurd h hsequence
      · exact absurd h hnew
      · exact absurd hnext h
    | full hnew hnext hsize hall =>
      refine ⟨fun _ => ⟨hnext, hnew, hsize, fun id hid => hall id (hin.mem.mpr hid)⟩, fun _ => rfl⟩
    | room _ _ hroom =>
      refine ⟨fun h => absurd h (by simp), ?_⟩
      rintro ⟨-, -, hsize, -⟩
      omega
    | evicting _ _ _ _ _ hdone =>
      refine ⟨fun h => absurd h (by simp), ?_⟩
      rintro ⟨-, -, -, hall⟩
      exact absurd (hall _ (mem_of_completed hdone)) (not_inFlight_of_completed hdone)

/-- The next accepted sequence is the next number. -/
theorem Admitted.lastSequence (ha : Admitted capacity user s request sequence status s') :
    status = .accepted ∧ sequence = s.lastSequence + 1 ∧ s'.lastSequence = sequence ∨
      status ≠ .accepted ∧ s' = s := by
  cases ha with
  | refused _ hne => exact Or.inr ⟨hne, rfl⟩
  | full => exact Or.inr ⟨by simp, rfl⟩
  | room _ hnext => exact Or.inl ⟨rfl, hnext, rfl⟩
  | evicting _ hnext => exact Or.inl ⟨rfl, hnext, rfl⟩

/-- A request without a response is forgotten by no step. -/
theorem CacheStep.keeps {cache cache' : IdempotencyCache R} {call : CacheCall R}
    (hk : Kept capacity cache) (hs : CacheStep cache call cache') {id : Nat}
    (hid : InFlight (cache.state user).entries id) : id ∈ (cache'.state user).entries := by
  have hmem := mem_of_inFlight hid
  cases hs with
  | begin u request sequence =>
    obtain ⟨hadmitted, hother, -⟩ := begin_admitted (hk.size.symm ▸ hk.inStep u) request sequence
    by_cases hu : user = u
    · subst hu
      rw [← AList.lookup_isSome, hadmitted.keeps hid]
      exact AList.lookup_isSome.mpr hmem
    · rw [hother user hu]
      exact hmem
  | complete u request response =>
    by_cases hu : user = u
    · subst hu
      rw [complete_state]
      split
      · exact hmem
      · exact (AList.mem_insert _).mpr (Or.inr hmem)
    · rw [complete_state_of_ne _ hu]
      exact hmem

/-- One more call: an accepted request of the user has the next sequence. -/
theorem acceptedSequences_step {cache cache' : IdempotencyCache R} {call : CacheCall R}
    {trace : List (Step (IdempotencyCache R) (CacheCall R))} (hk : Kept capacity cache)
    (hs : CacheStep cache call cache')
    (ih : acceptedSequences user trace = List.range' 1 (cache.state user).lastSequence) :
    acceptedSequences user (trace ++ [⟨cache, call, cache'⟩]) =
      List.range' 1 (cache'.state user).lastSequence := by
  rw [acceptedSequences, List.filterMap_append, ← acceptedSequences, ih, List.filterMap_cons,
    List.filterMap_nil]
  cases hs with
  | begin u request sequence =>
    obtain ⟨hadmitted, hother, -⟩ := begin_admitted (hk.size.symm ▸ hk.inStep u) request sequence
    by_cases hu : u = user
    · subst hu
      rcases hadmitted.lastSequence with ⟨haccepted, hnext, hlast⟩ | ⟨hrefused, hsame⟩
      · simp only [CacheCall.accepts, haccepted, and_self, if_true]
        rw [hlast, hnext, List.range'_1_concat, Nat.add_comm]
      · simp only [CacheCall.accepts, hrefused, and_false, if_false, List.append_nil]
        rw [hsame]
    · simp only [CacheCall.accepts, hu, false_and, if_false, List.append_nil]
      rw [hother user (Ne.symm hu)]
  | complete u request response =>
    simp only [CacheCall.accepts, List.append_nil]
    by_cases hu : user = u
    · subst hu
      rw [complete_state]
      split <;> rfl
    · rw [complete_state_of_ne _ hu]

/-- **Requests are admitted once and in order**, in every run of `begin` and `complete`. -/
theorem requests_admitted_in_order {trace : List (Step (IdempotencyCache R) (CacheCall R))}
    {cache : IdempotencyCache R}
    (hr : Run CacheStep { maxRequestsPerUser := capacity } trace cache) (user : UserId) :
    acceptedSequences user trace = List.range' 1 (cache.state user).lastSequence ∧
    (cache.state user).entries.entries.length ≤ capacity ∧
    (cache.state user).insertionOrder.Nodup ∧
    (∀ id, id ∈ (cache.state user).insertionOrder ↔ id ∈ (cache.state user).entries) ∧
    ∀ e ∈ trace,
      (∀ request sequence decision, e.label = .begin user request sequence decision →
        OrderlyBegin capacity user (e.before.state user) request sequence decision.status
          (e.after.state user)) ∧
      ∀ id, InFlight (e.before.state user).entries id → id ∈ (e.after.state user).entries := by
  have hkept := hr.invariant (kept_fresh capacity) fun _ _ _ h hs => h.step hs
  refine ⟨?_, (hkept.inStep user).within,
    (hkept.inStep user).order.nodup_iff.mpr (AList.keys_nodup _), fun id => (hkept.inStep user).mem,
    fun e he => ?_⟩
  · induction hr with
    | nil => rfl
    | snoc hr hs ih =>
      have hbefore := hr.invariant (kept_fresh capacity) fun _ _ _ h hs => h.step hs
      exact acceptedSequences_step hbefore hs (ih hbefore)
  · obtain ⟨hreach, hs⟩ := hr.entry he
    have hbefore := hreach.invariant (kept_fresh capacity) fun _ _ _ h hs => h.step hs
    refine ⟨fun request sequence decision hlabel => ?_, fun id hid => hs.keeps hbefore hid⟩
    obtain ⟨before, label, after⟩ := e
    dsimp only at hlabel hs hbefore ⊢
    subst hlabel
    cases hs with
    | begin =>
      have hin := hbefore.inStep user
      obtain ⟨hadmitted, -, -⟩ := begin_admitted (hbefore.size.symm ▸ hin) request sequence
      rw [hbefore.size] at hadmitted
      exact hadmitted.orderly hin

/-- Two requests in a window of one: the first is completed and makes room for the second. -/
theorem requests_admitted_in_order_two : ∃ trace cache,
    Run CacheStep ({ maxRequestsPerUser := 1 } : IdempotencyCache Nat) trace cache ∧
      trace.length = 4 ∧ acceptedSequences 7 trace = List.range' 1 2 ∧
      (cache.state 7).entries.entries.length ≤ 1 ∧ (cache.state 7).insertionOrder = [1002] := by
  have hr := (((Run.nil.snoc (CacheStep.begin { maxRequestsPerUser := 1 } 7 1001 1)).snoc
    (.complete _ 7 1001 5)).snoc (.begin _ 7 1002 2)).snoc (.begin _ 7 1003 3)
  obtain ⟨hsequences, hsize, -⟩ := requests_admitted_in_order hr 7
  exact ⟨_, _, hr, rfl, hsequences, hsize, by decide⟩

end IdempotencyCache

end PokerServer

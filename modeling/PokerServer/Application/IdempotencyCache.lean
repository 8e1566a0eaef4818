import Mathlib.Data.List.AList
import PokerServer.Storage.InMemoryGameStore

/-!
# The request window

Model of `src/poker/application/idempotency_cache.cpp`, over any type of responses. For each user
the cache keeps the last client sequence and the latest requests, each with its response once there
is one. `reset` forgets the user, so that a new session starts at sequence 1 and may choose its
request ids again.
-/

namespace PokerServer

inductive RequestStatus where
  | accepted
  | duplicate
  | inFlight
  | staleSequence
  | sequenceGap
  | capacityExceeded
  | invalidRequest
  deriving DecidableEq, Repr

structure RequestDecision (R : Type) where
  status : RequestStatus := .invalidRequest
  cachedResponse : Option R := none

namespace IdempotencyCache

structure Entry (R : Type) where
  sequence : Nat := 0
  response : Option R := none

structure UserState (R : Type) where
  lastSequence : Nat := 0
  entries : Dict Nat (Entry R) := ∅
  insertionOrder : List Nat := []

end IdempotencyCache

structure IdempotencyCache (R : Type) where
  maxRequestsPerUser : Nat := 256
  users : Dict UserId (IdempotencyCache.UserState R) := ∅

namespace IdempotencyCache

variable {R : Type}

/-- The loop of `evictOldest`: completed requests go, oldest first, while the window is full. -/
def evictLoop (maximum : Nat) : Dict Nat (Entry R) → List Nat → Dict Nat (Entry R) × List Nat
  | entries, [] => (entries, [])
  | entries, request :: requests =>
    if maximum ≤ entries.entries.length then
      match entries.lookup request with
      | none => evictLoop maximum entries requests
      | some entry =>
        if entry.response.isSome then evictLoop maximum (entries.erase request) requests
        else
          let (rest, order) := evictLoop maximum entries requests
          (rest, request :: order)
    else (entries, request :: requests)

/-- `users_[user_id]`: the state of a user, made where there is none. -/
def state (cache : IdempotencyCache R) (user : UserId) : UserState R :=
  (cache.users.lookup user).getD {}

def setState (cache : IdempotencyCache R) (user : UserId) (state : UserState R) :
    IdempotencyCache R :=
  { cache with users := cache.users.insert user state }

/-- `IdempotencyCache::begin`. -/
def begin (cache : IdempotencyCache R) (user : UserId) (request sequence : Nat) :
    RequestDecision R × IdempotencyCache R :=
  if user = 0 ∨ request = 0 ∨ sequence = 0 then ({ status := .invalidRequest }, cache)
  else
    let state := cache.state user
    let cache := cache.setState user state
    match state.entries.lookup request with
    | some entry =>
      if entry.response.isSome then
        ({ status := .duplicate, cachedResponse := entry.response }, cache)
      else ({ status := .inFlight }, cache)
    | none =>
      if sequence ≤ state.lastSequence then ({ status := .staleSequence }, cache)
      else if sequence ≠ state.lastSequence + 1 then ({ status := .sequenceGap }, cache)
      else
        let (entries, order) :=
          evictLoop cache.maxRequestsPerUser state.entries state.insertionOrder
        if cache.maxRequestsPerUser ≤ entries.entries.length then
          ({ status := .capacityExceeded },
            cache.setState user { state with entries := entries, insertionOrder := order })
        else
          ({ status := .accepted },
            cache.setState user
              { lastSequence := sequence
                entries := entries.insert request { sequence := sequence }
                insertionOrder := order ++ [request] })

/-- `IdempotencyCache::complete`. -/
def complete (cache : IdempotencyCache R) (user : UserId) (request : Nat) (response : R) :
    IdempotencyCache R :=
  match cache.users.lookup user with
  | none => cache
  | some state =>
    match state.entries.lookup request with
    | none => cache
    | some entry =>
      cache.setState user
        { state with entries := state.entries.insert request { entry with response := response } }

/-- `IdempotencyCache::reset`. -/
def reset (cache : IdempotencyCache R) (user : UserId) : IdempotencyCache R :=
  { cache with users := cache.users.erase user }

end IdempotencyCache

end PokerServer

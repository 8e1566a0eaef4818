import PokerServer.Cluster.RedisRuns
import Mathlib.Data.List.Sort

/-!
# A Redis server in memory

A server that executes the commands of the registry as they are documented (`documented`), so that
runs can be played. Strings, numbers and the scores of the index are kept apart. Scores are whole
numbers; the nodes are in the order of their scores, and of their names where these are the same.
-/

namespace PokerServer

open HiredisNodeRegistry

structure RedisServer where
  strings : Dict Text (Text × Int) := ∅
  numbers : Dict Text Int := ∅
  scores : Dict Text Int := ∅
  clock : Int

namespace RedisServer

open RedisService

variable (s : RedisServer) (now : Int)

def find (key : Text) : Option Text := Cell.seen now (s.strings.lookup key)

def store (key value : Text) (seconds : Nat) : RedisServer :=
  { s with strings := s.strings.insert key (value, expiry now seconds) }

/-- The names in the order of their bytes. -/
def before (a b : Text) : Bool := a.lex b fun c d => c.toNat < d.toNat

/-- The reply to `ZRANGE`. -/
def members : List Text :=
  (s.scores.entries.insertionSort fun a b =>
    a.2 < b.2 ∨ a.2 = b.2 ∧ before b.1 a.1 = false).map Sigma.fst

/-- The script of `assignRoom`. -/
def assign (key nodeId : Text) (seconds : Nat) : Int × RedisServer :=
  match s.find now key with
  | none =>
    let stored := s.store now key nodeId seconds
    let score := (s.scores.lookup nodeId).getD 0 + 1000000
    (1, { stored with scores := s.scores.insert nodeId score })
  | some current => if current = nodeId then (1, s.store now key nodeId seconds) else (0, s)

/-- What a command does and replies. -/
def perform : (op : RedisOp) → op.Ans × RedisServer
  | .ping => (.status, s)
  | .command (.set key value seconds) => (.status, s.store now key value seconds)
  | .command (.setNew key value seconds) =>
    if s.find now key = none then (.status, s.store now key value seconds) else (.nil, s)
  | .command (.addLoad score member) =>
    (.integer (if (s.scores.lookup member).isSome then 0 else 1),
      { s with scores := s.scores.insert member score })
  | .command (.getDel key) =>
    (reply (s.find now key), { s with strings := s.strings.erase key })
  | .get key => (reply (s.find now key), s)
  | .incr key =>
    let value := (s.numbers.lookup key).getD 0
    if value < 2 ^ 63 - 1 then
      (.integer (value + 1), { s with numbers := s.numbers.insert key (value + 1) })
    else (.error, s)
  | .range => (some s.members, s)
  | .rem member =>
    (.integer (if (s.scores.lookup member).isSome then 1 else 0),
      { s with scores := s.scores.erase member })
  | .eval key nodeId seconds =>
    let (reply, s) := s.assign now key nodeId seconds
    (.integer reply, s)

def command (env : RedisEnv) (op : RedisOp) : Option (op.Ans × RedisServer) :=
  if env.now < s.clock then none
  else
    let (ans, after) := s.perform env.now op
    match env.delivery with
    | .answered => some (ans, { after with clock := env.now })
    | .unanswered => some (op.fails .lost, { after with clock := env.now })
    | .refused => some (op.fails .error, { s with clock := env.now })
    | .unsent => some (op.fails .lost, { s with clock := env.now })

/-- The nodes that have a score. -/
def indexed (scores : Dict Text Int) : Set Text := { member | (scores.lookup member).isSome }

/-- The server, to its clients. -/
def service : RedisService RedisServer where
  command env s op := s.command env op
  clock := clock
  string s key := s.strings.lookup key
  number s key := (s.numbers.lookup key).getD 0
  load s := indexed s.scores

variable {s : RedisServer} {now : Int}

/-! ## What the commands do -/

section Perform

variable {op : RedisOp} {key : Text}

theorem lookup_store (s : RedisServer) (now : Int) (key other value : Text) (seconds : Nat) :
    (s.store now other value seconds).strings.lookup key =
      if other = key then some (value, expiry now seconds) else s.strings.lookup key := by
  unfold store
  split
  · rename_i heq
    rw [heq, AList.lookup_insert]
  · rename_i hne
    exact AList.lookup_insert_ne (Ne.symm hne)

theorem assign_spec (s : RedisServer) (now : Int) (key nodeId : Text) (seconds : Nat) :
    match s.find now key with
    | none => s.assign now key nodeId seconds = (1, { s.store now key nodeId seconds with
        scores := s.scores.insert nodeId ((s.scores.lookup nodeId).getD 0 + 1000000) })
    | some current => s.assign now key nodeId seconds =
        if current = nodeId then (1, s.store now key nodeId seconds) else (0, s) := by
  unfold assign
  cases s.find now key <;> rfl

/-- A command writes the keys it names, and no others. -/
theorem perform_others (h : key ∉ op.writes) :
    (s.perform now op).2.strings.lookup key = s.strings.lookup key ∧
      (s.perform now op).2.numbers.lookup key = s.numbers.lookup key := by
  have hne : ∀ {other}, other ∈ op.writes → key ≠ other := fun hmem heq => h (heq ▸ hmem)
  have hstore : ∀ {other value seconds}, other ∈ op.writes →
      (s.store now other value seconds).strings.lookup key = s.strings.lookup key := fun hmem => by
    rw [lookup_store, if_neg (Ne.symm (hne hmem))]
  cases op with
  | incr other =>
    simp only [perform]
    split
    · exact ⟨rfl, AList.lookup_insert_ne (hne List.mem_cons_self)⟩
    · exact ⟨rfl, rfl⟩
  | eval other nodeId seconds =>
    have hassign := assign_spec s now other nodeId seconds
    simp only [perform]
    split at hassign
    · rw [hassign]
      exact ⟨hstore List.mem_cons_self, rfl⟩
    · rw [hassign]
      split
      · exact ⟨hstore List.mem_cons_self, rfl⟩
      · exact ⟨rfl, rfl⟩
  | command command =>
    cases command with
    | set other value seconds => exact ⟨hstore List.mem_cons_self, rfl⟩
    | setNew other value seconds =>
      simp only [perform]
      split
      · exact ⟨hstore List.mem_cons_self, rfl⟩
      · exact ⟨rfl, rfl⟩
    | addLoad score member => exact ⟨rfl, rfl⟩
    | getDel other => exact ⟨AList.lookup_erase_ne (hne List.mem_cons_self), rfl⟩
  | _ => exact ⟨rfl, rfl⟩

theorem perform_scores (h : loadKey ∉ op.writes) :
    (s.perform now op).2.scores = s.scores := by
  cases op with
  | incr other =>
    simp only [perform]
    split <;> rfl
  | eval other nodeId seconds => exact absurd (by simp [RedisOp.writes]) h
  | rem member => exact absurd (by simp [RedisOp.writes]) h
  | command command =>
    cases command with
    | setNew other value seconds =>
      simp only [perform]
      split <;> rfl
    | addLoad score member => exact absurd (by simp [RedisOp.writes]) h
    | _ => rfl
  | _ => rfl

theorem perform_setNew (s : RedisServer) (now : Int) (key value : Text) (seconds : Nat) :
    if s.find now key = none then
      (s.perform now (.command (.setNew key value seconds))).2.strings.lookup key =
          some (value, expiry now seconds) ∧
        (s.perform now (.command (.setNew key value seconds))).1 = .status
    else
      (s.perform now (.command (.setNew key value seconds))).2.strings.lookup key =
          s.strings.lookup key ∧
        (s.perform now (.command (.setNew key value seconds))).1 = .nil := by
  simp only [perform]
  split
  · exact ⟨AList.lookup_insert _, rfl⟩
  · exact ⟨rfl, rfl⟩

theorem perform_incr (s : RedisServer) (now : Int) (key : Text) :
    ((s.perform now (.incr key)).2.numbers.lookup key).getD 0 =
          (s.numbers.lookup key).getD 0 + 1 ∧
        (s.perform now (.incr key)).1 = .integer ((s.numbers.lookup key).getD 0 + 1) ∨
      ((s.perform now (.incr key)).2.numbers.lookup key).getD 0 = (s.numbers.lookup key).getD 0 ∧
        (s.perform now (.incr key)).1 = .error := by
  simp only [perform]
  split
  · refine Or.inl ⟨?_, rfl⟩
    rw [AList.lookup_insert]
    rfl
  · exact Or.inr ⟨rfl, rfl⟩

theorem indexed_insert (scores : Dict Text Int) (member : Text) (score : Int) :
    indexed (scores.insert member score) = insert member (indexed scores) := by
  ext other
  simp only [indexed, Set.mem_ofPred_eq, Set.mem_insert_iff, AList.lookup_isSome, AList.mem_insert]

theorem indexed_erase (scores : Dict Text Int) (member : Text) :
    indexed (scores.erase member) = indexed scores \ {member} := by
  ext other
  simp only [indexed, Set.mem_ofPred_eq, Set.mem_sdiff, Set.mem_singleton_iff, AList.lookup_isSome,
    AList.mem_erase]
  exact and_comm

theorem perform_eval (s : RedisServer) (now : Int) (key nodeId : Text) (seconds : Nat) :
    match s.find now key with
    | none =>
      (s.perform now (.eval key nodeId seconds)).2.strings.lookup key =
          some (nodeId, expiry now seconds) ∧
        indexed (s.perform now (.eval key nodeId seconds)).2.scores =
          insert nodeId (indexed s.scores) ∧
        (s.perform now (.eval key nodeId seconds)).1 = .integer 1
    | some current =>
      if current = nodeId then
        (s.perform now (.eval key nodeId seconds)).2.strings.lookup key =
            some (nodeId, expiry now seconds) ∧
          indexed (s.perform now (.eval key nodeId seconds)).2.scores = indexed s.scores ∧
          (s.perform now (.eval key nodeId seconds)).1 = .integer 1
      else
        (s.perform now (.eval key nodeId seconds)).2.strings.lookup key = s.strings.lookup key ∧
          indexed (s.perform now (.eval key nodeId seconds)).2.scores = indexed s.scores ∧
          (s.perform now (.eval key nodeId seconds)).1 = .integer 0 := by
  have hassign := assign_spec s now key nodeId seconds
  simp only [perform]
  cases hfound : s.find now key with
  | none =>
    rw [hfound] at hassign
    rw [hassign]
    exact ⟨AList.lookup_insert _, indexed_insert _ _ _, rfl⟩
  | some current =>
    rw [hfound] at hassign
    simp only [hassign]
    split
    · exact ⟨AList.lookup_insert _, rfl, rfl⟩
    · exact ⟨rfl, rfl, rfl⟩

theorem mem_members {member : Text} :
    member ∈ s.members ↔ (s.scores.lookup member).isSome = true := by
  rw [members, AList.lookup_isSome, AList.mem_keys,
    ((List.perm_insertionSort _ s.scores.entries).map Sigma.fst).mem_iff]
  rfl

theorem nodup_members : s.members.Nodup :=
  ((List.perm_insertionSort _ s.scores.entries).map Sigma.fst).nodup_iff.mpr s.scores.nodupKeys

end Perform

/-! ## As documented -/

section Command

variable {env : RedisEnv} {op : RedisOp} {ans : op.Ans} {s' : RedisServer}

/-- A command is executed or not, and its reply arrives or not. -/
theorem command_cases (h : service.command env s op = some (ans, s')) :
    s.clock ≤ env.now ∧
      (env.delivery.executed = true ∧ s' = { (s.perform env.now op).2 with clock := env.now } ∧
          (env.delivery = .answered → ans = (s.perform env.now op).1) ∧
          (env.delivery = .unanswered → ans = op.fails .lost) ∨
        env.delivery.executed = false ∧ s' = { s with clock := env.now } ∧
          (ans = op.fails .error ∨ ans = op.fails .lost)) := by
  obtain ⟨hnow, hcommand⟩ := Option.ite_none_left_eq_some.mp h
  refine ⟨Int.not_lt.mp hnow, ?_⟩
  cases hdelivery : env.delivery with
  | answered =>
    rw [hdelivery] at hcommand
    obtain ⟨rfl, rfl⟩ := Prod.mk.inj (Option.some.inj hcommand)
    exact Or.inl ⟨rfl, rfl, fun _ => rfl, fun hlost => absurd hlost (by simp)⟩
  | unanswered =>
    rw [hdelivery] at hcommand
    obtain ⟨rfl, rfl⟩ := Prod.mk.inj (Option.some.inj hcommand)
    exact Or.inl ⟨rfl, rfl, fun hanswered => absurd hanswered (by simp), fun _ => rfl⟩
  | refused =>
    rw [hdelivery] at hcommand
    obtain ⟨rfl, rfl⟩ := Prod.mk.inj (Option.some.inj hcommand)
    exact Or.inr ⟨rfl, rfl, Or.inl rfl⟩
  | unsent =>
    rw [hdelivery] at hcommand
    obtain ⟨rfl, rfl⟩ := Prod.mk.inj (Option.some.inj hcommand)
    exact Or.inr ⟨rfl, rfl, Or.inr rfl⟩

/-- What an executed command does and replies. -/
theorem command_executed (h : service.command env s op = some (ans, s'))
    (hexecuted : env.delivery.executed = true) :
    s' = { (s.perform env.now op).2 with clock := env.now } ∧
      (env.delivery = .answered → ans = (s.perform env.now op).1) := by
  obtain ⟨-, ⟨-, hstate, hanswered, -⟩ | ⟨hnot, -⟩⟩ := command_cases h
  · exact ⟨hstate, hanswered⟩
  · rw [hexecuted] at hnot
    exact absurd hnot (by simp)

/-- What an answered command replies. -/
theorem command_answered (h : service.command env s op = some (ans, s'))
    (hanswered : env.delivery = .answered) : ans = (s.perform env.now op).1 :=
  (command_executed h (by rw [hanswered]; rfl)).2 hanswered

end Command

/-- **The server executes the commands as they are documented.** -/
theorem documented : service.Documented where
  clock h := by
    obtain ⟨hnow, ⟨-, rfl, -⟩ | ⟨-, rfl, -⟩⟩ := command_cases h
    · exact ⟨hnow, rfl⟩
    · exact ⟨hnow, rfl⟩
  unexecuted h hnot := by
    obtain ⟨-, ⟨hexecuted, -⟩ | ⟨-, rfl, hans⟩⟩ := command_cases h
    · rw [hnot] at hexecuted
      exact absurd hexecuted (by simp)
    · exact ⟨fun _ => rfl, fun _ => rfl, rfl, hans⟩
  unanswered h hlost := by
    obtain ⟨-, ⟨-, -, -, hans⟩ | ⟨hnot, -⟩⟩ := command_cases h
    · exact hans hlost
    · rw [hlost] at hnot
      exact absurd hnot (by simp [Delivery.executed])
  others h hwrites := by
    obtain ⟨-, ⟨-, rfl, -⟩ | ⟨-, rfl, -⟩⟩ := command_cases h
    · obtain ⟨hstring, hnumber⟩ := perform_others hwrites
      exact ⟨hstring, congrArg (·.getD 0) hnumber⟩
    · exact ⟨rfl, rfl⟩
  otherLoad h hwrites := by
    obtain ⟨-, ⟨-, rfl, -⟩ | ⟨-, rfl, -⟩⟩ := command_cases h
    · exact congrArg indexed (perform_scores hwrites)
    · rfl
  set h _ _ hexecuted := by
    obtain ⟨rfl, -⟩ := command_executed h hexecuted
    exact AList.lookup_insert _
  setNew {env s key value seconds ans s'} h _ _ hexecuted := by
    obtain ⟨rfl, hans⟩ := command_executed h hexecuted
    have hset := perform_setNew s env.now key value seconds
    split
    · rename_i hseen
      have hfree : s.find env.now key = none := hseen
      rw [if_pos hfree] at hset
      exact ⟨hset.1, fun hanswered => (hans hanswered).trans hset.2⟩
    · rename_i hseen
      have htaken : ¬ s.find env.now key = none := hseen
      rw [if_neg htaken] at hset
      exact ⟨hset.1, fun hanswered => (hans hanswered).trans hset.2⟩
  get h _ hanswered := command_answered h hanswered
  getDel h _ hexecuted := by
    obtain ⟨rfl, hans⟩ := command_executed h hexecuted
    exact ⟨AList.lookup_erase _ _, hans⟩
  incr h hexecuted := by
    obtain ⟨rfl, hans⟩ := command_executed h hexecuted
    exact (perform_incr _ _ _).imp
      (fun hadds => ⟨hadds.1, fun hanswered => (hans hanswered).trans hadds.2⟩)
      (fun hfull => ⟨hfull.1, fun hanswered => (hans hanswered).trans hfull.2⟩)
  zadd h hexecuted := by
    obtain ⟨rfl, -⟩ := command_executed h hexecuted
    exact indexed_insert _ _ _
  zrem h hexecuted := by
    obtain ⟨rfl, -⟩ := command_executed h hexecuted
    exact indexed_erase _ _
  zrange h hanswered :=
    ⟨_, command_answered h hanswered, nodup_members, fun _ => mem_members⟩
  eval {env s key nodeId seconds ans s'} h _ _ hexecuted := by
    obtain ⟨rfl, hans⟩ := command_executed h hexecuted
    have heval := perform_eval s env.now key nodeId seconds
    change match s.find env.now key with
      | none => _
      | some current => _
    cases hfound : s.find env.now key with
    | none =>
      rw [hfound] at heval
      exact ⟨heval.1, heval.2.1, fun hanswered => (hans hanswered).trans heval.2.2⟩
    | some current =>
      rw [hfound] at heval
      dsimp only at heval ⊢
      split
      · rename_i hsame
        rw [if_pos hsame] at heval
        exact ⟨heval.1, heval.2.1, fun hanswered => (hans hanswered).trans heval.2.2⟩
      · rename_i hother
        rw [if_neg hother] at heval
        exact ⟨heval.1, heval.2.1, fun hanswered => (hans hanswered).trans heval.2.2⟩

/-- A new server keeps nothing. -/
theorem fresh (clock : Int) : service.Fresh { clock } := fun _ _ => rfl

end RedisServer

end PokerServer

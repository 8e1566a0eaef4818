import PokerServer.Lib.Runs
import Mathlib.Data.List.Nodup

/-!
# Programs over a shared object

A `Script` is a program that makes calls on an object which it shares with other threads: it is
done with a result, or makes one call and goes on with the answer. `ThreadsStep` interleaves any
number of scripts, each call being one step; `exec` says what a call answers, given what the
environment adds (a clock reading, a random value), and leaves behind.

* `Script.Returns made r`: with the calls answered as in `made` the script returns `r`.
* `pending_run`, `returned_run`: what a thread has left to do, and what it returned, follow from
  the calls that the trace shows it made.
* `Script.run`: a script that nobody interrupts.
* `Script.subst`: a script whose calls are scripts over another object; what they come down to is
  `Expands`.
* `only_run`: threads make no calls but those of their programs.
* `balance_run`, `returned_once`: a thread is begun, pending or returned, and returns once.
-/

namespace PokerServer

inductive Script (Op : Type) (Ans : Op → Type) (α : Type) where
  | done (result : α)
  | call (op : Op) (next : Ans op → Script Op Ans α)

variable {Op : Type} {Ans : Op → Type} {α β : Type}

namespace Script

def bind : Script Op Ans α → (α → Script Op Ans β) → Script Op Ans β
  | .done a, f => f a
  | .call op next, f => .call op fun ans => (next ans).bind f

instance : Monad (Script Op Ans) where
  pure := .done
  bind := bind

/-- The script of one call. -/
def perform (op : Op) : Script Op Ans (Ans op) := .call op .done

/-- With the calls answered as listed, the script makes just these calls and returns `r`. -/
def Returns : Script Op Ans α → List ((op : Op) × Ans op) → α → Prop
  | .done a, made, r => made = [] ∧ a = r
  | .call op next, made, r => ∃ ans rest, made = ⟨op, ans⟩ :: rest ∧ (next ans).Returns rest r

variable {s : Script Op Ans α} {f : α → Script Op Ans β} {made : List ((op : Op) × Ans op)}

theorem returns_perform_bind {op : Op} {g : Ans op → Script Op Ans α} {r : α} :
    (perform op >>= g).Returns made r ↔
      ∃ ans rest, made = ⟨op, ans⟩ :: rest ∧ (g ans).Returns rest r :=
  Iff.rfl

theorem returns_bind {r : β} :
    (s >>= f).Returns made r ↔ ∃ first rest a, made = first ++ rest ∧ s.Returns first a ∧
      (f a).Returns rest r := by
  induction s generalizing made with
  | done a =>
    constructor
    · intro h
      exact ⟨[], made, a, rfl, ⟨rfl, rfl⟩, h⟩
    · rintro ⟨first, rest, a', rfl, ⟨rfl, rfl⟩, h⟩
      exact h
  | call op next ih =>
    constructor
    · rintro ⟨ans, rest, rfl, h⟩
      obtain ⟨first, rest, a, rfl, hfirst, hrest⟩ := (ih ans).mp h
      exact ⟨⟨op, ans⟩ :: first, rest, a, rfl, ⟨ans, first, rfl, hfirst⟩, hrest⟩
    · rintro ⟨first, rest, a, rfl, ⟨ans, first, rfl, hfirst⟩, hrest⟩
      exact ⟨ans, first ++ rest, rfl, (ih ans).mpr ⟨first, rest, a, rfl, hfirst, hrest⟩⟩

/-- Every script returns, given answers to its calls. -/
theorem exists_returns (hans : ∀ op, Nonempty (Ans op)) (s : Script Op Ans α) :
    ∃ made r, s.Returns made r := by
  induction s with
  | done a => exact ⟨[], a, rfl, rfl⟩
  | call op next ih =>
    obtain ⟨ans⟩ := hans op
    obtain ⟨made, r, h⟩ := ih ans
    exact ⟨⟨op, ans⟩ :: made, r, ans, made, rfl, h⟩

/-- Whatever the answers, the script makes only calls that satisfy `p`. -/
def Only (p : Op → Prop) : Script Op Ans α → Prop
  | .done _ => True
  | .call op next => p op ∧ ∀ ans, (next ans).Only p

theorem only_perform_bind {p : Op → Prop} {op : Op} {g : Ans op → Script Op Ans α} :
    (perform op >>= g).Only p ↔ p op ∧ ∀ ans, (g ans).Only p :=
  Iff.rfl

theorem Only.returns {p : Op → Prop} {r : α} (h : s.Only p) (hr : s.Returns made r) :
    ∀ m ∈ made, p m.1 := by
  induction s generalizing made with
  | done a => exact fun m hm => absurd hm (by rw [hr.1]; simp)
  | call op next ih =>
    obtain ⟨ans, rest, rfl, hrest⟩ := hr
    intro m hm
    rcases List.mem_cons.mp hm with rfl | hm
    · exact h.1
    · exact ih ans (h.2 ans) hrest m hm

/-! ## One script alone -/

/-- Run a script to its end, nobody else calling. -/
def run {S : Type} (exec : S → (op : Op) → Option (Ans op × S)) :
    Script Op Ans α → S → Option (α × S)
  | .done a, s => some (a, s)
  | .call op next, s => (exec s op).bind fun r => (next r.1).run exec r.2

theorem run_bind {S : Type} {exec : S → (op : Op) → Option (Ans op × S)} {t u : S} {r : β} :
    (s >>= f).run exec t = some (r, u) ↔
      ∃ a v, s.run exec t = some (a, v) ∧ (f a).run exec v = some (r, u) := by
  induction s generalizing t with
  | done a =>
    constructor
    · intro h
      exact ⟨a, t, rfl, h⟩
    · rintro ⟨a', v, hrun, h⟩
      obtain ⟨rfl, rfl⟩ := Prod.mk.inj (Option.some.inj hrun)
      exact h
  | call op next ih =>
    constructor
    · intro h
      obtain ⟨⟨ans, v⟩, hop, hrest⟩ := Option.bind_eq_some_iff.mp h
      obtain ⟨a, w, hfirst, hlast⟩ := (ih ans).mp hrest
      exact ⟨a, w, Option.bind_eq_some_iff.mpr ⟨(ans, v), hop, hfirst⟩, hlast⟩
    · rintro ⟨a, w, hfirst, hlast⟩
      obtain ⟨⟨ans, v⟩, hop, hrest⟩ := Option.bind_eq_some_iff.mp hfirst
      exact Option.bind_eq_some_iff.mpr ⟨(ans, v), hop, (ih ans).mpr ⟨a, w, hrest, hlast⟩⟩

/-- What every call keeps, a script keeps. -/
theorem run_invariant {S : Type} {exec : S → (op : Op) → Option (Ans op × S)} {I : S → Prop}
    (hI : ∀ s op ans t, I s → exec s op = some (ans, t) → I t) {t u : S} {r : α}
    (h : s.run exec t = some (r, u)) (ht : I t) : I u := by
  induction s generalizing t with
  | done a =>
    obtain ⟨-, rfl⟩ := Prod.mk.inj (Option.some.inj h)
    exact ht
  | call op next ih =>
    obtain ⟨⟨ans, v⟩, hop, hrest⟩ := Option.bind_eq_some_iff.mp h
    exact ih ans hrest (hI _ _ _ _ ht hop)

theorem run_perform_bind {S : Type} {exec : S → (op : Op) → Option (Ans op × S)} {op : Op}
    {g : Ans op → Script Op Ans α} {s t : S} {r : α} :
    (perform op >>= g).run exec s = some (r, t) ↔
      ∃ ans u, exec s op = some (ans, u) ∧ (g ans).run exec u = some (r, t) := by
  constructor
  · intro h
    obtain ⟨⟨ans, u⟩, hop, hrest⟩ := Option.bind_eq_some_iff.mp h
    exact ⟨ans, u, hop, hrest⟩
  · rintro ⟨ans, u, hop, hrest⟩
    exact Option.bind_eq_some_iff.mpr ⟨(ans, u), hop, hrest⟩

theorem run_pure {S : Type} {exec : S → (op : Op) → Option (Ans op × S)} {a r : α} {s t : S} :
    (pure a : Script Op Ans α).run exec s = some (r, t) ↔ a = r ∧ s = t :=
  ⟨fun h => Prod.mk.inj (Option.some.inj h), by rintro ⟨rfl, rfl⟩; rfl⟩

/-! ## Scripts for calls -/

variable {Op' : Type} {Ans' : Op' → Type}

/-- Each call is made by a script over another object. -/
def subst (impl : (op : Op) → Script Op' Ans' (Ans op)) : Script Op Ans α → Script Op' Ans' α
  | .done a => .done a
  | .call op next => (impl op).bind fun ans => (next ans).subst impl

/-- The calls on the other object that a list of calls comes down to. -/
inductive Expands (impl : (op : Op) → Script Op' Ans' (Ans op)) :
    List ((op : Op) × Ans op) → List ((op : Op') × Ans' op) → Prop
  | nil : Expands impl [] []
  | cons {op : Op} {ans : Ans op} {first rest : List ((op : Op') × Ans' op)}
      {calls : List ((op : Op) × Ans op)} :
      (impl op).Returns first ans → Expands impl calls rest →
      Expands impl (⟨op, ans⟩ :: calls) (first ++ rest)

variable {impl : (op : Op) → Script Op' Ans' (Ans op)} {calls : List ((op : Op) × Ans op)}
  {made' : List ((op : Op') × Ans' op)}

/-- A script over scripts returns what it would return if each call were answered by its script. -/
theorem returns_subst {r : α} (h : (s.subst impl).Returns made' r) :
    ∃ calls, s.Returns calls r ∧ Expands impl calls made' := by
  induction s generalizing made' with
  | done a =>
    obtain ⟨rfl, rfl⟩ := h
    exact ⟨[], ⟨rfl, rfl⟩, .nil⟩
  | call op next ih =>
    obtain ⟨first, rest, ans, rfl, hfirst, hrest⟩ := returns_bind.mp h
    obtain ⟨calls, hcalls, hexpands⟩ := ih ans hrest
    exact ⟨⟨op, ans⟩ :: calls, ⟨ans, calls, rfl, hcalls⟩, .cons hfirst hexpands⟩

/-- The script of a call is among what the calls come down to. -/
theorem Expands.of_mem (h : Expands impl calls made') {op : Op} {ans : Ans op}
    (hmem : ⟨op, ans⟩ ∈ calls) :
    ∃ first, (impl op).Returns first ans ∧ ∀ m ∈ first, m ∈ made' := by
  induction h with
  | nil => exact absurd hmem (by simp)
  | @cons op' ans' first rest calls hfirst _ ih =>
    rcases List.mem_cons.mp hmem with heq | hmem
    · cases heq
      exact ⟨first, hfirst, fun m hm => List.mem_append_left _ hm⟩
    · obtain ⟨part, hpart, hsub⟩ := ih hmem
      exact ⟨part, hpart, fun m hm => List.mem_append_right _ (hsub m hm)⟩

theorem Only.bind {p : Op → Prop} (h : s.Only p) (hf : ∀ a, (f a).Only p) : (s >>= f).Only p := by
  induction s with
  | done a => exact hf a
  | call op next ih => exact ⟨h.1, fun ans => ih ans (h.2 ans)⟩

theorem Only.subst {p : Op → Prop} {q : Op' → Prop} (h : s.Only p)
    (himpl : ∀ op, p op → (impl op).Only q) : (s.subst impl).Only q := by
  induction s with
  | done a => trivial
  | call op next ih => exact Only.bind (himpl op h.1) fun ans => ih ans (h.2 ans)

theorem Only.mono {p q : Op → Prop} (h : s.Only p) (hpq : ∀ op, p op → q op) : s.Only q := by
  induction s with
  | done a => trivial
  | call op next ih => exact ⟨hpq op h.1, fun ans => ih ans (h.2 ans)⟩

end Script

/-! ## Threads -/

variable {S Env Call : Type} {Res : Call → Type}

/-- A call of a thread that has not returned: its number, what was called, what is left to do. -/
structure Pending (Op : Type) (Ans : Op → Type) (Call : Type) (Res : Call → Type) where
  id : Nat
  call : Call
  rest : Script Op Ans (Res call)

structure Threads (S Op : Type) (Ans : Op → Type) (Call : Type) (Res : Call → Type) where
  shared : S
  pending : List (Pending Op Ans Call Res) := []
  calls : Nat := 0

inductive ThreadsEvent (Env Op : Type) (Ans : Op → Type) (Call : Type) (Res : Call → Type) where
  | begin (id : Nat) (call : Call)
  | made (id : Nat) (env : Env) (op : Op) (ans : Ans op)
  | returned (id : Nat) (call : Call) (result : Res call)

inductive ThreadsStep (program : (call : Call) → Script Op Ans (Res call))
    (exec : Env → S → (op : Op) → Option (Ans op × S)) :
    Threads S Op Ans Call Res → ThreadsEvent Env Op Ans Call Res → Threads S Op Ans Call Res → Prop
  | begin (t : Threads S Op Ans Call Res) (call : Call) :
      ThreadsStep program exec t (.begin t.calls call)
        { t with pending := t.pending ++ [⟨t.calls, call, program call⟩], calls := t.calls + 1 }
  | made {t : Threads S Op Ans Call Res} {early late : List (Pending Op Ans Call Res)} {id : Nat}
      {call : Call} {op : Op} {next : Ans op → Script Op Ans (Res call)} {env : Env} {ans : Ans op}
      {s' : S} :
      t.pending = early ++ ⟨id, call, .call op next⟩ :: late →
      exec env t.shared op = some (ans, s') →
      ThreadsStep program exec t (.made id env op ans)
        { t with shared := s', pending := early ++ ⟨id, call, next ans⟩ :: late }
  | returned {t : Threads S Op Ans Call Res} {early late : List (Pending Op Ans Call Res)}
    {id : Nat}
      {call : Call} {result : Res call} :
      t.pending = early ++ ⟨id, call, .done result⟩ :: late →
      ThreadsStep program exec t (.returned id call result) { t with pending := early ++ late }

abbrev ThreadsTrace (S Env Op : Type) (Ans : Op → Type) (Call : Type) (Res : Call → Type) :=
  List (Step (Threads S Op Ans Call Res) (ThreadsEvent Env Op Ans Call Res))

namespace Threads

variable {program : (call : Call) → Script Op Ans (Res call)}
  {exec : Env → S → (op : Op) → Option (Ans op × S)} {s : S} {t t' : Threads S Op Ans Call Res}
  {event : ThreadsEvent Env Op Ans Call Res} {trace : ThreadsTrace S Env Op Ans Call Res}

/-- A step leaves the shared object alone, or is a call on it. -/
theorem shared_step (h : ThreadsStep program exec t event t') :
    (t'.shared = t.shared ∧ ∀ id env op ans, event ≠ .made id env op ans) ∨
      ∃ id env op ans, event = .made id env op ans ∧
        exec env t.shared op = some (ans, t'.shared) := by
  cases h with
  | begin call => exact Or.inl ⟨rfl, fun _ _ _ _ => by simp⟩
  | made hpending hexec => exact Or.inr ⟨_, _, _, _, rfl, hexec⟩
  | returned hpending => exact Or.inl ⟨rfl, fun _ _ _ _ => by simp⟩

/-- A call is made on the shared object. -/
theorem exec_step {id : Nat} {env : Env} {op : Op} {ans : Ans op}
    (h : ThreadsStep program exec t (.made id env op ans) t') :
    exec env t.shared op = some (ans, t'.shared) := by
  cases h with
  | made hpending hexec => exact hexec

/-- What every call keeps holds along every run. -/
theorem invariant_run {I : S → Prop} (hr : Run (ThreadsStep program exec) t trace t')
    (h0 : I t.shared) (hI : ∀ env a op ans b, I a → exec env a op = some (ans, b) → I b) :
    I t'.shared := by
  refine hr.invariant (I := fun t => I t.shared) h0 fun a l b ha hs => ?_
  rcases shared_step hs with ⟨hsame, -⟩ | ⟨id, env, op, ans, -, hexec⟩
  · rw [hsame]
    exact ha
  · exact hI _ _ _ _ _ ha hexec

/-- The calls of `made` are in the trace. -/
def Shows (trace : ThreadsTrace S Env Op Ans Call Res) (id : Nat)
    (made : List ((op : Op) × Ans op)) : Prop :=
  ∀ m ∈ made, ∃ e ∈ trace, ∃ env, e.label = .made id env m.1 m.2

/-- What a pending thread has left to do is what its program leaves after the calls it made. -/
def Follows (program : (call : Call) → Script Op Ans (Res call))
    (trace : ThreadsTrace S Env Op Ans Call Res) (id : Nat) (call : Call)
    (rest : Script Op Ans (Res call)) : Prop :=
  (∃ e ∈ trace, e.label = .begin id call) ∧
    ∃ made, Shows trace id made ∧
      ∀ more r, rest.Returns more r → (program call).Returns (made ++ more) r

theorem Follows.mono {id : Nat} {call : Call} {rest : Script Op Ans (Res call)}
    (h : Follows program trace id call rest)
    (more : ThreadsTrace S Env Op Ans Call Res) : Follows program (trace ++ more) id call rest := by
  obtain ⟨⟨e, he, hbegin⟩, made, hmade, hrest⟩ := h
  refine ⟨⟨e, List.mem_append_left _ he, hbegin⟩, made, fun m hm => ?_, hrest⟩
  obtain ⟨e, he, hlabel⟩ := hmade m hm
  exact ⟨e, List.mem_append_left _ he, hlabel⟩

/-- **Pending threads follow their programs.** -/
theorem pending_run (hr : Run (ThreadsStep program exec) { shared := s } trace t) :
    ∀ p ∈ t.pending, Follows program trace p.id p.call p.rest := by
  induction hr with
  | nil => exact fun p hp => absurd hp (by simp)
  | @snoc trace t u event hr hs ih =>
    have hold : ∀ p ∈ t.pending, Follows program (trace ++ [⟨t, event, u⟩]) p.id p.call p.rest :=
      fun p hp => (ih p hp).mono _
    have hlast : (⟨t, event, u⟩ : Step _ _) ∈ trace ++ [⟨t, event, u⟩] := by simp
    cases hs with
    | begin call =>
      intro p hp
      rcases List.mem_append.mp hp with hp | hp
      · exact hold p hp
      · obtain rfl := List.mem_singleton.mp hp
        exact ⟨⟨_, hlast, rfl⟩, [], fun m hm => absurd hm (by simp), fun more r h => h⟩
    | @made early late id call op next env ans s' hpending hexec =>
      rw [hpending] at hold
      intro p hp
      rcases List.mem_append.mp hp with hp | hp
      · exact hold p (List.mem_append_left _ hp)
      rcases List.mem_cons.mp hp with rfl | hp
      · obtain ⟨hbegin, made, hmade, hrest⟩ := hold ⟨id, call, .call op next⟩ (by simp)
        refine ⟨hbegin, made ++ [⟨op, ans⟩], fun m hm => ?_, fun more r h => ?_⟩
        · rcases List.mem_append.mp hm with hm | hm
          · exact hmade m hm
          · obtain rfl := List.mem_singleton.mp hm
            exact ⟨_, hlast, env, rfl⟩
        · rw [List.append_assoc]
          exact hrest _ _ ⟨ans, more, rfl, h⟩
      · exact hold p (List.mem_append_right _ (List.mem_cons_of_mem _ hp))
    | returned hpending =>
      rw [hpending] at hold
      intro p hp
      rcases List.mem_append.mp hp with hp | hp
      · exact hold p (List.mem_append_left _ hp)
      · exact hold p (List.mem_append_right _ (List.mem_cons_of_mem _ hp))

/-- **What a thread returned** is what its program returns, given the answers to its calls. -/
theorem returned_run {before after : ThreadsTrace S Env Op Ans Call Res}
    {e : Step (Threads S Op Ans Call Res) (ThreadsEvent Env Op Ans Call Res)} {id : Nat}
    {call : Call}
    {result : Res call}
    (hr : Run (ThreadsStep program exec) { shared := s } (before ++ e :: after) t)
    (hlabel : e.label = .returned id call result) :
    (∃ b ∈ before, b.label = .begin id call) ∧
      ∃ made, Shows before id made ∧ (program call).Returns made result := by
  obtain ⟨hbefore, hs, -⟩ := hr.split
  have hpending := pending_run hbefore
  rw [hlabel] at hs
  generalize e.after = after' at hs
  cases hs with
  | returned hsplit =>
    rw [hsplit] at hpending
    obtain ⟨hbegin, made, hmade, hrest⟩ := hpending ⟨id, call, .done result⟩ (by simp)
    refine ⟨hbegin, made, hmade, ?_⟩
    have hdone := hrest [] result ⟨rfl, rfl⟩
    rwa [List.append_nil] at hdone

/-- **A call that a thread makes** comes where its program makes it, given the answers before. -/
theorem made_run (hans : ∀ op, Nonempty (Ans op))
    {before after : ThreadsTrace S Env Op Ans Call Res}
    {e : Step (Threads S Op Ans Call Res) (ThreadsEvent Env Op Ans Call Res)} {id : Nat} {env : Env}
    {op : Op} {ans : Ans op}
    (hr : Run (ThreadsStep program exec) { shared := s } (before ++ e :: after) t)
    (hlabel : e.label = .made id env op ans) :
    ∃ call made more r, Shows before id made ∧
      (program call).Returns (made ++ ⟨op, ans⟩ :: more) r := by
  obtain ⟨hbefore, hs, -⟩ := hr.split
  have hpending := pending_run hbefore
  rw [hlabel] at hs
  generalize e.after = after' at hs
  cases hs with
  | @made early late id call op next env ans s' hsplit hexec =>
    rw [hsplit] at hpending
    obtain ⟨-, made, hmade, hrest⟩ := hpending ⟨id, call, .call op next⟩ (by simp)
    obtain ⟨more, r, hmore⟩ := (next ans).exists_returns hans
    exact ⟨call, made, more, r, hmade, hrest _ _ ⟨ans, more, rfl, hmore⟩⟩

/-- **Threads make only calls of their programs.** -/
theorem only_run {q : Op → Prop} (hr : Run (ThreadsStep program exec) { shared := s } trace t)
    (hq : ∀ e ∈ trace, ∀ id call, e.label = .begin id call → (program call).Only q) :
    (∀ p ∈ t.pending, p.rest.Only q) ∧
      ∀ e ∈ trace, ∀ id env op ans, e.label = .made id env op ans → q op := by
  induction hr with
  | nil => exact ⟨fun p hp => absurd hp (by simp), fun e he => absurd he (by simp)⟩
  | @snoc trace t u event hr hs ih =>
    obtain ⟨hpend, hmade⟩ := ih fun e he => hq e (List.mem_append_left _ he)
    have hlast := hq ⟨t, event, u⟩ (by simp)
    have hold : (∀ id env op ans, event = .made id env op ans → q op) →
        ∀ e ∈ trace ++ [⟨t, event, u⟩], ∀ id env op ans, e.label = .made id env op ans → q op := by
      intro hevent e he
      rcases List.mem_append.mp he with he | he
      · exact hmade e he
      · obtain rfl := List.mem_singleton.mp he
        exact hevent
    cases hs with
    | begin call =>
      refine ⟨fun p hp => ?_, hold fun id env op ans heq => by cases heq⟩
      rcases List.mem_append.mp hp with hp | hp
      · exact hpend p hp
      · obtain rfl := List.mem_singleton.mp hp
        exact hlast _ _ rfl
    | @made early late id call op next env ans s' hpending hexec =>
      rw [hpending] at hpend
      have hcall := hpend ⟨id, call, .call op next⟩ (by simp)
      refine ⟨fun p hp => ?_, hold fun id' env' op' ans' heq => by cases heq; exact hcall.1⟩
      rcases List.mem_append.mp hp with hp | hp
      · exact hpend p (List.mem_append_left _ hp)
      rcases List.mem_cons.mp hp with rfl | hp
      · exact hcall.2 ans
      · exact hpend p (List.mem_append_right _ (List.mem_cons_of_mem _ hp))
    | returned hpending =>
      rw [hpending] at hpend
      refine ⟨fun p hp => ?_, hold fun id env op ans heq => by cases heq⟩
      rcases List.mem_append.mp hp with hp | hp
      · exact hpend p (List.mem_append_left _ hp)
      · exact hpend p (List.mem_append_right _ (List.mem_cons_of_mem _ hp))

/-! ## Threads return once -/

variable (p : Call → Bool)

def begins : ThreadsEvent Env Op Ans Call Res → Bool
  | .begin _ call => p call
  | _ => false

def returns : ThreadsEvent Env Op Ans Call Res → Bool
  | .returned _ call _ => p call
  | _ => false

theorem balance_step (h : ThreadsStep program exec t event t') :
    (begins p event).toNat + t.pending.countP (fun j => p j.call) =
      (returns p event).toNat + t'.pending.countP fun j => p j.call := by
  cases h with
  | begin call =>
    rw [List.countP_append, List.countP_singleton]
    cases hp : p call <;> simp [begins, returns, hp, Nat.add_comm]
  | made hpending hexec =>
    simp [hpending, begins, returns, List.countP_append, List.countP_cons]
  | @returned early late id call result hpending =>
    rw [hpending, List.countP_append, List.countP_cons, List.countP_append]
    cases hp : p call <;> simp [begins, returns, hp]
    omega

/-- **A thread is pending from when it is begun to when it returns.** -/
theorem balance_run (hr : Run (ThreadsStep program exec) { shared := s } trace t) :
    trace.countP (fun e => begins p e.label) =
      trace.countP (fun e => returns p e.label) + t.pending.countP fun j => p j.call := by
  induction hr with
  | nil => rfl
  | @snoc trace t u event hr hs ih =>
    have hstep := balance_step p hs
    rw [List.countP_append, List.countP_append, List.countP_singleton, List.countP_singleton, ih]
    cases hb : begins p event <;> cases hret : returns p event <;>
      simp only [hb, hret, Bool.toNat_true, Bool.toNat_false, if_true, Bool.false_eq_true,
        if_false] at hstep ⊢ <;> omega

/-- Two entries of a list that satisfy what at most one of them does are the same. -/
theorem eq_of_countP_le_one {γ : Type} {l : List γ} {q : γ → Bool} (h : l.countP q ≤ 1) {a b : γ}
    (ha : a ∈ l) (hb : b ∈ l) (hqa : q a = true) (hqb : q b = true) : a = b := by
  rw [List.countP_eq_length_filter] at h
  have ha' := List.mem_filter.mpr ⟨ha, hqa⟩
  have hb' := List.mem_filter.mpr ⟨hb, hqb⟩
  match hl : l.filter q with
  | [] => exact absurd (hl ▸ ha') (by simp)
  | [c] =>
    rw [hl] at ha' hb'
    rw [List.mem_singleton.mp ha', List.mem_singleton.mp hb']
  | c :: d :: rest =>
    rw [hl] at h
    exact absurd h (by simp)

/-- Of calls that are begun at most once, one returns at most once. -/
theorem eq_of_returned (hr : Run (ThreadsStep program exec) { shared := s } trace t)
    (honce : trace.countP (fun e => begins p e.label) ≤ 1)
    {e e' : Step (Threads S Op Ans Call Res) (ThreadsEvent Env Op Ans Call Res)} (he : e ∈ trace)
    (he' : e' ∈ trace) (h : returns p e.label = true) (h' : returns p e'.label = true) :
    e = e' := by
  have hbalance := balance_run p hr
  exact eq_of_countP_le_one (q := fun e => returns p e.label) (by omega) he he' h h'

/-- Pending threads have ids of their own, that no thread has returned under. -/
theorem ids_run (hr : Run (ThreadsStep program exec) { shared := s } trace t) :
    (t.pending.map Pending.id).Nodup ∧ (∀ p ∈ t.pending, p.id < t.calls) ∧
      ∀ e ∈ trace, ∀ id call result, e.label = .returned id call result →
        id < t.calls ∧ id ∉ t.pending.map Pending.id := by
  induction hr with
  | nil => exact ⟨List.nodup_nil, fun p hp => absurd hp (by simp), fun e he => absurd he (by simp)⟩
  | @snoc trace t u event hr hs ih =>
    obtain ⟨hnodup, hlt, hreturned⟩ := ih
    cases hs with
    | begin call =>
      have hnew : t.calls ∉ t.pending.map Pending.id := by
        rintro hmem
        obtain ⟨p, hp, heq⟩ := List.mem_map.mp hmem
        exact absurd (hlt p hp) (by omega)
      refine ⟨?_, fun p hp => ?_, fun e he id call' result hlabel => ?_⟩
      · rw [List.map_append, List.map_singleton]
        refine List.nodup_append.mpr ⟨hnodup, List.nodup_singleton _, ?_⟩
        rintro a ha b hb rfl
        obtain rfl := List.mem_singleton.mp hb
        exact hnew ha
      · rcases List.mem_append.mp hp with hp | hp
        · exact Nat.lt_succ_of_lt (hlt p hp)
        · obtain rfl := List.mem_singleton.mp hp
          exact Nat.lt_succ_self _
      · rcases List.mem_append.mp he with he | he
        · obtain ⟨hid, hgone⟩ := hreturned e he id call' result hlabel
          refine ⟨Nat.lt_succ_of_lt hid, ?_⟩
          rw [List.map_append, List.map_singleton]
          intro hmem
          rcases List.mem_append.mp hmem with hmem | hmem
          · exact hgone hmem
          · exact absurd (List.mem_singleton.mp hmem) (Nat.ne_of_lt hid)
        · obtain rfl := List.mem_singleton.mp he
          cases hlabel
    | @made early late id call op next env ans s' hpending hexec =>
      have hsame : (early ++ ⟨id, call, next ans⟩ :: late).map Pending.id =
          t.pending.map Pending.id := by
        rw [hpending, List.map_append, List.map_append, List.map_cons, List.map_cons]
      refine ⟨hsame ▸ hnodup, fun p hp => ?_, fun e he id' call' result hlabel => ?_⟩
      · have hmem : p.id ∈ t.pending.map Pending.id := hsame ▸ List.mem_map_of_mem hp
        obtain ⟨q, hq, heq⟩ := List.mem_map.mp hmem
        exact heq ▸ hlt q hq
      · rcases List.mem_append.mp he with he | he
        · obtain ⟨hid, hgone⟩ := hreturned e he id' call' result hlabel
          exact ⟨hid, hsame ▸ hgone⟩
        · obtain rfl := List.mem_singleton.mp he
          cases hlabel
    | @returned early late id call result hpending =>
      rw [hpending, List.map_append, List.map_cons] at hnodup
      have hsub : (early ++ late).map Pending.id ⊆ t.pending.map Pending.id := by
        rw [hpending]
        exact List.map_subset _ (by simp)
      have hgone : id ∉ (early ++ late).map Pending.id := by
        rw [List.map_append]
        exact (List.nodup_middle.mp hnodup).notMem
      refine ⟨?_, fun p hp => ?_, fun e he id' call' result' hlabel => ?_⟩
      · rw [List.map_append]
        exact (List.nodup_middle.mp hnodup).of_cons
      · refine hlt p ?_
        rw [hpending]
        rcases List.mem_append.mp hp with hp | hp
        · exact List.mem_append_left _ hp
        · exact List.mem_append_right _ (List.mem_cons_of_mem _ hp)
      · rcases List.mem_append.mp he with he | he
        · obtain ⟨hid, hold⟩ := hreturned e he id' call' result' hlabel
          exact ⟨hid, fun hmem => hold (hsub hmem)⟩
        · obtain rfl := List.mem_singleton.mp he
          cases hlabel
          exact ⟨hlt ⟨id, call, .done result⟩ (by rw [hpending]; simp), hgone⟩

/-- **A thread returns once.** -/
theorem returned_once {entries : ThreadsTrace S Env Op Ans Call Res}
    (hr : Run (ThreadsStep program exec) { shared := s } entries t) {i j id : Nat}
    {e e' : Step (Threads S Op Ans Call Res) (ThreadsEvent Env Op Ans Call Res)}
    {call call' : Call} {result : Res call} {result' : Res call'} (he : entries[i]? = some e)
    (he' : entries[j]? = some e') (h : e.label = .returned id call result)
    (h' : e'.label = .returned id call' result') : i = j := by
  have hnot : ∀ {i j : Nat} {e e'} {call call' : Call} {result : Res call} {result' : Res call'},
      entries[i]? = some e → entries[j]? = some e' → e.label = .returned id call result →
      e'.label = .returned id call' result' → ¬ i < j := by
    intro i j e e' call call' result result' he he' h h' hlt
    obtain ⟨hbefore, hs⟩ := hr.entry_at he'
    obtain ⟨-, hgone⟩ := (ids_run hbefore).2.2 e
      (List.mem_of_getElem? (by rw [List.getElem?_take_of_lt hlt, he])) id call result h
    rw [h'] at hs
    generalize e'.after = after at hs
    cases hs with
    | returned hpending => exact hgone (by rw [hpending]; simp)
  exact Nat.le_antisymm (Nat.le_of_not_lt (hnot he' he h' h)) (Nat.le_of_not_lt (hnot he he' h h'))

/-! ## Runs that can be computed -/

/-- A thread is begun, or the pending thread at a position goes on. -/
inductive Move (Env Call : Type) where
  | begin (call : Call)
  | advance (i : Nat) (env : Env)

def play (program : (call : Call) → Script Op Ans (Res call))
    (exec : Env → S → (op : Op) → Option (Ans op × S)) (t : Threads S Op Ans Call Res) :
    Move Env Call → Option (ThreadsEvent Env Op Ans Call Res × Threads S Op Ans Call Res)
  | .begin call => some (.begin t.calls call,
      { t with pending := t.pending ++ [⟨t.calls, call, program call⟩], calls := t.calls + 1 })
  | .advance i env =>
    match t.pending[i]? with
    | none => none
    | some ⟨id, call, .done result⟩ =>
      some (.returned id call result,
        { t with pending := t.pending.take i ++ t.pending.drop (i + 1) })
    | some ⟨id, call, .call op next⟩ =>
      (exec env t.shared op).map fun r => (.made id env op r.1,
        { t with
          shared := r.2
          pending := t.pending.take i ++ ⟨id, call, next r.1⟩ :: t.pending.drop (i + 1) })

theorem play_step (t : Threads S Op Ans Call Res) (move : Move Env Call)
    (event : ThreadsEvent Env Op Ans Call Res) (t' : Threads S Op Ans Call Res)
    (h : play program exec t move = some (event, t')) : ThreadsStep program exec t event t' := by
  cases move with
  | begin call =>
    obtain ⟨rfl, rfl⟩ := Prod.mk.inj (Option.some.inj h)
    exact .begin t call
  | advance i env =>
    have hsplit : ∀ p, t.pending[i]? = some p →
        t.pending = t.pending.take i ++ p :: t.pending.drop (i + 1) := by
      intro p hp
      obtain ⟨hi, rfl⟩ := List.getElem?_eq_some_iff.mp hp
      rw [← List.drop_eq_getElem_cons hi, List.take_append_drop]
    rw [play] at h
    split at h
    · exact absurd h (by simp)
    · rename_i id call result hp
      obtain ⟨rfl, rfl⟩ := Prod.mk.inj (Option.some.inj h)
      exact .returned (hsplit _ hp)
    · rename_i id call op next hp
      obtain ⟨⟨ans, s'⟩, hexec, heq⟩ := Option.map_eq_some_iff.mp h
      obtain ⟨rfl, rfl⟩ := Prod.mk.inj heq
      exact .made (hsplit _ hp) hexec

end Threads

end PokerServer

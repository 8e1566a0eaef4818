import PokerServer.Lib.Threads
import Mathlib.Data.List.Forall2
import Mathlib.Tactic.Tauto

/-!
# Typestates of threads

A `Typestate` says, for a thread that has come to a phase, which calls it may make and to which
phase each answer takes it. `Script.Obeys` checks a script against it, and relies on the answers
being those that `answers` promises.

`Typestate.Keeps` are the obligations for an invariant over what happened, the shared object and
the phases of the pending threads; `typestate_run` is its rule, and `allows_run` says so of each
call: the phase of a thread is all that a proof about the shared object has to know of its program.
-/

namespace PokerServer

/-- The thread an event is about. -/
def ThreadsEvent.id {Env Op : Type} {Ans : Op → Type} {Call : Type} {Res : Call → Type} :
    ThreadsEvent Env Op Ans Call Res → Nat
  | .begin id _ => id
  | .made id _ _ _ => id
  | .returned id _ _ => id

structure Typestate (Op : Type) (Ans : Op → Type) (P : Type) where
  allows : P → Op → Prop
  answers : (op : Op) → Ans op → Prop
  next : P → (op : Op) → Ans op → P

variable {Op : Type} {Ans : Op → Type} {P α β : Type}

namespace Script

/-- From phase `p` on the script makes only calls that its phase allows, and comes to `final`. -/
def Obeys (π : Typestate Op Ans P) (final : P → α → Prop) : P → Script Op Ans α → Prop
  | p, .done a => final p a
  | p, .call op next =>
    π.allows p op ∧ ∀ ans, π.answers op ans → (next ans).Obeys π final (π.next p op ans)

variable {π : Typestate Op Ans P} {final : P → α → Prop} {p : P} {s : Script Op Ans α}

theorem obeys_perform_bind {op : Op} {g : Ans op → Script Op Ans α} :
    (perform op >>= g).Obeys π final p ↔
      π.allows p op ∧ ∀ ans, π.answers op ans → (g ans).Obeys π final (π.next p op ans) :=
  Iff.rfl

theorem Obeys.bind {mid : P → α → Prop} {final : P → β → Prop} {f : α → Script Op Ans β}
    (h : s.Obeys π mid p) (hf : ∀ q a, mid q a → (f a).Obeys π final q) :
    (s >>= f).Obeys π final p := by
  induction s generalizing p with
  | done a => exact hf p a h
  | call op next ih => exact ⟨h.1, fun ans hans => ih ans (h.2 ans hans)⟩

theorem Obeys.mono {final' : P → α → Prop} (h : s.Obeys π final p)
    (hmono : ∀ q a, final q a → final' q a) : s.Obeys π final' p := by
  induction s generalizing p with
  | done a => exact hmono p a h
  | call op next ih => exact ⟨h.1, fun ans hans => ih ans (h.2 ans hans)⟩

/-- A script whose calls are scripts over another object, each of which does there what the call
does here. -/
theorem Obeys.subst {Op' : Type} {Ans' : Op' → Type} {π' : Typestate Op' Ans' P}
    {impl : (op : Op) → Script Op' Ans' (Ans op)} (h : s.Obeys π final p)
    (himpl : ∀ p op, π.allows p op →
      (impl op).Obeys π' (fun q ans => π.answers op ans ∧ q = π.next p op ans) p) :
    (s.subst impl).Obeys π' final p := by
  induction s generalizing p with
  | done a => exact h
  | call op next ih =>
    refine Obeys.bind (himpl p op h.1) ?_
    rintro q ans ⟨hans, rfl⟩
    exact ih ans (h.2 ans hans)

theorem only_true (s : Script Op Ans α) : s.Only fun _ => True := by
  induction s with
  | done a => trivial
  | call op next ih => exact ⟨trivial, ih⟩

/-- However it goes, the script returns a result that satisfies `φ`. -/
def Ends (φ : α → Prop) : Script Op Ans α → Prop
  | .done a => φ a
  | .call _ next => ∀ ans, (next ans).Ends φ

theorem Ends.bind {φ : β → Prop} {f : α → Script Op Ans β} (h : ∀ a, (f a).Ends φ) :
    (s >>= f).Ends φ := by
  induction s with
  | done a => exact h a
  | call op next ih => exact fun ans => ih ans

theorem Obeys.ends {φ : α → Prop} (h : s.Obeys π final p) (hends : s.Ends φ) :
    s.Obeys π (fun q a => final q a ∧ φ a) p := by
  induction s generalizing p with
  | done a => exact ⟨h, hends⟩
  | call op next ih => exact ⟨h.1, fun ans hans => ih ans (h.2 ans hans) (hends ans)⟩

/-- Calls that are allowed in any phase of `I` and lead to such phases. -/
theorem Only.obeys {q : Op → Prop} {I : P → Prop} (h : s.Only q)
    (hq : ∀ p op, I p → q op → π.allows p op ∧ ∀ ans, I (π.next p op ans)) (hp : I p) :
    s.Obeys π (fun p _ => I p) p := by
  induction s generalizing p with
  | done a => exact hp
  | call op next ih =>
    obtain ⟨hallows, hnext⟩ := hq p op hp h.1
    exact ⟨hallows, fun ans _ => ih ans (h.2 ans) (hnext ans)⟩

end Script

/-! ## Threads -/

variable {S Env Call : Type} {Res : Call → Type}

/-- The obligations for an invariant over what happened, the shared object, and the ids and phases
of the pending threads. -/
structure Typestate.Keeps (π : Typestate Op Ans P) (start : Call → P)
    (final : (call : Call) → P → Res call → Prop)
    (exec : Env → S → (op : Op) → Option (Ans op × S))
    (I : List (ThreadsEvent Env Op Ans Call Res) → S → List (Nat × P) → Prop) : Prop where
  begin : ∀ {past s phases} id call, I past s phases → (∀ event ∈ past, event.id ≠ id) →
      I (past ++ [.begin id call]) s (phases ++ [(id, start call)])
  made : ∀ {past s s' early late id p env op ans}, I past s (early ++ (id, p) :: late) →
    (∀ m ∈ early ++ late, m.1 ≠ id) → π.allows p op → exec env s op = some (ans, s') →
    π.answers op ans ∧ I (past ++ [.made id env op ans]) s' (early ++ (id, π.next p op ans) :: late)
  returned : ∀ {past s early late id call p r}, I past s (early ++ (id, p) :: late) →
    (∀ m ∈ early ++ late, m.1 ≠ id) → final call p r →
    I (past ++ [.returned id call r]) s (early ++ late)

theorem Typestate.mem_replaced {γ : Type} {early late : List γ} {a b : γ} :
    a ∈ early ++ b :: late ↔ a ∈ early ++ late ∨ a = b := by
  simp only [List.mem_append, List.mem_cons]
  tauto

namespace Threads

variable {program : (call : Call) → Script Op Ans (Res call)}
  {exec : Env → S → (op : Op) → Option (Ans op × S)} {s : S} {t : Threads S Op Ans Call Res}
  {trace : ThreadsTrace S Env Op Ans Call Res}

/-- A pending thread, and the phase from which the rest of it obeys. -/
def InPhase (π : Typestate Op Ans P) (final : (call : Call) → P → Res call → Prop)
    (q : Pending Op Ans Call Res) (m : Nat × P) : Prop :=
  q.id = m.1 ∧ q.rest.Obeys π (final q.call) m.2

theorem ids_phases {π : Typestate Op Ans P} {final : (call : Call) → P → Res call → Prop}
    {pending : List (Pending Op Ans Call Res)} {phases : List (Nat × P)}
    (h : List.Forall₂ (InPhase π final) pending phases) :
    pending.map Pending.id = phases.map Prod.fst := by
  induction h with
  | nil => rfl
  | cons hq _ ih => rw [List.map_cons, List.map_cons, hq.1, ih]

theorem phases_of_pending {π : Typestate Op Ans P} {final : (call : Call) → P → Res call → Prop}
    {early late : List (Pending Op Ans Call Res)} {q : Pending Op Ans Call Res}
    {phases : List (Nat × P)} (h : List.Forall₂ (InPhase π final) (early ++ q :: late) phases) :
    ∃ before p after, phases = before ++ (q.id, p) :: after ∧ q.rest.Obeys π (final q.call) p ∧
      List.Forall₂ (InPhase π final) early before ∧ List.Forall₂ (InPhase π final) late after := by
  induction early generalizing phases with
  | nil =>
    obtain ⟨⟨id, p⟩, after, ⟨rfl, hobeys⟩, hlate, rfl⟩ := List.forall₂_cons_left_iff.mp h
    exact ⟨[], p, after, rfl, hobeys, .nil, hlate⟩
  | cons first early ih =>
    obtain ⟨m, rest, hfirst, hrest, rfl⟩ := List.forall₂_cons_left_iff.mp h
    obtain ⟨before, p, after, rfl, hobeys, hearly, hlate⟩ := ih hrest
    exact ⟨m :: before, p, after, rfl, hobeys, .cons hfirst hearly, hlate⟩

theorem ne_of_nodup {early late : List (Nat × P)} {m : Nat × P}
    (h : ((early ++ m :: late).map Prod.fst).Nodup) : ∀ n ∈ early ++ late, n.1 ≠ m.1 := by
  intro n hn heq
  rw [List.map_append, List.map_cons, List.nodup_middle, List.nodup_cons, ← List.map_append] at h
  exact h.1 (heq ▸ List.mem_map_of_mem hn)

theorem event_ids_run (hr : Run (ThreadsStep program exec) { shared := s } trace t) :
    ∀ e ∈ trace, e.label.id < t.calls := by
  induction hr with
  | nil => exact fun e he => absurd he (by simp)
  | @snoc trace t u event hr hs ih =>
    obtain ⟨-, hlt, -⟩ := ids_run hr
    intro e he
    cases hs with
    | begin call =>
      rcases List.mem_append.mp he with he | he
      · exact Nat.lt_succ_of_lt (ih e he)
      · obtain rfl := List.mem_singleton.mp he
        exact Nat.lt_succ_self _
    | made hpending hexec =>
      rcases List.mem_append.mp he with he | he
      · exact ih e he
      · obtain rfl := List.mem_singleton.mp he
        exact hlt _ (hpending ▸ List.mem_append_right _ (List.mem_cons_self ..))
    | returned hpending =>
      rcases List.mem_append.mp he with he | he
      · exact ih e he
      · obtain rfl := List.mem_singleton.mp he
        exact hlt _ (hpending ▸ List.mem_append_right _ (List.mem_cons_self ..))

/-- **The rule of typestates.** -/
theorem typestate_run {π : Typestate Op Ans P} {start : Call → P}
    {final : (call : Call) → P → Res call → Prop}
    {I : List (ThreadsEvent Env Op Ans Call Res) → S → List (Nat × P) → Prop}
    (hr : Run (ThreadsStep program exec) { shared := s } trace t)
    (hprogram : ∀ call, (program call).Obeys π (final call) (start call))
    (hkeeps : π.Keeps start final exec I) (h0 : I [] s []) :
    ∃ phases, List.Forall₂ (InPhase π final) t.pending phases ∧
      I (trace.map Step.label) t.shared phases := by
  induction hr with
  | nil => exact ⟨[], .nil, h0⟩
  | @snoc trace t u event hr hs ih =>
    obtain ⟨phases, hphases, hI⟩ := ih
    obtain ⟨hnodup, -, -⟩ := ids_run hr
    rw [List.map_append]
    cases hs with
    | begin call =>
      refine ⟨phases ++ [(t.calls, start call)],
        List.rel_append hphases (.cons ⟨rfl, hprogram call⟩ .nil), hkeeps.begin _ _ hI ?_⟩
      intro event hevent
      obtain ⟨e, he, rfl⟩ := List.mem_map.mp hevent
      exact Nat.ne_of_lt (event_ids_run hr e he)
    | @made early late id call op next env ans s' hpending hexec =>
      rw [ids_phases hphases] at hnodup
      rw [hpending] at hphases
      obtain ⟨before, p, after, rfl, ⟨hallows, hnext⟩, hearly, hlate⟩ := phases_of_pending hphases
      obtain ⟨hanswer, hI'⟩ := hkeeps.made hI (ne_of_nodup hnodup) hallows hexec
      exact ⟨_, List.rel_append hearly (.cons ⟨rfl, hnext ans hanswer⟩ hlate), hI'⟩
    | @returned early late id call result hpending =>
      rw [ids_phases hphases] at hnodup
      rw [hpending] at hphases
      obtain ⟨before, p, after, rfl, hfinal, hearly, hlate⟩ := phases_of_pending hphases
      exact ⟨_, List.rel_append hearly hlate, hkeeps.returned hI (ne_of_nodup hnodup) hfinal⟩

/-- What returns has come to a phase that `final` allows. -/
theorem final_run {π : Typestate Op Ans P} {start : Call → P}
    {final : (call : Call) → P → Res call → Prop}
    {I : List (ThreadsEvent Env Op Ans Call Res) → S → List (Nat × P) → Prop}
    {before after : ThreadsTrace S Env Op Ans Call Res}
    {e : Step (Threads S Op Ans Call Res) (ThreadsEvent Env Op Ans Call Res)} {id : Nat}
    {call : Call} {result : Res call}
    (hr : Run (ThreadsStep program exec) { shared := s } (before ++ e :: after) t)
    (hprogram : ∀ call, (program call).Obeys π (final call) (start call))
    (hkeeps : π.Keeps start final exec I) (h0 : I [] s [])
    (hlabel : e.label = .returned id call result) :
    ∃ phases p, (id, p) ∈ phases ∧ final call p result ∧
      I (before.map Step.label) e.before.shared phases := by
  obtain ⟨hbefore, hs, -⟩ := hr.split
  obtain ⟨phases, hphases, hI⟩ := typestate_run hbefore hprogram hkeeps h0
  rw [hlabel] at hs
  generalize e.after = after' at hs
  cases hs with
  | returned hpending =>
    rw [hpending] at hphases
    obtain ⟨early, p, late, rfl, hobeys, -, -⟩ := phases_of_pending hphases
    exact ⟨_, p, List.mem_append_right _ (List.mem_cons_self ..), hobeys, hI⟩

/-- Every call of a run is one that its thread's phase allows. -/
theorem allows_run {π : Typestate Op Ans P} {start : Call → P}
    {final : (call : Call) → P → Res call → Prop}
    {I : List (ThreadsEvent Env Op Ans Call Res) → S → List (Nat × P) → Prop}
    {before after : ThreadsTrace S Env Op Ans Call Res}
    {e : Step (Threads S Op Ans Call Res) (ThreadsEvent Env Op Ans Call Res)} {id : Nat} {env : Env}
    {op : Op} {ans : Ans op}
    (hr : Run (ThreadsStep program exec) { shared := s } (before ++ e :: after) t)
    (hprogram : ∀ call, (program call).Obeys π (final call) (start call))
    (hkeeps : π.Keeps start final exec I) (h0 : I [] s [])
    (hlabel : e.label = .made id env op ans) :
    ∃ phases p, (id, p) ∈ phases ∧ π.allows p op ∧
      I (before.map Step.label) e.before.shared phases := by
  obtain ⟨hbefore, hs, -⟩ := hr.split
  obtain ⟨phases, hphases, hI⟩ := typestate_run hbefore hprogram hkeeps h0
  rw [hlabel] at hs
  generalize e.after = after' at hs
  cases hs with
  | made hpending hexec =>
    rw [hpending] at hphases
    obtain ⟨early, p, late, rfl, hobeys, -, -⟩ := phases_of_pending hphases
    exact ⟨_, p, List.mem_append_right _ (List.mem_cons_self ..), hobeys.1, hI⟩

end Threads

end PokerServer

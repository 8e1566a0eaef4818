import Mathlib.Logic.Relation
import Mathlib.Data.List.Induction
import Mathlib.Order.Basic

/-!
# Runs of a labelled transition system

`Run step s trace t`: the steps of `trace`, oldest first, lead from `s` to `t`. Each entry of the
trace keeps the state before, the label and the state after.

* `Run.invariant`: what holds at the start and is kept by every step holds at the end.
* `Run.entry`: every step on the way is taken from a reached state.
* `Run.split`, `Run.entry_at`: a run can be cut at any of its steps.
* `Run.guarded`: an invariant that is kept by the steps satisfying a guard holds along every run
  whose steps all satisfy it, before each of them (`Run.guarded_entry`).
* `Run.mono`: what no step lowers only grows along a run.
* `Run.since`: what holds after an entry holds until an entry breaks it.
* `Run.length_le`: a run that lowers a measure is no longer than the measure.
* `replay`: the run of a system that computes its steps.
-/

namespace PokerServer

variable {S L : Type}

/-- One entry of a trace. -/
structure Step (S L : Type) where
  before : S
  label : L
  after : S

inductive Run (step : S → L → S → Prop) (s : S) : List (Step S L) → S → Prop
  | nil : Run step s [] s
  | snoc {trace : List (Step S L)} {t u : S} {l : L} :
      Run step s trace t → step t l u → Run step s (trace ++ [⟨t, l, u⟩]) u

/-- The states some run from `s` ends in. -/
def Reaches (step : S → L → S → Prop) (s t : S) : Prop := ∃ trace, Run step s trace t

variable {step : S → L → S → Prop} {s t : S} {trace : List (Step S L)}

theorem Reaches.refl (s : S) : Reaches step s s := ⟨[], Run.nil⟩

theorem Reaches.tail {u : S} {l : L} (h : Reaches step s t) (hs : step t l u) :
    Reaches step s u := by
  obtain ⟨trace, hr⟩ := h
  exact ⟨_, hr.snoc hs⟩

theorem Run.invariant {I : S → Prop} (hr : Run step s trace t) (h0 : I s)
    (hI : ∀ a l b, I a → step a l b → I b) : I t := by
  induction hr with
  | nil => exact h0
  | snoc _ hs ih => exact hI _ _ _ ih hs

theorem Reaches.invariant {I : S → Prop} (hr : Reaches step s t) (h0 : I s)
    (hI : ∀ a l b, I a → step a l b → I b) : I t := by
  obtain ⟨_, hr⟩ := hr
  exact hr.invariant h0 hI

/-- Every entry of a trace is a step taken from a reached state. -/
theorem Run.entry (hr : Run step s trace t) {e : Step S L} (he : e ∈ trace) :
    Reaches step s e.before ∧ step e.before e.label e.after := by
  induction hr with
  | nil => exact absurd he (by simp)
  | @snoc tr a b l hr hs ih =>
    rcases List.mem_append.mp he with he | he
    · exact ih he
    · rw [List.mem_singleton] at he
      subst he
      exact ⟨⟨tr, hr⟩, hs⟩

/-- An invariant kept by guarded steps holds at the end of a run all of whose steps are
guarded. -/
theorem Run.guarded {I : S → Prop} {G : Step S L → Prop} (hr : Run step s trace t) (h0 : I s)
    (hI : ∀ a l b, I a → step a l b → G ⟨a, l, b⟩ → I b) (hG : ∀ e ∈ trace, G e) : I t := by
  induction hr with
  | nil => exact h0
  | @snoc tr a b l _ hs ih =>
    refine hI _ _ _ (ih fun e he => hG e (List.mem_append_left _ he)) hs ?_
    exact hG _ (List.mem_append_right _ (List.mem_singleton.mpr rfl))

theorem Run.guarded_entry {I : S → Prop} {G : Step S L → Prop} (hr : Run step s trace t)
    (h0 : I s) (hI : ∀ a l b, I a → step a l b → G ⟨a, l, b⟩ → I b) (hG : ∀ e ∈ trace, G e)
    {e : Step S L} (he : e ∈ trace) : I e.before ∧ step e.before e.label e.after := by
  induction hr with
  | nil => exact absurd he (by simp)
  | @snoc tr a b l hr hs ih =>
    have hG' : ∀ e ∈ tr, G e := fun e he => hG e (List.mem_append_left _ he)
    rcases List.mem_append.mp he with he | he
    · exact ih hG' he
    · rw [List.mem_singleton] at he
      subst he
      exact ⟨hr.guarded h0 hI hG', hs⟩

/-- A run all of whose steps have a property is a run of such steps. -/
theorem Run.restrict {P : Step S L → Prop} (hr : Run step s trace t) (hP : ∀ e ∈ trace, P e) :
    Run (fun a l b => step a l b ∧ P ⟨a, l, b⟩) s trace t := by
  induction hr with
  | nil => exact .nil
  | snoc _ hs ih =>
    exact (ih fun e he => hP e (List.mem_append_left _ he)).snoc
      ⟨hs, hP _ (List.mem_append_right _ (List.mem_singleton.mpr rfl))⟩

theorem Run.eq_of_nil (hr : Run step s [] t) : s = t := by
  generalize htrace : ([] : List (Step S L)) = trace at hr
  cases hr with
  | nil => rfl
  | snoc => exact absurd htrace (by simp)

theorem Run.append {u : S} {late : List (Step S L)} (hr : Run step s trace t)
    (hlate : Run step t late u) : Run step s (trace ++ late) u := by
  induction hlate with
  | nil => rwa [List.append_nil]
  | snoc _ hs ih =>
    rw [← List.append_assoc]
    exact ih.snoc hs

/-- A run can be cut at any of its steps. -/
theorem Run.split {e : Step S L} : ∀ {post pre : List (Step S L)} {t : S},
    Run step s (pre ++ e :: post) t →
    Run step s pre e.before ∧ step e.before e.label e.after ∧ Run step e.after post t := by
  intro post
  induction post using List.reverseRecOn with
  | nil =>
    intro pre t hr
    generalize htrace : pre ++ [e] = trace at hr
    cases hr with
    | nil => exact absurd htrace (by simp)
    | snoc hr hs =>
      obtain ⟨rfl, he⟩ := List.append_inj' htrace rfl
      obtain rfl := (List.cons.inj he).1
      exact ⟨hr, hs, Run.nil⟩
  | append_singleton post last ih =>
    intro pre t hr
    generalize htrace : pre ++ e :: (post ++ [last]) = trace at hr
    rw [← List.cons_append, ← List.append_assoc] at htrace
    cases hr with
    | nil => exact absurd htrace (by simp)
    | snoc hr hs =>
      obtain ⟨rfl, hlast⟩ := List.append_inj' htrace rfl
      obtain rfl := (List.cons.inj hlast).1
      obtain ⟨hpre, he, hpost⟩ := ih hr
      exact ⟨hpre, he, hpost.snoc hs⟩

/-- The run up to an entry, and its step. -/
theorem Run.entry_at {entries : List (Step S L)} (hr : Run step s entries t) {j : Nat}
    {e : Step S L} (he : entries[j]? = some e) :
    Run step s (entries.take j) e.before ∧ step e.before e.label e.after := by
  obtain ⟨hj, hentry⟩ := List.getElem?_eq_some_iff.mp he
  have hsplit : entries = entries.take j ++ e :: entries.drop (j + 1) := by
    rw [← hentry, ← List.drop_eq_getElem_cons hj, List.take_append_drop]
  rw [hsplit] at hr
  exact ⟨hr.split.1, hr.split.2.1⟩

/-- **A run all of whose steps lower a measure** is no longer than the measure. -/
theorem Run.length_le {f : S → Nat} (hr : Run step s trace t)
    (hf : ∀ e ∈ trace, step e.before e.label e.after → f e.after < f e.before) :
    trace.length + f t ≤ f s := by
  induction hr with
  | nil => simp
  | @snoc tr a b l _ hs ih =>
    have hold := ih fun e he => hf e (List.mem_append_left _ he)
    have hlast := hf ⟨a, l, b⟩ (by simp) hs
    rw [List.length_append, List.length_singleton]
    exact Nat.le_trans (by simp only at hlast; omega) hold

section Mono

variable {A : Type} [Preorder A] {f : S → A} {entries : List (Step S L)} {e e' : Step S L}

/-- **What no step lowers** is no lower at the end. -/
theorem Run.le_of_mem (hr : Run step s entries t) (hf : ∀ a l b, step a l b → f a ≤ f b)
    (he : e ∈ entries) : f e.after ≤ f t := by
  induction hr with
  | nil => exact absurd he (by simp)
  | @snoc trace t u l _ hs ih =>
    rcases List.mem_append.mp he with he | he
    · exact (ih he).trans (hf _ _ _ hs)
    · obtain rfl := List.mem_singleton.mp he
      exact le_refl _

theorem Run.le_before (hr : Run step s entries t) (hf : ∀ a l b, step a l b → f a ≤ f b)
    {i k : Nat} (hik : i < k) (he : entries[i]? = some e) (he' : entries[k]? = some e') :
    f e.after ≤ f e'.before :=
  (hr.entry_at he').1.le_of_mem hf
    (List.mem_of_getElem? (by rw [List.getElem?_take_of_lt hik, he]))

/-- It grows from one entry to the next. -/
theorem Run.mono (hr : Run step s entries t) (hf : ∀ a l b, step a l b → f a ≤ f b) {i k : Nat}
    (hik : i ≤ k) (he : entries[i]? = some e) (he' : entries[k]? = some e') :
    f e.after ≤ f e'.after := by
  rcases Nat.lt_or_eq_of_le hik with hlt | rfl
  · exact (hr.le_before hf hlt he he').trans (hf _ _ _ (hr.entry_at he').2)
  · rw [Option.some.inj (he.symm.trans he')]

end Mono

/-- **What holds after an entry** holds at the end, or an entry since has broken it. -/
theorem Run.since {P : S → Prop} {B : Step S L → Prop} {entries : List (Step S L)} {i : Nat}
    {e : Step S L} (hr : Run step s entries t)
    (hkeep : ∀ a l b, step a l b → P a → P b ∨ B ⟨a, l, b⟩) (he : entries[i]? = some e)
    (hP : P e.after) :
    P t ∨ ∃ k e', i < k ∧ entries[k]? = some e' ∧ B e' := by
  induction hr with
  | nil => exact absurd he (by simp)
  | @snoc trace t u l _ hs ih =>
    have hi := (List.getElem?_eq_some_iff.mp he).1
    rw [List.length_append, List.length_singleton] at hi
    rcases Nat.lt_succ_iff_lt_or_eq.mp hi with hlt | rfl
    · rw [List.getElem?_append_left hlt] at he
      rcases ih he with ht | ⟨k, e', hik, hk, hB⟩
      · rcases hkeep _ _ _ hs ht with hu | hB
        · exact Or.inl hu
        · exact Or.inr ⟨trace.length, _, hlt, List.getElem?_concat_length, hB⟩
      · refine Or.inr ⟨k, e', hik, ?_, hB⟩
        rw [List.getElem?_append_left (List.getElem?_eq_some_iff.mp hk).1, hk]
    · obtain rfl := Option.some.inj (List.getElem?_concat_length.symm.trans he)
      exact Or.inl hP

/-- Run the operations of a list, as long as each of them returns. -/
def replay {O : Type} (exec : S → O → Option (L × S)) :
    S → List O → Option (List (Step S L) × S)
  | s, [] => some ([], s)
  | s, op :: ops =>
    match exec s op with
    | none => none
    | some (l, t) => (replay exec t ops).map fun r => (⟨s, l, t⟩ :: r.1, r.2)

theorem Run.cons {u : S} {l : L} (hs : step s l u) (hr : Run step u trace t) :
    Run step s (⟨s, l, u⟩ :: trace) t := by
  induction hr with
  | nil => exact Run.snoc Run.nil hs
  | snoc _ hlast ih => exact Run.snoc ih hlast

theorem replay_run {O : Type} {exec : S → O → Option (L × S)}
    (hexec : ∀ s op l t, exec s op = some (l, t) → step s l t) :
    ∀ {ops : List O} {s t : S} {trace : List (Step S L)},
      replay exec s ops = some (trace, t) → Run step s trace t
  | [], s, t, trace, h => by
    simp only [replay, Option.some.injEq, Prod.mk.injEq] at h
    obtain ⟨rfl, rfl⟩ := h
    exact Run.nil
  | op :: ops, s, t, trace, h => by
    rw [replay] at h
    split at h
    · exact absurd h (by simp)
    · rename_i l u hu
      obtain ⟨⟨rest, v⟩, hrest, heq⟩ := Option.map_eq_some_iff.mp h
      simp only [Prod.mk.injEq] at heq
      obtain ⟨rfl, rfl⟩ := heq
      exact Run.cons (hexec _ _ _ _ hu) (replay_run hexec hrest)

end PokerServer

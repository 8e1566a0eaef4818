import PokerServer.Lib.Checked

/-!
# Two runs in lockstep

A statement about two runs of one system: `answers` runs a list of operations and keeps what each
of them answered, and `Lockstep go Q` compares two such lists entry by entry, up to and including
the first entry at which `go` fails.

* `answers_returns`: a run whose steps all return from states with an invariant returns.
* `answers_lockstep`: two runs of the same operations stay in lockstep if one step does.
-/

namespace PokerServer

variable {S O A ε X : Type}

/-- What each operation of a list answers, with the state it leaves. -/
def answers (exec : S → O → Except ε (A × S)) : S → List O → Except ε (List (A × S))
  | _, [] => pure []
  | s, op :: ops => do
    let answer ← exec s op
    let rest ← answers exec answer.2 ops
    return answer :: rest

/-- The entries of two lists are related by `Q`, up to and including the first at which `go`
fails. -/
def Lockstep (go : X → Prop) (Q : X → X → Prop) : List X → List X → Prop
  | [], [] => True
  | x :: xs, y :: ys => Q x y ∧ (go x → Lockstep go Q xs ys)
  | _, _ => False

variable {exec : S → O → Except ε (A × S)}

theorem answers_cons {op : O} {ops : List O} {s : S} {run : List (A × S)} :
    answers exec s (op :: ops) = .ok run ↔
      ∃ answer rest, exec s op = .ok answer ∧ answers exec answer.2 ops = .ok rest ∧
        run = answer :: rest := by
  rw [answers]
  simp only [Checked.bind_ok_iff, Checked.pure_ok_iff]
  constructor
  · rintro ⟨answer, hanswer, rest, hrest, rfl⟩
    exact ⟨answer, rest, hanswer, hrest, rfl⟩
  · rintro ⟨answer, rest, hanswer, hrest, rfl⟩
    exact ⟨answer, hanswer, rest, hrest, rfl⟩

theorem answers_returns {I : S → Prop} {ops : List O} {s : S}
    (hstep : ∀ s, ∀ op ∈ ops, I s → ∃ answer, exec s op = .ok answer ∧ I answer.2) (hs : I s) :
    ∃ run, answers exec s ops = .ok run ∧ run.length = ops.length := by
  induction ops generalizing s with
  | nil => exact ⟨[], rfl, rfl⟩
  | cons op ops ih =>
    obtain ⟨answer, hanswer, hI⟩ := hstep s op List.mem_cons_self hs
    obtain ⟨run, hrun, hlen⟩ := ih (fun s op hop => hstep s op (List.mem_cons_of_mem _ hop)) hI
    exact ⟨answer :: run, answers_cons.mpr ⟨answer, run, hanswer, hrun, rfl⟩, by simp [hlen]⟩

/-- **One step in lockstep, then the whole run.** -/
theorem answers_lockstep {R : S → S → Prop} {go : A × S → Prop} {Q : A × S → A × S → Prop}
    {ops : List O} {s t : S} {run run' : List (A × S)}
    (hstep : ∀ s t answer answer', ∀ op ∈ ops, R s t → exec s op = .ok answer →
      exec t op = .ok answer' → Q answer answer' ∧ (go answer → R answer.2 answer'.2))
    (hR : R s t) (hrun : answers exec s ops = .ok run) (hrun' : answers exec t ops = .ok run') :
    Lockstep go Q run run' := by
  induction ops generalizing s t run run' with
  | nil =>
    rw [answers, Checked.pure_ok_iff] at hrun hrun'
    subst hrun hrun'
    trivial
  | cons op ops ih =>
    obtain ⟨answer, rest, hanswer, hrest, rfl⟩ := answers_cons.mp hrun
    obtain ⟨answer', rest', hanswer', hrest', rfl⟩ := answers_cons.mp hrun'
    obtain ⟨hQ, hgo⟩ := hstep s t answer answer' op List.mem_cons_self hR hanswer hanswer'
    refine ⟨hQ, fun hg => ih (fun s t a a' op hop => ?_) (hgo hg) hrest hrest'⟩
    exact hstep s t a a' op (List.mem_cons_of_mem _ hop)

end PokerServer

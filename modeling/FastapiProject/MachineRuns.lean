import Mathlib.Data.List.Basic
import Mathlib.Logic.Relation

set_option autoImplicit false

/-!
# Runs of a machine given by a partial step function

A machine is a function `step : State → Label → Option State`: a label names what
happens next and every choice of the environment in it, and `none` means that it
cannot happen there. `Along step Q` are the finite runs all of whose steps satisfy
`Q`; `Runs step` are all finite runs.
-/
namespace FastapiProject.MachineRuns

universe u v
variable {State : Type u} {Label : Type v} (step : State → Label → Option State)

/-- A finite run in which every step `s`, label, `u` satisfies `Q s label u`. -/
inductive Along (Q : State → Label → State → Prop) : State → List Label → State → Prop where
  | nil (s : State) : Along Q s [] s
  | cons {s u v : State} {l : Label} {ls : List Label} (enabled : step s l = some u)
      (holds : Q s l u) (tail : Along Q u ls v) : Along Q s (l :: ls) v

abbrev Runs : State → List Label → State → Prop := Along step (fun _ _ _ => True)

def execute : State → List Label → Option State
  | s, [] => some s
  | s, l :: ls => (step s l).bind (fun u => execute u ls)

variable {step}
variable {Q R G : State → Label → State → Prop} {s u v : State} {l : Label} {ls ms : List Label}

theorem Along.mono (hQR : ∀ s l u, Q s l u → R s l u) (h : Along step Q s ls u) :
    Along step R s ls u := by
  induction h with
  | nil s => exact .nil s
  | cons enabled holds _ ih => exact .cons enabled (hQR _ _ _ holds) ih

theorem Along.runs (h : Along step Q s ls u) : Runs step s ls u :=
  h.mono (fun _ _ _ _ => trivial)

theorem Along.append (h : Along step Q s ls u) (h' : Along step Q u ms v) :
    Along step Q s (ls ++ ms) v := by
  induction h with
  | nil _ => exact h'
  | cons enabled holds _ ih => exact .cons enabled holds (ih h')

theorem Along.single (enabled : step s l = some u) (holds : Q s l u) :
    Along step Q s [l] u := .cons enabled holds (.nil u)

theorem runs_nil_iff : Runs step s [] u ↔ s = u := by
  constructor
  · intro run
    cases run
    rfl
  · rintro rfl
    exact .nil s

theorem runs_cons_iff : Runs step s (l :: ls) v ↔ ∃ u, step s l = some u ∧ Runs step u ls v := by
  constructor
  · intro run
    cases run with
    | cons enabled _ tail => exact ⟨_, enabled, tail⟩
  · rintro ⟨u, enabled, tail⟩
    exact .cons enabled trivial tail

/-- What holds at the start and is kept by the steps that satisfy `Q` holds at the end
of every run along `Q`. -/
theorem Along.invariant (I : State → Prop) (h : Along step Q s ls u) (hs : I s)
    (keeps : ∀ s l u, I s → step s l = some u → Q s l u → I u) : I u := by
  induction h with
  | nil _ => exact hs
  | cons enabled holds _ ih => exact ih (keeps _ _ _ hs enabled holds)

theorem Runs.invariant (I : State → Prop) (h : Runs step s ls u) (hs : I s)
    (keeps : ∀ s l u, I s → step s l = some u → I u) : I u :=
  Along.invariant I h hs (fun s l u hI enabled _ => keeps s l u hI enabled)

/-- The rule for what is said of the labels so far and the state they lead to. -/
theorem Along.history (I : List Label → State → Prop) (h : Along step Q s ls u) (start : I [] s)
    (keeps : ∀ ls s l u, I ls s → step s l = some u → Q s l u → I (ls ++ [l]) u) : I ls u := by
  suffices onward : ∀ pre, I pre s → I (pre ++ ls) u from onward [] start
  clear start
  induction h with
  | nil s =>
    intro pre holds
    rw [List.append_nil]
    exact holds
  | @cons s w v l ls enabled good _ ih =>
    intro pre holds
    rw [← List.singleton_append, ← List.append_assoc]
    exact ih (pre ++ [l]) (keeps pre s l w holds enabled good)

theorem Runs.history (I : List Label → State → Prop) (h : Runs step s ls u) (start : I [] s)
    (keeps : ∀ ls s l u, I ls s → step s l = some u → I (ls ++ [l]) u) : I ls u :=
  Along.history I h start (fun ls s l u holds enabled _ => keeps ls s l u holds enabled)

theorem Along.imp_of_invariant (I : State → Prop) (h : Along step Q s ls u) (hs : I s)
    (keeps : ∀ s l u, I s → step s l = some u → Q s l u → I u)
    (imp : ∀ s l u, I s → step s l = some u → Q s l u → R s l u) : Along step R s ls u := by
  induction h with
  | nil s => exact .nil s
  | cons enabled holds _ ih =>
    exact .cons enabled (imp _ _ _ hs enabled holds) (ih (keeps _ _ _ hs enabled holds))

theorem Runs.along_of_labels (h : Runs step s ls u) (holds : ∀ l ∈ ls, ∀ s u, Q s l u) :
    Along step Q s ls u := by
  induction h with
  | nil s => exact .nil s
  | cons enabled _ _ ih =>
    exact .cons enabled (holds _ List.mem_cons_self _ _)
      (ih (fun l hl => holds l (List.mem_cons_of_mem _ hl)))

theorem Along.and_labels {P : Label → Prop} (h : Along step Q s ls u) (holds : ∀ l ∈ ls, P l) :
    Along step (fun s l u => Q s l u ∧ P l) s ls u := by
  induction h with
  | nil s => exact .nil s
  | cons enabled good _ ih =>
    exact .cons enabled ⟨good, holds _ List.mem_cons_self⟩
      (ih (fun l mem => holds l (List.mem_cons_of_mem _ mem)))

/-- The rule for an exact condition on runs, here the runs along `R`. If under the
invariant a step satisfies `Q` just when it satisfies `G`, and the steps that satisfy
`G` keep the invariant, then a run satisfies `Q` at every step just when it satisfies
`G` at every step. -/
theorem Along.along_iff (I : State → Prop) (h : Along step R s ls u) (hs : I s)
    (keeps : ∀ s l u, I s → step s l = some u → R s l u → G s l u → I u)
    (exact_step : ∀ s l u, I s → step s l = some u → R s l u → (Q s l u ↔ G s l u)) :
    Along step Q s ls u ↔ Along step G s ls u := by
  induction h with
  | nil s => exact ⟨fun _ => .nil s, fun _ => .nil s⟩
  | @cons s u v l ls enabled assumed _ ih =>
    have here := exact_step s l u hs enabled assumed
    constructor
    · intro hQ
      cases hQ with
      | cons enabled' holds tail =>
        have same := Option.some.inj (enabled.symm.trans enabled')
        subst same
        have good := here.mp holds
        exact .cons enabled good ((ih (keeps _ _ _ hs enabled assumed good)).mp tail)
    · intro hG
      cases hG with
      | cons enabled' holds tail =>
        have same := Option.some.inj (enabled.symm.trans enabled')
        subst same
        exact .cons enabled (here.mpr holds) ((ih (keeps _ _ _ hs enabled assumed holds)).mpr tail)

theorem Runs.along_iff (I : State → Prop) (h : Runs step s ls u) (hs : I s)
    (keeps : ∀ s l u, I s → step s l = some u → G s l u → I u)
    (exact_step : ∀ s l u, I s → step s l = some u → (Q s l u ↔ G s l u)) :
    Along step Q s ls u ↔ Along step G s ls u :=
  Along.along_iff I h hs (fun s l u hI enabled _ => keeps s l u hI enabled)
    (fun s l u hI enabled _ => exact_step s l u hI enabled)

theorem Runs.of_execute (h : execute step s ls = some u) : Runs step s ls u := by
  induction ls generalizing s with
  | nil => cases h; exact .nil _
  | cons l ls ih =>
    simp only [execute, Option.bind_eq_some_iff] at h
    obtain ⟨w, enabled, rest⟩ := h
    exact .cons enabled trivial (ih rest)

def executeAlong (step : State → Label → Option State) (Q : State → Label → State → Prop)
    [∀ s l u, Decidable (Q s l u)] : State → List Label → Option State
  | s, [] => some s
  | s, l :: ls => (step s l).bind (fun u => if Q s l u then executeAlong step Q u ls else none)

theorem Along.of_execute [∀ s l u, Decidable (Q s l u)]
    (h : executeAlong step Q s ls = some u) : Along step Q s ls u := by
  induction ls generalizing s with
  | nil => cases h; exact .nil _
  | cons l ls ih =>
    obtain ⟨w, enabled, rest⟩ := Option.bind_eq_some_iff.mp h
    split at rest
    · exact .cons enabled ‹_› (ih rest)
    · cases rest

theorem Along.last (h : Along step Q s (ls ++ [l]) v) :
    ∃ u, execute step s ls = some u ∧ step u l = some v ∧ Q u l v := by
  induction ls generalizing s with
  | nil =>
    cases h with
    | cons enabled holds tail =>
      cases tail
      exact ⟨s, rfl, enabled, holds⟩
  | cons m ls ih =>
    cases h with
    | cons enabled _ tail =>
      obtain ⟨u, before, here⟩ := ih tail
      exact ⟨u, by rw [execute, enabled, Option.bind_some, before], here⟩

/-- Some step of the run satisfies `P`, with the state before it and the labels after it. -/
def SomeStep (step : State → Label → Option State) (P : State → Label → List Label → Prop)
    (s : State) (ls : List Label) : Prop :=
  ∃ pre l post w, ls = pre ++ l :: post ∧ execute step s pre = some w ∧ P w l post

section SomeStep
variable {P : State → Label → List Label → Prop}

theorem not_someStep_nil : ¬ SomeStep step P s [] := by
  rintro ⟨pre, l, post, w, split, -⟩
  simp at split

theorem someStep_cons_iff (enabled : step s l = some u) :
    SomeStep step P s (l :: ls) ↔ P s l ls ∨ SomeStep step P u ls := by
  constructor
  · rintro ⟨pre, m, post, w, split, before, here⟩
    cases pre with
    | nil =>
      cases split
      cases before
      exact .inl here
    | cons l' pre =>
      cases split
      rw [execute, enabled, Option.bind_some] at before
      exact .inr ⟨pre, m, post, w, rfl, before, here⟩
  · rintro (here | ⟨pre, m, post, w, rfl, before, here⟩)
    · exact ⟨[], l, ls, s, rfl, rfl, here⟩
    · refine ⟨l :: pre, m, post, w, rfl, ?_, here⟩
      rw [execute, enabled, Option.bind_some, before]

end SomeStep

end FastapiProject.MachineRuns

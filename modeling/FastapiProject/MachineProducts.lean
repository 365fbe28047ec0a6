import FastapiProject.MachineRuns

set_option autoImplicit false

/-!
# Two machines side by side

Each label moves one of two machines. What they can do together is what each can do by
itself, interleaved in any way.
-/
namespace FastapiProject.MachineProducts
open MachineRuns

universe u v w
variable {Left : Type u} {Right : Type v} {State : Type v} {Label : Type w}

def beside (left : Label → Bool) (stepLeft : Left → Label → Option Left)
    (stepRight : Right → Label → Option Right) (s : Left × Right) (l : Label) :
    Option (Left × Right) :=
  if left l = true then (stepLeft s.1 l).map fun t => (t, s.2)
  else (stepRight s.2 l).map fun t => (s.1, t)

section Beside
variable {left : Label → Bool} {stepLeft : Left → Label → Option Left}
  {stepRight : Right → Label → Option Right}

theorem beside_left {l : Label} (own : left l = true) (s : Left) (t : Right) :
    beside left stepLeft stepRight (s, t) l = (stepLeft s l).map fun s' => (s', t) := if_pos own

theorem beside_right {l : Label} (own : left l = false) (s : Left) (t : Right) :
    beside left stepLeft stepRight (s, t) l = (stepRight t l).map fun t' => (s, t') :=
  if_neg (by rw [own]; exact Bool.false_ne_true)

theorem beside_runs_iff {ls : List Label} {s u : Left} {t v : Right} :
    Runs (beside left stepLeft stepRight) (s, t) ls (u, v) ↔
      Runs stepLeft s (ls.filter left) u ∧ Runs stepRight t (ls.filter fun l => !left l) v := by
  induction ls generalizing s t with
  | nil => rw [List.filter_nil, List.filter_nil, runs_nil_iff, runs_nil_iff, runs_nil_iff, Prod.mk.injEq]
  | cons l ls ih =>
    cases own : left l with
    | true =>
      rw [List.filter_cons_of_pos own,
        List.filter_cons_of_neg (by rw [own]; exact Bool.false_ne_true), runs_cons_iff, runs_cons_iff]
      constructor
      · rintro ⟨w, enabled, tail⟩
        rw [beside_left own] at enabled
        obtain ⟨s', moved, rfl⟩ := Option.map_eq_some_iff.mp enabled
        obtain ⟨runLeft, runRight⟩ := ih.mp tail
        exact ⟨⟨s', moved, runLeft⟩, runRight⟩
      · rintro ⟨⟨s', moved, runLeft⟩, runRight⟩
        refine ⟨(s', t), ?_, ih.mpr ⟨runLeft, runRight⟩⟩
        rw [beside_left own, moved]
        rfl
    | false =>
      rw [List.filter_cons_of_neg (by rw [own]; exact Bool.false_ne_true),
        List.filter_cons_of_pos (by rw [own]; rfl), runs_cons_iff, runs_cons_iff]
      constructor
      · rintro ⟨w, enabled, tail⟩
        rw [beside_right own] at enabled
        obtain ⟨t', moved, rfl⟩ := Option.map_eq_some_iff.mp enabled
        obtain ⟨runLeft, runRight⟩ := ih.mp tail
        exact ⟨runLeft, ⟨t', moved, runRight⟩⟩
      · rintro ⟨runLeft, ⟨t', moved, runRight⟩⟩
        refine ⟨(s, t'), ?_, ih.mpr ⟨runLeft, runRight⟩⟩
        rw [beside_right own, moved]
        rfl

end Beside

/-- A machine that steps on the values of `f` as another one does behind them. -/
theorem runs_map_iff {step : State → Label → Option State} {stepLeft : Left → Label → Option Left}
    (f : Left → State) (commutes : ∀ s l, step (f s) l = (stepLeft s l).map f) {ls : List Label}
    {s : Left} {u : State} : Runs step (f s) ls u ↔ ∃ t, Runs stepLeft s ls t ∧ f t = u := by
  induction ls generalizing s with
  | nil =>
    rw [runs_nil_iff]
    constructor
    · intro same
      exact ⟨s, .nil s, same⟩
    · rintro ⟨t, run, same⟩
      rw [runs_nil_iff.mp run]
      exact same
  | cons l ls ih =>
    rw [runs_cons_iff]
    constructor
    · rintro ⟨w, enabled, tail⟩
      rw [commutes] at enabled
      obtain ⟨t, moved, rfl⟩ := Option.map_eq_some_iff.mp enabled
      obtain ⟨v, run, same⟩ := ih.mp tail
      exact ⟨v, runs_cons_iff.mpr ⟨t, moved, run⟩, same⟩
    · rintro ⟨v, run, same⟩
      obtain ⟨t, moved, run⟩ := runs_cons_iff.mp run
      refine ⟨f t, ?_, ih.mpr ⟨v, run, same⟩⟩
      rw [commutes, moved]
      rfl

end FastapiProject.MachineProducts

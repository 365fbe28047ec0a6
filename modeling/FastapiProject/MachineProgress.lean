import FastapiProject.IndexedLists
import FastapiProject.MachineRuns

set_option autoImplicit false

/-!
# Runs that must come to an end

A measure that every step along `Q` lowers bounds the runs along `Q`, and a run that is
not at its end can be carried on until no step along `Q` is left. For a machine with a
list of parties the measure is a total over them.
-/
namespace FastapiProject.MachineProgress
open MachineRuns IndexedLists

universe u v
variable {State : Type u} {Label : Type v} (step : State → Label → Option State)
  (Q : State → Label → State → Prop)

def Halted (s : State) : Prop := ∀ l u, step s l = some u → ¬ Q s l u

def Lowers (measure : State → ℕ) : Prop :=
  ∀ s l u, step s l = some u → Q s l u → measure u < measure s

variable {step Q} {measure : State → ℕ} {s u : State} {ls : List Label}

theorem Lowers.mono {R : State → Label → State → Prop} (lowers : Lowers step R measure)
    (hQR : ∀ s l u, Q s l u → R s l u) : Lowers step Q measure :=
  fun s l u enabled holds => lowers s l u enabled (hQR s l u holds)

/-- The steps that count are bounded when the others do not raise the measure. -/
theorem countP_le (counted : Label → Bool)
    (keeps : ∀ s l u, step s l = some u → Q s l u → measure u ≤ measure s)
    (lowers : Lowers step (fun s l u => Q s l u ∧ counted l = true) measure)
    (run : Along step Q s ls u) : ls.countP counted + measure u ≤ measure s := by
  induction run with
  | nil s => exact Nat.le_of_eq (Nat.zero_add _)
  | @cons s w v l ls enabled holds _ ih =>
    rw [List.countP_cons]
    split
    · have lower := lowers s l w enabled ⟨holds, ‹_›⟩
      omega
    · have keep := keeps s l w enabled holds
      omega

/-- A step that is paid for may raise the measure by `k`, and the bound goes up with it. -/
theorem countP_le_countP (counted paid : Label → Bool) (k : ℕ)
    (balance : ∀ s l u, step s l = some u → Q s l u →
      measure u + (if counted l = true then 1 else 0) ≤ measure s + k * if paid l = true then 1 else 0)
    (run : Along step Q s ls u) :
    ls.countP counted + measure u ≤ measure s + k * ls.countP paid := by
  induction run with
  | nil s => exact Nat.le_of_eq (Nat.add_comm _ _)
  | @cons s w v l ls enabled holds _ ih =>
    have here := balance s l w enabled holds
    rw [List.countP_cons, List.countP_cons, Nat.mul_add]
    omega

theorem Lowers.length_le (lowers : Lowers step Q measure) (run : Along step Q s ls u) :
    ls.length + measure u ≤ measure s := by
  have bound := countP_le (fun _ => true)
    (fun s l u enabled holds => Nat.le_of_lt (lowers s l u enabled holds))
    (lowers.mono fun _ _ _ both => both.1) run
  rwa [List.countP_true] at bound

theorem Lowers.exists_halted (lowers : Lowers step Q measure) (s : State) :
    ∃ ls u, Along step Q s ls u ∧ Halted step Q u := by
  induction bound : measure s using Nat.strongRecOn generalizing s with
  | ind n ih =>
    by_cases halted : Halted step Q s
    · exact ⟨[], s, .nil s, halted⟩
    · unfold Halted at halted
      push Not at halted
      obtain ⟨l, w, enabled, holds⟩ := halted
      have lower := lowers s l w enabled holds
      rw [bound] at lower
      obtain ⟨ls, u, run, halted⟩ := ih (measure w) lower w rfl
      exact ⟨l :: ls, u, .cons enabled holds run, halted⟩

section Totals
variable {α : Type u} (rank : α → ℕ)

def total : List α → ℕ
  | [] => 0
  | x :: xs => rank x + total xs

theorem total_set_add {xs : List α} {i : ℕ} {x : α} (at_i : xs[i]? = some x) (v : α) :
    total rank (xs.set i v) + rank x = total rank xs + rank v := by
  induction xs generalizing i with
  | nil => cases at_i
  | cons y ys ih =>
    cases i with
    | zero =>
      cases at_i
      rw [List.set_cons_zero, total, total]
      omega
    | succ i =>
      have tail := ih at_i
      rw [List.set_cons_succ, total, total]
      omega

theorem total_set_lt {xs : List α} {i : ℕ} {x v : α} (at_i : xs[i]? = some x)
    (lower : rank v < rank x) : total rank (xs.set i v) < total rank xs := by
  have same := total_set_add rank at_i v
  omega

theorem total_concat (xs : List α) (x : α) : total rank (xs ++ [x]) = total rank xs + rank x := by
  induction xs with
  | nil => exact Nat.add_comm _ _
  | cons y ys ih => rw [List.cons_append, total, total, ih, Nat.add_assoc]

theorem total_le {xs : List α} {k : ℕ} (bound : ∀ x ∈ xs, rank x ≤ k) :
    total rank xs ≤ k * xs.length := by
  induction xs with
  | nil => exact Nat.zero_le _
  | cons x xs ih =>
    have here := bound x List.mem_cons_self
    have rest := ih (fun y mem => bound y (List.mem_cons_of_mem x mem))
    rw [total, List.length_cons, Nat.mul_succ]
    omega

/-- The rank of the party at a place; a party that is still to come has the rank `fresh`. -/
def placeRank (fresh : ℕ) (xs : List α) (i : ℕ) : ℕ := (xs[i]?.map rank).getD fresh

variable {fresh : ℕ} {xs : List α} {i : ℕ}

theorem placeRank_set_lt {x v : α} (at_i : xs[i]? = some x) (lower : rank v < rank x) :
    placeRank rank fresh (xs.set i v) i < placeRank rank fresh xs i := by
  rw [placeRank, placeRank, getElem?_set_here at_i, at_i]
  exact lower

theorem placeRank_set_ne {j : ℕ} (ne : j ≠ i) (v : α) :
    placeRank rank fresh (xs.set j v) i = placeRank rank fresh xs i := by
  rw [placeRank, placeRank, List.getElem?_set_ne ne]

theorem placeRank_append_le {ys : List α} (bound : ∀ y ∈ ys, rank y ≤ fresh) :
    placeRank rank fresh (xs ++ ys) i ≤ placeRank rank fresh xs i := by
  rw [placeRank, placeRank, List.getElem?_append]
  split
  · exact Nat.le_refl _
  · rename_i beyond
    rw [List.getElem?_eq_none (Nat.le_of_not_lt beyond)]
    cases found : ys[i - xs.length]? with
    | none => exact Nat.le_refl _
    | some y => exact bound y (List.mem_of_getElem? found)

theorem placeRank_le (bound : ∀ x ∈ xs, rank x ≤ fresh) : placeRank rank fresh xs i ≤ fresh := by
  have joined : placeRank rank fresh ([] ++ xs) i ≤ placeRank rank fresh [] i :=
    placeRank_append_le rank bound
  exact joined

/-- Where a move of a party lowers its own rank, and parties that come later have at most
the rank `fresh`, no party moves more often than that in any run. -/
theorem countP_party (parties : State → List α) (own : Label → Option ℕ)
    (moves : ∀ s l u k, step s l = some u → own l = some k → ∃ x v, (parties s)[k]? = some x ∧
      parties u = (parties s).set k v ∧ rank v < rank x)
    (joins : ∀ s l u, step s l = some u → own l = none →
      ∃ ys, parties u = parties s ++ ys ∧ ∀ y ∈ ys, rank y ≤ fresh)
    (bound : ∀ x ∈ parties s, rank x ≤ fresh) (run : Runs step s ls u) (i : ℕ) :
    ls.countP (fun l => own l = some i) ≤ fresh := by
  let place := fun s => placeRank rank fresh (parties s) i
  have keeps (s : State) (l : Label) (u : State) (enabled : step s l = some u) :
      place u ≤ place s ∧ (own l = some i → place u < place s) := by
    cases whose : own l with
    | none =>
      obtain ⟨ys, grown, small⟩ := joins s l u enabled whose
      refine ⟨?_, by rintro ⟨⟩⟩
      change placeRank _ _ (parties u) i ≤ _
      rw [grown]
      exact placeRank_append_le rank small
    | some k =>
      obtain ⟨x, v, at_k, moved, lower⟩ := moves s l u k enabled whose
      change placeRank _ _ (parties u) i ≤ _ ∧ (_ → placeRank _ _ (parties u) i < _)
      rw [moved]
      by_cases same : k = i
      · subst same
        have lowered :
            placeRank rank fresh ((parties s).set k v) k < placeRank rank fresh (parties s) k :=
          placeRank_set_lt rank at_k lower
        exact ⟨Nat.le_of_lt lowered, fun _ => lowered⟩
      · exact ⟨Nat.le_of_eq (placeRank_set_ne rank same v),
          fun here => (same (Option.some.inj here)).elim⟩
  have counted : ls.countP (fun l => own l = some i) + place u ≤ place s :=
    countP_le (fun l => own l = some i) (fun s l u enabled _ => (keeps s l u enabled).1)
      (fun s l u enabled both => (keeps s l u enabled).2 (of_decide_eq_true both.2)) run
  have start : place s ≤ fresh := placeRank_le rank bound
  omega

end Totals

end FastapiProject.MachineProgress

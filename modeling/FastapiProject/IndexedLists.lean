import Mathlib.Data.List.Basic

set_option autoImplicit false

/-!
# Lists whose entries are named by their position

A list that grows at its end and whose entries are replaced in place.
-/
namespace FastapiProject.IndexedLists

universe u
variable {α : Type u} {xs : List α} {x y v : α} {i j : ℕ}

theorem getElem?_concat_old (at_i : xs[i]? = some x) (y : α) : (xs ++ [y])[i]? = some x := by
  rw [List.getElem?_append_left (List.getElem?_eq_some_iff.mp at_i).1]
  exact at_i

theorem getElem?_concat_cases (at_i : (xs ++ [y])[i]? = some x) :
    xs[i]? = some x ∨ i = xs.length ∧ x = y := by
  rcases Nat.lt_trichotomy i xs.length with before | same | beyond
  · exact .inl (by rwa [List.getElem?_append_left before] at at_i)
  · subst same
    rw [List.getElem?_concat_length] at at_i
    exact .inr ⟨rfl, (Option.some.inj at_i).symm⟩
  · have outside : (xs ++ [y]).length ≤ i := by
      rw [List.length_append, List.length_singleton]
      omega
    rw [List.getElem?_eq_none outside] at at_i
    cases at_i

theorem getElem?_set_here (at_i : xs[i]? = some x) (v : α) : (xs.set i v)[i]? = some v :=
  List.getElem?_set_self (List.getElem?_eq_some_iff.mp at_i).1

theorem getElem?_set_cases (at_j : (xs.set i v)[j]? = some y) :
    (j = i ∧ y = v) ∨ (j ≠ i ∧ xs[j]? = some y) := by
  by_cases same : i = j
  · subst same
    rw [List.getElem?_set] at at_j
    simp only [↓reduceIte, Option.ite_none_right_eq_some, Option.some.injEq] at at_j
    exact .inl ⟨rfl, at_j.2.symm⟩
  · rw [List.getElem?_set_ne same] at at_j
    exact .inr ⟨Ne.symm same, at_j⟩

theorem getElem?_set_other (at_i : xs[i]? = some x) (at_j : xs[j]? = some y) (ne : x ≠ y) :
    (xs.set i v)[j]? = some y := by
  have other : i ≠ j := by
    rintro rfl
    exact ne (Option.some.inj (at_i.symm.trans at_j))
  rw [List.getElem?_set_ne other, at_j]

theorem mem_set_here (at_i : xs[i]? = some x) (v : α) : v ∈ xs.set i v :=
  List.mem_of_getElem? (getElem?_set_here at_i v)

theorem mem_set_other (at_i : xs[i]? = some x) (mem : y ∈ xs) (ne : x ≠ y) : y ∈ xs.set i v := by
  obtain ⟨j, at_j⟩ := List.mem_iff_getElem?.mp mem
  exact List.mem_of_getElem? (getElem?_set_other at_i at_j ne)

theorem mem_set_iff (at_i : xs[i]? = some x) (ne : x ≠ y) (ne' : v ≠ y) :
    y ∈ xs.set i v ↔ y ∈ xs := by
  constructor
  · intro mem
    exact (List.mem_or_eq_of_mem_set mem).resolve_right (Ne.symm ne')
  · exact fun mem => mem_set_other at_i mem ne

theorem countP_concat (xs : List α) (p : α → Bool) (x : α) :
    (xs ++ [x]).countP p = xs.countP p + if p x = true then 1 else 0 := by
  rw [List.countP_append, List.countP_singleton]

theorem countP_set_add (at_i : xs[i]? = some x) (p : α → Bool) (v : α) :
    (xs.set i v).countP p + (if p x = true then 1 else 0) =
      xs.countP p + (if p v = true then 1 else 0) := by
  obtain ⟨inside, here⟩ := List.getElem?_eq_some_iff.mp at_i
  have counted : (if p x = true then 1 else 0) ≤ xs.countP p := by
    split
    · rename_i holds
      exact List.countP_pos_iff.mpr ⟨x, List.mem_of_getElem? at_i, holds⟩
    · exact Nat.zero_le _
  rw [List.countP_set inside, here]
  omega

theorem countP_and_not (xs : List α) (p q : α → Bool) :
    xs.countP p = xs.countP (fun x => p x && q x) + xs.countP (fun x => p x && !q x) := by
  rw [List.countP_eq_countP_filter_add xs p q, List.countP_filter, List.countP_filter]

theorem countP_zipIdx (xs : List α) (p : α → Bool) :
    xs.zipIdx.countP (fun entry => p entry.1) = xs.countP p := by
  have forget := List.zipIdx_map_fst 0 xs
  conv_rhs => rw [← forget, List.countP_map]
  rfl

/-- One predicate holds wherever another does, but for one entry that the list has once. -/
theorem countP_le_succ (nodup : xs.Nodup) {p q : α → Bool} (x : α)
    (le : ∀ y ∈ xs, y ≠ x → p y = true → q y = true) : xs.countP p ≤ xs.countP q + 1 := by
  induction xs with
  | nil => exact Nat.zero_le _
  | cons y ys ih =>
    rw [List.nodup_cons] at nodup
    rw [List.countP_cons, List.countP_cons]
    have here : (if p y = true then 1 else 0) ≤ 1 := by split <;> decide
    by_cases same : y = x
    · subst same
      have rest : ys.countP p ≤ ys.countP q := by
        refine List.countP_mono_left (fun z mem holds => ?_)
        have other : z ≠ y := by
          rintro rfl
          exact nodup.1 mem
        exact le z (List.mem_cons_of_mem _ mem) other holds
      omega
    · have rest := ih nodup.2 (fun z mem => le z (List.mem_cons_of_mem _ mem))
      have kept := le y List.mem_cons_self same
      split
      · rename_i holds
        rw [if_pos (kept holds)]
        omega
      · omega

theorem countP_lt (mem : x ∈ xs) {p q : α → Bool} (le : ∀ y ∈ xs, p y = true → q y = true)
    (holds : q x = true) (fails : p x = false) : xs.countP p < xs.countP q := by
  induction xs with
  | nil => cases mem
  | cons y ys ih =>
    rw [List.countP_cons, List.countP_cons]
    rcases List.mem_cons.mp mem with rfl | mem
    · have rest : ys.countP p ≤ ys.countP q :=
        List.countP_mono_left (fun z mem => le z (List.mem_cons_of_mem _ mem))
      rw [if_pos holds, if_neg (by rw [fails]; exact Bool.false_ne_true)]
      omega
    · have rest := ih mem (fun z mem => le z (List.mem_cons_of_mem _ mem))
      have kept := le y List.mem_cons_self
      split
      · rename_i here
        rw [if_pos (kept here)]
        omega
      · omega

section Positions
variable [DecidableEq α]

theorem idxOf_of_getElem? (nodup : xs.Nodup) (at_i : xs[i]? = some x) : xs.idxOf x = i := by
  obtain ⟨inside, rfl⟩ := List.getElem?_eq_some_iff.mp at_i
  exact nodup.idxOf_getElem i inside

/-- What stays in a list moves towards its front as others go. -/
theorem idxOf_le_of_sublist {ys : List α} (kept : xs.Sublist ys) (nodup : ys.Nodup) (mem : x ∈ xs) :
    xs.idxOf x ≤ ys.idxOf x := by
  induction kept with
  | slnil => cases mem
  | @cons xs ys y kept ih =>
    rw [List.nodup_cons] at nodup
    have other : y ≠ x := by
      rintro rfl
      exact nodup.1 (kept.subset mem)
    rw [List.idxOf_cons_ne ys other]
    exact Nat.le_succ_of_le (ih nodup.2 mem)
  | @cons_cons xs ys y kept ih =>
    rw [List.nodup_cons] at nodup
    by_cases same : y = x
    · rw [List.idxOf_cons_eq xs same]
      exact Nat.zero_le _
    · rw [List.idxOf_cons_ne xs same, List.idxOf_cons_ne ys same]
      have tail := (List.mem_cons.mp mem).resolve_left (Ne.symm same)
      exact Nat.succ_le_succ (ih nodup.2 tail)

end Positions

end FastapiProject.IndexedLists

import Mathlib.Data.List.Induction
import Mathlib.Order.Bounds.Basic

set_option autoImplicit false

/-!
# Histories that grow at their end

What a history says of its past: how long something has held without a break, and when a
condition on positions was last met.
-/
namespace FastapiProject.ListHistories

universe u
variable {α : Type u} {xs : List α} {x : α}

/-- `n` is the length of the longest suffix whose entries all satisfy `p`. -/
def LongestSuffix (p : α → Prop) (xs : List α) (n : ℕ) : Prop :=
  IsGreatest {k | ∃ ys, ys <:+ xs ∧ (∀ y ∈ ys, p y) ∧ ys.length = k} n

/-- The entry at the last position that satisfies `P`, or `none` where there is none. -/
def LastWhere (xs : List α) (P : ℕ → Prop) : Option α → Prop
  | some x => ∃ i, xs[i]? = some x ∧ P i ∧ ∀ j < xs.length, P j → j ≤ i
  | none => ∀ j < xs.length, ¬ P j

def AtEvery (P : List α → α → Prop) (xs : List α) : Prop :=
  ∀ pre x post, xs = pre ++ x :: post → P pre x

section Entries
variable {P : List α → α → Prop}

theorem atEvery_nil (P : List α → α → Prop) : AtEvery P [] := by
  intro pre x post split
  simp at split

theorem atEvery_concat_iff : AtEvery P (xs ++ [x]) ↔ AtEvery P xs ∧ P xs x := by
  constructor
  · intro every
    refine ⟨?_, every xs x [] rfl⟩
    rintro pre y post rfl
    exact every pre y (post ++ [x]) (by simp)
  · rintro ⟨every, last⟩ pre y post split
    rcases List.eq_nil_or_concat post with rfl | ⟨post, z, rfl⟩
    · obtain ⟨rfl, same⟩ := List.append_inj' split rfl
      exact List.singleton_inj.mp same ▸ last
    · rw [List.concat_eq_append, ← List.cons_append, ← List.append_assoc] at split
      exact every pre y post (List.append_inj' split rfl).1

end Entries

section Suffixes
variable {p : α → Prop} {n : ℕ}

theorem longestSuffix_nil (p : α → Prop) : LongestSuffix p [] 0 := by
  refine ⟨⟨[], List.nil_suffix, by simp, rfl⟩, ?_⟩
  rintro k ⟨ys, suffix, -, rfl⟩
  exact suffix.length_le

theorem LongestSuffix.concat (longest : LongestSuffix p xs n) (holds : p x) :
    LongestSuffix p (xs ++ [x]) (n + 1) := by
  obtain ⟨⟨ys, suffix, all, rfl⟩, greatest⟩ := longest
  constructor
  · refine ⟨ys ++ [x], ?_, ?_, by simp⟩
    · exact List.suffix_concat_iff.mpr (.inr ⟨ys, rfl, suffix⟩)
    · intro y mem
      rcases List.mem_append.mp mem with old | new
      · exact all y old
      · exact List.mem_singleton.mp new ▸ holds
  · rintro k ⟨zs, suffix', all', rfl⟩
    rcases List.suffix_concat_iff.mp suffix' with rfl | ⟨ws, rfl, shorter⟩
    · exact Nat.zero_le _
    · have bound := greatest ⟨ws, shorter, fun y mem => all' y (List.mem_append_left _ mem), rfl⟩
      simpa using bound

theorem longestSuffix_concat_fails (xs : List α) (fails : ¬ p x) :
    LongestSuffix p (xs ++ [x]) 0 := by
  refine ⟨⟨[], List.nil_suffix, by simp, rfl⟩, ?_⟩
  rintro k ⟨ys, suffix, all, rfl⟩
  rcases List.suffix_concat_iff.mp suffix with rfl | ⟨ws, rfl, -⟩
  · exact Nat.le_refl 0
  · exact absurd (all x (by simp)) fails

end Suffixes

section Positions
variable {P Q : ℕ → Prop} {o : Option α}

theorem lastWhere_concat (xs : List α) (x : α) (here : P xs.length) :
    LastWhere (xs ++ [x]) P (some x) := by
  refine ⟨xs.length, List.getElem?_concat_length, here, fun j inside _ => ?_⟩
  rw [List.length_append, List.length_singleton] at inside
  omega

theorem LastWhere.concat (last : LastWhere xs Q o) (x : α) (fails : ¬ P xs.length)
    (same : ∀ j < xs.length, (P j ↔ Q j)) : LastWhere (xs ++ [x]) P o := by
  have old {j : ℕ} (inside : j < (xs ++ [x]).length) (holds : P j) : j < xs.length := by
    rw [List.length_append, List.length_singleton] at inside
    rcases Nat.lt_or_eq_of_le (Nat.le_of_lt_succ inside) with before | rfl
    · exact before
    · exact absurd holds fails
  cases o with
  | none =>
    intro j inside holds
    exact last j (old inside holds) ((same j (old inside holds)).mp holds)
  | some y =>
    obtain ⟨i, at_i, holds, greatest⟩ := last
    have inside := (List.getElem?_eq_some_iff.mp at_i).1
    refine ⟨i, ?_, (same i inside).mpr holds, fun j inside' holds' => ?_⟩
    · rw [List.getElem?_append_left inside]
      exact at_i
    · exact greatest j (old inside' holds') ((same j (old inside' holds')).mp holds')

end Positions

end FastapiProject.ListHistories

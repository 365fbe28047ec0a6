import Mathlib.Data.List.DropRight

set_option autoImplicit false

/-!
# Lists stripped at both ends
-/
namespace FastapiProject.TrimmedLists

universe u v
variable {α : Type u} {β : Type v} {p : α → Bool} {xs : List α}

def trim (p : α → Bool) (xs : List α) : List α := (xs.dropWhile p).rdropWhile p

/-- Neither end of the list satisfies `p`. -/
structure Trimmed (p : α → Bool) (xs : List α) : Prop where
  first : ∀ x, xs.head? = some x → p x = false
  last : ∀ x, xs.getLast? = some x → p x = false

theorem trim_trimmed (p : α → Bool) (xs : List α) : Trimmed p (trim p xs) := by
  constructor
  · intro x first
    have before : (xs.dropWhile p).head? = some x := by
      obtain ⟨rest, whole⟩ := List.rdropWhile_prefix p (xs.dropWhile p)
      rw [trim] at first
      rw [← whole, List.head?_append, first, Option.some_or]
    have kept := List.head?_dropWhile_not p xs
    rw [before] at kept
    exact kept
  · intro x last
    have nonempty : trim p xs ≠ [] := by
      intro empty
      rw [empty] at last
      cases last
    have kept := List.rdropWhile_last_not p (xs.dropWhile p) nonempty
    rw [List.getLast?_eq_getLast_of_ne_nil nonempty] at last
    cases last
    exact Bool.eq_false_iff.mpr kept

theorem trim_eq_self_iff : trim p xs = xs ↔ Trimmed p xs := by
  constructor
  · intro same
    exact same ▸ trim_trimmed p xs
  · intro trimmed
    have front : xs.dropWhile p = xs := by
      cases xs with
      | nil => rfl
      | cons x xs => exact List.dropWhile_cons_of_neg (by rw [trimmed.first x rfl]; decide)
    rw [trim, front, List.rdropWhile_eq_self_iff]
    intro nonempty
    rw [trimmed.last _ (List.getLast?_eq_getLast_of_ne_nil nonempty)]
    decide

theorem Trimmed.of_forall (none : ∀ x ∈ xs, p x = false) : Trimmed p xs :=
  ⟨fun x first => none x (List.mem_of_head? first), fun x last => none x (List.mem_of_getLast? last)⟩

theorem Trimmed.map {q : β → Bool} {f : α → β} (kept : ∀ x, p x = false → q (f x) = false)
    (trimmed : Trimmed p xs) : Trimmed q (xs.map f) := by
  constructor
  · intro y first
    rw [List.head?_map, Option.map_eq_some_iff] at first
    obtain ⟨x, first, rfl⟩ := first
    exact kept x (trimmed.first x first)
  · intro y last
    rw [List.getLast?_map, Option.map_eq_some_iff] at last
    obtain ⟨x, last, rfl⟩ := last
    exact kept x (trimmed.last x last)

end FastapiProject.TrimmedLists

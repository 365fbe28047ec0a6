import Mathlib.Data.List.Basic
import FastapiProject.IndexedLists
import FastapiProject.MachineRuns

set_option autoImplicit false

/-!
# `asyncio.gather`

The future that `gather` returns, as the done callbacks of its children see it. It is
done with the first exception that a child raises, or, once every child has ended, with
their results in the order of the arguments; with `return_exceptions` exceptions are
results like others. Children that end after it is done change nothing.
-/
namespace FastapiProject.AsyncioGather
open MachineRuns IndexedLists

variable {ε α : Type}

/-- `children` holds how each child has ended, if it has, and `outer` is the future. -/
structure Gather (ε α : Type) where
  returnExceptions : Bool
  children : List (Option (Except ε α))
  outer : Option (Except ε (List (Except ε α)))

namespace Gather

def results (children : List (Option (Except ε α))) : Option (List (Except ε α)) :=
  if children.all Option.isSome = true then some (children.filterMap id) else none

/-- The exception that the end of a child passes to the future at once. -/
def raised (returnExceptions : Bool) : Except ε α → Option ε
  | .error e => if returnExceptions = true then none else some e
  | .ok _ => none

def start (returnExceptions : Bool) (n : ℕ) : Gather ε α :=
  ⟨returnExceptions, List.replicate n none, (results (List.replicate n none)).map .ok⟩

def settled (returnExceptions : Bool) (children : List (Option (Except ε α)))
    (outcome : Except ε α) : Option (Except ε (List (Except ε α))) :=
  match raised returnExceptions outcome with
  | some e => some (.error e)
  | none => (results children).map .ok

def childEnds (g : Gather ε α) (l : ℕ × Except ε α) : Option (Gather ε α) :=
  match g.children[l.1]? with
  | some none =>
    let children := g.children.set l.1 (some l.2)
    some { g with
      children := children
      outer := g.outer.or (settled g.returnExceptions children l.2) }
  | _ => none

def firstRaised (returnExceptions : Bool) (ls : List (ℕ × Except ε α)) : Option ε :=
  ls.findSome? fun l => raised returnExceptions l.2

/-- What the future is after the children `ls` have ended, in this order. -/
structure After (returnExceptions : Bool) (n : ℕ) (ls : List (ℕ × Except ε α))
    (g : Gather ε α) : Prop where
  mode : g.returnExceptions = returnExceptions
  length : g.children.length = n
  child : ∀ (i : ℕ) o, g.children[i]? = some (some o) ↔ (i, o) ∈ ls
  count : g.children.countP Option.isSome = ls.length
  outer : g.outer = match firstRaised returnExceptions ls with
    | some e => some (.error e)
    | none => (results g.children).map .ok

variable {returnExceptions : Bool} {n : ℕ} {ls : List (ℕ × Except ε α)} {g u : Gather ε α}

theorem after_start : After returnExceptions n [] (start returnExceptions n : Gather ε α) where
  mode := rfl
  length := List.length_replicate
  child i o := by
    refine iff_of_false (fun at_i => ?_) List.not_mem_nil
    have mem := List.mem_of_getElem? at_i
    cases (List.mem_replicate.mp mem).2
  count := by
    rw [start, List.countP_replicate]
    rfl
  outer := rfl

theorem results_pending {children : List (Option (Except ε α))} {i : ℕ}
    (at_i : children[i]? = some none) : results children = none := by
  rw [results, if_neg]
  intro all
  have some := List.all_eq_true.mp all none (List.mem_of_getElem? at_i)
  cases some

theorem after_step (h : After returnExceptions n ls g) {l : ℕ × Except ε α}
    (hs : g.childEnds l = some u) : After returnExceptions n (ls ++ [l]) u := by
  obtain ⟨i, outcome⟩ := l
  unfold childEnds at hs
  split at hs
  · rename_i at_i
    change g.children[i]? = some none at at_i
    cases hs
    refine ⟨h.mode, (List.length_set).trans h.length, fun j o => ?_, ?_, ?_⟩
    · rw [List.mem_append, List.mem_singleton, ← h.child j o]
      constructor
      · intro at_j
        rcases getElem?_set_cases at_j with ⟨rfl, same⟩ | ⟨-, before⟩
        · exact .inr (by rw [Option.some.inj same])
        · exact .inl before
      · rintro (before | same)
        · exact getElem?_set_other at_i before (by simp)
        · cases same
          exact getElem?_set_here at_i _
    · have counted := countP_set_add at_i Option.isSome (some outcome)
      rw [h.count] at counted
      rw [List.length_append]
      simpa using counted
    · rw [firstRaised, List.findSome?_append, ← firstRaised, h.outer]
      cases first : firstRaised returnExceptions ls with
      | some e => rfl
      | none =>
        simp only [results_pending at_i, Option.map_none, Option.none_or, h.mode]
        rw [settled, List.findSome?_singleton]
  · cases hs

theorem after_run (run : Runs childEnds (start returnExceptions n) ls g) :
    After returnExceptions n ls g :=
  run.history (After returnExceptions n) after_start (fun _ _ _ _ h hs => after_step h hs)

/-- The future is done with the first exception that comes, whatever ends after it. -/
theorem After.raises (h : After returnExceptions n ls g) {e : ε}
    (first : firstRaised returnExceptions ls = some e) : g.outer = some (.error e) := by
  rw [h.outer, first]

theorem firstRaised_none (quiet : ∀ l ∈ ls, raised returnExceptions l.2 = none) :
    firstRaised returnExceptions ls = none := List.findSome?_eq_none_iff.mpr quiet

/-- The results come in the order of the arguments, in whichever order the children end. -/
theorem After.returns (h : After returnExceptions n ls g) (outcome : ℕ → Except ε α)
    (own : ∀ l ∈ ls, l.2 = outcome l.1) (quiet : ∀ i < n, raised returnExceptions (outcome i) = none)
    (all : ls.length = n) : g.outer = some (.ok ((List.range n).map outcome)) := by
  have inside {i : ℕ} {o : Except ε α} (mem : (i, o) ∈ ls) : i < n := by
    have at_i := (h.child i o).mpr mem
    have lt := (List.getElem?_eq_some_iff.mp at_i).1
    rwa [h.length] at lt
  have ended : g.children.all Option.isSome = true := by
    have count := h.count
    rw [all, ← h.length, List.countP_eq_length] at count
    exact List.all_eq_true.mpr count
  have children : g.children = (List.range n).map fun i => some (outcome i) := by
    refine List.ext_getElem (by rw [h.length, List.length_map, List.length_range])
      (fun i here _ => ?_)
    have isSome := List.all_eq_true.mp ended _ (List.getElem_mem here)
    obtain ⟨o, same⟩ := Option.isSome_iff_exists.mp isSome
    have mem := (h.child i o).mp (by rw [List.getElem?_eq_getElem here, same])
    have here' : o = outcome i := own (i, o) mem
    rw [same, here', List.getElem_map, List.getElem_range]
  rw [h.outer, firstRaised_none]
  · simp only [results, ended, ↓reduceIte, Option.map_some]
    rw [children, List.filterMap_map]
    simp
  · intro l mem
    rw [own l mem]
    exact quiet l.1 (inside mem)

theorem After.done (h : After returnExceptions n ls g) {rs : List (Except ε α)}
    (done : g.outer = some (.ok rs)) : ls.length = n ∧ ∀ l ∈ ls, raised returnExceptions l.2 = none := by
  rw [h.outer] at done
  cases first : firstRaised returnExceptions ls with
  | some e =>
    rw [first] at done
    cases done
  | none =>
    rw [first] at done
    refine ⟨?_, List.findSome?_eq_none_iff.mp first⟩
    obtain ⟨rs', here, -⟩ := Option.map_eq_some_iff.mp done
    unfold results at here
    split at here
    · rename_i ended
      rw [← h.count, ← h.length, List.countP_eq_length]
      exact List.all_eq_true.mp ended
    · cases here

theorem firstRaised_returned (ls : List (ℕ × Except ε α)) : firstRaised true ls = none :=
  firstRaised_none fun l _ => by cases l.2 <;> rfl

theorem After.done_iff (h : After true n ls g) :
    g.outer.isSome = true ↔ g.children.all Option.isSome = true := by
  rw [h.outer, firstRaised_returned]
  simp only [results]
  split
  · simp_all
  · simp_all

end Gather

end FastapiProject.AsyncioGather

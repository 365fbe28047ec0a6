import FastapiProject.AsyncioGather

set_option autoImplicit false

/-!
# The gathers of the demo endpoints

`routers/async_demo.py`, lines 15 to 49. An exception is here its text, and a child ends
once its sleep is over, in any order with the others.
-/
namespace FastapiProject.AsyncDemo
open MachineRuns AsyncioGather

structure Demo where
  returnExceptions : Bool
  children : List (Except String String)

def task (n : ℕ) : Except String String := .ok ("task-" ++ toString n ++ "-done")

def good : Except String String := .ok "ok"

def bad : Except String String := .error "something went wrong"

def demoGather : Demo := ⟨false, [task 1, task 2, task 3]⟩

def demoGatherException : Demo := ⟨true, [good, bad]⟩

/-- `str(r) if isinstance(r, Exception) else r`. -/
def shown : Except String String → String
  | .ok r => r
  | .error text => text

/-- The `results` that an endpoint answers with, or the exception that leaves it. -/
def answer (g : Gather String String) : Option (Except String (List String)) :=
  g.outer.map fun outcome => outcome.map fun rs => rs.map shown

namespace Demo
variable (d : Demo)

def start : Gather String String := Gather.start d.returnExceptions d.children.length

def Own (ls : List (ℕ × Except String String)) : Prop := ∀ l ∈ ls, d.children[l.1]? = some l.2

variable {d} {ls : List (ℕ × Except String String)} {g : Gather String String}

/-- In whichever order its children end, an endpoint whose gather passes no exception on
answers with their results in the order of its arguments. -/
theorem answer_ordered (quiet : ∀ c ∈ d.children, Gather.raised d.returnExceptions c = none)
    (run : Runs Gather.childEnds d.start ls g) (own : d.Own ls) (done : g.outer ≠ none) :
    answer g = some (.ok (d.children.map shown)) := by
  have after := Gather.after_run run
  have passed : ∀ l ∈ ls, Gather.raised d.returnExceptions l.2 = none :=
    fun l mem => quiet l.2 (List.mem_of_getElem? (own l mem))
  obtain ⟨outcome, outer⟩ := Option.ne_none_iff_exists'.mp done
  have returned : ∃ rs, outcome = .ok rs := by
    have shape := after.outer
    rw [Gather.firstRaised_none passed, outer] at shape
    obtain ⟨rs, -, same⟩ := Option.map_eq_some_iff.mp shape.symm
    exact ⟨rs, same.symm⟩
  obtain ⟨rs, rfl⟩ := returned
  let ends (i : ℕ) : Except String String := d.children[i]?.getD good
  have inOrder : (List.range d.children.length).map ends = d.children := by
    refine List.ext_getElem (by rw [List.length_map, List.length_range]) (fun i _ here => ?_)
    rw [List.getElem_map, List.getElem_range]
    change d.children[i]?.getD good = _
    rw [List.getElem?_eq_getElem here, Option.getD_some]
  have same := after.returns ends (fun l mem => by rw [← Option.getD_some (a := l.2), ← own l mem])
    (fun i inside => quiet _ (by
      rw [← inOrder]
      exact List.mem_map_of_mem (List.mem_range.mpr inside)))
    (after.done outer).1
  rw [answer, same, inOrder]
  rfl

end Demo

theorem demoGather_answer {ls : List (ℕ × Except String String)} {g : Gather String String}
    (run : Runs Gather.childEnds demoGather.start ls g) (own : demoGather.Own ls)
    (done : g.outer ≠ none) :
    answer g = some (.ok ["task-1-done", "task-2-done", "task-3-done"]) := by
  refine Demo.answer_ordered (fun c mem => ?_) run own done
  simp only [demoGather, List.mem_cons, List.not_mem_nil, or_false] at mem
  rcases mem with rfl | rfl | rfl <;> rfl

theorem demoGatherException_answer {ls : List (ℕ × Except String String)}
    {g : Gather String String} (run : Runs Gather.childEnds demoGatherException.start ls g)
    (own : demoGatherException.Own ls) (done : g.outer ≠ none) :
    answer g = some (.ok ["ok", "something went wrong"]) := by
  refine Demo.answer_ordered (fun c mem => ?_) run own done
  simp only [demoGatherException, List.mem_cons, List.not_mem_nil, or_false] at mem
  rcases mem with rfl | rfl <;> rfl

end FastapiProject.AsyncDemo

import Mathlib.Data.List.Perm.Subperm
import Mathlib.Data.Nat.Notation

set_option autoImplicit false

/-!
# Exceptions, dictionaries and lists of the language

The exception classes are those that the modelled code tells apart, with `other` for
every further subclass of `Exception`. A computation that may raise is an `Except Exn`.
-/
namespace FastapiProject.PythonExceptions

inductive Exn where
  | cancelledError
  | keyboardInterrupt
  | systemExit
  | valueError
  | jsonDecodeError
  | unicodeDecodeError
  | attributeError
  | typeError
  | recursionError
  | runtimeError
  | webSocketDisconnect
  | httpException (status : ℕ) (detail : String)
  | amqpChannelError
  | amqpConnectionError
  | messageProcessError
  | channelInvalidState
  | other (name : String)
  deriving DecidableEq, Repr

/-- `isinstance(e, Exception)`: cancellation and the two process exits are not. -/
def Exn.isException : Exn → Bool
  | .cancelledError | .keyboardInterrupt | .systemExit => false
  | _ => true

theorem bind_ok {ε α β : Type} {x : Except ε α} {f : α → Except ε β} {b : β}
    (h : x.bind f = .ok b) : ∃ a, x = .ok a ∧ f a = .ok b := by
  cases x with
  | error e => cases h
  | ok a => exact ⟨a, rfl, h⟩

section Dict
variable {κ ν : Type} [DecidableEq κ]

/-- `d[k] = v`: the entry keeps its place when the key is there, else it goes last. -/
def dictSet : List (κ × ν) → κ → ν → List (κ × ν)
  | [], k, v => [(k, v)]
  | (k', v') :: d, k, v => if k' = k then (k, v) :: d else (k', v') :: dictSet d k v

def dictGet : List (κ × ν) → κ → Option ν
  | [], _ => none
  | (k', v') :: d, k => if k' = k then some v' else dictGet d k

/-- `d.pop(k, None)`: the dictionary that is left. -/
def dictPop (d : List (κ × ν)) (k : κ) : List (κ × ν) := d.filter (fun entry => entry.1 ≠ k)

/-- `{**d, **entries}`. -/
def dictUpdate (d entries : List (κ × ν)) : List (κ × ν) :=
  entries.foldl (fun d entry => dictSet d entry.1 entry.2) d

/-- A dictionary that comes from elsewhere: no key has two entries. -/
structure Dict (κ ν : Type) where
  entries : List (κ × ν)
  nodup : (entries.map Prod.fst).Nodup

theorem dictGet_dictSet (d : List (κ × ν)) (k k' : κ) (v : ν) :
    dictGet (dictSet d k v) k' = if k = k' then some v else dictGet d k' := by
  induction d with
  | nil => rfl
  | cons entry d ih =>
    obtain ⟨k₀, v₀⟩ := entry
    by_cases here : k₀ = k
    · subst here
      by_cases same : k₀ = k' <;> simp [dictSet, dictGet, same]
    · by_cases first : k₀ = k'
      · subst first
        simp [dictSet, dictGet, here, Ne.symm here]
      · simp only [dictSet, here, ↓reduceIte, dictGet, first, ih]

theorem mem_dictSet {d : List (κ × ν)} {k : κ} {v : ν} {entry : κ × ν}
    (mem : entry ∈ dictSet d k v) : entry = (k, v) ∨ entry ∈ d := by
  induction d with
  | nil => exact .inl (List.mem_singleton.mp mem)
  | cons first d ih =>
    obtain ⟨k₀, v₀⟩ := first
    rw [dictSet] at mem
    split at mem
    · rcases List.mem_cons.mp mem with new | old
      · exact .inl new
      · exact .inr (List.mem_cons_of_mem _ old)
    · rcases List.mem_cons.mp mem with same | later
      · exact .inr (same ▸ List.mem_cons_self)
      · exact (ih later).imp_right (List.mem_cons_of_mem _)

theorem dictGet_dictPop (d : List (κ × ν)) (k k' : κ) :
    dictGet (dictPop d k) k' = if k = k' then none else dictGet d k' := by
  induction d with
  | nil => simp [dictPop, dictGet]
  | cons entry d ih =>
    obtain ⟨k₀, v₀⟩ := entry
    by_cases popped : k₀ = k
    · have left : dictPop ((k₀, v₀) :: d) k = dictPop d k := by simp [dictPop, popped]
      rw [left, ih, dictGet]
      subst popped
      by_cases same : k₀ = k' <;> simp [same]
    · have left : dictPop ((k₀, v₀) :: d) k = (k₀, v₀) :: dictPop d k := by simp [dictPop, popped]
      rw [left, dictGet, dictGet, ih]
      by_cases first : k₀ = k'
      · rw [if_pos first, if_pos first, if_neg (fun h => popped (first.trans h.symm))]
      · rw [if_neg first, if_neg first]

theorem dictGet_of_notMem {d : List (κ × ν)} {k : κ} (h : k ∉ d.map Prod.fst) :
    dictGet d k = none := by
  induction d with
  | nil => rfl
  | cons entry d ih =>
    rw [List.map_cons, List.mem_cons, not_or] at h
    rw [dictGet, if_neg (Ne.symm h.1)]
    exact ih h.2

theorem dictGet_dictUpdate (d : List (κ × ν)) {entries : List (κ × ν)}
    (nodup : (entries.map Prod.fst).Nodup) (k : κ) :
    dictGet (dictUpdate d entries) k = (dictGet entries k).or (dictGet d k) := by
  induction entries generalizing d with
  | nil => rfl
  | cons entry entries ih =>
    obtain ⟨k₀, v₀⟩ := entry
    rw [List.map_cons, List.nodup_cons] at nodup
    have rest := ih (dictSet d k₀ v₀) nodup.2
    rw [dictUpdate] at rest
    rw [dictUpdate, List.foldl_cons, rest, dictGet_dictSet]
    by_cases same : k₀ = k
    · subst same
      simp [dictGet, dictGet_of_notMem nodup.1]
    · simp [dictGet, same]

theorem dictSet_of_notMem {d : List (κ × ν)} {k : κ} (fresh : k ∉ d.map Prod.fst) (v : ν) :
    dictSet d k v = d ++ [(k, v)] := by
  induction d with
  | nil => rfl
  | cons entry d ih =>
    rw [List.map_cons, List.mem_cons, not_or] at fresh
    rw [dictSet, if_neg (Ne.symm fresh.1), ih fresh.2]
    rfl

theorem dictUpdate_of_disjoint (d : List (κ × ν)) {entries : List (κ × ν)}
    (nodup : ((d ++ entries).map Prod.fst).Nodup) : dictUpdate d entries = d ++ entries := by
  induction entries generalizing d with
  | nil => exact (List.append_nil d).symm
  | cons entry entries ih =>
    have moved : d ++ entry :: entries = (d ++ [entry]) ++ entries := by
      rw [List.append_assoc, List.singleton_append]
    rw [moved] at nodup
    have front : ((d ++ [entry]).map Prod.fst).Nodup := by
      rw [List.map_append] at nodup
      exact (List.nodup_append.mp nodup).1
    have fresh : entry.1 ∉ d.map Prod.fst := by
      rw [List.map_append, List.nodup_append] at front
      exact fun found => front.2.2 entry.1 found entry.1 (List.mem_singleton_self _) rfl
    have rest := ih (d ++ [entry]) nodup
    rw [dictUpdate] at rest
    rw [dictUpdate, List.foldl_cons, dictSet_of_notMem fresh, rest, moved]

theorem dictSet_keys (d : List (κ × ν)) (k : κ) (v : ν) :
    (dictSet d k v).map Prod.fst = d.map Prod.fst ∨
      k ∉ d.map Prod.fst ∧ (dictSet d k v).map Prod.fst = d.map Prod.fst ++ [k] := by
  induction d with
  | nil => exact Or.inr ⟨List.not_mem_nil, rfl⟩
  | cons entry d ih =>
    obtain ⟨k₀, v₀⟩ := entry
    by_cases here : k₀ = k
    · rw [dictSet, if_pos here, here]
      exact Or.inl rfl
    · rw [dictSet, if_neg here]
      rcases ih with same | ⟨fresh, last⟩
      · exact Or.inl (congrArg (List.cons k₀) same)
      · refine Or.inr ⟨?_, congrArg (List.cons k₀) last⟩
        rw [List.map_cons, List.mem_cons, not_or]
        exact ⟨Ne.symm here, fresh⟩

theorem dictSet_nodup {d : List (κ × ν)} (nodup : (d.map Prod.fst).Nodup) (k : κ) (v : ν) :
    ((dictSet d k v).map Prod.fst).Nodup := by
  rcases dictSet_keys d k v with same | ⟨fresh, last⟩
  · rw [same]
    exact nodup
  · rw [last]
    refine List.nodup_append.mpr ⟨nodup, List.pairwise_singleton _ k, ?_⟩
    rintro a found b other rfl
    rw [List.mem_singleton.mp other] at found
    exact fresh found

theorem dictUpdate_nodup {d : List (κ × ν)} (nodup : (d.map Prod.fst).Nodup)
    (entries : List (κ × ν)) : ((dictUpdate d entries).map Prod.fst).Nodup := by
  induction entries generalizing d with
  | nil => exact nodup
  | cons entry entries ih => exact ih (dictSet_nodup nodup entry.1 entry.2)

theorem mem_dictUpdate {d entries : List (κ × ν)} {entry : κ × ν}
    (mem : entry ∈ dictUpdate d entries) : entry ∈ d ∨ entry ∈ entries := by
  induction entries generalizing d with
  | nil => exact Or.inl mem
  | cons first entries ih =>
    rcases ih (d := dictSet d first.1 first.2) mem with set | later
    · rcases mem_dictSet set with rfl | old
      · exact Or.inr List.mem_cons_self
      · exact Or.inl old
    · exact Or.inr (List.mem_cons_of_mem _ later)

end Dict

section Lists
variable {α : Type} [DecidableEq α]

def listRemove (xs : List α) (x : α) : Except Exn (List α) :=
  if x ∈ xs then .ok (xs.erase x) else .error .valueError

/-- `for x in dead: xs.remove(x)`, with the list as it is when the loop is left. -/
def removeEach : List α → List α → List α × Except Exn Unit
  | xs, [] => (xs, .ok ())
  | xs, x :: dead =>
    match listRemove xs x with
    | .ok ys => removeEach ys dead
    | .error e => (xs, .error e)

theorem removeEach_sublist (xs dead : List α) : (removeEach xs dead).1.Sublist xs := by
  induction dead generalizing xs with
  | nil => exact List.Sublist.refl xs
  | cons x dead ih =>
    by_cases present : x ∈ xs
    · simp only [removeEach, listRemove, present, ↓reduceIte]
      exact (ih (xs.erase x)).trans List.erase_sublist
    · simp only [removeEach, listRemove, present, ↓reduceIte]
      exact List.Sublist.refl xs

theorem removeEach_ok_iff (xs dead : List α) :
    (removeEach xs dead).2 = .ok () ↔ dead.Subperm xs := by
  induction dead generalizing xs with
  | nil => simp [removeEach]
  | cons x dead ih =>
    by_cases present : x ∈ xs
    · simp only [removeEach, listRemove, present, ↓reduceIte, ih]
      rw [(List.perm_cons_erase present).subperm_left, List.subperm_cons]
    · simp only [removeEach, listRemove, present, ↓reduceIte, reduceCtorEq, false_iff]
      exact fun h => present (List.Subperm.subset h List.mem_cons_self)

theorem removeEach_error (xs dead : List α) {e : Exn} (h : (removeEach xs dead).2 = .error e) :
    e = .valueError := by
  induction dead generalizing xs with
  | nil => cases h
  | cons x dead ih =>
    by_cases present : x ∈ xs
    · simp only [removeEach, listRemove, present, ↓reduceIte] at h
      exact ih _ h
    · simp only [removeEach, listRemove, present, ↓reduceIte, Except.error.injEq] at h
      exact h.symm

end Lists

end FastapiProject.PythonExceptions

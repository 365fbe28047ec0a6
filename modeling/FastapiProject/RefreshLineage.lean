import FastapiProject.IndexedLists
import FastapiProject.RefreshRotation

set_option autoImplicit false

/-!
# The lineage of refresh tokens

What no interleaving of rotations can spoil, those that rotate one token twice included:
rows stay, with their user, a revocation is never undone, and the tokens form a forest
whose roots are the rows of the first table and whose trees have one user each.
-/
namespace FastapiProject.RefreshLineage
open PythonExceptions MachineRuns IndexedLists RefreshRotation

section Forests
variable {α : Type} {r : α → α → Prop} {a b t : α}

/-- Two roots of a relation whose elements have one predecessor at most, and from which
the same element is reached, are the same. -/
theorem root_unique (unique : Relator.LeftUnique r) (rootA : ∀ p, ¬ r p a) (rootB : ∀ p, ¬ r p b)
    (fromA : Relation.ReflTransGen r a t) (fromB : Relation.ReflTransGen r b t) : a = b := by
  have ends {x y : α} (root : ∀ p, ¬ r p x) (path : Relation.ReflTransGen r y x) : y = x := by
    cases path.cases_tail with
    | inl same => exact same.symm
    | inr last =>
      obtain ⟨p, -, edge⟩ := last
      exact absurd edge (root p)
  have single : Relator.RightUnique (Function.swap r) := fun x y z hy hz => unique hy hz
  rcases Relation.ReflTransGen.total_of_right_unique single (Relation.reflTransGen_swap.mpr fromA)
    (Relation.reflTransGen_swap.mpr fromB) with path | path
  · exact (ends rootA (Relation.reflTransGen_swap.mp path)).symm
  · exact ends rootB (Relation.reflTransGen_swap.mp path)

end Forests

variable {Token User : Type} {table : Token → Option (RefreshToken User)}

def Later (before after : Token → Option (RefreshToken User)) : Prop :=
  ∀ t row, before t = some row → ∃ row', after t = some row' ∧ row'.userId = row.userId ∧
    (row.revoked = true → row'.revoked = true)

theorem Later.refl (table : Token → Option (RefreshToken User)) : Later table table :=
  fun _ row here => ⟨row, here, rfl, id⟩

theorem Later.trans {first second third : Token → Option (RefreshToken User)}
    (h : Later first second) (h' : Later second third) : Later first third := by
  intro t row here
  obtain ⟨row', here', user, revoked⟩ := h t row here
  obtain ⟨row'', here'', user', revoked'⟩ := h' t row' here'
  exact ⟨row'', here'', user'.trans user, revoked' ∘ revoked⟩

def Founds (table : Token → Option (RefreshToken User)) (s : State Token User) (a t : Token) : Prop :=
  (table a).isSome = true ∧ Descends s a t

structure Lineage (table : Token → Option (RefreshToken User)) (s : State Token User) : Prop where
  later : Later table s.table
  founded : ∀ t row, s.table t = some row → ∃ a row₀, table a = some row₀ ∧ Founds table s a t ∧
    row₀.userId = row.userId ∧ (a = t ∨ row₀.revoked = false)
  unique : ∀ a b t, Founds table s a t → Founds table s b t → a = b
  spent : ∀ old new, Rotated s old new → ∃ row row', s.table old = some row ∧ row.revoked = true ∧
    s.table new = some row' ∧ row'.userId = row.userId

/-- The invariant behind it: what a call between its two awaits has learnt is still so. -/
structure Inv (table : Token → Option (RefreshToken User)) (s : State Token User) : Prop where
  later : Later table s.table
  founded : ∀ t row, s.table t = some row → ∃ a row₀, table a = some row₀ ∧ Descends s a t ∧
    row₀.userId = row.userId ∧ (a = t ∨ row₀.revoked = false)
  pending : ∀ (i : ℕ) old new tokenRow, s.calls[i]? = some (Call.committing old new tokenRow) →
    s.table new = none ∧ (∃ row, s.table old = some row ∧ row.userId = tokenRow.userId) ∧
      ∀ row₀, table old = some row₀ → row₀.revoked = false
  spent : ∀ (i : ℕ) old new, s.calls[i]? = some (Call.returned old new) →
    ∃ row row', s.table old = some row ∧ row.revoked = true ∧
      s.table new = some row' ∧ row'.userId = row.userId
  generated : ∀ (i : ℕ) c new, s.calls[i]? = some c → c.newToken = some new → table new = none
  distinct : ∀ (i j : ℕ) c d new, s.calls[i]? = some c → s.calls[j]? = some d →
    c.newToken = some new → d.newToken = some new → i = j

section Invariant
variable {s u : State Token User}

theorem inv_initial (table : Token → Option (RefreshToken User)) : Inv table ⟨table, []⟩ where
  later := Later.refl table
  founded t row here := ⟨t, row, here, .refl, rfl, .inl rfl⟩
  pending i old new row at_i := by cases at_i
  spent i old new at_i := by cases at_i
  generated i c new at_i := by cases at_i
  distinct i j c d new at_i := by cases at_i

theorem descends_mono {a t : Token} (kept : ∀ a b, Rotated s a b → Rotated u a b)
    (path : Descends s a t) : Descends u a t :=
  Relation.ReflTransGen.mono kept _ _ path

theorem lineage_of_inv (h : Inv table s) : Lineage table s where
  later := h.later
  founded t row here := by
    obtain ⟨a, row₀, there, path, user, live⟩ := h.founded t row here
    exact ⟨a, row₀, there, ⟨by rw [there]; rfl, path⟩, user, live⟩
  unique a b t fromA fromB := by
    have root {a : Token} (known : (table a).isSome = true) (p : Token) : ¬ Rotated s p a := by
      rintro ⟨i, at_i⟩
      rw [h.generated i _ a at_i rfl] at known
      cases known
    refine root_unique ?_ (root fromA.1) (root fromB.1) fromA.2 fromB.2
    rintro p q new ⟨i, at_i⟩ ⟨j, at_j⟩
    have same := h.distinct i j _ _ new at_i at_j rfl rfl
    subst same
    cases at_i.symm.trans at_j
    rfl
  spent old new rotated := by
    obtain ⟨i, at_i⟩ := rotated
    exact h.spent i old new at_i

theorem inv_calls (h : Inv table s) {calls : List (Call Token User)} {i : ℕ}
    (returned : ∀ (j : ℕ) a b, s.calls[j]? = some (Call.returned a b) → calls[j]? = some (.returned a b))
    (moved : ∀ (j : ℕ) c, calls[j]? = some c → s.calls[j]? = some c ∨ c.newToken = none ∨
      j = i ∧ ∃ old new row, c = .committing old new row ∧ s.table old = some row ∧
        row.revoked = false ∧ s.table new = none ∧ ∀ c ∈ s.calls, c.newToken ≠ some new) :
    Inv table { s with calls := calls } := by
  have absent {t : Token} (gone : s.table t = none) : table t = none := by
    cases here : table t with
    | none => rfl
    | some row =>
      obtain ⟨row', there, -⟩ := h.later t row here
      rw [gone] at there
      cases there
  refine ⟨h.later, ?_, ?_, ?_, ?_, ?_⟩
  · intro t row here
    obtain ⟨a, row₀, there, path, rest⟩ := h.founded t row here
    refine ⟨a, row₀, there, descends_mono ?_ path, rest⟩
    rintro a b ⟨j, at_j⟩
    exact ⟨j, returned j a b at_j⟩
  · intro j old new tokenRow at_j
    rcases moved j _ at_j with before | unmarked | ⟨-, old', new', row, same, here, live, gone, -⟩
    · exact h.pending j old new tokenRow before
    · cases unmarked
    · cases same
      refine ⟨gone, ⟨tokenRow, here, rfl⟩, fun row₀ there => ?_⟩
      obtain ⟨row', here', -, revoked⟩ := h.later old row₀ there
      rw [here] at here'
      cases here'
      by_contra revoked₀
      rw [revoked (Bool.not_eq_false _ ▸ revoked₀)] at live
      cases live
  · intro j old new at_j
    rcases moved j _ at_j with before | unmarked | ⟨-, _, _, _, same, -⟩
    · exact h.spent j old new before
    · cases unmarked
    · cases same
  · intro j c new at_j generated
    rcases moved j c at_j with before | unmarked | ⟨-, old, new', row, rfl, -, -, gone, -⟩
    · exact h.generated j c new before generated
    · rw [unmarked] at generated
      cases generated
    · cases generated
      exact absent gone
  · intro j k c d new at_j at_k hc hd
    rcases moved j c at_j with before | unmarked | ⟨rfl, old, new', row, rfl, -, -, -, unseen⟩
    · rcases moved k d at_k with before' | unmarked' | ⟨rfl, old', new', row', rfl, -, -, -, unseen⟩
      · exact h.distinct j k c d new before before' hc hd
      · rw [unmarked'] at hd
        cases hd
      · cases hd
        exact absurd hc (unseen c (List.mem_of_getElem? before))
    · rw [unmarked] at hc
      cases hc
    · rcases moved k d at_k with before' | unmarked' | ⟨rfl, -⟩
      · cases hc
        exact absurd hd (unseen d (List.mem_of_getElem? before'))
      · rw [unmarked'] at hd
        cases hd
      · rfl

theorem inv_call (h : Inv table s) (old : Token) :
    Inv table { s with calls := s.calls ++ [.reading old] } := by
  refine inv_calls (i := s.calls.length) h (fun j a b at_j => getElem?_concat_old at_j _)
    (fun j c at_j => ?_)
  rcases getElem?_concat_cases at_j with before | ⟨-, rfl⟩
  · exact .inl before
  · exact .inr (.inl rfl)

variable [DecidableEq Token]

theorem inv_get (h : Inv table s) {i : ℕ} {new : Token} (hs : step s (.get i new) = some u) :
    Inv table u := by
  obtain ⟨old, at_i, ⟨unused, unseen⟩, rfl⟩ := step_get hs
  refine inv_calls (i := i) h (fun j a b at_j => ?_) (fun j c at_j => ?_)
  · exact getElem?_set_other at_i at_j (by simp)
  · rcases getElem?_set_cases at_j with ⟨rfl, rfl⟩ | ⟨-, before⟩
    · right
      cases here : s.table old with
      | none => exact .inl rfl
      | some row =>
        cases live : row.revoked with
        | true =>
          left
          simp [rotateRefreshToken, live, Call.newToken]
        | false =>
          right
          refine ⟨rfl, old, new, row, ?_, here, live, Option.isNone_iff_eq_none.mp unused, unseen⟩
          simp [rotateRefreshToken, live]
    · exact .inl before

section Commit
variable {old new : Token} {tokenRow : RefreshToken User}

theorem later_commit (absent : s.table new = none)
    (known : ∃ row, s.table old = some row ∧ row.userId = tokenRow.userId) :
    Later s.table (commitSession s.table old new tokenRow) := by
  obtain ⟨row, here, user⟩ := known
  have ne : old ≠ new := by
    rintro rfl
    rw [absent] at here
    cases here
  intro t row' there
  have ne' : t ≠ new := by
    rintro rfl
    rw [absent] at there
    cases there
  by_cases same : t = old
  · subst same
    rw [here] at there
    cases there
    exact ⟨_, commitSession_old _ _ ne, user.symm, fun _ => rfl⟩
  · exact ⟨row', (commitSession_other _ _ same ne').trans there, rfl, id⟩

theorem inv_commit (h : Inv table s) {i : ℕ}
    (at_i : s.calls[i]? = some (Call.committing old new tokenRow)) :
    Inv table ⟨commitSession s.table old new tokenRow, s.calls.set i (.returned old new)⟩ := by
  obtain ⟨absent, ⟨row, here, user⟩, live⟩ := h.pending i old new tokenRow at_i
  have later := later_commit absent ⟨row, here, user⟩
  have ne : old ≠ new := by
    rintro rfl
    rw [absent] at here
    cases here
  -- the calls before the step, with the tokens that they generated
  have before {j : ℕ} {c : Call Token User} (at_j : (s.calls.set i (.returned old new))[j]? = some c) :
      ∃ d, s.calls[j]? = some d ∧ d.newToken = c.newToken := by
    rcases getElem?_set_cases at_j with ⟨rfl, rfl⟩ | ⟨-, at_j⟩
    · exact ⟨_, at_i, rfl⟩
    · exact ⟨c, at_j, rfl⟩
  have kept (a b : Token) (rotated : Rotated s a b) :
      Rotated ⟨commitSession s.table old new tokenRow, s.calls.set i (.returned old new)⟩ a b := by
    obtain ⟨j, at_j⟩ := rotated
    exact ⟨j, getElem?_set_other at_i at_j (by simp)⟩
  refine ⟨h.later.trans later, ?_, ?_, ?_, ?_, ?_⟩
  · intro t row' there
    by_cases fresh : t = new
    · subst fresh
      change commitSession s.table old t tokenRow t = some row' at there
      rw [commitSession_new] at there
      cases there
      obtain ⟨a, row₀, first, path, user₀, unrevoked⟩ := h.founded old row here
      refine ⟨a, row₀, first, (descends_mono kept path).tail ⟨i, getElem?_set_here at_i _⟩,
        user₀.trans user, .inr ?_⟩
      rcases unrevoked with rfl | unrevoked
      · exact live row₀ first
      · exact unrevoked
    · obtain ⟨row'', there', user'⟩ : ∃ row'', s.table t = some row'' ∧ row''.userId = row'.userId := by
        by_cases same : t = old
        · subst same
          change commitSession s.table t new tokenRow t = some row' at there
          rw [commitSession_old _ _ ne] at there
          cases there
          exact ⟨row, here, user⟩
        · exact ⟨row', (commitSession_other _ _ same fresh).symm.trans there, rfl⟩
      obtain ⟨a, row₀, first, path, user₀, unrevoked⟩ := h.founded t row'' there'
      exact ⟨a, row₀, first, descends_mono kept path, user₀.trans user', unrevoked⟩
  · intro j old' new' tokenRow' at_j
    rcases getElem?_set_cases at_j with ⟨-, same⟩ | ⟨other, at_j⟩
    · cases same
    · obtain ⟨absent', ⟨row', here', user'⟩, live'⟩ := h.pending j old' new' tokenRow' at_j
      obtain ⟨row'', here'', user'', -⟩ := later old' row' here'
      refine ⟨?_, ⟨row'', here'', user''.trans user'⟩, live'⟩
      have unlike : new' ≠ old := by
        rintro rfl
        rw [here] at absent'
        cases absent'
      have unlike' : new' ≠ new := by
        intro same
        exact other (h.distinct j i _ _ new' at_j at_i rfl (same ▸ rfl))
      exact (commitSession_other _ _ unlike unlike').trans absent'
  · intro j a b at_j
    rcases getElem?_set_cases at_j with ⟨-, same⟩ | ⟨-, at_j⟩
    · cases same
      exact ⟨_, _, commitSession_old _ _ ne, rfl, commitSession_new _ _, rfl⟩
    · obtain ⟨row', row'', there, revoked, there', user'⟩ := h.spent j a b at_j
      obtain ⟨later', here', userA, revoked'⟩ := later a row' there
      obtain ⟨later'', here'', userB, -⟩ := later b row'' there'
      exact ⟨later', later'', here', revoked' revoked, here'', userB.trans (user'.trans userA.symm)⟩
  · intro j c t at_j generated
    obtain ⟨d, at_j, same⟩ := before at_j
    exact h.generated j d t at_j (same.trans generated)
  · intro j k c d t at_j at_k hc hd
    obtain ⟨c', at_j, sameC⟩ := before at_j
    obtain ⟨d', at_k, sameD⟩ := before at_k
    exact h.distinct j k c' d' t at_j at_k (sameC.trans hc) (sameD.trans hd)

end Commit

theorem step_inv (h : Inv table s) {l : Label Token} (hs : step s l = some u) :
    Inv table u ∧ Later s.table u.table := by
  cases l with
  | call old =>
    cases hs
    exact ⟨inv_call h old, Later.refl _⟩
  | get i new =>
    refine ⟨inv_get h hs, ?_⟩
    obtain ⟨old, -, -, rfl⟩ := step_get hs
    exact Later.refl _
  | commit i =>
    obtain ⟨old, new, tokenRow, at_i, rfl⟩ := step_commit hs
    obtain ⟨absent, known, -⟩ := h.pending i old new tokenRow at_i
    exact ⟨inv_commit h at_i, later_commit absent known⟩

/-- In every run from any table the tokens have their lineage, and between any two states
of it rows stay, keep their user and stay revoked. -/
theorem rotations_lineage {before after : List (Label Token)} (start : Runs step ⟨table, []⟩ before s)
    (run : Runs step s after u) : Lineage table u ∧ Later s.table u.table := by
  have inv : Inv table s := start.invariant (Inv table) (inv_initial table)
    (fun _ _ _ h hs => (step_inv h hs).1)
  have both := run.invariant (fun u => Inv table u ∧ Later s.table u.table) ⟨inv, Later.refl _⟩
    (fun _ _ _ h hs => ⟨(step_inv h.1 hs).1, h.2.trans (step_inv h.1 hs).2⟩)
  exact ⟨lineage_of_inv both.1, both.2⟩

end Invariant

section Examples

def userSeven (t : ℕ) : Option (RefreshToken ℕ) := if t = 0 then some ⟨7, false⟩ else none

/-- Two calls that both read the token before either commits, and a third on its child. -/
def rotatedTwice : List (Label ℕ) :=
  [.call 0, .call 0, .get 0 1, .get 1 2, .commit 0, .commit 1, .call 2, .get 2 3, .commit 2]

theorem rotatedTwice_lineage : ∃ s u : State ℕ ℕ, Runs step ⟨userSeven, []⟩ [] s ∧
    Runs step s rotatedTwice u ∧ u.table 3 = some ⟨7, false⟩ ∧
    Lineage userSeven u ∧ Later s.table u.table := by
  obtain ⟨u, run, here⟩ : ∃ u : State ℕ ℕ, Runs step ⟨userSeven, []⟩ rotatedTwice u ∧
      u.table 3 = some ⟨7, false⟩ := ⟨_, Runs.of_execute rfl, rfl⟩
  exact ⟨_, u, .nil _, run, here, rotations_lineage (.nil _) run⟩

end Examples

end FastapiProject.RefreshLineage

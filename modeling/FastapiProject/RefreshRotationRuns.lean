import Mathlib.Tactic.Cases
import FastapiProject.IndexedLists
import FastapiProject.RefreshRotation

set_option autoImplicit false

/-!
# When a refresh token is single-use

Rotations are the edges of a forest whose live tokens are its leaves. As long as no
commit finds its token revoked already, every token has one child at most and the forest
is made of chains, which have one leaf each.
-/
namespace FastapiProject.RefreshRotationRuns
open PythonExceptions MachineRuns IndexedLists RefreshRotation

/-- In a relation where each element has at most one successor, at most one element
without successors can be reached from any place. -/
theorem subsingleton_leaves {α : Type} {r : α → α → Prop} {P : α → Prop}
    (unique : Relator.RightUnique r) (leaf : ∀ a b, r a b → ¬ P a) (t : α) :
    { d | Relation.ReflTransGen r t d ∧ P d }.Subsingleton := by
  have stuck {a b : α} (ha : P a) (hab : Relation.ReflTransGen r a b) : a = b := by
    cases hab.cases_head with
    | inl same => exact same
    | inr next =>
      obtain ⟨c, hac, -⟩ := next
      exact absurd ha (leaf a c hac)
  rintro a ⟨hta, ha⟩ b ⟨htb, hb⟩
  rcases Relation.ReflTransGen.total_of_right_unique unique hta htb with hab | hba
  · exact stuck ha hab
  · exact (stuck hb hba).symm

variable {Token User : Type}

structure Inv (s : State Token User) : Prop where
  pending : ∀ (i : ℕ) old new tokenRow, s.calls[i]? = some (Call.committing old new tokenRow) →
    s.table old ≠ none ∧ s.table new = none
  spent : ∀ (i : ℕ) old new, s.calls[i]? = some (Call.returned old new) →
    (∃ row, s.table old = some row ∧ row.revoked = true) ∧ s.table new ≠ none
  fresh : ∀ (i j : ℕ) c c' new, s.calls[i]? = some c → s.calls[j]? = some c' →
    c.newToken = some new → c'.newToken = some new → i = j
  once : ∀ (i j : ℕ) old new new', s.calls[i]? = some (Call.returned old new) →
    s.calls[j]? = some (Call.returned old new') → i = j
  raced : ∀ (i : ℕ) old new tokenRow, s.calls[i]? = some (Call.committing old new tokenRow) →
    Live s old ∨ ∃ (j : ℕ) (b : Token), s.calls[j]? = some (Call.returned old b)
  refused : ∀ (i : ℕ) old e, s.calls[i]? = some (Call.raised old e) → e = invalidRefreshToken

theorem inv_initial (table : Token → Option (RefreshToken User)) : Inv ⟨table, []⟩ := by
  constructor <;> simp

theorem inv_singleUse {s : State Token User} (h : Inv s) : SingleUse s := by
  intro i j old new c hi hj hold ended
  cases c with
  | returned old' new' =>
    change old' = old at hold
    subst hold
    exact .inl (h.once j i old' new' new hj hi)
  | raised old' e =>
    change old' = old at hold
    subst hold
    exact .inr (by rw [h.refused j old' e hj])
  | reading _ | committing _ _ _ => exact ended.elim

theorem inv_oneLive {s : State Token User} (h : Inv s)
    (table : Token → Option (RefreshToken User)) : OneLiveDescendant table s := by
  intro t _
  refine subsingleton_leaves ?_ ?_ t
  · rintro a b c ⟨i, hi⟩ ⟨j, hj⟩
    have same := h.once i j a b c hi hj
    subst same
    have eq := hi.symm.trans hj
    simpa using eq
  · rintro a b ⟨i, hi⟩ ⟨row, hrow, hlive⟩
    obtain ⟨⟨row', hrow', hrevoked⟩, -⟩ := h.spent i a b hi
    rw [hrow] at hrow'
    cases hrow'
    rw [hlive] at hrevoked
    cases hrevoked

theorem inv_call {s : State Token User} (h : Inv s) (old : Token) :
    Inv { s with calls := s.calls ++ [.reading old] } := by
  have earlier {i : ℕ} {c : Call Token User} (hc : (s.calls ++ [.reading old])[i]? = some c)
      (hne : c ≠ .reading old) : s.calls[i]? = some c := by
    rw [List.getElem?_append] at hc
    split at hc
    · exact hc
    · have last := List.mem_of_getElem? hc
      simp only [List.mem_singleton] at last
      exact absurd last hne
  have kept {i : ℕ} {c : Call Token User} (hc : s.calls[i]? = some c) :
      (s.calls ++ [.reading old])[i]? = some c := by
    rw [List.getElem?_append_left (List.getElem?_eq_some_iff.mp hc).choose]
    exact hc
  refine ⟨?_, ?_, ?_, ?_, ?_, ?_⟩
  · exact fun i old' new row hi => h.pending i old' new row (earlier hi (by simp))
  · exact fun i old' new hi => h.spent i old' new (earlier hi (by simp))
  · intro i j c c' new hi hj hc hc'
    have generated {c : Call Token User} (hn : c.newToken = some new) : c ≠ .reading old := by
      rintro rfl
      cases hn
    exact h.fresh i j c c' new (earlier hi (generated hc)) (earlier hj (generated hc')) hc hc'
  · exact fun i j old' new new' hi hj =>
      h.once i j old' new new' (earlier hi (by simp)) (earlier hj (by simp))
  · intro i old' new row hi
    rcases h.raced i old' new row (earlier hi (by simp)) with live | ⟨j, b, hj⟩
    · exact .inl live
    · exact .inr ⟨j, b, kept hj⟩
  · exact fun i old' e hi => h.refused i old' e (earlier hi (by simp))

theorem inv_refuse {s : State Token User} (h : Inv s) {i : ℕ} {old : Token}
    (hi : s.calls[i]? = some (Call.reading old)) :
    Inv { s with calls := s.calls.set i (.raised old invalidRefreshToken) } := by
  have earlier {j : ℕ} {c : Call Token User}
      (hj : (s.calls.set i (.raised old invalidRefreshToken))[j]? = some c)
      (hne : c ≠ .raised old invalidRefreshToken) : s.calls[j]? = some c := by
    rcases getElem?_set_cases hj with ⟨-, same⟩ | ⟨-, hj⟩
    · exact absurd same hne
    · exact hj
  refine ⟨?_, ?_, ?_, ?_, ?_, ?_⟩
  · exact fun j a b row hj => h.pending j a b row (earlier hj (by simp))
  · exact fun j a b hj => h.spent j a b (earlier hj (by simp))
  · intro j k c c' t hj hk hc hc'
    have generated {c : Call Token User} (hn : c.newToken = some t) :
        c ≠ .raised old invalidRefreshToken := by
      rintro rfl
      cases hn
    exact h.fresh j k c c' t (earlier hj (generated hc)) (earlier hk (generated hc')) hc hc'
  · exact fun j k a b b' hj hk => h.once j k a b b' (earlier hj (by simp)) (earlier hk (by simp))
  · intro j a b row hj
    rcases h.raced j a b row (earlier hj (by simp)) with live | ⟨k, b, hk⟩
    · exact .inl live
    · exact .inr ⟨k, b, getElem?_set_other hi hk (by simp)⟩
  · intro j a e hj
    rcases getElem?_set_cases hj with ⟨-, same⟩ | ⟨-, hj⟩
    · cases same
      rfl
    · exact h.refused j a e hj

theorem inv_mark {s : State Token User} (h : Inv s) {i : ℕ} {old new : Token}
    {row : RefreshToken User} (hi : s.calls[i]? = some (Call.reading old))
    (hrow : s.table old = some row) (unrevoked : row.revoked = false) (unused : s.table new = none)
    (unseen : ∀ c ∈ s.calls, c.newToken ≠ some new) :
    Inv { s with calls := s.calls.set i (.committing old new row) } := by
  have returned {j : ℕ} {a b : Token}
      (hj : (s.calls.set i (.committing old new row))[j]? = some (Call.returned a b)) :
      s.calls[j]? = some (Call.returned a b) := by
    rcases getElem?_set_cases hj with ⟨-, same⟩ | ⟨-, hj⟩
    · cases same
    · exact hj
  refine ⟨?_, ?_, ?_, ?_, ?_, ?_⟩
  · intro j a b row' hj
    rcases getElem?_set_cases hj with ⟨-, same⟩ | ⟨-, hj⟩
    · cases same
      exact ⟨by simp [hrow], unused⟩
    · exact h.pending j a b row' hj
  · exact fun j a b hj => h.spent j a b (returned hj)
  · intro j k c c' t hj hk hc hc'
    rcases getElem?_set_cases hj with ⟨rfl, rfl⟩ | ⟨-, before⟩
    · rcases getElem?_set_cases hk with ⟨rfl, rfl⟩ | ⟨-, before⟩
      · rfl
      · cases hc
        exact absurd hc' (unseen c' (List.mem_of_getElem? before))
    · rcases getElem?_set_cases hk with ⟨rfl, rfl⟩ | ⟨-, hk⟩
      · cases hc'
        exact absurd hc (unseen c (List.mem_of_getElem? before))
      · exact h.fresh j k c c' t before hk hc hc'
  · exact fun j k a b b' hj hk => h.once j k a b b' (returned hj) (returned hk)
  · intro j a b row' hj
    rcases getElem?_set_cases hj with ⟨-, same⟩ | ⟨-, hj⟩
    · cases same
      exact .inl ⟨row, hrow, unrevoked⟩
    · rcases h.raced j a b row' hj with live | ⟨k, b, hk⟩
      · exact .inl live
      · exact .inr ⟨k, b, getElem?_set_other hi hk (by simp)⟩
  · intro j a e hj
    rcases getElem?_set_cases hj with ⟨-, same⟩ | ⟨-, hj⟩
    · cases same
    · exact h.refused j a e hj

theorem live_not_spent {s : State Token User} (h : Inv s) {t : Token} (live : Live s t) (j : ℕ)
    (b : Token) : s.calls[j]? ≠ some (Call.returned t b) := by
  intro hj
  obtain ⟨⟨row, hrow, hrevoked⟩, -⟩ := h.spent j t b hj
  obtain ⟨row', hrow', hlive⟩ := live
  rw [hrow] at hrow'
  cases hrow'
  rw [hlive] at hrevoked
  cases hrevoked

section Steps
variable [DecidableEq Token] {s u : State Token User}

theorem inv_get (h : Inv s) {i : ℕ} {new : Token} (hs : step s (.get i new) = some u) : Inv u := by
  obtain ⟨old, hi, ⟨unused, unseen⟩, rfl⟩ := step_get hs
  have absent := Option.isNone_iff_eq_none.mp unused
  cases hrow : s.table old with
  | none => exact inv_refuse h hi
  | some row =>
    cases hrevoked : row.revoked with
    | true => simpa only [rotateRefreshToken, hrevoked, ↓reduceIte] using inv_refuse h hi
    | false =>
      simpa only [rotateRefreshToken, hrevoked, Bool.false_eq_true, ↓reduceIte] using
        inv_mark h hi hrow hrevoked absent unseen

theorem inv_commit (h : Inv s) {i : ℕ} {old new : Token} {tokenRow : RefreshToken User}
    (hi : s.calls[i]? = some (Call.committing old new tokenRow)) (live : Live s old) :
    Inv ⟨commitSession s.table old new tokenRow, s.calls.set i (.returned old new)⟩ := by
  obtain ⟨oldThere, newAbsent⟩ := h.pending i old new tokenRow hi
  have hne : old ≠ new := fun same => oldThere (same ▸ newAbsent)
  have other {t : Token} (ht : s.table t ≠ none) (ho : t ≠ old) :
      commitSession s.table old new tokenRow t = s.table t :=
    commitSession_other _ _ ho (fun hn => ht (hn ▸ newAbsent))
  have stays {t : Token} (ht : s.table t ≠ none) :
      commitSession s.table old new tokenRow t ≠ none := by
    by_cases ho : t = old
    · rw [ho, commitSession_old _ _ hne]
      exact Option.some_ne_none _
    · rwa [other ht ho]
  have before {j : ℕ} {c : Call Token User} (hj : (s.calls.set i (.returned old new))[j]? = some c) :
      ∃ d, s.calls[j]? = some d ∧ d.newToken = c.newToken := by
    rcases getElem?_set_cases hj with ⟨rfl, rfl⟩ | ⟨-, hj⟩
    · exact ⟨_, hi, rfl⟩
    · exact ⟨c, hj, rfl⟩
  refine ⟨?_, ?_, ?_, ?_, ?_, ?_⟩
  · intro j old' new' row hj
    rcases getElem?_set_cases hj with ⟨-, same⟩ | ⟨hji, hj⟩
    · cases same
    · obtain ⟨oldThere', newAbsent'⟩ := h.pending j old' new' row hj
      have ho : new' ≠ old := fun same => oldThere (same ▸ newAbsent')
      have hn : new' ≠ new := fun same => hji (h.fresh j i _ _ new' hj hi rfl (same ▸ rfl))
      exact ⟨stays oldThere', (commitSession_other _ _ ho hn).trans newAbsent'⟩
  · intro j a b hj
    rcases getElem?_set_cases hj with ⟨-, same⟩ | ⟨-, hj⟩
    · cases same
      refine ⟨⟨_, commitSession_old _ _ hne, rfl⟩, ?_⟩
      change commitSession s.table old new tokenRow new ≠ none
      rw [commitSession_new]
      exact Option.some_ne_none _
    · obtain ⟨⟨row, hrow, hrevoked⟩, hb⟩ := h.spent j a b hj
      have ho : a ≠ old := fun same => live_not_spent h live j b (same ▸ hj)
      exact ⟨⟨row, (other (by simp [hrow]) ho).trans hrow, hrevoked⟩, stays hb⟩
  · intro j k c c' t hj hk hc hc'
    obtain ⟨d, hd, hdc⟩ := before hj
    obtain ⟨d', hd', hdc'⟩ := before hk
    exact h.fresh j k d d' t hd hd' (hdc.trans hc) (hdc'.trans hc')
  · intro j k a b b' hj hk
    rcases getElem?_set_cases hj with ⟨rfl, same⟩ | ⟨-, hj⟩
    · cases same
      rcases getElem?_set_cases hk with ⟨rfl, -⟩ | ⟨-, hk⟩
      · rfl
      · exact absurd hk (live_not_spent h live k b')
    · rcases getElem?_set_cases hk with ⟨-, same⟩ | ⟨-, hk⟩
      · cases same
        exact absurd hj (live_not_spent h live j b)
      · exact h.once j k a b b' hj hk
  · intro j old' new' row hj
    rcases getElem?_set_cases hj with ⟨-, same⟩ | ⟨-, hj⟩
    · cases same
    · rcases h.raced j old' new' row hj with ⟨row', hrow', hlive⟩ | ⟨k, b, hk⟩
      · by_cases ho : old' = old
        · exact .inr ⟨i, new, ho ▸ getElem?_set_here hi _⟩
        · exact .inl ⟨row', (other (by simp [hrow']) ho).trans hrow', hlive⟩
      · exact .inr ⟨k, b, getElem?_set_other hi hk (by simp)⟩
  · intro j old' e hj
    rcases getElem?_set_cases hj with ⟨-, same⟩ | ⟨-, hj⟩
    · cases same
    · exact h.refused j old' e hj

/-- The commit finds the token it rotates unrevoked: no other call has committed a
rotation of it since this one read its row. -/
def CommitFindsLive (s : State Token User) (l : Label Token) (_ : State Token User) : Prop :=
  ∀ i old new tokenRow, l = .commit i → s.calls[i]? = some (Call.committing old new tokenRow) →
    Live s old

theorem inv_step (h : Inv s) {l : Label Token} (hs : step s l = some u)
    (good : CommitFindsLive s l u) : Inv u := by
  cases l with
  | call old => cases hs; exact inv_call h old
  | get i new => exact inv_get h hs
  | commit i =>
    obtain ⟨old, new, tokenRow, hi, rfl⟩ := step_commit hs
    exact inv_commit h hi (good i old new tokenRow rfl hi)

theorem late_commit_returns_twice (h : Inv s) {i : ℕ} {old new : Token}
    {tokenRow : RefreshToken User} (hi : s.calls[i]? = some (Call.committing old new tokenRow))
    (revoked : ¬ Live s old) :
    ¬ SingleUse ⟨commitSession s.table old new tokenRow, s.calls.set i (.returned old new)⟩ := by
  rcases h.raced i old new tokenRow hi with live | ⟨j, b, hj⟩
  · exact absurd live revoked
  intro single
  have both := single i j old new (.returned old b) (getElem?_set_here hi _)
    (getElem?_set_other hi hj (by simp)) rfl trivial
  rcases both with same | failed
  · subst same
    cases hi.symm.trans hj
  · cases failed

/-- In a run from any table, every state has single-use tokens and at most one live
descendant of each live token exactly when every commit finds its token unrevoked. -/
theorem singleUse_iff (table : Token → Option (RefreshToken User)) {ls : List (Label Token)}
    (run : Runs step ⟨table, []⟩ ls u) :
    Along step (fun _ _ u => SingleUse u ∧ OneLiveDescendant table u) ⟨table, []⟩ ls u ↔
      Along step CommitFindsLive ⟨table, []⟩ ls u := by
  apply Runs.along_iff Inv run (inv_initial table) (fun _ _ _ h hs good => inv_step h hs good)
  intro s l u h hs
  constructor
  · rintro ⟨single, -⟩ i old new tokenRow rfl hi
    obtain ⟨old', new', tokenRow', hi', rfl⟩ := step_commit hs
    rw [hi] at hi'
    cases hi'
    by_contra revoked
    exact late_commit_returns_twice h hi revoked single
  · intro good
    have next := inv_step h hs good
    exact ⟨inv_singleUse next, inv_oneLive next table⟩

end Steps

def oneToken (t : ℕ) : Option (RefreshToken ℕ) := if t = 0 then some ⟨7, false⟩ else none

theorem sequential_singleUse : ∃ u : State ℕ ℕ,
    Along step (fun _ _ u => SingleUse u ∧ OneLiveDescendant oneToken u) ⟨oneToken, []⟩
      [.call 0, .get 0 1, .commit 0, .call 0, .get 1 2] u := by
  refine ⟨_, (singleUse_iff oneToken (Runs.of_execute rfl)).mpr ?_⟩
  refine .cons rfl (fun _ _ _ _ hl => nomatch hl) (.cons rfl (fun _ _ _ _ hl => nomatch hl)
    (.cons rfl ?_ (.cons rfl (fun _ _ _ _ hl => nomatch hl)
      (.cons rfl (fun _ _ _ _ hl => nomatch hl) (.nil _)))))
  intro i old new row hl hi
  cases hl
  cases Option.some.inj hi
  exact ⟨_, rfl, rfl⟩

/-- Two calls that read the same token before either commits both return. -/
theorem double_submit_returns_twice : ¬ ∀ (ls : List (Label ℕ)) (u : State ℕ ℕ),
    Runs step ⟨oneToken, []⟩ ls u → SingleUse u ∧ OneLiveDescendant oneToken u := by
  intro h
  have single := (h [.call 0, .call 0, .get 0 1, .get 1 2, .commit 0, .commit 1] _
    (Runs.of_execute rfl)).1
  rcases single 0 1 0 1 (.returned 0 2) rfl rfl rfl trivial with same | failed
  · cases same
  · cases failed

end FastapiProject.RefreshRotationRuns

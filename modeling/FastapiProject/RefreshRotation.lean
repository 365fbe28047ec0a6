import Mathlib.Logic.Relation
import Mathlib.Logic.Function.Basic
import Mathlib.Data.Set.Subsingleton
import FastapiProject.MachineRuns
import FastapiProject.PythonExceptions

set_option autoImplicit false

/-!
# Concurrent calls of `rotate_refresh_token`

`auth/refresh.py`. A call is suspended twice, at `db.get` and at `db.commit`; what it
does between the two is one step. Every call has a session of its own, so the table
changes only when a session commits.
-/
namespace FastapiProject.RefreshRotation
open PythonExceptions MachineRuns

variable {Token User : Type}

structure RefreshToken (User : Type) where
  userId : User
  revoked : Bool
  deriving DecidableEq, Repr

inductive Call (Token User : Type) where
  | reading (old : Token)
  | committing (old new : Token) (tokenRow : RefreshToken User)
  | returned (old new : Token)
  | raised (old : Token) (e : Exn)
  deriving DecidableEq, Repr

structure State (Token User : Type) where
  table : Token → Option (RefreshToken User)
  calls : List (Call Token User)

def invalidRefreshToken : Exn := .httpException 401 "Invalid refresh token"

/-- Everything between the two awaits. -/
def rotateRefreshToken (old : Token) (tokenRow : Option (RefreshToken User)) (newToken : Token) :
    Call Token User :=
  match tokenRow with
  | none => .raised old invalidRefreshToken
  | some row => if row.revoked = true then .raised old invalidRefreshToken
      else .committing old newToken row

def Call.newToken : Call Token User → Option Token
  | .committing _ new _ | .returned _ new => some new
  | .reading _ | .raised _ _ => none

def Call.oldToken : Call Token User → Token
  | .reading old | .committing old _ _ | .returned old _ | .raised old _ => old

def Call.Ended : Call Token User → Prop
  | .returned _ _ | .raised _ _ => True
  | .reading _ | .committing _ _ _ => False

inductive Label (Token : Type) where
  | call (old : Token)
  | get (i : ℕ) (newToken : Token)
  | commit (i : ℕ)

section Step
variable [DecidableEq Token]

/-- The session's changes: the old row marked, the new row added. -/
def commitSession (table : Token → Option (RefreshToken User)) (old new : Token)
    (tokenRow : RefreshToken User) : Token → Option (RefreshToken User) :=
  Function.update (Function.update table old (some { tokenRow with revoked := true }))
    new (some ⟨tokenRow.userId, false⟩)

/-- `secrets.token_urlsafe` never repeats a token that exists or was handed out. -/
def State.Fresh (s : State Token User) (new : Token) : Prop :=
  (s.table new).isNone ∧ ∀ c ∈ s.calls, c.newToken ≠ some new

instance (s : State Token User) (new : Token) : Decidable (s.Fresh new) :=
  inferInstanceAs (Decidable (_ ∧ _))

def step (s : State Token User) : Label Token → Option (State Token User)
  | .call old => some { s with calls := s.calls ++ [.reading old] }
  | .get i new =>
    match s.calls[i]? with
    | some (.reading old) =>
      if s.Fresh new then
        some { s with calls := s.calls.set i (rotateRefreshToken old (s.table old) new) }
      else none
    | _ => none
  | .commit i =>
    match s.calls[i]? with
    | some (.committing old new tokenRow) =>
      some ⟨commitSession s.table old new tokenRow, s.calls.set i (.returned old new)⟩
    | _ => none

theorem step_get {s u : State Token User} {i : ℕ} {new : Token} (h : step s (.get i new) = some u) :
    ∃ old, s.calls[i]? = some (.reading old) ∧ s.Fresh new ∧
      u = { s with calls := s.calls.set i (rotateRefreshToken old (s.table old) new) } := by
  simp only [step] at h
  split at h
  · rename_i old hi
    split at h
    · rename_i fresh
      exact ⟨old, hi, fresh, (Option.some.inj h).symm⟩
    · cases h
  · cases h

theorem step_commit {s u : State Token User} {i : ℕ} (h : step s (.commit i) = some u) :
    ∃ old new tokenRow, s.calls[i]? = some (.committing old new tokenRow) ∧
      u = ⟨commitSession s.table old new tokenRow, s.calls.set i (.returned old new)⟩ := by
  simp only [step] at h
  split at h
  · rename_i old new tokenRow hi
    exact ⟨old, new, tokenRow, hi, (Option.some.inj h).symm⟩
  · cases h

section Table
variable (table : Token → Option (RefreshToken User)) {old new t : Token}
  (tokenRow : RefreshToken User)

theorem commitSession_new : commitSession table old new tokenRow new =
    some ⟨tokenRow.userId, false⟩ := Function.update_self _ _ _

theorem commitSession_old (hne : old ≠ new) : commitSession table old new tokenRow old =
    some { tokenRow with revoked := true } := by
  rw [commitSession, Function.update_of_ne hne, Function.update_self]

theorem commitSession_other (ho : t ≠ old) (hn : t ≠ new) :
    commitSession table old new tokenRow t = table t := by
  rw [commitSession, Function.update_of_ne hn, Function.update_of_ne ho]

end Table
end Step

def Live (s : State Token User) (t : Token) : Prop :=
  ∃ row, s.table t = some row ∧ row.revoked = false

def Rotated (s : State Token User) (a b : Token) : Prop :=
  ∃ i : ℕ, s.calls[i]? = some (Call.returned a b)

def Descends (s : State Token User) : Token → Token → Prop := Relation.ReflTransGen (Rotated s)

/-- At most one call for a token returns, and every other one that ended raised the 401. -/
def SingleUse (s : State Token User) : Prop :=
  ∀ (i j : ℕ) (old new : Token) (c : Call Token User), s.calls[i]? = some (Call.returned old new) →
    s.calls[j]? = some c → c.oldToken = old → c.Ended →
      j = i ∨ c = .raised old invalidRefreshToken

/-- Of the tokens that descend from a token live in `table`, at most one is unrevoked. -/
def OneLiveDescendant (table : Token → Option (RefreshToken User)) (s : State Token User) : Prop :=
  ∀ t, Live ⟨table, []⟩ t → { d | Descends s t d ∧ Live s d }.Subsingleton

end FastapiProject.RefreshRotation

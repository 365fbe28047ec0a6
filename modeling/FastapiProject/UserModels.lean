import Mathlib.Data.Int.Notation
import Mathlib.Data.List.Basic

set_option autoImplicit false

/-!
# The request body of a new user

`models/user.py`. Strings are stripped first, the field validators run next, each on its
own field, and the model validator runs when all of them have passed.
-/
namespace FastapiProject.UserModels

/-- The whitespace that pydantic strips, and `str.lower`. -/
structure StrOps where
  isSpace : Char → Bool
  lower : String → String

def StrOps.strip (ops : StrOps) (v : String) : String :=
  String.ofList ((v.toList.dropWhile ops.isSpace).reverse.dropWhile ops.isSpace).reverse

/-- The fields as they come; the role may be left out. -/
structure UserBody where
  name : String
  email : String
  age : ℤ
  role : Option String
  deriving DecidableEq, Repr

structure UserCreate where
  name : String
  email : String
  age : ℤ
  role : String
  deriving DecidableEq, Repr

/-- One validation error: the field, or "" for the model as a whole, and the validator's own
text, which the 422 answer puts after "Value error, ". -/
structure FieldError where
  loc : String
  msg : String
  deriving DecidableEq, Repr

def emailMustHaveAt (ops : StrOps) (v : String) : Except String String :=
  if '@' ∉ v.toList then .error "Invalid email address" else .ok (ops.lower v)

def ageMustBePositive (v : ℤ) : Except String ℤ :=
  if v < 0 then .error "Age must be positive" else .ok v

def adminMustBeAdult (user : UserCreate) : Except String UserCreate :=
  if user.role = "admin" ∧ user.age < 18 then .error "Admin users must be 18+" else .ok user

def strippedRole (ops : StrOps) : Option String → String
  | none => "viewer"
  | some role => ops.strip role

def fieldErrors (loc : String) {α : Type} : Except String α → List FieldError
  | .ok _ => []
  | .error msg => [⟨loc, msg⟩]

def validate (ops : StrOps) (body : UserBody) : Except (List FieldError) UserCreate :=
  match emailMustHaveAt ops (ops.strip body.email), ageMustBePositive body.age with
  | .ok email, .ok age =>
    match adminMustBeAdult ⟨ops.strip body.name, email, age, strippedRole ops body.role⟩ with
    | .ok user => .ok user
    | .error msg => .error [⟨"", msg⟩]
  | email, age => .error (fieldErrors "email" email ++ fieldErrors "age" age)

section Validators
variable {ops : StrOps}

theorem emailMustHaveAt_ok_iff {v email : String} :
    emailMustHaveAt ops v = .ok email ↔ '@' ∈ v.toList ∧ email = ops.lower v := by
  rw [emailMustHaveAt]
  split
  · rename_i missing
    exact ⟨by rintro ⟨⟩, fun h => absurd h.1 missing⟩
  · rename_i present
    rw [not_not] at present
    exact ⟨fun h => ⟨present, (Except.ok.inj h).symm⟩, fun h => congrArg _ h.2.symm⟩

theorem ageMustBePositive_ok_iff {v age : ℤ} :
    ageMustBePositive v = .ok age ↔ 0 ≤ v ∧ age = v := by
  rw [ageMustBePositive]
  split
  · rename_i negative
    exact ⟨by rintro ⟨⟩, fun h => absurd negative (by omega)⟩
  · rename_i positive
    exact ⟨fun h => ⟨by omega, (Except.ok.inj h).symm⟩, fun h => congrArg _ h.2.symm⟩

theorem adminMustBeAdult_ok_iff {user created : UserCreate} :
    adminMustBeAdult user = .ok created ↔ (user.role = "admin" → 18 ≤ user.age) ∧ created = user := by
  rw [adminMustBeAdult]
  split
  · rename_i minor
    exact ⟨by rintro ⟨⟩, fun h => absurd (h.1 minor.1) (by omega)⟩
  · rename_i grown
    refine ⟨fun h => ⟨fun admin => ?_, (Except.ok.inj h).symm⟩, fun h => congrArg _ h.2.symm⟩
    by_contra young
    exact grown ⟨admin, by omega⟩

theorem validate_ok_iff {body : UserBody} {user : UserCreate} : validate ops body = .ok user ↔
    '@' ∈ (ops.strip body.email).toList ∧ 0 ≤ body.age ∧
      (strippedRole ops body.role = "admin" → 18 ≤ body.age) ∧
      user = ⟨ops.strip body.name, ops.lower (ops.strip body.email), body.age,
        strippedRole ops body.role⟩ := by
  rw [validate]
  split
  · rename_i email age hemail hage
    rw [emailMustHaveAt_ok_iff] at hemail
    rw [ageMustBePositive_ok_iff] at hage
    obtain ⟨present, rfl⟩ := hemail
    obtain ⟨positive, rfl⟩ := hage
    cases checked : adminMustBeAdult ⟨ops.strip body.name, ops.lower (ops.strip body.email),
        body.age, strippedRole ops body.role⟩ with
    | ok created =>
      obtain ⟨adult, rfl⟩ := adminMustBeAdult_ok_iff.mp checked
      exact ⟨fun h => ⟨present, positive, adult, (Except.ok.inj h).symm⟩,
        fun h => congrArg _ h.2.2.2.symm⟩
    | error msg =>
      refine ⟨by rintro ⟨⟩, fun h => ?_⟩
      have passed := adminMustBeAdult_ok_iff.mpr ⟨h.2.2.1, h.2.2.2⟩
      rw [checked] at passed
      cases passed
  · rename_i refused
    refine ⟨by rintro ⟨⟩, fun h => ?_⟩
    exact absurd (ageMustBePositive_ok_iff.mpr ⟨h.2.1, rfl⟩)
      (refused _ _ (emailMustHaveAt_ok_iff.mpr ⟨h.1, rfl⟩))

end Validators

section Examples

def asciiOps : StrOps := ⟨Char.isWhitespace, fun v => String.ofList (v.toList.map Char.toLower)⟩

def ann : UserBody := ⟨" Ann ", "Ann@Example.com", 30, some "admin"⟩

example : validate asciiOps ann = .ok ⟨"Ann", "ann@example.com", 30, "admin"⟩ := by decide

end Examples

end FastapiProject.UserModels

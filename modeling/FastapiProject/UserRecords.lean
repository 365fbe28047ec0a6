import FastapiProject.UserRequests

set_option autoImplicit false

/-!
# Users as dictionaries

What comes in and what goes out: `UserCreate` read from the object of a request body, the
dictionary that `create_user` stores, and `UserResponse` read from that dictionary by
`list_users`. An id is a `str`.
-/
namespace FastapiProject.UserRecords
open PythonExceptions UserModels UserRequests

variable {Time Other : Type}

/-- A value of a dictionary; the classes do not tell the other types apart. -/
inductive Value (Time Other : Type) where
  | str (v : String)
  | int (v : ℤ)
  | datetime (v : Time)
  | other (v : Other)
  deriving DecidableEq, Repr

/-- What pydantic makes of a value of another type for an `int` or a `datetime`, or the
message of its error. -/
structure Lax (Time Other : Type) where
  int : Value Time Other → Except String ℤ
  datetime : Value Time Other → Except String Time

def readStr : Value Time Other → Except String String
  | .str v => .ok v
  | _ => .error "Input should be a valid string"

def readInt (lax : Lax Time Other) : Value Time Other → Except String ℤ
  | .int v => .ok v
  | v => lax.int v

def readDatetime (lax : Lax Time Other) : Value Time Other → Except String Time
  | .datetime v => .ok v
  | v => lax.datetime v

section Fields
variable {α : Type} (entries : List (String × Value Time Other))

def required (read : Value Time Other → Except String α) (field : String) : Except String α :=
  match dictGet entries field with
  | none => .error "Field required"
  | some v => read v

def optional (read : Value Time Other → Except String α) (field : String) (default : α) :
    Except String α :=
  match dictGet entries field with
  | none => .ok default
  | some v => read v

end Fields

section Create
variable (ops : StrOps) (lax : Lax Time Other) (entries : List (String × Value Time Other))

def readStripped (v : Value Time Other) : Except String String := (readStr v).map ops.strip

/-- `UserCreate`: the fields by their names, each with its validator, whatever other keys
there are; the default of the role is taken as it stands. -/
def userCreate : Except (List FieldError) UserCreate :=
  match required entries (readStripped ops) "name",
    (required entries (readStripped ops) "email").bind (emailMustHaveAt ops),
    (required entries (readInt lax) "age").bind ageMustBePositive,
    optional entries (readStripped ops) "role" "viewer" with
  | .ok name, .ok email, .ok age, .ok role =>
    match adminMustBeAdult ⟨name, email, age, role⟩ with
    | .ok user => .ok user
    | .error msg => .error [⟨"", msg⟩]
  | name, email, age, role => .error (fieldErrors "name" name ++ fieldErrors "email" email ++
      fieldErrors "age" age ++ fieldErrors "role" role)

end Create

def modelDump (user : UserCreate) : List (String × Value Time Other) :=
  [("name", .str user.name), ("email", .str user.email), ("age", .int user.age),
    ("role", .str user.role)]

/-- The dictionary of `create_user`; the dump of the body has the last word. -/
def newRecord (id : String) (now : Time) (body : UserCreate) : List (String × Value Time Other) :=
  dictUpdate [("id", .str id), ("created_at", .datetime now)] (modelDump body)

structure UserResponse (Time : Type) where
  id : String
  name : String
  email : String
  age : ℤ
  role : String
  createdAt : Time
  deriving DecidableEq, Repr

def UserResponse.isAdmin (user : UserResponse Time) : Bool := user.role = "admin"

/-- `UserResponse` read from a stored dictionary. -/
def userResponse (lax : Lax Time Other) (entries : List (String × Value Time Other)) :
    Except (List FieldError) (UserResponse Time) :=
  match required entries readStr "id", required entries readStr "name",
    required entries readStr "email", required entries (readInt lax) "age",
    required entries readStr "role", required entries (readDatetime lax) "created_at" with
  | .ok id, .ok name, .ok email, .ok age, .ok role, .ok createdAt =>
    .ok ⟨id, name, email, age, role, createdAt⟩
  | id, name, email, age, role, createdAt =>
    .error (fieldErrors "id" id ++ fieldErrors "name" name ++ fieldErrors "email" email ++
      fieldErrors "age" age ++ fieldErrors "role" role ++ fieldErrors "created_at" createdAt)

def bodyEntries (body : UserBody) : List (String × Value Time Other) :=
  [("name", .str body.name), ("email", .str body.email), ("age", .int body.age)] ++
    body.role.toList.map fun role => ("role", .str role)

def record (user : User String Time) : List (String × Value Time Other) :=
  [("id", .str user.id), ("created_at", .datetime user.createdAt), ("name", .str user.name),
    ("email", .str user.email), ("age", .int user.age), ("role", .str user.role)]

def fields (user : User String Time) : UserCreate := ⟨user.name, user.email, user.age, user.role⟩

def response (user : User String Time) : UserResponse Time :=
  ⟨user.id, user.name, user.email, user.age, user.role, user.createdAt⟩

section Read
variable (ops : StrOps) (lax : Lax Time Other)

theorem optional_role (body : UserBody) :
    optional (bodyEntries body) (readStripped ops : Value Time Other → _) "role" "viewer" =
      .ok (strippedRole ops body.role) := by
  obtain ⟨name, email, age, role⟩ := body
  cases role with
  | none => simp [optional, bodyEntries, dictGet, strippedRole]
  | some role => simp [optional, bodyEntries, dictGet, readStripped, readStr, strippedRole, Except.map]

theorem userCreate_bodyEntries (body : UserBody) :
    userCreate ops lax (bodyEntries body) = validate ops body := by
  have name : required (bodyEntries body) (readStripped ops : Value Time Other → _) "name" =
      .ok (ops.strip body.name) := by
    simp [required, bodyEntries, dictGet, readStripped, readStr, Except.map]
  have email : required (bodyEntries body) (readStripped ops : Value Time Other → _) "email" =
      .ok (ops.strip body.email) := by
    simp [required, bodyEntries, dictGet, readStripped, readStr, Except.map]
  have age : required (bodyEntries body) (readInt lax) "age" = .ok body.age := by
    simp [required, bodyEntries, dictGet, readInt]
  rw [userCreate, name, email, age, optional_role, validate]
  simp only [Except.bind]
  cases emailMustHaveAt ops (ops.strip body.email) with
  | error msg => cases ageMustBePositive body.age <;> simp [fieldErrors]
  | ok email =>
    cases ageMustBePositive body.age with
    | error msg => simp [fieldErrors]
    | ok age =>
      cases checked : adminMustBeAdult
        ⟨ops.strip body.name, email, age, strippedRole ops body.role⟩ <;> simp only [checked]

variable {ops lax} {entries : List (String × Value Time Other)}

theorem readStripped_ok {v : Value Time Other} {read : String} (h : readStripped ops v = .ok read) :
    ∃ s, read = ops.strip s := by
  cases v with
  | str s =>
    cases h
    exact ⟨s, rfl⟩
  | _ => cases h

theorem required_ok {α : Type} {read : Value Time Other → Except String α} {field : String} {a : α}
    (h : required entries read field = .ok a) : ∃ v, read v = .ok a := by
  rw [required] at h
  split at h
  · cases h
  · rename_i v _
    exact ⟨v, h⟩

theorem optional_role_ok {role : String}
    (h : optional entries (readStripped ops) "role" "viewer" = .ok role) :
    ∃ r, role = strippedRole ops r := by
  rw [optional] at h
  split at h
  · cases h
    exact ⟨none, rfl⟩
  · obtain ⟨s, rfl⟩ := readStripped_ok h
    exact ⟨some s, rfl⟩

theorem userCreate_ok {user : UserCreate} (h : userCreate ops lax entries = .ok user) :
    ∃ body, validate ops body = .ok user := by
  rw [userCreate] at h
  split at h
  · rename_i name email age role hname hemail hage hrole
    obtain ⟨v, hname⟩ := required_ok hname
    obtain ⟨nameRead, rfl⟩ := readStripped_ok hname
    obtain ⟨stripped, hread, hemail⟩ := bind_ok hemail
    obtain ⟨v, hread⟩ := required_ok hread
    obtain ⟨emailRead, rfl⟩ := readStripped_ok hread
    obtain ⟨ageRead, -, hage⟩ := bind_ok hage
    obtain ⟨roleRead, rfl⟩ := optional_role_ok hrole
    refine ⟨⟨nameRead, emailRead, ageRead, roleRead⟩, ?_⟩
    simp only [validate, hemail, hage]
    exact h
  · cases h

theorem createUser_record (s : State String Time) (body : UserCreate) (id : String) (now : Time) :
    ∃ user, (createUser s body id now).fakeUsersDb = dictSet s.fakeUsersDb id user ∧
      record user = (newRecord id now body : List (String × Value Time Other)) := by
  refine ⟨⟨id, now, body.name, body.email, body.age, body.role⟩, rfl, ?_⟩
  simp [newRecord, record, dictUpdate, dictSet, modelDump]

theorem userResponse_record (user : User String Time) :
    userResponse lax (record user) = .ok (response user) := by
  simp [userResponse, required, record, dictGet, readStr, readInt, readDatetime, response]

end Read

/-- `post` has the object of the body, or the errors of a body that is none. -/
inductive ApiLabel (Time Other : Type) where
  | post (body : Except (List FieldError) (Dict String (Value Time Other))) (id : String) (now : Time)
  | served (l : Label String Time)

section Api
variable (ops : StrOps) (lax : Lax Time Other) (s : State String Time)

def stepApi : ApiLabel Time Other → Option (State String Time)
  | .post body id now =>
    match body.bind fun body => userCreate ops lax body.entries with
    | .error errors => some (s.addRequest (.rejected errors))
    | .ok user => if id ∈ s.issuedIds then none else some (createUser s user id now)
  | .served l => step ops s l

def listUsers : Except (List FieldError) (List (UserResponse Time)) :=
  s.fakeUsersDb.mapM fun entry => userResponse lax (record entry.2)

def bodyDict (body : UserBody) : Dict String (Value Time Other) where
  entries := bodyEntries body
  nodup := by
    obtain ⟨name, email, age, role⟩ := body
    cases role <;> simp [bodyEntries]

def ApiLabel.ofLabel : Label String Time → ApiLabel Time Other
  | .post body id now => .post (.ok (bodyDict body)) id now
  | l => .served l

/-- The requests of `UserRequests` are those whose bodies have the declared types. -/
theorem stepApi_ofLabel (l : Label String Time) : stepApi ops lax s (.ofLabel l) = step ops s l := by
  cases l with
  | post body id now =>
    have read : userCreate ops lax (bodyDict body).entries = validate ops body :=
      userCreate_bodyEntries ops lax body
    cases validated : validate ops body <;>
      simp only [ApiLabel.ofLabel, stepApi, step, Except.bind, read, validated]
  | _ => rfl

end Api

end FastapiProject.UserRecords

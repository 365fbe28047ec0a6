import FastapiProject.TrimmedLists
import FastapiProject.UserRecords

set_option autoImplicit false

/-!
# The users of the store are canonical

What `UserCreate` accepts is what it makes of itself: stripped, with a lower-case email and
an age that goes with the role. `create_user` stores nothing else, under the id that it
has generated.
-/
namespace FastapiProject.CanonicalUsers
open PythonExceptions MachineRuns TrimmedLists UserModels UserRequests UserRecords

variable {Time Other : Type}

/-- What holds of both: `str.lower` is done after one pass, leaves no whitespace at an end,
and keeps a character without case; a letter is no whitespace. -/
structure Lawful (ops : StrOps) : Prop where
  lower_lower : ∀ v, ops.lower (ops.lower v) = ops.lower v
  lower_trimmed : ∀ v, Trimmed ops.isSpace v.toList → Trimmed ops.isSpace (ops.lower v).toList
  lower_at : ∀ v, '@' ∈ v.toList → '@' ∈ (ops.lower v).toList
  letter : ∀ c, c.isAlpha = true → ops.isSpace c = false

def Stripped (ops : StrOps) (v : String) : Prop := Trimmed ops.isSpace v.toList

structure Canonical (ops : StrOps) (user : User String Time) : Prop where
  name : Stripped ops user.name
  email : Stripped ops user.email
  role : Stripped ops user.role
  lower : ops.lower user.email = user.email
  atSign : '@' ∈ user.email.toList
  age : 0 ≤ user.age
  adult : requireAdmin user = .ok user → 18 ≤ user.age

section Strings
variable {ops : StrOps}

theorem strip_stripped (v : String) : Stripped ops (ops.strip v) := by
  rw [Stripped, StrOps.strip, String.toList_ofList]
  exact trim_trimmed ops.isSpace v.toList

theorem Stripped.strip {v : String} (stripped : Stripped ops v) : ops.strip v = v := by
  have same : trim ops.isSpace v.toList = v.toList := trim_eq_self_iff.mpr stripped
  change String.ofList (trim ops.isSpace v.toList) = v
  rw [same, String.ofList_toList]

theorem strippedRole_stripped (lawful : Lawful ops) (role : Option String) :
    Stripped ops (strippedRole ops role) := by
  cases role with
  | none =>
    have letters : "viewer".toList.all Char.isAlpha = true := rfl
    exact .of_forall fun c mem => lawful.letter c (List.all_eq_true.mp letters c mem)
  | some role => exact strip_stripped role

end Strings

theorem isAdmin_iff {user : User String Time} : (response user).isAdmin = true ↔ user.role = "admin" :=
  decide_eq_true_iff

section Users
variable {ops : StrOps} {lax : Lax Time Other}

theorem validate_canonical (lawful : Lawful ops) {body : UserBody} {created : UserCreate}
    (accepted : validate ops body = .ok created) (id : String) (now : Time) :
    Canonical ops ⟨id, now, created.name, created.email, created.age, created.role⟩ := by
  obtain ⟨present, positive, adult, rfl⟩ := validate_ok_iff.mp accepted
  have stripped : Stripped ops (ops.strip body.email) := strip_stripped body.email
  exact {
    name := strip_stripped body.name
    email := lawful.lower_trimmed _ stripped
    role := strippedRole_stripped lawful body.role
    lower := lawful.lower_lower _
    atSign := lawful.lower_at _ present
    age := positive
    adult := fun admitted => adult (requireAdmin_ok_iff.mp admitted) }

theorem Canonical.fixed {user : User String Time} (canonical : Canonical ops user) :
    userCreate ops lax (modelDump (fields user)) = .ok (fields user) := by
  have read : userCreate ops lax (modelDump (fields user)) =
      validate ops ⟨user.name, user.email, user.age, some user.role⟩ :=
    userCreate_bodyEntries ops lax ⟨user.name, user.email, user.age, some user.role⟩
  rw [read, validate_ok_iff]
  have email := canonical.email.strip
  refine ⟨?_, canonical.age, ?_, ?_⟩
  · rw [email]
    exact canonical.atSign
  · intro admin
    rw [strippedRole, canonical.role.strip] at admin
    exact canonical.adult (requireAdmin_ok_iff.mpr admin)
  · rw [canonical.name.strip, email, canonical.lower, strippedRole, canonical.role.strip]
    rfl

def Stored (ops : StrOps) (entry : String × User String Time) : Prop :=
  entry.2.id = entry.1 ∧ Canonical ops entry.2

def Inv (ops : StrOps) (s : State String Time) : Prop := ∀ entry ∈ s.fakeUsersDb, Stored ops entry

variable {s u : State String Time}

theorem post_inv (lawful : Lawful ops) (inv : Inv ops s)
    {body : Except (List FieldError) (Dict String (Value Time Other))} {id : String} {now : Time}
    (hs : stepApi ops lax s (.post body id now) = some u) : Inv ops u := by
  rw [stepApi] at hs
  split at hs
  · cases hs
    exact inv
  · rename_i created accepted
    split at hs
    · cases hs
    · cases hs
      obtain ⟨body, -, read⟩ := bind_ok accepted
      obtain ⟨body, accepted⟩ := userCreate_ok read
      intro entry mem
      rcases mem_dictSet mem with rfl | old
      · exact ⟨rfl, validate_canonical lawful accepted id now⟩
      · exact inv entry old

theorem served_sublist {l : Label String Time} (quiet : ∀ body id now, l ≠ .post body id now)
    (hs : step ops s l = some u) : u.fakeUsersDb.Sublist s.fakeUsersDb := by
  cases step_userStep hs with
  | creates => exact absurd rfl (quiet _ _ _)
  | pops => exact List.filter_sublist
  | _ => exact List.Sublist.refl _

theorem stepApi_inv (lawful : Lawful ops) (inv : Inv ops s) {l : ApiLabel Time Other}
    (hs : stepApi ops lax s l = some u) : Inv ops u := by
  cases l with
  | post body id now => exact post_inv lawful inv hs
  | served l =>
    by_cases creation : ∃ body id now, l = .post body id now
    · obtain ⟨body, id, now, rfl⟩ := creation
      rw [stepApi, ← stepApi_ofLabel ops lax] at hs
      exact post_inv lawful inv hs
    · have moved : step ops s l = some u := hs
      have kept := served_sublist (fun body id now same => creation ⟨body, id, now, same⟩) moved
      exact fun entry mem => inv entry (kept.subset mem)

theorem listUsers_ok (lax : Lax Time Other) (s : State String Time) :
    listUsers lax s = .ok (s.fakeUsersDb.map fun entry => response entry.2) := by
  rw [listUsers]
  induction s.fakeUsersDb with
  | nil => rfl
  | cons entry db ih =>
    rw [List.mapM_cons, userResponse_record, ih]
    rfl

end Users

/-- Whatever requests are served from the empty store on, in any order and with any bodies,
every stored user is canonical and under its own id, is admitted just when it is shown as an
admin, and is accepted again as it is; and all of them are listed. -/
theorem store_canonical {ops : StrOps} (lawful : Lawful ops) (lax : Lax Time Other)
    {ls : List (ApiLabel Time Other)} {u : State String Time}
    (run : Runs (stepApi ops lax) (initial ⟨[], List.nodup_nil⟩) ls u) :
    (∀ id user, (id, user) ∈ u.fakeUsersDb → user.id = id ∧ Canonical ops user ∧
      (requireAdmin user = .ok user ↔ (response user).isAdmin = true) ∧
      userCreate ops lax (modelDump (fields user)) = .ok (fields user)) ∧
    listUsers lax u = .ok (u.fakeUsersDb.map fun entry => response entry.2) := by
  have inv : Inv ops u := run.invariant (Inv ops) (fun _ mem => nomatch mem)
    (fun _ _ _ inv hs => stepApi_inv lawful inv hs)
  refine ⟨fun id user stored => ?_, listUsers_ok lax u⟩
  obtain ⟨own, canonical⟩ := inv (id, user) stored
  exact ⟨own, canonical, requireAdmin_ok_iff.trans isAdmin_iff.symm, canonical.fixed⟩

section Ascii

theorem toLower_cases (c : Char) : c.toLower = c ∨ 97 ≤ c.toLower.toNat := by
  delta Char.toLower
  split
  · rename_i upper
    right
    have low : 65 ≤ c.val.toNat := UInt32.le_iff_toNat_le.mp upper.1
    have high : c.val.toNat ≤ 90 := UInt32.le_iff_toNat_le.mp upper.2
    have moved : (c.val + ('a'.val - 'A'.val)).toNat = c.val.toNat + 32 := by
      rw [UInt32.toNat_add]
      exact Nat.mod_eq_of_lt (Nat.lt_of_le_of_lt (Nat.add_le_add_right high _) (by decide))
    rw [Char.toNat_mk, moved]
    omega
  · exact .inl rfl

theorem toLower_of_le {c : Char} (low : 97 ≤ c.toNat) : c.toLower = c := by
  have plain : ¬ (c.val ≥ 'A'.val ∧ c.val ≤ 'Z'.val) := by
    rintro ⟨_, upper⟩
    have high : c.toNat ≤ 90 := UInt32.le_iff_toNat_le.mp upper
    omega
  exact dif_neg plain

theorem toLower_toLower (c : Char) : c.toLower.toLower = c.toLower := by
  rcases toLower_cases c with same | low
  · rw [same, same]
  · exact toLower_of_le low

theorem not_isWhitespace {c : Char} (visible : 32 < c.toNat) : c.isWhitespace = false := by
  have other (d : Char) (blank : d.toNat ≤ 32) : c ≠ d := by
    rintro rfl
    omega
  simp [Char.isWhitespace, other]

theorem asciiOps_lawful : Lawful asciiOps where
  lower_lower v := by
    change String.ofList ((String.ofList (v.toList.map Char.toLower)).toList.map Char.toLower) = _
    have twice : Char.toLower ∘ Char.toLower = Char.toLower := funext toLower_toLower
    rw [String.toList_ofList, List.map_map, twice]
    rfl
  lower_trimmed v trimmed := by
    change Trimmed _ (String.ofList (v.toList.map Char.toLower)).toList
    rw [String.toList_ofList]
    refine trimmed.map fun c visible => ?_
    change c.toLower.isWhitespace = false
    rcases toLower_cases c with same | low
    · rw [same]
      exact visible
    · exact not_isWhitespace (by omega)
  lower_at v mem := by
    change '@' ∈ (String.ofList (v.toList.map Char.toLower)).toList
    rw [String.toList_ofList]
    exact List.mem_map.mpr ⟨'@', mem, rfl⟩
  letter c alpha := by
    apply not_isWhitespace
    rcases (Bool.or_eq_true _ _).mp alpha with upper | lower
    · have low : 65 ≤ c.toNat := UInt32.le_iff_toNat_le.mp (of_decide_eq_true upper).1
      omega
    · obtain ⟨above, -⟩ := (Bool.and_eq_true _ _).mp lower
      have low : 97 ≤ c.toNat := UInt32.le_iff_toNat_le.mp (of_decide_eq_true above)
      omega

end Ascii

section Examples

/-- Without any conversion between types. -/
def strict : Lax ℕ Unit := ⟨fun _ => .error "Input should be a valid integer",
  fun _ => .error "Input should be a valid datetime"⟩

def paddedAnn : Dict String (Value ℕ Unit) where
  entries := [("id", .str "root"), ("name", .str " Ann "), ("email", .str "Ann@Example.com "),
    ("age", .int 30), ("role", .str " admin")]
  nodup := by decide

def annCreated : List (ApiLabel ℕ Unit) :=
  [.post (.ok paddedAnn) "u1" 12, .post (.error [⟨"body", "Input should be a valid dictionary"⟩]) "u2" 13,
    .served .list]

theorem ann_canonical : ∃ u user,
    Runs (stepApi asciiOps strict) (initial ⟨[], List.nodup_nil⟩) annCreated u ∧
      u.fakeUsersDb = [("u1", user)] ∧ user.id = "u1" ∧ Canonical asciiOps user := by
  have served : ∃ u, Runs (stepApi asciiOps strict) (initial ⟨[], List.nodup_nil⟩) annCreated u ∧
      u.fakeUsersDb = [("u1", ⟨"u1", 12, "Ann", "ann@example.com", 30, "admin"⟩)] :=
    ⟨_, Runs.of_execute rfl, by decide⟩
  obtain ⟨u, run, db⟩ := served
  have stored := (store_canonical asciiOps_lawful strict run).1 "u1" _ (by
    rw [db]
    exact List.mem_singleton_self _)
  exact ⟨u, _, run, db, stored.1, stored.2.1⟩

end Examples

end FastapiProject.CanonicalUsers

import Mathlib
import FastapiProject.PythonJson

set_option autoImplicit false

/-!
# The number of a JSON text

The grammar that `json.loads` follows, and the numbers `json.dumps` writes: an integer in
its shortest digits, a float in a text that has a fraction or an exponent.
-/
namespace FastapiProject.PythonJson
open FastapiProject.PythonExceptions

def Digits (ds : List Char) : Prop := ds ≠ [] ∧ ∀ c ∈ ds, c.isDigit = true

def SignText (sign : List Char) : Prop := sign = [] ∨ sign = ['-']

def IntegerText (ds : List Char) : Prop := ds = ['0'] ∨ Digits ds ∧ ds.head? ≠ some '0'

def FractionText (f : List Char) : Prop := f = [] ∨ ∃ ds, f = '.' :: ds ∧ Digits ds

def ExponentSign (sign : List Char) : Prop := sign = [] ∨ sign = ['+'] ∨ sign = ['-']

def ExponentText (e : List Char) : Prop :=
  e = [] ∨ ∃ c sign ds, e = c :: sign ++ ds ∧ (c = 'e' ∨ c = 'E') ∧ ExponentSign sign ∧ Digits ds

/-- The texts of floats: a number that is not an integer, or one of the three words. -/
inductive FloatText : List Char → Prop
  | nan : FloatText "NaN".toList
  | infinity : FloatText "Infinity".toList
  | negInfinity : FloatText "-Infinity".toList
  | decimal {sign ds f e : List Char} (signed : SignText sign) (integer : IntegerText ds)
      (fraction : FractionText f) (exponent : ExponentText e)
      (isFloat : (f.isEmpty && e.isEmpty) = false) : FloatText (sign ++ ds ++ f ++ e)

/-- A digit, a point or an exponent behind a number would belong to it. -/
def EndsNumber (rest : List Char) : Prop :=
  ∀ c cs, rest = c :: cs → c.isDigit = false ∧ c ≠ '.' ∧ c ≠ 'e' ∧ c ≠ 'E'

def NoDigit (rest : List Char) : Prop := ∀ c cs, rest = c :: cs → c.isDigit = false

section Digits
variable {ds rest : List Char}

theorem takeWhile_digits (h : Digits ds) (stop : NoDigit rest) :
    (ds ++ rest).takeWhile Char.isDigit = ds := by
  rw [List.takeWhile_append_of_pos h.2]
  cases rest with
  | nil => exact List.append_nil ds
  | cons c cs => rw [List.takeWhile_cons, stop c cs rfl]; exact List.append_nil ds

theorem dropWhile_digits (h : Digits ds) (stop : NoDigit rest) :
    (ds ++ rest).dropWhile Char.isDigit = rest := by
  rw [List.dropWhile_append_of_pos h.2]
  cases rest with
  | nil => rfl
  | cons c cs => rw [List.dropWhile_cons, stop c cs rfl]; rfl

theorem Digits.isEmpty (h : Digits ds) : ds.isEmpty = false := by
  cases ds with
  | nil => exact absurd rfl h.1
  | cons c cs => rfl

theorem Digits.head {c : Char} {cs : List Char} (h : Digits (c :: cs)) : c.isDigit = true :=
  h.2 c (List.mem_cons_self)

theorem takeWhile_isDigit_digits (cs : List Char)
    (h : (cs.takeWhile Char.isDigit).isEmpty = false) : Digits (cs.takeWhile Char.isDigit) := by
  refine ⟨?_, fun c found => List.mem_takeWhile_imp found⟩
  intro none
  rw [none] at h
  cases h

theorem IntegerText.digits (h : IntegerText ds) : Digits ds := by
  rcases h with rfl | ⟨digits, -⟩
  · refine ⟨List.cons_ne_nil _ _, fun c zero => ?_⟩
    rw [List.mem_singleton.mp zero]
    rfl
  · exact digits

end Digits

section Parts
variable {ds f e sign rest : List Char}

theorem integerPart_append (h : IntegerText ds) (stop : NoDigit rest) :
    integerPart (ds ++ rest) = some (ds, rest) := by
  rcases h with rfl | ⟨digits, head⟩
  · rfl
  · cases ds with
    | nil => exact absurd rfl digits.1
    | cons c cs =>
      have zero : c ≠ '0' := fun same => head (congrArg some same)
      have taken := takeWhile_digits digits stop
      have dropped := dropWhile_digits digits stop
      rw [List.cons_append, List.takeWhile_cons, digits.head] at taken
      rw [List.cons_append, List.dropWhile_cons, digits.head] at dropped
      change (if c = '0' then _ else if c.isDigit = true then _ else _) = _
      rw [if_neg zero, if_pos digits.head]
      exact congrArg₂ (fun a b => some (a, b)) taken dropped

theorem fractionPart_append (h : FractionText f) (stop : NoDigit rest)
    (point : ∀ cs, rest ≠ '.' :: cs) : fractionPart (f ++ rest) = (f, rest) := by
  rcases h with rfl | ⟨ds, rfl, digits⟩
  · rw [List.nil_append, fractionPart]
    exact point
  · rw [List.cons_append, fractionPart, takeWhile_digits digits stop, dropWhile_digits digits stop,
      digits.isEmpty]
    rfl

theorem exponentSign_append (h : ExponentSign sign) (digits : Digits ds) (rest : List Char) :
    exponentSign (sign ++ (ds ++ rest)) = (sign, ds ++ rest) := by
  rcases h with rfl | rfl | rfl
  · cases ds with
    | nil => exact absurd rfl digits.1
    | cons c cs =>
      have digit := digits.head
      rw [List.nil_append, List.cons_append, exponentSign]
      · rintro cs' same
        cases same
        cases digit
      · rintro cs' same
        cases same
        cases digit
  · rfl
  · rfl

theorem exponentPart_append (h : ExponentText e) (ends : EndsNumber rest) :
    exponentPart (e ++ rest) = (e, rest) := by
  rcases h with rfl | ⟨c, sign, ds, rfl, letter, signed, digits⟩
  · cases rest with
    | nil => rfl
    | cons c cs =>
      obtain ⟨-, -, lower, upper⟩ := ends c cs rfl
      refine if_neg ?_
      rintro ⟨either | either, -⟩
      · exact lower either
      · exact upper either
  · have stop : NoDigit rest := fun c cs same => (ends c cs same).1
    have split := exponentSign_append signed digits rest
    rw [List.append_assoc, List.cons_append, exponentPart, split]
    simp only [takeWhile_digits digits stop, dropWhile_digits digits stop, digits.isEmpty]
    rw [if_pos ⟨letter, trivial⟩, List.cons_append]

theorem minusSign_append (h : SignText sign) (digits : Digits ds) (rest : List Char) :
    minusSign (sign ++ (ds ++ rest)) = (sign, ds ++ rest) := by
  rcases h with rfl | rfl
  · cases ds with
    | nil => exact absurd rfl digits.1
    | cons c cs =>
      have digit := digits.head
      rw [List.nil_append, List.cons_append, minusSign]
      rintro cs' same
      cases same
      cases digit
  · rfl

theorem ExponentText.noDigit (h : ExponentText e) (ends : EndsNumber rest) :
    NoDigit (e ++ rest) := by
  rcases h with rfl | ⟨c, sign, ds, rfl, rfl | rfl, -⟩
  · exact fun c cs same => (ends c cs same).1
  · rintro c cs same
    cases same
    rfl
  · rintro c cs same
    cases same
    rfl

theorem ExponentText.noPoint (h : ExponentText e) (ends : EndsNumber rest) (cs : List Char) :
    e ++ rest ≠ '.' :: cs := by
  rcases h with rfl | ⟨c, sign, ds, rfl, rfl | rfl, -⟩
  · exact fun same => (ends '.' cs same).2.1 rfl
  · rintro same
    cases same
  · rintro same
    cases same

theorem FractionText.noDigit (h : FractionText f) (exponent : ExponentText e)
    (ends : EndsNumber rest) : NoDigit (f ++ (e ++ rest)) := by
  rcases h with rfl | ⟨ds, rfl, -⟩
  · exact exponent.noDigit ends
  · rintro c cs same
    cases same
    rfl

/-- The parts of a number are found again when they are written one behind the other. -/
theorem parseNumber_append (signed : SignText sign) (integer : IntegerText ds)
    (fraction : FractionText f) (exponent : ExponentText e) (ends : EndsNumber rest) :
    parseNumber (sign ++ ds ++ f ++ e ++ rest) =
      if f.isEmpty && e.isEmpty then
        if intMaxStrDigits < ds.length then .error .valueError
        else .ok (.int (if sign.isEmpty then natOfDigits ds else -natOfDigits ds), rest)
      else .ok (.float (sign ++ ds ++ f ++ e), rest) := by
  have minus := minusSign_append signed integer.digits (f ++ (e ++ rest))
  have whole := integerPart_append integer (fraction.noDigit exponent ends)
  have point := fractionPart_append fraction (exponent.noDigit ends) (exponent.noPoint ends)
  have power := exponentPart_append exponent ends
  simp only [List.append_assoc, parseNumber, minus, whole, point, power]

end Parts

section Accepted
variable {cs rest ds : List Char}

theorem integerPart_text (h : integerPart cs = some (ds, rest)) : IntegerText ds := by
  cases cs with
  | nil => cases h
  | cons c cs =>
    change (if c = '0' then _ else if c.isDigit = true then _ else _) = _ at h
    split_ifs at h with zero digit
    · cases h
      exact Or.inl (congrArg (fun c => [c]) zero)
    · cases h
      refine Or.inr ⟨⟨List.cons_ne_nil _ _, ?_⟩, fun same => zero (Option.some.inj same)⟩
      intro d found
      rcases List.mem_cons.mp found with rfl | found
      · exact digit
      · exact List.mem_takeWhile_imp found

theorem fractionPart_text (cs : List Char) : FractionText (fractionPart cs).1 := by
  unfold fractionPart
  split
  · split_ifs with none
    · exact Or.inl rfl
    · exact Or.inr ⟨_, rfl, takeWhile_isDigit_digits _ (Bool.eq_false_iff.mpr none)⟩
  · exact Or.inl rfl

theorem exponentSign_text (cs : List Char) : ExponentSign (exponentSign cs).1 := by
  unfold exponentSign
  split
  · exact Or.inr (Or.inl rfl)
  · exact Or.inr (Or.inr rfl)
  · exact Or.inl rfl

theorem exponentPart_text (cs : List Char) : ExponentText (exponentPart cs).1 := by
  cases cs with
  | nil => exact Or.inl rfl
  | cons e cs =>
    unfold exponentPart
    dsimp only
    split_ifs with both
    · exact Or.inr ⟨e, _, _, rfl, both.1, exponentSign_text cs, takeWhile_isDigit_digits _ both.2⟩
    · exact Or.inl rfl

theorem minusSign_text (cs : List Char) : SignText (minusSign cs).1 := by
  unfold minusSign
  split
  · exact Or.inr rfl
  · exact Or.inl rfl

/-- What the grammar finds is an integer within the limit or the text of a float. -/
inductive NumberValue : Json → Prop
  | int {ds : List Char} {n : ℤ} (digits : Digits ds) (limit : ds.length ≤ intMaxStrDigits)
      (value : n.natAbs = natOfDigits ds) : NumberValue (.int n)
  | float {text : List Char} (h : FloatText text) : NumberValue (.float text)

theorem parseNumber_value {j : Json} (h : parseNumber cs = .ok (j, rest)) : NumberValue j := by
  unfold parseNumber at h
  dsimp only at h
  cases whole : integerPart (minusSign cs).2 with
  | none =>
    rw [whole] at h
    cases h
  | some p =>
    obtain ⟨ds, cs'⟩ := p
    have integer := integerPart_text whole
    rw [whole] at h
    dsimp only at h
    split_ifs at h with noFloat limit positive
    · cases h
      exact .int integer.digits (Nat.not_lt.mp limit) (Int.natAbs_natCast _)
    · cases h
      refine .int integer.digits (Nat.not_lt.mp limit) ?_
      rw [Int.natAbs_neg, Int.natAbs_natCast]
    · cases h
      exact .float (.decimal (minusSign_text cs) integer (fractionPart_text _)
        (exponentPart_text _) (Bool.eq_false_iff.mpr noFloat))

end Accepted

section Integers

theorem natOfDigits_eq (ds : List Char) : natOfDigits ds = Nat.ofDigitChars 10 ds 0 :=
  Nat.ofDigitChars_eq_foldl.symm

theorem toDigits_digits (n : ℕ) : Digits (Nat.toDigits 10 n) :=
  ⟨Nat.toDigits_ne_nil, fun _ => Nat.isDigit_of_mem_toDigits (by decide) (by decide)⟩

theorem toDigits_head (n : ℕ) (positive : 0 < n) : (Nat.toDigits 10 n).head? ≠ some '0' := by
  induction n using Nat.strongRecOn with
  | ind n ih =>
    rw [Nat.toDigits_eq_if (by decide)]
    split_ifs with small
    · intro zero
      have none := Nat.digitChar_eq_zero.mp (Option.some.inj zero)
      omega
    · have front := ih (n / 10) (by omega) (by omega)
      rwa [List.head?_append_of_ne_nil _ Nat.toDigits_ne_nil]

theorem toDigits_integerText (n : ℕ) : IntegerText (Nat.toDigits 10 n) := by
  rcases Nat.eq_zero_or_pos n with rfl | positive
  · exact Or.inl (Nat.toDigits_zero 10)
  · exact Or.inr ⟨toDigits_digits n, toDigits_head n positive⟩

theorem natOfDigits_toDigits (n : ℕ) : natOfDigits (Nat.toDigits 10 n) = n := by
  rw [natOfDigits_eq, Nat.ofDigitChars_ten_toDigits]

theorem length_toDigits_le {n k : ℕ} (positive : 0 < k) :
    (Nat.toDigits 10 n).length ≤ k ↔ n < 10 ^ k :=
  Nat.length_toDigits_le_iff (by decide) positive

theorem digitValue_lt {c : Char} (h : c.isDigit = true) : digitValue c < 10 := by
  have range := Char.isDigit_iff_toNat.mp h
  change _ ∧ c.toNat ≤ 57 at range
  change c.toNat - 48 < 10
  omega

theorem natOfDigits_lt {ds : List Char} (h : ∀ c ∈ ds, c.isDigit = true) :
    natOfDigits ds < 10 ^ ds.length := by
  induction ds using List.reverseRecOn with
  | nil => decide
  | append_singleton ds c ih =>
    have front := ih fun d found => h d (List.mem_append_left _ found)
    have last := digitValue_lt (h c (List.mem_append_right _ (List.mem_singleton_self c)))
    rw [natOfDigits, List.foldl_append, ← natOfDigits, List.length_append, List.length_singleton,
      Nat.pow_succ]
    change 10 * natOfDigits ds + digitValue c < _
    omega

theorem toString_int (n : ℤ) :
    ∃ sign, SignText sign ∧ (toString n).toList = sign ++ Nat.toDigits 10 n.natAbs ∧
      n = if sign.isEmpty then (n.natAbs : ℤ) else -n.natAbs := by
  cases n with
  | ofNat n => exact ⟨[], Or.inl rfl, Nat.toList_repr, rfl⟩
  | negSucc n =>
    refine ⟨['-'], Or.inr rfl, ?_, rfl⟩
    change ("-" ++ Nat.repr (n + 1)).toList = _
    rw [String.toList_append, Nat.toList_repr]
    rfl

/-- An integer that the interpreter still writes is read back. -/
theorem parseNumber_int {n : ℤ} {rest : List Char} (limit : n.natAbs < 10 ^ intMaxStrDigits)
    (ends : EndsNumber rest) : parseNumber ((toString n).toList ++ rest) = .ok (.int n, rest) := by
  obtain ⟨sign, signed, written, value⟩ := toString_int n
  have short := (length_toDigits_le (n := n.natAbs) (k := intMaxStrDigits) (by decide)).mpr limit
  have read := parseNumber_append signed (toDigits_integerText n.natAbs) (Or.inl rfl : FractionText [])
    (Or.inl rfl : ExponentText []) ends
  rw [List.append_nil, List.append_nil, ← written] at read
  rw [read, List.isEmpty_nil, Bool.and_self, if_pos rfl, if_neg (Nat.not_lt.mpr short),
    natOfDigits_toDigits, ← value]

end Integers

end FastapiProject.PythonJson

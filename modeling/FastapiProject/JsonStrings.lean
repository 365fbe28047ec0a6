import Mathlib.Data.List.Basic
import FastapiProject.PythonJson

set_option autoImplicit false

/-!
# The string of a JSON text

What `json.dumps` writes between two quotes, `json.loads` reads back, unless two escapes
of lone surrogates stand side by side: those two the reader joins.
-/
namespace FastapiProject.PythonJson
open FastapiProject.PythonExceptions

def highUnit (n : ℕ) : ℕ := 0xd800 + (n - 0x10000) / 0x400
def lowUnit (n : ℕ) : ℕ := 0xdc00 + (n - 0x10000) % 0x400

theorem highUnit_lt (c : CodePoint) : highUnit c.val < 0x10000 := by
  have below := c.isLt
  unfold highUnit
  omega

theorem lowUnit_lt (c : CodePoint) : lowUnit c.val < 0x10000 := by
  unfold lowUnit
  omega

def highSurrogate (c : CodePoint) : CodePoint :=
  ⟨highUnit c.val, Nat.lt_trans (highUnit_lt c) (by decide)⟩

def lowSurrogate (c : CodePoint) : CodePoint :=
  ⟨lowUnit c.val, Nat.lt_trans (lowUnit_lt c) (by decide)⟩

/-- The escapes or characters a code point is written as, each read as a unit. -/
def units (c : CodePoint) : Str :=
  if c.val < 0x10000 then [c] else [highSurrogate c, lowSurrogate c]

def surrogatePair (a b : CodePoint) : Prop :=
  isHighSurrogate a = true ∧ isLowSurrogate b = true

/-- No lone high surrogate stands before a lone low one. -/
def Unpaired (s : Str) : Prop := s.IsChain fun a b => ¬ surrogatePair a b

theorem Unpaired.tail {c : CodePoint} {s : Str} (h : Unpaired (c :: s)) : Unpaired s := by
  cases h with
  | singleton => exact List.IsChain.nil
  | cons_cons _ rest => exact rest

theorem Unpaired.head {c d : CodePoint} {s : Str} (h : Unpaired (c :: d :: s)) :
    ¬ surrogatePair c d := by
  cases h with
  | cons_cons apart _ => exact apart

section Escapes

theorem hexValue_digitChar : ∀ d < 16, hexValue (Nat.digitChar d) = some d := by decide

theorem hexValue_hexDigit (n : ℕ) : hexValue (hexDigit n) = some (n % 16) :=
  hexValue_digitChar (n % 16) (Nat.mod_lt n (by decide))

theorem hexUnit_hexDigits (n : ℕ) (h : n < 0x10000) :
    hexUnit (hexDigit (n / 0x1000)) (hexDigit (n / 0x100)) (hexDigit (n / 0x10)) (hexDigit n) =
      some n := by
  simp only [hexUnit, hexValue_hexDigit, Option.bind_eq_bind, Option.bind_some, Option.pure_def]
  congr 1
  omega

variable {cs rest : List Char} {s : Str}

theorem parseUnits_unitEscape (n : ℕ) (h : n < 0x10000) (read : parseUnits cs = .ok (s, rest)) :
    parseUnits (unitEscape n ++ cs) = .ok (⟨n, Nat.lt_trans h (by decide)⟩ :: s, rest) := by
  have same : Fin.ofNat 0x110000 n = ⟨n, Nat.lt_trans h (by decide)⟩ :=
    Fin.ext (Nat.mod_eq_of_lt (Nat.lt_trans h (by decide)))
  simp only [unitEscape, List.cons_append, List.nil_append, parseUnits, hexUnit_hexDigits n h, read,
    same]
  rfl

theorem parseUnits_simpleEscape {e c : Char} (other : e ≠ 'u') (escaped : simpleEscape e = some c)
    (read : parseUnits cs = .ok (s, rest)) :
    parseUnits ('\\' :: e :: cs) = .ok (codePoint c :: s, rest) := by
  rw [parseUnits]
  · simp only [escaped, read]
    rfl
  · intro a b c d cs' same
    exact absurd same other

theorem parseUnits_plain {c : Char} (quote : c ≠ '"') (backslash : c ≠ '\\')
    (printable : 0x20 ≤ c.toNat) (read : parseUnits cs = .ok (s, rest)) :
    parseUnits (c :: cs) = .ok (codePoint c :: s, rest) := by
  have stays : ¬ (c = '\\' ∨ c.toNat < 0x20) := by
    rintro (same | control)
    · exact backslash same
    · exact absurd control (Nat.not_lt.mpr printable)
  rw [parseUnits]
  · simp only [if_neg stays, read]
    rfl
  · exact quote
  · intro a b c d cs' same
    exact absurd same backslash
  · intro e cs' same
    exact absurd same backslash

theorem codePoint_eq {c : Char} {n : CodePoint} (same : c.toNat = n.val) : codePoint c = n :=
  Fin.ext same

theorem toNat_ofNat : ∀ n < 0x80, (Char.ofNat n).toNat = n := by decide

theorem parseUnits_dumpsCodePoint (c : CodePoint) (read : parseUnits cs = .ok (s, rest)) :
    parseUnits (dumpsCodePoint c ++ cs) = .ok (units c ++ s, rest) := by
  have small (h : c.val < 0x10000) : units c = [c] := if_pos h
  simp only [dumpsCodePoint]
  split_ifs with quote backslash backspace formFeed newline return_ tab printable bmp
  · rw [small (by rw [quote]; decide), ← codePoint_eq quote.symm]
    exact parseUnits_simpleEscape (by decide) rfl read
  · rw [small (by rw [backslash]; decide), ← codePoint_eq backslash.symm]
    exact parseUnits_simpleEscape (by decide) rfl read
  · rw [small (by rw [backspace]; decide), ← codePoint_eq (c := '\x08') backspace.symm]
    exact parseUnits_simpleEscape (by decide) rfl read
  · rw [small (by rw [formFeed]; decide), ← codePoint_eq (c := '\x0c') formFeed.symm]
    exact parseUnits_simpleEscape (by decide) rfl read
  · rw [small (by rw [newline]; decide), ← codePoint_eq newline.symm]
    exact parseUnits_simpleEscape (by decide) rfl read
  · rw [small (by rw [return_]; decide), ← codePoint_eq return_.symm]
    exact parseUnits_simpleEscape (by decide) rfl read
  · rw [small (by rw [tab]; decide), ← codePoint_eq tab.symm]
    exact parseUnits_simpleEscape (by decide) rfl read
  · have value : (Char.ofNat c.val).toNat = c.val := toNat_ofNat c.val (by omega)
    have apart {d : Char} (h : ¬ c.val = d.toNat) : Char.ofNat c.val ≠ d := by
      rintro rfl
      exact h value.symm
    have plain := parseUnits_plain (apart quote) (apart backslash)
      (by rw [value]; exact printable.1) read
    rw [codePoint_eq value] at plain
    rw [small (by omega)]
    exact plain
  · rw [small bmp]
    exact parseUnits_unitEscape c.val bmp read
  · rw [units, if_neg bmp, List.append_assoc]
    have low := parseUnits_unitEscape (lowUnit c.val) (lowUnit_lt c) read
    exact parseUnits_unitEscape (highUnit c.val) (highUnit_lt c) low

theorem parseUnits_quote : parseUnits ('"' :: cs) = .ok ([], cs) := rfl

theorem parseUnits_dumpsString (s : Str) :
    parseUnits (s.flatMap dumpsCodePoint ++ '"' :: cs) = .ok (s.flatMap units, cs) := by
  induction s with
  | nil => exact parseUnits_quote
  | cons c s ih =>
    rw [List.flatMap_cons, List.flatMap_cons, List.append_assoc]
    exact parseUnits_dumpsCodePoint c ih

end Escapes

section Surrogates

theorem joinPair_units {c : CodePoint} (h : 0x10000 ≤ c.val) :
    joinPair (highSurrogate c) (lowSurrogate c) = c := by
  have below := c.isLt
  have high : (highSurrogate c).val = 0xd800 + (c.val - 0x10000) / 0x400 := rfl
  have low : (lowSurrogate c).val = 0xdc00 + (c.val - 0x10000) % 0x400 := rfl
  refine Fin.ext ?_
  simp only [joinPair, Fin.ofNat, high, low]
  omega

theorem surrogatePair_units {c : CodePoint} (h : 0x10000 ≤ c.val) :
    surrogatePair (highSurrogate c) (lowSurrogate c) := by
  have below := c.isLt
  have high : (highSurrogate c).val = 0xd800 + (c.val - 0x10000) / 0x400 := rfl
  have low : (lowSurrogate c).val = 0xdc00 + (c.val - 0x10000) % 0x400 := rfl
  simp only [surrogatePair, isHighSurrogate, isLowSurrogate, high, low, Bool.and_eq_true,
    decide_eq_true_eq]
  omega

theorem joinSurrogates_pair {a b : CodePoint} (pair : surrogatePair a b) (s : Str) :
    joinSurrogates (a :: b :: s) = joinPair a b :: joinSurrogates s := by
  rw [joinSurrogates, pair.1, pair.2]
  rfl

theorem joinSurrogates_cons {a b : CodePoint} (apart : ¬ surrogatePair a b) (s : Str) :
    joinSurrogates (a :: b :: s) = a :: joinSurrogates (b :: s) := by
  rw [joinSurrogates, if_neg]
  intro both
  exact apart (Bool.and_eq_true_iff.mp both)

theorem units_ne_nil (c : CodePoint) : units c ≠ [] := by
  unfold units
  split <;> exact List.cons_ne_nil _ _

theorem units_head {c a : CodePoint} {us : Str} (h : units c = a :: us)
    (low : isLowSurrogate a = true) : isLowSurrogate c = true := by
  unfold units at h
  split at h
  · cases h
    exact low
  · cases h
    have pair := (surrogatePair_units (c := c) (by omega)).1
    simp only [isHighSurrogate, isLowSurrogate, Bool.and_eq_true, decide_eq_true_eq] at pair low
    omega

theorem joinSurrogates_units {s : Str} (h : Unpaired s) : joinSurrogates (s.flatMap units) = s := by
  induction s with
  | nil => rfl
  | cons c s ih =>
    have tail := ih h.tail
    rw [List.flatMap_cons]
    by_cases astral : 0x10000 ≤ c.val
    · rw [units, if_neg (by omega)]
      change joinSurrogates (_ :: _ :: s.flatMap units) = _
      rw [joinSurrogates_pair (surrogatePair_units astral), joinPair_units astral, tail]
    · rw [units, if_pos (by omega), List.singleton_append]
      cases s with
      | nil => rfl
      | cons d s =>
        rw [List.flatMap_cons] at tail ⊢
        cases written : units d with
        | nil => exact absurd written (units_ne_nil d)
        | cons a us =>
          have apart : ¬ surrogatePair c a := by
            rintro ⟨high, low⟩
            exact h.head ⟨high, units_head written low⟩
          rw [written] at tail
          rw [List.cons_append, joinSurrogates_cons apart, ← List.cons_append, tail]

theorem joinPair_astral {a b : CodePoint} (pair : surrogatePair a b) :
    0x10000 ≤ (joinPair a b).val := by
  obtain ⟨high, low⟩ := pair
  simp only [isHighSurrogate, isLowSurrogate, Bool.and_eq_true, decide_eq_true_eq] at high low
  simp only [joinPair, Fin.ofNat]
  omega

theorem joinPair_not_high {a b : CodePoint} (pair : surrogatePair a b) :
    isHighSurrogate (joinPair a b) = false := by
  have astral := joinPair_astral pair
  simp only [isHighSurrogate, Bool.and_eq_false_iff, decide_eq_false_iff_not]
  omega

theorem joinPair_not_low {a b : CodePoint} (pair : surrogatePair a b) :
    isLowSurrogate (joinPair a b) = false := by
  have astral := joinPair_astral pair
  simp only [isLowSurrogate, Bool.and_eq_false_iff, decide_eq_false_iff_not]
  omega

theorem Unpaired.cons {a : CodePoint} {s : Str} (rest : Unpaired s)
    (apart : ∀ b us, s = b :: us → ¬ surrogatePair a b) : Unpaired (a :: s) := by
  cases s with
  | nil => exact List.IsChain.singleton a
  | cons b us => exact List.IsChain.cons_cons (apart b us rfl) rest

theorem joinSurrogates_head {b c : CodePoint} {s us : Str}
    (h : joinSurrogates (b :: s) = c :: us) : c = b ∨ isLowSurrogate c = false := by
  cases s with
  | nil =>
    cases h
    exact Or.inl rfl
  | cons d s =>
    by_cases pair : surrogatePair b d
    · rw [joinSurrogates_pair pair] at h
      rw [← (List.cons.inj h).1]
      exact Or.inr (joinPair_not_low pair)
    · rw [joinSurrogates_cons pair] at h
      exact Or.inl (List.cons.inj h).1.symm

theorem joinSurrogates_unpaired (s : Str) : Unpaired (joinSurrogates s) := by
  induction s using joinSurrogates.induct with
  | case1 a b s both ih =>
    have pair : surrogatePair a b := Bool.and_eq_true_iff.mp both
    rw [joinSurrogates_pair pair]
    refine ih.cons ?_
    rintro c us - ⟨high, -⟩
    rw [joinPair_not_high pair] at high
    cases high
  | case2 a b s single ih =>
    have apart : ¬ surrogatePair a b := fun pair => single (Bool.and_eq_true_iff.mpr pair)
    rw [joinSurrogates_cons apart]
    refine ih.cons ?_
    rintro c us first ⟨high, low⟩
    rcases joinSurrogates_head first with rfl | other
    · exact apart ⟨high, low⟩
    · rw [other] at low
      cases low
  | case3 s short =>
    cases s with
    | nil => exact List.IsChain.nil
    | cons a s =>
      cases s with
      | nil => exact List.IsChain.singleton a
      | cons b s => exact absurd rfl (short a b s)

theorem parseString_unpaired {cs rest : List Char} {s : Str}
    (h : parseString cs = .ok (s, rest)) : Unpaired s := by
  unfold parseString at h
  cases read : parseUnits cs with
  | error e =>
    rw [read] at h
    cases h
  | ok p =>
    rw [read] at h
    cases h
    exact joinSurrogates_unpaired p.1

theorem codePoint_not_surrogate (c : Char) :
    isHighSurrogate (codePoint c) = false ∧ isLowSurrogate (codePoint c) = false := by
  have valid : c.toNat < 0xd800 ∨ 0xdfff < c.toNat ∧ c.toNat < 0x110000 := c.valid
  have value : (codePoint c).val = c.toNat := rfl
  simp only [isHighSurrogate, isLowSurrogate, value, Bool.and_eq_false_iff,
    decide_eq_false_iff_not]
  omega

theorem unpaired_ofString (s : String) : Unpaired (ofString s) := by
  unfold ofString
  induction s.toList with
  | nil => exact List.IsChain.nil
  | cons c cs ih =>
    refine ih.cons ?_
    rintro b us - ⟨high, -⟩
    rw [(codePoint_not_surrogate c).1] at high
    cases high

/-- `json.loads` reads a written string back. -/
theorem parseString_dumpsString {s : Str} (h : Unpaired s) (cs : List Char) :
    parseString (s.flatMap dumpsCodePoint ++ '"' :: cs) = .ok (s, cs) := by
  rw [parseString, parseUnits_dumpsString]
  change Except.ok (joinSurrogates (s.flatMap units), cs) = _
  rw [joinSurrogates_units h]

end Surrogates

end FastapiProject.PythonJson

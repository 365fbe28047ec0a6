import Mathlib.Data.Nat.Notation
import Mathlib.Data.Int.Notation
import FastapiProject.PythonExceptions

set_option autoImplicit false

/-!
# `bytes.decode()` and `json.loads`

A `str` is a list of code points, lone surrogates included: the escapes of a JSON
string can produce them, the decoder of UTF-8 cannot. A float keeps the text it was
read from. `depth` is the nesting the interpreter's stack still allows.
-/
namespace FastapiProject.PythonJson
open FastapiProject.PythonExceptions

abbrev CodePoint := Fin 0x110000
abbrev Str := List CodePoint

theorem char_lt (c : Char) : c.toNat < 0x110000 := by
  rcases c.valid with h | h
  · exact Nat.lt_trans h (by decide)
  · exact h.2

def codePoint (c : Char) : CodePoint := ⟨c.toNat, char_lt c⟩

def ofString (s : String) : Str := s.toList.map codePoint

inductive Json where
  | null
  | bool (b : Bool)
  | int (n : ℤ)
  | float (text : List Char)
  | str (s : Str)
  | array (items : List Json)
  | object (entries : List (Str × Json))

/-- `raw.decode()` with the default strict handler. -/
def decode (raw : ByteArray) : Except Exn (List Char) :=
  match String.fromUTF8? raw with
  | some s => .ok s.toList
  | none => .error .unicodeDecodeError

def isWhitespace (c : Char) : Bool := c = ' ' || c = '\t' || c = '\n' || c = '\r'

def skipWhitespace (cs : List Char) : List Char := cs.dropWhile isWhitespace

/-- `sys.get_int_max_str_digits()`. -/
def intMaxStrDigits : ℕ := 4300

def digitValue (c : Char) : ℕ := c.toNat - '0'.toNat

def integerPart : List Char → Option (List Char × List Char)
  | [] => none
  | c :: cs =>
    if c = '0' then some ([c], cs)
    else if c.isDigit then some (c :: cs.takeWhile Char.isDigit, cs.dropWhile Char.isDigit)
    else none

/-- A point counts only with a digit behind it; else the number ends before it. -/
def fractionPart : List Char → List Char × List Char
  | '.' :: cs =>
    if (cs.takeWhile Char.isDigit).isEmpty then ([], '.' :: cs)
    else ('.' :: cs.takeWhile Char.isDigit, cs.dropWhile Char.isDigit)
  | cs => ([], cs)

def exponentSign : List Char → List Char × List Char
  | '+' :: cs => (['+'], cs)
  | '-' :: cs => (['-'], cs)
  | cs => ([], cs)

def exponentPart : List Char → List Char × List Char
  | [] => ([], [])
  | e :: cs =>
    let (sign, ds) := exponentSign cs
    if (e = 'e' ∨ e = 'E') ∧ (ds.takeWhile Char.isDigit).isEmpty = false then
      (e :: sign ++ ds.takeWhile Char.isDigit, ds.dropWhile Char.isDigit)
    else ([], e :: cs)

def minusSign : List Char → List Char × List Char
  | '-' :: cs => (['-'], cs)
  | cs => ([], cs)

def natOfDigits (ds : List Char) : ℕ := ds.foldl (fun n c => 10 * n + digitValue c) 0

def parseNumber (cs : List Char) : Except Exn (Json × List Char) :=
  let (sign, cs) := minusSign cs
  match integerPart cs with
  | none => .error .jsonDecodeError
  | some (ds, cs) =>
    let (fraction, cs) := fractionPart cs
    let (exponent, cs) := exponentPart cs
    if fraction.isEmpty && exponent.isEmpty then
      if intMaxStrDigits < ds.length then .error .valueError
      else .ok (.int (if sign.isEmpty then natOfDigits ds else -natOfDigits ds), cs)
    else .ok (.float (sign ++ ds ++ fraction ++ exponent), cs)

def hexValue (c : Char) : Option ℕ :=
  if c.isDigit then some (c.toNat - '0'.toNat)
  else if 'a' ≤ c ∧ c ≤ 'f' then some (c.toNat - 'a'.toNat + 10)
  else if 'A' ≤ c ∧ c ≤ 'F' then some (c.toNat - 'A'.toNat + 10)
  else none

def hexUnit (a b c d : Char) : Option ℕ := do
  return (((← hexValue a) * 16 + (← hexValue b)) * 16 + (← hexValue c)) * 16 + (← hexValue d)

def simpleEscape : Char → Option Char
  | '"' => some '"'
  | '\\' => some '\\'
  | '/' => some '/'
  | 'b' => some '\x08'
  | 'f' => some '\x0c'
  | 'n' => some '\n'
  | 'r' => some '\r'
  | 't' => some '\t'
  | _ => none

/-- The rest of a string after its opening quote, surrogate escapes still apart. -/
def parseUnits : List Char → Except Exn (Str × List Char)
  | [] => .error .jsonDecodeError
  | '"' :: cs => .ok ([], cs)
  | '\\' :: 'u' :: a :: b :: c :: d :: cs =>
    match hexUnit a b c d with
    | none => .error .jsonDecodeError
    | some unit => do
      let (s, rest) ← parseUnits cs
      return (Fin.ofNat 0x110000 unit :: s, rest)
  | '\\' :: e :: cs =>
    match simpleEscape e with
    | none => .error .jsonDecodeError
    | some c => do
      let (s, rest) ← parseUnits cs
      return (codePoint c :: s, rest)
  | c :: cs =>
    if c = '\\' ∨ c.toNat < 0x20 then .error .jsonDecodeError
    else do
      let (s, rest) ← parseUnits cs
      return (codePoint c :: s, rest)

def isHighSurrogate (c : CodePoint) : Bool := 0xd800 ≤ c.val && c.val ≤ 0xdbff
def isLowSurrogate (c : CodePoint) : Bool := 0xdc00 ≤ c.val && c.val ≤ 0xdfff

def joinPair (high low : CodePoint) : CodePoint :=
  Fin.ofNat 0x110000 (0x10000 + (high.val - 0xd800) * 0x400 + (low.val - 0xdc00))

def joinSurrogates : Str → Str
  | high :: low :: s =>
    if isHighSurrogate high && isLowSurrogate low then joinPair high low :: joinSurrogates s
    else high :: joinSurrogates (low :: s)
  | s => s

def parseString (cs : List Char) : Except Exn (Str × List Char) := do
  let (s, rest) ← parseUnits cs
  return (joinSurrogates s, rest)

/-- Everything but an object or an array. -/
def parseScalar : List Char → Except Exn (Json × List Char)
  | '"' :: cs => do
    let (s, rest) ← parseString cs
    return (.str s, rest)
  | 'n' :: 'u' :: 'l' :: 'l' :: cs => .ok (.null, cs)
  | 't' :: 'r' :: 'u' :: 'e' :: cs => .ok (.bool true, cs)
  | 'f' :: 'a' :: 'l' :: 's' :: 'e' :: cs => .ok (.bool false, cs)
  | 'N' :: 'a' :: 'N' :: cs => .ok (.float "NaN".toList, cs)
  | 'I' :: 'n' :: 'f' :: 'i' :: 'n' :: 'i' :: 't' :: 'y' :: cs => .ok (.float "Infinity".toList, cs)
  | '-' :: 'I' :: 'n' :: 'f' :: 'i' :: 'n' :: 'i' :: 't' :: 'y' :: cs =>
    .ok (.float "-Infinity".toList, cs)
  | cs => parseNumber cs

section Containers
variable (value : List Char → Except Exn (Json × List Char))

/-- The items of an array up to its bracket. Each takes a character, so the length of
the text bounds the iterations and `0` is only met at the end of the text. -/
def parseItems : ℕ → List Char → Except Exn (List Json × List Char)
  | 0, _ => .error .jsonDecodeError
  | n + 1, cs => do
    let (item, rest) ← value cs
    match skipWhitespace rest with
    | ']' :: rest => return ([item], rest)
    | ',' :: rest => do
      let (items, rest) ← parseItems n (skipWhitespace rest)
      return (item :: items, rest)
    | _ => .error .jsonDecodeError

def parseMember : List Char → Except Exn ((Str × Json) × List Char)
  | '"' :: cs => do
    let (key, rest) ← parseString cs
    match skipWhitespace rest with
    | ':' :: rest => do
      let (item, rest) ← value (skipWhitespace rest)
      return ((key, item), rest)
    | _ => .error .jsonDecodeError
  | _ => .error .jsonDecodeError

def parseMembers : ℕ → List Char → Except Exn (List (Str × Json) × List Char)
  | 0, _ => .error .jsonDecodeError
  | n + 1, cs => do
    let (entry, rest) ← parseMember value cs
    match skipWhitespace rest with
    | '}' :: rest => return ([entry], rest)
    | ',' :: rest => do
      let (entries, rest) ← parseMembers n (skipWhitespace rest)
      return (entry :: entries, rest)
    | _ => .error .jsonDecodeError

def parseArray (cs : List Char) : Except Exn (Json × List Char) :=
  match skipWhitespace cs with
  | ']' :: rest => .ok (.array [], rest)
  | cs => do
    let (items, rest) ← parseItems value cs.length cs
    return (.array items, rest)

/-- A repeated key keeps its first place and its last value. -/
def dictOfPairs (entries : List (Str × Json)) : List (Str × Json) :=
  entries.foldl (fun d entry => dictSet d entry.1 entry.2) []

def parseObject (cs : List Char) : Except Exn (Json × List Char) :=
  match skipWhitespace cs with
  | '}' :: rest => .ok (.object [], rest)
  | cs => do
    let (entries, rest) ← parseMembers value cs.length cs
    return (.object (dictOfPairs entries), rest)

end Containers

def parseValue : ℕ → List Char → Except Exn (Json × List Char)
  | 0, '[' :: _ | 0, '{' :: _ => .error .recursionError
  | depth + 1, '[' :: cs => parseArray (parseValue depth) cs
  | depth + 1, '{' :: cs => parseObject (parseValue depth) cs
  | _, cs => parseScalar cs

/-- `json.loads(text)`: one value between white space, and no byte order mark. -/
def loads (depth : ℕ) (text : List Char) : Except Exn Json :=
  if text.head? = some '\uFEFF' then .error .jsonDecodeError
  else do
    let (value, rest) ← parseValue depth (skipWhitespace text)
    if (skipWhitespace rest).isEmpty then return value else .error .jsonDecodeError

section Dumps

def hexDigit (n : ℕ) : Char := Nat.digitChar (n % 16)

def unitEscape (n : ℕ) : List Char :=
  ['\\', 'u', hexDigit (n / 0x1000), hexDigit (n / 0x100), hexDigit (n / 0x10), hexDigit n]

/-- A code point between the quotes, with `ensure_ascii`. -/
def dumpsCodePoint (c : CodePoint) : List Char :=
  let n := c.val
  if n = '"'.toNat then ['\\', '"']
  else if n = '\\'.toNat then ['\\', '\\']
  else if n = 0x08 then ['\\', 'b']
  else if n = 0x0c then ['\\', 'f']
  else if n = '\n'.toNat then ['\\', 'n']
  else if n = '\r'.toNat then ['\\', 'r']
  else if n = '\t'.toNat then ['\\', 't']
  else if 0x20 ≤ n ∧ n ≤ 0x7e then [Char.ofNat n]
  else if n < 0x10000 then unitEscape n
  else unitEscape (0xd800 + (n - 0x10000) / 0x400) ++ unitEscape (0xdc00 + (n - 0x10000) % 0x400)

def dumpsString (s : Str) : List Char := '"' :: s.flatMap dumpsCodePoint ++ ['"']

mutual

def dumps : Json → List Char
  | .null => "null".toList
  | .bool true => "true".toList
  | .bool false => "false".toList
  | .int n => (toString n).toList
  | .float text => text
  | .str s => dumpsString s
  | .array items => '[' :: dumpsItems items ++ [']']
  | .object entries => '{' :: dumpsMembers entries ++ ['}']

def dumpsItems : List Json → List Char
  | [] => []
  | [item] => dumps item
  | item :: items => dumps item ++ ", ".toList ++ dumpsItems items

def dumpsMember : Str × Json → List Char
  | (key, item) => dumpsString key ++ ": ".toList ++ dumps item

def dumpsMembers : List (Str × Json) → List Char
  | [] => []
  | [entry] => dumpsMember entry
  | entry :: entries => dumpsMember entry ++ ", ".toList ++ dumpsMembers entries

end

/-- `text.encode()` of a text without surrogates. -/
def encode (text : List Char) : ByteArray := (String.ofList text).toByteArray

end Dumps

end FastapiProject.PythonJson

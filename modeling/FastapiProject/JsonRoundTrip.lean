import FastapiProject.JsonStrings
import FastapiProject.JsonNumbers

set_option autoImplicit false

/-!
# `json.dumps` and `json.loads` against each other

Every writable value is read back as it was, and whatever is read is writable. The
induction carries a rest behind the written value that no number can reach into.
-/
namespace FastapiProject.PythonJson
open FastapiProject.PythonExceptions

/-- The values of a dictionary or list in memory that are written and read back at this
nesting: an integer within the digit limit, the text of a float, no lone pair of
surrogates, and no key twice. -/
inductive Writable : ℕ → Json → Prop
  | null {depth : ℕ} : Writable depth .null
  | bool {depth : ℕ} (b : Bool) : Writable depth (.bool b)
  | int {depth : ℕ} {n : ℤ} (limit : n.natAbs < 10 ^ intMaxStrDigits) : Writable depth (.int n)
  | float {depth : ℕ} {text : List Char} (h : FloatText text) : Writable depth (.float text)
  | str {depth : ℕ} {s : Str} (h : Unpaired s) : Writable depth (.str s)
  | array {depth : ℕ} {items : List Json} (h : ∀ item ∈ items, Writable depth item) :
      Writable (depth + 1) (.array items)
  | object {depth : ℕ} {entries : List (Str × Json)} (nodup : (entries.map Prod.fst).Nodup)
      (keys : ∀ entry ∈ entries, Unpaired entry.1)
      (values : ∀ entry ∈ entries, Writable depth entry.2) :
      Writable (depth + 1) (.object entries)

section WhiteSpace

/-- A character that is neither white space, the end of a list nor a byte order mark. -/
def Visible (c : Char) : Prop := isWhitespace c = false ∧ c ≠ ']' ∧ c ≠ '\uFEFF'

def Starts (text : List Char) : Prop := ∃ c cs, text = c :: cs ∧ Visible c

theorem skipWhitespace_visible {c : Char} (h : isWhitespace c = false) (cs : List Char) :
    skipWhitespace (c :: cs) = c :: cs := by
  rw [skipWhitespace, List.dropWhile_cons, h]
  rfl

theorem Starts.skipWhitespace {text : List Char} (h : Starts text) (rest : List Char) :
    skipWhitespace (text ++ rest) = text ++ rest := by
  obtain ⟨c, cs, rfl, visible⟩ := h
  exact skipWhitespace_visible visible.1 (cs ++ rest)

theorem ne_of_isDigit {c d : Char} (digit : c.isDigit = true) (other : d.isDigit = false) :
    c ≠ d := by
  rintro rfl
  rw [digit] at other
  cases other

theorem visible_of_isDigit {c : Char} (digit : c.isDigit = true) : Visible c := by
  have other {d : Char} := ne_of_isDigit (d := d) digit
  refine ⟨?_, other rfl, other rfl⟩
  simp only [isWhitespace, Bool.or_eq_false_iff, decide_eq_false_iff_not]
  exact ⟨⟨⟨other rfl, other rfl⟩, other rfl⟩, other rfl⟩

theorem starts_number {sign ds : List Char} (signed : SignText sign) (digits : Digits ds)
    (cs : List Char) : Starts (sign ++ ds ++ cs) := by
  rcases signed with rfl | rfl
  · cases ds with
    | nil => exact absurd rfl digits.1
    | cons c ds => exact ⟨c, ds ++ cs, rfl, visible_of_isDigit digits.head⟩
  · exact ⟨'-', ds ++ cs, rfl, rfl, by decide, by decide⟩

theorem FloatText.starts {text : List Char} (h : FloatText text) : Starts text := by
  cases h with
  | nan => exact ⟨'N', _, rfl, rfl, by decide, by decide⟩
  | infinity => exact ⟨'I', _, rfl, rfl, by decide, by decide⟩
  | negInfinity => exact ⟨'-', _, rfl, rfl, by decide, by decide⟩
  | decimal signed integer =>
    rw [List.append_assoc]
    exact starts_number signed integer.digits _

theorem Writable.starts {depth : ℕ} {j : Json} (h : Writable depth j) : Starts (dumps j) := by
  cases h with
  | null => exact ⟨'n', _, rfl, rfl, by decide, by decide⟩
  | bool b => cases b with
    | false => exact ⟨'f', _, rfl, rfl, by decide, by decide⟩
    | true => exact ⟨'t', _, rfl, rfl, by decide, by decide⟩
  | @int _ n limit =>
    obtain ⟨sign, signed, written, -⟩ := toString_int n
    have first := starts_number signed (toDigits_digits n.natAbs) []
    rw [List.append_nil, ← written] at first
    rw [dumps]
    exact first
  | float h =>
    rw [dumps]
    exact h.starts
  | str => exact ⟨'"', _, rfl, rfl, by decide, by decide⟩
  | array => exact ⟨'[', _, rfl, rfl, by decide, by decide⟩
  | object => exact ⟨'{', _, rfl, rfl, by decide, by decide⟩

end WhiteSpace

section Scalars
variable {depth : ℕ} {rest : List Char}

theorem parseValue_scalar {c : Char} (bracket : c ≠ '[') (brace : c ≠ '{') (cs : List Char) :
    parseValue depth (c :: cs) = parseScalar (c :: cs) := by
  rw [parseValue]
  · intro cs' _ same
    exact bracket (List.cons.inj same).1
  · intro cs' _ same
    exact brace (List.cons.inj same).1
  · intro d cs' _ same
    exact bracket (List.cons.inj same).1
  · intro d cs' _ same
    exact brace (List.cons.inj same).1

theorem parseScalar_digit {c : Char} (digit : c.isDigit = true) (cs : List Char) :
    parseScalar (c :: cs) = parseNumber (c :: cs) := by
  rw [parseScalar]
  all_goals
    intro cs' same
    exact ne_of_isDigit digit rfl (List.cons.inj same).1

theorem parseScalar_minus {c : Char} (digit : c.isDigit = true) (cs : List Char) :
    parseScalar ('-' :: c :: cs) = parseNumber ('-' :: c :: cs) := by
  rw [parseScalar]
  all_goals
    intro cs' same
    try cases same
  cases digit

/-- A text that starts as a number does is read as a number. -/
theorem parseValue_number {sign ds : List Char} (signed : SignText sign) (digits : Digits ds)
    (cs : List Char) : parseValue depth (sign ++ ds ++ cs) = parseNumber (sign ++ ds ++ cs) := by
  cases ds with
  | nil => exact absurd rfl digits.1
  | cons c ds =>
    have digit := digits.head
    rcases signed with rfl | rfl
    · change parseValue depth (c :: (ds ++ cs)) = _
      rw [parseValue_scalar (ne_of_isDigit digit rfl) (ne_of_isDigit digit rfl),
        parseScalar_digit digit]
      rfl
    · change parseValue depth ('-' :: c :: (ds ++ cs)) = _
      rw [parseValue_scalar (by decide) (by decide), parseScalar_minus digit]
      rfl

theorem parseValue_int {n : ℤ} (limit : n.natAbs < 10 ^ intMaxStrDigits) (ends : EndsNumber rest) :
    parseValue depth ((toString n).toList ++ rest) = .ok (.int n, rest) := by
  have read := parseNumber_int limit ends
  obtain ⟨sign, signed, written, -⟩ := toString_int n
  rw [written] at read ⊢
  rw [parseValue_number signed (toDigits_digits n.natAbs), read]

theorem parseValue_float {text : List Char} (h : FloatText text) (ends : EndsNumber rest) :
    parseValue depth (text ++ rest) = .ok (.float text, rest) := by
  cases h with
  | nan => exact parseValue_scalar (by decide) (by decide) _
  | infinity => exact parseValue_scalar (by decide) (by decide) _
  | negInfinity => exact parseValue_scalar (by decide) (by decide) _
  | @decimal sign ds f e signed integer fraction exponent isFloat =>
    have read := parseNumber_append signed integer fraction exponent ends
    rw [isFloat, if_neg Bool.false_ne_true] at read
    have number := @parseValue_number depth _ _ signed integer.digits (f ++ (e ++ rest))
    simp only [List.append_assoc] at read number ⊢
    rw [number, read]

theorem parseValue_str {s : Str} (h : Unpaired s) :
    parseValue depth (dumpsString s ++ rest) = .ok (.str s, rest) := by
  have read := parseString_dumpsString h rest
  rw [dumpsString, List.append_assoc]
  change parseValue depth ('"' :: (s.flatMap dumpsCodePoint ++ '"' :: rest)) = _
  rw [parseValue_scalar (by decide) (by decide), parseScalar, read]
  rfl

end Scalars

section Containers
variable {value : List Char → Except Exn (Json × List Char)} {rest : List Char}

/-- The reader `value` gives this item back, whatever follows that ends a number. -/
def ReadBack (value : List Char → Except Exn (Json × List Char)) (item : Json) : Prop :=
  ∀ rest, EndsNumber rest → value (dumps item ++ rest) = .ok (item, rest)

theorem endsNumber_cons {c : Char} (mark : c = ',' ∨ c = ']' ∨ c = '}') (cs : List Char) :
    EndsNumber (c :: cs) := by
  rintro d ds same
  cases same
  rcases mark with rfl | rfl | rfl
  · exact ⟨rfl, by decide, by decide, by decide⟩
  · exact ⟨rfl, by decide, by decide, by decide⟩
  · exact ⟨rfl, by decide, by decide, by decide⟩

theorem dumpsItems_cons {item : Json} {items : List Json} (more : items ≠ []) :
    dumpsItems (item :: items) = dumps item ++ (',' :: ' ' :: dumpsItems items) := by
  cases items with
  | nil => exact absurd rfl more
  | cons next items => exact List.append_assoc _ _ _

theorem dumpsMembers_cons {entry : Str × Json} {entries : List (Str × Json)} (more : entries ≠ []) :
    dumpsMembers (entry :: entries) = dumpsMember entry ++ (',' :: ' ' :: dumpsMembers entries) := by
  cases entries with
  | nil => exact absurd rfl more
  | cons next entries => exact List.append_assoc _ _ _

theorem Starts.append {text : List Char} (h : Starts text) (cs : List Char) :
    Starts (text ++ cs) := by
  obtain ⟨c, cs', rfl, visible⟩ := h
  exact ⟨c, cs' ++ cs, rfl, visible⟩

theorem Starts.length_pos {text : List Char} (h : Starts text) : 0 < text.length := by
  obtain ⟨c, cs, rfl, -⟩ := h
  exact Nat.succ_pos _

theorem starts_dumpsItems {item : Json} (first : Starts (dumps item)) (items : List Json) :
    Starts (dumpsItems (item :: items)) := by
  cases items with
  | nil => exact first
  | cons next items =>
    rw [dumpsItems_cons (List.cons_ne_nil _ _)]
    exact first.append _

theorem length_dumpsItems {items : List Json} (starts : ∀ item ∈ items, Starts (dumps item)) :
    items.length ≤ (dumpsItems items).length := by
  induction items with
  | nil => exact Nat.le_refl 0
  | cons item items ih =>
    have first := (starts item List.mem_cons_self).length_pos
    cases items with
    | nil => exact first
    | cons next items =>
      have later := ih fun item found => starts item (List.mem_cons_of_mem _ found)
      rw [dumpsItems_cons (List.cons_ne_nil _ _), List.length_append]
      simp only [List.length_cons] at later ⊢
      omega

theorem parseItems_dumpsItems {items : List Json} (some : items ≠ [])
    (starts : ∀ item ∈ items, Starts (dumps item)) (back : ∀ item ∈ items, ReadBack value item)
    (rest : List Char) {n : ℕ} (fuel : items.length ≤ n) :
    parseItems value n (dumpsItems items ++ ']' :: rest) = .ok (items, rest) := by
  induction items generalizing n with
  | nil => exact absurd rfl some
  | cons item items ih =>
    cases n with
    | zero => exact absurd fuel (Nat.not_succ_le_zero _)
    | succ n =>
      have item_back := back item List.mem_cons_self
      cases items with
      | nil =>
        have read := item_back (']' :: rest) (endsNumber_cons (Or.inr (Or.inl rfl)) rest)
        rw [dumpsItems, parseItems, read]
        rfl
      | cons next items =>
        have later := ih (List.cons_ne_nil _ _)
          (fun item found => starts item (List.mem_cons_of_mem _ found))
          (fun item found => back item (List.mem_cons_of_mem _ found)) (Nat.le_of_succ_le_succ fuel)
        have second := starts_dumpsItems
          (starts next (List.mem_cons_of_mem _ List.mem_cons_self)) items
        have read := item_back (',' :: ' ' :: dumpsItems (next :: items) ++ ']' :: rest)
          (endsNumber_cons (Or.inl rfl) _)
        rw [dumpsItems_cons (List.cons_ne_nil _ _), List.append_assoc, parseItems, read]
        change (parseItems value n (skipWhitespace (dumpsItems (next :: items) ++ ']' :: rest))).bind
          (fun p => .ok (item :: p.1, p.2)) = _
        rw [second.skipWhitespace, later]
        rfl

theorem parseArray_dumps {items : List Json} (starts : ∀ item ∈ items, Starts (dumps item))
    (back : ∀ item ∈ items, ReadBack value item) :
    parseArray value (dumpsItems items ++ ']' :: rest) = .ok (.array items, rest) := by
  cases items with
  | nil => rfl
  | cons item items =>
    have first := starts_dumpsItems (starts item List.mem_cons_self) items
    have long := length_dumpsItems starts
    have read := parseItems_dumpsItems (List.cons_ne_nil _ _) starts back rest
      (n := (dumpsItems (item :: items) ++ ']' :: rest).length)
      (by rw [List.length_append]; omega)
    have skipped := first.skipWhitespace (']' :: rest)
    obtain ⟨c, cs, text, visible⟩ := first
    rw [text, List.cons_append] at skipped read
    rw [text, List.cons_append, parseArray, skipped]
    split
    · next same => exact absurd (List.cons.inj same).1 visible.2.1
    · next same =>
      rw [read]
      rfl

theorem parseMember_dumpsMember {entry : Str × Json} (key : Unpaired entry.1)
    (starts : Starts (dumps entry.2)) (back : ReadBack value entry.2) {rest : List Char}
    (ends : EndsNumber rest) :
    parseMember value (dumpsMember entry ++ rest) = .ok (entry, rest) := by
  obtain ⟨name, item⟩ := entry
  have read := parseString_dumpsString key (':' :: ' ' :: (dumps item ++ rest))
  have shape : dumpsMember (name, item) ++ rest =
      '"' :: (name.flatMap dumpsCodePoint ++ '"' :: ':' :: ' ' :: (dumps item ++ rest)) := by
    simp only [dumpsMember, dumpsString, List.append_assoc, List.cons_append, List.nil_append]
    rfl
  rw [shape, parseMember, read]
  change (value (skipWhitespace (dumps item ++ rest))).bind (fun p => .ok ((name, p.1), p.2)) = _
  rw [starts.skipWhitespace, back rest ends]
  rfl

theorem starts_dumpsMember (entry : Str × Json) : ∃ cs, dumpsMember entry = '"' :: cs := by
  obtain ⟨name, item⟩ := entry
  exact ⟨_, rfl⟩

theorem starts_dumpsMembers (entry : Str × Json) (entries : List (Str × Json)) :
    ∃ cs, dumpsMembers (entry :: entries) = '"' :: cs := by
  cases entries with
  | nil => exact starts_dumpsMember entry
  | cons next entries =>
    obtain ⟨cs, first⟩ := starts_dumpsMember entry
    rw [dumpsMembers_cons (List.cons_ne_nil _ _), first]
    exact ⟨_, rfl⟩

theorem length_dumpsMembers (entries : List (Str × Json)) :
    entries.length ≤ (dumpsMembers entries).length := by
  induction entries with
  | nil => exact Nat.le_refl 0
  | cons entry entries ih =>
    cases entries with
    | nil =>
      obtain ⟨cs, text⟩ := starts_dumpsMembers entry []
      rw [text]
      exact Nat.succ_le_succ (Nat.zero_le _)
    | cons next entries =>
      rw [dumpsMembers_cons (List.cons_ne_nil _ _), List.length_append]
      simp only [List.length_cons] at ih ⊢
      omega

theorem parseMembers_dumpsMembers {entries : List (Str × Json)} (some : entries ≠ [])
    (keys : ∀ entry ∈ entries, Unpaired entry.1)
    (starts : ∀ entry ∈ entries, Starts (dumps entry.2))
    (back : ∀ entry ∈ entries, ReadBack value entry.2) (rest : List Char) {n : ℕ}
    (fuel : entries.length ≤ n) :
    parseMembers value n (dumpsMembers entries ++ '}' :: rest) = .ok (entries, rest) := by
  induction entries generalizing n with
  | nil => exact absurd rfl some
  | cons entry entries ih =>
    have key := keys entry List.mem_cons_self
    have first := starts entry List.mem_cons_self
    have entry_back := back entry List.mem_cons_self
    cases n with
    | zero => exact absurd fuel (Nat.not_succ_le_zero _)
    | succ n =>
      cases entries with
      | nil =>
        have read := parseMember_dumpsMember key first entry_back
          (endsNumber_cons (Or.inr (Or.inr rfl)) rest)
        rw [dumpsMembers, parseMembers, read]
        rfl
      | cons next entries =>
        have later := ih (List.cons_ne_nil _ _)
          (fun entry found => keys entry (List.mem_cons_of_mem _ found))
          (fun entry found => starts entry (List.mem_cons_of_mem _ found))
          (fun entry found => back entry (List.mem_cons_of_mem _ found))
          (Nat.le_of_succ_le_succ fuel)
        have read := parseMember_dumpsMember key first entry_back
          (endsNumber_cons (Or.inl rfl)
            (' ' :: dumpsMembers (next :: entries) ++ '}' :: rest))
        obtain ⟨cs, second⟩ := starts_dumpsMembers next entries
        rw [dumpsMembers_cons (List.cons_ne_nil _ _), List.append_assoc, List.cons_append,
          parseMembers, read]
        change (parseMembers value n
          (skipWhitespace (dumpsMembers (next :: entries) ++ '}' :: rest))).bind
          (fun p => .ok (entry :: p.1, p.2)) = _
        rw [second] at later ⊢
        rw [List.cons_append, skipWhitespace_visible rfl, ← List.cons_append, later]
        rfl

theorem parseObject_dumps {entries : List (Str × Json)} (nodup : (entries.map Prod.fst).Nodup)
    (keys : ∀ entry ∈ entries, Unpaired entry.1)
    (starts : ∀ entry ∈ entries, Starts (dumps entry.2))
    (back : ∀ entry ∈ entries, ReadBack value entry.2) :
    parseObject value (dumpsMembers entries ++ '}' :: rest) = .ok (.object entries, rest) := by
  cases entries with
  | nil => rfl
  | cons entry entries =>
    have long := length_dumpsMembers (entry :: entries)
    have read := parseMembers_dumpsMembers (List.cons_ne_nil _ _) keys starts back rest
      (n := (dumpsMembers (entry :: entries) ++ '}' :: rest).length)
      (by rw [List.length_append]; omega)
    have whole : dictOfPairs (entry :: entries) = entry :: entries :=
      dictUpdate_of_disjoint [] nodup
    obtain ⟨cs, text⟩ := starts_dumpsMembers entry entries
    have skipped : skipWhitespace (dumpsMembers (entry :: entries) ++ '}' :: rest) =
        dumpsMembers (entry :: entries) ++ '}' :: rest := by
      rw [text]
      exact skipWhitespace_visible rfl _
    rw [parseObject, skipped]
    split
    · next same =>
      rw [text] at same
      exact absurd (List.cons.inj same).1 (by decide)
    · rw [read]
      change Except.ok (Json.object (dictOfPairs (entry :: entries)), rest) = _
      rw [whole]

end Containers

section RoundTrip

/-- A written value is read back, and the rest is left as it was. -/
theorem parseValue_dumps {depth : ℕ} {j : Json} (h : Writable depth j) :
    ReadBack (parseValue depth) j := by
  induction h with
  | null => exact fun rest _ => parseValue_scalar (by decide) (by decide) _
  | bool b =>
    intro rest _
    cases b with
    | false => exact parseValue_scalar (by decide) (by decide) _
    | true => exact parseValue_scalar (by decide) (by decide) _
  | int limit =>
    intro rest ends
    rw [dumps]
    exact parseValue_int limit ends
  | float text =>
    intro rest ends
    rw [dumps]
    exact parseValue_float text ends
  | str s =>
    intro rest _
    rw [dumps]
    exact parseValue_str s
  | array items ih =>
    intro rest _
    rw [dumps, List.cons_append, List.cons_append, List.append_assoc, List.singleton_append,
      parseValue]
    exact parseArray_dumps (fun item found => (items item found).starts) ih
  | object nodup keys values ih =>
    intro rest _
    rw [dumps, List.cons_append, List.cons_append, List.append_assoc, List.singleton_append,
      parseValue]
    exact parseObject_dumps nodup keys (fun entry found => (values entry found).starts) ih

theorem endsNumber_nil : EndsNumber [] := by
  intro c cs same
  cases same

theorem loads_dumps {depth : ℕ} {j : Json} (h : Writable depth j) :
    loads depth (dumps j) = .ok j := by
  have read := parseValue_dumps h [] endsNumber_nil
  have skipped := h.starts.skipWhitespace []
  obtain ⟨c, cs, text, visible⟩ := h.starts
  rw [List.append_nil] at read skipped
  have mark : ¬ (dumps j).head? = some '\uFEFF' := by
    rw [text]
    exact fun same => visible.2.2 (Option.some.inj same)
  rw [loads, if_neg mark, skipped, read]
  rfl

/-- `text.encode()` and `raw.decode()` undo each other on a text without surrogates. -/
theorem decode_encode (text : List Char) : decode (encode text) = .ok text := by
  have valid : (encode text).IsValidUTF8 := (String.ofList text).isValidUTF8
  have read : String.fromUTF8? (encode text) = some (String.ofList text) := dif_pos valid
  rw [decode, read]
  exact congrArg Except.ok String.toList_ofList

end RoundTrip

section Accepted
variable {value : List Char → Except Exn (Json × List Char)} {depth : ℕ} {j : Json}
  {cs rest : List Char}

theorem NumberValue.writable (h : NumberValue j) : Writable depth j := by
  cases h with
  | @int ds n digits limit value =>
    refine .int ?_
    rw [value]
    exact Nat.lt_of_lt_of_le (natOfDigits_lt digits.2) (Nat.pow_le_pow_right (by decide) limit)
  | float text => exact .float text

theorem parseScalar_writable (h : parseScalar cs = .ok (j, rest)) : Writable depth j := by
  unfold parseScalar at h
  split at h
  · obtain ⟨⟨s, rest'⟩, read, same⟩ := bind_ok h
    cases same
    exact .str (parseString_unpaired read)
  · cases h
    exact .null
  · cases h
    exact .bool true
  · cases h
    exact .bool false
  · cases h
    exact .float .nan
  · cases h
    exact .float .infinity
  · cases h
    exact .float .negInfinity
  · exact (parseNumber_value h).writable

theorem parseItems_writable
    (each : ∀ cs j rest, value cs = .ok (j, rest) → Writable depth j) {n : ℕ} {items : List Json}
    (h : parseItems value n cs = .ok (items, rest)) : ∀ item ∈ items, Writable depth item := by
  induction n generalizing cs items with
  | zero => cases h
  | succ n ih =>
    obtain ⟨⟨first, rest'⟩, read, more⟩ := bind_ok h
    have first_writable := each _ _ _ read
    dsimp only at more
    split at more
    · cases more
      rintro item found
      rw [List.mem_singleton.mp found]
      exact first_writable
    · obtain ⟨⟨later, rest''⟩, tail, same⟩ := bind_ok more
      cases same
      rintro item found
      rcases List.mem_cons.mp found with rfl | found
      · exact first_writable
      · exact ih tail item found
    · cases more

theorem parseMember_writable
    (each : ∀ cs j rest, value cs = .ok (j, rest) → Writable depth j) {entry : Str × Json}
    (h : parseMember value cs = .ok (entry, rest)) :
    Unpaired entry.1 ∧ Writable depth entry.2 := by
  unfold parseMember at h
  split at h
  · obtain ⟨⟨key, rest'⟩, name, more⟩ := bind_ok h
    dsimp only at more
    split at more
    · obtain ⟨⟨item, rest''⟩, read, same⟩ := bind_ok more
      cases same
      exact ⟨parseString_unpaired name, each _ _ _ read⟩
    · cases more
  · cases h

theorem parseMembers_writable
    (each : ∀ cs j rest, value cs = .ok (j, rest) → Writable depth j) {n : ℕ}
    {entries : List (Str × Json)} (h : parseMembers value n cs = .ok (entries, rest)) :
    ∀ entry ∈ entries, Unpaired entry.1 ∧ Writable depth entry.2 := by
  induction n generalizing cs entries with
  | zero => cases h
  | succ n ih =>
    obtain ⟨⟨first, rest'⟩, read, more⟩ := bind_ok h
    have first_writable := parseMember_writable each read
    dsimp only at more
    split at more
    · cases more
      rintro entry found
      rw [List.mem_singleton.mp found]
      exact first_writable
    · obtain ⟨⟨later, rest''⟩, tail, same⟩ := bind_ok more
      cases same
      rintro entry found
      rcases List.mem_cons.mp found with rfl | found
      · exact first_writable
      · exact ih tail entry found
    · cases more

theorem parseArray_writable
    (each : ∀ cs j rest, value cs = .ok (j, rest) → Writable depth j)
    (h : parseArray value cs = .ok (j, rest)) : Writable (depth + 1) j := by
  unfold parseArray at h
  split at h
  · cases h
    exact .array fun item none => absurd none List.not_mem_nil
  · obtain ⟨⟨items, rest'⟩, read, same⟩ := bind_ok h
    cases same
    exact .array (parseItems_writable each read)

/-- However often a key was repeated in the text, the dictionary has it once. -/
theorem parseObject_writable
    (each : ∀ cs j rest, value cs = .ok (j, rest) → Writable depth j)
    (h : parseObject value cs = .ok (j, rest)) : Writable (depth + 1) j := by
  unfold parseObject at h
  split at h
  · cases h
    exact .object List.nodup_nil (fun entry none => absurd none List.not_mem_nil)
      (fun entry none => absurd none List.not_mem_nil)
  · obtain ⟨⟨entries, rest'⟩, read, same⟩ := bind_ok h
    cases same
    have members := parseMembers_writable each read
    have kept {entry : Str × Json} (found : entry ∈ dictOfPairs entries) : entry ∈ entries :=
      (mem_dictUpdate found).resolve_left List.not_mem_nil
    exact .object (dictUpdate_nodup (d := []) List.nodup_nil entries)
      (fun entry found => (members entry (kept found)).1)
      (fun entry found => (members entry (kept found)).2)

theorem parseValue_writable (h : parseValue depth cs = .ok (j, rest)) : Writable depth j := by
  induction depth generalizing cs j rest with
  | zero =>
    unfold parseValue at h
    split at h
    · cases h
    · cases h
    · next none => cases none
    · next none => cases none
    · exact parseScalar_writable h
  | succ depth ih =>
    unfold parseValue at h
    split at h
    · next none => cases none
    · next none => cases none
    · next same =>
      cases same
      exact parseArray_writable (fun cs j rest => ih) h
    · next same =>
      cases same
      exact parseObject_writable (fun cs j rest => ih) h
    · exact parseScalar_writable h

/-- What a body is accepted as can be written again. -/
theorem loads_writable {text : List Char} (h : loads depth text = .ok j) : Writable depth j := by
  unfold loads at h
  split_ifs at h
  obtain ⟨⟨value, rest⟩, read, same⟩ := bind_ok h
  dsimp only at same
  split_ifs at same
  cases same
  exact parseValue_writable read

end Accepted

end FastapiProject.PythonJson

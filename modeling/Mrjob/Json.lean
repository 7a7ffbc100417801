import Mrjob.Text

/-!
# `json.dumps`

`show_steps` prints the step descriptions with `json.dumps` and its defaults: `ensure_ascii`,
the separators `', '` and `': '`, and each `dict` in insertion order. With `ensure_ascii`
every code point outside `' '` to `'~'`, and `"` and `\`, is written as an escape, so what
`json.dumps` returns is printable ASCII whatever the strings in it hold
(`Json.dumps_printable`): it holds no newline, and encoding it cannot fail
(`encodeUtf8_of_printable`).
-/

namespace Mrjob

/-- A value as `json.dumps` prints it: `None`, a `bool`, an `int`, a `str`, a `list`, or a
`dict` with `str` keys, by its items in insertion order. -/
inductive Json
  | null
  | bool (b : Bool)
  | int (n : ℤ)
  | str (s : PyStr)
  | list (items : List Json)
  | dict (items : List (PyStr × Json))

/-- A printable ASCII code point: `' '` to `'~'`. -/
def IsPrintable (c : CodePoint) : Prop := 0x20 ≤ c.val ∧ c.val ≤ 0x7e

instance : DecidablePred IsPrintable := fun c =>
  inferInstanceAs (Decidable (0x20 ≤ c.val ∧ c.val ≤ 0x7e))

/-- A string literal of printable ASCII characters is printable. -/
theorem isPrintable_ofString {s : String}
    (h : s.toList.all fun ch => 0x20 ≤ ch.toNat ∧ ch.toNat ≤ 0x7e) :
    ∀ c ∈ PyStr.ofString s, IsPrintable c := by
  intro c hc
  obtain ⟨ch, hch, rfl⟩ := List.mem_map.mp hc
  simpa [IsPrintable] using List.all_eq_true.mp h ch hch

/-! ### Strings -/

/-- The lowercase hex digit of `d % 16`. -/
def hexDigit (d : ℕ) : CodePoint :=
  ⟨if d % 16 < 10 then 48 + d % 16 else 87 + d % 16, by split <;> omega⟩

/-- `'\\u{0:04x}'.format(n)`, for `n < 0x10000`. -/
def uEscape (n : ℕ) : PyStr :=
  .ofString "\\u" ++ [hexDigit (n / 0x1000), hexDigit (n / 0x100), hexDigit (n / 0x10), hexDigit n]

/-- What `ESCAPE_ASCII.sub(replace, s)` puts in place of one code point: the code point itself
when it is printable and neither `"` nor `\`, else its entry in `ESCAPE_DCT`, else `\uXXXX`,
or above `0xFFFF` the `\uXXXX` of each half of its surrogate pair. -/
def escapeAscii (c : CodePoint) : PyStr :=
  if c.val = 0x5c then .ofString "\\\\"
  else if c.val = 0x22 then .ofString "\\\""
  else if IsPrintable c then [c]
  else if c.val = 0x08 then .ofString "\\b"
  else if c.val = 0x0c then .ofString "\\f"
  else if c.val = 0x0a then .ofString "\\n"
  else if c.val = 0x0d then .ofString "\\r"
  else if c.val = 0x09 then .ofString "\\t"
  else if c.val < 0x10000 then uEscape c.val
  else
    let n := c.val - 0x10000
    uEscape (0xd800 ||| ((n >>> 10) &&& 0x3ff)) ++ uEscape (0xdc00 ||| (n &&& 0x3ff))

/-- `encode_basestring_ascii(s)`: the string between double quotes, each code point escaped. -/
def encodeBasestringAscii (s : PyStr) : PyStr :=
  .ofString "\"" ++ s.flatMap escapeAscii ++ .ofString "\""

/-- Hex digits are printable. -/
theorem isPrintable_hexDigit (d : ℕ) : IsPrintable (hexDigit d) := by
  simp only [IsPrintable, hexDigit]
  split <;> omega

/-- A `\uXXXX` escape is printable. -/
theorem isPrintable_uEscape (n : ℕ) : ∀ c ∈ uEscape n, IsPrintable c := by
  simp only [uEscape, List.mem_append, List.mem_cons, List.not_mem_nil, or_false]
  rintro c (h | rfl | rfl | rfl | rfl)
  · exact isPrintable_ofString (by decide) c h
  all_goals exact isPrintable_hexDigit _

/-- An `if` whose two branches are printable is printable. -/
theorem isPrintable_ite {p : Prop} [Decidable p] {a b : PyStr} (ha : p → ∀ x ∈ a, IsPrintable x)
    (hb : ¬ p → ∀ x ∈ b, IsPrintable x) : ∀ x ∈ (if p then a else b), IsPrintable x := by
  split
  exacts [ha ‹_›, hb ‹_›]

/-- Whatever a code point is, its escape is printable. -/
theorem isPrintable_escapeAscii (c : CodePoint) : ∀ x ∈ escapeAscii c, IsPrintable x := by
  refine isPrintable_ite (fun _ => isPrintable_ofString (by decide)) fun _ =>
    isPrintable_ite (fun _ => isPrintable_ofString (by decide)) fun _ =>
    isPrintable_ite (fun hc x hx => List.mem_singleton.mp hx ▸ hc) fun _ =>
    isPrintable_ite (fun _ => isPrintable_ofString (by decide)) fun _ =>
    isPrintable_ite (fun _ => isPrintable_ofString (by decide)) fun _ =>
    isPrintable_ite (fun _ => isPrintable_ofString (by decide)) fun _ =>
    isPrintable_ite (fun _ => isPrintable_ofString (by decide)) fun _ =>
    isPrintable_ite (fun _ => isPrintable_ofString (by decide)) fun _ =>
    isPrintable_ite (fun _ => isPrintable_uEscape _) fun _ x hx =>
      (List.mem_append.mp hx).elim (isPrintable_uEscape _ x) (isPrintable_uEscape _ x)

/-- A string as `json.dumps` prints it is printable. -/
theorem isPrintable_encodeBasestringAscii (s : PyStr) :
    ∀ c ∈ encodeBasestringAscii s, IsPrintable c := by
  simp only [encodeBasestringAscii, List.mem_append, List.mem_flatMap]
  rintro c ((h | ⟨x, -, h⟩) | h)
  exacts [isPrintable_ofString (by decide) c h, isPrintable_escapeAscii x c h,
    isPrintable_ofString (by decide) c h]

/-- An `int` as `json.dumps` prints it is printable. -/
theorem isPrintable_decimal (n : ℤ) : ∀ c ∈ decimal n, IsPrintable c := fun c hc => by
  rcases mem_decimal hc with rfl | h
  · decide
  · exact ⟨by omega, by omega⟩

/-! ### Values -/

mutual

/-- `json.dumps(value)` -/
def Json.dumps : Json → PyStr
  | .null => .ofString "null"
  | .bool true => .ofString "true"
  | .bool false => .ofString "false"
  | .int n => decimal n
  | .str s => encodeBasestringAscii s
  | .list items => .ofString "[" ++ Json.dumpsItems items ++ .ofString "]"
  | .dict items => .ofString "\x7b" ++ Json.dumpsDictItems items ++ .ofString "\x7d"

/-- The items of a `list`, separated by `', '`. -/
def Json.dumpsItems : List Json → PyStr
  | [] => []
  | [value] => value.dumps
  | value :: items => value.dumps ++ .ofString ", " ++ Json.dumpsItems items

/-- The items of a `dict`, each `key: value`, separated by `', '`. -/
def Json.dumpsDictItems : List (PyStr × Json) → PyStr
  | [] => []
  | [(key, value)] => encodeBasestringAscii key ++ .ofString ": " ++ value.dumps
  | (key, value) :: items =>
    encodeBasestringAscii key ++ .ofString ": " ++ value.dumps ++ .ofString ", " ++
      Json.dumpsDictItems items

end

mutual

/-- Whatever strings a value holds, `json.dumps` prints it as printable ASCII. -/
theorem Json.dumps_printable : ∀ value : Json, ∀ c ∈ value.dumps, IsPrintable c
  | .null | .bool true | .bool false => isPrintable_ofString (by decide)
  | .int n => isPrintable_decimal n
  | .str s => isPrintable_encodeBasestringAscii s
  | .list items => by
    have hitems := Json.dumpsItems_printable items
    simp only [Json.dumps, List.mem_append]
    rintro c ((h | h) | h)
    exacts [isPrintable_ofString (by decide) c h, hitems c h, isPrintable_ofString (by decide) c h]
  | .dict items => by
    have hitems := Json.dumpsDictItems_printable items
    simp only [Json.dumps, List.mem_append]
    rintro c ((h | h) | h)
    exacts [isPrintable_ofString (by decide) c h, hitems c h, isPrintable_ofString (by decide) c h]

/-- The items of a `list` print as printable ASCII. -/
theorem Json.dumpsItems_printable : ∀ items : List Json, ∀ c ∈ Json.dumpsItems items, IsPrintable c
  | [] => fun _ h => by cases h
  | [value] => Json.dumps_printable value
  | value :: value' :: items => by
    have hvalue := Json.dumps_printable value
    have hitems := Json.dumpsItems_printable (value' :: items)
    simp only [Json.dumpsItems, List.mem_append]
    rintro c ((h | h) | h)
    exacts [hvalue c h, isPrintable_ofString (by decide) c h, hitems c h]

/-- The items of a `dict` print as printable ASCII. -/
theorem Json.dumpsDictItems_printable :
    ∀ items : List (PyStr × Json), ∀ c ∈ Json.dumpsDictItems items, IsPrintable c
  | [] => fun _ h => by cases h
  | [(key, value)] => by
    have hvalue := Json.dumps_printable value
    simp only [Json.dumpsDictItems, List.mem_append]
    rintro c ((h | h) | h)
    exacts [isPrintable_encodeBasestringAscii key c h, isPrintable_ofString (by decide) c h,
      hvalue c h]
  | (key, value) :: item :: items => by
    have hvalue := Json.dumps_printable value
    have hitems := Json.dumpsDictItems_printable (item :: items)
    simp only [Json.dumpsDictItems, List.mem_append]
    rintro c ((((h | h) | h) | h) | h)
    exacts [isPrintable_encodeBasestringAscii key c h, isPrintable_ofString (by decide) c h,
      hvalue c h, isPrintable_ofString (by decide) c h, hitems c h]

end

/-! ### Encoding -/

/-- The bytes of printable ASCII text. -/
def asciiBytes (s : PyStr) : Bytes :=
  s.map fun c => UInt8.ofNat c.val

/-- Printable ASCII text encodes to its code points, one byte each. -/
theorem encodeUtf8_of_printable {s : PyStr} (h : ∀ c ∈ s, IsPrintable c) :
    encodeUtf8 s = some (asciiBytes s) := by
  induction s with
  | nil => rfl
  | cons c s ih =>
    have hc : encodeCodePoint c = some [UInt8.ofNat c.val] := by
      have := (h c (List.mem_cons_self c s)).2
      simp only [encodeCodePoint]
      rw [if_pos (by omega)]
    exact encodeUtf8_cons_eq_some.mpr ⟨_, _, hc, ih fun c' hc' => h c' (.tail _ hc'), rfl⟩

/-- The bytes of printable ASCII text hold no newline. -/
theorem newline_not_mem_asciiBytes {s : PyStr} (h : ∀ c ∈ s, IsPrintable c) :
    (10 : UInt8) ∉ asciiBytes s := by
  simp only [asciiBytes, List.mem_map, not_exists, not_and]
  intro c hc heq
  have hp := h c hc
  have := (ofNat_eq_newline c.val).mp heq
  unfold IsPrintable at hp
  omega

end Mrjob

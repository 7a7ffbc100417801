import Mathlib.Data.Nat.Digits
import Mathlib.Data.List.DropRight

/-!
# Text and bytes

`job.py` builds step keys and counter lines as Python 3 `str` values, renders integers with
`%d`, encodes text with `str.encode('utf_8')` and strips line terminators with
`bytes.rstrip`. A `str` is its list of code points, lone surrogates included, so that
encoding fails exactly where CPython's strict codec raises `UnicodeEncodeError`.

Two facts are used later: `%d` renderings are injective, and UTF-8 encoding turns newline
code points into newline bytes and no other code point into one.
-/

namespace Mrjob

/-- A code point of a Python `str`; a lone surrogate is one too. -/
abbrev CodePoint := Fin 0x110000

/-- A Python 3 `str`. -/
abbrev PyStr := List CodePoint

/-- A Python `bytes` value. -/
abbrev Bytes := List UInt8

/-- Every Lean character is a code point below `0x110000`. -/
theorem char_toNat_lt (c : Char) : c.toNat < 0x110000 := by
  have h := c.valid
  simp only [UInt32.isValidChar, Nat.isValidChar] at h
  simp only [Char.toNat]
  omega

/-- The code points of a string literal of the source. -/
def PyStr.ofString (s : String) : PyStr :=
  s.toList.map fun c => ⟨c.toNat, char_toNat_lt c⟩

/-! ### `%d` -/

/-- The code point of the decimal digit `d % 10`. -/
def digitCodePoint (d : ℕ) : CodePoint := ⟨48 + d % 10, by omega⟩

/-- `'%d' % n` for a natural number `n`, most significant digit first. -/
def natDecimal (n : ℕ) : PyStr :=
  if n = 0 then [digitCodePoint 0] else (Nat.digits 10 n).reverse.map digitCodePoint

/-- `'%d' % n`: a minus sign before the digits of a negative number. -/
def decimal (n : ℤ) : PyStr :=
  if n < 0 then 45 :: natDecimal n.natAbs else natDecimal n.toNat

/-- The value of a string of decimal digits, read most significant first. -/
def digitsValue (s : PyStr) : ℕ :=
  s.foldl (fun acc c => 10 * acc + (c.val - 48)) 0

/-- Reading a `%d` rendering back. -/
def decimalValue (s : PyStr) : ℤ :=
  if s.head? = some 45 then -(digitsValue s.tail : ℤ) else digitsValue s

/-- Every code point of a natural number's rendering is a digit. -/
theorem mem_natDecimal {n : ℕ} {c : CodePoint} (h : c ∈ natDecimal n) :
    48 ≤ c.val ∧ c.val < 58 := by
  unfold natDecimal at h
  split_ifs at h
  · simp only [List.mem_singleton] at h
    subst h
    decide
  · obtain ⟨d, -, rfl⟩ := List.mem_map.mp h
    simp only [digitCodePoint]
    omega

/-- A rendering is a minus sign and digits. -/
theorem mem_decimal {n : ℤ} {c : CodePoint} (h : c ∈ decimal n) :
    c = 45 ∨ 48 ≤ c.val ∧ c.val < 58 := by
  unfold decimal at h
  split_ifs at h
  · rcases List.mem_cons.mp h with rfl | h
    · exact .inl rfl
    · exact .inr (mem_natDecimal h)
  · exact .inr (mem_natDecimal h)

/-- Reading back the digits of a number, most significant first, gives the number. -/
theorem digitsValue_reverse_map {L : List ℕ} (hL : ∀ d ∈ L, d < 10) :
    digitsValue (L.reverse.map digitCodePoint) = Nat.ofDigits 10 L := by
  induction L with
  | nil => rfl
  | cons d L ih =>
    have hd : d < 10 := hL d (List.mem_cons_self d L)
    have ih := ih fun e he => hL e (List.mem_cons_of_mem d he)
    simp only [digitsValue, List.reverse_cons, List.map_append, List.foldl_append] at ih ⊢
    simp only [ih, List.map_cons, List.map_nil, List.foldl_cons, List.foldl_nil, digitCodePoint,
      Nat.ofDigits_cons, Nat.cast_id]
    omega

/-- Reading a natural number's rendering back gives the number. -/
theorem digitsValue_natDecimal (n : ℕ) : digitsValue (natDecimal n) = n := by
  unfold natDecimal
  split_ifs with hn
  · subst hn
    rfl
  · rw [digitsValue_reverse_map fun d hd => Nat.digits_lt_base (by norm_num) hd,
      Nat.ofDigits_digits]

/-- Reading a `%d` rendering back gives the integer. -/
theorem decimalValue_decimal (n : ℤ) : decimalValue (decimal n) = n := by
  have hhead : ∀ m : ℕ, (natDecimal m).head? ≠ some 45 := fun m h => by
    exact absurd (mem_natDecimal (List.mem_of_mem_head? h)) (by decide)
  unfold decimal
  split_ifs with hn
  · simp only [decimalValue, List.head?_cons, List.tail_cons, if_true, digitsValue_natDecimal]
    omega
  · simp only [decimalValue, hhead, if_false, digitsValue_natDecimal]
    omega

/-- `%d` renders distinct integers differently. -/
theorem decimal_injective : Function.Injective decimal :=
  Function.LeftInverse.injective decimalValue_decimal

/-! ### `str.encode('utf_8')` -/

/-- A lone surrogate, which the strict UTF-8 codec refuses. -/
def IsSurrogate (c : CodePoint) : Prop := 0xD800 ≤ c.val ∧ c.val < 0xE000

instance : DecidablePred IsSurrogate := fun c =>
  inferInstanceAs (Decidable (0xD800 ≤ c.val ∧ c.val < 0xE000))

/-- A Lean character is never a surrogate, so no string literal of the source holds one. -/
theorem not_isSurrogate_of_mem_ofString {s : String} {c : CodePoint} (h : c ∈ PyStr.ofString s) :
    ¬ IsSurrogate c := by
  obtain ⟨ch, -, rfl⟩ := List.mem_map.mp h
  have hvalid := ch.valid
  simp only [UInt32.isValidChar, Nat.isValidChar] at hvalid
  simp only [IsSurrogate, Char.toNat]
  omega

/-- CPython's UTF-8 encoding of one code point; `none` for a lone surrogate. -/
def encodeCodePoint (c : CodePoint) : Option Bytes :=
  let n := c.val
  if n < 0x80 then some [UInt8.ofNat n]
  else if n < 0x800 then some [UInt8.ofNat (0xC0 + n / 0x40), UInt8.ofNat (0x80 + n % 0x40)]
  else if 0xD800 ≤ n ∧ n < 0xE000 then none
  else if n < 0x10000 then
    some [UInt8.ofNat (0xE0 + n / 0x1000), UInt8.ofNat (0x80 + n / 0x40 % 0x40),
      UInt8.ofNat (0x80 + n % 0x40)]
  else
    some [UInt8.ofNat (0xF0 + n / 0x40000), UInt8.ofNat (0x80 + n / 0x1000 % 0x40),
      UInt8.ofNat (0x80 + n / 0x40 % 0x40), UInt8.ofNat (0x80 + n % 0x40)]

/-- `s.encode('utf_8')`; `none` where CPython raises `UnicodeEncodeError`. -/
def encodeUtf8 : PyStr → Option Bytes
  | [] => some []
  | c :: s => do
    let b ← encodeCodePoint c
    let bs ← encodeUtf8 s
    pure (b ++ bs)

/-- A byte is a newline exactly when its value modulo 256 is 10. -/
theorem ofNat_eq_newline (k : ℕ) : UInt8.ofNat k = 10 ↔ k % 256 = 10 := by
  constructor
  · intro h
    simpa [UInt8.toNat, UInt8.ofNat] using congrArg UInt8.toNat h
  · intro h
    apply UInt8.toNat.inj
    simpa [UInt8.toNat, UInt8.ofNat] using h

/-- Only the newline code point is encoded with a newline byte, and as exactly one. -/
theorem count_encodeCodePoint {c : CodePoint} {b : Bytes} (h : encodeCodePoint c = some b) :
    b.count 10 = if c = 10 then 1 else 0 := by
  have hc := c.isLt
  have hne : ∀ k, 0x80 ≤ k → k < 0x100 → (10 : UInt8) ≠ UInt8.ofNat k := fun k h1 h2 h => by
    rw [eq_comm, ofNat_eq_newline] at h
    omega
  have h10 : c = 10 ↔ c.val = 10 := Fin.ext_iff
  simp only [encodeCodePoint] at h
  split_ifs at h <;> cases h
  · simp only [List.count_singleton, beq_iff_eq, ofNat_eq_newline, h10]
    split_ifs <;> omega
  all_goals
    rw [List.count_eq_zero.mpr, if_neg (by rw [h10]; omega)]
    simp only [List.mem_cons, List.mem_singleton, List.not_mem_nil, or_false, not_or]
    repeat' constructor
    all_goals exact hne _ (by omega) (by omega)

/-- A code point encodes exactly when it is not a lone surrogate. -/
theorem encodeCodePoint_isSome (c : CodePoint) : (encodeCodePoint c).isSome ↔ ¬ IsSurrogate c := by
  simp only [encodeCodePoint, IsSurrogate]
  split_ifs <;> simp <;> omega

/-- A string encodes to the bytes of its first code point and then those of the rest. -/
@[simp] theorem encodeUtf8_cons_eq_some {c : CodePoint} {s : PyStr} {bs : Bytes} :
    encodeUtf8 (c :: s) = some bs ↔
      ∃ b rest, encodeCodePoint c = some b ∧ encodeUtf8 s = some rest ∧ bs = b ++ rest := by
  simp only [encodeUtf8, Option.bind_eq_bind, Option.bind_eq_some, Option.pure_def,
    Option.some.injEq]
  constructor
  · rintro ⟨b, hb, rest, hrest, rfl⟩
    exact ⟨b, rest, hb, hrest, rfl⟩
  · rintro ⟨b, rest, hb, hrest, rfl⟩
    exact ⟨b, hb, rest, hrest, rfl⟩

/-- Encoding succeeds exactly on text without lone surrogates. -/
theorem encodeUtf8_isSome (s : PyStr) : (encodeUtf8 s).isSome ↔ ∀ c ∈ s, ¬ IsSurrogate c := by
  induction s with
  | nil => simp [encodeUtf8]
  | cons c s ih =>
    rw [List.forall_mem_cons, ← ih, ← encodeCodePoint_isSome]
    simp only [encodeUtf8, Option.isSome_iff_exists, Option.bind_eq_bind, Option.pure_def]
    cases encodeCodePoint c <;> cases encodeUtf8 s <;> simp

/-- Encoding a concatenation concatenates the encodings. -/
theorem encodeUtf8_append {s t : PyStr} {a b : Bytes} (hs : encodeUtf8 s = some a)
    (ht : encodeUtf8 t = some b) : encodeUtf8 (s ++ t) = some (a ++ b) := by
  induction s generalizing a with
  | nil =>
    cases hs
    simpa using ht
  | cons c s ih =>
    obtain ⟨x, rest, hx, hrest, rfl⟩ := encodeUtf8_cons_eq_some.mp hs
    exact encodeUtf8_cons_eq_some.mpr ⟨x, rest ++ b, hx, ih hrest, List.append_assoc _ _ _⟩

/-- The newline bytes of an encoding are the encoded text's newlines. -/
theorem count_encodeUtf8 {s : PyStr} {bs : Bytes} (h : encodeUtf8 s = some bs) :
    bs.count 10 = s.count 10 := by
  induction s generalizing bs with
  | nil =>
    cases h
    rfl
  | cons c s ih =>
    obtain ⟨b, rest, hb, hrest, rfl⟩ := encodeUtf8_cons_eq_some.mp h
    rw [List.count_append, count_encodeCodePoint hb, ih hrest, List.count_cons]
    simp only [beq_iff_eq]
    split_ifs <;> omega

/-! ### `bytes.rstrip` -/

/-- `b.rstrip(chars)`: `b` without the bytes of `chars` at its end. -/
def rstrip (chars b : Bytes) : Bytes :=
  b.rdropWhile (chars.contains ·)

end Mrjob

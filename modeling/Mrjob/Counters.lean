import Mrjob.Framing

/-!
# Counters and status lines on stderr

A task talks to Hadoop Streaming through stderr: `increment_counter` writes the line
`reporter:counter:<group>,<counter>,<amount>` and `set_status` the line
`reporter:status:<msg>`, each encoded as UTF-8. Commas in the group and the counter become
semicolons, so the three fields of a counter line always split apart again
(`counterLine_eq`, `counterFields_splitOn`).

Newlines are left as they are: each newline in a group, a counter or a status message ends a
line of its own, which Hadoop reads as a further record. Text with a lone surrogate has no
UTF-8 encoding, and then the method raises `UnicodeEncodeError` with nothing written.

Over a whole run of calls (`Report.forM_send_frames`), reports without newlines and
surrogates write one line each, in order, and Hadoop reads back exactly those lines; the
first report that raises stops the run with the earlier lines already written.
-/

namespace Mrjob

variable {σ : Type}

/-- A Python object, as far as `increment_counter` and `set_status` look at it: a `str`, an
`int`, a `bool`, or any other object by the text `str()` gives for it. -/
inductive PyValue
  | str (s : PyStr)
  | int (n : ℤ)
  | bool (b : Bool)
  | obj (text : PyStr)

/-- `str(x)` -/
def PyValue.toStr : PyValue → PyStr
  | .str s => s
  | .int n => decimal n
  | .bool b => .ofString (if b then "True" else "False")
  | .obj text => text

/-- `isinstance(x, integer_types)`, with the integer `%d` renders; a `bool` is an `int`. -/
def PyValue.asInt : PyValue → Option ℤ
  | .int n => some n
  | .bool b => some (if b then 1 else 0)
  | _ => none

/-- `s.replace(',', ';')` -/
def replaceComma (s : PyStr) : PyStr := s.map fun c => if c = 44 then 59 else c

/-- `'reporter:counter:%s,%s,%d\n' % (group, counter, amount)` -/
def counterLine (group counter : PyStr) (amount : ℤ) : PyStr :=
  .ofString "reporter:counter:" ++ group ++ .ofString "," ++ counter ++ .ofString "," ++
    decimal amount ++ .ofString "\n"

/-- `'reporter:status:%s\n' % (msg,)` -/
def statusLine (msg : PyStr) : PyStr :=
  .ofString "reporter:status:" ++ msg ++ .ofString "\n"

/-- `self.stderr.write(line.encode('utf_8'))` -/
def writeStderrLine (line : PyStr) : Exec σ Unit :=
  match encodeUtf8 line with
  | some bytes => writeStderr bytes
  | none => throw .unicodeEncodeError

/-- `increment_counter(group, counter, amount)`, where `amount` defaults to `1`; `repr` is the
interpreter's `repr()`. -/
def incrementCounter (repr : PyValue → PyStr) (group counter amount : PyValue) : Exec σ Unit :=
  match amount.asInt with
  | none => throw (.typeError [.ofString "amount must be an integer, not " ++ repr amount])
  | some n =>
    writeStderrLine (counterLine (replaceComma group.toStr) (replaceComma counter.toStr) n)

/-- `set_status(msg)` -/
def setStatus (msg : PyValue) : Exec σ Unit :=
  writeStderrLine (statusLine msg.toStr)

/-! ### The text of a line -/

theorem comma_not_mem_replaceComma (s : PyStr) : 44 ∉ replaceComma s := by
  simp only [replaceComma, List.mem_map, not_exists, not_and]
  intro c _
  split_ifs <;> first | decide | assumption

/-- Replacing commas leaves the newlines as they are. -/
@[simp] theorem count_newline_replaceComma (s : PyStr) : (replaceComma s).count 10 = s.count 10 := by
  induction s with
  | nil => rfl
  | cons c s ih =>
    simp only [replaceComma, List.map_cons, List.count_cons] at ih ⊢
    rw [ih]
    by_cases h : c = 44
    · subst h
      rfl
    · simp only [h, if_false]

/-- Replacing commas neither adds nor removes a lone surrogate. -/
theorem isSurrogate_replaceComma {s : PyStr} :
    (∃ c ∈ replaceComma s, IsSurrogate c) ↔ ∃ c ∈ s, IsSurrogate c := by
  simp only [replaceComma, List.mem_map, exists_exists_and_eq_and]
  refine exists_congr fun c => and_congr_right fun _ => ?_
  split_ifs with h
  · subst h
    decide
  · rfl

/-- A decimal holds no newline. -/
theorem newline_not_mem_decimal (n : ℤ) : 10 ∉ decimal n := fun h => by
  rcases mem_decimal h with h | h
  · exact absurd h (by decide)
  · exact absurd h.1 (by decide)

/-- A decimal holds no comma. -/
theorem comma_not_mem_decimal (n : ℤ) : 44 ∉ decimal n := fun h => by
  rcases mem_decimal h with h | h
  · exact absurd h (by decide)
  · exact absurd h.1 (by decide)

/-- A decimal holds no lone surrogate. -/
theorem not_isSurrogate_of_mem_decimal {n : ℤ} {c : CodePoint} (h : c ∈ decimal n) :
    ¬ IsSurrogate c := by
  rcases mem_decimal h with rfl | h
  · decide
  · exact fun hs => by have := hs.1; omega

/-- A counter line is its prefix, then the three fields joined by commas, then a newline. -/
theorem counterLine_eq (group counter : PyStr) (amount : ℤ) :
    counterLine group counter amount =
      .ofString "reporter:counter:" ++ [44].intercalate [group, counter, decimal amount] ++
        .ofString "\n" := by
  simp [counterLine, List.intercalate]
  rfl

/-- The fields of a counter line split apart again when neither name has a comma. -/
theorem counterFields_splitOn {group counter : PyStr} (hg : 44 ∉ group) (hc : 44 ∉ counter)
    (amount : ℤ) :
    ([44].intercalate [group, counter, decimal amount]).splitOn 44 =
      [group, counter, decimal amount] := by
  apply List.splitOn_intercalate
  · simp only [List.mem_cons, List.mem_singleton, List.not_mem_nil, or_false]
    rintro l (rfl | rfl | rfl)
    exacts [hg, hc, comma_not_mem_decimal amount]
  · simp

/-! ### Writing a line -/

theorem encodeUtf8_eq_none {s : PyStr} : encodeUtf8 s = none ↔ ∃ c ∈ s, IsSurrogate c := by
  rw [← Option.not_isSome_iff_eq_none, encodeUtf8_isSome]
  push_neg
  rfl

/-- A text without lone surrogates followed by a newline encodes to bytes with one more
newline than the text, the last of them at the end. -/
theorem encodeUtf8_line {s : PyStr} (h : ∀ c ∈ s ++ .ofString "\n", ¬ IsSurrogate c) :
    ∃ bytes, encodeUtf8 (s ++ .ofString "\n") = some bytes ∧
      bytes.count 10 = s.count 10 + 1 ∧ bytes.getLast? = some 10 := by
  obtain ⟨a, ha⟩ := Option.isSome_iff_exists.mp
    ((encodeUtf8_isSome s).mpr fun c hc => h c (List.mem_append_left _ hc))
  have hline := encodeUtf8_append ha (show encodeUtf8 (PyStr.ofString "\n") = some [10] from rfl)
  refine ⟨_, hline, ?_, by simp⟩
  rw [count_encodeUtf8 hline, List.count_append]
  rfl

/-- A counter line has a lone surrogate exactly where the texts of its group and counter
have one. -/
theorem isSurrogate_counterLine {group counter : PyStr} {n : ℤ} :
    (∃ c ∈ counterLine (replaceComma group) (replaceComma counter) n, IsSurrogate c) ↔
      ∃ c ∈ group ++ counter, IsSurrogate c := by
  have hdec : ¬ ∃ c ∈ decimal n, IsSurrogate c := fun ⟨_, hc, hs⟩ =>
    not_isSurrogate_of_mem_decimal hc hs
  have hlit : ∀ s, ¬ ∃ c ∈ PyStr.ofString s, IsSurrogate c := fun _ ⟨_, hc, hs⟩ =>
    not_isSurrogate_of_mem_ofString hc hs
  simp only [counterLine, List.mem_append, or_and_right, exists_or, hdec, hlit, or_false,
    false_or, isSurrogate_replaceComma]

/-- A status line holds a lone surrogate exactly when its message does. -/
theorem isSurrogate_statusLine {msg : PyStr} :
    (∃ c ∈ statusLine msg, IsSurrogate c) ↔ ∃ c ∈ msg, IsSurrogate c := by
  have hlit : ∀ s, ¬ ∃ c ∈ PyStr.ofString s, IsSurrogate c := fun _ ⟨_, hc, hs⟩ =>
    not_isSurrogate_of_mem_ofString hc hs
  simp only [statusLine, List.mem_append, or_and_right, exists_or, hlit, or_false, false_or]

/-- A line that encodes is appended to stderr as its bytes. -/
theorem writeStderrLine_of_some {line : PyStr} {bytes : Bytes} (h : encodeUtf8 line = some bytes)
    (w : World σ) :
    (writeStderrLine line).run w = .ok () { w with stderr := w.stderr ++ bytes } := by
  simp only [writeStderrLine, h, writeStderr_run]

/-- A line that does not encode raises `UnicodeEncodeError` and writes nothing. -/
theorem writeStderrLine_of_none {line : PyStr} (h : encodeUtf8 line = none) (w : World σ) :
    (writeStderrLine line : Exec σ Unit).run w = .error .unicodeEncodeError w := by
  simp only [writeStderrLine, h, run_throw]

/-! ### `increment_counter` and `set_status` -/

/-- An integer amount and texts without lone surrogates append the counter line's encoding to
stderr, with one newline more than the texts hold, the last byte among them. -/
theorem incrementCounter_run_of_free (repr : PyValue → PyStr) (group counter amount : PyValue)
    {n : ℤ} (hn : amount.asInt = some n)
    (hfree : ∀ c ∈ group.toStr ++ counter.toStr, ¬ IsSurrogate c) (w : World σ) :
    ∃ bytes, encodeUtf8 (counterLine (replaceComma group.toStr) (replaceComma counter.toStr) n) =
        some bytes ∧
      (incrementCounter repr group counter amount).run w =
        .ok () { w with stderr := w.stderr ++ bytes } ∧
      bytes.count 10 = group.toStr.count 10 + counter.toStr.count 10 + 1 ∧
      bytes.getLast? = some 10 := by
  have hline : ∀ c ∈ counterLine (replaceComma group.toStr) (replaceComma counter.toStr) n,
      ¬ IsSurrogate c := fun c hc hsc => by
    obtain ⟨x, hx, hxs⟩ := isSurrogate_counterLine.mp ⟨c, hc, hsc⟩
    exact hfree x hx hxs
  obtain ⟨bytes, hbytes, hcount, hlast⟩ := encodeUtf8_line hline
  refine ⟨bytes, hbytes, by simp only [incrementCounter, hn]; exact writeStderrLine_of_some hbytes w,
    ?_, hlast⟩
  have hprefix : (PyStr.ofString "reporter:counter:").count 10 = 0 := by decide
  have hcomma : (PyStr.ofString ",").count 10 = 0 := by decide
  rw [hcount]
  simp only [List.count_append, count_newline_replaceComma, hprefix, hcomma,
    List.count_eq_zero_of_not_mem (newline_not_mem_decimal n)]
  omega

/-- A message text without lone surrogates appends the status line's encoding to stderr,
with one newline more than the text holds, the last byte among them. -/
theorem setStatus_run_of_free (msg : PyValue) (hfree : ∀ c ∈ msg.toStr, ¬ IsSurrogate c)
    (w : World σ) :
    ∃ bytes, encodeUtf8 (statusLine msg.toStr) = some bytes ∧
      (setStatus msg).run w = .ok () { w with stderr := w.stderr ++ bytes } ∧
      bytes.count 10 = msg.toStr.count 10 + 1 ∧ bytes.getLast? = some 10 := by
  have hline : ∀ c ∈ statusLine msg.toStr, ¬ IsSurrogate c := fun c hc hsc => by
    obtain ⟨x, hx, hxs⟩ := isSurrogate_statusLine.mp ⟨c, hc, hsc⟩
    exact hfree x hx hxs
  obtain ⟨bytes, hbytes, hcount, hlast⟩ := encodeUtf8_line hline
  refine ⟨bytes, hbytes, writeStderrLine_of_some hbytes w, ?_, hlast⟩
  have hprefix : (PyStr.ofString "reporter:status:").count 10 = 0 := by decide
  rw [hcount, List.count_append, hprefix, Nat.zero_add]

/-- `increment_counter` and `set_status` write one reporter line each: a non-integer amount
raises `TypeError`, a lone surrogate `UnicodeEncodeError`, with nothing written; otherwise the
line's UTF-8 encoding is appended to stderr, its fields split apart again, and it ends in the
one newline more than the texts hold. -/
theorem incrementCounter_setStatus_lines (repr : PyValue → PyStr) (group counter amount msg : PyValue)
    (w : World σ) :
    (amount.asInt = none →
      (incrementCounter repr group counter amount).run w =
        .error (.typeError [.ofString "amount must be an integer, not " ++ repr amount]) w) ∧
    (∀ n, amount.asInt = some n →
      counterLine (replaceComma group.toStr) (replaceComma counter.toStr) n =
        .ofString "reporter:counter:" ++
          [44].intercalate [replaceComma group.toStr, replaceComma counter.toStr, decimal n] ++
          .ofString "\n" ∧
      ([44].intercalate [replaceComma group.toStr, replaceComma counter.toStr, decimal n]).splitOn 44 =
        [replaceComma group.toStr, replaceComma counter.toStr, decimal n] ∧
      ((∃ c ∈ group.toStr ++ counter.toStr, IsSurrogate c) →
        (incrementCounter repr group counter amount).run w = .error .unicodeEncodeError w) ∧
      ((∀ c ∈ group.toStr ++ counter.toStr, ¬ IsSurrogate c) → ∃ bytes,
        encodeUtf8 (counterLine (replaceComma group.toStr) (replaceComma counter.toStr) n) =
          some bytes ∧
        (incrementCounter repr group counter amount).run w =
          .ok () { w with stderr := w.stderr ++ bytes } ∧
        bytes.count 10 = group.toStr.count 10 + counter.toStr.count 10 + 1 ∧
        bytes.getLast? = some 10)) ∧
    ((∃ c ∈ msg.toStr, IsSurrogate c) → (setStatus msg).run w = .error .unicodeEncodeError w) ∧
    ((∀ c ∈ msg.toStr, ¬ IsSurrogate c) → ∃ bytes,
      encodeUtf8 (statusLine msg.toStr) = some bytes ∧
      (setStatus msg).run w = .ok () { w with stderr := w.stderr ++ bytes } ∧
      bytes.count 10 = msg.toStr.count 10 + 1 ∧ bytes.getLast? = some 10) := by
  refine ⟨fun h => by simp only [incrementCounter, h, run_throw], fun n hn => ⟨counterLine_eq _ _ n,
    counterFields_splitOn (comma_not_mem_replaceComma _) (comma_not_mem_replaceComma _) n,
    fun hs => ?_, fun hs => incrementCounter_run_of_free repr group counter amount hn hs w⟩,
    fun hs => writeStderrLine_of_none (encodeUtf8_eq_none.mpr (isSurrogate_statusLine.mpr hs)) w,
    fun hs => setStatus_run_of_free msg hs w⟩
  simp only [incrementCounter, hn]
  exact writeStderrLine_of_none (encodeUtf8_eq_none.mpr (isSurrogate_counterLine.mpr hs)) w

/-- The spec's example: group `'a,b'`, counter `'c,d'` and amount `5` write the one line
`reporter:counter:a;b,c;d,5`. -/
theorem incrementCounter_spec_example :
    (PyValue.int 5).asInt = some 5 ∧
      (∀ c ∈ (PyValue.str (.ofString "a,b")).toStr ++ (PyValue.str (.ofString "c,d")).toStr,
        ¬ IsSurrogate c) ∧
      ∃ bytes, encodeUtf8 (counterLine (replaceComma (.ofString "a,b"))
          (replaceComma (.ofString "c,d")) 5) = some bytes ∧
        (incrementCounter (fun _ => []) (.str (.ofString "a,b")) (.str (.ofString "c,d")) (.int 5) :
          Exec Unit Unit).run ⟨(), [], []⟩ = .ok () ⟨(), [], [] ++ bytes⟩ ∧
        bytes.count 10 = (PyStr.ofString "a,b").count 10 + (PyStr.ofString "c,d").count 10 + 1 ∧
        bytes.getLast? = some 10 :=
  have hfree : ∀ c ∈ (PyValue.str (.ofString "a,b")).toStr ++ (PyValue.str (.ofString "c,d")).toStr,
      ¬ IsSurrogate c := fun _ hc =>
    (List.mem_append.mp hc).elim not_isSurrogate_of_mem_ofString not_isSurrogate_of_mem_ofString
  ⟨rfl, hfree, ((incrementCounter_setStatus_lines (fun _ => []) (.str (.ofString "a,b"))
    (.str (.ofString "c,d")) (.int 5) (.str []) (⟨(), [], []⟩ : World Unit)).2.1 5 rfl).2.2.2 hfree⟩

example : (incrementCounter (fun _ => []) (.str (.ofString "a,b")) (.str (.ofString "c,d"))
    (.int 5) : Exec Unit Unit).run ⟨(), [], []⟩ =
      .ok () ⟨(), [], asciiBytes (.ofString "reporter:counter:a;b,c;d,5\n")⟩ := by
  have h5 : decimal 5 = .ofString "5" := by
    rw [decimal, if_neg (by decide), natDecimal, if_neg (by decide),
      Nat.digits_of_lt 10 _ (by decide) (by decide)]
    rfl
  simp only [incrementCounter, PyValue.asInt, counterLine, h5]
  rfl

/-- A newline in a group ends the counter line early, so the bytes written hold two newlines;
a status message with a newline writes two status records. -/
theorem newline_adds_reporter_line :
    (∃ bytes, (incrementCounter (fun _ => []) (.str (.ofString "a\nb")) (.str (.ofString "c"))
        (.int 1) : Exec Unit Unit).run ⟨(), [], []⟩ = .ok () ⟨(), [], [] ++ bytes⟩ ∧
      bytes.count 10 = 2) ∧
    statusLine (.ofString "x\nreporter:status:y") =
      statusLine (.ofString "x") ++ statusLine (.ofString "y") ∧
    ∃ bytes, encodeUtf8 (statusLine (.ofString "x") ++ statusLine (.ofString "y")) = some bytes ∧
      (setStatus (.str (.ofString "x\nreporter:status:y")) : Exec Unit Unit).run ⟨(), [], []⟩ =
        .ok () ⟨(), [], [] ++ bytes⟩ := by
  obtain ⟨b, -, hrun, hcount, -⟩ := incrementCounter_run_of_free (fun _ => [])
    (.str (.ofString "a\nb")) (.str (.ofString "c")) (.int 1) rfl (fun _ hc =>
      (List.mem_append.mp hc).elim not_isSurrogate_of_mem_ofString not_isSurrogate_of_mem_ofString)
    (⟨(), [], []⟩ : World Unit)
  have hsplit : statusLine (.ofString "x\nreporter:status:y") =
      statusLine (.ofString "x") ++ statusLine (.ofString "y") := rfl
  obtain ⟨b', hb', hrun', -⟩ := setStatus_run_of_free (.str (.ofString "x\nreporter:status:y"))
    (fun _ => not_isSurrogate_of_mem_ofString) (⟨(), [], []⟩ : World Unit)
  refine ⟨⟨b, hrun, ?_⟩, hsplit, b', hsplit ▸ hb', hrun'⟩
  rw [hcount]
  decide

/-! ### A run of reports -/

/-- One call a task makes to report to Hadoop Streaming. -/
inductive Report
  | counter (group counter amount : PyValue)
  | status (msg : PyValue)

/-- The call itself: `increment_counter(group, counter, amount)` or `set_status(msg)`. -/
def Report.send (repr : PyValue → PyStr) : Report → Exec σ Unit
  | .counter group name amount => incrementCounter repr group name amount
  | .status msg => setStatus msg

/-- The texts a report takes from its arguments. -/
def Report.texts : Report → PyStr
  | .counter group name _ => group.toStr ++ name.toStr
  | .status msg => msg.toStr

/-- The line a report writes, or `none` when its amount is not an integer. -/
def Report.line : Report → Option PyStr
  | .counter group name amount =>
    amount.asInt.map (counterLine (replaceComma group.toStr) (replaceComma name.toStr))
  | .status msg => some (statusLine msg.toStr)

/-- A report that writes exactly one reporter line: an integer amount, and texts with neither
a newline nor a lone surrogate. -/
def Report.Fits (r : Report) : Prop :=
  r.line.isSome ∧ ∀ c ∈ r.texts, c ≠ 10 ∧ ¬ IsSurrogate c

/-- Decided over the report's texts, not over every code point. -/
instance : DecidablePred Report.Fits := fun r =>
  @instDecidableAnd _ _ _ (List.decidableBAll (fun c => c ≠ 10 ∧ ¬ IsSurrogate c) r.texts)

/-- Bytes whose one newline is their last byte are a body without newline, then that newline. -/
theorem exists_body_of_count_newline {bytes : Bytes} (hcount : bytes.count 10 = 1)
    (hlast : bytes.getLast? = some 10) : ∃ body, bytes = body ++ [10] ∧ 10 ∉ body := by
  obtain ⟨body, rfl⟩ := List.getLast?_eq_some_iff.mp hlast
  refine ⟨body, rfl, fun hm => ?_⟩
  rw [List.count_append, List.count_singleton_self] at hcount
  have := List.count_pos_iff.mpr hm
  omega

/-- A report that fits appends its line's encoding to stderr: a body without newline, then
one newline. -/
theorem Report.send_of_fits (repr : PyValue → PyStr) {r : Report} (h : r.Fits) (w : World σ) :
    ∃ line body, r.line = some line ∧ encodeUtf8 line = some (body ++ [10]) ∧ 10 ∉ body ∧
      (r.send repr).run w = .ok () { w with stderr := w.stderr ++ (body ++ [10]) } := by
  have hnl : r.texts.count 10 = 0 := List.count_eq_zero.mpr fun hm => (h.2 10 hm).1 rfl
  have hfree : ∀ c ∈ r.texts, ¬ IsSurrogate c := fun c hc => (h.2 c hc).2
  cases r with
  | counter group name amount =>
    obtain ⟨n, hn⟩ := Option.isSome_iff_exists.mp (Option.isSome_map' ▸ h.1)
    obtain ⟨bytes, hbytes, hrun, hcount, hlast⟩ :=
      incrementCounter_run_of_free repr group name amount hn hfree w
    rw [Report.texts, List.count_append] at hnl
    obtain ⟨body, rfl, hbody⟩ := exists_body_of_count_newline (by omega) hlast
    exact ⟨_, body, by simp only [Report.line, hn, Option.map_some'], hbytes, hbody, hrun⟩
  | status msg =>
    obtain ⟨bytes, hbytes, hrun, hcount, hlast⟩ := setStatus_run_of_free msg hfree w
    obtain ⟨body, rfl, hbody⟩ := exists_body_of_count_newline (by rw [hcount, ← Report.texts, hnl]) hlast
    exact ⟨_, body, rfl, hbytes, hbody, hrun⟩

/-- A report with an amount that is not an integer, or with a lone surrogate in its texts,
raises and leaves the world as it was. -/
theorem Report.send_raises (repr : PyValue → PyStr) {r : Report}
    (h : r.line = none ∨ ∃ c ∈ r.texts, IsSurrogate c) (w : World σ) :
    ∃ e, (r.send repr).run w = .error e w := by
  cases r with
  | counter group name amount =>
    cases hn : amount.asInt with
    | none => simp [Report.send, incrementCounter, hn]
    | some n =>
      have hs := h.resolve_left (by simp only [Report.line, hn, Option.map_some', ne_eq,
        reduceCtorEq, not_false_eq_true])
      refine ⟨.unicodeEncodeError, ?_⟩
      simp only [Report.send, incrementCounter, hn]
      exact writeStderrLine_of_none (encodeUtf8_eq_none.mpr (isSurrogate_counterLine.mpr hs)) w
  | status msg =>
    have hs := h.resolve_left (by simp only [Report.line, ne_eq, reduceCtorEq, not_false_eq_true])
    exact ⟨_, writeStderrLine_of_none (encodeUtf8_eq_none.mpr (isSurrogate_statusLine.mpr hs)) w⟩

/-- A run of reports that all fit appends one line per report, in order. -/
theorem Report.forM_send_of_fits (repr : PyValue → PyStr) :
    ∀ (rs : List Report), (∀ r ∈ rs, r.Fits) → ∀ w : World σ, ∃ bodies : List Bytes,
      List.Forall₂ (fun r body => ∃ line, r.line = some line ∧
        encodeUtf8 line = some (body ++ [10]) ∧ 10 ∉ body) rs bodies ∧
      (rs.forM (Report.send repr)).run w =
        .ok () { w with stderr := w.stderr ++ (bodies.map (· ++ [10])).flatten }
  | [], _, w => ⟨[], .nil, by
    simp only [List.forM_nil', List.map_nil, List.flatten_nil, List.append_nil]
    rfl⟩
  | r :: rs, hfits, w => by
    obtain ⟨line, body, hline, henc, hbody, hrun⟩ :=
      Report.send_of_fits repr (hfits r (List.mem_cons_self r rs)) w
    obtain ⟨bodies, hrel, hrest⟩ := Report.forM_send_of_fits repr rs
      (fun r' hr' => hfits r' (List.mem_cons_of_mem r hr')) _
    refine ⟨body :: bodies, .cons ⟨line, hline, henc, hbody⟩ hrel, ?_⟩
    rw [List.forM_cons', run_bind_of_ok hrun, hrest]
    simp only [List.map_cons, List.flatten_cons, List.append_assoc]

/-- Over any run of reports whose texts hold no newline and no lone surrogate, stderr gets one
line per report, in order, and splitting it at newlines gives them back; a report that raises
after them stops the run with the earlier lines written. -/
theorem Report.forM_send_frames (repr : PyValue → PyStr) (rs : List Report)
    (hfits : ∀ r ∈ rs, r.Fits) (w : World σ) :
    ∃ bodies : List Bytes,
      List.Forall₂ (fun r body => ∃ line, r.line = some line ∧
        encodeUtf8 line = some (body ++ [10]) ∧ 10 ∉ body) rs bodies ∧
      (rs.forM (Report.send repr)).run w =
        .ok () { w with stderr := w.stderr ++ (bodies.map (· ++ [10])).flatten } ∧
      splitLines (bodies.map (· ++ [10])).flatten = bodies.map (· ++ [10]) ∧
      ∀ bad more, (bad.line = none ∨ ∃ c ∈ bad.texts, IsSurrogate c) →
        ∃ e, ((rs ++ bad :: more).forM (Report.send repr)).run w =
          .error e { w with stderr := w.stderr ++ (bodies.map (· ++ [10])).flatten } := by
  obtain ⟨bodies, hrel, hrun⟩ := Report.forM_send_of_fits repr rs hfits w
  refine ⟨bodies, hrel, hrun, splitLines_records bodies
    (newline_not_mem_of_forall₂ (fun _ _ ⟨_, _, _, hb⟩ => hb) hrel), fun bad more hbad => ?_⟩
  obtain ⟨e, he⟩ := Report.send_raises repr hbad
    { w with stderr := w.stderr ++ (bodies.map (· ++ [10])).flatten }
  refine ⟨e, ?_⟩
  rw [List.forM_append, run_bind_of_ok hrun, List.forM_cons', run_bind_of_error he]

/-- A counter report and a status report, both of which fit. -/
def counterAndStatus : List Report :=
  [.counter (.str (.ofString "words")) (.str (.ofString "seen")) (.int 3),
    .status (.str (.ofString "done"))]

/-- `counterAndStatus` writes two lines to stderr, each the encoding of its report's line. -/
theorem counterAndStatus_frames :
    (∀ r ∈ counterAndStatus, r.Fits) ∧
    ∃ bodies : List Bytes,
      List.Forall₂ (fun r body => ∃ line, r.line = some line ∧
        encodeUtf8 line = some (body ++ [10]) ∧ 10 ∉ body) counterAndStatus bodies ∧
      (counterAndStatus.forM (Report.send fun _ => [])).run (⟨(), [], []⟩ : World Unit) =
        .ok () ⟨(), [], [] ++ (bodies.map (· ++ [10])).flatten⟩ ∧
      splitLines (bodies.map (· ++ [10])).flatten = bodies.map (· ++ [10]) ∧
      ∀ bad more, (bad.line = none ∨ ∃ c ∈ bad.texts, IsSurrogate c) →
        ∃ e, ((counterAndStatus ++ bad :: more).forM (Report.send fun _ => [])).run
            (⟨(), [], []⟩ : World Unit) =
          .error e ⟨(), [], [] ++ (bodies.map (· ++ [10])).flatten⟩ :=
  have hfits : ∀ r ∈ counterAndStatus, r.Fits := by decide
  ⟨hfits, Report.forM_send_frames (fun _ => []) counterAndStatus hfits ⟨(), [], []⟩⟩

end Mrjob

import Mrjob.Negotiation

/-!
# Records on the wire

Between steps records travel as lines. `write_line` writes `write(key, value)` and then
`b'\n'`; the next task reads its input line by line from stdin or from files
(`_read_input`), strips the terminator with `line.rstrip(b'\r\n')` and decodes what is left
(`read_lines`). The job's final output is read back by `parse_output`, which cuts a stream
of byte chunks into lines with `mrjob.util.to_lines` and decodes each line as it is.

`rstrip` removes every trailing `b'\r'` and `b'\n'`, not only the terminator `write_line`
added, so a record survives the trip when it does not end in `b'\r'`
(`readLines_writeLine`). `parse_output` does not strip at all, so a protocol whose `read`
keeps a trailing newline gets its values back with one. The deprecated `parse_output_line`
decodes one line as it is, and logs its deprecation warning at a job's first call only
(`MRJob.parseOutputLines_warns_once`).
-/

namespace Mrjob

variable {σ K V : Type}

/-! ### Lines -/

/-- Iterating a binary stream from `line`, the part of a line already read: lines end
after each `b'\n'`, which they keep, and a last line without one is kept when not empty. -/
def splitLinesFrom (line : Bytes) : Bytes → List Bytes
  | [] => if line = [] then [] else [line]
  | b :: rest =>
    if b = 10 then (line ++ [10]) :: splitLinesFrom [] rest else splitLinesFrom (line ++ [b]) rest

/-- The lines `for line in stream` gives for a binary stream holding `data`. -/
def splitLines (data : Bytes) : List Bytes :=
  splitLinesFrom [] data

/-- One chunk through `to_lines`: the lines it completes, and what is left of the line it
leaves open, given the `leftovers` of earlier chunks. -/
def toLinesChunk (leftovers : Bytes) : Bytes → List Bytes × Bytes
  | [] => ([], leftovers)
  | b :: rest =>
    if b = 10 then
      let r := toLinesChunk [] rest
      ((leftovers ++ [10]) :: r.1, r.2)
    else toLinesChunk (leftovers ++ [b]) rest

/-- What `to_lines` yields for the line left open where a stream of chunks ends: the line,
unless it is empty. -/
def flushLeftovers (leftovers : Bytes) : List Bytes :=
  if leftovers = [] then [] else [leftovers]

/-- The loop of `to_lines` over the remaining chunks. An empty chunk stands for the end of a
file: it ends the line left open. -/
def toLinesLoop (leftovers : Bytes) : List Bytes → List Bytes
  | [] => flushLeftovers leftovers
  | chunk :: chunks =>
    if chunk = [] then flushLeftovers leftovers ++ toLinesLoop [] chunks
    else
      let r := toLinesChunk leftovers chunk
      r.1 ++ toLinesLoop r.2 chunks

/-- `mrjob.util.to_lines(chunks)`, which is not in the source: it cuts a stream of byte chunks
into lines, each keeping its `b'\n'`, carrying the unfinished end of a chunk over to the next;
an empty chunk `b''` stands for the end of a file and ends the line left open. -/
def toLines (chunks : List Bytes) : List Bytes :=
  toLinesLoop [] chunks

/-- Reading a chunk continues the line left open. -/
theorem splitLinesFrom_append (line chunk rest : Bytes) :
    splitLinesFrom line (chunk ++ rest) =
      (toLinesChunk line chunk).1 ++ splitLinesFrom (toLinesChunk line chunk).2 rest := by
  induction chunk generalizing line with
  | nil => rfl
  | cons b chunk ih =>
    simp only [List.cons_append, splitLinesFrom, toLinesChunk, List.append_eq]
    split_ifs
    · rw [ih]
      rfl
    · exact ih _

/-- Without an empty chunk, `to_lines` cuts the stream where the bytes say, wherever the
chunks are cut. -/
theorem toLines_eq_splitLines {chunks : List Bytes} (h : [] ∉ chunks) :
    toLines chunks = splitLines chunks.flatten := by
  suffices hfrom : ∀ leftovers, toLinesLoop leftovers chunks =
      splitLinesFrom leftovers chunks.flatten from hfrom []
  induction chunks with
  | nil => exact fun _ => rfl
  | cons chunk chunks ih =>
    intro leftovers
    have hchunk : chunk ≠ [] := fun hc => h (hc ▸ List.mem_cons_self _ _)
    rw [toLinesLoop, if_neg hchunk]
    dsimp only
    rw [ih fun h' => h (List.mem_cons_of_mem _ h'), List.flatten_cons, splitLinesFrom_append]

/-- An empty chunk ends the line left open: the chunks before it and after it are cut into
lines on their own. -/
theorem toLinesLoop_eof (leftovers : Bytes) (chunks rest : List Bytes) :
    toLinesLoop leftovers (chunks ++ [] :: rest) = toLinesLoop leftovers chunks ++ toLines rest := by
  induction chunks generalizing leftovers with
  | nil =>
    simp only [List.nil_append, toLinesLoop, if_true]
    rfl
  | cons chunk chunks ih =>
    rw [List.cons_append, toLinesLoop, toLinesLoop]
    split_ifs
    · rw [ih, List.append_assoc]
    · dsimp only
      rw [ih, List.append_assoc]

/-- Files one after another with an empty chunk between each two, as the runner hands on the
final output: each file is cut into lines on its own. -/
theorem toLines_intercalate (files : List (List Bytes)) :
    toLines ([[]].intercalate files) = files.flatMap toLines := by
  induction files with
  | nil => rfl
  | cons chunks files ih =>
    cases files with
    | nil => simp [List.intercalate]
    | cons chunks' files =>
      have hsep : [[]].intercalate (chunks :: chunks' :: files) =
          chunks ++ [] :: [[]].intercalate (chunks' :: files) := by
        simp [List.intercalate]
      rw [hsep, toLines, toLinesLoop_eof, ← toLines, ih]
      simp only [List.flatMap_cons]

/-- A record and its newline complete the line left open. -/
theorem splitLinesFrom_record (line r rest : Bytes) (hr : 10 ∉ r) :
    splitLinesFrom line (r ++ 10 :: rest) = (line ++ r ++ [10]) :: splitLinesFrom [] rest := by
  induction r generalizing line with
  | nil => simp [splitLinesFrom]
  | cons b r ih =>
    have hb : b ≠ 10 := fun h => hr (h ▸ List.mem_cons_self b r)
    simp only [List.cons_append, splitLinesFrom, hb, if_false, List.append_eq]
    rw [ih _ fun h => hr (List.mem_cons_of_mem b h)]
    simp

/-- Records without a newline, each written with one after it, are read back as lines,
whatever follows them. -/
theorem splitLines_records_append (records : List Bytes) (h : ∀ r ∈ records, 10 ∉ r)
    (rest : Bytes) :
    splitLines ((records.map (· ++ [10])).flatten ++ rest) =
      records.map (· ++ [10]) ++ splitLines rest := by
  induction records with
  | nil => rfl
  | cons r records ih =>
    simp only [List.map_cons, List.flatten_cons, List.append_assoc, List.singleton_append,
      List.cons_append]
    rw [splitLines, splitLinesFrom_record _ _ _ (h r (List.mem_cons_self r records)), List.nil_append,
      ← splitLines, List.nil_append, ih fun r' hr' => h r' (List.mem_cons_of_mem r hr')]

/-- The lines of records written one per line are those records, each with its newline. -/
theorem splitLines_records (records : List Bytes) (h : ∀ r ∈ records, 10 ∉ r) :
    splitLines (records.map (· ++ [10])).flatten = records.map (· ++ [10]) := by
  simpa [splitLines, splitLinesFrom] using splitLines_records_append records h []

/-! ### `_read_input`, `read_lines` and `write_line` -/

/-- What a task can read: stdin; each file it can open, by the chunks its reads return; and
why `open` fails at any other path. -/
structure Env where
  stdin : Bytes
  files : PyStr → Option (List Bytes)
  openFailure : PyStr → OpenFailure

/-- What `decompress(f, path)` yields for a file whose reads return `chunks`: the non-empty
ones, since `to_chunks` yields a read only when it is not empty (`mrjob.cat` is not in the
source, and decompressing `.gz` and `.bz2` files is left out). -/
def decompress (chunks : List Bytes) : List Bytes :=
  chunks.filter (· ≠ [])

/-- A file's lines are the lines of its bytes, however its reads cut them. -/
theorem toLines_decompress (chunks : List Bytes) :
    toLines (decompress chunks) = splitLines chunks.flatten := by
  rw [toLines_eq_splitLines (by simp [decompress]), decompress, List.flatten_filter_ne_nil]

/-- The loop of `_read_input()` over `paths`; `stdinRead` once `-` has been read, after which
stdin gives nothing. A path that cannot be opened raises when its turn comes. -/
def readInputFrom (env : Env) (stdinRead : Bool) : List PyStr → List (Except PyError Bytes)
  | [] => []
  | path :: paths =>
    if path = .ofString "-" then
      (if stdinRead then [] else (splitLines env.stdin).map .ok) ++ readInputFrom env true paths
    else
      match env.files path with
      | some chunks => (toLines (decompress chunks)).map .ok ++ readInputFrom env stdinRead paths
      | none => [.error (.osError (env.openFailure path) path)]

/-- `_read_input()`: the input lines, from the paths `self.options.args or ['-']`. -/
def readInput (args : List PyStr) (env : Env) : List (Except PyError Bytes) :=
  readInputFrom env false (if args = [] then [.ofString "-"] else args)

/-- One pull of `read_lines()`: the next input line, stripped of `b'\r'`s and `b'\n'`s at
its end and decoded. -/
def readLinesItem (read : Bytes → Except PyError (K × V)) (item : Except PyError Bytes) :
    Except PyError (K × V) := do
  let line ← item
  read (rstrip [13, 10] line)

/-- `write_line(key, value)` -/
def writeLine (write : K → V → Except PyError Bytes) (pair : K × V) : Exec σ Unit := do
  let record ← liftExcept (write pair.1 pair.2)
  writeStdout record
  writeStdout [10]

/-- `parse_output(chunks)`: the final output, decoded line by line with the output protocol. -/
def MRJob.parseOutput (job : MRJob σ K V) (chunks : List Bytes) : Except PyError (List (K × V)) :=
  (toLines chunks).mapM job.outputProtocol.read

/-! ### The trip from `write_line` to `read_lines` -/

/-- Stripping the terminator gives a record back unless it ends in `b'\r'` or `b'\n'`. -/
theorem rstrip_record (r : Bytes) (h10 : 10 ∉ r) (h13 : r.getLast? ≠ some 13) :
    rstrip [13, 10] (r ++ [10]) = r := by
  rw [rstrip, List.rdropWhile_concat_pos _ _ _ (by decide), List.rdropWhile_eq_self_iff]
  intro hne
  have hlast := List.getLast_mem hne
  rw [List.getLast?_eq_getLast r hne, ne_eq, Option.some.injEq] at h13
  simp only [List.contains_cons, List.contains_nil, Bool.or_false, Bool.or_eq_true, beq_iff_eq,
    not_or]
  exact ⟨h13, fun h => h10 (h ▸ hlast)⟩

/-- `write_line` of a pair the protocol writes appends its record and a newline to stdout. -/
theorem writeLine_run (write : K → V → Except PyError Bytes) (p : K × V) (r : Bytes)
    (h : write p.1 p.2 = .ok r) (w : World σ) :
    (writeLine write p).run w = .ok () { w with stdout := w.stdout ++ (r ++ [10]) } := by
  simp only [writeLine, h, liftExcept_ok, pure_bind]
  rw [run_bind_of_ok (writeStdout_run r w), writeStdout_run, List.append_assoc]

/-- `write_line` over `ps` appends each record and a newline to stdout, in order. -/
theorem forM_writeLine_run (write : K → V → Except PyError Bytes) (ps : List (K × V))
    (records : List Bytes) (h : List.Forall₂ (fun p r => write p.1 p.2 = .ok r) ps records)
    (w : World σ) :
    (ps.forM (writeLine write)).run w =
      .ok () { w with stdout := w.stdout ++ (records.map (· ++ [10])).flatten } := by
  induction h generalizing w with
  | nil =>
    simp only [List.forM_nil, List.map_nil, List.flatten_nil, List.append_nil]
    rfl
  | cons hp _ ih =>
    rw [List.forM, run_bind_of_ok (writeLine_run write _ _ hp w), ih]
    simp

/-- Records related to pairs by a relation that rules out a newline carry no newline. -/
theorem newline_not_mem_of_forall₂ {R : α → Bytes → Prop} (hR : ∀ p r, R p r → 10 ∉ r)
    {ps : List α} {records : List Bytes} (h : List.Forall₂ R ps records) :
    ∀ r ∈ records, 10 ∉ r := by
  induction h with
  | nil => intro _ hr; cases hr
  | cons hp _ ih =>
    intro r hr
    rcases List.mem_cons.mp hr with rfl | hr
    · exact hR _ _ hp
    · exact ih r hr

/-- Mapping a function that succeeds on every item succeeds with the list of its results. -/
theorem mapM_eq_ok_of_forall₂ {α β : Type} {f : α → Except PyError β} {xs : List α} {ys : List β}
    (h : List.Forall₂ (fun x y => f x = .ok y) xs ys) : xs.mapM f = .ok ys := by
  induction h with
  | nil => rfl
  | cons hxy _ ih =>
    rw [List.mapM_cons, hxy, ih]
    rfl

/-- The task's input is `data`: on stdin, with no path or the path `-`, or in the one file it
is given, cut into any chunks. -/
def InputIs (args : List PyStr) (env : Env) (data : Bytes) : Prop :=
  ((args = [] ∨ args = [.ofString "-"]) ∧ env.stdin = data) ∨
    ∃ path chunks, args = [path] ∧ path ≠ .ofString "-" ∧ env.files path = some chunks ∧
      chunks.flatten = data

/-- What a task's `_read_input` gives when its input is `data`. -/
theorem readInput_of_data {args : List PyStr} {env : Env} {data : Bytes} (h : InputIs args env data) :
    readInput args env = (splitLines data).map .ok := by
  rcases h with ⟨hargs | hargs, rfl⟩ | ⟨path, chunks, rfl, hpath, hfile, rfl⟩
  · subst hargs
    simp [readInput, readInputFrom]
  · subst hargs
    simp [readInput, readInputFrom]
  · simp [readInput, readInputFrom, hpath, hfile, toLines_decompress]

example : readInput [.ofString "a", .ofString "b"]
    ⟨[], fun p => if p = .ofString "a" then some [[97]] else some [[98, 10]],
      fun _ => .fileNotFound⟩ =
      [.ok [97], .ok [98, 10]] := rfl

/-- Files holding lines of records, one after another, hold the lines of all the records. -/
theorem flatMap_splitLines_records {recss : List (List Bytes)}
    (h : ∀ rec ∈ recss.flatten, 10 ∉ rec) :
    (recss.map fun recs => (recs.map (· ++ [10])).flatten).flatMap splitLines =
      recss.flatten.map (· ++ [10]) := by
  induction recss with
  | nil => rfl
  | cons recs recss ih =>
    simp only [List.flatten_cons, List.mem_append, List.map_cons, List.flatMap_cons,
      List.map_append] at h ⊢
    rw [splitLines_records recs fun rec hr => h rec (.inl hr), ih fun rec hr => h rec (.inr hr)]

/-- The lines of records that read back as the pairs `ps` decode to `ps`. -/
theorem forall₂_readLinesItem_records {read : Bytes → Except PyError (K × V)}
    {ps : List (K × V)} {records : List Bytes}
    (hrecords : List.Forall₂ (fun p r => 10 ∉ r ∧ r.getLast? ≠ some 13 ∧ read r = .ok p) ps records) :
    List.Forall₂ (fun item p => readLinesItem read item = .ok p)
      (records.map (Except.ok ∘ (· ++ [10]))) ps := by
  rw [List.forall₂_map_left_iff]
  exact hrecords.flip.imp fun r p h => by
    show read (rstrip [13, 10] (r ++ [10])) = .ok p
    rw [rstrip_record r h.1 h.2.1, h.2.2]

/-- Input that holds the records of `ps`, each with its newline, decodes line by line to
`ps` when each record has no newline, does not end in `b'\r'` and reads back as its pair. -/
theorem forall₂_readLinesItem {read : Bytes → Except PyError (K × V)} {ps : List (K × V)}
    {records : List Bytes}
    (hrecords : List.Forall₂ (fun p r => 10 ∉ r ∧ r.getLast? ≠ some 13 ∧ read r = .ok p) ps records)
    {args : List PyStr} {env : Env} (hinput : InputIs args env (records.map (· ++ [10])).flatten) :
    List.Forall₂ (fun item p => readLinesItem read item = .ok p) (readInput args env) ps := by
  rw [readInput_of_data hinput,
    splitLines_records records (newline_not_mem_of_forall₂ (fun _ _ h => h.1) hrecords),
    List.map_map]
  exact forall₂_readLinesItem_records hrecords

/-- A protocol that reads a line as `(None, line)` and writes a pair as its value alone, as
`BytesValueProtocol` does. -/
def bytesValueProtocol : Protocol Unit Bytes :=
  ⟨fun line => .ok ((), line), fun _ value => .ok value⟩

/-- A one-step job whose only substep is a script mapper, with `bytesValueProtocol` as every
protocol. -/
def bytesValueJob : MRJob Unit Unit Bytes where
  steps := [.mrStep ⟨fun k v emit => emit (k, v), none, none, none, none, none, none, none, none,
    none⟩]
  description _ _ := .streaming (some (.ofString "script")) none
  inputProtocol := bytesValueProtocol
  internalProtocol := bytesValueProtocol
  outputProtocol := bytesValueProtocol
  rawValueProtocol := bytesValueProtocol
  args := []
  logWarning _ := pure ()
  launch := pure ()

/-- The job `bytesValueJob` with an output protocol whose `read` drops the line's last byte. -/
def chompJob : MRJob Unit Unit Bytes :=
  { bytesValueJob with outputProtocol := ⟨fun line => .ok ((), line.dropLast), fun _ v => .ok v⟩ }

/-- Output files, each holding whole lines of records and cut into non-empty chunks, with
`b''` between two files, are read back as the lines of all the records. -/
theorem toLines_files {recss chunkss : List (List Bytes)} (hnl : ∀ r ∈ recss.flatten, 10 ∉ r)
    (h : List.Forall₂ (fun recs chunks => [] ∉ chunks ∧
      chunks.flatten = (recs.map (· ++ [10])).flatten) recss chunkss) :
    toLines ([[]].intercalate chunkss) = recss.flatten.map (· ++ [10]) := by
  rw [toLines_intercalate, ← flatMap_splitLines_records hnl]
  clear hnl
  induction h with
  | nil => rfl
  | cons hchunks _ ih =>
    simp only [List.flatMap_cons, List.map_cons, toLines_eq_splitLines hchunks.1, hchunks.2, ih]

/-- `parse_output` decodes the final output line by line. When the output protocol reads
each record followed by its newline back as its pair, and the records lie in output files,
each cut into non-empty chunks with `b''` between two files, it yields exactly the pairs. -/
theorem MRJob.parseOutput_writeLine (job : MRJob σ K V) (ps : List (K × V)) (records : List Bytes)
    (hrecords : List.Forall₂ (fun p r => job.outputProtocol.write p.1 p.2 = .ok r ∧ 10 ∉ r ∧
      job.outputProtocol.read (r ++ [10]) = .ok p) ps records)
    (recss : List (List Bytes)) (hfiles : recss.flatten = records) (chunkss : List (List Bytes))
    (hchunks : List.Forall₂ (fun recs chunks => [] ∉ chunks ∧
      chunks.flatten = (recs.map (· ++ [10])).flatten) recss chunkss) :
    job.parseOutput ([[]].intercalate chunkss) = .ok ps := by
  have hnl := newline_not_mem_of_forall₂ (fun _ _ h => h.2.1) hrecords
  rw [MRJob.parseOutput, toLines_files (hfiles ▸ hnl) hchunks, hfiles]
  apply mapM_eq_ok_of_forall₂
  rw [List.forall₂_map_left_iff]
  exact hrecords.flip.imp fun _ _ h => h.2.2

/-- `chompJob` reads `b'a'` and `b'b'` back from two output files, the first cut inside its
line: the chunks `b'a'`, `b'\n'`, `b''`, `b'b\n'`. -/
theorem chompJob_parseOutput :
    List.Forall₂ (fun p r => chompJob.outputProtocol.write p.1 p.2 = .ok r ∧ 10 ∉ r ∧
      chompJob.outputProtocol.read (r ++ [10]) = .ok p) [((), [97]), ((), [98])] [[97], [98]] ∧
      [[[97]], [[98]]].flatten = [[97], [98]] ∧
      List.Forall₂ (fun (recs chunks : List Bytes) => [] ∉ chunks ∧
        chunks.flatten = (recs.map (· ++ [10])).flatten) [[[97]], [[98]]] [[[97], [10]], [[98, 10]]] ∧
      chompJob.parseOutput ([[]].intercalate [[[97], [10]], [[98, 10]]]) =
        .ok [((), [97]), ((), [98])] :=
  have hrecords : List.Forall₂ (fun p r => chompJob.outputProtocol.write p.1 p.2 = .ok r ∧
      10 ∉ r ∧ chompJob.outputProtocol.read (r ++ [10]) = .ok p) [((), [97]), ((), [98])]
      [[97], [98]] :=
    .cons ⟨rfl, by decide, rfl⟩ (.cons ⟨rfl, by decide, rfl⟩ .nil)
  have hchunks : List.Forall₂ (fun (recs chunks : List Bytes) => [] ∉ chunks ∧
      chunks.flatten = (recs.map (· ++ [10])).flatten) [[[97]], [[98]]]
      [[[97], [10]], [[98, 10]]] :=
    .cons ⟨by decide, rfl⟩ (.cons ⟨by decide, rfl⟩ .nil)
  ⟨hrecords, rfl, hchunks,
    MRJob.parseOutput_writeLine chompJob _ _ hrecords [[[97]], [[98]]] rfl _ hchunks⟩

/-- `parse_output` keeps the terminator: the job's last script phase writes `(None, b'a')`
with the output protocol as `b'a\n'`, which `parse_output` reads back as `(None, b'a\n')`. -/
theorem parseOutput_keeps_newline :
    pickProtocolInstances bytesValueJob.stepsDesc 0 .mapper = .ok (.input, .output) ∧
      bytesValueJob.outputProtocol.write () [97] = .ok [97] ∧
      bytesValueJob.outputProtocol.read [97] = .ok ((), [97]) ∧
      bytesValueJob.parseOutput [[97, 10]] = .ok [((), [97, 10])] :=
  ⟨rfl, rfl, rfl, rfl⟩

/-! ### `parse_output_line` -/

/-- The warning `parse_output_line` logs on a job's first call. -/
def parseOutputLineWarning : PyStr :=
  .ofString ("parse_output_line() is deprecated and will be removed in v0.7.0; " ++
    "use parse_output() instead.")

/-- `parse_output_line(line)` on a job whose `_warned_about_parse_output_line` is `warned`:
the output protocol's `read` of the line, the flag after the call, and the warnings logged. -/
def MRJob.parseOutputLine (job : MRJob σ K V) (warned : Bool) (line : Bytes) :
    Except PyError (K × V) × Bool × List PyStr :=
  (job.outputProtocol.read line, true, if warned then [] else [parseOutputLineWarning])

/-- `parse_output_line` called on each line in turn, the flag carried from call to call: the
results, the flag after the last call, and every warning logged. -/
def MRJob.parseOutputLines (job : MRJob σ K V) :
    Bool → List Bytes → List (Except PyError (K × V)) × Bool × List PyStr
  | warned, [] => ([], warned, [])
  | warned, line :: lines =>
    let (result, warned', logs) := job.parseOutputLine warned line
    let (results, warned'', logs') := job.parseOutputLines warned' lines
    (result :: results, warned'', logs ++ logs')

/-- Over any sequence of calls on one job, `parse_output_line` gives the output protocol's
reading of each line, whether or not an earlier reading raised, and logs its deprecation
warning once: at the first call on a job that has not warned yet (a new job starts with the
flag `False`), and never after. -/
theorem MRJob.parseOutputLines_warns_once (job : MRJob σ K V) (lines : List Bytes)
    (warned : Bool) :
    job.parseOutputLines warned lines =
      (lines.map job.outputProtocol.read, warned || !lines.isEmpty,
        if warned || lines.isEmpty then [] else [parseOutputLineWarning]) := by
  induction lines generalizing warned with
  | nil => simp [MRJob.parseOutputLines]
  | cons line lines ih =>
    simp only [MRJob.parseOutputLines, MRJob.parseOutputLine, ih]
    cases warned <;> simp

end Mrjob

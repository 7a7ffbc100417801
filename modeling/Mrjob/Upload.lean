import Mrjob.Runtime
import Mathlib.Data.List.Forall2

/-!
# Support files: `archives`, `dirs`, `files` and `libjars`

`_upload_attr(attr_name)` turns the paths of a class attribute (`ARCHIVES`, `DIRS` or
`FILES`) into the paths the runner uploads. A path that `expand_path` makes absolute is kept
as written; any other is joined to the directory of the job's script, and a relative path
with a subdirectory and no `#name` is logged as a warning. `archives()`, `dirs()` and
`files()` are `_upload_attr` at their attribute's name, so one theorem covers the three
(`uploadAttr_expands_absolute`): with an absolute script path, every path returned expands
to an absolute path and ends in the item it came from.

`libjars()` does the same for `LIBJARS` with a body of its own: it reads `LIBJARS or []`,
neither rejects a string nor warns. So a string is read as the sequence of its characters,
where `_upload_attr` raises `TypeError` (`libjars_uploadAttr`).

Paths follow `posixpath`. `expand_path` (environment variables and `~`) is a parameter, and
so is the path `mr_job_script()` returns, `None` when the class has no source file.
-/

namespace Mrjob

/-- `os.sep` -/
def slash : CodePoint := 47

/-- `'#'`, which names the uploaded copy of a path. -/
def hashMark : CodePoint := 35

/-! ### `posixpath` -/

/-- `os.path.isabs(s)`: `s.startswith('/')` -/
def IsAbs (s : PyStr) : Prop := s.head? = some slash

instance : DecidablePred IsAbs := fun s => inferInstanceAs (Decidable (s.head? = some slash))

/-- `s.rstrip('/')` -/
def rstripSlash (s : PyStr) : PyStr := s.rdropWhile (· == slash)

/-- `os.path.dirname(p)`: `p[:p.rfind('/') + 1]`, with its trailing slashes stripped unless
it is all slashes. -/
def dirname (p : PyStr) : PyStr :=
  let head := p.rdropWhile (· != slash)
  if head ≠ [] ∧ head ≠ List.replicate head.length slash then rstripSlash head else head

/-- `os.path.join(a, b)` -/
def join (a b : PyStr) : PyStr :=
  if IsAbs b then b
  else if a = [] ∨ a.getLast? = some slash then a ++ b
  else a ++ slash :: b

/-- A nonempty prefix of an absolute path is absolute. -/
theorem isAbs_of_prefix {s t : PyStr} (h : t <+: s) (ht : t ≠ []) (hs : IsAbs s) : IsAbs t := by
  rw [IsAbs, List.prefix_iff_eq_take.mp h, List.head?_take,
    if_neg (mt List.length_eq_zero.mp ht)]
  exact hs

/-- Appending to an absolute path keeps it absolute. -/
theorem isAbs_append {a : PyStr} (ha : IsAbs a) (b : PyStr) : IsAbs (a ++ b) := by
  cases a with
  | nil => cases ha
  | cons c t => exact ha

/-- The directory of an absolute path is absolute. -/
theorem isAbs_dirname {p : PyStr} (hp : IsAbs p) : IsAbs (dirname p) := by
  have hhead : p.rdropWhile (· != slash) ≠ [] := fun h => by
    simpa using List.rdropWhile_eq_nil_iff.mp h slash (List.mem_of_mem_head? hp)
  have habs := isAbs_of_prefix (List.rdropWhile_prefix _ _) hhead hp
  dsimp only [dirname]
  split_ifs with h
  · refine isAbs_of_prefix (List.rdropWhile_prefix _ _) (fun hnil => h.2 ?_) habs
    exact List.eq_replicate_iff.mpr
      ⟨rfl, fun b hb => by simpa using List.rdropWhile_eq_nil_iff.mp hnil b hb⟩
  · exact habs

/-- A path joined to an absolute directory is absolute. -/
theorem isAbs_join {a : PyStr} (ha : IsAbs a) (b : PyStr) : IsAbs (join a b) := by
  unfold join
  split_ifs with hb
  exacts [hb, isAbs_append ha b, isAbs_append ha _]

/-- `join` keeps the joined path as its end. -/
theorem suffix_join (a b : PyStr) : b <:+ join a b := by
  unfold join
  split_ifs
  exacts [List.suffix_refl b, List.suffix_append a b,
    (List.suffix_cons slash b).trans (List.suffix_append a _)]

/-! ### `_upload_attr` and the methods built on it -/

/-- A class attribute such as `FILES`: `None`, a `str`, or a sequence of paths. -/
inductive AttrValue
  | none
  | str (s : PyStr)
  | seq (paths : List PyStr)

/-- `for path in value`: a string's characters, a sequence's items; `None` is not iterable. -/
def AttrValue.iter : AttrValue → Except PyError (List PyStr)
  | .none => .error (.typeError [.ofString "'NoneType' object is not iterable"])
  | .str s => .ok (s.map fun c => [c])
  | .seq paths => .ok paths

/-- `value or []`: `None` and `''` are false. -/
def AttrValue.orEmpty : AttrValue → AttrValue
  | .none | .str [] => .seq []
  | value => value

/-- `os.path.dirname(self.mr_job_script())`, where `os.fspath(None)` raises `TypeError`. -/
def scriptDir : Option PyStr → Except PyError PyStr
  | some script => .ok (dirname script)
  | none => .error (.typeError [.ofString "expected str, bytes or os.PathLike object, not NoneType"])

/-- The path the loop appends for one item: the item when `expand_path` makes it absolute,
else the item in the script's directory. -/
def uploadPath (expandPath : PyStr → PyStr) (dir path : PyStr) : PyStr :=
  if IsAbs (expandPath path) then path else join dir path

/-- The warning the loop of `_upload_attr` logs for a relative item with a subdirectory and
no `#`. -/
def subdirWarning (expandPath : PyStr → PyStr) (attrName path : PyStr) : Option PyStr :=
  if ¬ IsAbs (expandPath path) ∧ slash ∈ rstripSlash path ∧ hashMark ∉ path then
    some (attrName ++ .ofString ": " ++ path ++
      .ofString " will appear in same directory as job script, not a subdirectory")
  else none

/-- `_upload_attr(attr_name)` on the attribute's value: the paths it returns and the warnings
it logs, in order. -/
def uploadAttr (expandPath : PyStr → PyStr) (script : Option PyStr) (attrName : PyStr) :
    AttrValue → Except PyError (List PyStr × List PyStr)
  | .str _ => .error (.typeError [attrName ++ .ofString " must be a list or other sequence."])
  | value => do
    let dir ← scriptDir script
    let items ← value.iter
    pure (items.map (uploadPath expandPath dir),
      items.filterMap (subdirWarning expandPath attrName))

/-- `archives()` -/
def archives (expandPath : PyStr → PyStr) (script : Option PyStr) (ARCHIVES : AttrValue) :
    Except PyError (List PyStr × List PyStr) :=
  uploadAttr expandPath script (.ofString "ARCHIVES") ARCHIVES

/-- `dirs()` -/
def dirs (expandPath : PyStr → PyStr) (script : Option PyStr) (DIRS : AttrValue) :
    Except PyError (List PyStr × List PyStr) :=
  uploadAttr expandPath script (.ofString "DIRS") DIRS

/-- `files()` -/
def files (expandPath : PyStr → PyStr) (script : Option PyStr) (FILES : AttrValue) :
    Except PyError (List PyStr × List PyStr) :=
  uploadAttr expandPath script (.ofString "FILES") FILES

/-- `libjars()`, with a loop of its own over `LIBJARS or []`: no check for a string and no
warning. -/
def libjars (expandPath : PyStr → PyStr) (script : Option PyStr) (LIBJARS : AttrValue) :
    Except PyError (List PyStr) := do
  let dir ← scriptDir script
  let items ← LIBJARS.orEmpty.iter
  pure (items.map (uploadPath expandPath dir))

/-- With an absolute script path, and an `expand_path` that keeps a leading `/`,
`_upload_attr` returns one path per item of a sequence, in order. Each is the item or the item
joined to the script's directory, and ends in the item; and every path returned expands to an
absolute path, so what is uploaded does not depend on the working directory. -/
theorem uploadAttr_expands_absolute (expandPath : PyStr → PyStr)
    (hexpand : ∀ s, IsAbs s → IsAbs (expandPath s)) {script : PyStr} (hscript : IsAbs script)
    (attrName : PyStr) (paths : List PyStr) :
    ∃ out warnings, uploadAttr expandPath (some script) attrName (.seq paths) = .ok (out, warnings) ∧
      List.Forall₂ (fun path q => (q = path ∨ q = join (dirname script) path) ∧ path <:+ q)
        paths out ∧
      ∀ q ∈ out, IsAbs (expandPath q) := by
  refine ⟨_, _, rfl, List.forall₂_map_right_iff.mpr (List.forall₂_same.mpr fun p _ => ?_), ?_⟩
  · unfold uploadPath
    split_ifs
    exacts [⟨.inl rfl, List.suffix_refl p⟩, ⟨.inr rfl, suffix_join _ p⟩]
  · simp only [List.mem_map]
    rintro _ ⟨p, -, rfl⟩
    unfold uploadPath
    split_ifs with h
    exacts [h, hexpand _ (isAbs_join (isAbs_dirname hscript) p)]

/-- A job in `/jobs` uploading a relative and an absolute path, with `expand_path` leaving
paths as they are. -/
theorem uploadAttr_in_jobs_dir :
    (∀ s, IsAbs s → IsAbs (id s)) ∧ IsAbs (.ofString "/jobs/wc.py") ∧
    ∃ out warnings, uploadAttr id (some (.ofString "/jobs/wc.py")) (.ofString "FILES")
        (.seq [.ofString "stop.txt", .ofString "/etc/words"]) = .ok (out, warnings) ∧
      List.Forall₂ (fun path q =>
          (q = path ∨ q = join (dirname (.ofString "/jobs/wc.py")) path) ∧ path <:+ q)
        [.ofString "stop.txt", .ofString "/etc/words"] out ∧
      ∀ q ∈ out, IsAbs (id q) :=
  have hscript : IsAbs (.ofString "/jobs/wc.py") := rfl
  ⟨fun _ h => h, hscript,
    uploadAttr_expands_absolute id (fun _ h => h) hscript (.ofString "FILES")
      [.ofString "stop.txt", .ofString "/etc/words"]⟩

/-- `libjars()` differs from `_upload_attr` only where its body does. On a sequence it returns
the paths `_upload_attr` returns, without the warnings. A string, which `_upload_attr` rejects
with `TypeError`, is read by `libjars()` as the sequence of its one-character paths; and
`None`, on which `_upload_attr` raises, reads as no paths. -/
theorem libjars_uploadAttr (expandPath : PyStr → PyStr) (script : Option PyStr)
    (attrName : PyStr) :
    (∀ paths, libjars expandPath script (.seq paths) =
      Prod.fst <$> uploadAttr expandPath script attrName (.seq paths)) ∧
    (∀ s, uploadAttr expandPath script attrName (.str s) =
        .error (.typeError [attrName ++ .ofString " must be a list or other sequence."]) ∧
      libjars expandPath script (.str s) = libjars expandPath script (.seq (s.map fun c => [c]))) ∧
    libjars expandPath script .none = libjars expandPath script (.seq []) ∧
    ∃ e, uploadAttr expandPath script attrName .none = .error e := by
  refine ⟨fun paths => ?_, fun s => ⟨rfl, ?_⟩, ?_, ?_⟩
  · cases script <;> rfl
  · cases s <;> cases script <;> rfl
  · cases script <;> rfl
  · cases script
    exacts [⟨_, rfl⟩, ⟨_, rfl⟩]

end Mrjob

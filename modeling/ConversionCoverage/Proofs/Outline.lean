import ConversionCoverage.Proofs.FileTree

/-!
# Outlines of file trees

The outline of a tree has all its entries with their permission bits, but files without their bytes.
Where a path leads, whether a request succeeds and for which reason it fails depends on the outline
alone.
-/

namespace ConversionCoverage

def FileEntry.outline : FileEntry → FileEntry
  | .file mode _ => .file mode []
  | .dir mode => .dir mode

@[simp] theorem FileEntry.isDir_outline (e : FileEntry) : e.outline.isDir = e.isDir := by
  cases e <;> rfl

namespace FileTree

def outline (tree : FileTree) : FileTree := ⟨tree.entries.map fun (l, e) => (l, e.outline)⟩

variable (tree : FileTree)

private theorem lookup_outline (l : Location) (entries : List (Location × FileEntry)) :
    (entries.map fun (l, e) => (l, e.outline)).lookup l =
      (entries.lookup l).map FileEntry.outline := by
  induction entries with
  | nil => rfl
  | cons entry rest ih =>
    obtain ⟨k, e⟩ := entry
    cases hk : l == k with
    | true => simp [List.lookup_cons, hk]
    | false => simp [List.lookup_cons, hk, ih]

theorem get?_outline (l : Location) :
    tree.outline.get? l = (tree.get? l).map FileEntry.outline := by
  cases l with
  | nil => rfl
  | cons part rest => exact lookup_outline _ _

private theorem setEntry_outline (l : Location) (e : FileEntry)
    (entries : List (Location × FileEntry)) :
    (setEntry l e entries).map (fun (l, e) => (l, e.outline)) =
      setEntry l e.outline (entries.map fun (l, e) => (l, e.outline)) := by
  induction entries with
  | nil => rfl
  | cons entry rest ih =>
    obtain ⟨k, f⟩ := entry
    by_cases hk : k = l
    · simp [setEntry, hk]
    · simp [setEntry, hk, ih]

theorem outline_set (l : Location) (e : FileEntry) :
    (tree.set l e).outline = tree.outline.set l e.outline := by
  rw [set, outline, setEntry_outline]
  rfl

theorem isDirAt_outline (l : Location) : tree.outline.isDirAt l = tree.isDirAt l := by
  rw [isDirAt, isDirAt, get?_outline]
  cases tree.get? l with
  | none => rfl
  | some e => exact e.isDir_outline

/-! ## Paths -/

theorem walk_outline (start : Location) (parts : List Text) :
    tree.outline.walk start parts = tree.walk start parts := by
  induction parts generalizing start with
  | nil => rfl
  | cons part rest ih =>
    simp only [walk, isDirAt_outline, get?_outline, Option.isNone_map, ih]

theorem place_outline (parts : List Text) : tree.outline.place parts = tree.place parts := by
  simp only [place, walk_outline, isDirAt_outline, get?_outline, Option.isSome_map]

private theorem find_outline (path : FilePath) : tree.outline.find path = tree.find path := by
  simp only [find, walk_outline]

private theorem status_outline (path : FilePath) :
    tree.outline.status path = (tree.status path).map (Option.map FileEntry.outline) := by
  rw [status, status, find_outline]
  cases tree.find path with
  | ok l => exact congrArg Except.ok (tree.get?_outline l)
  | error fault =>
    cases fault with
    | refused refusal written => cases refusal <;> rfl
    | unencodable fault => rfl
    | zeroByte => rfl
    | tooManyParents => rfl

/-! ## Requests -/

variable [Host]

theorem makeDir_outline (mode : Nat) (path : FilePath) :
    tree.outline.makeDir mode path = (tree.makeDir mode path).map outline := by
  rw [makeDir, makeDir, place_outline]
  cases accept path with
  | error fault => rfl
  | ok written =>
    simp only [bind, Except.bind]
    cases tree.place path.parts with
    | error refusal => rfl
    | ok found =>
      cases found with
      | taken l => rfl
      | special => rfl
      | free l => exact congrArg Except.ok (tree.outline_set l (.dir (granted mode))).symm

/-- Which bytes are written has no influence on the outline, nor on whether they are written. -/
theorem writeFile_outline (mode : Nat) (path : FilePath) (bytes : List UInt8) :
    tree.outline.writeFile mode path [] = (tree.writeFile mode path bytes).map outline := by
  rw [writeFile, writeFile, place_outline]
  cases accept path with
  | error fault => rfl
  | ok written =>
    simp only [bind, Except.bind]
    cases tree.place path.parts with
    | error refusal => rfl
    | ok found =>
      cases found with
      | special => rfl
      | free l => exact congrArg Except.ok (tree.outline_set l (.file (granted mode) bytes)).symm
      | taken l =>
        simp only [get?_outline]
        cases tree.get? l with
        | none => rfl
        | some e =>
          cases e with
          | dir present => rfl
          | file present old =>
            exact congrArg Except.ok (tree.outline_set l (.file present bytes)).symm

omit [Host] in
theorem unlessDir_outline (path : FilePath) (fault : FileFault) :
    tree.outline.unlessDir path fault = tree.unlessDir path fault := by
  cases fault with
  | refused refusal written =>
    rw [unlessDir, unlessDir, status_outline]
    cases tree.status path with
    | error other => rfl
    | ok found =>
      cases found with
      | none => rfl
      | some e => cases e <;> rfl
  | unencodable fault => rfl
  | zeroByte => rfl
  | tooManyParents => rfl

private theorem ensureLast_outline (mode : Nat) (path : FilePath) :
    tree.outline.ensureLast mode path =
      ((tree.ensureLast mode path).1, (tree.ensureLast mode path).2.outline) := by
  rw [ensureLast, ensureLast, makeDir_outline]
  cases tree.makeDir mode path with
  | ok changed => rfl
  | error fault =>
    cases fault with
    | refused refusal written =>
      cases refusal with
      | absent => rfl
      | _ => exact congrArg (·, tree.outline) (tree.unlessDir_outline path _)
    | unencodable fault => rfl
    | zeroByte => rfl
    | tooManyParents => rfl

private theorem ensureWithin_outline (room mode : Nat) (path : FilePath) :
    tree.outline.ensureWithin room mode path =
      ((tree.ensureWithin room mode path).1, (tree.ensureWithin room mode path).2.outline) := by
  fun_induction ensureWithin room tree mode path with
  | case1 => rfl
  | case2 _ _ mode path changed h =>
    rw [ensureWithin, makeDir_outline, h]
    rfl
  | case3 _ _ mode path written h hparts =>
    rw [ensureWithin, makeDir_outline, h]
    simp [Except.map, hparts]
  | case4 _ _ mode path written h hparts fault changed hparent ih =>
    rw [ensureWithin, makeDir_outline, h]
    simp [Except.map, hparts, ih, hparent]
  | case5 _ _ mode path written h hparts changed hparent ih =>
    rw [ensureWithin, makeDir_outline, h]
    simp [Except.map, hparts, ih, hparent, ensureLast_outline]
  | case6 _ _ mode path fault habsent h =>
    rw [ensureWithin, makeDir_outline, h]
    simp [Except.map, unlessDir_outline]

theorem ensureDir_outline (mode : Nat) (path : FilePath) :
    tree.outline.ensureDir mode path =
      ((tree.ensureDir mode path).1, (tree.ensureDir mode path).2.outline) :=
  tree.ensureWithin_outline _ mode path

end FileTree

end ConversionCoverage

import ConversionCoverage.Command.Run
import ConversionCoverage.Host.Usual
import ConversionCoverage.Proofs.DirectoryModes

/-!
# Why records are not loaded

A record file that is not loaded is not there, or its suffix or its content is not that of a
record, or there is a reason that nobody is told to expect: a path that is too long or must not be
looked at, a directory, a document nested too deeply, or a YAML document that is badly formed.
Commands complain about the first two kinds and are ended by the third.
-/

namespace ConversionCoverage

namespace FileTree

variable {tree : FileTree} {path : FilePath}

/-- The process may look at the path and read what stands there. -/
def Open [Host] (path : FilePath) : Prop := ∀ access, Host.withholds access path = false

theorem status_of_find {l : Location} (h : tree.find path = .ok l) :
    ∃ e, tree.get? l = some e ∧ tree.status path = .ok (some e) := by
  obtain ⟨e, he⟩ := Option.isSome_iff_exists.mp
    (isSome_of_walk ((find_eq_ok_iff tree path l).mp h).2)
  refine ⟨e, he, ?_⟩
  rw [status, h]
  exact congrArg _ he

section LookUp

variable [Host]

theorem lookUp_of_find (hlook : Host.withholds .lookUp path = false) {l : Location}
    (h : tree.find path = .ok l) : ∃ e, tree.lookUp path = .ok (some e) := by
  obtain ⟨e, -, hstatus⟩ := status_of_find h
  refine ⟨e, ?_⟩
  rw [lookUp, hlook, hstatus]
  rfl

theorem openFile_of_open (h : Open path) : tree.openFile path = tree.readFile path := by
  rw [openFile, h .read]
  rfl

end LookUp

end FileTree

namespace Record

section Reasons

variable [Host] {tree : FileTree} {path : FilePath}

theorem load_of_bytes (hopen : FileTree.Open path) {bytes : List UInt8}
    (h : tree.readFile path = .ok bytes) :
    load tree path = (Utf8.decode bytes).mapError LoadFault.encoding >>= fun t =>
      match RecordFormat.ofSuffix? path.suffix with
      | none => .error (.unsupported path.suffix)
      | some format => readData format t.normalizeBreaks >>= fun d =>
        (ofDatum d).mapError .schema := by
  obtain ⟨l, m, hfind, hfile⟩ := (FileTree.readFile_eq_ok_iff _ _ _).mp h
  obtain ⟨e, hentry⟩ := FileTree.lookUp_of_find (hopen .lookUp) hfind
  rw [load, hentry, FileTree.openFile_of_open hopen, h]
  rfl

/-- The file at a path holds a text, and may be read. -/
def Holds (tree : FileTree) (path : FilePath) (t : Text) : Prop :=
  FileTree.Open path ∧ ∃ bytes, tree.readFile path = .ok bytes ∧ Utf8.decode bytes = .ok t

theorem load_of_holds {t : Text} {format : RecordFormat} (h : Holds tree path t)
    (hformat : RecordFormat.ofSuffix? path.suffix = some format) :
    load tree path = readData format t.normalizeBreaks >>= fun d =>
      (ofDatum d).mapError .schema := by
  obtain ⟨hopen, bytes, hread, hdecode⟩ := h
  rw [load_of_bytes hopen hread, hdecode, hformat]
  rfl

/-! ## The reasons -/

theorem load_of_document {t : Text} {format : RecordFormat} {d : Datum} (htext : Holds tree path t)
    (hformat : RecordFormat.ofSuffix? path.suffix = some format)
    (hread : readData format t.normalizeBreaks = .ok d) :
    load tree path = (ofDatum d).mapError .schema := by
  rw [load_of_holds htext hformat, hread]
  rfl

end Reasons

end Record

/-! ## The command line -/

namespace Session

variable [Host]

omit [Host] in
theorem run_tree (t : Terminal) : (tree : Session FileTree).run.run t = (.ok t.workspace.tree, t) :=
  rfl

/-- What the console says of pieces of markup: nothing, or its complaint about the first that it
cannot take. -/
def verdict : List Text → Except Stop Unit
  | [] => .ok ()
  | markup :: rest =>
    match Host.console markup with
    | .ok () => verdict rest
    | .error f => .error (.fault (.console f))

private theorem run_render (markup : List Text) (t : Terminal) :
    (render markup).run.run t = (verdict markup, t) := by
  induction markup with
  | nil => rfl
  | cons piece rest ih =>
    rw [render, verdict]
    cases Host.console piece with
    | ok _ => exact ih
    | error f => rfl

theorem run_showing (s : Shown) (t : Terminal) :
    (showing s).run.run t = (verdict s.markup, { t with shown := t.shown ++ [s] }) := by
  have hshown : (modify fun t => { t with shown := t.shown ++ [s] } : Session Unit).run.run t =
      (.ok (), { t with shown := t.shown ++ [s] }) := rfl
  rw [showing, run_bind, hshown]
  exact run_render _ _

def errorLine (message : Text) : Text := "[red]Error:[/red] " ++ message

/-- How a complaint ends: with the code of a failure, unless the console cannot take it. -/
def complained {α : Type} (message : Text) (t : Terminal) : Except Stop α × Terminal :=
  (match Host.console (errorLine message) with
    | .ok () => .error (.exit 1)
    | .error f => .error (.fault (.console f)),
    { t with shown := t.shown ++ [.line (errorLine message)] })

theorem run_complain {α : Type} (message : Text) (t : Terminal) :
    (complain message : Session α).run.run t = complained message t := by
  rw [complain, ← errorLine, complained, run_bind, line, run_showing, Shown.markup, verdict]
  cases Host.console (errorLine message) <;> rfl

theorem complained_ne {α : Type} (message : Text) (t : Terminal) :
    (∀ a after, (complained message t : Except Stop α × Terminal) ≠ (.ok a, after)) ∧
      ∀ f after, (complained message t : Except Stop α × Terminal) ≠
        (.error (.fault (.record f)), after) := by
  rw [complained]
  cases Host.console (errorLine message) <;> exact ⟨nofun, nofun⟩

theorem run_loadRecord (path : Text) (t : Terminal) : (loadRecord path).run.run t =
    match Record.load t.workspace.tree path with
    | .ok r => (.ok r, t)
    | .error f =>
      if f.isMissing then complained f.message t
      else if f.isInvalid then complained ("Invalid coverage record: " ++ f.message) t
      else (.error (.fault (.record f)), t) := by
  rw [loadRecord, run_bind, run_tree]
  simp only
  generalize Record.load t.workspace.tree path = result
  cases result with
  | ok r => rfl
  | error f =>
    simp only
    by_cases hmissing : f.isMissing
    · rw [if_pos hmissing, if_pos hmissing, run_complain]
    · rw [if_neg hmissing, if_neg hmissing]
      by_cases hinvalid : f.isInvalid
      · rw [if_pos hinvalid, if_pos hinvalid, run_complain]
      · rw [if_neg hinvalid, if_neg hinvalid]
        rfl

theorem run_loadRecord_of_ok {path : Text} {t : Terminal} {r : Record}
    (h : Record.load t.workspace.tree path = .ok r) :
    (loadRecord path).run.run t = (.ok r, t) := by
  rw [run_loadRecord, h]

end Session

namespace Record

end Record

end ConversionCoverage

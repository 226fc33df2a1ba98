import ConversionCoverage.Host.Usual
import ConversionCoverage.Proofs.Permissions

/-!
# Exports that are repeated

An export that returns has left each report as it would write it, in a directory that is there. On
the tree that it leaves, it asks for that directory again and writes the bytes of each report over
themselves. So it returns once more, and the tree stays as it is.
-/

namespace ConversionCoverage

namespace FileTree

variable [Host] {tree : FileTree} {path : FilePath}

omit [Host] in
private theorem setEntry_self {l : Location} {e : FileEntry} {entries : List (Location × FileEntry)}
    (h : entries.lookup l = some e) : setEntry l e entries = entries := by
  induction entries with
  | nil => cases h
  | cons entry rest ih =>
    obtain ⟨k, v⟩ := entry
    by_cases hk : k = l
    · subst hk
      obtain rfl : v = e := by simpa using h
      rw [setEntry, if_pos rfl]
    · rw [List.lookup_cons, beq_eq_false_iff_ne.mpr (Ne.symm hk)] at h
      rw [setEntry, if_neg hk, ih h]

omit [Host] in
theorem set_self {l : Location} {e : FileEntry} (hl : l ≠ []) (h : tree.get? l = some e) :
    tree.set l e = tree := by
  cases l with
  | nil => exact absurd rfl hl
  | cons part rest => rw [set, setEntry_self h]

theorem writeFile_self {way : List Text} {name : Text} {bytes : List UInt8}
    (hparts : path.parts = way ++ [name]) (hname : name ≠ "..")
    (h : tree.readFile path = .ok bytes) (mode : Nat) :
    tree.writeFile mode path bytes = .ok tree := by
  obtain ⟨l, m, hfind, hfile⟩ := (readFile_eq_ok_iff _ _ _).mp h
  obtain ⟨⟨written, haccept⟩, hwalk⟩ := (find_eq_ok_iff _ _ _).mp hfind
  rw [hparts] at hwalk
  obtain ⟨directory, hway, hlast⟩ := (walk_append_eq_ok_iff _ _ _ _ _).mp hwalk
  rw [walk_cons_eq_ok_iff, if_neg hname] at hlast
  obtain ⟨hdir, hshort, hsome, hl⟩ := hlast
  obtain rfl := Except.ok.inj hl
  have hplace : tree.place path.parts = .ok (.taken (directory ++ [name])) := by
    simp [hparts, place_concat, hway, hdir, hname, hshort, hsome]
  have hsame : tree.set (directory ++ [name]) (.file m bytes) = tree :=
    set_self (by simp) hfile
  rw [writeFile, haccept]
  simp only [bind, Except.bind, hplace, hfile, hsame]
  rfl

end FileTree

namespace Export

section Host

variable [Host]

section Reached

variable {r : Record} {s : Settings} {directory : FilePath} {d : Location} {tree : FileTree}
  (hreaches : tree.Reaches directory d)
include hreaches

/-- A report that stands in its directory already is written over itself. -/
theorem run_report_again {kind : Report} {bytes : List UInt8}
    (hencode : Utf8.encode (kind.content r s) = .ok bytes)
    (hread : tree.readFile (target directory kind) = .ok bytes) (log : List Event) :
    ∃ log', (report r s kind directory kind.fileName).run.run ⟨tree, log⟩ =
      (.ok (target directory kind), ⟨tree, log'⟩) := by
  have hwrite : tree.writeFile s.fileMode (target directory kind) bytes = .ok tree :=
    FileTree.writeFile_self (parts_target directory kind) (fileName_ne_up kind) hread _
  have houtcome : outcome s directory (target directory kind) (kind.content r s) tree =
      (.ok (), tree) := by
    simp only [outcome, hreaches.ensureDir, hencode, hwrite]
  exact run_report_of_outcome (w := ⟨tree, log⟩) houtcome

private theorem run_reports_again {kinds : List Report}
    (hreports : ∀ kind ∈ kinds, ∃ bytes, Utf8.encode (kind.content r s) = .ok bytes ∧
      tree.readFile (target directory kind) = .ok bytes) (log : List Event) :
    ∃ log', (reports r s directory kinds).run.run ⟨tree, log⟩ =
      (.ok (kinds.map (target directory)), ⟨tree, log'⟩) := by
  induction kinds generalizing log with
  | nil => exact ⟨log, rfl⟩
  | cons kind rest ih =>
    obtain ⟨⟨bytes, hencode, hread⟩, hrest⟩ := List.forall_mem_cons.mp hreports
    obtain ⟨mid, hrun⟩ := run_report_again hreaches hencode hread log
    obtain ⟨last, hlater⟩ := ih hrest mid
    refine ⟨last, ?_⟩
    rw [run_reports_cons hrun, hlater]
    rfl

end Reached

/-- An export that has returned returns again on the tree that it left, with the same paths, and
leaves the tree as it found it: no entry, no byte and no permission bit changes. -/
theorem all_idempotent {r : Record} {s : Settings} {directory : FilePath} {w after : Workspace}
    {paths : List FilePath} (h : (all r s directory).run.run w = (.ok paths, after))
    (log : List Event) : ∃ log', (all r s directory).run.run ⟨after.tree, log⟩ =
      (.ok paths, ⟨after.tree, log'⟩) := by
  obtain ⟨d, hreaches, hfilled⟩ := filled_of_run h
  rw [paths_of_run h]
  exact run_reports_again (hreaches.grow hfilled.grows) (leaves_of_run h).reports log

end Host

/-- A way that turns back from a directory before it goes into another one. -/
def turning : FilePath := ⟨0, ["a", "..", "b"]⟩

/-- A tree with the directory that the way ends in, and with an older report in it. The directory
that the way starts with is not there. -/
def halfWay : FileTree :=
  ⟨[(["b"], .dir 0o750), (["b", "summary.json"], .file 0o644 [0x7b, 0x7d, 0x0a])]⟩

/-- The tree with the directory that the way starts with. -/
def wholeWay : FileTree := ⟨halfWay.entries ++ [((["a"] : Location), FileEntry.dir 0o755)]⟩

open scoped Host in
theorem ensureDir_turning : halfWay.ensureDir 0o700 turning = (.ok (), wholeWay) := by
  have hfirst (room : Nat) : halfWay.ensureWithin (room + 1) FileTree.usualDirMode ⟨0, ["a"]⟩ =
      (.ok (), wholeWay) := by
    rw [FileTree.ensureWithin]
    rfl
  have hturn (room : Nat) : halfWay.ensureWithin (room + 2) FileTree.usualDirMode ⟨0, ["a", ".."]⟩ =
      (.ok (), wholeWay) :=
    (FileTree.ensureWithin_of_absent rfl (by decide) (hfirst room)).trans rfl
  exact (FileTree.ensureWithin_of_absent rfl (by decide) (hturn 977)).trans rfl

open scoped Host in
private theorem ready_turning : Ready turning ["b"] wholeWay := by
  apply ready_of_reaches ⟨rfl, rfl⟩
  · intro kind l h
    cases kind <;> cases h
    rfl
  · intro kind
    cases kind <;> decide

open scoped Host in
/-- The first export makes a directory on its way and changes an older report, the second one finds
all as it would leave it. -/
theorem all_idempotent_turning : ∃ after log,
    (all bare .standard turning).run.run ⟨halfWay, []⟩ =
      (.ok (Report.all.map (target turning)), after) ∧
    after.tree.get? ["a"] = some (.dir 0o755) ∧
    (all bare .standard turning).run.run ⟨after.tree, []⟩ =
      (.ok (Report.all.map (target turning)), ⟨after.tree, log⟩) := by
  obtain ⟨after, hrun⟩ := @succeeds_bare _ .standard (Text.not_hasHalf_ofString _) turning
    ⟨halfWay, []⟩ _ _ ensureDir_turning ready_turning
  obtain ⟨log, hagain⟩ := all_idempotent hrun []
  refine ⟨after, log, hrun, ?_, hagain⟩
  obtain ⟨d, -, hfilled⟩ := filled_of_run hrun
  apply (hfilled.dir_iff _ _).mpr
  show (halfWay.ensureDir 0o700 turning).2.get? _ = _
  rw [ensureDir_turning]
  rfl

end Export

end ConversionCoverage

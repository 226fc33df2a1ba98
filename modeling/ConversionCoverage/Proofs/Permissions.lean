import ConversionCoverage.Proofs.DirectoryModes
import ConversionCoverage.Proofs.FirstFailure

/-!
# Which permission bits an export leaves

The permission bits of the settings are asked for when an entry is made, and only for the directory
of an export and for the files in it. So a directory that is made on the way to that one gets the
usual bits, and a report that is written over an older one keeps the bits of the older one.
-/

namespace ConversionCoverage

namespace Export

open FileTree (granted usualDirMode)

/-! ## Reports in a directory that is there -/

section Reached

variable [Host] {r : Record} {s : Settings} {directory : FilePath} {d : Location}

private theorem run_report_of_reaches {kind : Report} {path : FilePath} {w after : Workspace}
    (hreaches : w.tree.Reaches directory d)
    (h : (report r s kind directory kind.fileName).run.run w = (.ok path, after)) :
    w.tree.isDirAt (d ++ [kind.fileName]) = false ∧ ∃ bytes, after.tree =
      w.tree.set (d ++ [kind.fileName])
        (.file (w.tree.writtenMode s.fileMode (d ++ [kind.fileName])) bytes) := by
  obtain ⟨log, hrun⟩ := run_report_outcome r s kind directory kind.fileName w
  rw [h] at hrun
  rw [outcome, hreaches.ensureDir] at hrun
  simp only at hrun
  cases hencode : Utf8.encode (kind.content r s) with
  | error fault =>
    rw [hencode] at hrun
    cases hrun
  | ok bytes =>
    rw [hencode] at hrun
    simp only at hrun
    cases hwrite : w.tree.writeFile s.fileMode (directory.append kind.fileName) bytes with
    | error fault =>
      rw [hwrite] at hrun
      cases hrun
    | ok done =>
      rw [hwrite] at hrun
      obtain ⟨-, way, name, place, -, hparts, hnames, hdir, hset⟩ :=
        FileTree.writeFile_eq_set _ _ _ hwrite
      have htarget := parts_target directory kind
      rw [target, hparts] at htarget
      obtain ⟨rfl, rfl⟩ : way = directory.parts ∧ name = kind.fileName := by
        simpa using List.append_inj' htarget rfl
      obtain rfl : place = d := Except.ok.inj (hnames.way.symm.trans hreaches.walk)
      refine ⟨hdir, bytes, ?_⟩
      rw [← hset]
      cases hrun
      rfl

/-- Files of reports have been written into a directory, and nothing else has changed. -/
structure Filled (s : Settings) (d : Location) (kinds : List Report) (before after : FileTree) :
    Prop where
  vacant : ∀ kind ∈ kinds, before.isDirAt (d ++ [kind.fileName]) = false
  files : ∀ kind ∈ kinds, ∃ bytes, after.get? (d ++ [kind.fileName]) =
    some (.file (before.writtenMode s.fileMode (d ++ [kind.fileName])) bytes)
  others : ∀ l, (∀ kind ∈ kinds, l ≠ d ++ [kind.fileName]) → after.get? l = before.get? l

namespace Filled

variable {kind : Report} {rest kinds : List Report} {before mid after : FileTree}

theorem cons (hfresh : kind ∉ rest) {bytes : List UInt8}
    (hdir : before.isDirAt (d ++ [kind.fileName]) = false)
    (hmid : mid = before.set (d ++ [kind.fileName])
      (.file (before.writtenMode s.fileMode (d ++ [kind.fileName])) bytes))
    (h : Filled s d rest mid after) : Filled s d (kind :: rest) before after := by
  have hget (l : Location) := FileTree.get?_set before (d ++ [kind.fileName]) l
    (.file (before.writtenMode s.fileMode (d ++ [kind.fileName])) bytes) (by simp)
  rw [← hmid] at hget
  have hne : ∀ other ∈ rest, d ++ [other.fileName] ≠ d ++ [kind.fileName] := by
    intro other hother heq
    obtain rfl := fileName_inj (by simpa using heq)
    exact hfresh hother
  have hsame : ∀ other ∈ rest,
      mid.get? (d ++ [other.fileName]) = before.get? (d ++ [other.fileName]) := by
    intro other hother
    rw [hget, if_neg (hne other hother)]
  constructor
  · intro other hother
    rcases List.mem_cons.mp hother with rfl | hother
    · exact hdir
    · have hvacant := h.vacant other hother
      rwa [FileTree.isDirAt, hsame other hother] at hvacant
  · intro other hother
    rcases List.mem_cons.mp hother with rfl | hother
    · refine ⟨bytes, ?_⟩
      rw [h.others _ fun k hk => (hne k hk).symm, hget, if_pos rfl]
    · obtain ⟨bytes', hfile⟩ := h.files other hother
      refine ⟨bytes', ?_⟩
      rw [hfile, FileTree.writtenMode, hsame other hother]
      rfl
  · intro l hl
    rw [h.others l fun k hk => hl k (List.mem_cons_of_mem _ hk), hget,
      if_neg (hl kind List.mem_cons_self)]

theorem dir_iff (h : Filled s d kinds before after) (l : Location) (m : Nat) :
    after.get? l = some (.dir m) ↔ before.get? l = some (.dir m) := by
  by_cases hl : ∃ kind ∈ kinds, l = d ++ [kind.fileName]
  · obtain ⟨kind, hkind, rfl⟩ := hl
    obtain ⟨bytes, hfile⟩ := h.files kind hkind
    constructor
    · intro hdir
      rw [hfile] at hdir
      cases hdir
    · intro hdir
      have htrue := (FileTree.isDirAt_iff before _).mpr ⟨m, hdir⟩
      exact absurd htrue (by simp [h.vacant kind hkind])
  · rw [h.others l fun kind hkind heq => hl ⟨kind, hkind, heq⟩]

theorem grows (h : Filled s d kinds before after) : FileTree.Grows before after where
  dirs l m hl := (h.dir_iff l m).mpr hl
  present l hl := by
    by_cases hkind : ∃ kind ∈ kinds, l = d ++ [kind.fileName]
    · obtain ⟨kind, hkind, rfl⟩ := hkind
      obtain ⟨bytes, hfile⟩ := h.files kind hkind
      simp [hfile]
    · rw [h.others l fun kind hkind' heq => hkind ⟨kind, hkind', heq⟩]
      exact hl

end Filled

omit [Host] in
theorem find_target_of_reaches {tree : FileTree} (hreaches : tree.Reaches directory d)
    {kind : Report}
    {l : Location} (h : tree.find (target directory kind) = .ok l) : l = d ++ [kind.fileName] := by
  have hwalk := ((FileTree.find_eq_ok_iff _ _ _).mp h).2
  rw [parts_target] at hwalk
  obtain ⟨place, hfirst, hlast⟩ := (FileTree.walk_append_eq_ok_iff _ _ _ _ _).mp hwalk
  obtain rfl : place = d := Except.ok.inj (hfirst.symm.trans hreaches.walk)
  rw [FileTree.walk_cons_eq_ok_iff, if_neg (fileName_ne_up kind)] at hlast
  exact (Except.ok.inj hlast.2.2.2).symm

private theorem run_reports_of_reaches {kinds : List Report} (hkinds : kinds.Nodup)
    {w after : Workspace} {paths : List FilePath} (hreaches : w.tree.Reaches directory d)
    (h : (reports r s directory kinds).run.run w = (.ok paths, after)) :
    Filled s d kinds w.tree after.tree := by
  induction kinds generalizing w paths with
  | nil =>
    cases h
    exact ⟨by simp, by simp, fun _ _ => rfl⟩
  | cons kind rest ih =>
    obtain ⟨hfresh, hrest⟩ := List.nodup_cons.mp hkinds
    cases hreport : (report r s kind directory kind.fileName).run.run w with
    | mk result mid =>
      cases result with
      | error fault =>
        rw [run_reports_cons_of_error hreport] at h
        cases h
      | ok path =>
        obtain ⟨hdir, bytes, hmid⟩ := run_report_of_reaches hreaches hreport
        have hgrows : FileTree.Grows w.tree mid.tree := by
          rw [hmid]
          exact .set _ _ _ (by simp) hdir
        have hagain := hreaches.grow hgrows
        rw [reports, run_bind, hreport] at h
        simp only at h
        rw [run_bind] at h
        cases hlater : (reports r s directory rest).run.run mid with
        | mk result last =>
          rw [hlater] at h
          cases result with
          | error fault => cases h
          | ok more =>
            cases h
            exact (ih hrest hagain hlater).cons hfresh hdir hmid

end Reached

/-! ## The whole export -/

theorem run_prepare_ok [Host] {s : Settings} {directory : FilePath} {w : Workspace}
    {made : FileTree} (h : w.tree.ensureDir s.dirMode directory = (.ok (), made)) :
    (prepare s directory).run.run w = (.ok (), ⟨made, w.log⟩) := by
  rw [run_prepare, h]

private theorem run_report_made [Host] {r : Record} {s : Settings} {kind : Report}
    {directory : FilePath} {fileName : Text} {w : Workspace} {made : FileTree} {d : Location}
    (h : w.tree.ensureDir s.dirMode directory = (.ok (), made))
    (hreaches : made.Reaches directory d) :
    (report r s kind directory fileName).run.run ⟨made, w.log⟩ =
      (report r s kind directory fileName).run.run w := by
  have hagain : (⟨made, w.log⟩ : Workspace).tree.ensureDir s.dirMode directory = (.ok (), made) :=
    hreaches.ensureDir s.dirMode
  rw [report, run_bind, run_bind, run_prepare_ok h, run_prepare_ok hagain]

/-- An export writes its files into the directory as it would be without the files. -/
theorem filled_of_run [Host] {r : Record} {s : Settings} {directory : FilePath}
    {w after : Workspace} {paths : List FilePath}
    (h : (all r s directory).run.run w = (.ok paths, after)) :
    ∃ d, (w.tree.ensureDir s.dirMode directory).2.Reaches directory d ∧
      Filled s d Report.all (w.tree.ensureDir s.dirMode directory).2 after.tree := by
  cases hensure : w.tree.ensureDir s.dirMode directory with
  | mk result made =>
    cases result with
    | error fault =>
      have houtcome : outcome s directory (target directory .byExample)
          (Report.byExample.content r s) w.tree =
            (.error (fileFault .directory directory fault), made) := by
        simp only [outcome, hensure]
      obtain ⟨log, hrun⟩ := run_report_of_outcome houtcome
      rw [all, Report.all, run_reports_cons_of_error hrun] at h
      cases h
    | ok _ =>
      -- The directory can as well be made before the export.
      obtain ⟨d, hreaches⟩ := FileTree.reaches_of_ensureDir hensure
      have hmade : (all r s directory).run.run ⟨made, w.log⟩ = (.ok paths, after) := by
        rw [all, Report.all, reports, run_bind] at h ⊢
        rw [run_report_made hensure hreaches]
        exact h
      exact ⟨d, hreaches, run_reports_of_reaches (w := ⟨made, w.log⟩) (by decide) hreaches hmade⟩

/-- What the settings promise: reports have the permission bits for files, and directories that are
new have those for directories. -/
structure Permitted [Host] (s : Settings) (directory : FilePath) (before after : FileTree) :
    Prop where
  files : ∀ kind, ∃ l bytes, after.find (target directory kind) = .ok l ∧
    after.get? l = some (.file (granted s.fileMode) bytes)
  dirs : ∀ l m, after.get? l = some (.dir m) → before.get? l = none → m = granted s.dirMode

section Exported

variable [Host] {r : Record} {s : Settings} {directory : FilePath} {w after : Workspace}
  {paths : List FilePath} (h : (all r s directory).run.run w = (.ok paths, after))
include h

theorem file_of_run (kind : Report) : ∃ l bytes, after.tree.find (target directory kind) = .ok l ∧
    after.tree.get? l = some (.file (w.tree.writtenMode s.fileMode l) bytes) := by
  obtain ⟨d, hreaches, hfilled⟩ := filled_of_run h
  have hmade := w.tree.ensureDir_madeDirs s.dirMode directory
  obtain ⟨bytes, -, hread⟩ := (leaves_of_run h).reports kind (by cases kind <;> decide)
  obtain ⟨l, m, hfind, -⟩ := (FileTree.readFile_eq_ok_iff _ _ _).mp hread
  have hagain := hreaches.grow hfilled.grows
  obtain rfl := find_target_of_reaches hagain hfind
  obtain ⟨bytes, hfile⟩ := hfilled.files kind (by cases kind <;> decide)
  rw [hmade.writtenMode_eq] at hfile
  exact ⟨_, bytes, hfind, hfile⟩

private theorem modesOfNew_of_run : FileTree.ModesOfNew s.dirMode directory w.tree after.tree := by
  obtain ⟨d, hreaches, hfilled⟩ := filled_of_run h
  have hmodes := w.tree.ensureDir_modesOfNew s.dirMode directory
  intro l m hl hnone
  rcases hmodes l m ((hfilled.dir_iff l m).mp hl) hnone with ⟨hway, hm⟩ | ⟨hway, hm⟩
  · exact .inl ⟨hway.grow hfilled.grows, hm⟩
  · exact .inr ⟨fun hafter => hway (hafter.of_grow hreaches hfilled.grows), hm⟩

theorem new_onTheWay_iff : (∃ l m, after.tree.get? l = some (.dir m) ∧ w.tree.get? l = none ∧
    after.tree.OnTheWay directory l) ↔ ∀ d, w.tree.walk [] directory.parts.dropLast ≠ .ok d := by
  obtain ⟨d, hreaches, hfilled⟩ := filled_of_run h
  have hmade := w.tree.ensureDir_madeDirs s.dirMode directory
  constructor
  · rintro ⟨l, m, -, hnone, hway⟩ d' hwalk
    exact FileTree.not_onTheWay_of_walk hwalk (hmade.grows.trans hfilled.grows) hnone hway
  · intro hway
    obtain ⟨l, m, hl, hnone, hon⟩ := FileTree.exists_new_onTheWay hmade hreaches hway
    exact ⟨l, m, (hfilled.dir_iff l m).mpr hl, hnone, hon.grow hfilled.grows⟩

/-- After an export a report has the bits for files unless its file was there, which keeps its own;
a new directory on the way to that of the export has the usual bits, and a new one at the end of the
way has those of the settings. So the promise is kept if and only if the files of older reports had
these bits already, and the way to the directory was there or the usual bits are those promised. -/
theorem all_permissions :
    (∀ kind, ∃ l bytes, after.tree.find (target directory kind) = .ok l ∧
      after.tree.get? l = some (.file (w.tree.writtenMode s.fileMode l) bytes)) ∧
    FileTree.ModesOfNew s.dirMode directory w.tree after.tree ∧
    (Permitted s directory w.tree after.tree ↔
      (∀ kind l m bytes, after.tree.find (target directory kind) = .ok l →
        w.tree.get? l = some (.file m bytes) → m = granted s.fileMode) ∧
      (granted s.dirMode = granted usualDirMode ∨
        ∃ d, w.tree.walk [] directory.parts.dropLast = .ok d)) := by
  have hmodes := modesOfNew_of_run h
  refine ⟨file_of_run h, hmodes, ?_⟩
  constructor
  · intro hpermitted
    constructor
    · intro kind l m bytes hfind hold
      obtain ⟨l', bytes', hfind', hfile⟩ := hpermitted.files kind
      obtain ⟨l'', bytes'', hfind'', hkept⟩ := file_of_run h kind
      obtain rfl : l' = l := Except.ok.inj (hfind'.symm.trans hfind)
      obtain rfl : l'' = l' := Except.ok.inj (hfind''.symm.trans hfind')
      rw [hfile, FileTree.writtenMode, hold] at hkept
      cases hkept
      rfl
    · by_cases hway : ∃ d, w.tree.walk [] directory.parts.dropLast = .ok d
      · exact .inr hway
      · left
        obtain ⟨l, m, hl, hnone, hon⟩ := (new_onTheWay_iff h).mpr fun d hd => hway ⟨d, hd⟩
        have hpromised := hpermitted.dirs l m hl hnone
        rcases hmodes l m hl hnone with ⟨-, husual⟩ | ⟨hnot, -⟩
        · exact hpromised.symm.trans husual
        · exact absurd hon hnot
  · rintro ⟨hfiles, hdirs⟩
    constructor
    · intro kind
      obtain ⟨l, bytes, hfind, hfile⟩ := file_of_run h kind
      refine ⟨l, bytes, hfind, ?_⟩
      rw [hfile, FileTree.writtenMode]
      split
      · rename_i m old hold
        rw [hfiles kind l m old hfind hold]
      · rfl
    · intro l m hl hnone
      rcases hmodes l m hl hnone with ⟨hon, husual⟩ | ⟨-, hasked⟩
      · rcases hdirs with hsame | ⟨d, hd⟩
        · exact husual.trans hsame.symm
        · exact absurd hd ((new_onTheWay_iff h).mp ⟨l, m, hl, hnone, hon⟩ d)
      · exact hasked

end Exported

/-! ## Directories on the way and older reports -/

/-- A directory in one that is not there either. -/
def nested : FilePath := ⟨0, ["a", "b"]⟩

open scoped Host in
theorem ensureDir_nested : FileTree.ensureDir ⟨[]⟩ 0o700 nested =
    (.ok (), ⟨[(["a"], .dir 0o755), (["a", "b"], .dir 0o700)]⟩) := by
  obtain ⟨room, hroom⟩ := FileTree.exists_ensureWithin
  have hparent : FileTree.ensureWithin (room + 15) ⟨[]⟩ usualDirMode ⟨0, ["a"]⟩ =
      (.ok (), ⟨[(["a"], .dir 0o755)]⟩) := rfl
  rw [hroom]
  exact (FileTree.ensureWithin_of_absent rfl (by decide) hparent).trans rfl

private theorem ready_nested : Ready nested ["a", "b"]
    ⟨[(["a"], .dir 0o755), (["a", "b"], .dir 0o700)]⟩ := by
  apply ready_of_reaches ⟨rfl, rfl⟩
  · intro kind l h
    cases kind <;> cases h
  · intro kind
    cases kind <;> decide

open scoped Host in
/-- The outer one of two new directories is open to all, whatever the settings are. -/
theorem all_permissions_nested : ∃ after, (all bare .standard nested).run.run ⟨⟨[]⟩, []⟩ =
      (.ok (Report.all.map (target nested)), after) ∧
    after.tree.get? ["a"] = some (.dir 0o755) ∧ ¬ Permitted .standard nested ⟨[]⟩ after.tree := by
  obtain ⟨after, hrun⟩ := @succeeds_bare _ .standard (Text.not_hasHalf_ofString _) nested
    ⟨⟨[]⟩, []⟩ _ _ ensureDir_nested ready_nested
  refine ⟨after, hrun, ?_, ?_⟩
  · obtain ⟨d, -, hfilled⟩ := filled_of_run hrun
    apply (hfilled.dir_iff _ _).mpr
    show (FileTree.ensureDir ⟨[]⟩ 0o700 nested).2.get? _ = _
    rw [ensureDir_nested]
    rfl
  · rw [(all_permissions hrun).2.2]
    rintro ⟨-, hsame | ⟨d, hway⟩⟩
    · exact absurd hsame (by decide)
    · cases hway

/-- A tree with an older report that everyone can read. -/
def older : FileTree := ⟨[(["summary.json"], .file 0o644 [])]⟩

theorem ready_older : Ready ⟨0, []⟩ [] older := by
  apply ready_of_reaches ⟨rfl, rfl⟩
  · intro kind l h
    cases kind <;> cases h
    rfl
  · exact short_top

open scoped Host in
theorem older_keeps_mode : ∃ after, (all bare .standard ⟨0, []⟩).run.run ⟨older, []⟩ =
      (.ok (Report.all.map (target ⟨0, []⟩)), after) ∧
    ¬ Permitted .standard ⟨0, []⟩ older after.tree := by
  have hensure : older.ensureDir 0o700 ⟨0, []⟩ = (.ok (), older) := ready_older.reaches.ensureDir _
  obtain ⟨after, hrun⟩ := @succeeds_bare _ .standard (Text.not_hasHalf_ofString _) ⟨0, []⟩
    ⟨older, []⟩ _ _ hensure ready_older
  refine ⟨after, hrun, ?_⟩
  intro hpermitted
  obtain ⟨l, bytes, hfind, hfile⟩ := file_of_run hrun .summary
  obtain ⟨l', bytes', hfind', hpromised⟩ := hpermitted.files .summary
  obtain rfl : l = l' := Except.ok.inj (hfind.symm.trans hfind')
  have htop : after.tree.Reaches ⟨0, []⟩ [] := ⟨rfl, rfl⟩
  obtain rfl := find_target_of_reaches htop hfind
  have hmode : older.writtenMode Settings.standard.fileMode ["summary.json"] = 0o644 := by decide
  rw [hpromised] at hfile
  injection hfile with hentry
  injection hentry with hgranted
  exact absurd (hgranted.trans hmode) (by decide)

end Export

end ConversionCoverage

import ConversionCoverage.Export
import ConversionCoverage.Proofs.FileTree

/-!
# What an export leaves behind

An export that succeeds leaves the four reports in the directory, whatever their files held before,
and one that fails leaves those before the failing one. Beyond them no file is touched, and all
that is new are directories on the way to the one asked for.
-/

namespace ConversionCoverage

/-! ## Computations that change a state and may fail -/

section Running

variable {ε σ : Type}

theorem run_bind {α β : Type} (x : ExceptT ε (StateM σ) α) (f : α → ExceptT ε (StateM σ) β)
    (s : σ) : (x >>= f).run.run s = match x.run.run s with
      | (.ok a, after) => (f a).run.run after
      | (.error fault, after) => (.error fault, after) := by
  unfold ExceptT.run StateT.run
  simp only [bind, ExceptT.bind, ExceptT.mk, StateT.bind, ExceptT.bindCont]
  cases x s with
  | mk result after => cases result <;> rfl

theorem run_get (s : σ) : (get : ExceptT ε (StateM σ) σ).run.run s = (.ok s, s) := rfl

theorem run_set (s after : σ) :
    (set after : ExceptT ε (StateM σ) PUnit).run.run s = (.ok (), after) := rfl

theorem run_ofExcept {α : Type} (x : Except ε α) (s : σ) :
    (MonadExcept.ofExcept x : ExceptT ε (StateM σ) α).run.run s = (x, s) := by
  cases x <;> rfl

end Running

namespace Export

/-- The path of a report in a directory. -/
def target (directory : FilePath) (kind : Report) : FilePath := directory.append kind.fileName

theorem target_eq (directory : FilePath) (kind : Report) :
    target directory kind = ⟨directory.slashes, directory.parts ++ [kind.fileName]⟩ := by
  cases kind <;> rfl

theorem parts_target (directory : FilePath) (kind : Report) :
    (target directory kind).parts = directory.parts ++ [kind.fileName] := by
  rw [target_eq]

theorem fileName_ne_up (kind : Report) : kind.fileName ≠ ".." := by
  cases kind <;> decide

theorem fileName_inj {kind other : Report} (h : kind.fileName = other.fileName) :
    kind = other := by
  cases kind <;> cases other <;> first | rfl | exact absurd h (by decide)

theorem eq_of_find_target (tree : FileTree) (directory : FilePath) (kind other : Report)
    (l : Location) (h : tree.find (target directory kind) = .ok l)
    (h' : tree.find (target directory other) = .ok l) : kind = other := by
  have hlast : ∀ k, tree.find (target directory k) = .ok l → l.getLast? = some k.fileName := by
    intro k hk
    have hwalk := ((FileTree.find_eq_ok_iff _ _ _).mp hk).2
    rw [parts_target] at hwalk
    exact FileTree.getLast?_of_walk tree _ _ _ l (fileName_ne_up k) hwalk
  exact fileName_inj (Option.some.inj ((hlast kind h).symm.trans (hlast other h')))

/-! ## One report -/

/-- The fault of an export for which a file tree does not take a step. -/
def fileFault (step : ExportStep) (path : FilePath) : FileFault → ExportFault
  | .refused refusal written => .failed step path (.file (.refused refusal written))
  | fault => .unusablePath fault

/-- What is logged of a fault. A path that no file system takes is not logged. -/
def faultEvents : ExportFault → List Event
  | .failed step path cause => [failureEvent step path cause]
  | .unusablePath _ => []

theorem run_failFile {α : Type} (step : ExportStep) (path : FilePath) (fault : FileFault)
    (w : Workspace) : (failFile (α := α) step path fault).run.run w =
      (.error (fileFault step path fault),
        ⟨w.tree, w.log ++ faultEvents (fileFault step path fault)⟩) := by
  have hthrow : (throw (fileFault step path fault) : Export α).run.run w =
      (.error (fileFault step path fault), ⟨w.tree, w.log ++ []⟩) := by
    rw [List.append_nil]
    rfl
  cases fault with
  | refused refusal written => rfl
  | unencodable fault => exact hthrow
  | zeroByte => exact hthrow
  | tooManyParents => exact hthrow

variable [Host]

/-- What a text that is to be written makes of a tree: its directory is made, it is encoded, and its
file is written. -/
def outcome (s : Settings) (directory target : FilePath) (content : Text) (tree : FileTree) :
    Except ExportFault Unit × FileTree :=
  match tree.ensureDir s.dirMode directory with
  | (.error fault, made) => (.error (fileFault .directory directory fault), made)
  | (.ok (), made) =>
    match Utf8.encode content with
    | .error fault => (.error (.failed .serialization target (.encoding fault)), made)
    | .ok bytes =>
      match made.writeFile s.fileMode target bytes with
      | .error fault => (.error (fileFault .writing target fault), made)
      | .ok done => (.ok (), done)

/-- What is logged of a text that is to be written. -/
def outcomeEvents (target : FilePath) (content : Text) : Except ExportFault Unit → List Event
  | .error fault => faultEvents fault
  | .ok () =>
    match Utf8.encode content with
    | .ok bytes => [successEvent target bytes]
    | .error _ => []

theorem run_prepare (s : Settings) (directory : FilePath) (w : Workspace) :
    (prepare s directory).run.run w = match w.tree.ensureDir s.dirMode directory with
      | (.error fault, made) => (.error (fileFault .directory directory fault),
          ⟨made, w.log ++ faultEvents (fileFault .directory directory fault)⟩)
      | (.ok (), made) => (.ok (), ⟨made, w.log⟩) := by
  rw [prepare, run_bind, run_get]
  simp only
  cases w.tree.ensureDir s.dirMode directory with
  | mk result made =>
    simp only
    rw [run_bind, run_set]
    cases result with
    | ok _ => rfl
    | error fault => exact run_failFile .directory directory fault { w with tree := made }

private theorem run_write (s : Settings) (path : FilePath) (content : Text) (w : Workspace) :
    (write s path content).run.run w = match Utf8.encode content with
      | .error fault => (.error (.failed .serialization path (.encoding fault)),
          ⟨w.tree, w.log ++ [failureEvent .serialization path (.encoding fault)]⟩)
      | .ok bytes => match w.tree.writeFile s.fileMode path bytes with
        | .error fault => (.error (fileFault .writing path fault),
            ⟨w.tree, w.log ++ faultEvents (fileFault .writing path fault)⟩)
        | .ok done => (.ok (), ⟨done, w.log ++ [successEvent path bytes]⟩) := by
  rw [write]
  cases Utf8.encode content with
  | error fault => rfl
  | ok bytes =>
    simp only
    rw [run_bind, run_get]
    simp only
    cases w.tree.writeFile s.fileMode path bytes with
    | error fault => exact run_failFile .writing path fault w
    | ok done => rfl

/-- A report ends, and leaves the tree, as its outcome says, and adds to the log what is logged of
that. -/
theorem run_report_eq (r : Record) (s : Settings) (kind : Report) (directory : FilePath)
    (fileName : Text) (w : Workspace) :
    let target := directory.append fileName
    let done := outcome s directory target (kind.content r s) w.tree
    (report r s kind directory fileName).run.run w = (done.1.map fun _ => target,
      ⟨done.2, w.log ++ outcomeEvents target (kind.content r s) done.1⟩) := by
  unfold outcome
  rw [report, run_bind, run_prepare]
  cases w.tree.ensureDir s.dirMode directory with
  | mk result made =>
    cases result with
    | error fault => rfl
    | ok _ =>
      simp only
      rw [run_bind, run_write]
      simp only
      cases hencode : Utf8.encode (kind.content r s) with
      | error fault => rfl
      | ok bytes =>
        simp only
        cases made.writeFile s.fileMode (directory.append fileName) bytes with
        | error fault => rfl
        | ok tree =>
          simp only [outcomeEvents, hencode]
          rfl

theorem run_report_outcome (r : Record) (s : Settings) (kind : Report) (directory : FilePath)
    (fileName : Text) (w : Workspace) :
    let done := outcome s directory (directory.append fileName) (kind.content r s) w.tree
    ∃ log, (report r s kind directory fileName).run.run w =
      (done.1.map fun _ => directory.append fileName, ⟨done.2, log⟩) :=
  ⟨_, run_report_eq r s kind directory fileName w⟩

/-- A text is written into the directory that has been made, or nothing more than directories is
added. -/
theorem outcome_cases (s : Settings) (directory target : FilePath) (content : Text)
    (tree : FileTree) :
    (∃ made bytes done, FileTree.MadeDirs directory.parts tree made ∧
      Utf8.encode content = .ok bytes ∧ made.writeFile s.fileMode target bytes = .ok done ∧
      outcome s directory target content tree = (.ok (), done)) ∨
    ∃ fault made, outcome s directory target content tree = (.error fault, made) ∧
      FileTree.MadeDirs directory.parts tree made := by
  have hmade := tree.ensureDir_madeDirs s.dirMode directory
  rw [outcome]
  cases hensure : tree.ensureDir s.dirMode directory with
  | mk result made =>
    rw [hensure] at hmade
    cases result with
    | error fault => exact .inr ⟨_, made, rfl, hmade⟩
    | ok _ =>
      simp only
      cases hencode : Utf8.encode content with
      | error fault => exact .inr ⟨_, made, rfl, hmade⟩
      | ok bytes =>
        simp only
        cases hwrite : made.writeFile s.fileMode target bytes with
        | error fault => exact .inr ⟨_, made, rfl, hmade⟩
        | ok done => exact .inl ⟨made, bytes, done, hmade, rfl, hwrite, rfl⟩

/-- A report is written into the directory that has been made, or it fails with nothing more than
directories added. -/
theorem run_report_cases (r : Record) (s : Settings) (kind : Report) (directory : FilePath)
    (fileName : Text) (w : Workspace) :
    (∃ made bytes tree log, FileTree.MadeDirs directory.parts w.tree made ∧
      Utf8.encode (kind.content r s) = .ok bytes ∧
      made.writeFile s.fileMode (directory.append fileName) bytes = .ok tree ∧
      (report r s kind directory fileName).run.run w =
        (.ok (directory.append fileName), ⟨tree, log⟩)) ∨
    ∃ fault after, (report r s kind directory fileName).run.run w = (.error fault, after) ∧
      FileTree.MadeDirs directory.parts w.tree after.tree := by
  obtain ⟨log, hrun⟩ := run_report_outcome r s kind directory fileName w
  rw [hrun]
  rcases outcome_cases s directory (directory.append fileName) (kind.content r s) w.tree with
    ⟨made, bytes, done, hmade, hencode, hwrite, houtcome⟩ | ⟨fault, made, houtcome, hmade⟩
  · exact .inl ⟨made, bytes, done, log, hmade, hencode, hwrite, by rw [houtcome]; rfl⟩
  · exact .inr ⟨fault, ⟨made, log⟩, by rw [houtcome]; rfl, hmade⟩

/-! ## What is left behind -/

/-- What an export has left behind in a tree once it has written some of the reports: these have
their bytes, no other file has changed or come up, and new directories are on the way to the one
of the export. -/
structure Leaves (r : Record) (s : Settings) (directory : FilePath) (written : List Report)
    (before after : FileTree) : Prop where
  reports : ∀ kind ∈ written, ∃ bytes, Utf8.encode (kind.content r s) = .ok bytes ∧
    after.readFile (target directory kind) = .ok bytes
  files : ∀ l, (∀ kind ∈ written, after.find (target directory kind) ≠ .ok l) →
    after.file? l = before.file? l
  dirs : ∀ l m, before.get? l = some (.dir m) → after.get? l = some (.dir m)
  added : ∀ l m, after.get? l = some (.dir m) → before.get? l = none →
    ∃ n, after.walk [] (directory.parts.take n) = .ok l

namespace Leaves

variable {r : Record} {s : Settings} {directory : FilePath} {written : List Report}
  {before mid after : FileTree}

omit [Host] in
theorem refl (r : Record) (s : Settings) (directory : FilePath) (tree : FileTree) :
    Leaves r s directory [] tree tree where
  reports _ h := by simp at h
  files _ _ := rfl
  dirs _ _ h := h
  added l m h hnone := by simp [hnone] at h

omit [Host] in
theorem madeDirs (h : Leaves r s directory written before mid)
    (hmade : FileTree.MadeDirs directory.parts mid after) :
    Leaves r s directory written before after where
  reports kind hkind := by
    obtain ⟨bytes, hencode, hread⟩ := h.reports kind hkind
    obtain ⟨l, m, hfind, hfile⟩ := (FileTree.readFile_eq_ok_iff _ _ _).mp hread
    refine ⟨bytes, hencode, (FileTree.readFile_eq_ok_iff _ _ _).mpr ⟨l, m, ?_, ?_⟩⟩
    · exact hmade.grows.find _ _ hfind
    · exact hmade.kept _ _ hfile
  files l hl := by
    rw [hmade.file?_eq l]
    exact h.files l fun kind hkind hfind => hl kind hkind (hmade.grows.find _ _ hfind)
  dirs l m hl := hmade.kept _ _ (h.dirs l m hl)
  added l m hl hnone := by
    cases hmid : mid.get? l with
    | none => exact (hmade.added l _ hl hmid).2
    | some e =>
      obtain rfl : e = .dir m := Option.some.inj ((hmade.kept l e hmid).symm.trans hl)
      obtain ⟨n, hn⟩ := h.added l m hmid hnone
      exact ⟨n, hmade.grows.walk _ _ _ hn⟩

omit [Host] in
theorem wrote (h : Leaves r s directory written before mid) {kind : Report}
    (hfresh : kind ∉ written) {bytes : List UInt8} {l : Location}
    (hencode : Utf8.encode (kind.content r s) = .ok bytes)
    (hwrote : FileTree.Wrote (target directory kind) bytes mid after l) :
    Leaves r s directory (written ++ [kind]) before after where
  reports other hother := by
    rcases List.mem_append.mp hother with hother | hother
    · obtain ⟨bytes', hencode', hread⟩ := h.reports other hother
      obtain ⟨l', m, hfind, hfile⟩ := (FileTree.readFile_eq_ok_iff _ _ _).mp hread
      have hfind' := hwrote.grows.find _ _ hfind
      have hne : l' ≠ l := by
        rintro rfl
        exact hfresh (eq_of_find_target _ _ _ _ l' hwrote.find hfind' ▸ hother)
      refine ⟨bytes', hencode', (FileTree.readFile_eq_ok_iff _ _ _).mpr ⟨l', m, hfind', ?_⟩⟩
      rw [hwrote.others l' hne, hfile]
    · obtain rfl := List.mem_singleton.mp hother
      obtain ⟨m, hm⟩ := hwrote.file
      exact ⟨bytes, hencode, (FileTree.readFile_eq_ok_iff _ _ _).mpr ⟨l, m, hwrote.find, hm⟩⟩
  files l' hl' := by
    have hne : l' ≠ l := by
      rintro rfl
      exact hl' kind (by simp) hwrote.find
    rw [hwrote.file?_eq l' hne]
    exact h.files l' fun other hother hfind =>
      hl' other (by simp [hother]) (hwrote.grows.find _ _ hfind)
  dirs l' m hl' := hwrote.grows.dirs l' m (h.dirs l' m hl')
  added l' m hl' hnone := by
    have hne : l' ≠ l := by
      rintro rfl
      obtain ⟨m', hm'⟩ := hwrote.file
      simp [hl'] at hm'
    rw [hwrote.others l' hne] at hl'
    obtain ⟨n, hn⟩ := h.added l' m hl' hnone
    exact ⟨n, hwrote.grows.walk _ _ _ hn⟩

omit [Host] in
theorem file?_of_notMem (h : Leaves r s directory written before after) {kind : Report}
    (hkind : kind ∉ written) (l : Location) (hl : after.find (target directory kind) = .ok l) :
    after.file? l = before.file? l := by
  apply h.files l
  intro other hother hfind
  exact hkind (eq_of_find_target _ _ _ _ l hfind hl ▸ hother)

end Leaves

/-! ## The whole export -/

private theorem run_report (r : Record) (s : Settings) (directory : FilePath) (kind : Report)
    (written : List Report) (hfresh : kind ∉ written) (before : FileTree) (w : Workspace)
    (h : Leaves r s directory written before w.tree) :
    (∃ after, (report r s kind directory kind.fileName).run.run w =
        (.ok (target directory kind), after) ∧
      Leaves r s directory (written ++ [kind]) before after.tree) ∨
    ∃ fault after, (report r s kind directory kind.fileName).run.run w = (.error fault, after) ∧
      Leaves r s directory written before after.tree := by
  rcases run_report_cases r s kind directory kind.fileName w with
    ⟨made, bytes, tree, log, hmade, hencode, hwrite, hrun⟩ | ⟨fault, after, hrun, hmade⟩
  · obtain ⟨l, hwrote⟩ := FileTree.writeFile_eq_ok _ _ _ hwrite
    exact .inl ⟨⟨tree, log⟩, hrun, (h.madeDirs hmade).wrote hfresh hencode hwrote⟩
  · exact .inr ⟨fault, after, hrun, h.madeDirs hmade⟩

theorem run_report_of_outcome {r : Record} {s : Settings} {directory : FilePath} {kind : Report}
    {w : Workspace} {result : Except ExportFault Unit} {tree : FileTree}
    (h : outcome s directory (target directory kind) (kind.content r s) w.tree = (result, tree)) :
    ∃ log, (report r s kind directory kind.fileName).run.run w =
      (result.map fun _ => target directory kind, ⟨tree, log⟩) := by
  obtain ⟨log, hrun⟩ := run_report_outcome r s kind directory kind.fileName w
  rw [target] at h
  rw [h] at hrun
  exact ⟨log, hrun⟩

theorem run_reports_cons {r : Record} {s : Settings} {directory : FilePath} {kind : Report}
    {rest : List Report} {w mid : Workspace}
    (h : (report r s kind directory kind.fileName).run.run w =
      (.ok (target directory kind), mid)) :
    (reports r s directory (kind :: rest)).run.run w =
      (((reports r s directory rest).run.run mid).1.map (target directory kind :: ·),
        ((reports r s directory rest).run.run mid).2) := by
  rw [reports, run_bind, h]
  simp only
  rw [run_bind]
  cases (reports r s directory rest).run.run mid with
  | mk result after => cases result <;> rfl

theorem run_reports_cons_of_error {r : Record} {s : Settings} {directory : FilePath}
    {kind : Report} {rest : List Report} {w after : Workspace} {fault : ExportFault}
    (h : (report r s kind directory kind.fileName).run.run w = (.error fault, after)) :
    (reports r s directory (kind :: rest)).run.run w = (.error fault, after) := by
  rw [reports, run_bind, h]

theorem run_reports (r : Record) (s : Settings) (directory : FilePath) (kinds : List Report)
    (written : List Report) (hfresh : (written ++ kinds).Nodup) (before : FileTree)
    (w : Workspace) (h : Leaves r s directory written before w.tree) :
    (∃ after, (reports r s directory kinds).run.run w =
        (.ok (kinds.map (target directory)), after) ∧
      Leaves r s directory (written ++ kinds) before after.tree) ∨
    ∃ fault after done kind later mid, kinds = done ++ kind :: later ∧
      (reports r s directory kinds).run.run w = (.error fault, after) ∧
      (reports r s directory done).run.run w = (.ok (done.map (target directory)), mid) ∧
      (report r s kind directory kind.fileName).run.run mid = (.error fault, after) ∧
      Leaves r s directory (written ++ done) before after.tree := by
  -- By induction on the reports still to come: each finds those before it written.
  induction kinds generalizing written w with
  | nil => exact .inl ⟨w, rfl, by simpa using h⟩
  | cons kind rest ih =>
    have hkind : kind ∉ written := by
      intro hmem
      exact (List.nodup_append.mp hfresh).2.2 kind hmem kind List.mem_cons_self rfl
    have happend : written ++ kind :: rest = written ++ [kind] ++ rest := by simp
    rcases run_report r s directory kind written hkind before w h with
      ⟨mid, hrun, hmid⟩ | ⟨fault, after, hrun, hafter⟩
    · rw [happend] at hfresh ⊢
      rcases ih (written ++ [kind]) hfresh mid hmid with
        ⟨after, hrest, hafter⟩ | ⟨fault, after, done, failed, later, last, rfl, hrest, hdone,
          hfail, hafter⟩
      · exact .inl ⟨after, by rw [run_reports_cons hrun, hrest]; rfl, hafter⟩
      · refine .inr ⟨fault, after, kind :: done, failed, later, last, rfl, ?_, ?_, hfail, ?_⟩
        · rw [run_reports_cons hrun, hrest]
          rfl
        · rw [run_reports_cons hrun, hdone]
          rfl
        · simpa using hafter
    · exact .inr ⟨fault, after, [], kind, rest, w, rfl, run_reports_cons_of_error hrun, rfl, hrun,
        by simpa using hafter⟩

private theorem ends_of_run {r : Record} {s : Settings} {directory : FilePath}
    {w after : Workspace} {paths : List FilePath}
    (h : (all r s directory).run.run w = (.ok paths, after)) :
    paths = Report.all.map (target directory) ∧
      Leaves r s directory Report.all w.tree after.tree := by
  rcases run_reports r s directory Report.all [] (by decide) w.tree w (.refl r s directory _) with
    ⟨last, hrun, hleaves⟩ | ⟨fault, last, written, kind, later, mid, hall, hrun, -⟩
  · rw [all, hrun] at h
    cases h
    exact ⟨rfl, hleaves⟩
  · rw [all, hrun] at h
    cases h

theorem leaves_of_run {r : Record} {s : Settings} {directory : FilePath} {w after : Workspace}
    {paths : List FilePath} (h : (all r s directory).run.run w = (.ok paths, after)) :
    Leaves r s directory Report.all w.tree after.tree := (ends_of_run h).2

theorem paths_of_run {r : Record} {s : Settings} {directory : FilePath} {w after : Workspace}
    {paths : List FilePath} (h : (all r s directory).run.run w = (.ok paths, after)) :
    paths = Report.all.map (target directory) := (ends_of_run h).1

/-- An export either writes all four reports or fails at one of them. Those written hold what they
show, encoded, whatever their files held before; all other files are as they were, those of the
failing report and of the later ones among them; and all else that is new are directories on the
way to the one of the export. -/
theorem all_leaves (r : Record) (s : Settings) (directory : FilePath) (w : Workspace) :
    match (all r s directory).run.run w with
    | (.ok paths, after) =>
      paths = Report.all.map (target directory) ∧
        Leaves r s directory Report.all w.tree after.tree
    | (.error fault, after) => ∃ written kind later mid, Report.all = written ++ kind :: later ∧
      (reports r s directory written).run.run w = (.ok (written.map (target directory)), mid) ∧
      (report r s kind directory kind.fileName).run.run mid = (.error fault, after) ∧
      Leaves r s directory written w.tree after.tree ∧
      ∀ pending ∈ kind :: later, ∀ l, after.tree.find (target directory pending) = .ok l →
        after.tree.file? l = w.tree.file? l := by
  rcases run_reports r s directory Report.all [] (by decide) w.tree w (.refl r s directory _) with
    ⟨after, hrun, hleaves⟩ | ⟨fault, after, written, kind, later, mid, hall, hrun, hdone, hfail,
      hleaves⟩
  · rw [all, hrun]
    exact ⟨rfl, hleaves⟩
  · rw [all, hrun]
    refine ⟨written, kind, later, mid, hall, hdone, hfail, hleaves, ?_⟩
    intro pending hpending l hl
    have hfresh : pending ∉ written := by
      intro hmem
      have hn : (written ++ kind :: later).Nodup := hall ▸ (by decide : Report.all.Nodup)
      exact (List.nodup_append.mp hn).2.2 pending hmem pending hpending rfl
    exact hleaves.file?_of_notMem hfresh l hl

end Export

end ConversionCoverage

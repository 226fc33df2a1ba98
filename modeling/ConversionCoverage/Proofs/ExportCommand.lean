import ConversionCoverage.Host.Usual
import ConversionCoverage.Proofs.CommandLine
import ConversionCoverage.Proofs.ConsoleMarkup
import ConversionCoverage.Proofs.FirstFailure
import ConversionCoverage.Proofs.JsonRoundTrip
import ConversionCoverage.Proofs.RecordLoading

/-!
# The command that exports a record

The command does what an export does with the settings and the record that it loads, and shows
what it does in markup. Names that come from the record are escaped there, and the paths that it was
given are not. So it ends as the export does unless the console does not take one of these: such a
record is not exported at all, and after such a directory the command ends with a fault.
-/

namespace ConversionCoverage

section Host

variable [Host]

theorem Export.shownWhole_of_run {r : Record} {s : Settings} {directory : FilePath}
    {w after : Workspace} {paths : List FilePath}
    (h : (all r s directory).run.run w = (.ok paths, after)) : r.ShownWhole := by
  have hwhole (kind : Report) : ¬ (kind.content r s).HasHalf := by
    obtain ⟨bytes, hbytes, -⟩ := (leaves_of_run h).reports kind (by cases kind <;> decide)
    rw [← Utf8.isOk_encode_iff, hbytes]
    rfl
  have hshows : ¬ r.ExamplesShowHalf := mt (r.hasHalf_byExample s).mpr (hwhole .byExample)
  have hdigest := mt r.hasHalf_digest.mpr (hwhole .digest)
  rw [not_or, not_exists] at hdigest
  have hindent : ¬ s.indent.HasHalf := mt r.hasHalf_summary_of_indent (hwhole .summary)
  have hprovider := mt (r.hasHalf_summary hindent hshows).mpr (hwhole .summary)
  exact ⟨hdigest.1, fun hversion => hprovider (.inr hversion),
    fun a ha hlanguage => hdigest.2 a ⟨ha, hlanguage⟩,
    fun a ha hfailed => (r.not_hasHalf_of_failed hshows ha hfailed).2⟩

namespace Session

theorem verdict_append (xs ys : List Text) : verdict (xs ++ ys) =
    (verdict xs).bind fun _ => verdict ys := by
  induction xs with
  | nil => rfl
  | cons markup rest ih =>
    rw [List.cons_append, verdict, verdict]
    cases Host.console markup with
    | ok _ => exact ih
    | error f => rfl

theorem verdict_eq_ok_iff (texts : List Text) :
    verdict texts = .ok () ↔ ∀ markup ∈ texts, Host.console markup = .ok () := by
  induction texts with
  | nil => exact iff_of_true rfl (List.forall_mem_nil _)
  | cons markup rest ih =>
    rw [verdict, List.forall_mem_cons, ← ih]
    cases Host.console markup with
    | ok _ => exact (and_iff_right rfl).symm
    | error f =>
      constructor
      · intro h
        cases h
      · intro h
        cases h.1

theorem exists_of_verdict_eq_error {texts : List Text} {stop : Stop}
    (h : verdict texts = .error stop) : ∃ f, stop = .fault (.console f) := by
  induction texts with
  | nil => cases h
  | cons markup rest ih =>
    rw [verdict] at h
    split at h
    · exact ih h
    · rename_i f _
      exact ⟨f, (Except.error.inj h).symm⟩

/-- A part of a command shows markup and does no more: it ends unless the console does not take some
of it, which it ends with, and leaves the files as they are. -/
def Shows (x : Session Unit) (texts : List Text) : Prop :=
  ∀ t : Terminal, ∃ shown, x.run.run t = (verdict texts, { t with shown := shown })

theorem shows_showing (s : Shown) : Shows (showing s) s.markup :=
  fun t => ⟨t.shown ++ [s], run_showing s t⟩

theorem Shows.bind {x : Session Unit} {y : Session Unit} {xs ys : List Text} (hx : Shows x xs)
    (hy : Shows y ys) : Shows (x >>= fun _ => y) (xs ++ ys) := by
  intro t
  obtain ⟨shown, hrun⟩ := hx t
  rw [run_bind, hrun, verdict_append]
  cases verdict xs with
  | error f => exact ⟨shown, rfl⟩
  | ok _ => exact hy { t with shown := shown }

private theorem shows_forIn {α : Type} (items : List α) {body : α → Session Unit} {text : α → Text}
    (h : ∀ item, Shows (body item) [text item]) :
    Shows (do for item in items do body item) (items.map text) := by
  induction items with
  | nil => exact fun t => ⟨t.shown, rfl⟩
  | cons item rest ih =>
    have hrest := (h item).bind ih
    simp only [List.forIn_cons, bind_assoc, pure_bind, bind_pure_unit] at hrest ⊢
    exact hrest

end Session

namespace Command

/-! ## Running the command -/

/-- The settings that a command line names: those of a file, or the standard ones. -/
def settingsOf (tree : FileTree) (config : Option Text) : Except Settings.LoadFault Settings :=
  match config.filter (· ≠ []) with
  | none => .ok .standard
  | some path => Settings.load tree path

theorem run_loadSettings_eq (config : Option Text) (t : Terminal) :
    (Session.loadSettings config).run.run t = match settingsOf t.workspace.tree config with
      | .ok s => (.ok s, t)
      | .error f =>
        if f.isReported then Session.complained ("Invalid configuration: " ++ f.message) t
        else (.error (.fault (.settings f)), t) := by
  rw [settingsOf, Session.loadSettings]
  cases config.filter (· ≠ []) with
  | none => rfl
  | some path =>
    simp only
    rw [run_bind, Session.run_tree]
    simp only
    generalize Settings.load t.workspace.tree path = result
    cases result with
    | ok s => rfl
    | error f =>
      simp only
      by_cases hreported : f.isReported
      · rw [if_pos hreported, if_pos hreported, Session.run_complain]
      · rw [if_neg hreported, if_neg hreported]
        rfl

private theorem run_loadSettings {t : Terminal} {config : Option Text} {s : Settings}
    (h : settingsOf t.workspace.tree config = .ok s) :
    (Session.loadSettings config).run.run t = (.ok s, t) := by
  rw [run_loadSettings_eq, h]

theorem run_exportAll_eq (r : Record) (s : Settings) (directory : FilePath) (t : Terminal) :
    (Session.exportAll r s directory).run.run t =
      match (Export.all r s directory).run.run t.workspace with
      | (.ok paths, w) => (.ok paths, { t with workspace := w })
      | (.error (.unusablePath f), w) => (.error (.fault (.file f)), { t with workspace := w })
      | (.error f, w) => Session.complained f.message { t with workspace := w } := by
  rw [Session.exportAll, run_bind, run_get]
  simp only
  generalize (Export.all r s directory).run.run t.workspace = exported
  obtain ⟨result, w⟩ := exported
  simp only
  rw [run_bind, run_set]
  cases result with
  | ok paths => rfl
  | error fault =>
    cases fault with
    | unusablePath f => rfl
    | failed step path cause => exact Session.run_complain _ _

theorem run_exportAll {r : Record} {s : Settings} {directory : FilePath} {t : Terminal}
    {paths : List FilePath} {w : Workspace}
    (h : (Export.all r s directory).run.run t.workspace = (.ok paths, w)) :
    (Session.exportAll r s directory).run.run t = (.ok paths, { t with workspace := w }) := by
  rw [run_exportAll_eq, h]

/-- What the command shows of a record once its reports are written. -/
def showResult (r : Record) (paths : List FilePath) : Session Unit := do
  Session.line (LanguageTable.heading r)
  Session.table LanguageTable.columns (LanguageTable.rows r)
  for path in paths do
    showDone ("Written " ++ path.toText)

private theorem shows_showResult (r : Record) (directory : FilePath) :
    Session.Shows (showResult r (Report.all.map (Export.target directory)))
      (resultMarkup r directory) := by
  have hline (path : FilePath) :
      Session.Shows (showDone ("Written " ++ path.toText)) [doneLine path] :=
    Session.shows_showing (.line (doneLine path))
  have hlines := Session.shows_forIn (Report.all.map (Export.target directory)) hline
  rw [List.map_map] at hlines
  have htable := Session.shows_showing
    (.table LanguageTable.columns (LanguageTable.rows r))
  exact (Session.shows_showing (.line (LanguageTable.heading r))).bind (htable.bind hlines)

/-- The parts of the command, one after the other. -/
theorem runExport_eq (request : ExportRequest) : runExport request =
    Session.loadSettings request.config >>= fun s =>
      Session.loadRecord request.record >>= fun r =>
        Session.panel (announcement request.record
          (Export.directory (ExportRequest.apply request s) request.output))
          "📊 Example Coverage" >>= fun _ =>
            Session.exportAll r (ExportRequest.apply request s)
              (Export.directory (ExportRequest.apply request s) request.output) >>=
                showResult r := rfl

theorem exitCode_verdict_iff (texts : List Text) : exitCode (Session.verdict texts) = 0 ↔
    ∀ markup ∈ texts, Host.console markup = .ok () := by
  rw [← Session.verdict_eq_ok_iff]
  cases hverdict : Session.verdict texts with
  | ok _ => exact iff_of_true rfl rfl
  | error stop =>
    obtain ⟨f, rfl⟩ := Session.exists_of_verdict_eq_error hverdict
    exact iff_of_false nofun nofun

private theorem failed_of_exitCode_verdict {texts : List Text}
    (h : exitCode (Session.verdict texts) ≠ 0) : exitCode (Session.verdict texts) = 1 ∧
      ∃ f, Session.verdict texts = .error (.fault (.console f)) := by
  cases hverdict : Session.verdict texts with
  | ok _ =>
    rw [hverdict] at h
    exact absurd rfl h
  | error stop =>
    obtain ⟨f, rfl⟩ := Session.exists_of_verdict_eq_error hverdict
    exact ⟨rfl, f, rfl⟩

section Exported

variable {request : ExportRequest} {tree : FileTree} {s : Settings} {r : Record}
  {directory : FilePath} {paths : List FilePath} {w : Workspace}
  (hsettings : settingsOf tree request.config = .ok s)
  (hrecord : Record.load tree request.record = .ok r)
  (hdirectory : Export.directory (ExportRequest.apply request s) request.output = directory)
include hsettings hrecord hdirectory

/-- The command comes to the export unless the console does not take its panel. -/
theorem runOn_exportRecord_panel : ∃ shown, runOn (.exportRecord request) tree =
    match Session.verdict (panelMarkup request.record directory) with
    | .error stop => (.error stop, ⟨⟨tree, []⟩, shown, []⟩)
    | .ok () => (Session.exportAll r (ExportRequest.apply request s) directory >>=
        showResult r).run.run ⟨⟨tree, []⟩, shown, []⟩ := by
  obtain ⟨shown, hpanel⟩ := Session.shows_showing
    (.panel (announcement request.record directory) "📊 Example Coverage") ⟨⟨tree, []⟩, [], []⟩
  have hstart : runOn (.exportRecord request) tree =
      (runExport request).run.run ⟨⟨tree, []⟩, [], []⟩ := rfl
  refine ⟨shown, ?_⟩
  rw [hstart, runExport_eq, run_bind, run_loadSettings (t := ⟨⟨tree, []⟩, [], []⟩) hsettings]
  simp only
  rw [run_bind, Session.run_loadRecord_of_ok (t := ⟨⟨tree, []⟩, [], []⟩) hrecord]
  simp only
  rw [hdirectory, Session.panel, run_bind, hpanel, Shown.markup, ← panelMarkup]
  cases Session.verdict (panelMarkup request.record directory) <;> rfl

variable (hexport : (Export.all r (ExportRequest.apply request s) directory).run.run ⟨tree, []⟩ =
    (.ok paths, w))
include hexport

/-- Either the console does not take the panel and there is no export, or the reports are written
and shown. -/
theorem runOn_exportRecord : ∃ shown,
    (∃ stop, Session.verdict (panelMarkup request.record directory) = .error stop ∧
      runOn (.exportRecord request) tree = (.error stop, ⟨⟨tree, []⟩, shown, []⟩)) ∨
    (Session.verdict (panelMarkup request.record directory) = .ok () ∧
      runOn (.exportRecord request) tree =
        (Session.verdict (resultMarkup r directory), ⟨w, shown, []⟩)) := by
  obtain ⟨shown, hrun⟩ := runOn_exportRecord_panel hsettings hrecord hdirectory
  rw [hrun]
  cases Session.verdict (panelMarkup request.record directory) with
  | error stop => exact ⟨shown, .inl ⟨stop, rfl, rfl⟩⟩
  | ok _ =>
    obtain ⟨more, hresult⟩ := shows_showResult r directory ⟨w, shown, []⟩
    rw [← Export.paths_of_run hexport] at hresult
    refine ⟨more, .inr ⟨rfl, ?_⟩⟩
    simp only
    rw [run_bind, run_exportAll hexport]
    exact hresult

/-- The command ends with what the console says of all that there is to show. -/
theorem runOn_exportRecord_verdict : ∃ after, runOn (.exportRecord request) tree =
      (Session.verdict (panelMarkup request.record directory ++ resultMarkup r directory), after) ∧
    (Session.verdict (panelMarkup request.record directory) = .ok () → after.workspace = w) ∧
    (Session.verdict (panelMarkup request.record directory) ≠ .ok () →
      after.workspace = ⟨tree, []⟩) := by
  rw [Session.verdict_append]
  obtain ⟨shown, ⟨stop, hpanel, hrun⟩ | ⟨hpanel, hrun⟩⟩ :=
    runOn_exportRecord hsettings hrecord hdirectory hexport
  · rw [hpanel]
    exact ⟨_, hrun, nofun, fun _ => rfl⟩
  · rw [hpanel]
    exact ⟨_, hrun, fun _ => rfl, fun h => absurd rfl h⟩

/-- If the export returns then the command that asks for it ends with zero and leaves the same, if
the console takes all that is shown, and otherwise fails with what the console complains of. If that
is the panel before the export nothing is exported, and if it comes after it then all reports are
written. A console that reads words as tags takes all names in a record, and all paths with no tags
but words in which no slash follows an opening bracket; of other paths with no tags but words those
in which each closing tag has a style to close. -/
theorem exportRecord_after_export :
    ((∀ cap ∈ request.topErrors, Binary64.digitCount cap.val ≤ Numeral.maxDigits) →
      ofArguments? request.arguments = some (.exportRecord request)) ∧
    ∃ result after, runOn (.exportRecord request) tree = (result, after) ∧
    (exitCode result = 0 ↔
      ∀ markup ∈ panelMarkup request.record directory ++ resultMarkup r directory,
        Host.console markup = .ok ()) ∧
    (exitCode result ≠ 0 → exitCode result = 1 ∧ ∃ f, result = .error (.fault (.console f))) ∧
    ((∀ markup ∈ panelMarkup request.record directory, Host.console markup = .ok ()) →
      after.workspace = w) ∧
    (¬ (∀ markup ∈ panelMarkup request.record directory, Host.console markup = .ok ()) →
      after.workspace = ⟨tree, []⟩) ∧
    (Host.ReadsWords → Markup.Simple request.record → Markup.Simple directory.toText →
      (exitCode result = 0 ↔ Markup.check (announcement request.record directory) = .ok () ∧
        Markup.check directory.toText = .ok ()) ∧
      (¬ ("[/" : Text) <:+: request.record → ¬ ("[/" : Text) <:+: directory.toText →
        exitCode result = 0 ∧ after.workspace = w)) := by
  have hshown := Export.shownWhole_of_run hexport
  have hread (hreads : Host.ReadsWords) (hrecord : Markup.Simple request.record)
      (hdirectory : Markup.Simple directory.toText) :
      (∀ markup ∈ panelMarkup request.record directory ++ resultMarkup r directory,
        Host.console markup = .ok ()) ↔
      Markup.check (announcement request.record directory) = .ok () ∧
        Markup.check directory.toText = .ok () := by
    rw [List.forall_mem_append, console_panelMarkup_iff hreads hrecord hdirectory,
      console_resultMarkup_iff hreads hshown hdirectory]
  obtain ⟨after, hrun, hdone, hundone⟩ :=
    runOn_exportRecord_verdict hsettings hrecord hdirectory hexport
  simp only [Session.verdict_eq_ok_iff, ne_eq] at hdone hundone
  refine ⟨ofArguments?_arguments, _, after, hrun, exitCode_verdict_iff _,
    failed_of_exitCode_verdict, hdone, hundone, ?_⟩
  intro hreads hsimple hsimple'
  refine ⟨(exitCode_verdict_iff _).trans (hread hreads hsimple hsimple'), ?_⟩
  intro hopens hopens'
  have htaken := (hread hreads hsimple hsimple').mpr
    ⟨check_announcement hopens hopens', Markup.check_of_no_closing hopens'⟩
  exact ⟨(exitCode_verdict_iff _).mpr htaken, hdone (List.forall_mem_append.mp htaken).1⟩

end Exported

end Command

end Host

namespace Command

def bareJson : Json := .object [("provider_name", .text "p"), ("provider_version", .text "1")]

/-- A record file in JSON. -/
def bareFile : FileEntry := .file 0o644
  ("\x7b\"provider_name\": \"p\", \"provider_version\": \"1\"\x7d".toList.map fun c =>
    UInt8.ofNat c.toNat)

theorem load_bareFile [Host] {tree : FileTree} {path : FilePath} {l : Location}
    (hopen : FileTree.Open path) (hfind : tree.find path = .ok l)
    (hfile : tree.get? l = some bareFile)
    (hformat : RecordFormat.ofSuffix? path.suffix = some .json) :
    Record.load tree path = .ok Export.bare := by
  have htext : Record.Holds tree path (bareJson.toText .line) :=
    ⟨hopen, _, (FileTree.readFile_eq_ok_iff _ _ _).mpr ⟨l, _, hfind, hfile⟩, rfl⟩
  have hreadable : Json.Readable Numeral.maxDigits (Host.room .reading) bareJson := by
    obtain ⟨room, hroom⟩ := Host.exists_room .reading
    rw [hroom]
    apply Json.Readable.object (by decide)
    rintro m (_ | ⟨_, _ | ⟨_, ⟨⟩⟩⟩)
    · exact .text _
    · exact .text _
  have hjson : Json.read (bareJson.toText .line).normalizeBreaks = .ok bareJson :=
    Json.readWithin_toText Json.neutral_line hreadable
  rw [Record.load_of_holds htext hformat, Record.readData, hjson]
  rfl

/-- An export into the top of a tree. -/
def exportHere (record : Text) : ExportRequest := ⟨record, some ".", none, none, false⟩

theorem exports_bare [Host] {tree : FileTree}
    (hvacant : ∀ kind l, tree.find (Export.target ⟨0, []⟩ kind) = .ok l →
      tree.isDirAt l = false) :
    ∃ w, (Export.all Export.bare .standard ⟨0, []⟩).run.run ⟨tree, []⟩ =
      (.ok (Report.all.map (Export.target ⟨0, []⟩)), w) := by
  have hready : Export.Ready ⟨0, []⟩ [] tree :=
    Export.ready_of_reaches ⟨rfl, rfl⟩ hvacant Export.short_top
  exact Export.succeeds_bare (Text.not_hasHalf_ofString _) (hready.reaches.ensureDir _) hready

def plainTree : FileTree := ⟨[(["r.json"], bareFile)]⟩

open scoped Host in
private theorem readsWords_usual : Host.ReadsWords := by
  intro t _
  show (Markup.check t).mapError _ = .ok () ↔ _
  exact Checked.mapError_eq_ok_iff

open scoped Host in
theorem exportRecord_after_export_plain : ∃ w result after,
    (Export.all Export.bare .standard ⟨0, []⟩).run.run ⟨plainTree, []⟩ =
      (.ok (Report.all.map (Export.target ⟨0, []⟩)), w) ∧
    runOn (.exportRecord (exportHere "r.json")) plainTree = (result, after) ∧
    exitCode result = 0 ∧ after.workspace = w := by
  have hload : Record.load plainTree ("r.json" : Text) = .ok Export.bare :=
    load_bareFile (fun _ => rfl) rfl rfl rfl
  have hvacant (kind : Report) (l : Location)
      (h : plainTree.find (Export.target ⟨0, []⟩ kind) = .ok l) : plainTree.isDirAt l = false := by
    cases kind <;> cases h
  obtain ⟨w, hexport⟩ := exports_bare hvacant
  obtain ⟨-, result, after, hrun, -, -, -, -, hread⟩ :=
    @exportRecord_after_export _ (exportHere "r.json") plainTree .standard _ _ _ _ rfl hload rfl
      hexport
  have hrecord : Markup.Simple "r.json" := ⟨by decide, by decide⟩
  have hdirectory : Markup.Simple (FilePath.toText ⟨0, []⟩) := ⟨by decide, by decide⟩
  exact ⟨w, result, after, hexport, hrun,
    (hread readsWords_usual hrecord hdirectory).2 (by decide) (by decide)⟩

/-- A tree with a record whose path reads as a tag that closes nothing. -/
def taggedTree : FileTree := ⟨[(["["], .dir 0o755), (["[", "].json"], bareFile)]⟩

open scoped Host in
/-- A record that can be exported is not, because its path reads as a tag. -/
theorem exportRecord_tagged :
    settingsOf taggedTree none = .ok .standard ∧
    Record.load taggedTree ("[/].json" : Text) = .ok Export.bare ∧
    (∃ paths w, (Export.all Export.bare .standard ⟨0, []⟩).run.run ⟨taggedTree, []⟩ =
      (.ok paths, w) ∧ w.tree ≠ taggedTree) ∧
    exitCode (runOn (.exportRecord (exportHere "[/].json")) taggedTree).1 = 1 ∧
    (runOn (.exportRecord (exportHere "[/].json")) taggedTree).2.workspace.tree = taggedTree := by
  have hload : Record.load taggedTree ("[/].json" : Text) = .ok Export.bare :=
    load_bareFile (fun _ => rfl) rfl rfl rfl
  have hvacant (kind : Report) (l : Location)
      (h : taggedTree.find (Export.target ⟨0, []⟩ kind) = .ok l) :
      taggedTree.isDirAt l = false := by
    cases kind <;> cases h
  obtain ⟨w, hexport⟩ := exports_bare hvacant
  have hchanged : w.tree ≠ taggedTree := by
    intro hsame
    obtain ⟨bytes, -, hread⟩ := (Export.leaves_of_run hexport).reports .byExample (by decide)
    rw [hsame] at hread
    cases hread
  have hpanel : Session.verdict (panelMarkup "[/].json" ⟨0, []⟩) ≠ .ok () := by decide
  obtain ⟨shown, ⟨stop, hstop, hrun⟩ | ⟨hpanel', -⟩⟩ :=
    @runOn_exportRecord _ (exportHere "[/].json") taggedTree .standard _ _ _ _ rfl hload rfl hexport
  · obtain ⟨f, rfl⟩ := Session.exists_of_verdict_eq_error hstop
    rw [hrun]
    exact ⟨rfl, hload, ⟨_, w, hexport, hchanged⟩, rfl, rfl⟩
  · exact absurd hpanel' hpanel

end Command

end ConversionCoverage

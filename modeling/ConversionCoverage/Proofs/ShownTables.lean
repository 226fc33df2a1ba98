import ConversionCoverage.Proofs.ExportCommand

/-!
# Coming to the table of an export

The command that exports a record shows no table before the export has returned, and then it shows
one. So a table on the console tells that the settings and the record were loaded, that the console
took the panel, and that all reports are written.
-/

namespace ConversionCoverage

/-! ## What a command shows -/

/-- Something else than a table. -/
def Shown.NoTable (s : Shown) : Prop := ∀ columns rows, s ≠ .table columns rows

theorem Shown.noTable_line (t : Text) : (line t).NoTable := by
  intro columns rows h
  cases h

private theorem Shown.noTable_panel (t title : Text) : (panel t title).NoTable := by
  intro columns rows h
  cases h

variable [Host]

namespace Session

variable {α β : Type}

/-- A part of a command adds things of a kind to the console, and takes nothing away. -/
def Adds (P : Shown → Prop) (x : Session α) : Prop :=
  ∀ t, ∃ more, (x.run.run t).2.shown = t.shown ++ more ∧ ∀ s ∈ more, P s

variable {P : Shown → Prop}

omit [Host] in
theorem exists_nothing (t : Terminal) : ∃ more, t.shown = t.shown ++ more ∧ ∀ s ∈ more, P s :=
  ⟨[], (List.append_nil _).symm, nofun⟩

omit [Host] in
theorem Adds.bind {x : Session α} {f : α → Session β} (hx : Adds P x) (hf : ∀ a, Adds P (f a)) :
    Adds P (x >>= f) := by
  intro t
  obtain ⟨more, hshown, hmore⟩ := hx t
  rw [run_bind]
  generalize x.run.run t = done at hshown
  obtain ⟨fault | a, after⟩ := done
  · exact ⟨more, hshown, hmore⟩
  · obtain ⟨later, hlater, hkind⟩ := hf a after
    refine ⟨more ++ later, ?_, ?_⟩
    · simp only at hshown
      simp only
      rw [hlater, hshown, List.append_assoc]
    · intro s hs
      exact (List.mem_append.mp hs).elim (hmore s) (hkind s)

theorem adds_showing {s : Shown} (h : P s) : Adds P (showing s) := by
  intro t
  exact ⟨[s], by rw [run_showing], List.forall_mem_singleton.mpr h⟩

theorem adds_line (t : Text) : Adds Shown.NoTable (line t) :=
  adds_showing (Shown.noTable_line t)

private theorem adds_panel (t title : Text) : Adds Shown.NoTable (panel t title) :=
  adds_showing (Shown.noTable_panel t title)

omit [Host] in
private theorem adds_forIn {items : List α} {body : α → Session Unit}
    (h : ∀ item, Adds P (body item)) :
    Adds P (do for item in items do body item) := by
  induction items with
  | nil => exact exists_nothing
  | cons item rest ih =>
    have hrest := (h item).bind fun _ => ih
    simp only [List.forIn_cons, bind_assoc, pure_bind, bind_pure_unit] at hrest ⊢
    exact hrest

theorem exists_complained (message : Text) (t : Terminal) :
    ∃ more, (complained message t : Except Stop α × Terminal).2.shown = t.shown ++ more ∧
      ∀ s ∈ more, s.NoTable := by
  have hline := Shown.noTable_line (errorLine message)
  exact ⟨[.line (errorLine message)], by rw [complained], List.forall_mem_singleton.mpr hline⟩

private theorem adds_loadSettings (config : Option Text) :
    Adds Shown.NoTable (loadSettings config) := by
  intro t
  rw [Command.run_loadSettings_eq]
  split
  · exact exists_nothing t
  · split
    · exact exists_complained _ t
    · exact exists_nothing t

private theorem adds_loadRecord (path : Text) : Adds Shown.NoTable (loadRecord path) := by
  intro t
  rw [run_loadRecord]
  split
  · exact exists_nothing t
  · split
    · exact exists_complained _ t
    · split
      · exact exists_complained _ t
      · exact exists_nothing t

private theorem adds_exportAll (r : Record) (s : Settings) (directory : FilePath) :
    Adds Shown.NoTable (exportAll r s directory) := by
  intro t
  rw [Command.run_exportAll_eq]
  split
  · exact exists_nothing t
  · exact exists_nothing t
  · exact exists_complained _ _

/-! What such a part has done if it returns. -/

private theorem settingsOf_of_run {config : Option Text} {t after : Terminal} {s : Settings}
    (h : (loadSettings config).run.run t = (.ok s, after)) :
    Command.settingsOf t.workspace.tree config = .ok s ∧ after = t := by
  rw [Command.run_loadSettings_eq] at h
  generalize Command.settingsOf t.workspace.tree config = loaded at h ⊢
  cases loaded with
  | ok found =>
    cases h
    exact ⟨rfl, rfl⟩
  | error f =>
    simp only at h
    split at h
    · exact absurd h ((complained_ne _ t).1 s after)
    · cases h

private theorem load_of_run {path : Text} {t after : Terminal} {r : Record}
    (h : (loadRecord path).run.run t = (.ok r, after)) :
    Record.load t.workspace.tree path = .ok r ∧ after = t := by
  rw [run_loadRecord] at h
  generalize Record.load t.workspace.tree path = loaded at h ⊢
  cases loaded with
  | ok found =>
    cases h
    exact ⟨rfl, rfl⟩
  | error f =>
    simp only at h
    split at h
    · exact absurd h ((complained_ne _ t).1 r after)
    · split at h
      · exact absurd h ((complained_ne _ t).1 r after)
      · cases h

private theorem all_of_run {r : Record} {s : Settings} {directory : FilePath} {t after : Terminal}
    {paths : List FilePath} (h : (exportAll r s directory).run.run t = (.ok paths, after)) :
    ∃ w, (Export.all r s directory).run.run t.workspace = (.ok paths, w) ∧
      after = { t with workspace := w } := by
  rw [Command.run_exportAll_eq] at h
  generalize (Export.all r s directory).run.run t.workspace = done at h ⊢
  obtain ⟨fault | found, w⟩ := done
  · cases fault with
    | unusablePath f => cases h
    | failed step path cause => exact absurd h ((complained_ne _ _).1 paths after)
  · cases h
    exact ⟨w, rfl, rfl⟩

omit [Host] in
/-- A table that is not shown by the first part of a command is shown by the part after it, and the
first one returns. -/
theorem exists_of_table {x : Session α} {f : α → Session β} (hx : Adds Shown.NoTable x)
    {t : Terminal} {columns : List Text} {rows : List (List Text)}
    (hbefore : .table columns rows ∉ t.shown)
    (h : .table columns rows ∈ ((x >>= f).run.run t).2.shown) :
    ∃ a after, x.run.run t = (.ok a, after) ∧ .table columns rows ∉ after.shown ∧
      .table columns rows ∈ ((f a).run.run after).2.shown := by
  obtain ⟨more, hshown, hmore⟩ := hx t
  have hnone : .table columns rows ∉ (x.run.run t).2.shown := by
    rw [hshown, List.mem_append]
    rintro (hold | hnew)
    · exact hbefore hold
    · exact hmore _ hnew _ _ rfl
  rw [run_bind] at h
  generalize x.run.run t = done at h hnone
  obtain ⟨fault | a, after⟩ := done
  · exact absurd h hnone
  · exact ⟨a, after, rfl, hnone, h⟩

end Session

namespace Command

theorem shown_showResult {r : Record} (paths : List FilePath) (t : Terminal)
    (hheading : Host.console (LanguageTable.heading r) = .ok ()) :
    ∃ more, ((showResult r paths).run.run t).2.shown =
      t.shown ++ [.line (LanguageTable.heading r)] ++
        [.table LanguageTable.columns (LanguageTable.rows r)] ++ more ∧
      ∀ s ∈ more, s.NoTable := by
  have hlines : Session.Adds Shown.NoTable
      (do for path in paths do showDone ("Written " ++ path.toText)) :=
    Session.adds_forIn fun path => Session.adds_line (doneLine path)
  rw [showResult, Session.line, run_bind, Session.run_showing, Shown.markup, Session.verdict,
    hheading]
  simp only [Session.verdict]
  rw [Session.table, run_bind, Session.run_showing]
  cases Session.verdict (Shown.markup (.table LanguageTable.columns (LanguageTable.rows r))) with
  | error stop => exact ⟨[], by simp, List.forall_mem_nil _⟩
  | ok _ => exact hlines _

private theorem heading_of_table {r : Record} {paths : List FilePath} {t : Terminal}
    {columns : List Text} {rows : List (List Text)} (hbefore : .table columns rows ∉ t.shown)
    (h : .table columns rows ∈ ((showResult r paths).run.run t).2.shown) :
    Host.console (LanguageTable.heading r) = .ok () := by
  rw [showResult] at h
  obtain ⟨_, after, hline, -, -⟩ :=
    Session.exists_of_table (Session.adds_line (LanguageTable.heading r)) hbefore h
  rw [Session.line, Session.run_showing] at hline
  exact (Session.verdict_eq_ok_iff _).mp (Prod.mk.inj hline).1 _ List.mem_cons_self

theorem table_mem_showResult {r : Record} {paths : List FilePath} {t : Terminal}
    {columns : List Text} {rows : List (List Text)} (hbefore : .table columns rows ∉ t.shown) :
    .table columns rows ∈ ((showResult r paths).run.run t).2.shown ↔
      Host.console (LanguageTable.heading r) = .ok () ∧
        columns = LanguageTable.columns ∧ rows = LanguageTable.rows r := by
  constructor
  · intro h
    have hheading := heading_of_table hbefore h
    obtain ⟨more, hshown, hmore⟩ := shown_showResult paths t hheading
    have hlater : .table columns rows ∉ more := fun h => hmore _ h _ _ rfl
    rw [hshown] at h
    simpa [hheading, hbefore, hlater] using h
  · rintro ⟨hheading, rfl, rfl⟩
    obtain ⟨more, hshown, -⟩ := shown_showResult paths t hheading
    rw [hshown]
    simp

/-- The command has come to its table: settings and record are loaded, the export has returned, and
the console has taken the panel before it and the heading after it. -/
structure ReachesTable (request : ExportRequest) (tree : FileTree) (s : Settings) (r : Record)
    (w : Workspace) : Prop where
  settings : ∃ found, settingsOf tree request.config = .ok found ∧
    ExportRequest.apply request found = s
  record : Record.load tree request.record = .ok r
  panel : Session.verdict (panelMarkup request.record (Export.directory s request.output)) = .ok ()
  exported : ∃ paths, (Export.all r s (Export.directory s request.output)).run.run ⟨tree, []⟩ =
    (.ok paths, w)
  heading : Host.console (LanguageTable.heading r) = .ok ()

/-- The command shows a table if and only if it comes to it, and it is the table of the record. -/
theorem table_mem_exportRecord_iff {request : ExportRequest} {tree : FileTree}
    {columns : List Text} {rows : List (List Text)} :
    .table columns rows ∈ (runOn (.exportRecord request) tree).2.shown ↔
      ∃ s r w, ReachesTable request tree s r w ∧
        columns = LanguageTable.columns ∧ rows = LanguageTable.rows r := by
  constructor
  · intro h
    have hstart : runOn (.exportRecord request) tree =
        (runExport request).run.run ⟨⟨tree, []⟩, [], []⟩ := rfl
    rw [hstart, runExport_eq] at h
    obtain ⟨s, t, hload, hnone, h⟩ :=
      Session.exists_of_table (Session.adds_loadSettings _) List.not_mem_nil h
    obtain ⟨hsettings, rfl⟩ := Session.settingsOf_of_run hload
    obtain ⟨r, t, hload, hnone, h⟩ :=
      Session.exists_of_table (Session.adds_loadRecord _) hnone h
    obtain ⟨hrecord, rfl⟩ := Session.load_of_run hload
    obtain ⟨_, t, hshow, hnone, h⟩ :=
      Session.exists_of_table (Session.adds_panel _ _) hnone h
    rw [Session.panel, Session.run_showing] at hshow
    obtain ⟨hpanel, rfl⟩ := Prod.mk.inj hshow
    obtain ⟨paths, t, hrun, hnone, h⟩ :=
      Session.exists_of_table (Session.adds_exportAll _ _ _) hnone h
    obtain ⟨w, hexport, rfl⟩ := Session.all_of_run hrun
    obtain ⟨hheading, hcolumns, hrows⟩ := (table_mem_showResult hnone).mp h
    exact ⟨_, r, w, ⟨⟨s, hsettings, rfl⟩, hrecord, hpanel, ⟨paths, hexport⟩, hheading⟩, hcolumns,
      hrows⟩
  · rintro ⟨_, r, w, ⟨⟨s, hsettings, rfl⟩, hrecord, hpanel, ⟨paths, hexport⟩, hheading⟩, rfl, rfl⟩
    obtain ⟨shown, hrun⟩ := runOn_exportRecord_panel hsettings hrecord rfl
    obtain ⟨more, hshown, -⟩ := shown_showResult paths ⟨w, shown, []⟩ hheading
    rw [hrun, hpanel]
    simp only
    rw [run_bind, run_exportAll hexport]
    simp only
    rw [hshown]
    simp

theorem ReachesTable.workspace_eq {request : ExportRequest} {tree : FileTree} {s : Settings}
    {r : Record} {w : Workspace} (h : ReachesTable request tree s r w) :
    (runOn (.exportRecord request) tree).2.workspace = w := by
  obtain ⟨⟨found, hsettings, rfl⟩, hrecord, hpanel, ⟨paths, hexport⟩, -⟩ := h
  obtain ⟨after, hrun, hdone, -⟩ := runOn_exportRecord_verdict hsettings hrecord rfl hexport
  rw [hrun]
  exact hdone hpanel

end Command

end ConversionCoverage

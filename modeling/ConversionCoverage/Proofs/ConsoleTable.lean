import ConversionCoverage.Proofs.ReportFiles
import ConversionCoverage.Proofs.ShownTables
import ConversionCoverage.Proofs.SummaryCommand

/-!
# The table of an export

The table that the command shows after an export is made from statistics of its own, with one reason
for each language, while the reports list as many as the settings say. Still all its cells can be
told from the reports: the first of a list of reasons is the same whatever cap is put on the list.
-/

namespace ConversionCoverage

/-! ## Reading the reports -/

/-- The most digits that a number of attempts or examples has. -/
def Record.countDigits (r : Record) : Nat :=
  max (Binary64.digitCount r.conversions.length) (Binary64.digitCount r.examples.length)

/-- A file is printed from a document with an indentation. If that is of blanks then the document is
what the file is read as, by everyone who reads numbers of so many digits. -/
structure FileTree.PrintedFrom [Host] (tree : FileTree) (path : FilePath) (indent : Text)
    (digits : Nat) (document : Json) : Prop where
  text : tree.text? path = some (document.toText (.indented indent))
  json : (∀ c ∈ indent, Json.isBlank c) → ∀ maxDigits, digits ≤ maxDigits →
    tree.json? maxDigits path = some document

namespace Export

theorem printedFrom_of_leaves [Host] {r : Record} {s : Settings} {directory : FilePath}
    {before after : FileTree} (h : Leaves r s directory Report.all before after) {kind : Report}
    {document : Json} (hcontent : kind.content r s = document.toText (.indented s.indent))
    (hreadable : ∀ maxDigits, r.countDigits ≤ maxDigits →
      Json.Readable maxDigits (Host.room .reading) document) :
    after.PrintedFrom (target directory kind) s.indent r.countDigits document := by
  have hmem : kind ∈ Report.all := by cases kind <;> decide
  have htext := text?_of_leaves h hmem
  rw [hcontent] at htext
  refine ⟨htext, ?_⟩
  intro hindent maxDigits hdigits
  rw [FileTree.json?, htext, Option.bind_some,
    Json.readWithin_toText (Json.neutral_indented hindent) (hreadable maxDigits hdigits)]
  rfl

end Export

namespace LanguageTable

/-- Numbers of attempts, with the rate of success among them. -/
structure Figures where
  converted : Nat
  total : Nat
  success : Binary64

/-- A document has these numbers in it, and all attempts under some name. -/
structure Figures.In (f : Figures) (totalName : Text) (document : Json) : Prop where
  converted : (document.get? "Successes").bind (·.get? "Number") = some (.int f.converted)
  total : document.get? totalName = some (.int f.total)
  success : (document.get? "Successes").bind (·.get? "Pct") = some (.float f.success)

/-- What there is to show for a language. -/
structure Line where
  language : Text
  figures : Figures
  reasons : List Text

/-- A member of the report on languages says what a line shows. -/
structure Line.In (line : Line) (entry : Text × Json) : Prop where
  language : entry.1 = line.language
  figures : line.figures.In "Total" entry.2
  reasons : ∃ errors, entry.2.get? "FrequentErrors" = some (.array errors) ∧
    errors.map (·.get? "Reason") = line.reasons.map fun reason => some (.text reason)

/-- The first of some reasons, cut after fifty code points. -/
def topError (reasons : List Text) : Text :=
  match reasons.head? with
  | none => "-"
  | some reason =>
    Markup.escape (if 50 < reason.length then reason.take 50 ++ "..." else reason)

def Line.cells (line : Line) : List Text :=
  [Markup.escape line.language, Text.ofNat line.figures.converted, Text.ofNat line.figures.total,
    pctText line.figures.success, topError line.reasons]

def Figures.overallCells (f : Figures) : List Text :=
  ["Overall", Text.ofNat f.converted, Text.ofNat f.total,
    "[bold]" ++ pctText f.success ++ "[/bold]", "-"]

/-- The numbers of a tally. -/
def Figures.ofTally (t : Tally) : Figures := ⟨t.successes, t.total, t.shares.successes.pct⟩

def Line.ofTally (limit : Option Int) (language : Text) (t : Tally) : Line :=
  ⟨language, .ofTally t, (t.errors.frequent limit).map ErrorCount.reason⟩

private theorem Line.in_ofTally (limit : Option Int) (language : Text) (t : Tally) :
    (Line.ofTally limit language t).In (language, (LanguageStatistic.ofTally limit t).toJson) where
  language := rfl
  figures := ⟨rfl, rfl, rfl⟩
  reasons := by
    refine ⟨_, rfl, ?_⟩
    rw [Line.ofTally, LanguageStatistic.ofTally, List.map_map, List.map_map]
    rfl

private theorem figures_in_summary (r : Record) (limit : Option Int) :
    (Figures.ofTally (Tally.ofAttempts r.conversions)).In "TotalConversions"
      (r.providerStatistic limit).toJson := ⟨rfl, rfl, rfl⟩

/-! ## The first reason -/

theorem head?_limited (cap : Cap) (counts : List ErrorCount) :
    (Histogram.limited (some (cap.val : Int)) counts).head? = counts.head? := by
  show (counts.take cap.val).head? = counts.head?
  rw [List.head?_take, if_neg (Nat.ne_of_gt cap.property)]

theorem head?_frequent (h : Histogram) (s : Settings) :
    (h.frequent s.limit).head? = (h.frequent (some 1)).head? := by
  have hone : (h.frequent (some 1)).head? = h.ranked.head? := head?_limited ⟨1, by decide⟩ h.ranked
  rw [hone, Settings.limit]
  cases s.topErrors with
  | none => rfl
  | some cap => exact head?_limited cap h.ranked

private theorem row_ofTally (s : Settings) (language : Text) (t : Tally) :
    row language (.ofTally (some 1) t) = (Line.ofTally s.limit language t).cells := by
  rw [row, Line.cells, topError, Line.ofTally, List.head?_map, head?_frequent,
    LanguageStatistic.ofTally]
  cases t.errors.frequent (some 1) with
  | nil => rfl
  | cons e rest => rfl

end LanguageTable

namespace Record

open LanguageTable

variable (r : Record)

/-- What there is to show for each language of a record. -/
def tableLines (limit : Option Int) : List Line :=
  (Text.distinct (r.conversions.map Attempt.language)).map fun language =>
    .ofTally limit language
      (Tally.ofAttempts (r.conversions.filter fun a => a.language = language))

/-- What there is to show for all languages. -/
def tableTotals : Figures := .ofTally (Tally.ofAttempts r.conversions)

private theorem tableRows_eq (s : Settings) :
    rows r = (r.tableLines s.limit).map Line.cells ++ [r.tableTotals.overallCells] := by
  rw [rows, languageStatistics_eq, tableLines, List.map_map, List.map_map]
  congr 1
  apply List.map_congr_left
  intro language _
  exact row_ofTally s language _

private theorem tableLines_in_report (limit : Option Int) :
    List.Forall₂ Line.In (r.tableLines limit)
      ((r.languageStatistics limit).map fun (language, s) => (language, s.toJson)) := by
  rw [languageStatistics_eq, tableLines, List.map_map, List.forall₂_map_left_iff,
    List.forall₂_map_right_iff, List.forall₂_same]
  intro language _
  exact Line.in_ofTally limit language _

theorem sum_tableLines {limit : Option Int} (g : Line → Nat) (f : LanguageStatistic → Nat)
    (p : Attempt → Bool) (hline : ∀ language t, g (.ofTally limit language t) = f (.ofTally none t))
    (hf : ∀ s xs, LanguageStatistic.Describes s xs → f s = xs.countP p) :
    ((r.tableLines limit).map g).sum = r.attempts.countP p := by
  have hsum := r.sum_languageStatistics f p hf
  rw [languageStatistics_eq, List.map_map] at hsum
  rw [tableLines, List.map_map]
  simp only [Function.comp_def, hline]
  exact hsum

private theorem sum_converted (limit : Option Int) :
    ((r.tableLines limit).map fun line => line.figures.converted).sum =
      r.tableTotals.converted := by
  rw [r.sum_tableLines (fun line => line.figures.converted) (fun s => s.shares.successes.number)
    (fun a => a.severity = .success) (fun _ _ => rfl) (fun s xs h => h.number .success)]
  exact (r.counts_conversions.number .success).symm

private theorem sum_total (limit : Option Int) :
    ((r.tableLines limit).map fun line => line.figures.total).sum = r.tableTotals.total := by
  rw [r.sum_tableLines (fun line => line.figures.total) (fun s => s.total) (fun _ => true)
    (fun _ _ => rfl) (fun s xs h => by simp [h.total])]
  simp [tableTotals, Figures.ofTally, r.counts_conversions.total]

end Record

namespace Command

open LanguageTable

/-- Whatever the settings are, every table that the command shows agrees with the files that it has
written. It has a row for each member of the report on languages, in their order, and one for all of
them. The numbers are those of the reports, the last ones are the sums of those above, and the first
of the reasons that the report lists for a language is shown. -/
theorem exportRecord_table [Host] {request : ExportRequest} {tree : FileTree}
    {result : Except Stop Unit} {after : Terminal} {columns : List Text} {rows : List (List Text)}
    (hrun : runOn (.exportRecord request) tree = (result, after))
    (hshown : .table columns rows ∈ after.shown) :
    ∃ found r, settingsOf tree request.config = .ok found ∧
      Record.load tree request.record = .ok r ∧
      let s := ExportRequest.apply request found
      let directory := Export.directory s request.output
      ∃ (entries : List (Text × Json)) (summary : Json) (lines : List Line) (overall : Figures),
        after.workspace.tree.PrintedFrom (Export.target directory .byLanguage) s.indent
          r.countDigits (.object entries) ∧
        after.workspace.tree.PrintedFrom (Export.target directory .summary) s.indent
          r.countDigits summary ∧
        columns = ["Language", "Converted", "Total", "Success", "Top Error"] ∧
        rows = lines.map Line.cells ++ [overall.overallCells] ∧
        (entries.map Prod.fst).Nodup ∧
        List.Forall₂ Line.In lines entries ∧
        overall.In "TotalConversions" summary ∧
        overall.converted = (lines.map fun line => line.figures.converted).sum ∧
        overall.total = (lines.map fun line => line.figures.total).sum := by
  have hreaches := @table_mem_exportRecord_iff _ request tree columns rows
  rw [hrun] at hreaches
  obtain ⟨s, r, w, hreached, rfl, rfl⟩ := hreaches.mp hshown
  have hworkspace := hreached.workspace_eq
  rw [hrun] at hworkspace
  obtain ⟨⟨found, hsettings, rfl⟩, hrecord, -, ⟨paths, hexport⟩, -⟩ := hreached
  have hleaves := Export.leaves_of_run hexport
  rw [← hworkspace] at hleaves
  refine ⟨found, r, hsettings, hrecord, _, _, r.tableLines _, r.tableTotals,
    Export.printedFrom_of_leaves hleaves rfl ?_, Export.printedFrom_of_leaves hleaves rfl ?_, rfl,
    r.tableRows_eq _, ?_, r.tableLines_in_report _, figures_in_summary r _,
    (r.sum_converted _).symm, (r.sum_total _).symm⟩
  · intro maxDigits hdigits
    exact r.readable_languageReport _ ((Nat.le_max_left _ _).trans hdigits)
  · intro maxDigits hdigits
    exact r.readable_providerStatistic _ ((Nat.le_max_left _ _).trans hdigits)
      ((Nat.le_max_right _ _).trans hdigits)
  · rw [List.map_map]
    exact r.nodup_languages _

/-- A record with one attempt, which did not succeed. -/
def oneFatal : Record where
  provider := "p"
  version := []
  examples := [⟨"a", [], [⟨"go", .fatal, "x", false⟩]⟩]
  names_nodup := by decide

/-- The record as a file. -/
def fatalDocument : String :=
  "\x7b\"ProviderName\":\"p\",\"Examples\":[\x7b\"Name\":\"a\",\"ConversionAttempts\":[" ++
    "\x7b\"TargetLanguage\":\"go\",\"FailureSeverity\":3,\"FailureInfo\":\"x\"\x7d]\x7d]\x7d"

def fatalTree : FileTree :=
  ⟨[(["f.json"], .file 0o644 (fatalDocument.toList.map fun c => UInt8.ofNat c.toNat))]⟩

open scoped Host in
private theorem load_fatalTree : Record.load fatalTree ("f.json" : Text) = .ok oneFatal := by
  decide +kernel

open scoped Host in
private theorem exports_oneFatal :
    ∃ w, (Export.all oneFatal .standard ⟨0, []⟩).run.run ⟨fatalTree, []⟩ =
    (.ok (Report.all.map (Export.target ⟨0, []⟩)), w) := by
  have hready : Export.Ready ⟨0, []⟩ [] fatalTree := by
    refine Export.ready_of_reaches ⟨rfl, rfl⟩ ?_ Export.short_top
    intro kind l h
    cases kind <;> cases h
  have hwhole (t : String) : ¬ Text.HasHalf t := Text.not_hasHalf_ofString t
  have hempty : ¬ Text.HasHalf [] := Text.not_hasHalf_ofString ""
  have hprovider : ¬ oneFatal.ProviderHasHalf := not_or.mpr ⟨hwhole _, hempty⟩
  have hshows : ¬ oneFatal.ExamplesShowHalf := by
    rintro ⟨-, h | ⟨e, he, h⟩⟩
    · exact hprovider h
    · obtain rfl := List.mem_singleton.mp he
      obtain h | ⟨-, h | ⟨a, ha, h⟩⟩ := h
      · exact hwhole _ h
      · exact hempty h
      · obtain rfl := List.mem_singleton.mp ha
        exact h.elim (hwhole _) (hwhole _)
  have hsuccess : ¬ oneFatal.SuccessHasHalf := by
    simp [Record.SuccessHasHalf, oneFatal, Attempt.succeeded]
  apply (Export.succeeds_iff oneFatal ⟨fatalTree, []⟩ (hready.reaches.ensureDir _) hready).mpr
  rw [Export.firstWithHalf_all _ (hwhole _), if_neg hshows, if_neg hsuccess, if_neg hprovider]

open scoped Host in
theorem exportRecord_table_oneFatal : ∃ columns rows, ∃ (lines : List Line) (overall : Figures),
    .table columns rows ∈ (runOn (.exportRecord (exportHere "f.json")) fatalTree).2.shown ∧
      rows = lines.map Line.cells ++ [overall.overallCells] ∧
      overall.total = (lines.map fun line => line.figures.total).sum := by
  obtain ⟨w, hexport⟩ := exports_oneFatal
  have hpanel : Session.verdict (panelMarkup "f.json" ⟨0, []⟩) = .ok () := by decide
  have hheading : Host.console (LanguageTable.heading oneFatal) = .ok () := by decide
  have hshown : .table LanguageTable.columns (LanguageTable.rows oneFatal) ∈
      (runOn (.exportRecord (exportHere "f.json")) fatalTree).2.shown :=
    table_mem_exportRecord_iff.mpr ⟨.standard, oneFatal, w, ⟨⟨.standard, rfl, rfl⟩, load_fatalTree,
      hpanel, ⟨_, hexport⟩, hheading⟩, rfl, rfl⟩
  obtain ⟨_, _, -, -, -, -, lines, overall, -, -, -, hrows, -, -, -, -, htotal⟩ :=
    exportRecord_table (Prod.eta _).symm hshown
  exact ⟨_, _, lines, overall, hshown, hrows, htotal⟩

end Command

end ConversionCoverage

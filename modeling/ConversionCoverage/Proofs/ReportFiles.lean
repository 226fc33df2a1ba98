import ConversionCoverage.Host.Usual
import ConversionCoverage.Proofs.Export
import ConversionCoverage.Proofs.JsonLines
import ConversionCoverage.Proofs.ReadyDirectory
import ConversionCoverage.Proofs.ReportDocuments
import ConversionCoverage.Proofs.Utf8

/-!
# Reports are read back

What the files of an export hold is what the reports said: line by line for the report on examples,
and for those on languages and on the provider whatever blanks they are indented with.
-/

namespace ConversionCoverage

open Json (Readable)

/-- The text that a file holds, if it holds one. -/
def FileTree.text? (tree : FileTree) (path : FilePath) : Option Text :=
  (tree.readFile path).toOption.bind fun bytes => (Utf8.decode bytes).toOption

/-- The value that a file holds, if it holds a document with integers of at most `maxDigits`
digits. -/
def FileTree.json? [Host] (maxDigits : Nat) (tree : FileTree) (path : FilePath) : Option Json :=
  (tree.text? path).bind fun t => (Json.readWithin maxDigits t).toOption

namespace Export

section Host

variable [Host]

theorem text?_report {r : Record} {s : Settings} {kind : Report} {directory path : FilePath}
    {fileName : Text} {w after : Workspace}
    (h : (report r s kind directory fileName).run.run w = (.ok path, after)) :
    after.tree.text? path = some (kind.content r s) := by
  rcases run_report_cases r s kind directory fileName w with
    ⟨made, bytes, tree, log, -, hencode, hwrite, hrun⟩ | ⟨fault, failed, hrun, -⟩
  · obtain ⟨l, hwrote⟩ := FileTree.writeFile_eq_ok _ _ _ hwrite
    obtain ⟨m, hfile⟩ := hwrote.file
    have hread : tree.readFile (directory.append fileName) = .ok bytes :=
      (FileTree.readFile_eq_ok_iff _ _ _).mpr ⟨l, m, hwrote.find, hfile⟩
    rw [hrun] at h
    cases h
    rw [FileTree.text?, hread]
    simp only [Except.toOption, Option.bind_some, Utf8.decode_of_encode hencode]
  · rw [hrun] at h
    cases h

omit [Host] in
theorem text?_of_leaves {r : Record} {s : Settings} {directory : FilePath} {written : List Report}
    {before after : FileTree} (h : Leaves r s directory written before after) {kind : Report}
    (hkind : kind ∈ written) :
    after.text? (target directory kind) = some (kind.content r s) := by
  obtain ⟨bytes, hencode, hread⟩ := h.reports kind hkind
  rw [FileTree.text?, hread]
  simp only [Except.toOption, Option.bind_some, Utf8.decode_of_encode hencode]

/-- The report on examples has a line for each example. Each line holds the entry of its example as
a document, and from what it lists as failed the schema gives back the failed attempts. -/
theorem byExample_reads_back (r : Record) (s : Settings) (directory : FilePath) (fileName : Text)
    (w : Workspace) :
    match (report r s .byExample directory fileName).run.run w with
    | (.error _, _) => True
    | (.ok path, after) => ∃ t lines, after.tree.text? path = some t ∧
      t.splitOn '\n' = lines ++ [[]] ∧ lines.length = r.examples.length ∧
      lines.map Json.read = r.exampleReports.map (fun report => .ok report.toJson) ∧
      List.Forall₂ (fun line e => ∃ j, Json.read line = .ok j ∧
        (ExampleReport.failedEntries j).map (fun entry => Attempt.ofDatum (Datum.ofJson entry)) =
          e.failedAttempts.map .ok) lines r.sortedExamples := by
  split
  · trivial
  · rename_i path after hrun
    have hread (report : ExampleReport) :
        Json.read (report.toJson.toText .line) = .ok report.toJson :=
      Json.readWithin_toText Json.neutral_line report.readable_toJson
    have hcontent : Report.byExample.content r s =
        (r.exampleReports.map fun report => report.toJson.toText .line).flatMap
          fun line => line ++ ("\n" : Text) := by
      rw [List.flatMap_map]
      rfl
    refine ⟨_, r.exampleReports.map fun report => report.toJson.toText .line, text?_report hrun,
      ?_, ?_, ?_, ?_⟩
    · rw [hcontent]
      apply Text.splitOn_flatMap
      intro line hline
      obtain ⟨report, -, rfl⟩ := List.mem_map.mp hline
      exact Json.newline_notMem_print rfl report.readable_toJson 0
    · rw [List.length_map, Record.exampleReports, List.length_map, r.sortedExamples_perm.length_eq]
    · rw [List.map_map]
      exact List.map_congr_left fun report _ => hread report
    · rw [Record.exampleReports, List.map_map, List.forall₂_map_left_iff, List.forall₂_same]
      intro e he
      refine ⟨_, hread (.ofExample r e), ?_⟩
      rw [ExampleReport.failedEntries_toJson, List.map_map]
      exact List.map_congr_left fun a _ => a.ofDatum_ofJson

theorem json?_report {r : Record} {s : Settings} {kind : Report} {directory path : FilePath}
    {fileName : Text} {w after : Workspace} {maxDigits : Nat} {j : Json}
    (hcontent : kind.content r s = j.toText (.indented s.indent))
    (hindent : ∀ c ∈ s.indent, Json.isBlank c) (hj : Readable maxDigits (Host.room .reading) j)
    (hrun : (report r s kind directory fileName).run.run w = (.ok path, after)) :
    after.tree.json? maxDigits path = some j := by
  rw [FileTree.json?, text?_report hrun, Option.bind_some, hcontent,
    Json.readWithin_toText (Json.neutral_indented hindent) hj]
  rfl

section Indented

variable (r : Record) {maxDigits : Nat}
  (hattempts : Binary64.digitCount r.conversions.length ≤ maxDigits)
  (hexamples : Binary64.digitCount r.examples.length ≤ maxDigits)
include hattempts hexamples

/-- Whatever blanks the reports on languages and on the provider are indented with, their files
hold the documents that the statistics make: the languages in their order, each of them once and
with its statistic, and the summary. The blanks make no difference to what is read. Integers are
read if they have as many digits as the numbers of attempts and examples. -/
theorem indented_reads_back (s : Settings) (hindent : ∀ c ∈ s.indent, Json.isBlank c)
    (directory : FilePath) (fileName : Text) (w : Workspace) :
    (match (report r s .byLanguage directory fileName).run.run w with
    | (.error _, _) => True
    | (.ok path, after) => ∃ members, after.tree.json? maxDigits path = some (.object members) ∧
      members.map Prod.fst = (r.languageStatistics s.limit).map Prod.fst ∧
      (members.map Prod.fst).Nodup ∧
      members.map Prod.snd = (r.languageStatistics s.limit).map fun (_, st) => st.toJson) ∧
    (match (report r s .summary directory fileName).run.run w with
    | (.error _, _) => True
    | (.ok path, after) =>
      after.tree.json? maxDigits path = some (r.providerStatistic s.limit).toJson) ∧
    ∀ kind, kind = .byLanguage ∨ kind = .summary → ∀ s' : Settings, s'.topErrors = s.topErrors →
      (∀ c ∈ s'.indent, Json.isBlank c) → ∀ directory' fileName' w' path after path' after',
      (report r s kind directory fileName).run.run w = (.ok path, after) →
      (report r s' kind directory' fileName').run.run w' = (.ok path', after') →
      after.tree.json? maxDigits path = after'.tree.json? maxDigits path' := by
  have hlanguages := r.readable_languageReport s.limit hattempts
  have hsummary := r.readable_providerStatistic s.limit hattempts hexamples
  refine ⟨?_, ?_, ?_⟩
  · split
    · trivial
    · rename_i path after hrun
      refine ⟨_, json?_report rfl hindent hlanguages hrun, ?_, ?_, ?_⟩
      · rw [List.map_map]
        rfl
      · rw [List.map_map]
        exact r.nodup_languages s.limit
      · rw [List.map_map]
        rfl
  · split
    · trivial
    · rename_i path after hrun
      exact json?_report rfl hindent hsummary hrun
  -- Both files hold the document of the statistics, and these depend on the limit alone.
  · intro kind hkind s' hlimit hindent' directory' fileName' w' path after path' after' hrun hrun'
    have hlimit' : s'.limit = s.limit := by rw [Settings.limit, Settings.limit, hlimit]
    rcases hkind with rfl | rfl
    · have hlanguages' := r.readable_languageReport s'.limit hattempts
      rw [json?_report rfl hindent hlanguages hrun, json?_report rfl hindent' hlanguages' hrun',
        hlimit']
    · have hsummary' := r.readable_providerStatistic s'.limit hattempts hexamples
      rw [json?_report rfl hindent hsummary hrun, json?_report rfl hindent' hsummary' hrun',
        hlimit']

end Indented

/-- A report is written where its directory can be made, it can be encoded and its file can be
opened. -/
theorem run_report_ok {r : Record} {s : Settings} {kind : Report} {directory : FilePath}
    {fileName : Text} {w : Workspace} {made tree : FileTree} {bytes : List UInt8}
    (hmake : w.tree.ensureDir s.dirMode directory = (.ok (), made))
    (hencode : Utf8.encode (kind.content r s) = .ok bytes)
    (hwrite : made.writeFile s.fileMode (directory.append fileName) bytes = .ok tree) :
    ∃ log, (report r s kind directory fileName).run.run w =
      (.ok (directory.append fileName), ⟨tree, log⟩) := by
  have houtcome : outcome s directory (directory.append fileName) (kind.content r s) w.tree =
      (.ok (), tree) := by
    simp only [outcome, hmake, hencode, hwrite]
  obtain ⟨log, hrun⟩ := run_report_outcome r s kind directory fileName w
  rw [houtcome] at hrun
  exact ⟨log, hrun⟩

end Host

/-- A record with one attempt, which did not succeed. -/
def failing : Record where
  provider := "provider"
  version := "1"
  examples := [⟨"greeting", "source", [⟨"go", .failure, "reason", false⟩]⟩]
  names_nodup := by decide

/-- What there is to say of the one language of the record. -/
def failingStatistic : LanguageStatistic :=
  ⟨1, Tally.shares ⟨1, 0, 0, 1, 0, []⟩, [⟨"reason", 1⟩]⟩

theorem conversions_failing : failing.conversions = [⟨"go", .failure, "reason", false⟩] := by
  rw [Record.conversions, Record.sortedExamples, failing, List.mergeSort_singleton]
  rfl

theorem languageStatistics_failing :
    failing.languageStatistics none = [(("go" : Text), failingStatistic)] := by
  have htally : Tally.ofAttempts [⟨"go", .failure, "reason", false⟩] =
      ⟨1, 0, 0, 1, 0, [⟨"reason", 1⟩]⟩ := by decide
  have hstatistic : LanguageStatistic.ofTally none ⟨1, 0, 0, 1, 0, [⟨"reason", 1⟩]⟩ =
      failingStatistic := by
    rw [LanguageStatistic.ofTally, Histogram.frequent, Histogram.limited, Histogram.ranked,
      List.mergeSort_singleton]
    rfl
  have hlanguages : Text.distinct [("go" : Text)] = ["go"] := by decide
  rw [Record.languageStatistics_eq, conversions_failing]
  show (Text.distinct [("go" : Text)]).map _ = _
  rw [hlanguages, ← hstatistic, ← htally]
  rfl

private theorem encode_failing :
    ∃ bytes, Utf8.encode (Report.byLanguage.content failing .standard) = .ok bytes := by
  have hreport : failing.languageReport none = .object [("go", failingStatistic.toJson)] := by
    rw [Record.languageReport, languageStatistics_failing]
    rfl
  have hok : (Utf8.encode ((Json.object [("go", failingStatistic.toJson)]).toText
      (.indented "\t"))).isOk := by decide +kernel
  show ∃ bytes, Utf8.encode ((failing.languageReport none).toText (.indented "\t")) = _
  rw [hreport]
  cases hencode : Utf8.encode ((Json.object [("go", failingStatistic.toJson)]).toText
      (.indented "\t")) with
  | ok bytes => exact ⟨bytes, rfl⟩
  | error fault =>
    rw [hencode] at hok
    cases hok

open scoped Host in
theorem indented_reads_back_failing :
    ∃ path after members,
      (report failing .standard .byLanguage ⟨0, []⟩ "byLanguage.json").run.run ⟨⟨[]⟩, []⟩ =
        (.ok path, after) ∧
      after.tree.json? 1 path = some (.object members) ∧
      members.map Prod.fst = [("go" : Text)] := by
  have hmake : FileTree.ensureDir ⟨[]⟩ Settings.standard.dirMode ⟨0, []⟩ = (.ok (), ⟨[]⟩) := by
    obtain ⟨room, hroom⟩ := FileTree.exists_ensureWithin
    rw [hroom]
    rfl
  have hwrite (bytes : List UInt8) : ∃ tree, FileTree.writeFile ⟨[]⟩ Settings.standard.fileMode
      (FilePath.append ⟨0, []⟩ ("byLanguage.json" : Text)) bytes = .ok tree := ⟨_, rfl⟩
  obtain ⟨bytes, hencode⟩ := encode_failing
  obtain ⟨tree, hwrite⟩ := hwrite bytes
  obtain ⟨log, hrun⟩ := @run_report_ok _ failing .standard .byLanguage ⟨0, []⟩ "byLanguage.json"
    ⟨⟨[]⟩, []⟩ _ _ _ hmake hencode hwrite
  have hattempts : Binary64.digitCount failing.conversions.length ≤ 1 := by
    rw [conversions_failing]
    decide
  have hreads := (indented_reads_back failing hattempts (by decide) .standard (by decide)
    ⟨0, []⟩ "byLanguage.json" ⟨⟨[]⟩, []⟩).1
  rw [hrun] at hreads
  obtain ⟨members, hread, hnames, -⟩ := hreads
  exact ⟨_, _, members, hrun, hread,
    hnames.trans (congrArg (List.map Prod.fst) languageStatistics_failing)⟩

end Export

end ConversionCoverage

import ConversionCoverage.Host.Usual
import ConversionCoverage.Proofs.FirstFailure
import ConversionCoverage.Proofs.ReportFiles
import ConversionCoverage.Proofs.Tracking
import ConversionCoverage.Proofs.TwoExports
import Mathlib.Data.List.Forall2

/-!
# Confluence of trackers

In whatever order examples are found and attempts are recorded, and however often they are recorded
again: trackers that end up with the same sources and the same latest attempts export the same
reports, apart from the order in which the failures of an example are listed.
-/

namespace ConversionCoverage

/-! ## The order of attempts -/

/-- Two examples that differ at most in the order of their attempts. -/
structure Example.EqButOrder (e f : Example) : Prop where
  name : e.name = f.name
  source : e.source = f.source
  attempts : e.attempts.Perm f.attempts

/-- Two entries of the report on examples that differ at most in the order of the failures. -/
structure ExampleReport.EqButOrder (x y : ExampleReport) : Prop where
  provider : x.provider = y.provider
  version : x.version = y.version
  name : x.name = y.name
  isDuplicated : x.isDuplicated = y.isDuplicated
  source : x.source = y.source
  failed : x.failed.Perm y.failed

/-- Two records of one provider whose examples, in the order of their names, differ in no more. -/
structure Record.EqButOrder (r r' : Record) : Prop where
  provider : r.provider = r'.provider
  version : r.version = r'.version
  examples : List.Forall₂ Example.EqButOrder r.sortedExamples r'.sortedExamples

private theorem exists_mem_iff_of_forall₂ {α : Type} {R : α → α → Prop} {xs ys : List α}
    (h : List.Forall₂ R xs ys) {P : α → Prop} (hP : ∀ x y, R x y → (P x ↔ P y)) :
    (∃ x ∈ xs, P x) ↔ ∃ y ∈ ys, P y := by
  induction h with
  | nil => simp
  | cons hxy _ ih => simp [hP _ _ hxy, ih]

private theorem Example.flatMap_attempts_perm {es fs : List Example}
    (h : List.Forall₂ Example.EqButOrder es fs) :
    (es.flatMap Example.attempts).Perm (fs.flatMap Example.attempts) := by
  induction h with
  | nil => exact .nil
  | cons hef _ ih =>
    rw [List.flatMap_cons, List.flatMap_cons]
    exact hef.attempts.append ih

theorem ExampleReport.EqButOrder.hasHalf_iff {x y : ExampleReport} (h : x.EqButOrder y) :
    x.toJson.HasHalf ↔ y.toJson.HasHalf := by
  simp only [hasHalf_toJson, h.provider, h.version, h.name, h.source, h.failed.mem_iff]

namespace Record.EqButOrder

variable {r r' : Record} (h : r.EqButOrder r')
include h

theorem countsAlike : r.CountsAlike r' where
  provider := h.provider
  version := h.version
  examples := by
    have hlength := h.examples.length_eq
    rwa [r.sortedExamples_perm.length_eq, r'.sortedExamples_perm.length_eq] at hlength
  attempts := by
    have hperm : r.conversions.Perm r'.conversions := Example.flatMap_attempts_perm h.examples
    exact (r.conversions_perm_attempts.symm.trans
      (hperm.trans r'.conversions_perm_attempts)).map Attempt.redacted

private theorem exampleReport {e f : Example} (hef : e.EqButOrder f) :
    (ExampleReport.ofExample r e).EqButOrder (.ofExample r' f) where
  provider := h.provider
  version := h.version
  name := hef.name
  isDuplicated := hef.attempts.any_eq
  source := by
    have hfailures : e.hasFailures = f.hasFailures := hef.attempts.any_eq
    rw [ExampleReport.ofExample, ExampleReport.ofExample, hfailures, hef.source]
  failed := hef.attempts.filter _

theorem exampleReports :
    List.Forall₂ ExampleReport.EqButOrder r.exampleReports r'.exampleReports := by
  rw [Record.exampleReports, Record.exampleReports, List.forall₂_map_left_iff,
    List.forall₂_map_right_iff]
  exact h.examples.imp fun _ _ hef => h.exampleReport hef

theorem hasHalf_iff (s : Settings) (kind : Report) :
    (kind.content r s).HasHalf ↔ (kind.content r' s).HasHalf := by
  by_cases hkind : kind = .byExample
  · rw [hkind, hasHalf_lines, hasHalf_lines]
    exact exists_mem_iff_of_forall₂ h.exampleReports fun _ _ hxy => hxy.hasHalf_iff
  · rw [Report.content_counts h.countsAlike s hkind]

end Record.EqButOrder

/-! ## Exports of such records -/

/-- The lines of a report on examples. -/
def ExampleReport.lines (entries : List ExampleReport) : Text :=
  entries.flatMap fun report => report.toJson.toText .line ++ "\n"

namespace Export

/-- Two trees hold the same reports: three of them byte by byte, and the one on examples line by
line, but for the order of the failures in each line. -/
structure SameButOrder (path : Report → FilePath) (tree tree' : FileTree) : Prop where
  counts : ∀ kind, kind ≠ .byExample → ∃ bytes,
    tree.readFile (path kind) = .ok bytes ∧ tree'.readFile (path kind) = .ok bytes
  examples : ∃ entries entries', List.Forall₂ ExampleReport.EqButOrder entries entries' ∧
    tree.text? (path .byExample) = some (ExampleReport.lines entries) ∧
    tree'.text? (path .byExample) = some (ExampleReport.lines entries')

private theorem sameButOrder_of_run [Host] {r r' : Record} (h : r.EqButOrder r') {s : Settings}
    {directory : FilePath} {w w' after after' : Workspace} {paths paths' : List FilePath}
    (hrun : (all r s directory).run.run w = (.ok paths, after))
    (hrun' : (all r' s directory).run.run w' = (.ok paths', after')) :
    SameButOrder (target directory) after.tree after'.tree where
  counts kind hkind := by
    have hmem : kind ∈ Report.all := by cases kind <;> decide
    obtain ⟨bytes, hencode, hread⟩ := (leaves_of_run hrun).reports kind hmem
    obtain ⟨bytes', hencode', hread'⟩ := (leaves_of_run hrun').reports kind hmem
    rw [← Report.content_counts h.countsAlike s hkind, hencode] at hencode'
    obtain rfl := Except.ok.inj hencode'
    exact ⟨bytes, hread, hread'⟩
  examples := ⟨r.exampleReports, r'.exampleReports, h.exampleReports,
    text?_of_leaves (leaves_of_run hrun) List.mem_cons_self,
    text?_of_leaves (leaves_of_run hrun') List.mem_cons_self⟩

end Export

/-! ## The latest attempts -/

namespace Attempt

theorem mem_latest (attempts : List Attempt) (a : Attempt) :
    a ∈ latest attempts ↔
      (attempts.reverse.find? fun b => b.language = a.language) = some a := by
  rw [latest, List.mem_filterMap]
  constructor
  · rintro ⟨l, -, hfind⟩
    obtain rfl : a.language = l := by simpa using List.find?_some hfind
    exact hfind
  · intro hfind
    have ha : a ∈ attempts := List.mem_reverse.mp (List.mem_of_find?_eq_some hfind)
    exact ⟨a.language, (Text.mem_firstSeen _ _).mpr (List.mem_map_of_mem ha), hfind⟩

theorem nodup_latest (attempts : List Attempt) : (latest attempts).Nodup := by
  apply (Text.nodup_firstSeen (attempts.map language)).filterMap
  intro l l' a hl hl'
  have hlanguage : a.language = l := by simpa using List.find?_some hl
  have hlanguage' : a.language = l' := by simpa using List.find?_some hl'
  exact hlanguage.symm.trans hlanguage'

/-- The latest attempts are given by the last one for each language, up to their order. -/
theorem latest_perm {xs ys : List Attempt}
    (h : ∀ l : Text, (xs.reverse.find? fun a => a.language = l) =
      ys.reverse.find? fun a => a.language = l) : (latest xs).Perm (latest ys) := by
  rw [List.perm_ext_iff_of_nodup (nodup_latest xs) (nodup_latest ys)]
  intro a
  rw [mem_latest, mem_latest, h]

end Attempt

namespace Tracker

section Host

variable [Host]

/-- The attempt recorded last for an example and a language, if there is one. -/
def lastRecorded (calls : List Call) (name language : Text) : Option Attempt :=
  (attemptsOf calls name).reverse.find? fun a => a.language = language

/-- Calls that find the same examples, give them the same sources in the end, and record last the
same attempt for each example and language. -/
structure SameKnowledge (calls calls' : List Call) : Prop where
  names : ∀ name, name ∈ namesFound calls ↔ name ∈ namesFound calls'
  sources : ∀ name ∈ namesFound calls, latestSource calls name = latestSource calls' name
  attempts : ∀ name language, lastRecorded calls name language = lastRecorded calls' name language

/-- What calls say of one example. -/
def exampleOf (calls : List Call) (name : Text) : Example :=
  ⟨name, latestSource calls name, Attempt.latest (attemptsOf calls name)⟩

/-- The record that is built after calls without a reset. -/
def recordOf (provider version : Text) (calls : List Call) : Record where
  provider := provider
  version := version
  examples := examplesOf calls
  names_nodup := by
    rw [names_examplesOf]
    exact Text.nodup_firstSeen _

theorem build_recordOf (provider version : Text) (calls : List Call) :
    (run (new (.text provider) (.text version)) calls).build =
      .ok (recordOf provider version (sinceReset calls)) := by
  rw [run_new]
  exact build_tracked provider version _ _

theorem sortedExamples_recordOf (provider version : Text) (calls : List Call) :
    (recordOf provider version calls).sortedExamples =
      (Text.distinct (namesFound calls)).map (exampleOf calls) := by
  have hsorted : (Text.sort (namesFound calls)).map (exampleOf calls) =
      ((namesFound calls).map (exampleOf calls)).mergeSort fun a b => Text.le a.name b.name :=
    List.map_mergeSort fun _ _ _ _ => rfl
  have hnames : Text.sort (namesFound calls) = Text.distinct (namesFound calls) := by
    rw [namesFound, Text.sort_firstSeen]
    exact Text.distinct_congr fun t => (Text.mem_firstSeen _ _).symm
  rw [← hnames, hsorted]
  rfl

private theorem SameKnowledge.eqButOrder {calls calls' : List Call} (h : SameKnowledge calls calls')
    (provider version : Text) :
    (recordOf provider version calls).EqButOrder (recordOf provider version calls') where
  provider := rfl
  version := rfl
  examples := by
    rw [sortedExamples_recordOf, sortedExamples_recordOf, Text.distinct_congr h.names,
      List.forall₂_map_left_iff, List.forall₂_map_right_iff, List.forall₂_same]
    intro name hname
    have hfound : name ∈ namesFound calls := (h.names name).mpr (Text.mem_distinct.mp hname)
    exact ⟨rfl, h.sources name hfound, Attempt.latest_perm (h.attempts name)⟩

/-- Two trackers of one provider that end up with the same knowledge export alike. Either both write
all reports: then the reports on languages and on the provider and the digest are the same bytes,
and the report on examples has the same lines but for the order of the failures in each of them. Or
both fail at the same report and in the same way. -/
theorem exportRecord_confluent (provider version : Text) (calls calls' : List Call)
    (hcalls : SameKnowledge (sinceReset calls) (sinceReset calls')) (s : Settings)
    (asked : Option Text) (w w' : Workspace) (htree : w.tree = w'.tree) :
    let t := run (new (.text provider) (.text version)) calls
    let t' := run (new (.text provider) (.text version)) calls'
    let path := Export.target (Export.directory s asked)
    match t.exportRecord s asked w, t'.exportRecord s asked w' with
    | (.ok paths, after), (.ok paths', after') =>
      paths = Report.all.map path ∧ paths' = Report.all.map path ∧
        Export.SameButOrder path after.tree after'.tree
    | (.error (.failed fault), after), (.error (.failed fault'), after') => fault.Alike fault' ∧
      ∃ r r' kind, t.build = .ok r ∧ t'.build = .ok r' ∧
        Export.FailsAt r s (Export.directory s asked) kind fault after Report.all
          { w with log := w.log ++ [t.exportEvent] } ∧
        Export.FailsAt r' s (Export.directory s asked) kind fault' after' Report.all
          { w' with log := w'.log ++ [t'.exportEvent] }
    | _, _ => False := by
  intro t t' path
  have hbuild : t.build = .ok (recordOf provider version (sinceReset calls)) :=
    build_recordOf provider version calls
  have hbuild' : t'.build = .ok (recordOf provider version (sinceReset calls')) :=
    build_recordOf provider version calls'
  have hrecords := hcalls.eqButOrder provider version
  have houtline : w.tree.outline = w'.tree.outline := by rw [htree]
  simp only [exportRecord, hbuild, hbuild']
  rcases Export.reports_alike s (Export.directory s asked) (hrecords.hasHalf_iff s) Report.all
    { w with log := w.log ++ [t.exportEvent] } { w' with log := w'.log ++ [t'.exportEvent] }
    houtline with
    ⟨after, after', hrun, hrun'⟩ | ⟨kind, fault, fault', after, after', hfails, hfails', halike⟩
  · rw [← Export.all] at hrun hrun'
    rw [hrun, hrun']
    exact ⟨rfl, rfl, Export.sameButOrder_of_run hrecords hrun hrun'⟩
  · rw [Export.all, Export.all, hfails.run_reports, hfails'.run_reports]
    exact ⟨halike, _, _, kind, rfl, rfl, hfails, hfails'⟩

end Host

/-- Two examples, the attempts for one of them being recorded once each. -/
def plainCalls : List Call := [
  .found "a" "source",
  .found "b" "other",
  .record "a" "go" (.int 2) (.text "x") (.bool false),
  .record "a" "c" (.int 3) (.text "y") (.bool false)]

/-- The same examples in another order, one with a source to be replaced, and the attempts in
another order, one of them repeated. -/
def repeatedCalls : List Call := [
  .found "b" "other",
  .found "a" "draft",
  .record "a" "c" (.int 3) (.text "y") (.bool false),
  .record "a" "go" (.int 1) (.text "z") (.bool true),
  .record "a" "go" (.int 2) (.text "x") (.bool false),
  .found "a" "source"]

open scoped Host in
theorem sameKnowledge_repeated : SameKnowledge plainCalls repeatedCalls where
  names name := by
    have hplain : namesFound plainCalls = ["a", "b"] := by decide
    have hrepeated : namesFound repeatedCalls = ["b", "a"] := by decide
    simp [hplain, hrepeated, or_comm]
  sources := by decide
  attempts name language := by
    let go : Attempt := ⟨"go", .failure, "x", false⟩
    let c : Attempt := ⟨"c", .fatal, "y", false⟩
    have hplain : recordings plainCalls = [(("a" : Text), go), (("a" : Text), c)] := by decide
    have hrepeated : recordings repeatedCalls =
        [(("a" : Text), c), (("a" : Text), ⟨"go", .warning, "z", true⟩), (("a" : Text), go)] := by
      decide
    rw [lastRecorded, lastRecorded, attemptsOf, attemptsOf, hplain, hrepeated]
    by_cases hname : ("a" : Text) = name
    · by_cases hgo : ("go" : Text) = language
      · subst hname hgo
        rfl
      · simp [go, c, List.find?_cons, hname, hgo]
    · simp [hname]

open scoped Host in
theorem firstWithHalf_plain :
    Export.firstWithHalf (recordOf "p" "1" plainCalls) .standard Report.all = none := by
  have hexamples : (recordOf "p" "1" plainCalls).examples = [
      ⟨"a", "source", [⟨"go", .failure, "x", false⟩, ⟨"c", .fatal, "y", false⟩]⟩,
      ⟨"b", "other", []⟩] := by decide
  have hprovider : ¬ (recordOf "p" "1" plainCalls).ProviderHasHalf :=
    not_or.mpr ⟨Text.not_hasHalf_ofString _, Text.not_hasHalf_ofString _⟩
  have hshows : ¬ (recordOf "p" "1" plainCalls).ExamplesShowHalf := by
    simp [Record.ExamplesShowHalf, hprovider, hexamples, Example.ShowsHalf,
      Example.failedAttempts, Attempt.succeeded]
  have hsuccess : ¬ (recordOf "p" "1" plainCalls).SuccessHasHalf := by
    simp [Record.SuccessHasHalf, hexamples]
  rw [Export.firstWithHalf_all _ (Text.not_hasHalf_ofString _), if_neg hshows, if_neg hsuccess,
    if_neg hprovider]

open scoped Host in
theorem exportRecord_confluent_repeated :
    let t := run (new (.text "p") (.text "1")) plainCalls
    let t' := run (new (.text "p") (.text "1")) repeatedCalls
    SameKnowledge plainCalls repeatedCalls ∧ ∃ paths after after',
      t.exportRecord .standard (some ".") ⟨⟨[]⟩, []⟩ = (.ok paths, after) ∧
      t'.exportRecord .standard (some ".") ⟨⟨[]⟩, []⟩ = (.ok paths, after') ∧
      Export.SameButOrder (Export.target ⟨0, []⟩) after.tree after'.tree := by
  intro t t'
  refine ⟨sameKnowledge_repeated, ?_⟩
  have hexports := exportRecord_confluent "p" "1" plainCalls repeatedCalls sameKnowledge_repeated
    .standard (some ".") ⟨⟨[]⟩, []⟩ ⟨⟨[]⟩, []⟩ rfl
  obtain ⟨after, hrun⟩ := (Export.succeeds_iff (recordOf "p" "1" plainCalls)
    ⟨⟨[]⟩, [t.exportEvent]⟩ (Export.ensureDir_top _) Export.ready_top).mpr firstWithHalf_plain
  have hexport : t.exportRecord .standard (some ".") ⟨⟨[]⟩, []⟩ =
      (.ok (Report.all.map (Export.target ⟨0, []⟩)), after) := by
    have hbuild : t.build = .ok (recordOf "p" "1" plainCalls) := build_recordOf "p" "1" plainCalls
    rw [exportRecord, hbuild]
    exact congrArg (fun done => (done.1.mapError ExportFault.failed, done.2)) hrun
  simp only at hexports
  rw [hexport] at hexports
  cases hexport' : t'.exportRecord .standard (some ".") ⟨⟨[]⟩, []⟩ with
  | mk result after' =>
    rw [hexport'] at hexports
    cases result with
    | error fault => exact hexports.elim
    | ok paths =>
      obtain ⟨-, rfl, hsame⟩ := hexports
      exact ⟨_, after, after', hexport, rfl, hsame⟩

end Tracker

end ConversionCoverage

import ConversionCoverage.Proofs.Export
import Mathlib.Data.List.Forall2

/-!
# What an export logs

An export adds to the log an event for each report that it has written, in the order of writing,
with the number of bytes that the file of the report holds in the end. If it fails at a step, an
error with the path of the fault comes after them. A path that no file system takes is not logged.
-/

namespace ConversionCoverage

/-- An event that a report has been written, with its path and the number of bytes that it holds. -/
structure Event.TellsWritten (e : Event) (tree : FileTree) (path : FilePath) : Prop where
  level : e.level = .info
  message : e.message = "report written"
  fields : ∃ bytes, tree.readFile path = .ok bytes ∧
    e.fields = [Json.member "path" (.text path.toText), Json.member "size" (.int bytes.length)]

/-- An error with the path of a fault and its cause. -/
structure Event.TellsFailure (e : Event) (path : FilePath) (cause : ExportCause) : Prop where
  level : e.level = .error
  fields : e.fields =
    [Json.member "path" (.text path.toText), Json.member "error" (.text cause.message)]

/-- The events that a fault is logged as: one error if a step of the export failed. -/
inductive ExportFault.Logged : ExportFault → List Event → Prop where
  | failed {step : ExportStep} {path : FilePath} {cause : ExportCause} {e : Event}
    (h : e.TellsFailure path cause) : Logged (.failed step path cause) [e]
  | unusablePath (fault : FileFault) : Logged (.unusablePath fault) []

namespace Export

private theorem logged_faultEvents (fault : ExportFault) : fault.Logged (faultEvents fault) := by
  cases fault with
  | failed step path cause => exact .failed ⟨rfl, rfl⟩
  | unusablePath fault => exact .unusablePath fault

variable {r : Record} {s : Settings} {directory : FilePath} {w after : Workspace}

/-- The event for a report that has been written as it was rendered. -/
def Tells (r : Record) (s : Settings) (directory : FilePath) (kind : Report) (e : Event) : Prop :=
  ∃ bytes, Utf8.encode (kind.content r s) = .ok bytes ∧
    e = successEvent (target directory kind) bytes

/-! ## One report -/

variable [Host]

private theorem log_of_report {kind : Report} {path : FilePath}
    (h : (report r s kind directory kind.fileName).run.run w = (.ok path, after)) :
    ∃ e, Tells r s directory kind e ∧ after.log = w.log ++ [e] := by
  have hrun := run_report_eq r s kind directory kind.fileName w
  rw [h] at hrun
  rcases outcome_cases s directory (target directory kind) (kind.content r s) w.tree with
    ⟨made, bytes, done, -, hencode, -, houtcome⟩ | ⟨fault, made, houtcome, -⟩
  · rw [target] at houtcome
    simp only [houtcome, outcomeEvents, hencode] at hrun
    cases hrun
    exact ⟨_, ⟨bytes, hencode, rfl⟩, rfl⟩
  · rw [target] at houtcome
    simp only [houtcome] at hrun
    cases hrun

private theorem log_of_failed_report {kind : Report} {fault : ExportFault}
    (h : (report r s kind directory kind.fileName).run.run w = (.error fault, after)) :
    after.log = w.log ++ faultEvents fault := by
  have hrun := run_report_eq r s kind directory kind.fileName w
  rw [h] at hrun
  rcases outcome_cases s directory (target directory kind) (kind.content r s) w.tree with
    ⟨made, bytes, done, -, -, -, houtcome⟩ | ⟨fault, made, houtcome, -⟩
  · rw [target] at houtcome
    simp only [houtcome] at hrun
    cases hrun
  · rw [target] at houtcome
    simp only [houtcome, outcomeEvents] at hrun
    cases hrun
    rfl

/-! ## Several reports -/

theorem log_of_reports {kinds : List Report} {paths : List FilePath}
    (h : (reports r s directory kinds).run.run w = (.ok paths, after)) :
    ∃ told, List.Forall₂ (Tells r s directory) kinds told ∧ after.log = w.log ++ told := by
  induction kinds generalizing w paths with
  | nil =>
    cases h
    exact ⟨[], .nil, (List.append_nil _).symm⟩
  | cons kind rest ih =>
    rw [reports, run_bind] at h
    cases hreport : (report r s kind directory kind.fileName).run.run w with
    | mk result mid =>
      rw [hreport] at h
      cases result with
      | error fault => cases h
      | ok path =>
        simp only at h
        rw [run_bind] at h
        cases hrest : (reports r s directory rest).run.run mid with
        | mk result last =>
          rw [hrest] at h
          cases result with
          | error fault => cases h
          | ok more =>
            cases h
            obtain ⟨e, he, hmid⟩ := log_of_report hreport
            obtain ⟨told, htold, hlast⟩ := ih hrest
            refine ⟨e :: told, .cons he htold, ?_⟩
            rw [hlast, hmid, List.append_assoc, List.singleton_append]

omit [Host] in
theorem tellsWritten_of_leaves {before tree : FileTree} {written : List Report} {told : List Event}
    (hleaves : Leaves r s directory written before tree)
    (h : List.Forall₂ (Tells r s directory) written told) :
    List.Forall₂ (fun kind e => e.TellsWritten tree (target directory kind)) written told := by
  have hboth := (List.forall₂_and_left written told).mpr ⟨hleaves.reports, h⟩
  apply hboth.imp
  rintro kind e ⟨⟨bytes, hencode, hread⟩, bytes', hencode', rfl⟩
  obtain rfl : bytes' = bytes := Except.ok.inj (hencode'.symm.trans hencode)
  exact ⟨rfl, rfl, bytes', hread, rfl⟩

/-- The log of an export tells what has happened. The reports that it has written, all those before
the first failing one, are told in this order, each with its path and the number of bytes that its
file holds after the export. Nothing is told of the others, the files of which are as they were. One
error comes last if and only if a step of the export failed, with the path of that fault. -/
theorem all_log (r : Record) (s : Settings) (directory : FilePath) (w : Workspace) :
    ∃ result after written pending told failed,
      (all r s directory).run.run w = (result, after) ∧
      Report.all = written ++ pending ∧
      after.log = w.log ++ told ++ failed ∧
      List.Forall₂ (fun kind e => e.TellsWritten after.tree (target directory kind)) written
        told ∧
      (∀ kind ∈ pending, ∀ l, after.tree.find (target directory kind) = .ok l →
        after.tree.file? l = w.tree.file? l) ∧
      match result with
      | .ok paths => paths = written.map (target directory) ∧ pending = [] ∧ failed = []
      | .error fault => fault.Logged failed ∧ ∃ kind later mid, pending = kind :: later ∧
          (reports r s directory written).run.run w = (.ok (written.map (target directory)), mid) ∧
          (report r s kind directory kind.fileName).run.run mid = (.error fault, after) := by
  rcases run_reports r s directory Report.all [] (by decide) w.tree w (.refl r s directory _) with
    ⟨after, hrun, hleaves⟩ | ⟨fault, after, written, kind, later, mid, hall, hrun, hdone, hfail,
      hleaves⟩
  · obtain ⟨told, htold, hlog⟩ := log_of_reports hrun
    refine ⟨_, after, Report.all, [], told, [], hrun, (List.append_nil _).symm, ?_,
      tellsWritten_of_leaves hleaves htold, by simp, rfl, rfl, rfl⟩
    rw [hlog, List.append_nil]
  · obtain ⟨told, htold, hmid⟩ := log_of_reports hdone
    have hlog : after.log = w.log ++ told ++ faultEvents fault := by
      rw [log_of_failed_report hfail, hmid]
    have hpending : ∀ other ∈ kind :: later, other ∉ written := by
      intro other hother hmem
      have hn : (written ++ kind :: later).Nodup := hall ▸ (by decide : Report.all.Nodup)
      exact (List.nodup_append.mp hn).2.2 other hmem other hother rfl
    exact ⟨_, after, written, kind :: later, told, _, hrun, hall, hlog,
      tellsWritten_of_leaves hleaves htold,
      fun other hother l hl => hleaves.file?_of_notMem (hpending other hother) l hl,
      logged_faultEvents fault, kind, later, mid, rfl, hdone, hfail⟩

end Export

end ConversionCoverage

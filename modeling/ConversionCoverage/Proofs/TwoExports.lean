import ConversionCoverage.Proofs.Export
import ConversionCoverage.Proofs.Halves
import ConversionCoverage.Proofs.Outline

/-!
# Two exports side by side

How an export goes on depends on the outline of the tree and on which of its texts can be encoded.
Two exports for which these are the same write the same reports and fail at the same one, and the
trees that they leave have one outline.
-/

namespace ConversionCoverage

/-- Two faults of one kind about one path. Only which characters could not be encoded may differ. -/
def ExportFault.Alike : ExportFault → ExportFault → Prop
  | .failed .serialization path (.encoding _), .failed .serialization path' (.encoding _) =>
    path = path'
  | fault, fault' => fault = fault'

theorem ExportFault.Alike.refl (fault : ExportFault) : fault.Alike fault := by
  unfold Alike
  split <;> simp_all

namespace Export

variable [Host]

/-- An export of some reports fails at one of them, those before it having been written. -/
inductive FailsAt (r : Record) (s : Settings) (directory : FilePath) (kind : Report)
    (fault : ExportFault) (after : Workspace) : List Report → Workspace → Prop
  | here {later : List Report} {w : Workspace}
    (hrun : (report r s kind directory kind.fileName).run.run w = (.error fault, after)) :
    FailsAt r s directory kind fault after (kind :: later) w
  | later {first : Report} {rest : List Report} {w mid : Workspace}
    (hrun : (report r s first directory first.fileName).run.run w =
      (.ok (target directory first), mid))
    (hrest : FailsAt r s directory kind fault after rest mid) :
    FailsAt r s directory kind fault after (first :: rest) w

theorem FailsAt.run_reports {r : Record} {s : Settings} {directory : FilePath} {kind : Report}
    {fault : ExportFault} {after w : Workspace} {kinds : List Report}
    (h : FailsAt r s directory kind fault after kinds w) :
    (reports r s directory kinds).run.run w = (.error fault, after) := by
  induction h with
  | here hrun => exact run_reports_cons_of_error hrun
  | later hrun hrest ih =>
    rw [run_reports_cons hrun, ih]
    rfl

variable (s : Settings) (directory : FilePath)

section Outcomes

variable {tree tree' : FileTree} (houtline : tree.outline = tree'.outline)
include houtline

private theorem ensureDir_alike (mode : Nat) (path : FilePath) :
    (tree.ensureDir mode path).1 = (tree'.ensureDir mode path).1 ∧
      (tree.ensureDir mode path).2.outline = (tree'.ensureDir mode path).2.outline := by
  have hleft := tree.ensureDir_outline mode path
  have hright := tree'.ensureDir_outline mode path
  rw [houtline] at hleft
  exact Prod.mk.inj (hleft.symm.trans hright)

private theorem writeFile_alike (mode : Nat) (path : FilePath) (bytes bytes' : List UInt8) :
    (∃ after after', tree.writeFile mode path bytes = .ok after ∧
      tree'.writeFile mode path bytes' = .ok after' ∧ after.outline = after'.outline) ∨
    ∃ fault, tree.writeFile mode path bytes = .error fault ∧
      tree'.writeFile mode path bytes' = .error fault := by
  have hleft := tree.writeFile_outline mode path bytes
  have hright := tree'.writeFile_outline mode path bytes'
  rw [houtline, hright] at hleft
  cases hwrite : tree.writeFile mode path bytes with
  | ok after =>
    cases hwrite' : tree'.writeFile mode path bytes' with
    | ok after' =>
      rw [hwrite, hwrite'] at hleft
      exact .inl ⟨after, after', rfl, rfl, (Except.ok.inj hleft).symm⟩
    | error fault =>
      rw [hwrite, hwrite'] at hleft
      cases hleft
  | error fault =>
    cases hwrite' : tree'.writeFile mode path bytes' with
    | ok after' =>
      rw [hwrite, hwrite'] at hleft
      cases hleft
    | error fault' =>
      rw [hwrite, hwrite'] at hleft
      exact .inr ⟨fault, rfl, congrArg Except.error (Except.error.inj hleft)⟩

private theorem outcome_alike (path : FilePath) {content content' : Text}
    (hhalf : content.HasHalf ↔ content'.HasHalf) :
    (∃ after after', outcome s directory path content tree = (.ok (), after) ∧
      outcome s directory path content' tree' = (.ok (), after') ∧
      after.outline = after'.outline) ∨
    ∃ fault fault' after after', outcome s directory path content tree = (.error fault, after) ∧
      outcome s directory path content' tree' = (.error fault', after') ∧ fault.Alike fault' ∧
      after.outline = after'.outline := by
  obtain ⟨hresult, hmade⟩ := ensureDir_alike houtline s.dirMode directory
  unfold outcome
  cases hensure : tree.ensureDir s.dirMode directory with
  | mk result made =>
    cases hensure' : tree'.ensureDir s.dirMode directory with
    | mk result' made' =>
      rw [hensure, hensure'] at hresult hmade
      simp only at hresult hmade
      subst hresult
      cases result with
      | error fault => exact .inr ⟨_, _, made, made', rfl, rfl, .refl _, hmade⟩
      | ok _ =>
        simp only
        by_cases hcontent : content.HasHalf
        · obtain ⟨fault, hencode⟩ := Utf8.exists_encode_eq_error hcontent
          obtain ⟨fault', hencode'⟩ := Utf8.exists_encode_eq_error (hhalf.mp hcontent)
          rw [hencode, hencode']
          exact .inr ⟨_, _, made, made', rfl, rfl, rfl, hmade⟩
        · obtain ⟨bytes, hencode⟩ := Utf8.exists_encode_eq_ok hcontent
          obtain ⟨bytes', hencode'⟩ := Utf8.exists_encode_eq_ok (mt hhalf.mpr hcontent)
          rw [hencode, hencode']
          simp only
          rcases writeFile_alike hmade s.fileMode path bytes bytes' with
            ⟨after, after', hwrite, hwrite', hafter⟩ | ⟨fault, hwrite, hwrite'⟩
          · rw [hwrite, hwrite']
            exact .inl ⟨after, after', rfl, rfl, hafter⟩
          · rw [hwrite, hwrite']
            exact .inr ⟨_, _, made, made', rfl, rfl, .refl _, hmade⟩

end Outcomes

/-- Two exports whose texts can be encoded alike, in trees of one outline, either both succeed or
both fail at the same report and alike. -/
theorem reports_alike {r r' : Record}
    (hhalf : ∀ kind : Report, (kind.content r s).HasHalf ↔ (kind.content r' s).HasHalf)
    (kinds : List Report) (w w' : Workspace) (houtline : w.tree.outline = w'.tree.outline) :
    (∃ after after',
      (reports r s directory kinds).run.run w = (.ok (kinds.map (target directory)), after) ∧
      (reports r' s directory kinds).run.run w' = (.ok (kinds.map (target directory)), after')) ∨
    ∃ kind fault fault' after after', FailsAt r s directory kind fault after kinds w ∧
      FailsAt r' s directory kind fault' after' kinds w' ∧ fault.Alike fault' := by
  -- By induction on the reports: the trees keep one outline from report to report.
  induction kinds generalizing w w' with
  | nil => exact .inl ⟨w, w', rfl, rfl⟩
  | cons kind rest ih =>
    rcases outcome_alike s directory houtline (target directory kind)
      (hhalf kind) with ⟨after, after', houtcome, houtcome', hafter⟩ |
        ⟨fault, fault', after, after', houtcome, houtcome', halike, -⟩
    · obtain ⟨log, hrun⟩ := run_report_of_outcome houtcome
      obtain ⟨log', hrun'⟩ := run_report_of_outcome houtcome'
      rcases ih ⟨after, log⟩ ⟨after', log'⟩ hafter with
        ⟨last, last', hrest, hrest'⟩ |
          ⟨failing, fault, fault', last, last', hrest, hrest', halike⟩
      · left
        refine ⟨last, last', ?_, ?_⟩
        · rw [run_reports_cons hrun, hrest]
          rfl
        · rw [run_reports_cons hrun', hrest']
          rfl
      · exact .inr ⟨failing, fault, fault', last, last', .later hrun hrest, .later hrun' hrest',
          halike⟩
    · obtain ⟨log, hrun⟩ := run_report_of_outcome houtcome
      obtain ⟨log', hrun'⟩ := run_report_of_outcome houtcome'
      exact .inr ⟨kind, fault, fault', _, _, .here hrun, .here hrun', halike⟩

end Export

end ConversionCoverage

import ConversionCoverage.Proofs.FirstFailure

/-!
# Errors of an export

A file system that can take a path refuses a request about it only for a reason of its own, and it
can take the paths of the parents of a directory, and of the reports in it, if it can take that of
the directory. So an export either succeeds or fails with an error that tells which step failed,
names the directory or the report, and carries the reason. It does not where the path of the
directory holds a zero byte, which is not refused but is no path at all, nor where more directories
are missing on the way than can be made. Both are met before anything is changed.
-/

namespace ConversionCoverage

/-- The fault is a reason for which a file system refuses a request. -/
def FileFault.IsRefusal (fault : FileFault) : Prop :=
  ∃ refusal written, fault = .refused refusal written

namespace FileTree

/-! ## Requests about paths that a file system can take -/

private theorem usable_parent {path : FilePath} (h : ∀ c ∈ path.toText, Usable c) :
    ∀ c ∈ path.parent.toText, Usable c := by
  rw [usable_toText_iff] at h ⊢
  intro part hpart
  exact h part (List.dropLast_subset _ hpart)

section Requests

variable [Host] {tree after : FileTree} {path : FilePath} {fault : FileFault}

omit [Host] in
theorem accept_isRefusal (husable : ∀ c ∈ path.toText, Usable c)
    (h : accept path = .error fault) : fault.IsRefusal := by
  rw [accept_of_usable husable] at h
  split at h
  · exact ⟨_, _, (Except.error.inj h).symm⟩
  · cases h

theorem makeDir_isRefusal {mode : Nat} (husable : ∀ c ∈ path.toText, Usable c)
    (h : tree.makeDir mode path = .error fault) : fault.IsRefusal := by
  rw [makeDir] at h
  cases haccept : accept path with
  | error refused =>
    obtain rfl : refused = fault := by simpa [haccept, bind, Except.bind] using h
    exact accept_isRefusal husable haccept
  | ok written =>
    simp only [haccept, bind, Except.bind] at h
    split at h
    · exact ⟨_, _, (Except.error.inj h).symm⟩
    · cases h
    · exact ⟨_, _, (Except.error.inj h).symm⟩

private theorem writeFile_isRefusal {mode : Nat} {bytes : List UInt8}
    (husable : ∀ c ∈ path.toText, Usable c) (h : tree.writeFile mode path bytes = .error fault) :
    fault.IsRefusal := by
  rw [writeFile] at h
  cases haccept : accept path with
  | error refused =>
    obtain rfl : refused = fault := by simpa [haccept, bind, Except.bind] using h
    exact accept_isRefusal husable haccept
  | ok written =>
    simp only [haccept, bind, Except.bind] at h
    split at h
    · exact ⟨_, _, (Except.error.inj h).symm⟩
    · exact ⟨_, _, (Except.error.inj h).symm⟩
    · cases h
    · split at h
      · cases h
      · exact ⟨_, _, (Except.error.inj h).symm⟩

omit [Host] in
theorem status_isRefusal (h : tree.status path = .error fault) : fault.IsRefusal := by
  unfold status at h
  split at h
  · cases h
  · split at h
    · cases h
    · exact ⟨_, _, (Except.error.inj h).symm⟩
  · cases h

omit [Host] in
theorem unlessDir_isRefusal {met : FileFault} (hmet : met.IsRefusal)
    (h : tree.unlessDir path met = .error fault) : fault.IsRefusal := by
  obtain ⟨refusal, written, rfl⟩ := hmet
  simp only [unlessDir] at h
  split at h
  · split at h
    · cases h
    · exact ⟨_, _, (Except.error.inj h).symm⟩
  · rename_i other hentry
    obtain rfl := Except.error.inj h
    exact status_isRefusal hentry

private theorem ensureLast_isRefusal {mode : Nat} (husable : ∀ c ∈ path.toText, Usable c)
    (h : tree.ensureLast mode path = (.error fault, after)) : fault.IsRefusal := by
  unfold ensureLast at h
  split at h
  · cases h
  · cases h
    exact ⟨_, _, rfl⟩
  · rename_i met _ hmake
    exact unlessDir_isRefusal (makeDir_isRefusal husable hmake) (Prod.mk.inj h).1

/-- Too many directories are missing only where the path has as many parts, and they are found to be
missing before the first of them is made. -/
theorem ensureWithin_isRefusal {room mode : Nat} (husable : ∀ c ∈ path.toText, Usable c)
    (h : tree.ensureWithin room mode path = (.error fault, after)) :
    fault.IsRefusal ∨ fault = .tooManyParents ∧ after = tree ∧ room ≤ path.parts.length := by
  -- By induction along the parents, which can be used as well.
  fun_induction ensureWithin room tree mode path generalizing after with
  | case1 =>
    cases h
    exact .inr ⟨rfl, rfl, Nat.zero_le _⟩
  | case2 => cases h
  | case3 =>
    cases h
    exact .inl ⟨_, _, rfl⟩
  | case4 room tree mode path written habsent hparts refused changed hparent ih =>
    cases h
    have hlength : path.parent.parts.length + 1 = path.parts.length := by
      have hpos := List.length_pos_iff.mpr hparts
      simp only [FilePath.parent, List.length_dropLast]
      omega
    refine (ih (usable_parent husable) hparent).imp_right ?_
    rintro ⟨rfl, rfl, hroom⟩
    exact ⟨rfl, rfl, by omega⟩
  | case5 room tree mode path written habsent hparts changed hparent ih =>
    exact .inl (ensureLast_isRefusal husable h)
  | case6 room tree mode path met hmet hmake =>
    exact .inl (unlessDir_isRefusal (makeDir_isRefusal husable hmake) (Prod.mk.inj h).1)

theorem ensureDir_of_accept_eq_error (tree : FileTree) (mode : Nat)
    (haccept : accept path = .error fault) (hrefusal : ¬ fault.IsRefusal) :
    tree.ensureDir mode path = (.error fault, tree) := by
  have hmake : tree.makeDir mode path = .error fault := by
    rw [makeDir, haccept]
    rfl
  obtain ⟨room, hroom⟩ := exists_ensureWithin
  rw [hroom, ensureWithin, hmake]
  cases fault with
  | refused refusal written => exact absurd ⟨refusal, written, rfl⟩ hrefusal
  | unencodable encoding => rfl
  | zeroByte => rfl
  | tooManyParents => rfl

omit [Host] in
private theorem exists_accept_eq_error (h : ¬ ∀ c ∈ path.toText, Usable c) :
    ∃ fault : FileFault, accept path = .error fault ∧ ¬ fault.IsRefusal := by
  rcases accept_of_not_usable h with haccept | ⟨encoding, haccept⟩
  · exact ⟨_, haccept, nofun⟩
  · exact ⟨_, haccept, nofun⟩

end Requests

end FileTree

namespace Export

/-! ## Declared errors -/

/-- The error for a step of a report: what failed on a tree, at which path, and for which reason. -/
inductive Declared [Host] (r : Record) (s : Settings) (directory : FilePath) (kind : Report)
    (tree : FileTree) : ExportFault → Prop
  | directory {fault : FileFault} {made : FileTree}
      (hensure : tree.ensureDir s.dirMode directory = (.error fault, made))
      (hrefusal : fault.IsRefusal) :
      Declared r s directory kind tree (.failed .directory directory (.file fault))
  | serialization {fault : Utf8.EncodingFault} {made : FileTree}
      (hensure : tree.ensureDir s.dirMode directory = (.ok (), made))
      (hencode : Utf8.encode (kind.content r s) = .error fault) :
      Declared r s directory kind tree
        (.failed .serialization (target directory kind) (.encoding fault))
  | writing {fault : FileFault} {made : FileTree} {bytes : List UInt8}
      (hensure : tree.ensureDir s.dirMode directory = (.ok (), made))
      (hencode : Utf8.encode (kind.content r s) = .ok bytes)
      (hwrite : made.writeFile s.fileMode (target directory kind) bytes = .error fault)
      (hrefusal : fault.IsRefusal) :
      Declared r s directory kind tree (.failed .writing (target directory kind) (.file fault))

theorem fileFault_of_isRefusal {fault : FileFault} (h : fault.IsRefusal) (step : ExportStep)
    (path : FilePath) : fileFault step path fault = .failed step path (.file fault) := by
  obtain ⟨refusal, written, rfl⟩ := h
  rfl

private theorem usable_target {directory : FilePath} (h : ∀ c ∈ directory.toText, FileTree.Usable c)
    (kind : Report) : ∀ c ∈ (target directory kind).toText, FileTree.Usable c := by
  rw [FileTree.usable_toText_iff] at h ⊢
  rw [parts_target]
  intro part hpart
  rcases List.mem_append.mp hpart with hpart | hpart
  · exact h part hpart
  · obtain rfl := List.mem_singleton.mp hpart
    exact usable_fileName kind

section Errors

variable [Host] {r : Record} {s : Settings} {directory : FilePath} {kind : Report}

/-- A report into a directory whose path can be used fails with the error for one of its steps,
unless too many directories are missing. -/
theorem outcome_declared {tree after : FileTree} {fault : ExportFault}
    (husable : ∀ c ∈ directory.toText, FileTree.Usable c)
    (h : outcome s directory (target directory kind) (kind.content r s) tree =
      (.error fault, after)) :
    Declared r s directory kind tree fault ∨
      tree.ensureDir s.dirMode directory = (.error .tooManyParents, tree) ∧
        Host.room .directories ≤ directory.parts.length := by
  unfold outcome at h
  split at h
  · rename_i refused made hensure
    rcases FileTree.ensureWithin_isRefusal husable hensure with hrefusal | ⟨rfl, rfl, hroom⟩
    · rw [fileFault_of_isRefusal hrefusal] at h
      cases h
      exact .inl (.directory hensure hrefusal)
    · exact .inr ⟨hensure, hroom⟩
  · rename_i made hensure
    split at h
    · rename_i encoding hencode
      cases h
      exact .inl (.serialization hensure hencode)
    · rename_i bytes hencode
      split at h
      · rename_i refused hwrite
        have hrefusal := FileTree.writeFile_isRefusal (usable_target husable kind) hwrite
        rw [fileFault_of_isRefusal hrefusal] at h
        cases h
        exact .inl (.writing hensure hencode hwrite hrefusal)
      · cases h

private theorem outcome_of_run_report_eq_error {w after : Workspace} {fault : ExportFault}
    (h : (report r s kind directory kind.fileName).run.run w = (.error fault, after)) :
    ∃ made, outcome s directory (target directory kind) (kind.content r s) w.tree =
      (.error fault, made) := by
  obtain ⟨log, hrun⟩ := run_report_outcome r s kind directory kind.fileName w
  rw [← target, h] at hrun
  cases hresult : outcome s directory (target directory kind) (kind.content r s) w.tree with
  | mk result made =>
    rw [hresult] at hrun
    cases result with
    | ok _ => cases hrun
    | error other => cases hrun; exact ⟨made, rfl⟩

theorem reaches_of_run_report_eq_ok {w after : Workspace} {path : FilePath}
    (h : (report r s kind directory kind.fileName).run.run w = (.ok path, after)) :
    ∃ l, after.tree.Reaches directory l := by
  obtain ⟨log, hrun⟩ := run_report_outcome r s kind directory kind.fileName w
  rw [← target, h] at hrun
  cases hresult : outcome s directory (target directory kind) (kind.content r s) w.tree with
  | mk result done =>
    rw [hresult] at hrun
    cases result with
    | error fault => cases hrun
    | ok _ =>
      obtain ⟨-, rfl⟩ := Prod.mk.inj hrun
      unfold outcome at hresult
      split at hresult
      · cases hresult
      · rename_i made hensure
        split at hresult
        · cases hresult
        · split at hresult
          · cases hresult
          · rename_i tree hwrite
            cases hresult
            obtain ⟨l, hreaches⟩ := FileTree.reaches_of_ensureDir hensure
            obtain ⟨_, hwrote⟩ := FileTree.writeFile_eq_ok _ _ _ hwrite
            exact ⟨l, hreaches.grow hwrote.grows⟩

private theorem reaches_of_run_reports_eq_ok {kinds : List Report} (hkinds : kinds ≠ [])
    {w after : Workspace} {paths : List FilePath}
    (h : (reports r s directory kinds).run.run w = (.ok paths, after)) :
    ∃ l, after.tree.Reaches directory l := by
  induction kinds generalizing w paths with
  | nil => exact absurd rfl hkinds
  | cons kind rest ih =>
    rw [reports, run_bind] at h
    cases hfirst : (report r s kind directory kind.fileName).run.run w with
    | mk result mid =>
      cases result with
      | error fault =>
        simp only [hfirst] at h
        cases h
      | ok path =>
        simp only [hfirst] at h
        rw [run_bind] at h
        cases hrest : (reports r s directory rest).run.run mid with
        | mk result last =>
          cases result with
          | error fault =>
            simp only [hrest] at h
            cases h
          | ok others =>
            simp only [hrest] at h
            obtain ⟨-, rfl⟩ := Prod.mk.inj h
            cases rest with
            | nil =>
              obtain ⟨-, rfl⟩ := Prod.mk.inj hrest
              exact reaches_of_run_report_eq_ok hfirst
            | cons _ _ => exact ih (List.cons_ne_nil _ _) hrest

/-- The export ends as it should: it returns the paths of all reports, or it fails with the error
for a step of one of them, after those before it have been written. -/
def EndsDeclared (r : Record) (s : Settings) (directory : FilePath) (w : Workspace) : Prop :=
  (∃ after, (all r s directory).run.run w =
    (.ok (Report.all.map (target directory)), after)) ∨
  ∃ written kind later mid fault after, Report.all = written ++ kind :: later ∧
    (reports r s directory written).run.run w = (.ok (written.map (target directory)), mid) ∧
    (all r s directory).run.run w = (.error fault, after) ∧
    Declared r s directory kind mid.tree fault

theorem run_all_of_ensureDir_eq_error (r : Record) {w : Workspace} {fault : FileFault}
    (hensure : w.tree.ensureDir s.dirMode directory = (.error fault, w.tree))
    (hrefusal : ¬ fault.IsRefusal) :
    (all r s directory).run.run w = (.error (.unusablePath fault), w) := by
  have hprepare : (prepare s directory).run.run w = (.error (.unusablePath fault), w) := by
    rw [prepare, run_bind, run_get]
    simp only [hensure]
    cases fault with
    | refused refusal written => exact absurd ⟨refusal, written, rfl⟩ hrefusal
    | unencodable encoding => rfl
    | zeroByte => rfl
    | tooManyParents => rfl
  apply run_reports_cons_of_error
  rw [report, run_bind, hprepare]

/-- Too many directories can be missing only before the first report, so that nothing is written and
nothing is logged then. -/
theorem endsDeclared_of_usable (r : Record) (s : Settings) (w : Workspace)
    (husable : ∀ c ∈ directory.toText, FileTree.Usable c) :
    EndsDeclared r s directory w ∨
      (all r s directory).run.run w = (.error (.unusablePath .tooManyParents), w) ∧
        Host.room .directories ≤ directory.parts.length := by
  have hleaves := all_leaves r s directory w
  split at hleaves
  · rename_i paths after hrun
    obtain ⟨rfl, -⟩ := hleaves
    exact .inl (.inl ⟨after, hrun⟩)
  · rename_i fault after hrun
    obtain ⟨written, kind, later, mid, hall, hdone, hfail, -⟩ := hleaves
    obtain ⟨made, houtcome⟩ := outcome_of_run_report_eq_error hfail
    rcases outcome_declared husable houtcome with hdeclared | ⟨hensure, hroom⟩
    · exact .inl (.inr ⟨written, kind, later, mid, fault, after, hall, hdone, hrun, hdeclared⟩)
    · by_cases hwritten : written = []
      · subst hwritten
        obtain ⟨-, rfl⟩ := Prod.mk.inj hdone
        exact .inr ⟨run_all_of_ensureDir_eq_error r hensure nofun, hroom⟩
      · obtain ⟨l, hreaches⟩ := reaches_of_run_reports_eq_ok hwritten hdone
        rw [hreaches.ensureDir s.dirMode] at hensure
        cases hensure

end Errors

/-- An export ends as it should unless the path of its directory holds a zero byte or half of a
surrogate pair that stands for nothing, or has so many parts that it may not be possible to make
them all. With a zero byte it never does: it fails with an error that names neither a step nor a
report. Whenever it does not end as it should it leaves everything as it was. -/
theorem all_endsDeclared [Host] (r : Record) (s : Settings) (directory : FilePath)
    (w : Workspace) :
    (EndsDeclared r s directory w ∧ CodePoint.char '\x00' ∉ directory.toText) ∨
      ∃ fault, (all r s directory).run.run w = (.error (.unusablePath fault), w) ∧
        ((∃ c ∈ directory.toText, FileTree.isWritable c = false) ∨
          CodePoint.char '\x00' ∈ directory.toText ∨
          fault = .tooManyParents ∧ Host.room .directories ≤ directory.parts.length) := by
  by_cases husable : ∀ c ∈ directory.toText, FileTree.Usable c
  · have hzero := ((FileTree.forall_usable_iff _).mp husable).2
    rcases endsDeclared_of_usable r s w husable with hends | ⟨hrun, hroom⟩
    · exact .inl ⟨hends, hzero⟩
    · exact .inr ⟨_, hrun, .inr (.inr ⟨rfl, hroom⟩)⟩
  · obtain ⟨fault, haccept, hrefusal⟩ := FileTree.exists_accept_eq_error husable
    have hensure := FileTree.ensureDir_of_accept_eq_error w.tree s.dirMode haccept hrefusal
    refine .inr ⟨fault, run_all_of_ensureDir_eq_error r hensure hrefusal, ?_⟩
    rw [FileTree.forall_usable_iff, not_and_or, not_not] at husable
    rcases husable with hwritable | hzero
    · obtain ⟨c, hc, hfalse⟩ : ∃ c ∈ directory.toText, FileTree.isWritable c = false := by
        simpa using hwritable
      exact .inl ⟨c, hc, hfalse⟩
    · exact .inr (.inl hzero)

open scoped Host in
/-- A zero byte in the name of the directory is not answered with an error for the directory. -/
theorem zeroByte_not_endsDeclared :
    (all bare .standard (directory .standard (some "a\x00"))).run.run ⟨⟨[]⟩, []⟩ =
        (.error (.unusablePath .zeroByte), ⟨⟨[]⟩, []⟩) ∧
      ¬ EndsDeclared bare .standard (directory .standard (some "a\x00")) ⟨⟨[]⟩, []⟩ := by
  have hrun : (all bare .standard (directory .standard (some "a\x00"))).run.run ⟨⟨[]⟩, []⟩ =
      (.error (.unusablePath .zeroByte), ⟨⟨[]⟩, []⟩) :=
    run_all_of_ensureDir_eq_error bare
      (FileTree.ensureDir_of_accept_eq_error _ _ rfl nofun) nofun
  refine ⟨hrun, ?_⟩
  intro hends
  rcases hends with ⟨after, hok⟩ |
    ⟨written, kind, later, mid, fault, after, -, -, herror, hdeclared⟩
  · rw [hrun] at hok
    cases hok
  · rw [hrun] at herror
    cases herror
    cases hdeclared

end Export

end ConversionCoverage

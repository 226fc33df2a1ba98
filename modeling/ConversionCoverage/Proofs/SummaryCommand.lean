import ConversionCoverage.Proofs.ControlSequence
import ConversionCoverage.Proofs.ExportCommand
import ConversionCoverage.Proofs.ExportFaults

/-!
# The command that shows a digest

The command puts the digest of a record on the output, which is what an export of the record writes
into the file of the digest, but that control sequences come through to a terminal only. Both have
to encode it. An export that cannot complains, as it does about any report that fails, and so does
the command that asks for it; the command on the digest is ended by the fault.
-/

namespace ConversionCoverage

deriving instance DecidableEq for Record

section Host

variable [Host]

namespace Export

theorem digest_of_run {r : Record} {s : Settings} {directory : FilePath} {w after : Workspace}
    {paths : List FilePath} (h : (all r s directory).run.run w = (.ok paths, after)) :
    ∃ bytes, Utf8.encode r.digest = .ok bytes ∧
      after.tree.readFile (target directory .digest) = .ok bytes :=
  (leaves_of_run h).reports .digest (by decide)

end Export

theorem Session.run_bind_of_complained {α β : Type} {x : Session α} {message : Text}
    {t after : Terminal} (h : x.run.run t = complained message after) (f : α → Session β) :
    (x >>= f).run.run t = complained message after := by
  rw [run_bind, h, complained, complained]
  generalize errorLine message = text
  cases Host.console text <;> rfl

namespace Command

omit [Host] in
private theorem ofArguments?_summary (path : Text) :
    ofArguments? [("summary" : Text), "--", path] = some (.summary path) := by
  have hgeneral : Options.general.readAll false [("summary" : Text), "--", path] =
      some ⟨[], [("summary" : Text), "--", path]⟩ := by
    rw [Options.readAll, if_neg (by decide), if_neg (by decide), if_neg (by decide)]
  have hsummary : Options.forSummary.readAll true [("--" : Text), path] = some ⟨[], [path]⟩ := by
    rw [Options.readAll, if_pos rfl]
  rw [ofArguments?, hgeneral]
  show ofSummaryArguments? [("--" : Text), path] = _
  rw [ofSummaryArguments?, hsummary]
  rfl

/-! ## The command that exports such a record -/

private theorem run_exportAll_of_failed {r : Record} {s : Settings} {directory : FilePath}
    {t : Terminal} {step : ExportStep} {path : FilePath} {cause : ExportCause} {w : Workspace}
    (h : (Export.all r s directory).run.run t.workspace = (.error (.failed step path cause), w)) :
    (Session.exportAll r s directory).run.run t = Session.complained
      (ExportFault.failed step path cause).message { t with workspace := w } := by
  rw [run_exportAll_eq, h]

section Exported

variable {request : ExportRequest} {tree : FileTree} {s : Settings} {r : Record}
  {directory : FilePath}
  (hsettings : settingsOf tree request.config = .ok s)
  (hrecord : Record.load tree request.record = .ok r)
  (hdirectory : Export.directory (ExportRequest.apply request s) request.output = directory)
include hsettings hrecord hdirectory

theorem runOn_exportRecord_of_failed {step : ExportStep} {path : FilePath} {cause : ExportCause}
    {w : Workspace}
    (hpanel : Session.verdict (panelMarkup request.record directory) = .ok ())
    (hexport : (Export.all r (ExportRequest.apply request s) directory).run.run ⟨tree, []⟩ =
      (.error (.failed step path cause), w)) :
    ∃ shown, runOn (.exportRecord request) tree =
      Session.complained (ExportFault.failed step path cause).message ⟨w, shown, []⟩ := by
  obtain ⟨shown, hrun⟩ := runOn_exportRecord_panel hsettings hrecord hdirectory
  refine ⟨shown, ?_⟩
  rw [hrun, hpanel]
  simp only
  exact Session.run_bind_of_complained (run_exportAll_of_failed hexport) _

/-- A record with a digest that cannot be encoded makes the command on exports complain. -/
theorem exportRecord_of_encode_digest {fault : Utf8.EncodingFault}
    (hpanel : Session.verdict (panelMarkup request.record directory) = .ok ())
    (husable : ∀ c ∈ directory.toText, FileTree.Usable c)
    (hroom : directory.parts.length < Host.room .directories)
    (hencode : Utf8.encode r.digest = .error fault) :
    ∃ message t, runOn (.exportRecord request) tree = Session.complained message t := by
  have hends := Export.endsDeclared_of_usable r (ExportRequest.apply request s) ⟨tree, []⟩ husable
  rcases hends with (⟨after, hok⟩ |
    ⟨written, kind, later, mid, failed, after, -, -, herror, hdeclared⟩) | ⟨-, hfew⟩
  · obtain ⟨bytes, hbytes, -⟩ := Export.digest_of_run hok
    rw [hencode] at hbytes
    cases hbytes
  · have hfailed : ∃ step path cause, failed = .failed step path cause := by
      cases hdeclared <;> exact ⟨_, _, _, rfl⟩
    obtain ⟨step, path, cause, rfl⟩ := hfailed
    obtain ⟨shown, hrun⟩ :=
      runOn_exportRecord_of_failed hsettings hrecord hdirectory hpanel herror
    exact ⟨_, _, hrun⟩
  · exact absurd hroom (Nat.not_lt_of_le hfew)

end Exported

/-! ## The command that shows the digest -/

/-- What comes through to the output. -/
def echoed (t : Text) : Text := if Host.isTerminal then t else ControlSequence.strip t

theorem hasHalf_echoed (t : Text) : (echoed t).HasHalf ↔ t.HasHalf := by
  rw [echoed]
  split
  · rfl
  · exact ControlSequence.hasHalf_strip t

private theorem echoed_eq_self_iff (t : Text) :
    echoed t = t ↔ Host.isTerminal = true ∨ ¬ ControlSequence.HasSequence t := by
  rw [echoed]
  by_cases h : Host.isTerminal = true
  · rw [if_pos h]
    exact iff_of_true rfl (.inl h)
  · rw [if_neg h, or_iff_right h]
    exact ControlSequence.strip_eq_self_iff t

theorem runOn_summary {tree : FileTree} {path : Text} {r : Record}
    (h : Record.load tree path = .ok r) : runOn (.summary path) tree =
      match Utf8.encode (echoed r.digest) with
      | .ok _ => (.ok (), ⟨⟨tree, []⟩, [], echoed r.digest⟩)
      | .error fault => (.error (.fault (.encoding fault)), ⟨⟨tree, []⟩, [], []⟩) := by
  have hstart : runOn (.summary path) tree = (runSummary path).run.run ⟨⟨tree, []⟩, [], []⟩ := rfl
  rw [hstart, runSummary, run_bind, Session.run_loadRecord_of_ok (t := ⟨⟨tree, []⟩, [], []⟩) h]
  simp only
  rw [Session.echo, ← echoed]
  cases Utf8.encode (echoed r.digest) <;> rfl

/-- On a record that can be loaded the command either ends with the digest on its output, which is
then what each export of the record that returns leaves in the file of the digest; or the digest
cannot be encoded, because of the provider or of a language, no export of the record returns, and
the command shows nothing and is ended by the fault. The digest comes through to the output as it is
if and only if this is a terminal or there is no control sequence in it. -/
theorem summary_of_load {tree : FileTree} {path : Text} {r : Record}
    (h : Record.load tree path = .ok r) :
    ofArguments? [("summary" : Text), "--", path] = some (.summary path) ∧
    (echoed r.digest = r.digest ↔
      Host.isTerminal = true ∨ ¬ ControlSequence.HasSequence r.digest) ∧
    ((∃ bytes, (¬ r.provider.HasHalf ∧ ∀ a ∈ r.conversions, ¬ a.language.HasHalf) ∧
      runOn (.summary path) tree = (.ok (), ⟨⟨tree, []⟩, [], echoed r.digest⟩) ∧
      Utf8.encode r.digest = .ok bytes ∧
      ∀ s directory w paths after,
        (Export.all r s directory).run.run w = (.ok paths, after) →
          after.tree.readFile (Export.target directory .digest) = .ok bytes) ∨
    ∃ fault, (r.provider.HasHalf ∨ ∃ a ∈ r.conversions, a.language.HasHalf) ∧
      runOn (.summary path) tree = (.error (.fault (.encoding fault)), ⟨⟨tree, []⟩, [], []⟩) ∧
      Utf8.encode (echoed r.digest) = .error fault ∧
      ∀ s directory w paths after,
        (Export.all r s directory).run.run w ≠ (.ok paths, after)) := by
  refine ⟨ofArguments?_summary path, echoed_eq_self_iff _, ?_⟩
  have hrun := runOn_summary h
  by_cases hhalf : r.digest.HasHalf
  · obtain ⟨fault, hencode⟩ := Utf8.exists_encode_eq_error ((hasHalf_echoed _).mpr hhalf)
    rw [hencode] at hrun
    refine .inr ⟨fault, r.hasHalf_digest.mp hhalf, hrun, hencode, ?_⟩
    intro s directory w paths after hexport
    obtain ⟨bytes, hbytes, -⟩ := Export.digest_of_run hexport
    obtain ⟨fault, hfault⟩ := Utf8.exists_encode_eq_error hhalf
    cases hfault.symm.trans hbytes
  · obtain ⟨bytes, hencode⟩ := Utf8.exists_encode_eq_ok hhalf
    obtain ⟨written, hechoed⟩ := Utf8.exists_encode_eq_ok (mt (hasHalf_echoed _).mp hhalf)
    rw [hechoed] at hrun
    have hwhole : ¬ r.provider.HasHalf ∧ ∀ a ∈ r.conversions, ¬ a.language.HasHalf := by
      rw [r.hasHalf_digest, not_or, not_exists] at hhalf
      simpa only [not_and] using hhalf
    refine .inl ⟨bytes, hwhole, hrun, hencode, ?_⟩
    intro s directory w paths after hexport
    obtain ⟨written, hwritten, hread⟩ := Export.digest_of_run hexport
    obtain rfl : bytes = written := Except.ok.inj (hencode.symm.trans hwritten)
    exact hread

end Command

end Host

namespace Command

open scoped Host in
theorem summary_of_load_bare : Record.load plainTree ("r.json" : Text) = .ok Export.bare ∧
    (runOn (.summary "r.json") plainTree).1 = .ok () ∧
    (runOn (.summary "r.json") plainTree).2.output = Export.bare.digest := by
  have hload : Record.load plainTree ("r.json" : Text) = .ok Export.bare :=
    load_bareFile (fun _ => rfl) rfl rfl rfl
  have hprovider : ¬ Export.bare.provider.HasHalf := Text.not_hasHalf_ofString _
  obtain ⟨-, -, hends⟩ := summary_of_load hload
  rcases hends with ⟨bytes, -, hrun, -⟩ | ⟨fault, hhalf | ⟨a, ha, -⟩, -⟩
  · have hwhole : echoed Export.bare.digest = Export.bare.digest := by decide +kernel
    rw [hrun]
    exact ⟨hload, rfl, hwhole⟩
  · exact absurd hhalf hprovider
  · rw [Export.conversions_bare] at ha
    cases ha

/-- A tree with a record whose provider has half of a pair, brought in by an escape. -/
def halvedTree : FileTree := ⟨[(["s.json"], .file 0o644
  ("\x7b\"ProviderName\": \"a\\ud800\"\x7d".toList.map fun c => UInt8.ofNat c.toNat))]⟩

def halvedProvider : Record where
  provider := .char 'a' :: (CodePoint.ofNat? 0xD800).toList
  version := []
  examples := []
  names_nodup := List.nodup_nil

open scoped Host in
/-- A record is loaded and the command on its digest is ended by a fault, where the command that
exports it complains. -/
theorem summary_unencodable :
    Record.load halvedTree ("s.json" : Text) = .ok halvedProvider ∧
    (∃ fault, runOn (.summary "s.json") halvedTree =
      (.error (.fault (.encoding fault)), ⟨⟨halvedTree, []⟩, [], []⟩)) ∧
    ∃ message t, runOn (.exportRecord (exportHere "s.json")) halvedTree =
      Session.complained message t := by
  have hload : Record.load halvedTree ("s.json" : Text) = .ok halvedProvider := by decide +kernel
  have hhalf : halvedProvider.digest.HasHalf :=
    halvedProvider.hasHalf_digest.mpr (.inl (by decide))
  obtain ⟨fault, hencode⟩ := Utf8.exists_encode_eq_error hhalf
  obtain ⟨written, hechoed⟩ := Utf8.exists_encode_eq_error ((hasHalf_echoed _).mpr hhalf)
  have hrun := runOn_summary hload
  rw [hechoed] at hrun
  have hpanel : Session.verdict (panelMarkup "s.json" ⟨0, []⟩) = .ok () := by decide
  have husable : ∀ c ∈ FilePath.toText ⟨0, []⟩, FileTree.Usable c :=
    FileTree.usable_ofString (by decide)
  have hcomplains := @exportRecord_of_encode_digest _ (exportHere "s.json") halvedTree .standard _ _
    rfl hload rfl _ hpanel husable (by decide) hencode
  exact ⟨hload, ⟨written, hrun⟩, hcomplains⟩

end Command

end ConversionCoverage

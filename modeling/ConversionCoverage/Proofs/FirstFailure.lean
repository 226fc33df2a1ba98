import ConversionCoverage.Host.Usual
import ConversionCoverage.Proofs.Encodability
import ConversionCoverage.Proofs.ReadyDirectory

/-!
# Where an export fails

In a directory that has room for all reports an export fails at the first report that shows half of
a surrogate pair, and nowhere if there is none. Where there is no such room it can fail for text
that can be encoded.
-/

namespace ConversionCoverage

namespace Export

/-- The export fails because this report cannot be encoded. -/
def FailsToEncode [Host] (r : Record) (s : Settings) (directory : FilePath) (w : Workspace)
    (kind : Report) : Prop :=
  ∃ fault after, (all r s directory).run.run w =
    (.error (.failed .serialization (target directory kind) (.encoding fault)), after)

/-- The first report that holds a half. -/
def firstWithHalf (r : Record) (s : Settings) (kinds : List Report) : Option Report :=
  kinds.find? fun kind => (kind.content r s).HasHalf

theorem firstWithHalf_cons (r : Record) (s : Settings) (kind : Report) (rest : List Report) :
    firstWithHalf r s (kind :: rest) =
      if (kind.content r s).HasHalf then some kind else firstWithHalf r s rest := by
  rw [firstWithHalf, List.find?_cons]
  by_cases hhalf : (kind.content r s).HasHalf
  · simp [hhalf]
  · simp [hhalf, firstWithHalf]

private theorem target_inj {directory : FilePath} {kind other : Report}
    (h : target directory kind = target directory other) : kind = other := by
  have hparts := congrArg FilePath.parts h
  rw [parts_target, parts_target] at hparts
  exact fileName_inj (List.singleton_inj.mp (List.append_cancel_left hparts))

section Ready

variable [Host] (r : Record) (s : Settings) {directory : FilePath} {l : Location} {made : FileTree}

theorem run_reports_of_ready (kinds : List Report) (w : Workspace)
    (hensure : w.tree.ensureDir s.dirMode directory = (.ok (), made))
    (hready : Ready directory l made) :
    (firstWithHalf r s kinds = none ∧ ∃ after, (reports r s directory kinds).run.run w =
      (.ok (kinds.map (target directory)), after)) ∨
    ∃ kind, firstWithHalf r s kinds = some kind ∧ ∃ fault after,
      (reports r s directory kinds).run.run w =
        (.error (.failed .serialization (target directory kind) (.encoding fault)), after) := by
  -- By induction on the reports: each one written leaves the directory ready for the next.
  induction kinds generalizing w made with
  | nil => exact .inl ⟨rfl, w, rfl⟩
  | cons kind rest ih =>
    rw [firstWithHalf_cons]
    rcases hready.outcome_eq s hensure kind (kind.content r s) with
      ⟨fault, hhalf, houtcome⟩ | ⟨after, hhalf, hafter, houtcome⟩
    · obtain ⟨log, hrun⟩ := run_report_of_outcome houtcome
      rw [if_pos hhalf]
      exact .inr ⟨kind, rfl, fault, _, run_reports_cons_of_error hrun⟩
    · obtain ⟨log, hrun⟩ := run_report_of_outcome houtcome
      rw [if_neg hhalf]
      rcases ih ⟨after, log⟩ (hafter.reaches.ensureDir s.dirMode) hafter with
        ⟨hnone, last, hrest⟩ | ⟨failing, hsome, fault, last, hrest⟩
      · exact .inl ⟨hnone, last, by rw [run_reports_cons hrun, hrest]; rfl⟩
      · exact .inr ⟨failing, hsome, fault, last, by rw [run_reports_cons hrun, hrest]; rfl⟩

variable {s} (w : Workspace) (hensure : w.tree.ensureDir s.dirMode directory = (.ok (), made))
  (hready : Ready directory l made)
include hensure hready

private theorem failsToEncode_iff (kind : Report) :
    FailsToEncode r s directory w kind ↔ firstWithHalf r s Report.all = some kind := by
  rw [FailsToEncode, all]
  rcases run_reports_of_ready r s Report.all w hensure hready with
    ⟨hnone, after, hrun⟩ | ⟨failing, hsome, fault, after, hrun⟩
  · rw [hnone, hrun]
    constructor
    · rintro ⟨_, _, h⟩
      cases h
    · intro h
      cases h
  · rw [hsome, hrun, Option.some.injEq]
    constructor
    · rintro ⟨_, _, h⟩
      injection h with herror
      injection herror with hfault
      injection hfault with _ htarget
      exact target_inj htarget
    · rintro rfl
      exact ⟨fault, after, rfl⟩

theorem succeeds_iff : (∃ after, (all r s directory).run.run w =
      (.ok (Report.all.map (target directory)), after)) ↔
    firstWithHalf r s Report.all = none := by
  rw [all]
  rcases run_reports_of_ready r s Report.all w hensure hready with
    ⟨hnone, after, hrun⟩ | ⟨failing, hsome, fault, after, hrun⟩
  · rw [hnone, hrun]
    exact iff_of_true ⟨after, rfl⟩ rfl
  · rw [hsome, hrun]
    constructor
    · rintro ⟨_, h⟩
      cases h
    · intro h
      cases h

end Ready

open Classical in
/-- Halves in what the report on examples shows come first, then those in the languages of
successes, and those in the name and the version of the provider last. -/
theorem firstWithHalf_all (r : Record) {s : Settings} (hindent : ¬ s.indent.HasHalf) :
    firstWithHalf r s Report.all =
      if r.ExamplesShowHalf then some .byExample
      else if r.SuccessHasHalf then some .byLanguage
      else if r.ProviderHasHalf then some .summary
      else none := by
  simp only [Report.all, firstWithHalf_cons, r.hasHalf_byExample]
  by_cases hexamples : r.ExamplesShowHalf
  · simp [hexamples]
  · have hdigest : ¬ r.SuccessHasHalf → ¬ r.ProviderHasHalf →
        ¬ (Report.digest.content r s).HasHalf := by
      intro hsuccess hprovider
      rw [Report.content, r.hasHalf_digest, r.hasHalf_language_iff hexamples]
      exact not_or.mpr ⟨fun h => hprovider (.inl h), hsuccess⟩
    simp only [hexamples, if_false, r.hasHalf_byLanguage hindent hexamples,
      r.hasHalf_summary hindent hexamples]
    by_cases hsuccess : r.SuccessHasHalf
    · simp [hsuccess]
    · by_cases hprovider : r.ProviderHasHalf
      · simp [hsuccess, hprovider]
      · simp [hsuccess, hprovider, hdigest, firstWithHalf]

/-- In a directory that can be made and then has room for each report, the text of the record alone
decides where an export fails, and it succeeds unless it fails there. -/
theorem failsToEncode_by_text [Host] (r : Record) (s : Settings) (directory : FilePath)
    (w : Workspace) (made : FileTree) (hindent : ¬ s.indent.HasHalf)
    (hensure : w.tree.ensureDir s.dirMode directory = (.ok (), made))
    (hvacant : ∀ kind l, made.find (target directory kind) = .ok l → made.isDirAt l = false)
    (hshort : ∀ kind,
      FileTree.byteLength (target directory kind).toText ≤ FileTree.maxPath) :
    (FailsToEncode r s directory w .byExample ↔ r.ExamplesShowHalf) ∧
      (FailsToEncode r s directory w .byLanguage ↔ ¬ r.ExamplesShowHalf ∧ r.SuccessHasHalf) ∧
      (FailsToEncode r s directory w .summary ↔
        ¬ r.ExamplesShowHalf ∧ ¬ r.SuccessHasHalf ∧ r.ProviderHasHalf) ∧
      ¬ FailsToEncode r s directory w .digest ∧
      ((∃ after, (all r s directory).run.run w =
          (.ok (Report.all.map (target directory)), after)) ↔
        ¬ r.ExamplesShowHalf ∧ ¬ r.SuccessHasHalf ∧ ¬ r.ProviderHasHalf) := by
  obtain ⟨l, hreaches⟩ := FileTree.reaches_of_ensureDir hensure
  have hready : Ready directory l made := ready_of_reaches hreaches hvacant hshort
  simp only [failsToEncode_iff r w hensure hready, succeeds_iff r w hensure hready,
    firstWithHalf_all r hindent]
  by_cases hexamples : r.ExamplesShowHalf
  · simp [hexamples]
  · by_cases hsuccess : r.SuccessHasHalf
    · simp [hexamples, hsuccess]
    · by_cases hprovider : r.ProviderHasHalf <;> simp [hexamples, hsuccess, hprovider]

theorem ensureDir_top [Host] (mode : Nat) :
    FileTree.ensureDir ⟨[]⟩ mode ⟨0, []⟩ = (.ok (), ⟨[]⟩) := by
  obtain ⟨room, hroom⟩ := FileTree.exists_ensureWithin
  rw [hroom]
  rfl

theorem vacant_top (kind : Report) (l : Location)
    (h : FileTree.find ⟨[]⟩ (target ⟨0, []⟩ kind) = .ok l) : FileTree.isDirAt ⟨[]⟩ l = false := by
  cases kind <;> cases h

theorem short_top (kind : Report) :
    FileTree.byteLength (target ⟨0, []⟩ kind).toText ≤ FileTree.maxPath := by
  cases kind <;> decide

theorem ready_top : Ready ⟨0, []⟩ [] ⟨[]⟩ :=
  ready_of_reaches ⟨rfl, rfl⟩ vacant_top short_top

/-- A record with one attempt, which succeeded, with halves in its language and in its detail. -/
def halved : Record where
  provider := "p"
  version := "1"
  examples := [⟨"a", [.half 2], [⟨[.half 0], .success, [.half 1], false⟩]⟩]
  names_nodup := List.nodup_singleton _

open scoped Host in
theorem failsToEncode_by_text_halved :
    ¬ halved.ExamplesShowHalf ∧
      FailsToEncode halved .standard ⟨0, []⟩ ⟨⟨[]⟩, []⟩ .byLanguage := by
  have hshows : ¬ Example.ShowsHalf ⟨"a", [.half 2], [⟨[.half 0], .success, [.half 1], false⟩]⟩ := by
    rintro (hname | ⟨hfailures, -⟩)
    · exact Text.not_hasHalf_ofString _ hname
    · cases hfailures
  have hexamples : ¬ halved.ExamplesShowHalf := by
    rintro ⟨-, (hprovider | hversion) | ⟨e, he, hhalf⟩⟩
    · exact Text.not_hasHalf_ofString _ hprovider
    · exact Text.not_hasHalf_ofString _ hversion
    · obtain rfl := List.mem_singleton.mp he
      exact hshows hhalf
  have hsuccess : halved.SuccessHasHalf :=
    ⟨_, List.mem_singleton_self _, _, List.mem_singleton_self _, rfl, 0, List.mem_singleton_self _⟩
  refine ⟨hexamples, ?_⟩
  exact (failsToEncode_by_text halved .standard ⟨0, []⟩ ⟨⟨[]⟩, []⟩ ⟨[]⟩
    (Text.not_hasHalf_ofString _) (ensureDir_top _) vacant_top short_top).2.1.mpr
      ⟨hexamples, hsuccess⟩

/-! ## Reports that can be encoded and not written -/

theorem run_all_refused [Host] {r : Record} {s : Settings} {directory : FilePath} {w : Workspace}
    {made : FileTree} {bytes : List UInt8} {refusal : FileTree.Refusal} {written : Text}
    (hensure : w.tree.ensureDir s.dirMode directory = (.ok (), made))
    (hencode : Utf8.encode (Report.byExample.content r s) = .ok bytes)
    (hwrite : made.writeFile s.fileMode (target directory .byExample) bytes =
      .error (.refused refusal written)) :
    ∃ cause after, (all r s directory).run.run w =
      (.error (.failed .writing (target directory .byExample) cause), after) := by
  have houtcome : outcome s directory (target directory .byExample)
      (Report.byExample.content r s) w.tree =
        (.error (.failed .writing (target directory .byExample) (.file (.refused refusal written))),
          made) := by
    simp only [outcome, hensure, hencode, hwrite]
    rfl
  obtain ⟨log, hrun⟩ := run_report_of_outcome houtcome
  exact ⟨_, _, run_reports_cons_of_error hrun⟩

/-- A record of a provider without examples. -/
def bare : Record where
  provider := "p"
  version := "1"
  examples := []
  names_nodup := List.nodup_nil

theorem sortedExamples_bare : bare.sortedExamples = [] := List.mergeSort_nil

theorem conversions_bare : bare.conversions = [] := by
  rw [Record.conversions, sortedExamples_bare]
  rfl

theorem encode_bare (s : Settings) : Utf8.encode (Report.byExample.content bare s) = .ok [] := by
  rw [Report.content, Record.exampleReports, sortedExamples_bare]
  rfl

theorem succeeds_bare [Host] {s : Settings} (hindent : ¬ s.indent.HasHalf) {directory : FilePath}
    {w : Workspace} {made : FileTree} {l : Location}
    (hensure : w.tree.ensureDir s.dirMode directory = (.ok (), made))
    (hready : Ready directory l made) : ∃ after, (all bare s directory).run.run w =
      (.ok (Report.all.map (target directory)), after) := by
  apply (succeeds_iff bare w hensure hready).mpr
  have hprovider : ¬ bare.ProviderHasHalf :=
    not_or.mpr ⟨Text.not_hasHalf_ofString _, Text.not_hasHalf_ofString _⟩
  have hshows : ¬ bare.ExamplesShowHalf := fun h => h.1 rfl
  have hsuccess : ¬ bare.SuccessHasHalf := by simp [Record.SuccessHasHalf, bare]
  rw [firstWithHalf_all _ hindent, if_neg hshows, if_neg hsuccess, if_neg hprovider]

/-- A way that leads through the place of a report. -/
def throughReport : FilePath := ⟨0, ["x", "byExample.json", ".."]⟩

theorem ensureDir_throughReport [Host] : FileTree.ensureDir ⟨[]⟩ 0o700 throughReport =
    (.ok (), ⟨[(["x"], .dir (FileTree.granted FileTree.usualDirMode)),
      (["x", "byExample.json"], .dir (FileTree.granted FileTree.usualDirMode))]⟩) := by
  obtain ⟨room, hroom⟩ := FileTree.exists_ensureWithin
  have htop : FileTree.ensureWithin (room + 14) ⟨[]⟩ FileTree.usualDirMode ⟨0, ["x"]⟩ =
      (.ok (), ⟨[(["x"], .dir (FileTree.granted FileTree.usualDirMode))]⟩) := rfl
  have hreport : FileTree.ensureWithin (room + 15) ⟨[]⟩ FileTree.usualDirMode
      ⟨0, ["x", "byExample.json"]⟩ =
        (.ok (), ⟨[(["x"], .dir (FileTree.granted FileTree.usualDirMode)),
          (["x", "byExample.json"], .dir (FileTree.granted FileTree.usualDirMode))]⟩) :=
    (FileTree.ensureWithin_of_absent rfl (by decide) htop).trans rfl
  rw [hroom]
  exact (FileTree.ensureWithin_of_absent rfl (by decide) hreport).trans rfl

/-- The parts of a way that leads into a directory and out again, `n` times. -/
def rounds (n : Nat) : List Text := (List.replicate n [("a" : Text), ".."]).flatten

theorem rounds_succ (n : Nat) : rounds (n + 1) = [("a" : Text), ".."] ++ rounds n := rfl

/-- A way that turns so often that its path leaves no room for that of a report. -/
def winding : FilePath := ⟨0, rounds 818 ++ [("a" : Text)]⟩

/-- A tree with the one directory of the winding way. -/
def wound : FileTree := ⟨[(["a"], .dir 0o755)]⟩

private theorem walk_rounds (n : Nat) : wound.walk [] (rounds n ++ [("a" : Text)]) = .ok ["a"] := by
  induction n with
  | zero => rfl
  | succ n ih =>
    rw [rounds_succ]
    exact ih

private theorem usable_rounds (n : Nat) : ∀ part ∈ rounds n, ∀ c ∈ part, FileTree.Usable c := by
  induction n with
  | zero => exact nofun
  | succ n ih =>
    intro part hpart
    simp only [rounds_succ, List.cons_append, List.nil_append, List.mem_cons] at hpart
    rcases hpart with rfl | rfl | hpart
    · exact FileTree.usable_ofString (by decide)
    · exact FileTree.usable_ofString (by decide)
    · exact ih part hpart

theorem byteLength_rounds (n : Nat) {last : List Text} (h : last ≠ []) :
    FileTree.byteLength (Text.join "/" (rounds n ++ last)) =
      5 * n + FileTree.byteLength (Text.join "/" last) := by
  induction n with
  | zero => simp [rounds]
  | succ n ih =>
    have hne : rounds n ++ last ≠ [] := by simp [h]
    obtain ⟨first, more, hrest⟩ := List.exists_cons_of_ne_nil hne
    have hjoin : Text.join "/" (rounds (n + 1) ++ last) =
        "a/../" ++ Text.join "/" (rounds n ++ last) := by
      rw [rounds_succ, List.append_assoc, hrest]
      rfl
    have hround : FileTree.byteLength "a/../" = 5 := by decide
    rw [hjoin, FileTree.byteLength_append, ih, hround]
    omega

theorem toText_rounds {path : FilePath} {n : Nat} {last : List Text} (h : last ≠ [])
    (hpath : path = ⟨0, rounds n ++ last⟩) : path.toText = Text.join "/" (rounds n ++ last) := by
  subst hpath
  simp [FilePath.toText, h, Text.repeated]

theorem usable_toText_rounds {path : FilePath} {n : Nat} {last : List Text}
    (hpath : path = ⟨0, rounds n ++ last⟩)
    (hlast : ∀ part ∈ last, ∀ c ∈ part, FileTree.Usable c) :
    ∀ c ∈ path.toText, FileTree.Usable c := by
  rw [FileTree.usable_toText_iff, hpath]
  intro part hpart
  rcases List.mem_append.mp hpart with hpart | hpart
  · exact usable_rounds n part hpart
  · exact hlast part hpart

theorem ensureDir_winding [Host] (mode : Nat) :
    wound.ensureDir mode winding = (.ok (), wound) := by
  have hne : [("a" : Text)] ≠ [] := by simp
  have haccept : ∃ written, FileTree.accept winding = .ok written := by
    rw [FileTree.accept_eq_ok_iff]
    refine ⟨usable_toText_rounds (rfl : winding = ⟨0, rounds 818 ++ [("a" : Text)]⟩) ?_, ?_⟩
    · intro part hpart
      obtain rfl := List.mem_singleton.mp hpart
      exact FileTree.usable_ofString (by decide)
    · rw [toText_rounds hne (rfl : winding = ⟨0, rounds 818 ++ [("a" : Text)]⟩),
        byteLength_rounds 818 hne]
      decide
  have hreaches : wound.Reaches winding ["a"] :=
    ⟨(FileTree.find_eq_ok_iff _ _ _).mpr ⟨haccept, walk_rounds 818⟩, rfl⟩
  exact hreaches.ensureDir mode

theorem accept_target_winding (kind : Report) : ∃ written,
    FileTree.accept (target winding kind) = .error (.refused .nameTooLong written) := by
  have hne : [("a" : Text), kind.fileName] ≠ [] := by simp
  have hpath : target winding kind = ⟨0, rounds 818 ++ [("a" : Text), kind.fileName]⟩ := by
    rw [target_eq, winding, List.append_assoc]
    rfl
  have husable : ∀ c ∈ (target winding kind).toText, FileTree.Usable c := by
    apply usable_toText_rounds hpath
    intro part hpart
    simp only [List.mem_cons, List.not_mem_nil, or_false] at hpart
    rcases hpart with rfl | rfl
    · exact FileTree.usable_ofString (by decide)
    · exact usable_fileName kind
  have hlong : FileTree.maxPath < FileTree.byteLength (target winding kind).toText := by
    rw [toText_rounds hne hpath, byteLength_rounds 818 hne]
    cases kind <;> decide
  exact ⟨_, by rw [FileTree.accept_of_usable husable, if_pos hlong]⟩

open scoped Host in
/-- An export can fail although all its text can be encoded and its directory can be made, and
although no report stands at the place of a directory: the way to the directory may be made through
that place, and the path of a report may be longer than a path can be. -/
theorem encodable_fails_in_writing :
    (¬ bare.ExamplesShowHalf ∧ ¬ bare.SuccessHasHalf ∧ ¬ bare.ProviderHasHalf) ∧
      ((∃ made, FileTree.ensureDir ⟨[]⟩ 0o700 throughReport = (.ok (), made)) ∧
        (∀ kind l, FileTree.find ⟨[]⟩ (target throughReport kind) ≠ .ok l) ∧
        ∃ cause after, (all bare .standard throughReport).run.run ⟨⟨[]⟩, []⟩ =
          (.error (.failed .writing (target throughReport .byExample) cause), after)) ∧
      (∃ made, wound.ensureDir 0o700 winding = (.ok (), made)) ∧
      (∀ kind l, wound.find (target winding kind) ≠ .ok l) ∧
      ∃ cause after, (all bare .standard winding).run.run ⟨wound, []⟩ =
        (.error (.failed .writing (target winding .byExample) cause), after) := by
  refine ⟨⟨?_, ?_, ?_⟩, ⟨⟨_, ensureDir_throughReport⟩, ?_, ?_⟩, ⟨_, ensureDir_winding _⟩, ?_, ?_⟩
  · exact fun h => h.1 rfl
  · rintro ⟨e, he, -⟩
    cases he
  · exact not_or.mpr ⟨Text.not_hasHalf_ofString _, Text.not_hasHalf_ofString _⟩
  · intro kind l
    cases kind <;> exact nofun
  · exact run_all_refused ensureDir_throughReport (encode_bare .standard) rfl
  · intro kind l hfind
    obtain ⟨written, haccept⟩ := accept_target_winding kind
    rw [FileTree.find, haccept] at hfind
    cases hfind
  · obtain ⟨written, haccept⟩ := accept_target_winding .byExample
    apply run_all_refused
    · exact ensureDir_winding _
    · exact encode_bare .standard
    · rw [FileTree.writeFile, haccept]
      rfl

end Export

end ConversionCoverage

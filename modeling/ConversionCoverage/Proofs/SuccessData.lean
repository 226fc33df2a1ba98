import ConversionCoverage.Host.Usual
import ConversionCoverage.Proofs.Redaction
import Mathlib.Data.List.Forall2

/-!
# Successes keep their data to themselves

The details of attempts that succeeded, and the sources of examples without a failure, are in no
report. Records that differ in nothing else cannot be told apart by their reports, nor by what their
exports leave behind.
-/

namespace ConversionCoverage

theorem map_eq_of_forall₂ {α β γ : Type} {R : α → β → Prop} {xs : List α} {ys : List β}
    (h : List.Forall₂ R xs ys) {f : α → γ} {g : β → γ} (hfg : ∀ x y, R x y → f x = g y) :
    xs.map f = ys.map g := by
  induction h with
  | nil => rfl
  | cons hxy _ ih => rw [List.map_cons, List.map_cons, hfg _ _ hxy, ih]

/-- Two attempts that differ at most in their details, and only if they succeeded. -/
structure Attempt.EqButSuccess (a b : Attempt) : Prop where
  language : a.language = b.language
  severity : a.severity = b.severity
  multiple : a.multiple = b.multiple
  detail : a.succeeded = false → a.detail = b.detail

/-- Two examples that differ at most in the details of successes and, if all attempts succeeded,
in their sources. -/
structure Example.EqButSuccess (e f : Example) : Prop where
  name : e.name = f.name
  source : e.hasFailures = true → e.source = f.source
  attempts : List.Forall₂ Attempt.EqButSuccess e.attempts f.attempts

/-- Two records whose examples, one by one, differ in no more than that. -/
structure Record.EqButSuccess (r r' : Record) : Prop where
  provider : r.provider = r'.provider
  version : r.version = r'.version
  examples : List.Forall₂ Example.EqButSuccess r.examples r'.examples

theorem Attempt.EqButSuccess.redacted_eq {a b : Attempt} (h : a.EqButSuccess b) :
    a.redacted = b.redacted := by
  have hsucceeded : a.succeeded = b.succeeded := by rw [succeeded, succeeded, h.severity]
  have hdetail : (if a.succeeded then [] else a.detail) = if b.succeeded then [] else b.detail := by
    rw [← hsucceeded]
    cases ha : a.succeeded with
    | true => rfl
    | false => exact h.detail ha
  rw [redacted, redacted, hdetail, h.language, h.severity, h.multiple]

namespace Example

/-- The example without what is not heard of it. -/
def redacted (e : Example) : Example where
  name := e.name
  source := if e.hasFailures then e.source else []
  attempts := e.attempts.map Attempt.redacted

theorem hasFailures_redacted (e : Example) : e.redacted.hasFailures = e.hasFailures := by
  rw [hasFailures, redacted, List.any_map]
  rfl

private theorem isDuplicated_redacted (e : Example) : e.redacted.isDuplicated = e.isDuplicated := by
  rw [isDuplicated, redacted, List.any_map]
  rfl

private theorem failedAttempts_redacted (e : Example) :
    e.redacted.failedAttempts = e.failedAttempts := by
  have hfilter : e.redacted.failedAttempts = e.failedAttempts.map Attempt.redacted := by
    rw [failedAttempts, redacted, List.filter_map]
    rfl
  have hkeep : ∀ a ∈ e.failedAttempts, a.redacted = a := by
    intro a ha
    have hfailed := (List.mem_filter.mp ha).2
    exact Attempt.redacted_of_failed (by simpa using hfailed)
  rw [hfilter, List.map_congr_left hkeep, List.map_id']

theorem EqButSuccess.redacted_eq {e f : Example} (h : e.EqButSuccess f) :
    e.redacted = f.redacted := by
  have hattempts : e.attempts.map Attempt.redacted = f.attempts.map Attempt.redacted :=
    map_eq_of_forall₂ h.attempts fun a b hab => hab.redacted_eq
  have hfailures : e.hasFailures = f.hasFailures := by
    rw [← hasFailures_redacted e, ← hasFailures_redacted f, hasFailures, hasFailures]
    exact congrArg (·.any fun a => !a.succeeded) hattempts
  have hsource : (if e.hasFailures then e.source else []) =
      if f.hasFailures then f.source else [] := by
    rw [← hfailures]
    cases he : e.hasFailures with
    | true => exact h.source he
    | false => rfl
  rw [redacted, redacted, hattempts, hsource, h.name]

end Example

theorem ExampleReport.ofExample_redacted (r : Record) (e : Example) :
    ofExample r e.redacted = ofExample r e := by
  have hsource : (if e.hasFailures then e.redacted.source else []) =
      if e.hasFailures then e.source else [] := by
    rw [Example.redacted]
    cases e.hasFailures <;> rfl
  rw [ofExample, ofExample, e.isDuplicated_redacted, e.hasFailures_redacted,
    e.failedAttempts_redacted, hsource]
  rfl

namespace Record.EqButSuccess

variable {r r' : Record} (h : r.EqButSuccess r')
include h

theorem redacted_eq : r.examples.map Example.redacted = r'.examples.map Example.redacted :=
  map_eq_of_forall₂ h.examples fun _ _ hef => hef.redacted_eq

theorem countsAlike : r.CountsAlike r' where
  provider := h.provider
  version := h.version
  examples := h.examples.length_eq
  attempts := by
    have hmap (r : Record) : r.attempts.map Attempt.redacted =
        (r.examples.map Example.redacted).flatMap Example.attempts := by
      rw [attempts, List.map_flatMap, List.flatMap_map]
      rfl
    rw [hmap, hmap, h.redacted_eq]

private theorem sortedExamples_eq :
    r.sortedExamples.map Example.redacted = r'.sortedExamples.map Example.redacted := by
  have hsorted (r : Record) : r.sortedExamples.map Example.redacted =
      (r.examples.map Example.redacted).mergeSort fun a b => Text.le a.name b.name :=
    List.map_mergeSort fun _ _ _ _ => rfl
  rw [hsorted, hsorted, h.redacted_eq]

theorem exampleReports_eq : r.exampleReports = r'.exampleReports := by
  have hreports (r : Record) : r.exampleReports =
      (r.sortedExamples.map Example.redacted).map (ExampleReport.ofExample r) := by
    rw [exampleReports, List.map_map]
    exact List.map_congr_left fun e _ => (ExampleReport.ofExample_redacted r e).symm
  have hofExample : ExampleReport.ofExample r = ExampleReport.ofExample r' := by
    funext e
    rw [ExampleReport.ofExample, ExampleReport.ofExample, h.provider, h.version]
  rw [hreports, hreports, h.sortedExamples_eq, hofExample]

end Record.EqButSuccess

namespace Export

/-- The details of successes and the sources of examples without a failure make no difference to any
report, to the way in which an export ends, or to the tree that it leaves. -/
theorem all_eq_but_success [Host] (r r' : Record) (h : r.EqButSuccess r') (s : Settings)
    (directory : FilePath) (w : Workspace) :
    r.exampleReports = r'.exampleReports ∧
      (∀ limit, r.languageStatistics limit = r'.languageStatistics limit) ∧
      (∀ limit, r.providerStatistic limit = r'.providerStatistic limit) ∧
      r.digest = r'.digest ∧
      (all r s directory).run.run w = (all r' s directory).run.run w := by
  have hcounts := h.countsAlike
  have hcontent := Report.content_congr hcounts h.exampleReports_eq s
  exact ⟨h.exampleReports_eq, hcounts.languageStatistics_eq, hcounts.providerStatistic_eq,
    hcounts.digest_eq, by rw [all_congr hcontent]⟩

/-- An example with a failure among its successes, and one without, whose successes and sources can
be given data of their own. -/
def guarded (detail source : Text) : Record where
  provider := "provider"
  version := []
  examples := [
    ⟨"a", "kept", [⟨"go", .failure, "x", false⟩, ⟨"go", .success, detail, true⟩]⟩,
    ⟨"b", source, [⟨"c", .success, detail, false⟩]⟩]
  names_nodup := (by decide : (["a", "b"] : List Text).Nodup)

open scoped Host in
theorem all_eq_but_success_guarded :
    guarded "x" "source" ≠ guarded [.half 0] [.half 1] ∧
      (all (guarded "x" "source") .standard ⟨0, ["out"]⟩).run.run ⟨⟨[]⟩, []⟩ =
        (all (guarded [.half 0] [.half 1]) .standard ⟨0, ["out"]⟩).run.run ⟨⟨[]⟩, []⟩ := by
  have hsuccess (language detail detail' : Text) (multiple : Bool) :
      Attempt.EqButSuccess ⟨language, .success, detail, multiple⟩
        ⟨language, .success, detail', multiple⟩ := ⟨rfl, rfl, rfl, nofun⟩
  have halike : (guarded "x" "source").EqButSuccess (guarded [.half 0] [.half 1]) := by
    refine ⟨rfl, rfl, .cons ⟨rfl, fun _ => rfl, ?_⟩ (.cons ⟨rfl, nofun, ?_⟩ .nil)⟩
    · exact .cons ⟨rfl, rfl, rfl, fun _ => rfl⟩ (.cons (hsuccess _ _ _ _) .nil)
    · exact .cons (hsuccess _ _ _ _) .nil
  refine ⟨?_, (all_eq_but_success _ _ halike .standard ⟨0, ["out"]⟩ ⟨⟨[]⟩, []⟩).2.2.2.2⟩
  intro heq
  exact absurd (congrArg Record.examples heq) (by decide)

end Export

end ConversionCoverage

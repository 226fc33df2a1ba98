import ConversionCoverage.Proofs.PlainData
import ConversionCoverage.Record.Schema

/-!
# Issues of compound checks

A check that is put together of others reports the issues of its parts, and it meets no issues but
theirs. So a kind of issues that is closed under looking at a value from further out, and that what
is wrong with a severity belongs to, holds all issues with the fields of a record.
-/

namespace ConversionCoverage

namespace Checked

variable {α β : Type} {issue : Issue} {P Q : Issue → Prop}

/-! ## Some issue -/

/-- A check with some issue among those that it met. -/
def Reports (c : Checked α) (issue : Issue) : Prop := ∃ issues, c = .error issues ∧ issue ∈ issues

theorem reports_problem (p : Problem) : Reports (problem p : Checked α) ⟨[], p⟩ :=
  ⟨_, rfl, List.mem_singleton_self _⟩

theorem Reports.within {c : Checked α} (h : c.Reports issue) (step : Step) :
    (c.within step).Reports (issue.within step) := by
  obtain ⟨issues, rfl, hissue⟩ := h
  exact ⟨_, rfl, List.mem_map_of_mem hissue⟩

theorem Reports.map {c : Checked α} (h : c.Reports issue) (f : α → β) :
    Reports (c.map f) issue := by
  obtain ⟨issues, rfl, hissue⟩ := h
  exact ⟨issues, rfl, hissue⟩

theorem Reports.both_left {x : Checked α} (h : x.Reports issue) (y : Checked β) :
    (x.both y).Reports issue := by
  obtain ⟨issues, rfl, hissue⟩ := h
  cases y with
  | ok b => exact ⟨issues, rfl, hissue⟩
  | error more => exact ⟨_, rfl, List.mem_append_left more hissue⟩

theorem Reports.both_right {y : Checked β} (h : y.Reports issue) (x : Checked α) :
    (x.both y).Reports issue := by
  obtain ⟨issues, rfl, hissue⟩ := h
  cases x with
  | ok a => exact ⟨issues, rfl, hissue⟩
  | error more => exact ⟨_, rfl, List.mem_append_right more hissue⟩

/-! ## All issues -/

/-- A check that fails has met issues, and all that it has met are of a kind. -/
def Meets (P : Issue → Prop) (c : Checked α) : Prop :=
  ∀ issues, c = .error issues → issues ≠ [] ∧ ∀ issue ∈ issues, P issue

theorem meets_ok (a : α) : Meets P (.ok a) := fun _ => nofun

theorem meets_problem {p : Problem} (h : P ⟨[], p⟩) : Meets P (problem p : Checked α) := by
  rintro issues ⟨⟩
  exact ⟨List.cons_ne_nil _ _, fun issue hissue => List.mem_singleton.mp hissue ▸ h⟩

theorem Meets.within {c : Checked α} (h : Meets P c) {step : Step}
    (hstep : ∀ issue, P issue → Q (issue.within step)) : Meets Q (c.within step) := by
  cases c with
  | ok a => exact meets_ok a
  | error issues =>
    obtain ⟨hne, hissues⟩ := h issues rfl
    rintro _ ⟨⟩
    refine ⟨by simpa using hne, ?_⟩
    intro issue hissue
    obtain ⟨inner, hinner, rfl⟩ := List.mem_map.mp hissue
    exact hstep inner (hissues inner hinner)

theorem Meets.map {c : Checked α} (h : Meets P c) (f : α → β) :
    Meets P (c.map f : Checked β) := by
  cases c with
  | ok a => exact meets_ok (f a)
  | error issues =>
    rintro _ ⟨⟩
    exact h issues rfl

theorem Meets.both {x : Checked α} {y : Checked β} (hx : Meets P x) (hy : Meets P y) :
    Meets P (x.both y) := by
  cases x with
  | ok a =>
    cases y with
    | ok b => exact meets_ok (a, b)
    | error more =>
      rintro _ ⟨⟩
      exact hy more rfl
  | error issues =>
    obtain ⟨hne, hissues⟩ := hx issues rfl
    cases y with
    | ok b =>
      rintro _ ⟨⟩
      exact ⟨hne, hissues⟩
    | error more =>
      rintro _ ⟨⟩
      refine ⟨List.append_ne_nil_of_left_ne_nil hne more, ?_⟩
      intro issue hissue
      rcases List.mem_append.mp hissue with hissue | hissue
      · exact hissues issue hissue
      · exact (hy more rfl).2 issue hissue

private theorem meets_itemsFrom {check : Datum → Checked α} {items : List Datum}
    (hcheck : ∀ d ∈ items, Meets P (check d))
    (hstep : ∀ step issue, P issue → P (issue.within step)) (index : Nat) :
    Meets P (itemsFrom check index items) := by
  induction items generalizing index with
  | nil => exact meets_ok []
  | cons d rest ih =>
    have hfirst := (hcheck d List.mem_cons_self).within (hstep (.index index))
    have hrest := ih (fun e he => hcheck e (List.mem_cons_of_mem _ he)) (index + 1)
    exact (hfirst.both hrest).map _

end Checked

open Checked (Meets)

/-! ## Values and what they hold -/

/-- Whether a problem is told without words of its own. -/
def Problem.isPlain : Problem → Bool
  | .fault _ | .interruption _ => false
  | _ => true

/-- A kind of issues that all plain ones belong to, wherever they are seen from. -/
structure Issue.Covers (P : Issue → Prop) : Prop where
  within : ∀ step issue, P issue → P (issue.within step)
  plain : ∀ p : Problem, p.isPlain = true → P ⟨[], p⟩

theorem Issue.exists_of_interruption?_eq_some {issues : List Issue} {cause : Interruption}
    (h : interruption? issues = some cause) :
    ∃ issue ∈ issues, issue.problem = .interruption cause := by
  obtain ⟨issue, hissue, hcause⟩ := List.exists_of_findSome?_eq_some h
  refine ⟨issue, hissue, ?_⟩
  cases hproblem : issue.problem with
  | interruption other =>
    rw [hproblem] at hcause
    rw [Option.some.inj hcause]
  | _ => simp [hproblem, Problem.interruption?] at hcause

/-- A kind of data that what they hold belongs to as well. -/
structure Datum.Hereditary (Q : Datum → Prop) : Prop where
  items : ∀ {d items}, Q d → d.asList = .ok items → ∀ item ∈ items, Q item
  values : ∀ {d shape entries}, Q d → d.asMapping shape = .ok entries →
    ∀ entry ∈ entries, Q entry.2

theorem Field.find?_value {Q : Datum → Prop} {field : Field} {entries : List (Datum × Datum)}
    (hentries : ∀ entry ∈ entries, Q entry.2) {name : Text} {d : Datum}
    (h : field.find? entries = some (name, d)) : Q d := by
  rw [find?] at h
  split at h
  · rename_i value hvalue
    obtain ⟨-, rfl⟩ := Prod.mk.inj (Option.some.inj h)
    exact hentries _ (Datum.mem_of_field? hvalue)
  · obtain ⟨value, hvalue, heq⟩ := Option.map_eq_some_iff.mp h
    obtain ⟨-, rfl⟩ := Prod.mk.inj heq
    exact hentries _ (Datum.mem_of_field? hvalue)

section Values

variable {α : Type} {P R : Issue → Prop} {Q : Datum → Prop} {check : Datum → Checked α}
  (hP : Issue.Covers P)
include hP

theorem Datum.meets_asText (d : Datum) : Meets P d.asText := by
  rw [asText.eq_def]
  split
  · exact Checked.meets_ok _
  · split
    · exact Checked.meets_ok _
    · exact Checked.meets_problem (hP.plain _ rfl)
  · exact Checked.meets_problem (hP.plain _ rfl)

private theorem Datum.meets_asBool (d : Datum) : Meets P d.asBool := by
  have hunknown := hP.plain .unknownBool rfl
  have hbool := hP.plain .notBool rfl
  have htext (t : Text) : Meets P (boolOfText t) := by
    rw [boolOfText]
    split
    · exact Checked.meets_problem (hP.plain _ rfl)
    · split
      · exact Checked.meets_ok _
      · exact Checked.meets_problem hunknown
  have hint (n : Int) : Meets P (boolOfInt n) := by
    rw [boolOfInt]
    split
    · exact Checked.meets_ok _
    · split
      · exact Checked.meets_ok _
      · exact Checked.meets_problem hunknown
  cases d with
  | bool b => exact Checked.meets_ok b
  | text t => exact htext t
  | bytes bs =>
    rw [asBool]
    split
    · exact htext _
    · exact Checked.meets_problem hunknown
  | int n =>
    rw [asBool]
    split
    · exact hint n
    · exact Checked.meets_problem hbool
  | float x =>
    rw [asBool]
    split
    · split
      · exact hint _
      · exact Checked.meets_problem hbool
    · exact Checked.meets_problem hbool
  | _ => exact Checked.meets_problem hbool

theorem Checked.meets_listOf (hQ : Datum.Hereditary Q) (hcheck : ∀ d, Q d → Meets P (check d))
    {d : Datum} (hd : Q d) : Meets P (listOf check d) := by
  have hasList : Meets P d.asList := by
    rw [Datum.asList]
    split
    · exact meets_ok _
    · exact meets_ok _
    · exact meets_ok _
    · exact meets_problem (hP.plain _ rfl)
  rw [listOf]
  cases hitems : d.asList with
  | ok items =>
    exact meets_itemsFrom (fun item hitem => hcheck item (hQ.items hd hitems item hitem)) hP.within 0
  | error issues =>
    rw [hitems] at hasList
    rintro _ ⟨⟩
    exact hasList issues rfl

theorem Datum.meets_mapping (hQ : Datum.Hereditary Q) {shape : Shape}
    {ofEntries : List (Datum × Datum) → Checked α}
    (hcheck : ∀ entries, (∀ entry ∈ entries, Q entry.2) → Meets P (ofEntries entries))
    {d : Datum} (hd : Q d) : Meets P (match d.asMapping shape with
      | .ok entries => ofEntries entries
      | .error issues => .error issues) := by
  have hasMapping : Meets P (d.asMapping shape) := by
    rw [asMapping]
    split
    · exact Checked.meets_ok _
    · exact Checked.meets_problem (hP.plain _ rfl)
  cases hentries : d.asMapping shape with
  | ok entries => exact hcheck entries (hQ.values hd hentries)
  | error issues =>
    rw [hentries] at hasMapping
    rintro _ ⟨⟩
    exact hasMapping issues rfl

section Fields

variable {field : Field} {entries : List (Datum × Datum)} (hentries : ∀ entry ∈ entries, Q entry.2)
  (hcheck : ∀ d, Q d → Meets P (check d))
  (hstep : ∀ step issue, P issue → R (issue.within step))
include hentries hcheck hstep

omit hP in
theorem Field.meets_optional (default : α) : Meets R (field.optional default check entries) := by
  rw [optional]
  split
  · rename_i name d hfind
    exact (hcheck d (field.find?_value hentries hfind)).within (hstep _)
  · exact Checked.meets_ok default

theorem Field.meets_required : Meets R (field.required check entries) := by
  rw [required]
  split
  · rename_i name d hfind
    exact (hcheck d (field.find?_value hentries hfind)).within (hstep _)
  · exact (Checked.meets_problem (hP.plain .missing rfl)).within (hstep _)

end Fields

end Values

/-! ## The fields of a record -/

section Fields

variable [Host] {P : Issue → Prop} {Q : Datum → Prop} (hP : Issue.Covers P)
  (hQ : Datum.Hereditary Q) (hseverity : ∀ d, Q d → Meets P (Attempt.checkSeverity d))
include hP hQ hseverity

theorem Attempt.meets_ofDatum (d : Datum) (hd : Q d) : Meets P (ofDatum d) := by
  refine Datum.meets_mapping hP hQ (fun entries hentries => Meets.map ?_ _) hd
  have htext (d : Datum) (_ : Q d) := Datum.meets_asText hP d
  have hbool (d : Datum) (_ : Q d) := Datum.meets_asBool hP d
  apply (Field.meets_required hP hentries htext hP.within).both
  apply (Field.meets_optional hentries hseverity hP.within _).both
  apply (Field.meets_optional hentries htext hP.within _).both
  exact Field.meets_optional hentries hbool hP.within _

theorem Example.meets_ofDatum (d : Datum) (hd : Q d) : Meets P (ofDatum d) := by
  refine Datum.meets_mapping hP hQ (fun entries hentries => Meets.map ?_ _) hd
  have htext (d : Datum) (_ : Q d) := Datum.meets_asText hP d
  have hattempts (d : Datum) (hd : Q d) :=
    Checked.meets_listOf hP hQ (Attempt.meets_ofDatum hP hQ hseverity) hd
  apply (Field.meets_required hP hentries htext hP.within).both
  apply (Field.meets_optional hentries htext hP.within _).both
  exact Field.meets_optional hentries hattempts hP.within _

namespace Record

omit hP hQ hseverity in
/-- The checks on the fields of a record, one after the other. -/
def checkFields (entries : List (Datum × Datum)) : Checked (Text × Text × List Example) :=
  (providerField.required Datum.asText entries).both
    ((versionField.optional [] Datum.asText entries).both
      (examplesField.optional [] (Checked.listOf Example.ofDatum) entries))

omit hP hQ hseverity in
theorem ofEntries_eq (entries : List (Datum × Datum)) : ofEntries entries =
    (checkFields entries).bind fun parts => ofParts parts.1 parts.2.1 parts.2.2 := rfl

theorem meets_checkFields {entries : List (Datum × Datum)}
    (hentries : ∀ entry ∈ entries, Q entry.2) :
    Meets (fun issue => P issue ∧ issue.place ≠ []) (checkFields entries) := by
  have htext (d : Datum) (_ : Q d) := Datum.meets_asText hP d
  have hexamples (d : Datum) (hd : Q d) :=
    Checked.meets_listOf hP hQ (Example.meets_ofDatum hP hQ hseverity) hd
  have hstep (step : Step) (issue : Issue) (h : P issue) :
      P (issue.within step) ∧ (issue.within step).place ≠ [] :=
    ⟨hP.within step issue h, List.cons_ne_nil _ _⟩
  apply (Field.meets_required hP hentries htext hstep).both
  apply (Field.meets_optional hentries htext hstep _).both
  exact Field.meets_optional hentries hexamples hstep _

end Record

end Fields

end ConversionCoverage

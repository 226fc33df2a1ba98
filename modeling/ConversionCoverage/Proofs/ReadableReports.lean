import ConversionCoverage.Proofs.FirstFailure
import ConversionCoverage.Proofs.Indentation
import ConversionCoverage.Proofs.LenientSettings

/-!
# Settings and readable reports

Any value may be given for the indentation: a number stands for so many blanks, and any other value
is written out. Only the former and a text of blanks leave the reports of an export readable.
-/

namespace ConversionCoverage

/-- What stands for an indentation of blanks: a number of them, or a text that has nothing else. -/
inductive Datum.StandsForBlanks : Datum → Prop where
  | int (n : Int) : StandsForBlanks (.int n)
  | bool (b : Bool) : StandsForBlanks (.bool b)
  | text {t : Text} (h : ∀ c ∈ t, Json.isBlank c) : StandsForBlanks (.text t)

namespace Settings

section Host

variable [Host]

/-! ## Reading the indentation -/

theorem indent_of_lenient {entries : List (Datum × Datum)} {s : Settings}
    (h : lenient (.mapping entries) = .ok s) :
    Datum.field? "indent" entries = none ∧ s.indent = standard.indent ∨
      ∃ d, Datum.field? "indent" entries = some d ∧ lenientIndent d = .ok s.indent :=
  ((lenient_eq_ok_iff s).mp h).indent

end Host

/-! ## Data that do not stand for blanks -/

private theorem exists_not_blank_digits (n : Nat) : ∃ c ∈ Text.ofNat n, Json.isBlank c = false := by
  obtain ⟨c, hmem⟩ := List.exists_mem_of_ne_nil _ (Text.ofNat_ne_nil n)
  have hdigit := Text.isDigits_ofNat n c hmem
  refine ⟨c, hmem, ?_⟩
  by_contra hblank
  simp only [Json.isBlank, Bool.not_eq_false, Bool.or_eq_true, decide_eq_true_eq] at hblank
  rcases hblank with ((rfl | rfl) | rfl) | rfl <;> cases hdigit

private theorem exists_not_blank_layOut (digits : Text) (point : Int) :
    ∃ c ∈ Binary64.layOut digits point, Json.isBlank c = false := by
  unfold Binary64.layOut
  split
  · split
    · exact ⟨'0', by simp [Text.ofString], rfl⟩
    · split
      · exact ⟨'.', by simp [Text.ofString], rfl⟩
      · exact ⟨'.', by simp [Text.ofString], rfl⟩
  · exact ⟨'e', by simp [Binary64.exponentPart], rfl⟩

private theorem exists_not_blank_float (x : Binary64) : ∃ c ∈ x.toText, Json.isBlank c = false := by
  cases x with
  | nan => exact ⟨'n', by decide, rfl⟩
  | infinite negative => exact ⟨'i', by cases negative <;> decide, rfl⟩
  | finite negative m e =>
    by_cases hm : m = 0
    · rw [Binary64.toText, if_pos hm]
      exact ⟨'0', by simp [Text.ofString], rfl⟩
    · obtain ⟨⟨digits, exponent⟩, hshortest⟩ : ∃ decimal, Binary64.shortest m e = decimal :=
        ⟨_, rfl⟩
      obtain ⟨⟨shown, point⟩, hshown⟩ :
        ∃ place, Binary64.significantDigits digits exponent = place := ⟨_, rfl⟩
      obtain ⟨c, hmem, hc⟩ := exists_not_blank_layOut shown point
      rw [Binary64.toText_finite negative hm hshortest hshown]
      exact ⟨c, List.mem_append_right _ hmem, hc⟩

theorem exists_not_blank_date (d : Date) : ∃ c ∈ d.toText, Json.isBlank c = false :=
  ⟨'-', by simp [Date.toText, Text.ofString], rfl⟩

private theorem exists_not_blank_numeral {n : Int} {t : Text} (h : Numeral.write n = .ok t) :
    ∃ c ∈ t, Json.isBlank c = false := by
  rw [Numeral.write] at h
  split at h
  · cases h
  · cases h
    cases n with
    | ofNat n => exact exists_not_blank_digits n
    | negSucc n => exact ⟨'-', List.mem_cons_self, rfl⟩

/-- Among others a datum is shown as a word, as a numeral, in quotes or in brackets. -/
theorem exists_not_blank_quoted {room : Nat} {d : Datum} {t : Text} (h : d.quoted room = .ok t) :
    ∃ c ∈ t, Json.isBlank c = false := by
  have hbind {α : Type} {x : Except WritingFault α} {f : α → Text}
      (h : (x >>= fun a => .ok (f a)) = .ok t) : ∃ a, t = f a := by
    obtain ⟨a, -, ha⟩ := Checked.bind_eq_ok_iff.mp h
    exact ⟨a, (Except.ok.inj ha).symm⟩
  cases room with
  | zero =>
    rw [Datum.quoted.eq_def] at h
    cases h
  | succ room =>
    cases d with
    | null =>
      cases h
      exact ⟨'N', List.mem_cons_self, rfl⟩
    | bool b =>
      cases b with
      | true =>
        cases h
        exact ⟨'T', List.mem_cons_self, rfl⟩
      | false =>
        cases h
        exact ⟨'F', List.mem_cons_self, rfl⟩
    | int n => exact exists_not_blank_numeral (Checked.mapError_eq_ok_iff.mp h)
    | float x =>
      cases h
      exact exists_not_blank_float x
    | text u =>
      cases h
      refine ⟨Text.quoteMark u, List.mem_cons_self, ?_⟩
      rw [Text.quoteMark]
      split <;> rfl
    | bytes bs =>
      cases h
      exact ⟨'b', List.mem_cons_self, rfl⟩
    | date day =>
      cases h
      exact ⟨'d', List.mem_cons_self, rfl⟩
    | dateTime time =>
      rw [Datum.quoted] at h
      split at h
      · cases h
      · cases h
        exact ⟨'d', List.mem_cons_self, rfl⟩
    | list items =>
      obtain ⟨shown, rfl⟩ := hbind h
      exact ⟨'[', List.mem_cons_self, rfl⟩
    | pair first second =>
      obtain ⟨_, -, hrest⟩ := Checked.bind_eq_ok_iff.mp h
      obtain ⟨shown, rfl⟩ := hbind hrest
      exact ⟨'(', List.mem_cons_self, rfl⟩
    | set items =>
      rcases items with - | ⟨item, rest⟩
      · cases h
        exact ⟨'s', List.mem_cons_self, rfl⟩
      · cases room with
        | zero => cases h
        | succ room =>
          obtain ⟨shown, rfl⟩ := hbind h
          exact ⟨'\x7b', List.mem_cons_self, rfl⟩
    | mapping entries =>
      obtain ⟨shown, rfl⟩ := hbind h
      exact ⟨'\x7b', List.mem_cons_self, rfl⟩
    | enclosing opened =>
      cases opened <;> cases h <;> exact ⟨_, List.mem_cons_self, rfl⟩

theorem exists_not_blank [Host] {d : Datum} {t : Text} (h : lenientIndent d = .ok t)
    (hint : ∀ n, d ≠ .int n) (hbool : ∀ b, d ≠ .bool b) (htext : ∀ u, d ≠ .text u) :
    ∃ c ∈ t, Json.isBlank c = false := by
  have hwritten : d.toText (Host.room .showing) = .ok t := by
    unfold lenientIndent at h
    split at h
    · exact absurd rfl (hint _)
    · exact absurd rfl (hbool _)
    · exact Checked.mapError_eq_ok_iff.mp h
  unfold Datum.toText at hwritten
  split at hwritten
  · exact absurd rfl (htext _)
  · obtain rfl := Except.ok.inj hwritten
    exact exists_not_blank_date _
  · rename_i u
    obtain rfl := Except.ok.inj hwritten
    obtain ⟨c, hmem, hc⟩ := exists_not_blank_date u.date
    exact ⟨c, by simp [DateTime.toText, hmem], hc⟩
  · exact exists_not_blank_quoted hwritten

theorem blank_spaces (n : Nat) : ∀ c ∈ Text.spaces n, Json.isBlank c := by
  intro c hc
  rw [List.eq_of_mem_replicate hc]
  rfl

private theorem blank_lenientIndent_iff [Host] {d : Datum} {t : Text}
    (h : lenientIndent d = .ok t) :
    (∀ c ∈ t, Json.isBlank c) ↔ d.StandsForBlanks := by
  constructor
  · intro hblank
    by_contra hnot
    have hint : ∀ n, d ≠ .int n := by
      rintro n rfl
      exact hnot (.int n)
    have hbool : ∀ b, d ≠ .bool b := by
      rintro b rfl
      exact hnot (.bool b)
    have htext : ∀ u, d ≠ .text u := by
      rintro u rfl
      cases h
      exact hnot (.text hblank)
    obtain ⟨c, hmem, hc⟩ := exists_not_blank h hint hbool htext
    rw [hblank c hmem] at hc
    cases hc
  · intro hstands
    cases hstands with
    | int n =>
      rw [lenientIndent, blanks] at h
      split at h
      · cases h
      · split at h
        · cases h
        · cases h
          exact blank_spaces _
    | bool b =>
      cases h
      exact blank_spaces _
    | text hblank =>
      cases h
      exact hblank

end Settings

namespace Export

section Host

variable [Host]

/-! ## Exports -/

theorem isSome_json?_iff {r : Record} {s : Settings} {kind : Report} {directory : FilePath}
    {before after : FileTree} (h : Leaves r s directory Report.all before after)
    (maxDigits : Nat) : (after.json? maxDigits (target directory kind)).isSome ↔
      ∃ j, Json.readWithin maxDigits (kind.content r s) = .ok j := by
  rw [FileTree.json?, text?_of_leaves h (by cases kind <;> decide), Option.bind_some]
  cases Json.readWithin maxDigits (kind.content r s) with
  | ok j => simp [Except.toOption]
  | error fault => simp [Except.toOption]

theorem summary_error (r : Record) {s : Settings} (hindent : ¬ ∀ c ∈ s.indent, Json.isBlank c)
    (maxDigits : Nat) :
    ∃ fault, Json.readWithin maxDigits (Report.summary.content r s) = .error fault := by
  have hmem : (("Successes" : Text), (r.providerStatistic s.limit).shares.successes.toJson) ∈
      (r.providerStatistic s.limit).toJson.members := by
    simp [ProviderStatistic.toJson, Shares.members, Json.members, Json.member]
  exact Json.readWithin_object_error hindent hmem

/-- An export with settings that were read leniently leaves readable reports on languages and on the
provider if and only if the mapping gives no indentation, a number of blanks, or a text of blanks. -/
theorem all_readable_iff {entries : List (Datum × Datum)} {s : Settings}
    (hs : Settings.lenient (.mapping entries) = .ok s) {r : Record} {maxDigits : Nat}
    (hattempts : Binary64.digitCount r.conversions.length ≤ maxDigits)
    (hexamples : Binary64.digitCount r.examples.length ≤ maxDigits) {directory : FilePath}
    {w after : Workspace} {paths : List FilePath}
    (hrun : (all r s directory).run.run w = (.ok paths, after)) :
    ((after.tree.json? maxDigits (target directory .byLanguage)).isSome ∧
      (after.tree.json? maxDigits (target directory .summary)).isSome) ↔
    ∀ d, Datum.field? "indent" entries = some d → d.StandsForBlanks := by
  have hleaves := leaves_of_run hrun
  have hblank : (∀ c ∈ s.indent, Json.isBlank c) ↔
      ∀ d, Datum.field? "indent" entries = some d → d.StandsForBlanks := by
    rcases Settings.indent_of_lenient hs with ⟨hnone, hindent⟩ | ⟨d, hsome, hindent⟩
    · rw [hindent, hnone]
      simp only [reduceCtorEq, false_implies, implies_true, iff_true]
      decide
    · rw [Settings.blank_lenientIndent_iff hindent, hsome]
      constructor
      · rintro hd _ ⟨⟩
        exact hd
      · intro h
        exact h d rfl
  rw [← hblank, isSome_json?_iff hleaves, isSome_json?_iff hleaves]
  constructor
  · rintro ⟨-, j, hj⟩
    by_contra hnot
    obtain ⟨fault, hfault⟩ := summary_error r hnot maxDigits
    rw [hfault] at hj
    cases hj
  · intro hindent
    have hneutral := Json.neutral_indented hindent
    exact ⟨⟨_, Json.readWithin_toText hneutral (r.readable_languageReport s.limit hattempts)⟩,
      _, Json.readWithin_toText hneutral
        (r.readable_providerStatistic s.limit hattempts hexamples)⟩

end Host

/-- The usual settings, but for the indentation. -/
def indentedBy (indent : Text) : Settings := { Settings.standard with indent := indent }

open scoped Host in
theorem all_readable_iff_spaces : ∃ after,
    Settings.lenient (.mapping [(.text "indent", .int 2)]) = .ok (indentedBy "  ") ∧
    (all bare (indentedBy "  ") ⟨0, []⟩).run.run ⟨⟨[]⟩, []⟩ =
      (.ok (Report.all.map (target ⟨0, []⟩)), after) ∧
    (after.tree.json? 1 (target ⟨0, []⟩ .byLanguage)).isSome ∧
    (after.tree.json? 1 (target ⟨0, []⟩ .summary)).isSome := by
  have hsettings : Settings.lenient (.mapping [(.text "indent", .int 2)]) =
      .ok (indentedBy "  ") := rfl
  have hattempts : Binary64.digitCount bare.conversions.length ≤ 1 := by
    rw [conversions_bare]
    decide
  obtain ⟨after, hrun⟩ := @succeeds_bare _ (indentedBy "  ") (Text.not_hasHalf_ofString _) ⟨0, []⟩
    ⟨⟨[]⟩, []⟩ _ _ (ensureDir_top _) ready_top
  refine ⟨after, hsettings, hrun, ?_⟩
  apply (all_readable_iff hsettings hattempts (by decide) hrun).mpr
  intro d hd
  cases hd
  exact .int 2

open scoped Host in
/-- No indentation at all is written as a word, and the word stands before each name. -/
theorem summary_unreadable_none : ∃ after,
    Settings.lenient (.mapping [(.text "indent", .null)]) = .ok (indentedBy "None") ∧
    (all bare (indentedBy "None") ⟨0, []⟩).run.run ⟨⟨[]⟩, []⟩ =
      (.ok (Report.all.map (target ⟨0, []⟩)), after) ∧
    after.tree.json? Numeral.maxDigits (target ⟨0, []⟩ .summary) = none := by
  obtain ⟨after, hrun⟩ := @succeeds_bare _ (indentedBy "None") (Text.not_hasHalf_ofString _) ⟨0, []⟩
    ⟨⟨[]⟩, []⟩ _ _ (ensureDir_top _) ready_top
  obtain ⟨fault, hfault⟩ := @summary_error _ bare (indentedBy "None") (by decide) Numeral.maxDigits
  refine ⟨after, rfl, hrun, ?_⟩
  rw [FileTree.json?, text?_of_leaves (leaves_of_run hrun) (by decide), Option.bind_some, hfault]
  rfl

end Export

end ConversionCoverage

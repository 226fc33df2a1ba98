import ConversionCoverage.Proofs.Languages
import ConversionCoverage.Proofs.RecordSchema
import ConversionCoverage.Proofs.TrackerKeys
import Mathlib.Data.Set.List

/-!
# Records that trackers build

Examples stand under different keys, so that their names are different as soon as they are texts.
A record can thus be built whenever its names and sources are texts, and no language has more
attempts in it than there are examples.
-/

namespace ConversionCoverage

/-! ## Values that have to be texts -/

theorem Datum.asText_ofJson_eq_ok_iff (j : Json) (t : Text) :
    Datum.asText (.ofJson j) = .ok t ↔ j = .text t := by
  cases j <;> simp [Datum.ofJson, Datum.asText, Checked.problem]

theorem Datum.asText_ofJson_eq_error {j : Json} {issues : List Issue}
    (h : Datum.asText (.ofJson j) = .error issues) : issues = [⟨[], .notText⟩] := by
  cases j <;> simp [Datum.ofJson, Datum.asText, Checked.problem] at h <;> exact h.symm

namespace Tracker

/-- Two values that have to be texts, and the names under which they are looked for. -/
def twoTexts (a b : Text) (x y : Json) : Checked (Text × Text) :=
  ((Datum.asText (.ofJson x)).within (.key a)).both ((Datum.asText (.ofJson y)).within (.key b))

theorem twoTexts_eq_ok_iff {a b : Text} {x y : Json} {s t : Text} :
    twoTexts a b x y = .ok (s, t) ↔ x = .text s ∧ y = .text t := by
  rw [twoTexts, Checked.both_eq_ok_iff, Checked.within_eq_ok_iff, Checked.within_eq_ok_iff,
    Datum.asText_ofJson_eq_ok_iff, Datum.asText_ofJson_eq_ok_iff]

theorem problem_of_twoTexts {a b : Text} {x y : Json} {issues : List Issue}
    (h : twoTexts a b x y = .error issues) : ∀ issue ∈ issues, issue.problem = .notText := by
  rw [twoTexts] at h
  cases hx : Datum.asText (.ofJson x) with
  | ok s =>
    cases hy : Datum.asText (.ofJson y) with
    | ok t =>
      rw [hx, hy] at h
      cases h
    | error more =>
      rw [hx, hy, Datum.asText_ofJson_eq_error hy] at h
      cases h
      simp [Issue.within]
  | error first =>
    rw [hx, Datum.asText_ofJson_eq_error hx] at h
    cases hy : Datum.asText (.ofJson y) with
    | ok t =>
      rw [hy] at h
      cases h
      simp [Issue.within]
    | error more =>
      rw [hy, Datum.asText_ofJson_eq_error hy] at h
      cases h
      simp [Issue.within]

theorem toExample_eq (e : TrackedExample) :
    e.toExample = (twoTexts "name" "original_source" e.name e.source).map fun (name, source) =>
      ⟨name, source, e.attempts⟩ := rfl

private theorem toExample_eq_ok_iff {e : TrackedExample} {x : Example} :
    e.toExample = .ok x ↔ e = x.tracked := by
  rw [toExample_eq, Checked.map_eq_ok_iff]
  constructor
  · rintro ⟨⟨name, source⟩, h, rfl⟩
    obtain ⟨hname, hsource⟩ := twoTexts_eq_ok_iff.mp h
    rw [Example.tracked, ← hname, ← hsource]
  · rintro rfl
    exact ⟨(x.name, x.source), twoTexts_eq_ok_iff.mpr ⟨rfl, rfl⟩, rfl⟩

theorem checkExamples_eq_ok_iff {examples : List TrackedExample} {xs : List Example} :
    checkExamples examples = .ok xs ↔ examples = xs.map Example.tracked := by
  constructor
  · intro h
    induction examples generalizing xs with
    | nil =>
      obtain rfl := Except.ok.inj h
      rfl
    | cons e rest ih =>
      rw [checkExamples] at h
      obtain ⟨x, hx, h⟩ := Checked.bind_eq_ok_iff.mp h
      obtain ⟨more, hmore, h⟩ := Checked.bind_eq_ok_iff.mp h
      obtain rfl := Except.ok.inj h
      rw [Checked.mapError_eq_ok_iff, toExample_eq_ok_iff] at hx
      rw [hx, ih hmore, List.map_cons]
  · rintro rfl
    exact checkExamples_tracked xs

private theorem problem_of_checkExamples {examples : List TrackedExample} {found : Invalid}
    (h : checkExamples examples = .error found) :
    ∀ issue ∈ found.issues, issue.problem = .notText := by
  induction examples with
  | nil => cases h
  | cons e rest ih =>
    rw [checkExamples, toExample_eq] at h
    cases hfirst : twoTexts "name" "original_source" e.name e.source with
    | error issues =>
      rw [hfirst] at h
      cases h
      exact problem_of_twoTexts hfirst
    | ok texts =>
      rw [hfirst] at h
      cases hrest : checkExamples rest with
      | error other =>
        rw [hrest] at h
        cases h
        exact ih hrest
      | ok xs =>
        rw [hrest] at h
        cases h

theorem build_eq (t : Tracker) : t.build = (checkExamples t.examples).bind fun examples =>
    ((twoTexts "provider_name" "provider_version" t.provider t.version).mapError
      fun issues => (⟨.record, issues⟩ : Invalid)).bind fun (provider, version) =>
        (Record.ofParts provider version examples).mapError fun issues => ⟨.record, issues⟩ := rfl

theorem Regular.names_nodup {t : Tracker} (h : t.Regular) {xs : List Example}
    (hxs : t.examples = xs.map Example.tracked) : (xs.map Example.name).Nodup := by
  have hkeys := h.keys_nodup
  rw [hxs, List.map_map] at hkeys
  have hmap : xs.map ((fun e => e.name.key?) ∘ Example.tracked) =
      (xs.map Example.name).map fun name => some (Key.text name) := by
    rw [List.map_map]
    rfl
  rw [hmap] at hkeys
  exact hkeys.of_map

/-- A record is built of texts only, and all of them go into it. -/
theorem build_eq_ok_iff {t : Tracker} {r : Record} :
    t.build = .ok r ↔ t.provider = .text r.provider ∧ t.version = .text r.version ∧
      t.examples = r.examples.map Example.tracked := by
  simp only [build_eq, Checked.bind_eq_ok_iff, Checked.mapError_eq_ok_iff, checkExamples_eq_ok_iff,
    Prod.exists, twoTexts_eq_ok_iff, Record.ofParts_eq_ok_iff]
  constructor
  · rintro ⟨xs, hxs, provider, version, ⟨hprovider, hversion⟩, rfl, rfl, rfl⟩
    exact ⟨hprovider, hversion, hxs⟩
  · rintro ⟨hprovider, hversion, hxs⟩
    exact ⟨_, hxs, _, _, ⟨hprovider, hversion⟩, rfl, rfl, rfl⟩

theorem Regular.problem_of_build {t : Tracker} (h : t.Regular) {found : Invalid}
    (hbuild : t.build = .error found) : ∀ issue ∈ found.issues, issue.problem = .notText := by
  rw [build_eq] at hbuild
  cases hexamples : checkExamples t.examples with
  | error other =>
    rw [hexamples] at hbuild
    cases hbuild
    exact problem_of_checkExamples hexamples
  | ok xs =>
    have hnodup := h.names_nodup (checkExamples_eq_ok_iff.mp hexamples)
    rw [hexamples] at hbuild
    cases htexts : twoTexts "provider_name" "provider_version" t.provider t.version with
    | error issues =>
      rw [htexts] at hbuild
      cases hbuild
      exact problem_of_twoTexts htexts
    | ok texts =>
      have hparts : Record.ofParts texts.1 texts.2 xs = .ok ⟨texts.1, texts.2, xs, hnodup⟩ :=
        dif_pos hnodup
      rw [htexts] at hbuild
      simp only [Except.bind, Except.mapError, hparts] at hbuild
      cases hbuild

theorem Regular.source?_eq_some_iff {t : Tracker} (h : t.Regular) {key : Key} {source : Json} :
    t.source? key = some source ↔ ∃ e ∈ t.examples, e.name.key? = some key ∧ e.source = source := by
  rw [source?, Option.map_eq_some_iff]
  constructor
  · rintro ⟨e, hfind, rfl⟩
    have hkey := List.find?_some hfind
    exact ⟨e, List.mem_of_find?_eq_some hfind, by simpa using hkey, rfl⟩
  · rintro ⟨e, he, hkey, rfl⟩
    cases hfind : t.examples.find? fun e => e.name.key? = some key with
    | none =>
      have hnone := List.find?_eq_none.mp hfind e he
      simp [hkey] at hnone
    | some other =>
      have hother : other.name.key? = some key := by simpa using List.find?_some hfind
      have hsame := List.inj_on_of_nodup_map h.keys_nodup (List.mem_of_find?_eq_some hfind) he
        (hother.trans hkey.symm)
      exact ⟨other, rfl, by rw [hsame]⟩

private theorem Regular.exists_build_iff {t : Tracker} (h : t.Regular) :
    (∃ r, t.build = .ok r) ↔ (∃ p, t.provider = .text p) ∧ (∃ v, t.version = .text v) ∧
      ∀ key source, t.source? key = some source →
        (∃ name, key = .text name) ∧ ∃ s, source = .text s := by
  constructor
  · rintro ⟨r, hr⟩
    obtain ⟨hprovider, hversion, hexamples⟩ := build_eq_ok_iff.mp hr
    refine ⟨⟨_, hprovider⟩, ⟨_, hversion⟩, ?_⟩
    intro key source hsource
    obtain ⟨e, he, hkey, rfl⟩ := h.source?_eq_some_iff.mp hsource
    rw [hexamples] at he
    obtain ⟨x, -, rfl⟩ := List.mem_map.mp he
    exact ⟨⟨x.name, (Option.some.inj hkey).symm⟩, x.source, rfl⟩
  · rintro ⟨⟨p, hprovider⟩, ⟨v, hversion⟩, htexts⟩
    have htracked : ∀ e ∈ t.examples, ∃ x : Example, x.tracked = e := by
      intro e he
      obtain ⟨key, hkey⟩ := h.named e he
      obtain ⟨⟨name, rfl⟩, s, hs⟩ :=
        htexts key e.source (h.source?_eq_some_iff.mpr ⟨e, he, hkey, rfl⟩)
      rw [Json.key?_eq_text_iff] at hkey
      exact ⟨⟨name, s, e.attempts⟩, by rw [Example.tracked, ← hkey, ← hs]⟩
    obtain ⟨xs, hxs⟩ : ∃ xs : List Example, xs.map Example.tracked = t.examples := by
      have hrange : t.examples ∈ Set.range (List.map Example.tracked) := by
        rw [Set.range_list_map]
        exact htracked
      exact hrange
    exact ⟨⟨p, v, xs, h.names_nodup hxs.symm⟩, build_eq_ok_iff.mpr ⟨hprovider, hversion, hxs.symm⟩⟩

end Tracker

/-! ## How often a language comes up -/

namespace Record

private theorem length_filter_language_le {examples : List Example} (language : Text)
    (h : ∀ e ∈ examples, (e.attempts.map Attempt.language).Nodup) :
    ((examples.flatMap Example.attempts).filter fun a => a.language = language).length ≤
      examples.length := by
  induction examples with
  | nil => simp
  | cons e rest ih =>
    have hfirst : (e.attempts.filter fun a => a.language = language).length ≤ 1 := by
      have hcount := List.nodup_iff_count_le_one.mp (h e List.mem_cons_self) language
      rw [List.count, List.countP_map, List.countP_eq_length_filter] at hcount
      simpa [Function.comp_def, beq_eq_decide] using hcount
    have hrest := ih fun e he => h e (List.mem_cons_of_mem _ he)
    rw [List.flatMap_cons, List.filter_append, List.length_append, List.length_cons]
    omega

theorem total_le_of_nodup {r : Record}
    (h : ∀ e ∈ r.examples, (e.attempts.map Attempt.language).Nodup) {limit : Option Int}
    {language : Text} {s : LanguageStatistic}
    (hs : (language, s) ∈ r.languageStatistics limit) : s.total ≤ r.examples.length := by
  rw [languageStatistics_eq] at hs
  obtain ⟨l, -, hl⟩ := List.mem_map.mp hs
  obtain ⟨rfl, rfl⟩ := Prod.mk.inj hl
  have htotal := (Tally.counts_ofAttempts (r.conversions.filter fun a => a.language = l)).total
  rw [(r.conversions_perm_attempts.filter _).length_eq] at htotal
  calc (LanguageStatistic.ofTally limit (Tally.ofAttempts
          (r.conversions.filter fun a => a.language = l))).total
    _ = (r.attempts.filter fun a => a.language = l).length := htotal
    _ ≤ r.examples.length := length_filter_language_le l h

end Record

namespace Tracker

/-- Whatever a tracker is asked for, a record can be built of it unless the provider, its version, a
name that was found since the last reset or the source that was given last for it is no text.
Nothing else ever stands against a record. The examples of a record have different names and one
attempt for each language at most, so that no language has more attempts than there are examples. A
tracker that keeps its keys gives the same answers, and keeps each example under its own name and
each attempt under its own language. -/
theorem build_session [Host] (provider version : Json) (requests : List Request) :
    let t := ((session requests).run (new provider version)).2
    let (answers, kept) := (KeyedTracker.new provider version).answers requests
    answers = ((session requests).run (new provider version)).1 ∧
    ((∃ r, t.build = .ok r) ↔ (∃ p, provider = .text p) ∧ (∃ v, version = .text v) ∧
      ∀ key source, lastSource (recent requests) key = some source →
        (∃ name, key = .text name) ∧ ∃ s, source = .text s) ∧
    (∀ found, t.build = .error found → ∀ issue ∈ found.issues, issue.problem = .notText) ∧
    ∀ r, t.build = .ok r →
      (r.examples.map Example.name).Nodup ∧
      (∀ e ∈ r.examples, (e.attempts.map Attempt.language).Nodup) ∧
      kept.examples = r.examples.map (fun e => (.text e.name,
        ⟨.text e.name, .text e.source, e.attempts.map fun a => (.text a.language, a)⟩)) ∧
      ∀ limit language s, (language, s) ∈ r.languageStatistics limit →
        s.total ≤ r.examples.length := by
  have ht := regular_after provider version requests
  obtain ⟨hprovider, hversion⟩ := provider_after provider version requests
  have hnew : (new provider version).Regular := regular_after provider version []
  have hkeyed : (KeyedTracker.new provider version).answers requests = _ :=
    answers_keyed hnew requests
  have hbuild := ht.exists_build_iff
  simp only [hprovider, hversion, source?_after] at hbuild
  intro t
  rw [hkeyed]
  refine ⟨rfl, hbuild, fun found => ht.problem_of_build, ?_⟩
  intro r hr
  obtain ⟨-, -, hexamples⟩ := build_eq_ok_iff.mp hr
  have hlanguages : ∀ e ∈ r.examples, (e.attempts.map Attempt.language).Nodup := by
    intro e he
    apply ht.languages_nodup e.tracked
    show e.tracked ∈ t.examples
    rw [hexamples]
    exact List.mem_map_of_mem he
  have hkept : t.keyed.examples = r.examples.map (fun e => (.text e.name,
      ⟨.text e.name, .text e.source, e.attempts.map fun a => (.text a.language, a)⟩)) := by
    rw [keyed, hexamples, List.map_map]
    rfl
  exact ⟨r.names_nodup, hlanguages, hkept, fun _ _ _ => Record.total_le_of_nodup hlanguages⟩

end Tracker

end ConversionCoverage

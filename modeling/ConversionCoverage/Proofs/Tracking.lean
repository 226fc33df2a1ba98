import ConversionCoverage.Proofs.Buckets
import ConversionCoverage.Tracker
import Mathlib.Data.List.DropRight

/-!
# What trackers know

After any calls the state of a tracker is a function of the calls since the last reset: the examples
in the order in which they were first found, each with its latest source and, for each language in
the order in which an attempt for it was first recorded, the latest attempt. A record can always be
built of that.
-/

namespace ConversionCoverage

namespace Attempt

/-- The last attempt for each language, in the order in which the languages first come up. -/
def latest (attempts : List Attempt) : List Attempt :=
  (Text.firstSeen (attempts.map language)).filterMap fun l =>
    attempts.reverse.find? fun a => a.language = l

end Attempt

namespace Tracker

/-- A call of a tracker whose names, sources and languages are texts. -/
inductive Call where
  | found (name source : Text)
  | record (name language : Text) (severity detail multiple : Json)
  | build
  | reset

namespace Call

def isReset : Call → Bool
  | .reset => true
  | _ => false

/-- The name and the source that a call gives to an example. -/
def finding? : Call → Option (Text × Text)
  | .found name source => some (name, source)
  | _ => none

variable [Host]

/-- The example that a call names and the attempt that it asks to record, if that is valid. -/
def attempt? : Call → Option (Text × Attempt)
  | .record name language severity detail multiple =>
    match checkAttempt (.text language) severity detail multiple with
    | .ok a => some (name, a)
    | .error _ => none
  | _ => none

/-- The tracker after a call. One that fails changes nothing. -/
def apply (t : Tracker) : Call → Tracker
  | .found name source =>
    match t.found (.text name) (.text source) with
    | .ok done => done
    | .error _ => t
  | .record name language severity detail multiple =>
    match t.record (.text name) (.text language) severity detail multiple with
    | .ok (_, done) => done
    | .error _ => t
  | .build => t
  | .reset => t.reset

end Call

variable [Host]

def run (t : Tracker) (calls : List Call) : Tracker := calls.foldl Call.apply t

/-! ## What a history of calls says -/

/-- The calls after the last reset. -/
def sinceReset (calls : List Call) : List Call := calls.rtakeWhile fun c => !c.isReset

/-- The names of the examples found, in the order in which each was found first. -/
def namesFound (calls : List Call) : List Text :=
  Text.firstSeen ((calls.filterMap Call.finding?).map Prod.fst)

/-- The source that the latest finding of an example gave to it. -/
def latestSource (calls : List Call) (name : Text) : Text :=
  ((calls.filterMap Call.finding?).reverse.lookup name).getD []

/-- The attempts recorded by the calls, each with the name of its example. A recording succeeds if
the attempt is valid and the example was found before. -/
def recordings (calls : List Call) : List (Text × Attempt) :=
  go [] calls
where
  /-- The attempts recorded by calls that come after the `known` examples were found. -/
  go (known : List Text) : List Call → List (Text × Attempt)
    | [] => []
    | c :: rest =>
      (c.attempt?.filter fun (name, _) => known.contains name).toList ++
        go (known ++ (c.finding?.map Prod.fst).toList) rest

/-- The attempts recorded for an example. -/
def attemptsOf (calls : List Call) (name : Text) : List Attempt :=
  (recordings calls).filterMap fun (n, a) => if n = name then some a else none

/-- The examples that a history of calls without a reset speaks of. -/
def examplesOf (calls : List Call) : List Example :=
  (namesFound calls).map fun name =>
    ⟨name, latestSource calls name, Attempt.latest (attemptsOf calls name)⟩

end Tracker

namespace Text

theorem appendNew_cons (k key : Text) (keys : List Text) (h : k ≠ key) :
    appendNew (k :: keys) key = k :: appendNew keys key := by
  by_cases hin : key ∈ keys <;> simp [appendNew, hin, Ne.symm h]

end Text

namespace TrackedExample

private theorem setAttempt_filterMap (a : Attempt) (languages : List Text)
    (f : Text → Option Attempt)
    (hn : languages.Nodup) (hf : ∀ l ∈ languages, ∃ b, f l = some b ∧ b.language = l) :
    setAttempt a (languages.filterMap f) = (Text.appendNew languages a.language).filterMap fun l =>
      if l = a.language then some a else f l := by
  induction languages with
  | nil => simp [setAttempt, Text.appendNew]
  | cons l rest ih =>
    obtain ⟨hfresh, hrest⟩ := List.nodup_cons.mp hn
    obtain ⟨b, hb, rfl⟩ := hf l List.mem_cons_self
    rw [List.filterMap_cons_some hb, setAttempt]
    by_cases hl : b.language = a.language
    -- No language comes up again, so that the attempts after the replaced one are kept.
    · have hkeep : (rest.filterMap fun l => if l = a.language then some a else f l) =
          rest.filterMap f := by
        apply List.filterMap_congr
        intro l hmem
        have hne : l ≠ a.language := fun h => hfresh (hl ▸ h ▸ hmem)
        simp [hne]
      simp [Text.appendNew, hl, hkeep]
    · have hih := ih hrest fun l hmem => hf l (List.mem_cons_of_mem _ hmem)
      rw [if_neg hl, hih, Text.appendNew_cons _ _ _ hl, List.filterMap_cons_some]
      rw [if_neg hl, hb]

end TrackedExample

namespace Attempt

variable [Host]

theorem language_of_ofEntries (entries : List (Datum × Datum)) (a : Attempt)
    (h : ofEntries entries = .ok a) :
    languageField.required Datum.asText entries = .ok a.language := by
  simp only [ofEntries, Except.map] at h
  split at h
  · cases h
  · rename_i p hp
    obtain rfl := Except.ok.inj h
    exact (Checked.both_eq_ok_iff.mp hp).1

omit [Host] in
private theorem exists_last (attempts : List Attempt) :
    ∀ l ∈ Text.firstSeen (attempts.map language),
      ∃ b, (attempts.reverse.find? fun a => a.language = l) = some b ∧ b.language = l := by
  intro l hl
  obtain ⟨b, hb, rfl⟩ := List.mem_map.mp ((Text.mem_firstSeen _ _).mp hl)
  cases hfind : attempts.reverse.find? fun a => a.language = b.language with
  | none =>
    have hnone := List.find?_eq_none.mp hfind b (by simpa using hb)
    simp at hnone
  | some found => exact ⟨found, rfl, by simpa using List.find?_some hfind⟩

omit [Host] in
theorem latest_concat (attempts : List Attempt) (a : Attempt) :
    latest (attempts ++ [a]) = TrackedExample.setAttempt a (latest attempts) := by
  rw [latest, latest, TrackedExample.setAttempt_filterMap a _ _ (Text.nodup_firstSeen _)
    (exists_last attempts), List.map_append, List.map_singleton, Text.firstSeen_concat,
    List.reverse_append]
  apply List.filterMap_congr
  intro l _
  by_cases hl : l = a.language
  · simp [hl]
  · simp [hl, Ne.symm hl]

end Attempt

/-! ## What a tracker keeps of it -/

namespace Example

/-- An example as a tracker keeps it. -/
def tracked (e : Example) : TrackedExample := ⟨.text e.name, .text e.source, e.attempts⟩

theorem hasName_tracked (e : Example) (name : Text) :
    e.tracked.hasName (.text name) = decide (e.name = name) := rfl

private theorem toExample_tracked (e : Example) : e.tracked.toExample = .ok e := rfl

end Example

namespace Tracker

private theorem setSource_tracked (name source : Text) (names : List Text) (f : Text → Text)
    (g : Text → List Attempt) (hn : names.Nodup) (hg : name ∉ names → g name = []) :
    setSource (.text name) (.text source)
        (names.map fun n => (⟨n, f n, g n⟩ : Example).tracked) =
      (Text.appendNew names name).map fun n =>
        (⟨n, if n = name then source else f n, g n⟩ : Example).tracked := by
  induction names with
  | nil => simp [setSource, Text.appendNew, Example.tracked, hg]
  | cons n rest ih =>
    obtain ⟨hfresh, hrest⟩ := List.nodup_cons.mp hn
    rw [List.map_cons, setSource, Example.hasName_tracked]
    by_cases hname : n = name
    · subst hname
      have hkeep : (rest.map fun m => (⟨m, if m = n then source else f m, g m⟩ : Example).tracked) =
          rest.map fun m => (⟨m, f m, g m⟩ : Example).tracked := by
        apply List.map_congr_left
        intro m hm
        have hne : m ≠ n := fun h => hfresh (h ▸ hm)
        simp [hne]
      simp only [decide_true, if_true, Text.appendNew, List.mem_cons_self, List.map_cons, hkeep]
      rfl
    · have hih := ih hrest fun h => hg (by simp [h, Ne.symm hname])
      simp only [hname, decide_false, Bool.false_eq_true, if_false]
      rw [hih, Text.appendNew_cons _ _ _ hname, List.map_cons, if_neg hname]

private theorem setAttempt_tracked (name : Text) (a : Attempt) (examples : List Example) :
    setAttempt (.text name) a (examples.map Example.tracked) =
      (examples.map fun e => if e.name = name then
        { e with attempts := TrackedExample.setAttempt a e.attempts } else e).map
          Example.tracked := by
  rw [setAttempt, List.map_map, List.map_map]
  apply List.map_congr_left
  intro e _
  by_cases hname : e.name = name
  · subst hname
    simp only [Function.comp_apply, Example.hasName_tracked, decide_true, if_true]
    rfl
  · simp [Example.hasName_tracked, hname]

private theorem any_hasName_tracked (name : Text) (examples : List Example) :
    (examples.map Example.tracked).any (·.hasName (.text name)) =
      decide (name ∈ examples.map Example.name) := by
  rw [List.any_map, Bool.eq_iff_iff, List.any_eq_true, decide_eq_true_eq, List.mem_map]
  simp [Example.hasName_tracked]

/-! ## One more call -/

variable [Host]

theorem names_examplesOf (calls : List Call) :
    (examplesOf calls).map Example.name = namesFound calls := by
  rw [examplesOf, List.map_map]
  exact List.map_id _

omit [Host] in
theorem namesFound_concat (calls : List Call) (c : Call) :
    namesFound (calls ++ [c]) =
      (c.finding?.map Prod.fst).elim (namesFound calls) (Text.appendNew (namesFound calls)) := by
  cases hc : c.finding? with
  | none => simp [namesFound, hc]
  | some p => simp [namesFound, hc, Text.firstSeen_concat]

private theorem recordings_go_concat (known : List Text) (calls : List Call) (c : Call) :
    recordings.go known (calls ++ [c]) = recordings.go known calls ++
      (c.attempt?.filter fun (name, _) =>
        (known ++ (calls.filterMap Call.finding?).map Prod.fst).contains name).toList := by
  induction calls generalizing known with
  | nil => simp [recordings.go]
  | cons d rest ih =>
    rw [List.cons_append, recordings.go, recordings.go, ih, List.append_assoc]
    cases hd : d.finding? with
    | none =>
      rw [List.filterMap_cons_none hd]
      simp
    | some p =>
      rw [List.filterMap_cons_some hd]
      simp

theorem recordings_concat (calls : List Call) (c : Call) :
    recordings (calls ++ [c]) = recordings calls ++
      (c.attempt?.filter fun (name, _) => (namesFound calls).contains name).toList := by
  have hcontains : ∀ name, (namesFound calls).contains name =
      ((calls.filterMap Call.finding?).map Prod.fst).contains name := by
    intro name
    rw [Bool.eq_iff_iff, List.contains_iff_mem, List.contains_iff_mem, namesFound,
      Text.mem_firstSeen]
  simp only [recordings, recordings_go_concat, List.nil_append, hcontains]

private theorem mem_namesFound_of_recorded (calls : List Call) (name : Text) (a : Attempt)
    (h : (name, a) ∈ recordings calls) : name ∈ namesFound calls := by
  induction calls using List.reverseRecOn with
  | nil => simp [recordings, recordings.go] at h
  | append_singleton calls c ih =>
    have hkeep : name ∈ namesFound calls → name ∈ namesFound (calls ++ [c]) := by
      intro hn
      rw [namesFound_concat]
      cases c.finding? with
      | none => exact hn
      | some p => exact (Text.mem_appendNew _ _ _).mpr (.inl hn)
    rw [recordings_concat] at h
    rcases List.mem_append.mp h with h | h
    · exact hkeep (ih h)
    · rw [Option.mem_toList, Option.filter_eq_some_iff] at h
      exact hkeep (List.contains_iff_mem.mp h.2)

private theorem attemptsOf_of_notMem (calls : List Call) (name : Text)
    (h : name ∉ namesFound calls) :
    attemptsOf calls name = [] := by
  rw [attemptsOf, List.filterMap_eq_nil_iff]
  rintro ⟨n, a⟩ hmem
  have hne : n ≠ name := fun he => h (he ▸ mem_namesFound_of_recorded calls n a hmem)
  simp [hne]

private theorem apply_found (t : Tracker) (calls : List Call) (name source : Text)
    (h : t.examples = (examplesOf calls).map Example.tracked) :
    Call.apply t (.found name source) =
      { t with examples := (examplesOf (calls ++ [.found name source])).map Example.tracked } := by
  have hsource : ∀ n, latestSource (calls ++ [.found name source]) n =
      if n = name then source else latestSource calls n := by
    intro n
    by_cases hn : n = name
    · simp [latestSource, Call.finding?, hn]
    · simp [latestSource, Call.finding?, List.lookup_cons, beq_eq_false_iff_ne.mpr hn, hn]
  have hattempts : ∀ n, attemptsOf (calls ++ [.found name source]) n = attemptsOf calls n := by
    intro n
    rw [attemptsOf, attemptsOf, recordings_concat]
    simp [Call.attempt?]
  have happly : Call.apply t (.found name source) =
      { t with examples := setSource (.text name) (.text source) t.examples } := rfl
  have hset := setSource_tracked name source (namesFound calls) (latestSource calls)
    (fun n => Attempt.latest (attemptsOf calls n)) (Text.nodup_firstSeen _)
    (fun hn => by simp [attemptsOf_of_notMem _ _ hn, Attempt.latest, Text.firstSeen])
  rw [happly, h, examplesOf, List.map_map, examplesOf, namesFound_concat, List.map_map]
  simp only [Function.comp_def, hset, hsource, hattempts]
  rfl

theorem record_eq (t : Tracker) (examples : List Example) (name language : Text)
    (severity detail multiple : Json) (h : t.examples = examples.map Example.tracked) :
    t.record (.text name) (.text language) severity detail multiple =
      if name ∈ examples.map Example.name then
        (checkAttempt (.text language) severity detail multiple).map fun a =>
          (a, { t with examples := setAttempt (.text name) a t.examples })
      else .error (unknown (.text name)) := by
  have hany : t.examples.any (·.hasName (.text name)) =
      decide (name ∈ examples.map Example.name) := by rw [h, any_hasName_tracked]
  have hname : checkName (.text name) = .ok () := rfl
  rw [record, hname]
  simp only [hany]
  by_cases hmem : name ∈ examples.map Example.name
  · simp only [hmem, decide_true, if_true]
    rfl
  · simp only [hmem, decide_false, if_false]
    rfl

private theorem attemptsOf_record (calls : List Call) (name language : Text)
    (severity detail multiple : Json) (a : Attempt) (hmem : name ∈ namesFound calls)
    (ha : checkAttempt (.text language) severity detail multiple = .ok a) (n : Text) :
    attemptsOf (calls ++ [.record name language severity detail multiple]) n =
      attemptsOf calls n ++ if n = name then [a] else [] := by
  have hattempt : (Call.record name language severity detail multiple).attempt? =
      some (name, a) := by
    rw [Call.attempt?, ha]
  have hfilter : (some (name, a)).filter (fun (name, _) => (namesFound calls).contains name) =
      some (name, a) :=
    Option.filter_eq_some_iff.mpr ⟨rfl, List.contains_iff_mem.mpr hmem⟩
  rw [attemptsOf, recordings_concat, hattempt, hfilter, List.filterMap_append]
  by_cases hn : n = name
  · simp [attemptsOf, hn]
  · simp [attemptsOf, hn, Ne.symm hn]

omit [Host] in
theorem latestSource_concat_of_none (calls : List Call) (c : Call) (h : c.finding? = none) :
    latestSource (calls ++ [c]) = latestSource calls := by
  funext name
  rw [latestSource, List.filterMap_append, List.filterMap_cons_none h, List.filterMap_nil,
    List.append_nil]
  rfl

theorem examplesOf_concat_of_none (calls : List Call) (c : Call) (hfinding : c.finding? = none)
    (hattempt : c.attempt?.filter (fun (name, _) => (namesFound calls).contains name) = none) :
    examplesOf (calls ++ [c]) = examplesOf calls := by
  have hattempts : ∀ n, attemptsOf (calls ++ [c]) n = attemptsOf calls n := by
    intro n
    rw [attemptsOf, attemptsOf, recordings_concat, hattempt]
    simp
  simp only [examplesOf, namesFound_concat, hfinding, latestSource_concat_of_none _ _ hfinding,
    hattempts]
  rfl

private theorem apply_record (t : Tracker) (calls : List Call) (name language : Text)
    (severity detail multiple : Json) (h : t.examples = (examplesOf calls).map Example.tracked) :
    Call.apply t (.record name language severity detail multiple) =
      { t with examples := (examplesOf
          (calls ++ [.record name language severity detail multiple])).map Example.tracked } := by
  rw [Call.apply, record_eq t _ name language severity detail multiple h, names_examplesOf]
  by_cases hmem : name ∈ namesFound calls
  · rw [if_pos hmem]
    cases ha : checkAttempt (.text language) severity detail multiple with
    | error fault =>
      rw [examplesOf_concat_of_none _ _ rfl (by simp [Call.attempt?, ha]), ← h]
      rfl
    | ok a =>
      have hset : setAttempt (.text name) a t.examples =
          (examplesOf (calls ++ [.record name language severity detail multiple])).map
            Example.tracked := by
        have hnames : namesFound (calls ++ [.record name language severity detail multiple]) =
            namesFound calls := namesFound_concat _ _
        rw [h, setAttempt_tracked]
        apply congrArg
        rw [examplesOf, List.map_map, examplesOf, hnames]
        apply List.map_congr_left
        intro n _
        rw [Function.comp_apply,
          attemptsOf_record calls name language severity detail multiple a hmem ha,
          latestSource_concat_of_none _ _ rfl]
        by_cases hn : n = name
        · simp [hn, Attempt.latest_concat]
        · simp [hn]
      rw [← hset]
      rfl
  · rw [if_neg hmem, examplesOf_concat_of_none _ _ rfl]
    · rw [← h]
    · cases ha : checkAttempt (.text language) severity detail multiple <;>
        simp [Call.attempt?, ha, hmem, Option.filter]

omit [Host] in
private theorem sinceReset_concat (calls : List Call) (c : Call) :
    sinceReset (calls ++ [c]) = if c.isReset then [] else sinceReset calls ++ [c] := by
  rw [sinceReset, List.rtakeWhile_concat]
  cases c <;> rfl

/-- What one call does to a tracker that is right about the calls since the last reset. -/
theorem apply_tracked (t : Tracker) (calls : List Call) (c : Call)
    (h : t.examples = (examplesOf (sinceReset calls)).map Example.tracked) :
    Call.apply t c =
      { t with examples := (examplesOf (sinceReset (calls ++ [c]))).map Example.tracked } := by
  rw [sinceReset_concat]
  cases c with
  | found name source => exact apply_found t _ name source h
  | record name language severity detail multiple =>
    exact apply_record t _ name language severity detail multiple h
  | build =>
    have hkeep := examplesOf_concat_of_none (sinceReset calls) .build rfl rfl
    change t = { t with examples := (examplesOf (sinceReset calls ++ [.build])).map _ }
    rw [hkeep, ← h]
  | reset => rfl

private theorem run_concat (t : Tracker) (calls : List Call) (c : Call) :
    run t (calls ++ [c]) = Call.apply (run t calls) c := by
  simp [run]

/-- The state of a tracker is a function of the calls since the last reset. -/
theorem run_new (provider version : Json) (calls : List Call) :
    run (new provider version) calls =
      ⟨provider, version, (examplesOf (sinceReset calls)).map Example.tracked⟩ := by
  induction calls using List.reverseRecOn with
  | nil => rfl
  | append_singleton calls c ih =>
    rw [run_concat, apply_tracked _ calls c (by rw [ih]), ih]

omit [Host] in
theorem checkExamples_tracked (examples : List Example) :
    checkExamples (examples.map Example.tracked) = .ok examples := by
  induction examples with
  | nil => rfl
  | cons e rest ih =>
    rw [List.map_cons, checkExamples, Example.toExample_tracked, ih]
    rfl

omit [Host] in
theorem build_tracked (provider version : Text) (examples : List Example)
    (hn : (examples.map Example.name).Nodup) :
    build ⟨.text provider, .text version, examples.map Example.tracked⟩ =
      .ok ⟨provider, version, examples, hn⟩ := by
  have hchecked : ((Record.providerField.required Datum.asText
      [(.text "provider_name", .text provider), (.text "provider_version", .text version)]).both
        (Record.versionField.required Datum.asText
          [(.text "provider_name", .text provider), (.text "provider_version", .text version)])) =
            .ok (provider, version) := rfl
  have hparts : Record.ofParts provider version examples =
      .ok ⟨provider, version, examples, hn⟩ := by
    rw [Record.ofParts, dif_pos hn]
  simp only [build, checkExamples_tracked, Datum.ofJson, bind, Except.bind, hchecked]
  show (Record.ofParts provider version examples).mapError _ = _
  rw [hparts]
  rfl

theorem language_of_checkAttempt (language : Text) (severity detail multiple : Json) (a : Attempt)
    (h : checkAttempt (.text language) severity detail multiple = .ok a) :
    a.language = language := by
  rw [checkAttempt, Checked.mapError_eq_ok_iff] at h
  exact (Except.ok.inj (Attempt.language_of_ofEntries _ a h)).symm

/-- After any calls a record can be built. It has the examples that were found since the last reset,
in the order in which they were found first, each with its latest source and with the latest
attempt for each language; and what can be recorded next depends on these examples only. -/
theorem build_run (provider version : Text) (calls : List Call) :
    let t := run (new (.text provider) (.text version)) calls
    let recent := sinceReset calls
    (∃ r, t.build = .ok r ∧ r.provider = provider ∧ r.version = version ∧
      r.examples = examplesOf recent ∧ t.count = r.examples.length) ∧
    (∀ name language severity detail multiple a,
      (t.record (.text name) (.text language) severity detail multiple).map Prod.fst = .ok a ↔
        name ∈ namesFound recent ∧
          checkAttempt (.text language) severity detail multiple = .ok a) ∧
    ∀ language severity detail multiple a,
      checkAttempt (.text language) severity detail multiple = .ok a → a.language = language := by
  intro t recent
  have ht : t = ⟨.text provider, .text version, (examplesOf recent).map Example.tracked⟩ :=
    run_new _ _ calls
  have hn : ((examplesOf recent).map Example.name).Nodup := by
    rw [names_examplesOf]
    exact Text.nodup_firstSeen _
  refine ⟨⟨⟨provider, version, examplesOf recent, hn⟩, ?_, rfl, rfl, rfl, ?_⟩, ?_, ?_⟩
  · rw [ht]
    exact build_tracked provider version _ hn
  · rw [ht, count, List.length_map]
  · intro name language severity detail multiple a
    rw [record_eq t (examplesOf recent) name language severity detail multiple (by rw [ht]),
      names_examplesOf]
    by_cases hmem : name ∈ namesFound recent
    · rw [if_pos hmem]
      cases hcheck : checkAttempt (.text language) severity detail multiple with
      | error fault => simp [Except.map]
      | ok b => simp [Except.map, hmem]
    · rw [if_neg hmem]
      simp [Except.map, hmem]
  · exact language_of_checkAttempt

end Tracker

end ConversionCoverage

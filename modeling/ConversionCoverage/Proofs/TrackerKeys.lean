import ConversionCoverage.Proofs.FailedRequests
import ConversionCoverage.Proofs.Tracking
import ConversionCoverage.Tracker.Keyed

/-!
# What trackers keep under which key

Whatever a tracker is asked for, with arguments of any kind, it does not need to keep the keys of
its mappings: each example stands under its own name and each attempt under its own language. The
examples are those that were found since the last reset, each with the source that it was given
last.
-/

namespace ConversionCoverage

/-! ## Keys -/

theorem Datum.isKey_ofJson (j : Json) : (Datum.ofJson j).isKey = j.key?.isSome := by
  cases j <;> rfl

private theorem Datum.sameKey_ofJson_iff (a b : Json) :
    Datum.sameKey (.ofJson a) (.ofJson b) = true ↔
      ∃ key, a.key? = some key ∧ b.key? = some key := by
  cases a <;> cases b <;>
    simp [Datum.ofJson, Datum.sameKey, Datum.number?, Json.key?, eq_comm]

theorem Datum.sameKey_of_key {b : Json} {key : Key} (hb : b.key? = some key) (a : Json) :
    Datum.sameKey (.ofJson a) (.ofJson b) = decide (a.key? = some key) := by
  rw [Bool.eq_iff_iff, decide_eq_true_eq, Datum.sameKey_ofJson_iff]
  constructor
  · rintro ⟨other, ha, hother⟩
    rw [ha, ← hother, hb]
  · intro ha
    exact ⟨key, ha, hb⟩

/-- Equal numbers are one key, whatever their kinds. -/
example : (Json.bool true).key? = (Json.int 1).key? ∧
    (Json.float (.finite false 1 0)).key? = (Json.int 1).key? := by decide

theorem Json.key?_eq_text_iff (j : Json) (t : Text) : j.key? = some (.text t) ↔ j = .text t := by
  cases j <;> simp [Json.key?, Datum.ofJson, Datum.number?]

namespace Tracker

theorem checkName_of_key {name : Json} {key : Key} (h : name.key? = some key) :
    checkName name = .ok () := by
  simp [checkName, Datum.isKey_ofJson, h]

theorem checkName_of_no_key {name : Json} (h : name.key? = none) :
    checkName name = .error (.unusableName (Datum.ofJson name).kind) := by
  simp [checkName, Datum.isKey_ofJson, h]

/-! ## What requests make of the examples -/

/-- The source of the example that stands under a key. -/
def source? (t : Tracker) (key : Key) : Option Json :=
  (t.examples.find? fun e => e.name.key? = some key).map TrackedExample.source

/-- Examples stand under different keys, and the attempts of each of them are for different
languages. -/
structure Regular (t : Tracker) : Prop where
  named : ∀ e ∈ t.examples, ∃ key, e.name.key? = some key
  keys_nodup : (t.examples.map fun e => e.name.key?).Nodup
  languages_nodup : ∀ e ∈ t.examples, (e.attempts.map Attempt.language).Nodup

section Found

variable {name source : Json} {key : Key} (hkey : name.key? = some key)
include hkey

theorem hasName_of_key (e : TrackedExample) :
    e.hasName name = decide (e.name.key? = some key) :=
  Datum.sameKey_of_key hkey e.name

private theorem keys_setSource (examples : List TrackedExample) :
    (setSource name source examples).map (fun e => e.name.key?) =
      if some key ∈ examples.map (fun e => e.name.key?) then examples.map fun e => e.name.key?
      else examples.map (fun e => e.name.key?) ++ [some key] := by
  induction examples with
  | nil => simp [setSource, hkey]
  | cons e rest ih =>
    rw [setSource, hasName_of_key hkey]
    by_cases he : e.name.key? = some key
    · simp [he]
    · by_cases hrest : some key ∈ rest.map fun e => e.name.key?
      · simp [he, hrest, ih]
      · simp [he, hrest, ih, Ne.symm he]

private theorem find?_setSource (examples : List TrackedExample) (other : Key) :
    ((setSource name source examples).find? fun e => e.name.key? = some other).map
        TrackedExample.source =
      if other = key then some source
      else (examples.find? fun e => e.name.key? = some other).map TrackedExample.source := by
  induction examples with
  | nil =>
    by_cases hother : other = key
    · simp [setSource, hkey, hother]
    · simp [setSource, hkey, hother, Ne.symm hother]
  | cons e rest ih =>
    rw [setSource, hasName_of_key hkey]
    by_cases he : e.name.key? = some key
    · by_cases hother : other = key
      · simp [he, hother]
      · simp [he, hother, Ne.symm hother]
    · by_cases hsame : e.name.key? = some other
      · have hother : other ≠ key := fun h => he (h ▸ hsame)
        simp [hsame, hother]
      · simp [he, hsame, ih]

/-- An example that is there after one was found was there before, apart from its source, or is new
and has no attempts yet. -/
theorem mem_setSource {examples : List TrackedExample} {e : TrackedExample}
    (h : e ∈ setSource name source examples) :
    (∃ old ∈ examples, e.name = old.name ∧ e.attempts = old.attempts) ∨
      e = ⟨name, source, []⟩ := by
  induction examples with
  | nil => exact .inr (List.mem_singleton.mp h)
  | cons first rest ih =>
    rw [setSource, hasName_of_key hkey] at h
    by_cases hfirst : first.name.key? = some key
    · simp only [hfirst, decide_true, if_true] at h
      rcases List.mem_cons.mp h with rfl | h
      · exact .inl ⟨first, List.mem_cons_self, rfl, rfl⟩
      · exact .inl ⟨e, List.mem_cons_of_mem _ h, rfl, rfl⟩
    · simp only [hfirst, decide_false, Bool.false_eq_true, if_false] at h
      rcases List.mem_cons.mp h with rfl | h
      · exact .inl ⟨e, List.mem_cons_self, rfl, rfl⟩
      · rcases ih h with ⟨old, hold, he⟩ | he
        · exact .inl ⟨old, List.mem_cons_of_mem _ hold, he⟩
        · exact .inr he

theorem Regular.found {t : Tracker} (h : t.Regular) :
    Regular { t with examples := setSource name source t.examples } where
  named := by
    intro e he
    rcases mem_setSource hkey he with ⟨old, hold, hname, -⟩ | rfl
    · rw [hname]
      exact h.named old hold
    · exact ⟨key, hkey⟩
  keys_nodup := by
    show ((setSource name source t.examples).map fun e => e.name.key?).Nodup
    rw [keys_setSource hkey]
    split
    · exact h.keys_nodup
    · rename_i hnew
      exact List.nodup_append.mpr ⟨h.keys_nodup, List.nodup_singleton _, by grind⟩
  languages_nodup := by
    intro e he
    rcases mem_setSource hkey he with ⟨old, hold, -, hattempts⟩ | rfl
    · rw [hattempts]
      exact h.languages_nodup old hold
    · exact List.nodup_nil

end Found

private theorem map_language_setAttempt (a : Attempt) (attempts : List Attempt) :
    (TrackedExample.setAttempt a attempts).map Attempt.language =
      Text.appendNew (attempts.map Attempt.language) a.language := by
  induction attempts with
  | nil => rfl
  | cons b rest ih =>
    rw [TrackedExample.setAttempt]
    by_cases hb : b.language = a.language
    · simp [hb, Text.appendNew]
    · rw [if_neg hb, List.map_cons, ih, List.map_cons, Text.appendNew_cons _ _ _ hb]

theorem mem_setAttempt {name : Json} {a : Attempt} {examples : List TrackedExample}
    {e : TrackedExample} (h : e ∈ setAttempt name a examples) :
    ∃ old ∈ examples, e.name = old.name ∧ e.source = old.source ∧
      (e.attempts = old.attempts ∨ e.attempts = TrackedExample.setAttempt a old.attempts) := by
  obtain ⟨old, hold, rfl⟩ := List.mem_map.mp h
  refine ⟨old, hold, ?_⟩
  by_cases hname : old.hasName name
  · simp [hname]
  · simp [hname]

private theorem keys_setAttempt (name : Json) (a : Attempt) (examples : List TrackedExample) :
    (setAttempt name a examples).map (fun e => e.name.key?) =
      examples.map fun e => e.name.key? := by
  rw [setAttempt, List.map_map]
  apply List.map_congr_left
  intro e _
  by_cases hname : e.hasName name <;> simp [hname]

private theorem find?_setAttempt (name : Json) (a : Attempt) (examples : List TrackedExample)
    (key : Key) :
    ((setAttempt name a examples).find? fun e => e.name.key? = some key).map
        TrackedExample.source =
      (examples.find? fun e => e.name.key? = some key).map TrackedExample.source := by
  induction examples with
  | nil => rfl
  | cons e rest ih =>
    rw [setAttempt, List.map_cons, ← setAttempt]
    by_cases he : e.name.key? = some key
    · by_cases hname : e.hasName name <;> simp [hname, he]
    · by_cases hname : e.hasName name <;> simp [hname, he, ih]

theorem Regular.recorded {t : Tracker} (h : t.Regular) (name : Json) (a : Attempt) :
    Regular { t with examples := setAttempt name a t.examples } where
  named := by
    intro e he
    obtain ⟨old, hold, hname, -⟩ := mem_setAttempt he
    rw [hname]
    exact h.named old hold
  keys_nodup := by
    show ((setAttempt name a t.examples).map fun e => e.name.key?).Nodup
    rw [keys_setAttempt]
    exact h.keys_nodup
  languages_nodup := by
    intro e he
    obtain ⟨old, hold, -, -, hattempts⟩ := mem_setAttempt he
    have hnodup := h.languages_nodup old hold
    rcases hattempts with hattempts | hattempts
    · rw [hattempts]
      exact hnodup
    · rw [hattempts, map_language_setAttempt]
      exact Text.nodup_appendNew hnodup _

/-! ## One request -/

theorem run_perform_find [Host] (t : Tracker) (name source : Json) :
    (perform (.find name source)).run.run t = match t.found name source with
      | .ok after => (.ok .done, after)
      | .error fault => (.error fault, t) := by
  rw [perform, run_bind, run_findExample]
  cases t.found name source <;> rfl

theorem run_perform_record [Host] (t : Tracker) (name language severity detail multiple : Json) :
    (perform (.record name language severity detail multiple)).run.run t =
      match t.record name language severity detail multiple with
        | .ok (a, after) => (.ok (.attempt a), after)
        | .error fault => (.error fault, t) := by
  rw [perform, run_bind, run_recordAttempt]
  cases t.record name language severity detail multiple <;> rfl

theorem run_perform_build [Host] (t : Tracker) :
    (perform .build).run.run t = ((t.build.mapError .invalid).map .record, t) := by
  rw [perform, run_bind, run_buildRecord]
  cases t.build <;> rfl

theorem found_of_key {name : Json} {key : Key} (h : name.key? = some key) (t : Tracker)
    (source : Json) :
    t.found name source = .ok { t with examples := setSource name source t.examples } := by
  rw [found, checkName_of_key h]
  rfl

theorem found_of_no_key {name : Json} (h : name.key? = none) (t : Tracker) (source : Json) :
    t.found name source = .error (.unusableName (Datum.ofJson name).kind) := by
  rw [found, checkName_of_no_key h]
  rfl

theorem eq_of_record_eq_ok [Host] {t after : Tracker}
    {name language severity detail multiple : Json}
    {a : Attempt} (h : t.record name language severity detail multiple = .ok (a, after)) :
    after = { t with examples := setAttempt name a t.examples } := by
  rw [record] at h
  obtain ⟨_, -, h⟩ := Checked.bind_eq_ok_iff.mp h
  split at h
  · cases h
  · obtain ⟨b, -, h⟩ := Checked.bind_eq_ok_iff.mp h
    cases h
    rfl

namespace Request

def isReset : Request → Bool
  | .reset => true
  | _ => false

/-- The source that a request gives to the example under a key. -/
def sourceFor? (key : Key) : Request → Option Json
  | .find name source => if name.key? = some key then some source else none
  | _ => none

end Request

/-- What a request can do to a tracker. -/
inductive Effect (t : Tracker) : Request → Tracker → Prop where
  | found {name source : Json} {key : Key} (hkey : name.key? = some key) :
    Effect t (.find name source) { t with examples := setSource name source t.examples }
  | recorded {name language severity detail multiple : Json} (a : Attempt) :
    Effect t (.record name language severity detail multiple)
      { t with examples := setAttempt name a t.examples }
  | reset : Effect t .reset t.reset
  | kept {q : Request} (hreset : q.isReset = false) (hsource : ∀ key, q.sourceFor? key = none) :
    Effect t q t

theorem effect_perform [Host] (t : Tracker) (q : Request) :
    Effect t q ((perform q).run.run t).2 := by
  cases q with
  | find name source =>
    rw [run_perform_find]
    cases hname : name.key? with
    | none =>
      rw [found_of_no_key hname]
      exact .kept rfl fun key => by simp [Request.sourceFor?, hname]
    | some key =>
      rw [found_of_key hname]
      exact .found hname
  | record name language severity detail multiple =>
    rw [run_perform_record]
    cases hrecord : t.record name language severity detail multiple with
    | error fault => exact .kept rfl fun _ => rfl
    | ok done =>
      obtain ⟨a, after⟩ := done
      rw [eq_of_record_eq_ok hrecord]
      exact .recorded a
  | build =>
    rw [run_perform_build]
    exact .kept rfl fun _ => rfl
  | count => exact .kept rfl fun _ => rfl
  | reset => exact .reset
  | write s asked w => exact .kept rfl fun _ => rfl

theorem Effect.provider {t after : Tracker} {q : Request} (h : Effect t q after) :
    after.provider = t.provider ∧ after.version = t.version := by
  cases h <;> exact ⟨rfl, rfl⟩

theorem Effect.source? {t after : Tracker} {q : Request} (h : Effect t q after) (key : Key) :
    after.source? key =
      if q.isReset then none else (q.sourceFor? key).or (t.source? key) := by
  cases h with
  | @found name source k hkey =>
    show ((setSource name source t.examples).find? _).map _ = _
    rw [find?_setSource hkey]
    by_cases hk : k = key
    · simp [Request.isReset, Request.sourceFor?, hkey, hk]
    · simp [Request.isReset, Request.sourceFor?, hkey, hk, Ne.symm hk, Tracker.source?]
  | recorded a => exact find?_setAttempt _ a t.examples key
  | reset => rfl
  | kept hreset hsource => simp [hreset, hsource]

theorem Effect.regular {t after : Tracker} {q : Request} (h : Effect t q after)
    (ht : t.Regular) : after.Regular := by
  cases h with
  | found hkey => exact ht.found hkey
  | recorded a => exact ht.recorded _ a
  | reset => exact ⟨nofun, List.nodup_nil, nofun⟩
  | kept => exact ht

/-! ## A run of requests -/

/-- The requests after the last reset. -/
def recent (requests : List Request) : List Request := requests.rtakeWhile fun q => !q.isReset

/-- The source that was given last to the example under a key. -/
def lastSource (requests : List Request) (key : Key) : Option Json :=
  requests.reverse.findSome? (Request.sourceFor? key)

private theorem recent_concat (requests : List Request) (q : Request) :
    recent (requests ++ [q]) = if q.isReset then [] else recent requests ++ [q] := by
  rw [recent, List.rtakeWhile_concat]
  cases q <;> rfl

private theorem lastSource_concat (requests : List Request) (q : Request) (key : Key) :
    lastSource (requests ++ [q]) key = (q.sourceFor? key).or (lastSource requests key) := by
  rw [lastSource, List.reverse_append, List.reverse_singleton, List.singleton_append,
    List.findSome?_cons]
  cases q.sourceFor? key <;> rfl

/-- The tracker after requests that are made one after the other. -/
def after [Host] (t : Tracker) (requests : List Request) : Tracker := ((session requests).run t).2

theorem after_concat [Host] (t : Tracker) (requests : List Request) (q : Request) :
    t.after (requests ++ [q]) = ((perform q).run.run (t.after requests)).2 := by
  rw [after, run_session_append, run_session_cons]
  rfl

theorem regular_after [Host] (provider version : Json) (requests : List Request) :
    ((new provider version).after requests).Regular := by
  induction requests using List.reverseRecOn with
  | nil => exact ⟨nofun, List.nodup_nil, nofun⟩
  | append_singleton requests q ih =>
    rw [after_concat]
    exact (effect_perform _ q).regular ih

theorem provider_after [Host] (provider version : Json) (requests : List Request) :
    ((new provider version).after requests).provider = provider ∧
      ((new provider version).after requests).version = version := by
  induction requests using List.reverseRecOn with
  | nil => exact ⟨rfl, rfl⟩
  | append_singleton requests q ih =>
    have hkept := (effect_perform ((new provider version).after requests) q).provider
    rw [after_concat, hkept.1, hkept.2]
    exact ih

/-- The examples of a tracker are those that were found since the last reset, each with the source
that it was given last. -/
theorem source?_after [Host] (provider version : Json) (requests : List Request) (key : Key) :
    ((new provider version).after requests).source? key = lastSource (recent requests) key := by
  induction requests using List.reverseRecOn with
  | nil => rfl
  | append_singleton requests q ih =>
    rw [after_concat, (effect_perform _ q).source?, ih, recent_concat]
    cases hq : q.isReset with
    | true => rfl
    | false => simp [lastSource_concat]

end Tracker

/-! ## The same with keys -/

/-- An example with each attempt under its own language. -/
def TrackedExample.keyed (e : TrackedExample) : KeyedExample :=
  ⟨e.name, e.source, e.attempts.map fun a => (.text a.language, a)⟩

theorem TrackedExample.values_keyed (e : TrackedExample) : e.keyed.values = e := by
  rw [keyed, KeyedExample.values, Keyed.values, List.map_map]
  simp [Function.comp_def]

theorem Keyed.isUnder_of_key {α : Type} {name : Json} {key : Key} (hkey : name.key? = some key)
    (entry : Json × α) : isUnder name entry = decide (entry.1.key? = some key) :=
  Datum.sameKey_of_key hkey entry.1

namespace Tracker

/-- A tracker with each example under its own name. -/
def keyed (t : Tracker) : KeyedTracker :=
  ⟨t.provider, t.version, t.examples.map fun e => (e.name, e.keyed)⟩

theorem values_keyed (t : Tracker) : t.keyed.values = t := by
  rw [keyed, KeyedTracker.values, Keyed.values, List.map_map, List.map_map]
  simp [Function.comp_def, TrackedExample.values_keyed]

section Found

variable {name : Json} {key : Key} (hkey : name.key? = some key)
include hkey

theorem find?_keyed (examples : List TrackedExample) :
    Keyed.find? name (examples.map fun e => (e.name, e.keyed)) =
      (examples.find? (·.hasName name)).map TrackedExample.keyed := by
  induction examples with
  | nil => rfl
  | cons e rest ih =>
    simp only [Keyed.find?, List.map_cons, List.find?_cons, Keyed.isUnder_of_key hkey,
      hasName_of_key hkey] at ih ⊢
    by_cases he : e.name.key? = some key
    · simp [he]
    · simpa [he] using ih

private theorem put_found (source : Json) (examples : List TrackedExample) :
    Keyed.put name (match Keyed.find? name (examples.map fun e => (e.name, e.keyed)) with
      | none => ⟨name, source, []⟩
      | some e => { e with source := source }) (examples.map fun e => (e.name, e.keyed)) =
      (setSource name source examples).map fun e => (e.name, e.keyed) := by
  rw [find?_keyed hkey]
  induction examples with
  | nil => rfl
  | cons e rest ih =>
    rw [List.map_cons, Keyed.put, Keyed.isUnder_of_key hkey, setSource, List.find?_cons,
      hasName_of_key hkey]
    by_cases he : e.name.key? = some key
    · simp [he, TrackedExample.keyed]
    · simpa [he] using ih

/-- No other example stands under the key, so that setting all that do is setting the first. -/
theorem put_recorded (a : Attempt) (attempts : Keyed Attempt) {examples : List TrackedExample}
    (hnodup : (examples.map fun e => e.name.key?).Nodup) {e : TrackedExample}
    (he : examples.find? (·.hasName name) = some e)
    (hattempts : attempts = (TrackedExample.setAttempt a e.attempts).map fun b =>
      (.text b.language, b)) :
    Keyed.put name { e.keyed with attempts := attempts }
        (examples.map fun e => (e.name, e.keyed)) =
      (setAttempt name a examples).map fun e => (e.name, e.keyed) := by
  induction examples with
  | nil => cases he
  | cons first rest ih =>
    rw [List.map_cons, List.nodup_cons] at hnodup
    rw [List.find?_cons, hasName_of_key hkey] at he
    rw [List.map_cons, Keyed.put, Keyed.isUnder_of_key hkey, setAttempt, List.map_cons,
      hasName_of_key hkey, ← setAttempt]
    by_cases hfirst : first.name.key? = some key
    · have hkeep : setAttempt name a rest = rest := by
        conv_rhs => rw [← List.map_id rest]
        apply List.map_congr_left
        intro other hother
        have hne : other.name.key? ≠ some key := fun h =>
          hnodup.1 (List.mem_map.mpr ⟨other, hother, h.trans hfirst.symm⟩)
        simp [hasName_of_key hkey, hne]
      simp only [hfirst, decide_true] at he
      obtain rfl := Option.some.inj he
      simp [hfirst, hkeep, hattempts, TrackedExample.keyed]
    · simp only [hfirst, decide_false] at he
      simp [hfirst, ih hnodup.2 he]

end Found

private theorem put_attempts (a : Attempt) (attempts : List Attempt) :
    Keyed.put (.text a.language) a (attempts.map fun b => (.text b.language, b)) =
      (TrackedExample.setAttempt a attempts).map fun b => (.text b.language, b) := by
  have hkey : (Json.text a.language).key? = some (.text a.language) := rfl
  induction attempts with
  | nil => rfl
  | cons b rest ih =>
    rw [List.map_cons, Keyed.put, Keyed.isUnder_of_key hkey, TrackedExample.setAttempt]
    by_cases hb : b.language = a.language
    · simp [Json.key?, hb]
    · simpa [Json.key?, hb] using ih

theorem eq_language_of_checkAttempt [Host] {language severity detail multiple : Json} {a : Attempt}
    (h : checkAttempt language severity detail multiple = .ok a) : language = .text a.language := by
  rw [checkAttempt, Checked.mapError_eq_ok_iff] at h
  have htext : (Datum.asText (.ofJson language)).within (.key "target_language") =
      .ok a.language := Attempt.language_of_ofEntries _ a h
  rw [Checked.within_eq_ok_iff] at htext
  cases language with
  | text t => rw [Except.ok.inj htext]
  | _ => cases htext

private theorem found_keyed (t : Tracker) (name source : Json) :
    t.keyed.found name source = (t.found name source).map keyed := by
  rw [KeyedTracker.found]
  cases hname : name.key? with
  | none =>
    rw [checkName_of_no_key hname, found_of_no_key hname]
    rfl
  | some key =>
    rw [checkName_of_key hname, found_of_key hname]
    exact congrArg (fun examples : Keyed KeyedExample =>
      Except.ok (ε := Fault) (KeyedTracker.mk t.provider t.version examples))
        (put_found hname source t.examples)

private theorem record_keyed [Host] {t : Tracker} (ht : t.Regular)
    (name language severity detail multiple : Json) :
    t.keyed.record name language severity detail multiple =
      (t.record name language severity detail multiple).map fun (a, after) => (a, after.keyed) := by
  rw [KeyedTracker.record, record]
  cases hname : name.key? with
  | none =>
    rw [checkName_of_no_key hname]
    rfl
  | some key =>
    have hany : t.examples.any (·.hasName name) = (t.examples.find? (·.hasName name)).isSome :=
      (List.isSome_find? ..).symm
    have hfind : Keyed.find? name t.keyed.examples = _ := find?_keyed hname t.examples
    rw [checkName_of_key hname, hfind, hany]
    cases he : t.examples.find? (·.hasName name) with
    | none => rfl
    | some e =>
      simp only [Option.map_some, Option.isSome_some]
      cases ha : checkAttempt language severity detail multiple with
      | error fault => rfl
      | ok a =>
        obtain rfl := eq_language_of_checkAttempt ha
        have hput := put_recorded hname a _ ht.keys_nodup he (put_attempts a e.attempts)
        exact congrArg (fun examples : Keyed KeyedExample =>
          Except.ok (a, KeyedTracker.mk t.provider t.version examples)) hput

/-- A tracker that keeps its values under their own keys goes on doing so, and gives the answers of
the tracker that does not keep the keys. -/
theorem answer_keyed [Host] {t : Tracker} (ht : t.Regular) (q : Request) :
    t.keyed.answer q = (((perform q).run.run t).1, ((perform q).run.run t).2.keyed) := by
  cases q with
  | find name source =>
    rw [KeyedTracker.answer, found_keyed, run_perform_find]
    cases t.found name source <;> rfl
  | record name language severity detail multiple =>
    rw [KeyedTracker.answer, record_keyed ht, run_perform_record]
    cases t.record name language severity detail multiple <;> rfl
  | build =>
    have hread : t.keyed.answer .build =
        (((perform .build).run.run t.keyed.values).1, t.keyed) := rfl
    rw [hread, values_keyed, run_perform_build]
  | count =>
    have hread : t.keyed.answer .count =
        (((perform .count).run.run t.keyed.values).1, t.keyed) := rfl
    rw [hread, values_keyed]
    rfl
  | reset => rfl
  | write s asked w =>
    have hread : t.keyed.answer (.write s asked w) =
        (((perform (.write s asked w)).run.run t.keyed.values).1, t.keyed) := rfl
    rw [hread, values_keyed]
    rfl

theorem answers_keyed [Host] {t : Tracker} (ht : t.Regular) (requests : List Request) :
    t.keyed.answers requests = (((session requests).run t).1, (t.after requests).keyed) := by
  induction requests generalizing t with
  | nil => rfl
  | cons q rest ih =>
    have hnext := ih ((effect_perform t q).regular ht)
    rw [KeyedTracker.answers, answer_keyed ht]
    simp only
    rw [hnext]
    rfl

end Tracker

end ConversionCoverage

import ConversionCoverage.Host.Usual
import ConversionCoverage.Proofs.Export
import ConversionCoverage.Tracker.Session

/-!
# Requests that fail

A request that fails leaves a tracker as it found it, whatever came before and whatever its arguments
are. So the requests after it are answered as if it had not been made.
-/

namespace ConversionCoverage.Tracker

/-! ## Operations in one step -/

theorem run_findExample (t : Tracker) (name source : Json) :
    (findExample name source).run.run t = match t.found name source with
      | .ok after => (.ok (), after)
      | .error fault => (.error fault, t) := by
  rw [findExample, run_bind, run_ofExcept, found]
  cases checkName name with
  | error fault => rfl
  | ok _ => rfl

section Host

variable [Host]

theorem run_recordAttempt (t : Tracker) (name language severity detail multiple : Json) :
    (recordAttempt name language severity detail multiple).run.run t =
      match t.record name language severity detail multiple with
      | .ok (a, after) => (.ok a, after)
      | .error fault => (.error fault, t) := by
  rw [recordAttempt, run_bind, run_ofExcept, record]
  cases checkName name with
  | error fault => rfl
  | ok _ =>
    simp only [run_bind, run_get]
    cases t.examples.any (·.hasName name) with
    | false => rfl
    | true =>
      cases checkAttempt language severity detail multiple with
      | error fault => rfl
      | ok a => rfl

omit [Host] in
theorem run_buildRecord (t : Tracker) :
    buildRecord.run.run t = (t.build.mapError .invalid, t) := by
  rw [buildRecord, run_bind, run_get]
  exact run_ofExcept _ t

/-! ## Requests -/

/-- An operation that leaves a tracker as it found it whenever it fails. -/
def ChecksFirst {α : Type} (x : Operation α) : Prop :=
  ∀ t fault after, x.run.run t = (.error fault, after) → after = t

omit [Host] in
theorem ChecksFirst.bind_return {α β : Type} {x : Operation α} (hx : ChecksFirst x) (f : α → β) :
    ChecksFirst (x >>= fun a => return f a) := by
  intro t fault after h
  rw [run_bind] at h
  cases hrun : x.run.run t with
  | mk result last =>
    rw [hrun] at h
    cases result with
    | ok a => cases h
    | error found =>
      cases h
      exact hx t fault after hrun

omit [Host] in
private theorem checksFirst_findExample (name source : Json) :
    ChecksFirst (findExample name source) := by
  intro t fault after h
  rw [run_findExample] at h
  cases hfound : t.found name source with
  | ok done =>
    rw [hfound] at h
    cases h
  | error found =>
    rw [hfound] at h
    cases h
    rfl

private theorem checksFirst_recordAttempt (name language severity detail multiple : Json) :
    ChecksFirst (recordAttempt name language severity detail multiple) := by
  intro t fault after h
  rw [run_recordAttempt] at h
  cases hrecord : t.record name language severity detail multiple with
  | ok done =>
    rw [hrecord] at h
    cases h
  | error found =>
    rw [hrecord] at h
    cases h
    rfl

omit [Host] in
private theorem checksFirst_buildRecord : ChecksFirst buildRecord := by
  intro t fault after h
  rw [run_buildRecord] at h
  exact (Prod.mk.inj h).2.symm

private theorem checksFirst_perform (q : Request) : ChecksFirst (perform q) := by
  cases q with
  | find name source =>
    apply ChecksFirst.bind_return _ fun _ => Answer.done
    exact checksFirst_findExample name source
  | record name language severity detail multiple =>
    apply ChecksFirst.bind_return _ Answer.attempt
    exact checksFirst_recordAttempt name language severity detail multiple
  | build => exact checksFirst_buildRecord.bind_return Answer.record
  -- The others do not fail.
  | count =>
    intro t fault after h
    cases h
  | reset =>
    intro t fault after h
    cases h
  | write s asked w =>
    intro t fault after h
    cases h

theorem run_session_cons (q : Request) (rest : List Request) (t : Tracker) :
    (session (q :: rest)).run t =
      (((perform q).run.run t).1 :: ((session rest).run ((perform q).run.run t).2).1,
        ((session rest).run ((perform q).run.run t).2).2) := rfl

theorem run_session_append (before later : List Request) (t : Tracker) :
    (session (before ++ later)).run t =
      (((session before).run t).1 ++ ((session later).run ((session before).run t).2).1,
        ((session later).run ((session before).run t).2).2) := by
  induction before generalizing t with
  | nil => rfl
  | cons q rest ih =>
    rw [List.cons_append, run_session_cons, run_session_cons, ih]
    rfl

private theorem length_session (requests : List Request) (t : Tracker) :
    ((session requests).run t).1.length = requests.length := by
  induction requests generalizing t with
  | nil => rfl
  | cons q rest ih => simp [run_session_cons, ih]

/-- Whatever a tracker has been asked before, a request that fails leaves it as it was: its examples
in their order, their sources, their attempts and how many there are. Whatever is asked later is
answered as if the failed request had not been made, and the tracker ends up the same. -/
theorem session_without_failed (provider version : Json) (before : List Request) (q : Request)
    {answers : List (Except Fault Answer)} {t after : Tracker} {fault : Fault}
    (hbefore : (session before).run (new provider version) = (answers, t))
    (hq : (perform q).run.run t = (.error fault, after)) :
    after = t ∧ ∀ later, ∃ more last, more.length = later.length ∧
      (session (before ++ later)).run (new provider version) = (answers ++ more, last) ∧
      (session (before ++ q :: later)).run (new provider version) =
        (answers ++ .error fault :: more, last) := by
  obtain rfl := checksFirst_perform q t fault after hq
  refine ⟨rfl, ?_⟩
  intro later
  refine ⟨((session later).run after).1, ((session later).run after).2, ?_, ?_, ?_⟩
  · exact length_session later after
  · rw [run_session_append, hbefore]
  · rw [run_session_append, hbefore, run_session_cons, hq]

end Host

/-- An example with an attempt that a later one can take the place of. -/
def oneAttempt : List Request := [
  .find "a" "source",
  .record "a" "go" (.int 2) (.text "reason") (.bool false)]

open scoped Host in
theorem session_without_failed_severity :
    let q : Request := .record "a" "go" (.text "bad") (.text "") (.bool true)
    ∃ answers t fault, (session oneAttempt).run (new "p" "1") = (answers, t) ∧
      (perform q).run.run t = (.error fault, t) ∧
      ∀ later, ∃ more last, more.length = later.length ∧
        (session (oneAttempt ++ later)).run (new "p" "1") = (answers ++ more, last) ∧
        (session (oneAttempt ++ q :: later)).run (new "p" "1") =
          (answers ++ .error fault :: more, last) := by
  intro q
  refine ⟨_, _, _, rfl, rfl, ?_⟩
  exact (session_without_failed "p" "1" oneAttempt q rfl rfl).2

end ConversionCoverage.Tracker

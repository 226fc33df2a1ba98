import ConversionCoverage.Proofs.Histogram
import ConversionCoverage.Report.ByLanguage

/-!
# Tallies count

A tally that has been fed some attempts, in whatever order and together with whatever went before,
holds the number of all of them, of those of each severity, and of the occurrences of each reason.
What a statistic says of a tally is said of the attempts behind it.
-/

namespace ConversionCoverage

def Shares.share (s : Shares) : Severity → Share
  | .success => s.successes
  | .warning => s.warnings
  | .failure => s.failures
  | .fatal => s.fatals

/-- How often a reason was given by those of some attempts that did not succeed. -/
def Attempt.reasonCount (attempts : List Attempt) (reason : Text) : Nat :=
  attempts.countP fun a => !a.succeeded && a.detail = reason

namespace Tally

def number (t : Tally) : Severity → Nat
  | .success => t.successes
  | .warning => t.warnings
  | .failure => t.failures
  | .fatal => t.fatals

/-- The tally is right about a list of attempts. -/
structure Counts (t : Tally) (attempts : List Attempt) : Prop where
  total : t.total = attempts.length
  number : ∀ severity, t.number severity = attempts.countP fun a => a.severity = severity
  proper : t.errors.Proper
  errors : ∀ reason, t.errors.count reason = Attempt.reasonCount attempts reason

private theorem counts_empty : empty.Counts [] where
  total := rfl
  number severity := by cases severity <;> rfl
  proper := Histogram.proper_nil
  errors _ := rfl

private theorem number_add (t : Tally) (a : Attempt) (severity : Severity) :
    (t.add a).number severity = t.number severity + if a.severity = severity then 1 else 0 := by
  cases ha : a.severity <;> cases severity <;> simp [add, number, ha]

theorem total_add (t : Tally) (a : Attempt) : (t.add a).total = t.total + 1 := by
  cases ha : a.severity <;> simp [add, ha]

theorem errors_add (t : Tally) (a : Attempt) :
    (t.add a).errors = if a.succeeded then t.errors else t.errors.add a.detail := by
  cases ha : a.severity <;> simp [add, ha, Attempt.succeeded]

theorem proper_add {t : Tally} (h : t.errors.Proper) (a : Attempt) :
    (t.add a).errors.Proper := by
  rw [errors_add]
  split
  · exact h
  · exact h.add a.detail

theorem Counts.add {t : Tally} {attempts : List Attempt} (h : t.Counts attempts) (a : Attempt) :
    (t.add a).Counts (attempts ++ [a]) where
  total := by rw [total_add, h.total, List.length_append, List.length_singleton]
  number severity := by
    rw [number_add, h.number, List.countP_append, List.countP_singleton]
    simp
  proper := proper_add h.proper a
  errors reason := by
    have hcount : Attempt.reasonCount (attempts ++ [a]) reason =
        Attempt.reasonCount attempts reason +
          if !a.succeeded ∧ a.detail = reason then 1 else 0 := by
      simp [Attempt.reasonCount, List.countP_append, List.countP_singleton]
    rw [errors_add, hcount]
    cases ha : a.succeeded with
    | true => simp [h.errors]
    | false => by_cases hd : a.detail = reason <;> simp [Histogram.count_add, h.errors, hd]

/-- Feeding more attempts to a tally that is right keeps it right. -/
theorem Counts.foldl {t : Tally} {attempts : List Attempt} (h : t.Counts attempts)
    (more : List Attempt) : (more.foldl Tally.add t).Counts (attempts ++ more) := by
  induction more generalizing t attempts with
  | nil => simpa using h
  | cons a more ih =>
    rw [List.foldl_cons, ← List.singleton_append, ← List.append_assoc]
    exact ih (h.add a)

theorem Counts.perm {t : Tally} {xs ys : List Attempt} (h : t.Counts xs) (hp : xs.Perm ys) :
    t.Counts ys where
  total := h.total.trans hp.length_eq
  number severity := (h.number severity).trans (hp.countP_eq _)
  proper := h.proper
  errors reason := by rw [h.errors, Attempt.reasonCount, Attempt.reasonCount, hp.countP_eq]

theorem counts_ofAttempts (attempts : List Attempt) : (ofAttempts attempts).Counts attempts :=
  counts_empty.foldl attempts

theorem share_shares (t : Tally) (severity : Severity) :
    t.shares.share severity = .of (t.number severity) t.total := by
  cases severity <;> rfl

end Tally

namespace Attempt

theorem countP_failed (attempts : List Attempt) :
    (attempts.countP fun a => !a.succeeded) =
      (attempts.countP fun a => a.severity = .warning) +
        (attempts.countP fun a => a.severity = .failure) +
        (attempts.countP fun a => a.severity = .fatal) := by
  induction attempts with
  | nil => rfl
  | cons a attempts ih =>
    cases ha : a.severity <;> simp [succeeded, ha] at ih ⊢ <;> omega

private theorem countP_severities (attempts : List Attempt) :
    (attempts.countP fun a => a.severity = .success) +
      (attempts.countP fun a => a.severity = .warning) +
      (attempts.countP fun a => a.severity = .failure) +
      (attempts.countP fun a => a.severity = .fatal) = attempts.length := by
  have hfailed := countP_failed attempts
  have hsplit := List.length_eq_countP_add_countP (l := attempts) fun a => a.severity = .success
  simp only [succeeded, decide_eq_true_eq, decide_not] at hfailed hsplit
  omega

end Attempt

namespace LanguageStatistic

/-- The statistic is right about a list of attempts. -/
structure Describes (s : LanguageStatistic) (attempts : List Attempt) : Prop where
  total : s.total = attempts.length
  number : ∀ severity,
    (s.shares.share severity).number = attempts.countP fun a => a.severity = severity
  sum : s.shares.successes.number + s.shares.warnings.number + s.shares.failures.number +
    s.shares.fatals.number = s.total
  errors : Histogram.Ranks s.frequentErrors fun reason => Attempt.reasonCount attempts reason

theorem describes_ofTally (t : Tally) (attempts : List Attempt) (h : t.Counts attempts) :
    (ofTally none t).Describes attempts where
  total := h.total
  number severity := by
    simp only [ofTally, Tally.share_shares, Share.of, h.number]
  sum := by
    have hall := Attempt.countP_severities attempts
    simp only [← h.number, ← h.total] at hall
    exact hall
  errors := by
    have hcount : t.errors.count = fun reason => (Attempt.reasonCount attempts reason : Int) :=
      funext h.errors
    rw [← hcount]
    exact h.proper.ranks

theorem Describes.count_errors {s : LanguageStatistic} {attempts : List Attempt}
    (h : s.Describes attempts) (reason : Text) :
    Histogram.count s.frequentErrors reason = Attempt.reasonCount attempts reason :=
  h.errors.count_eq (fun _ => Int.natCast_nonneg _) reason

end LanguageStatistic

/-! ## What all tallies have in common -/

namespace Tally

/-- What every attempt that is added leaves true: the numbers of the severities make up the total,
and the numbers of the reasons make up those of the attempts that did not succeed. -/
structure Balanced (t : Tally) : Prop where
  total : t.total = t.successes + t.warnings + t.failures + t.fatals
  proper : t.errors.Proper
  sum : (t.errors.map ErrorCount.count).sum = t.warnings + t.failures + t.fatals

theorem balanced_empty : empty.Balanced := ⟨rfl, Histogram.proper_nil, rfl⟩

private theorem successes_add (t : Tally) (a : Attempt) :
    (t.add a).successes = t.successes + if a.succeeded then 1 else 0 := by
  cases ha : a.severity <;> simp [add, Attempt.succeeded, ha]

private theorem failed_add (t : Tally) (a : Attempt) :
    (t.add a).warnings + (t.add a).failures + (t.add a).fatals =
      t.warnings + t.failures + t.fatals + if a.succeeded then 0 else 1 := by
  cases ha : a.severity <;> simp [add, Attempt.succeeded, ha] <;> omega

theorem Balanced.add {t : Tally} (h : t.Balanced) (a : Attempt) : (t.add a).Balanced := by
  have hadd := total_add t a
  have hsuccesses := successes_add t a
  have hfailed := failed_add t a
  have herrors := errors_add t a
  have hcounts := Histogram.sum_counts_add t.errors a.detail
  obtain ⟨htotal, hproper, hsum⟩ := h
  cases ha : a.succeeded with
  | true =>
    simp only [ha, if_true] at hsuccesses hfailed herrors
    refine ⟨by omega, proper_add hproper a, ?_⟩
    rw [herrors]
    omega
  | false =>
    simp only [ha, Bool.false_eq_true, if_false] at hsuccesses hfailed herrors
    refine ⟨by omega, proper_add hproper a, ?_⟩
    rw [herrors]
    omega

theorem Balanced.foldl {t : Tally} (h : t.Balanced) (attempts : List Attempt) :
    (attempts.foldl Tally.add t).Balanced := by
  induction attempts generalizing t with
  | nil => exact h
  | cons a attempts ih => exact ih (h.add a)

/-- Tallies that differ at most in the order in which their reasons came up. -/
structure SameCounts (t u : Tally) : Prop where
  total : t.total = u.total
  number : ∀ severity, t.number severity = u.number severity
  errors : t.errors.Perm u.errors

/-- A tally that is the sum of two others, number by number and reason by reason. -/
structure IsSum (t u v : Tally) : Prop where
  total : t.total = u.total + v.total
  number : ∀ severity, t.number severity = u.number severity + v.number severity
  errors : ∀ reason, t.errors.count reason = u.errors.count reason + v.errors.count reason

namespace Counts

variable {t u v : Tally} {xs ys : List Attempt}

theorem mem_reasons_iff (h : t.Counts xs) (reason : Text) :
    reason ∈ t.errors.map ErrorCount.reason ↔
      ∃ a ∈ xs, a.severity ≠ .success ∧ a.detail = reason := by
  rw [h.proper.mem_reasons_iff, h.errors, Int.natCast_pos, Attempt.reasonCount,
    List.countP_pos_iff]
  simp [Attempt.succeeded]

theorem sameCounts (h : t.Counts xs) (h' : u.Counts xs) : t.SameCounts u where
  total := h.total.trans h'.total.symm
  number severity := (h.number severity).trans (h'.number severity).symm
  errors := h.proper.perm_of_count_eq h'.proper fun reason =>
    (h.errors reason).trans (h'.errors reason).symm

private theorem isSum (h : t.Counts (xs ++ ys)) (hx : u.Counts xs) (hy : v.Counts ys) :
    t.IsSum u v where
  total := by rw [h.total, hx.total, hy.total, List.length_append]
  number severity := by rw [h.number, hx.number, hy.number, List.countP_append]
  errors reason := by
    rw [h.errors, hx.errors, hy.errors, Attempt.reasonCount, List.countP_append]
    exact Int.natCast_add _ _

end Counts

/-- After each attempt a tally is balanced and lists the reasons given so far, whatever the order of
the attempts it comes to the same, and the tally of two lists together is the sum of theirs. -/
theorem ofAttempts_additive (attempts : List Attempt) :
    (∀ n, let seen := attempts.take n
      (ofAttempts seen).Balanced ∧
        ∀ reason, reason ∈ (ofAttempts seen).errors.map ErrorCount.reason ↔
          ∃ a ∈ seen, a.severity ≠ .success ∧ a.detail = reason) ∧
      (∀ others, attempts.Perm others →
        (ofAttempts attempts).SameCounts (ofAttempts others)) ∧
      ∀ more, (ofAttempts (attempts ++ more)).IsSum (ofAttempts attempts) (ofAttempts more) := by
  refine ⟨?_, ?_, ?_⟩
  · intro n
    exact ⟨balanced_empty.foldl _, (counts_ofAttempts _).mem_reasons_iff⟩
  · intro others hperm
    exact (counts_ofAttempts attempts).sameCounts ((counts_ofAttempts others).perm hperm.symm)
  · intro more
    exact (counts_ofAttempts _).isSum (counts_ofAttempts _) (counts_ofAttempts _)

/-- Attempts of every severity, two of them with one reason. -/
def ofEverySeverity : List Attempt :=
  [⟨"go", .warning, "x", false⟩, ⟨"c", .success, "y", false⟩, ⟨"go", .fatal, "y", true⟩,
    ⟨"c", .failure, "x", false⟩]

theorem ofAttempts_additive_reversed :
    ofEverySeverity.Perm ofEverySeverity.reverse ∧
      (ofAttempts ofEverySeverity).SameCounts (ofAttempts ofEverySeverity.reverse) ∧
      (ofAttempts (ofEverySeverity ++ ofEverySeverity)).errors.count "x" = 4 := by
  obtain ⟨-, hperm, hsum⟩ := ofAttempts_additive ofEverySeverity
  have hreverse : ofEverySeverity.Perm ofEverySeverity.reverse := (List.reverse_perm _).symm
  refine ⟨hreverse, hperm _ hreverse, ?_⟩
  rw [(hsum ofEverySeverity).errors]
  decide

end Tally

end ConversionCoverage

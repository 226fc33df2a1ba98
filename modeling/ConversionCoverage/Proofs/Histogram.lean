import ConversionCoverage.Tally
import Mathlib.Algebra.Ring.Int.Defs
import Mathlib.Data.List.Nodup

/-!
# Histograms and their ranking

Counting a reason once more raises its count by one and leaves all others alone. Ranked, a
histogram lists the same counts in the one order in which each count outranks the next.
-/

namespace ConversionCoverage

namespace ErrorCount

/-- A count outranks a smaller one, and an equal one of a smaller reason. -/
def Outranks (a b : ErrorCount) : Prop :=
  b.count < a.count ∨ b.count = a.count ∧ b.reason < a.reason

private theorem outranks_of_precedes (a b : ErrorCount) (h : precedes a b)
    (hne : a.reason ≠ b.reason) :
    a.Outranks b := by
  simp only [precedes, Bool.or_eq_true, Bool.and_eq_true, decide_eq_true_eq] at h
  rcases h with h | ⟨h, hle⟩
  · exact .inl h
  · refine .inr ⟨h, ?_⟩
    simp only [Text.le, decide_eq_true_eq] at hle
    exact Std.lt_of_le_of_ne hle hne.symm

instance (a b : ErrorCount) : Decidable (a.Outranks b) :=
  inferInstanceAs (Decidable (_ ∨ _ ∧ _))

private theorem Outranks.asymm {a b : ErrorCount} (h : a.Outranks b) : ¬ b.Outranks a := by
  intro h'
  rcases h with h | ⟨hcount, h⟩
  · rcases h' with h' | ⟨hcount', _⟩ <;> omega
  · rcases h' with h' | ⟨_, h'⟩
    · omega
    · exact List.lt_irrefl _ (List.lt_trans h h')

/-- Counts can be put into an order in which each outranks the next in only one way. -/
theorem eq_of_perm_of_outranks {counts others : List ErrorCount} (hperm : counts.Perm others)
    (hcounts : counts.Pairwise Outranks) (hothers : others.Pairwise Outranks) :
    counts = others := by
  apply hperm.eq_of_pairwise _ hcounts hothers
  intro a b _ _ hab hba
  exact absurd hba hab.asymm

end ErrorCount

namespace Histogram

/-- Every reason is listed once, and with a count that is not zero. -/
structure Proper (h : Histogram) : Prop where
  nodup : (h.map ErrorCount.reason).Nodup
  pos : ∀ e ∈ h, 0 < e.count

/-- The list gives the number `f r` of every reason `r` that there is, the most frequent first. -/
structure Ranks (counts : List ErrorCount) (f : Text → Int) : Prop where
  mem_iff : ∀ reason n, ⟨reason, n⟩ ∈ counts ↔ 0 < n ∧ n = f reason
  nodup : (counts.map ErrorCount.reason).Nodup
  ordered : counts.Pairwise ErrorCount.Outranks

@[simp] theorem count_nil (reason : Text) : count [] reason = 0 := rfl

theorem count_cons (e : ErrorCount) (h : Histogram) (reason : Text) :
    count (e :: h) reason = if e.reason = reason then e.count else count h reason := by
  by_cases he : e.reason = reason <;> simp [count, he]

theorem count_add (h : Histogram) (r s : Text) :
    (h.add r).count s = h.count s + if r = s then 1 else 0 := by
  induction h with
  | nil => by_cases hrs : r = s <;> simp [add, count_cons, hrs]
  | cons e rest ih =>
    rw [add]
    by_cases he : e.reason = r
    · subst he
      by_cases hs : e.reason = s <;> simp [count_cons, hs]
    · rw [if_neg he, count_cons, count_cons, ih]
      by_cases hs : e.reason = s
      · have hrs : r ≠ s := fun h => he (hs.trans h.symm)
        simp [hs, hrs]
      · simp [hs]

private theorem mem_reasons_add (h : Histogram) (r s : Text) :
    s ∈ (h.add r).map ErrorCount.reason ↔ s = r ∨ s ∈ h.map ErrorCount.reason := by
  induction h with
  | nil => simp [add]
  | cons e rest ih =>
    rw [add]
    by_cases he : e.reason = r
    · subst he
      simp
    · simp only [if_neg he, List.map_cons, List.mem_cons, ih]
      exact or_left_comm

theorem proper_nil : Proper [] := ⟨List.nodup_nil, by simp⟩

theorem Proper.add {h : Histogram} (hp : h.Proper) (reason : Text) :
    (h.add reason).Proper := by
  induction h with
  | nil => exact ⟨List.nodup_singleton _, by simp [Histogram.add]⟩
  | cons e rest ih =>
    obtain ⟨hn, hpos⟩ := hp
    obtain ⟨hfresh, hrest⟩ := List.nodup_cons.mp hn
    have hadd := ih ⟨hrest, fun x hx => hpos x (by simp [hx])⟩
    have he : 0 < e.count := hpos e (by simp)
    rw [Histogram.add]
    by_cases hr : e.reason = reason
    · subst hr
      refine ⟨by simpa using hn, ?_⟩
      intro x hx
      rcases List.mem_cons.mp (by simpa using hx) with rfl | hx
      · exact Int.add_pos he Int.one_pos
      · exact hpos x (by simp [hx])
    · simp only [if_neg hr]
      refine ⟨List.nodup_cons.mpr ⟨?_, hadd.nodup⟩, ?_⟩
      · rw [mem_reasons_add]
        exact fun h => h.elim hr hfresh
      · intro x hx
        rcases List.mem_cons.mp hx with rfl | hx
        · exact he
        · exact hadd.pos x hx

theorem count_of_mem (h : Histogram) (hn : (h.map ErrorCount.reason).Nodup) (e : ErrorCount)
    (he : e ∈ h) : h.count e.reason = e.count := by
  induction h with
  | nil => simp at he
  | cons x rest ih =>
    obtain ⟨hfresh, hrest⟩ := List.nodup_cons.mp hn
    rw [count_cons]
    rcases List.mem_cons.mp he with rfl | he
    · simp
    · have hne : x.reason ≠ e.reason := fun h => hfresh (h ▸ List.mem_map_of_mem he)
      rw [if_neg hne, ih hrest he]

theorem mem_of_count_ne_zero (h : Histogram) (reason : Text) (hc : h.count reason ≠ 0) :
    ⟨reason, h.count reason⟩ ∈ h := by
  induction h with
  | nil => simp at hc
  | cons e rest ih =>
    rw [count_cons] at hc ⊢
    by_cases he : e.reason = reason
    · subst he
      simp
    · simp only [if_neg he] at hc ⊢
      exact List.mem_cons_of_mem _ (ih hc)

theorem Proper.mem_iff {h : Histogram} (hp : h.Proper) (reason : Text) (n : Int) :
    ⟨reason, n⟩ ∈ h ↔ 0 < n ∧ n = h.count reason := by
  constructor
  · intro hm
    exact ⟨hp.pos _ hm, (count_of_mem h hp.nodup _ hm).symm⟩
  · rintro ⟨hpos, rfl⟩
    exact mem_of_count_ne_zero h reason (by omega)

theorem Proper.mem_reasons_iff {h : Histogram} (hp : h.Proper) (reason : Text) :
    reason ∈ h.map ErrorCount.reason ↔ 0 < h.count reason := by
  constructor
  · intro hm
    obtain ⟨e, he, rfl⟩ := List.mem_map.mp hm
    rw [count_of_mem h hp.nodup e he]
    exact hp.pos e he
  · intro hpos
    have hm : ⟨reason, h.count reason⟩ ∈ h := (hp.mem_iff reason _).mpr ⟨hpos, rfl⟩
    exact List.mem_map_of_mem (f := ErrorCount.reason) hm

theorem Proper.perm_of_count_eq {g h : Histogram} (hg : g.Proper) (hh : h.Proper)
    (hcount : ∀ reason, g.count reason = h.count reason) : g.Perm h := by
  rw [List.perm_ext_iff_of_nodup hg.nodup.of_map hh.nodup.of_map]
  intro e
  rw [hg.mem_iff e.reason e.count, hh.mem_iff e.reason e.count, hcount]

theorem sum_counts_add (h : Histogram) (reason : Text) :
    ((h.add reason).map ErrorCount.count).sum = (h.map ErrorCount.count).sum + 1 := by
  induction h with
  | nil => rfl
  | cons e rest ih =>
    rw [add]
    by_cases he : e.reason = reason
    · simp [he, Int.add_right_comm]
    · simp [he, ih, Int.add_assoc]

theorem ranked_perm (h : Histogram) : h.ranked.Perm h := List.mergeSort_perm _ _

theorem pairwise_ranked (h : Histogram) (hn : (h.map ErrorCount.reason).Nodup) :
    h.ranked.Pairwise ErrorCount.Outranks := by
  have hle : h.ranked.Pairwise fun a b => ErrorCount.precedes a b :=
    List.pairwise_mergeSort ErrorCount.precedes_trans ErrorCount.precedes_total h
  have hne : h.ranked.Pairwise fun a b => a.reason ≠ b.reason := by
    rw [← List.pairwise_map]
    exact (h.ranked_perm.map ErrorCount.reason).nodup_iff.mpr hn
  exact (hle.and hne).imp fun hab => ErrorCount.outranks_of_precedes _ _ hab.1 hab.2

theorem Proper.ranks {h : Histogram} (hp : h.Proper) : Ranks (h.frequent none) h.count where
  mem_iff reason n := h.ranked_perm.mem_iff.trans (hp.mem_iff reason n)
  nodup := (h.ranked_perm.map ErrorCount.reason).nodup_iff.mpr hp.nodup
  ordered := pairwise_ranked h hp.nodup

theorem Ranks.count_eq {counts : List ErrorCount} {f : Text → Int} (hr : Ranks counts f)
    (hf : ∀ r, 0 ≤ f r) (reason : Text) : count counts reason = f reason := by
  by_cases hz : f reason = 0
  · by_contra hne
    have hm := mem_of_count_ne_zero counts reason (hz ▸ hne)
    exact hne ((hr.mem_iff _ _).mp hm).2
  · have h0 := hf reason
    have hpos : 0 < f reason := by omega
    exact count_of_mem counts hr.nodup ⟨reason, f reason⟩ ((hr.mem_iff _ _).mpr ⟨hpos, rfl⟩)

/-! ## Limits -/

/-- In whatever order a histogram lists its counts, its ranking is the same, and so is what a limit
lets through. -/
theorem frequent_eq_of_perm {g h : Histogram} (hperm : g.Perm h)
    (hn : (h.map ErrorCount.reason).Nodup) (limit : Option Int) :
    g.frequent limit = h.frequent limit := by
  have hg : (g.map ErrorCount.reason).Nodup := (hperm.map ErrorCount.reason).nodup_iff.mpr hn
  have hranked : g.ranked.Perm h.ranked := g.ranked_perm.trans (hperm.trans h.ranked_perm.symm)
  have heq : g.ranked = h.ranked :=
    ErrorCount.eq_of_perm_of_outranks hranked (pairwise_ranked g hg) (pairwise_ranked h hn)
  rw [frequent, frequent, heq]

/-- A limit keeps a front part: as many counts as it says, or for a negative limit all but as many,
as far as there are so many. -/
theorem exists_dropped (k : Int) (counts : List ErrorCount) :
    ∃ dropped, counts = limited (some k) counts ++ dropped ∧
      if 0 ≤ k then (limited (some k) counts).length = min k.natAbs counts.length
      else dropped.length = min k.natAbs counts.length := by
  cases k with
  | ofNat k =>
    refine ⟨counts.drop k, (List.take_append_drop k counts).symm, ?_⟩
    simp [limited]
  | negSucc k =>
    refine ⟨counts.drop (counts.length - (k + 1)), (List.take_append_drop _ counts).symm, ?_⟩
    rw [if_neg (by omega), List.length_drop, Int.natAbs_negSucc]
    omega

/-- A histogram of different reasons, whatever its numbers, is ranked in the one order in which each
count outranks the next, so that it makes no difference in which order the reasons came up. A limit
keeps a front part of the ranking. -/
theorem frequent_canonical (h : Histogram) (hn : (h.map ErrorCount.reason).Nodup) :
    (h.frequent none).Perm h ∧ (h.frequent none).Pairwise ErrorCount.Outranks ∧
      (∀ other : Histogram, other.Perm h → ∀ limit, other.frequent limit = h.frequent limit) ∧
      ∀ k : Int, ∃ dropped, h.frequent none = h.frequent (some k) ++ dropped ∧
        if 0 ≤ k then (h.frequent (some k)).length = min k.natAbs h.length
        else dropped.length = min k.natAbs h.length := by
  refine ⟨h.ranked_perm, pairwise_ranked h hn, ?_, ?_⟩
  · intro other hperm
    exact frequent_eq_of_perm hperm hn
  · intro k
    have hsplit := exists_dropped k h.ranked
    rw [h.ranked_perm.length_eq] at hsplit
    exact hsplit

/-- Reasons with a tie, and numbers that a tally never holds. -/
def uneven : Histogram := [⟨"c", -1⟩, ⟨"a", 2⟩, ⟨"", 0⟩, ⟨"b", 2⟩]

theorem frequent_canonical_uneven :
    (uneven.map ErrorCount.reason).Nodup ∧
      uneven.frequent none = [⟨"b", 2⟩, ⟨"a", 2⟩, ⟨"", 0⟩, ⟨"c", -1⟩] ∧
      Histogram.frequent uneven.reverse (some (-3)) = uneven.frequent (some (-3)) ∧
      (uneven.frequent (some 9)).length = 4 := by
  have hn : (uneven.map ErrorCount.reason).Nodup := by decide
  obtain ⟨hperm, hordered, hother, hlimit⟩ := frequent_canonical uneven hn
  refine ⟨hn, ?_, hother _ (List.reverse_perm _) _, ?_⟩
  · apply ErrorCount.eq_of_perm_of_outranks _ hordered (by decide)
    exact hperm.trans (by decide)
  · obtain ⟨dropped, -, hlength⟩ := hlimit 9
    exact hlength

end Histogram

end ConversionCoverage

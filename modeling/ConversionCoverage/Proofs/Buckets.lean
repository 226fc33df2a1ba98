import ConversionCoverage.Buckets
import Mathlib.Algebra.BigOperators.Ring.Finset
import Mathlib.Data.List.Sort

/-!
# What buckets hold

Gathering a list in one pass makes one bucket for each text that comes up, and what is in the
bucket of a text is what a pass over the items of this text alone would give. Counts taken bucket
by bucket add up to the count of the whole list.
-/

namespace ConversionCoverage

namespace Text

theorem nodup_distinct (texts : List Text) : (distinct texts).Nodup :=
  (pairwise_distinct texts).nodup

/-- Puts a text behind the others, unless it is one of them. -/
def appendNew (texts : List Text) (t : Text) : List Text :=
  if t ∈ texts then texts else texts ++ [t]

theorem mem_appendNew (texts : List Text) (t u : Text) :
    u ∈ appendNew texts t ↔ u ∈ texts ∨ u = t := by
  rw [appendNew]
  split
  · rename_i h
    constructor
    · exact .inl
    · rintro (hu | rfl)
      · exact hu
      · exact h
  · simp

theorem nodup_appendNew {texts : List Text} (hn : texts.Nodup) (t : Text) :
    (appendNew texts t).Nodup := by
  rw [appendNew]
  split
  · exact hn
  · rename_i h
    rw [← List.concat_eq_append]
    exact hn.concat h

/-- The different texts of a list in the order in which they come up. -/
def firstSeen (texts : List Text) : List Text := texts.foldl appendNew []

theorem firstSeen_concat (texts : List Text) (t : Text) :
    firstSeen (texts ++ [t]) = appendNew (firstSeen texts) t := by
  simp [firstSeen]

theorem mem_firstSeen (texts : List Text) (t : Text) : t ∈ firstSeen texts ↔ t ∈ texts := by
  induction texts using List.reverseRecOn with
  | nil => rfl
  | append_singleton texts u ih => simp [firstSeen_concat, mem_appendNew, ih]

theorem nodup_firstSeen (texts : List Text) : (firstSeen texts).Nodup := by
  induction texts using List.reverseRecOn with
  | nil => exact List.nodup_nil
  | append_singleton texts u ih =>
    rw [firstSeen_concat]
    exact nodup_appendNew ih u

theorem pairwise_lt_of_le {texts : List Text} (hle : texts.Pairwise fun a b => le a b)
    (hn : texts.Nodup) : texts.Pairwise (· < ·) := by
  apply (hle.and hn).imp
  intro a b hab
  exact Std.lt_of_le_of_ne (of_decide_eq_true hab.1) hab.2

theorem sort_firstSeen (texts : List Text) : sort (firstSeen texts) = distinct texts := by
  have hperm := sort_perm (firstSeen texts)
  have hlt : (sort (firstSeen texts)).Pairwise (· < ·) :=
    pairwise_lt_of_le (pairwise_sort _) (hperm.nodup_iff.mpr (nodup_firstSeen texts))
  apply hlt.eq_of_mem_iff (pairwise_distinct texts)
  intro t
  rw [hperm.mem_iff, mem_firstSeen, mem_distinct]

end Text

namespace Buckets

variable {α β γ : Type}

theorem change_map (start : α) (f : α → α) (key : Text) (keys : List Text) (g : Text → α)
    (hn : keys.Nodup) (hg : key ∉ keys → g key = start) :
    change start f key (keys.map fun k => (k, g k)) =
      (Text.appendNew keys key).map fun k => (k, if k = key then f (g k) else g k) := by
  induction keys with
  | nil => simp [change, Text.appendNew, hg]
  | cons k rest ih =>
    obtain ⟨hk, hrest⟩ := List.nodup_cons.mp hn
    rw [List.map_cons, change]
    by_cases he : k = key
    · subst he
      have hkeep : (rest.map fun l => (l, if l = k then f (g l) else g l)) =
          rest.map fun l => (l, g l) := by
        apply List.map_congr_left
        intro l hl
        have hne : l ≠ k := fun h => hk (h ▸ hl)
        simp [hne]
      simp [Text.appendNew, hkeep]
    · have hmem : key ∈ k :: rest ↔ key ∈ rest := by simp [Ne.symm he]
      have happend : Text.appendNew (k :: rest) key = k :: Text.appendNew rest key := by
        by_cases hin : key ∈ rest <;> simp [Text.appendNew, hmem, hin]
      rw [if_neg he, ih hrest (fun h => hg (mt hmem.mp h)), happend, List.map_cons, if_neg he]

/-- One bucket for each text, with what the items of this text alone give. -/
theorem collect_eq (key : β → Text) (start : α) (step : α → β → α) (items : List β) :
    collect key start step items = (Text.firstSeen (items.map key)).map fun k =>
      (k, (items.filter fun x => key x = k).foldl step start) := by
  induction items using List.reverseRecOn with
  | nil => rfl
  | append_singleton items x ih =>
    have hfresh : key x ∉ Text.firstSeen (items.map key) →
        (items.filter fun y => key y = key x).foldl step start = start := by
      intro h
      have hnone : items.filter (fun y => key y = key x) = [] := by
        rw [List.filter_eq_nil_iff]
        intro y hy he
        apply h
        rw [Text.mem_firstSeen, ← of_decide_eq_true he]
        exact List.mem_map_of_mem hy
      rw [hnone, List.foldl_nil]
    have hstep : collect key start step (items ++ [x]) =
        add key start step (collect key start step items) x := by
      simp [collect]
    rw [hstep, ih, add, change_map start _ (key x) _ _ (Text.nodup_firstSeen _) hfresh,
      List.map_append, List.map_singleton, Text.firstSeen_concat]
    apply List.map_congr_left
    intro k _
    by_cases hk : k = key x
    · simp [hk]
    · simp [hk, Ne.symm hk]

theorem sorted_collect (key : β → Text) (start : α) (step : α → β → α) (items : List β) :
    (collect key start step items).sorted = (Text.distinct (items.map key)).map fun k =>
      (k, (items.filter fun x => key x = k).foldl step start) := by
  rw [collect_eq, sorted, ← Text.sort_firstSeen, Text.sort]
  symm
  apply List.map_mergeSort
  intros
  rfl

private theorem change_map_values (φ : α → γ) (start : α) (f : α → α) (f' : γ → γ)
    (h : ∀ v, f' (φ v) = φ (f v)) (key : Text) (buckets : Buckets α) :
    change (φ start) f' key (buckets.map fun (k, v) => (k, φ v)) =
      (change start f key buckets).map fun (k, v) => (k, φ v) := by
  induction buckets with
  | nil => simp [change, h]
  | cons b rest ih =>
    obtain ⟨k, v⟩ := b
    by_cases hk : k = key
    · simp [change, hk, h]
    · simp [change, hk, ih]

/-- Two passes that run in step gather the same, bucket by bucket. -/
theorem collect_map (key : β → Text) (φ : α → γ) (start : α) (step : α → β → α)
    (step' : γ → β → γ) (h : ∀ v x, step' (φ v) x = φ (step v x)) (items : List β) :
    collect key (φ start) step' items =
      (collect key start step items).map fun (k, v) => (k, φ v) := by
  have hadd : ∀ (buckets : Buckets α) (x : β),
      add key (φ start) step' (buckets.map fun (k, v) => (k, φ v)) x =
        (add key start step buckets x).map fun (k, v) => (k, φ v) := by
    intro buckets x
    exact change_map_values φ start _ _ (fun v => h v x) (key x) buckets
  rw [collect, collect, ← List.foldl_hom _ hadd]
  rfl

theorem sorted_map (φ : α → γ) (buckets : Buckets α) :
    sorted (buckets.map fun (k, v) => (k, φ v)) = buckets.sorted.map fun (k, v) => (k, φ v) := by
  symm
  apply List.map_mergeSort
  intros
  rfl

theorem sum_countP_parts {κ : Type} [DecidableEq κ] (key : β → κ) (p : β → Bool)
    (keys : List κ) (items : List β) (hn : keys.Nodup) (hmem : ∀ x ∈ items, key x ∈ keys) :
    (keys.map fun k => (items.filter fun x => key x = k).countP p).sum = items.countP p := by
  induction items with
  | nil => simp
  | cons x items ih =>
    have hone : (keys.map fun k => if p x ∧ key x = k then 1 else 0).sum =
        if p x then 1 else 0 := by
      rw [List.sum_map_eq_nsmul_single (key x)]
      · rw [List.count_eq_one_of_mem hn (hmem x (by simp))]
        simp
      · intro k hk _
        simp [Ne.symm hk]
    have hcons : ∀ k, ((x :: items).filter fun y => key y = k).countP p =
        (items.filter fun y => key y = k).countP p + if p x ∧ key x = k then 1 else 0 := by
      intro k
      simp [List.countP_filter, List.countP_cons]
    simp only [hcons]
    rw [List.sum_map_add, ih (fun y hy => hmem y (by simp [hy])), hone, List.countP_cons]

theorem sum_countP (key : β → Text) (p : β → Bool) (items : List β) :
    ((Text.distinct (items.map key)).map fun k =>
      (items.filter fun x => key x = k).countP p).sum = items.countP p := by
  apply sum_countP_parts key p _ _ (Text.nodup_distinct _)
  intro x hx
  exact Text.mem_distinct.mpr (List.mem_map_of_mem hx)

end Buckets

end ConversionCoverage

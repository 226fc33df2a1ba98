import ConversionCoverage.Datum.Written
import Mathlib.Tactic.Common

/-!
# How deep data are nested

The levels of the stack that showing a datum takes. A datum is shown only with room for all of them,
and only without that room is it found to be nested too deeply.
-/

namespace ConversionCoverage.Datum

mutual

/-- The number of levels that the shown form of a datum takes. -/
def levels : Datum → Nat
  | .dateTime t => t.inner + 1
  | .list items => itemsLevels items + 1
  | .pair a b => max (levels a) (levels b) + 1
  | .set [] => 1
  | .set (d :: rest) => itemsLevels (d :: rest) + 2
  | .mapping entries => entriesLevels entries + 1
  | _ => 1

def itemsLevels : List Datum → Nat
  | [] => 0
  | d :: rest => max (levels d) (itemsLevels rest)

def entriesLevels : List (Datum × Datum) → Nat
  | [] => 0
  | (key, value) :: rest => max (max (levels key) (levels value)) (entriesLevels rest)

end

theorem levels_le_itemsLevels {d : Datum} {items : List Datum} (h : d ∈ items) :
    d.levels ≤ itemsLevels items := by
  induction items with
  | nil => cases h
  | cons e rest ih =>
    rw [itemsLevels]
    rcases List.mem_cons.mp h with rfl | h
    · exact Nat.le_max_left _ _
    · exact Nat.le_trans (ih h) (Nat.le_max_right _ _)

theorem levels_le_entriesLevels {entry : Datum × Datum} {entries : List (Datum × Datum)}
    (h : entry ∈ entries) : entry.2.levels ≤ entriesLevels entries := by
  induction entries with
  | nil => cases h
  | cons e rest ih =>
    obtain ⟨key, value⟩ := e
    rw [entriesLevels]
    rcases List.mem_cons.mp h with rfl | h
    · exact Nat.le_trans (Nat.le_max_right _ _) (Nat.le_max_left _ _)
    · exact Nat.le_trans (ih h) (Nat.le_max_right _ _)

/-- A result for which there is room exactly if it takes at most `room` levels, unless something else
stands against it. -/
def KeepsTo {α : Type} (room levels : Nat) : Except WritingFault α → Prop
  | .ok _ => levels ≤ room
  | .error .tooDeep => room < levels
  | .error (.numeral _) => True

section KeepsTo

variable {α β : Type} {room m n : Nat} {x : Except WritingFault α} {f : α → Except WritingFault β}

private theorem KeepsTo.bind (hx : KeepsTo room m x) (hf : ∀ a, KeepsTo room n (f a)) :
    KeepsTo room (max m n) (x >>= f) := by
  cases x with
  | error fault =>
    cases fault with
    | numeral cause => trivial
    | tooDeep => exact Nat.lt_of_lt_of_le hx (Nat.le_max_left m n)
  | ok a =>
    show KeepsTo room (max m n) (f a)
    have ha := hf a
    generalize f a = y at ha
    cases y with
    | ok b => exact Nat.max_le.mpr ⟨hx, ha⟩
    | error fault =>
      cases fault with
      | numeral cause => trivial
      | tooDeep => exact Nat.lt_of_lt_of_le ha (Nat.le_max_right m n)

private theorem KeepsTo.map (h : KeepsTo room m x) (f : α → β) :
    KeepsTo room m (x >>= fun a => pure (f a)) := by
  have hdone (a : α) : KeepsTo room 0 (pure (f a) : Except WritingFault β) := Nat.zero_le room
  simpa using h.bind hdone

private theorem KeepsTo.succ (h : KeepsTo room m x) : KeepsTo (room + 1) (m + 1) x := by
  cases x with
  | ok a => exact Nat.succ_le_succ h
  | error fault =>
    cases fault with
    | numeral cause => trivial
    | tooDeep => exact Nat.succ_lt_succ h

end KeepsTo

-- The recursion is that of the shown form: a datum, the items of a list, the entries of a mapping.
mutual

theorem keepsTo_quoted : (room : Nat) → (d : Datum) → KeepsTo room d.levels (quoted room d)
  | 0, d => by
    have hpos : 0 < d.levels := by
      fun_cases levels d <;> omega
    simpa [quoted, KeepsTo] using hpos
  | room + 1, .null => by simp [quoted, KeepsTo, levels]
  | room + 1, .bool true => by simp [quoted, KeepsTo, levels]
  | room + 1, .bool false => by simp [quoted, KeepsTo, levels]
  | room + 1, .int n => by
    rw [quoted]
    cases Numeral.write n with
    | ok shown => exact Nat.le_add_left 1 room
    | error fault => trivial
  | room + 1, .float x => by simp [quoted, KeepsTo, levels]
  | room + 1, .text t => by simp [quoted, KeepsTo, levels]
  | room + 1, .bytes bs => by simp [quoted, KeepsTo, levels]
  | room + 1, .date d => by simp [quoted, KeepsTo, levels]
  | room + 1, .dateTime t => by
    rw [quoted, levels]
    split
    · rename_i h
      exact Nat.succ_lt_succ h
    · rename_i h
      exact Nat.succ_le_succ (Nat.le_of_not_lt h)
  | room + 1, .list items => by
    rw [quoted, levels]
    exact ((keepsTo_quotedItems room items).map _).succ
  | room + 1, .pair a b => by
    rw [quoted, levels]
    exact ((keepsTo_quoted room a).bind fun _ => (keepsTo_quoted room b).map _).succ
  | room + 1, .set [] => by simp [quoted, KeepsTo, levels]
  | 1, .set (d :: rest) => by
    simp [quoted, KeepsTo, levels]
  | room + 2, .set (d :: rest) => by
    rw [quoted, levels]
    · exact ((keepsTo_quotedItems room (d :: rest)).map _).succ.succ
    · exact nofun
  | room + 1, .mapping entries => by
    rw [quoted, levels]
    exact ((keepsTo_quotedEntries room entries).map _).succ
  | room + 1, .enclosing opened => by
    cases opened <;> simp [quoted, KeepsTo, levels]

theorem keepsTo_quotedItems (room : Nat) :
    (items : List Datum) → KeepsTo room (itemsLevels items) (quotedItems room items)
  | [] => by simp [quotedItems, KeepsTo, itemsLevels]
  | d :: rest => by
    rw [quotedItems, itemsLevels]
    exact (keepsTo_quoted room d).bind fun _ => (keepsTo_quotedItems room rest).map _

theorem keepsTo_quotedEntries (room : Nat) : (entries : List (Datum × Datum)) →
    KeepsTo room (entriesLevels entries) (quotedEntries room entries)
  | [] => by simp [quotedEntries, KeepsTo, entriesLevels]
  | (key, value) :: rest => by
    rw [quotedEntries, entriesLevels, Nat.max_assoc]
    exact (keepsTo_quoted room key).bind fun _ => (keepsTo_quoted room value).bind fun _ =>
      (keepsTo_quotedEntries room rest).map _

end

private theorem keepsTo_shown (room : Nat) (d : Datum) :
    KeepsTo room d.opened.levels (d.shown room) :=
  keepsTo_quoted room d.opened

theorem lt_levels_of_shown {room : Nat} {d : Datum} (h : d.shown room = .error .tooDeep) :
    room < d.opened.levels := by
  have hkeeps := keepsTo_shown room d
  rwa [h] at hkeeps

end ConversionCoverage.Datum

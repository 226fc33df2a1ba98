import ConversionCoverage.Schema
import Mathlib.Data.List.Forall2

/-!
# Plain data and what it spells

Data of the kinds that JSON has, and what its values mean: which of them are texts, truth values or
lists, and which value a mapping gives for a field. Checks of a schema accept what has a meaning, and
give this meaning.
-/

namespace ConversionCoverage

namespace Datum

/-- The keys of a mapping that are texts. -/
def names (entries : List (Datum × Datum)) : List Text :=
  entries.filterMap fun
    | (.text name, _) => some name
    | _ => none

/-- Data without those kinds of values that only YAML documents bring in. A key may be anything. -/
inductive Plain : Datum → Prop where
  | null : Plain .null
  | bool (b : Bool) : Plain (.bool b)
  | int (n : Int) : Plain (.int n)
  | float (x : Binary64) : Plain (.float x)
  | text (t : Text) : Plain (.text t)
  | list {items : List Datum} (hitems : ∀ d ∈ items, Plain d) : Plain (.list items)
  | mapping {entries : List (Datum × Datum)} (hnames : (names entries).Nodup)
    (hvalues : ∀ entry ∈ entries, Plain entry.2) : Plain (.mapping entries)

/-- What is known of the entries of a mapping in plain data. -/
structure PlainEntries (entries : List (Datum × Datum)) : Prop where
  names_nodup : (names entries).Nodup
  values : ∀ entry ∈ entries, entry.2.Plain

inductive IsText : Datum → Text → Prop where
  | text (t : Text) : IsText (.text t) t

/-- What counts as a truth value: one itself, a number that is 0 or 1, and a word in any case. -/
inductive Means : Datum → Bool → Prop where
  | bool (b : Bool) : Means (.bool b) b
  | int (b : Bool) : Means (.int b.toInt) b
  | float {x : Binary64} {b : Bool} (h : x.toInt? = some b.toInt) : Means (.float x) b
  | word {t : Text} {word : String} {b : Bool} (hword : (word, b) ∈ truthWords)
    (h : t.toAsciiSmall = word) : Means (.text t) b

/-- A list whose items spell values one after the other. -/
inductive Lists {α : Type} (Spells : Datum → α → Prop) : Datum → List α → Prop where
  | list {items : List Datum} {values : List α} (h : List.Forall₂ Spells items values) :
    Lists Spells (.list items) values

/-- A mapping whose entries spell a value. -/
inductive Maps {α : Type} (Spells : List (Datum × Datum) → α → Prop) : Datum → α → Prop where
  | mapping {entries : List (Datum × Datum)} {a : α} (h : Spells entries a) :
    Maps Spells (.mapping entries) a

/-- A check accepts what spells a value, and gives the value that is spelled. -/
def Decides {α : Type} (check : Datum → Checked α) (Spells : Datum → α → Prop) : Prop :=
  ∀ d, d.Plain → ∀ a, check d = .ok a ↔ Spells d a

attribute [simp] Plain.null Plain.bool Plain.int Plain.float Plain.text

@[simp] theorem plain_list_iff {items : List Datum} :
    Plain (.list items) ↔ ∀ d ∈ items, d.Plain := by
  constructor
  · intro h
    cases h with
    | list hitems => exact hitems
  · exact .list

@[simp] theorem plain_mapping_iff {entries : List (Datum × Datum)} :
    Plain (.mapping entries) ↔ (names entries).Nodup ∧ ∀ entry ∈ entries, entry.2.Plain := by
  constructor
  · intro h
    cases h with
    | mapping hnames hvalues => exact ⟨hnames, hvalues⟩
  · intro h
    exact .mapping h.1 h.2

theorem field?_eq_none_iff (name : Text) (entries : List (Datum × Datum)) :
    field? name entries = none ↔ ∀ d, (.text name, d) ∉ entries := by
  fun_induction field? name entries with
  | case1 => simp
  | case2 value rest =>
    constructor
    · intro h
      cases h
    · intro h
      exact absurd List.mem_cons_self (h value)
  | case3 t value rest hne ih => simp [ih, Ne.symm hne]
  | case4 entry rest hkey ih =>
    have hne : ∀ d, (.text name, d) ≠ entry := fun d h => hkey name d h.symm
    simp [ih, hne]

theorem field?_append (name : Text) (xs ys : List (Datum × Datum)) :
    field? name (xs ++ ys) = (field? name xs).or (field? name ys) := by
  fun_induction field? name xs with
  | case1 => rfl
  | case2 value rest => simp [field?]
  | case3 t value rest hne ih => simp [field?, hne, ih]
  | case4 entry rest hkey ih =>
    rw [List.cons_append, field?, ih]
    exact hkey

theorem mem_of_field? {name : Text} {entries : List (Datum × Datum)} {d : Datum}
    (h : field? name entries = some d) : (.text name, d) ∈ entries := by
  fun_induction field? name entries with
  | case1 => cases h
  | case2 value rest =>
    obtain rfl := Option.some.inj h
    exact List.mem_cons_self
  | case3 t value rest hne ih => exact List.mem_cons_of_mem _ (ih h)
  | case4 entry rest hkey ih => exact List.mem_cons_of_mem _ (ih h)

private theorem value_unique {name : Text} {entries : List (Datum × Datum)} {d e : Datum}
    (hnames : (names entries).Nodup) (hd : (.text name, d) ∈ entries)
    (he : (.text name, e) ∈ entries) : d = e := by
  induction entries with
  | nil => cases hd
  | cons entry rest ih =>
    have hrest : ∀ f, (.text name, f) ∈ rest → name ∈ names rest := by
      intro f hf
      exact List.mem_filterMap.mpr ⟨_, hf, rfl⟩
    cases hd with
    | head =>
      have hfresh : name ∉ names rest := (List.nodup_cons.mp hnames).1
      cases he with
      | head => rfl
      | tail _ he => exact absurd (hrest e he) hfresh
    | tail _ hd =>
      cases he with
      | head => exact absurd (hrest d hd) (List.nodup_cons.mp hnames).1
      | tail _ he =>
        have hsub : (names rest).Sublist (names (entry :: rest)) :=
          (List.sublist_cons_self entry rest).filterMap _
        exact ih (hnames.sublist hsub) hd he

theorem field?_eq_some_iff {name : Text} {entries : List (Datum × Datum)} {d : Datum}
    (hnames : (names entries).Nodup) :
    field? name entries = some d ↔ (.text name, d) ∈ entries := by
  constructor
  · exact mem_of_field?
  · intro hmem
    cases hfield : field? name entries with
    | none => exact absurd hmem ((field?_eq_none_iff name entries).mp hfield d)
    | some e => rw [value_unique hnames (mem_of_field? hfield) hmem]

end Datum

namespace Field

/-- What a mapping gives for a field: the value under the wire name; where no entry has that name,
the value under the plain name. -/
inductive Gives (field : Field) (entries : List (Datum × Datum)) : Option Datum → Prop where
  | wire {d : Datum} (h : (.text field.wire, d) ∈ entries) : Gives field entries (some d)
  | plain {d : Datum} (hwire : ∀ e, (.text field.wire, e) ∉ entries)
    (h : (.text field.plain, d) ∈ entries) : Gives field entries (some d)
  | missing (hwire : ∀ e, (.text field.wire, e) ∉ entries)
    (hplain : ∀ e, (.text field.plain, e) ∉ entries) : Gives field entries none

variable {α : Type} {field : Field} {entries : List (Datum × Datum)}

/-- The field is there, and its value spells `a`. -/
def Requires (field : Field) (Spells : Datum → α → Prop) (entries : List (Datum × Datum))
    (a : α) : Prop :=
  ∃ d, field.Gives entries (some d) ∧ Spells d a

/-- The value of the field spells `a`; or the field is missing, and `a` is the default. -/
def Allows (field : Field) (default : α) (Spells : Datum → α → Prop)
    (entries : List (Datum × Datum)) (a : α) : Prop :=
  field.Requires Spells entries a ∨ field.Gives entries none ∧ a = default

theorem gives_iff (hnames : (Datum.names entries).Nodup) {found : Option Datum} :
    field.Gives entries found ↔ (field.find? entries).map Prod.snd = found := by
  rw [find?]
  constructor
  · intro h
    cases h with
    | wire h => rw [(Datum.field?_eq_some_iff hnames).mpr h]; rfl
    | plain hwire h =>
      rw [(Datum.field?_eq_none_iff _ _).mpr hwire, (Datum.field?_eq_some_iff hnames).mpr h]
      rfl
    | missing hwire hplain =>
      rw [(Datum.field?_eq_none_iff _ _).mpr hwire, (Datum.field?_eq_none_iff _ _).mpr hplain]
      rfl
  · rintro rfl
    cases hwire : Datum.field? field.wire entries with
    | some d => exact .wire (Datum.mem_of_field? hwire)
    | none =>
      have hno := (Datum.field?_eq_none_iff _ _).mp hwire
      cases hplain : Datum.field? field.plain entries with
      | some d => exact .plain hno (Datum.mem_of_field? hplain)
      | none => exact .missing hno ((Datum.field?_eq_none_iff _ _).mp hplain)

private theorem Gives.plain_value {d : Datum} (h : field.Gives entries (some d))
    (hentries : Datum.PlainEntries entries) : d.Plain := by
  cases h with
  | wire h => exact hentries.values _ h
  | plain hwire h => exact hentries.values _ h

variable {check : Datum → Checked α} {Spells : Datum → α → Prop}

theorem required_eq_ok_iff (hcheck : Datum.Decides check Spells)
    (hentries : Datum.PlainEntries entries) {a : α} :
    field.required check entries = .ok a ↔ field.Requires Spells entries a := by
  have hgives := @gives_iff field entries hentries.names_nodup
  rw [required, Requires]
  cases hfind : field.find? entries with
  | none =>
    rw [hfind] at hgives
    constructor
    · intro h
      cases h
    · rintro ⟨d, hd, _⟩
      cases hgives.mp hd
  | some found =>
    obtain ⟨name, d⟩ := found
    rw [hfind] at hgives
    have hd : field.Gives entries (some d) := hgives.mpr rfl
    show (check d).within (.key name) = .ok a ↔ _
    rw [Checked.within_eq_ok_iff, hcheck d (hd.plain_value hentries)]
    constructor
    · intro h
      exact ⟨d, hd, h⟩
    · rintro ⟨e, he, h⟩
      cases hgives.mp he
      exact h

theorem optional_eq_ok_iff (hcheck : Datum.Decides check Spells)
    (hentries : Datum.PlainEntries entries) {default a : α} :
    field.optional default check entries = .ok a ↔ field.Allows default Spells entries a := by
  have hgives := @gives_iff field entries hentries.names_nodup
  have hrequired := @required_eq_ok_iff α field entries check Spells hcheck hentries a
  rw [optional, Allows, ← hrequired, required]
  cases hfind : field.find? entries with
  | none =>
    rw [hfind] at hgives
    have hmissing : field.Gives entries none := hgives.mpr rfl
    constructor
    · intro h
      exact .inr ⟨hmissing, (Except.ok.inj h).symm⟩
    · intro h
      rcases h with h | ⟨_, rfl⟩
      · cases h
      · rfl
  | some found =>
    rw [hfind] at hgives
    have hfound : ¬ field.Gives entries none := by
      intro h
      cases hgives.mp h
    simp [hfound]

end Field

/-! ## Values of fields -/

namespace Datum

theorem decides_asText : Decides asText IsText := by
  intro d hd t
  constructor
  · intro h
    cases hd with
    | text u =>
      obtain rfl := Except.ok.inj h
      exact .text u
    | _ => cases h
  · rintro ⟨⟩
    rfl

private theorem half_mem_toAsciiSmall {t : Text} {h : Fin 2048} (hmem : .half h ∈ t) :
    .half h ∈ t.toAsciiSmall :=
  List.mem_map.mpr ⟨.half h, hmem, rfl⟩

theorem find?_truthWords :
    ∀ entry ∈ truthWords,
      truthWords.find? (fun (word, _) => (entry.1 : Text) = word) = some entry := by
  decide

theorem boolOfText_eq_ok_iff {t : Text} {b : Bool} :
    boolOfText t = .ok b ↔ ∃ word : String, (word, b) ∈ truthWords ∧ t.toAsciiSmall = word := by
  rw [boolOfText]
  by_cases hhalf : t.any Utf8.isHalf = true
  -- The words are of characters only, and halves are kept when capitals are made small.
  · rw [if_pos hhalf]
    constructor
    · intro h
      cases h
    · rintro ⟨word, _, h⟩
      obtain ⟨c, hc, hchalf⟩ := List.any_eq_true.mp hhalf
      cases c with
      | char c => cases hchalf
      | half half =>
        have hmem := half_mem_toAsciiSmall hc
        rw [h] at hmem
        simp [Text.ofString] at hmem
  · rw [if_neg hhalf]
    constructor
    · intro h
      split at h
      · rename_i word found hfind
        cases h
        exact ⟨word, List.mem_of_find?_eq_some hfind, by simpa using List.find?_some hfind⟩
      · cases h
    · rintro ⟨word, hword, h⟩
      rw [h, find?_truthWords _ hword]

theorem boolOfInt_eq_ok_iff {n : Int} {b : Bool} : boolOfInt n = .ok b ↔ n = b.toInt := by
  rw [boolOfInt]
  by_cases h0 : n = 0
  · subst h0
    cases b <;> simp
  · by_cases h1 : n = 1
    · subst h1
      cases b <;> simp
    · cases b <;> simp [h0, h1, Checked.problem]

theorem decides_asBool : Decides asBool Means := by
  intro d hd b
  constructor
  · intro h
    cases hd with
    | bool c =>
      obtain rfl := Except.ok.inj h
      exact .bool c
    | int n =>
      simp only [asBool] at h
      split at h
      · obtain rfl := boolOfInt_eq_ok_iff.mp h
        exact .int b
      · cases h
    | float x =>
      simp only [asBool] at h
      split at h
      · rename_i n hn
        split at h
        · obtain rfl := boolOfInt_eq_ok_iff.mp h
          exact .float hn
        · cases h
      · cases h
    | text t =>
      obtain ⟨word, hword, ht⟩ := boolOfText_eq_ok_iff.mp h
      exact .word hword ht
    | _ => cases h
  · intro h
    cases h with
    | bool => rfl
    | int => cases b <;> rfl
    | float h =>
      simp only [asBool, h]
      cases b <;> rfl
    | word hword h => exact boolOfText_eq_ok_iff.mpr ⟨_, hword, h⟩

theorem itemsFrom_eq_ok_iff {α : Type} {check : Datum → Checked α} {Spells : Datum → α → Prop}
    (hcheck : Decides check Spells) (index : Nat) {items : List Datum}
    (hitems : ∀ d ∈ items, d.Plain) {values : List α} :
    Checked.itemsFrom check index items = .ok values ↔ List.Forall₂ Spells items values := by
  induction items generalizing index values with
  | nil =>
    rw [List.forall₂_nil_left_iff, Checked.itemsFrom]
    constructor
    · intro h
      exact (Except.ok.inj h).symm
    · rintro rfl
      rfl
  | cons d rest ih =>
    rw [Checked.itemsFrom, Checked.map_eq_ok_iff, List.forall₂_cons_left_iff]
    have hfirst := hcheck d (hitems d List.mem_cons_self)
    have hrest : ∀ e ∈ rest, e.Plain := fun e he => hitems e (List.mem_cons_of_mem _ he)
    constructor
    · rintro ⟨⟨a, more⟩, h, rfl⟩
      obtain ⟨ha, hmore⟩ := Checked.both_eq_ok_iff.mp h
      rw [Checked.within_eq_ok_iff, hfirst] at ha
      exact ⟨a, more, ha, (ih (index + 1) hrest).mp hmore, rfl⟩
    · rintro ⟨a, more, ha, hmore, rfl⟩
      refine ⟨(a, more), Checked.both_eq_ok_iff.mpr ⟨?_, ?_⟩, rfl⟩
      · rw [Checked.within_eq_ok_iff, hfirst]
        exact ha
      · exact (ih (index + 1) hrest).mpr hmore

theorem decides_listOf {α : Type} {check : Datum → Checked α} {Spells : Datum → α → Prop}
    (hcheck : Decides check Spells) : Decides (Checked.listOf check) (Lists Spells) := by
  intro d hd values
  constructor
  · intro h
    cases hd with
    | list hitems => exact .list ((itemsFrom_eq_ok_iff hcheck 0 hitems).mp h)
    | _ => cases h
  · rintro ⟨h⟩
    cases hd with
    | list hitems => exact (itemsFrom_eq_ok_iff hcheck 0 hitems).mpr h

theorem decides_mapping {α : Type} {shape : Shape}
    {ofEntries : List (Datum × Datum) → Checked α} {Spells : List (Datum × Datum) → α → Prop}
    (h : ∀ entries, PlainEntries entries → ∀ a, ofEntries entries = .ok a ↔ Spells entries a) :
    Decides (fun d => match d.asMapping shape with
      | .ok entries => ofEntries entries
      | .error issues => .error issues) (Maps Spells) := by
  intro d hd a
  cases hd with
  | mapping hnames hvalues =>
    have hentries := h _ ⟨hnames, hvalues⟩ a
    constructor
    · intro ha
      exact .mapping (hentries.mp ha)
    · rintro ⟨ha⟩
      exact hentries.mpr ha
  | _ =>
    constructor
    · intro ha
      cases ha
    · intro ha
      cases ha

end Datum

end ConversionCoverage

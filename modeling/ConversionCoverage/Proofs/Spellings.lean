import ConversionCoverage.Host.Usual
import ConversionCoverage.Proofs.PlainData
import ConversionCoverage.Record.Schema

/-!
# Two names for each field

Each field of a record, of an example and of an attempt may be written under either of two names,
and it makes no difference which one is used where. Reading a tree gives the same record after
fields have changed names, or the same issues at the same places, but for the names of the keys on
the way there.
-/

namespace ConversionCoverage

/-! ## Trees that differ in names only -/

namespace Field

/-- The two names of a field. -/
def names (field : Field) : List Text := [field.wire, field.plain]

/-- No name is shared by two fields. -/
abbrev Apart (fields : List Field) : Prop :=
  ∀ f ∈ fields, ∀ g ∈ fields, ∀ name ∈ f.names, name ∈ g.names → f = g

/-- The keys of a mapping are different, and none of the fields is there under both of its names. -/
structure Unambiguous (fields : List Field) (entries : List (Datum × Datum)) : Prop where
  names_nodup : (Datum.names entries).Nodup
  single : ∀ field ∈ fields,
    ¬ (field.wire ∈ Datum.names entries ∧ field.plain ∈ Datum.names entries)

end Field

namespace Datum

section Respelled

variable (fields : List Field) (Inside : Field → Datum → Datum → Prop)

/-- An entry that stays as it is, or that of a field, under either of its names, whose value may
differ inside. -/
inductive EntryRespelled : Datum × Datum → Datum × Datum → Prop where
  | kept (entry : Datum × Datum) : EntryRespelled entry entry
  | field {field : Field} {name other : Text} {value changed : Datum} (hfield : field ∈ fields)
    (hname : name ∈ field.names) (hother : other ∈ field.names)
    (hinside : Inside field value changed) :
    EntryRespelled (.text name, value) (.text other, changed)

/-- A mapping in which any of the fields have changed names, each on its own. -/
inductive MappingRespelled : Datum → Datum → Prop where
  | kept (d : Datum) : MappingRespelled d d
  | mapping {entries others : List (Datum × Datum)} (hsingle : Field.Unambiguous fields entries)
    (hentries : List.Forall₂ (EntryRespelled fields Inside) entries others) :
    MappingRespelled (.mapping entries) (.mapping others)

/-- A sequence whose items have changed, each on its own. -/
inductive ItemsRespelled (R : Datum → Datum → Prop) : Datum → Datum → Prop where
  | kept (d : Datum) : ItemsRespelled R d d
  | list {items others : List Datum} (hitems : List.Forall₂ R items others) :
    ItemsRespelled R (.list items) (.list others)
  | pair {a b c d : Datum} (hfirst : R a c) (hsecond : R b d) :
    ItemsRespelled R (.pair a b) (.pair c d)

/-- The items of one field have changed, and the values of the others are the same. -/
def ItemsOf (nested : Field) (R : Datum → Datum → Prop) (field : Field) (d e : Datum) : Prop :=
  if field = nested then ItemsRespelled R d e else d = e

end Respelled

end Datum

def Attempt.fields : List Field := [languageField, severityField, detailField, multipleField]

def Example.fields : List Field := [nameField, sourceField, attemptsField]

def Record.fields : List Field := [providerField, versionField, examplesField]

def Attempt.Respelled : Datum → Datum → Prop := Datum.MappingRespelled fields fun _ d e => d = e

def Example.Respelled : Datum → Datum → Prop :=
  Datum.MappingRespelled fields (Datum.ItemsOf attemptsField Attempt.Respelled)

/-- Trees that differ in which names they use for the fields of records, of examples and of
attempts, chosen for every mapping on its own. -/
def Record.Respelled : Datum → Datum → Prop :=
  Datum.MappingRespelled fields (Datum.ItemsOf examplesField Example.Respelled)

/-- The fields of records, of examples and of attempts. -/
def Record.allFields : List Field := fields ++ Example.fields ++ Attempt.fields

/-! ## Issues that differ in names only -/

inductive Step.Respelled : Step → Step → Prop where
  | kept (step : Step) : Respelled step step
  | field {field : Field} {name other : Text} (hfield : field ∈ Record.allFields)
    (hname : name ∈ field.names) (hother : other ∈ field.names) :
    Respelled (.key name) (.key other)

/-- The same problem at the same place, which may be written with other names. A field that is
missing goes by its wire name in both. -/
inductive Issue.Respelled : Issue → Issue → Prop where
  | missing {field : Field} {place other : List Step} (hfield : field ∈ Record.allFields)
    (hplace : List.Forall₂ Step.Respelled place other) :
    Respelled ⟨place ++ [.key field.wire], .missing⟩ ⟨other ++ [.key field.wire], .missing⟩
  | present {place other : List Step} {problem : Problem} (hproblem : problem ≠ .missing)
    (hplace : List.Forall₂ Step.Respelled place other) :
    Respelled ⟨place, problem⟩ ⟨other, problem⟩

/-- The same value, or issues that correspond one by one. -/
inductive Checked.Alike {α : Type} : Checked α → Checked α → Prop where
  | ok (a : α) : Alike (.ok a) (.ok a)
  | error {issues others : List Issue} (h : List.Forall₂ Issue.Respelled issues others) :
    Alike (.error issues) (.error others)

/-- The same record; or the same complaint that there is none; or issues that correspond; or the same
fault in place of issues. -/
inductive Record.SameOutcome : Except SchemaFault Record → Except SchemaFault Record → Prop where
  | ok (r : Record) : SameOutcome (.ok r) (.ok r)
  | notMapping (kind : Text) : SameOutcome (.error (.notMapping kind)) (.error (.notMapping kind))
  | invalid {issues others : List Issue} (h : List.Forall₂ Issue.Respelled issues others) :
    SameOutcome (.error (.invalid ⟨.record, issues⟩)) (.error (.invalid ⟨.record, others⟩))
  | interrupted (cause : Interruption) :
    SameOutcome (.error (.interrupted cause)) (.error (.interrupted cause))

/-! ## Finding fields -/

namespace Field

/-- The entries for a field, under whatever names. -/
def given (field : Field) (entries : List (Datum × Datum)) : List (Text × Datum) :=
  entries.filterMap fun
    | (.text name, value) =>
      if name = field.wire ∨ name = field.plain then some (name, value) else none
    | _ => none

variable {field : Field} {entries others : List (Datum × Datum)}

theorem mem_names {name : Text} :
    name ∈ field.names ↔ name = field.wire ∨ name = field.plain := by
  simp [names]

theorem given_of_mem {name : Text} (h : name ∈ field.names) (value : Datum)
    (rest : List (Datum × Datum)) :
    field.given ((.text name, value) :: rest) = (name, value) :: field.given rest := by
  simp only [given, List.filterMap_cons, mem_names.mp h, if_true]

theorem given_of_notMem {name : Text} (h : name ∉ field.names) (value : Datum)
    (rest : List (Datum × Datum)) :
    field.given ((.text name, value) :: rest) = field.given rest := by
  simp only [given, List.filterMap_cons, mt mem_names.mpr h, if_false]

theorem field?_eq_lookup {name : Text} (hname : name ∈ field.names) :
    Datum.field? name entries = (field.given entries).lookup name := by
  fun_induction Datum.field? name entries with
  | case1 => rfl
  | case2 value rest => rw [given_of_mem hname, List.lookup_cons_self]
  | case3 t value rest hne ih =>
    by_cases ht : t ∈ field.names
    · have hbeq : (name == t) = false := beq_eq_false_iff_ne.mpr (Ne.symm hne)
      rw [ih, given_of_mem ht, List.lookup_cons, hbeq]
    · rw [ih, given_of_notMem ht]
  | case4 entry rest hkey ih =>
    obtain ⟨key, value⟩ := entry
    cases key with
    | text t => exact absurd rfl (hkey t value)
    | _ => exact ih

private theorem mem_names_of_given {name : Text} {value : Datum}
    (h : (name, value) ∈ field.given entries) :
    name ∈ field.names := by
  obtain ⟨⟨key, v⟩, -, h⟩ := List.mem_filterMap.mp h
  cases key with
  | text t =>
    simp only at h
    split at h
    · rename_i ht
      cases h
      exact mem_names.mpr ht
    · cases h
  | _ => cases h

theorem find?_eq_head? (h : (field.given entries).length ≤ 1) :
    field.find? entries = (field.given entries).head? := by
  have hwire : field.wire ∈ field.names := List.mem_cons_self
  have hplain : field.plain ∈ field.names := mem_names.mpr (.inr rfl)
  rw [find?, field?_eq_lookup hwire, field?_eq_lookup hplain]
  cases hgiven : field.given entries with
  | nil => rfl
  | cons first rest =>
    obtain ⟨name, value⟩ := first
    have hrest : rest = [] := List.length_eq_zero_iff.mp (by simpa [hgiven] using h)
    have hname : name ∈ field.names := mem_names_of_given (by rw [hgiven]; exact List.mem_cons_self)
    rw [hrest]
    by_cases hw : name = field.wire
    · simp [hw]
    · obtain rfl : name = field.plain := (mem_names.mp hname).resolve_left hw
      simp [List.lookup_cons, beq_eq_false_iff_ne.mpr (Ne.symm hw)]

theorem map_fst_given (field : Field) (entries : List (Datum × Datum)) :
    (field.given entries).map Prod.fst =
      (Datum.names entries).filter fun name => name ∈ field.names := by
  induction entries with
  | nil => rfl
  | cons entry rest ih =>
    obtain ⟨key, value⟩ := entry
    cases key with
    | text t =>
      have hnames : Datum.names ((.text t, value) :: rest) = t :: Datum.names rest := rfl
      rw [hnames, List.filter_cons]
      by_cases ht : t ∈ field.names
      · rw [given_of_mem ht, List.map_cons, ih, if_pos (decide_eq_true ht)]
      · rw [given_of_notMem ht, ih, if_neg (by simpa using ht)]
    | _ => exact ih

theorem length_given_le {fields : List Field} (h : Unambiguous fields entries)
    (hfield : field ∈ fields) : (field.given entries).length ≤ 1 := by
  have hnodup : ((field.given entries).map Prod.fst).Nodup := by
    rw [map_fst_given]
    exact h.names_nodup.filter _
  have hmem : ∀ name ∈ (field.given entries).map Prod.fst,
      name ∈ Datum.names entries ∧ name ∈ field.names := by
    intro name hname
    rw [map_fst_given] at hname
    simpa using List.mem_filter.mp hname
  cases hgiven : field.given entries with
  | nil => simp
  | cons first more =>
    cases more with
    | nil => simp
    | cons second rest =>
      rw [hgiven] at hnodup hmem
      have hne : first.1 ≠ second.1 := by
        intro hsame
        simp [hsame] at hnodup
      obtain ⟨hfirst, hfirstName⟩ := hmem first.1 (by simp)
      obtain ⟨hsecond, hsecondName⟩ := hmem second.1 (by simp)
      have hboth : field.wire ∈ Datum.names entries ∧ field.plain ∈ Datum.names entries := by
        rw [mem_names] at hfirstName hsecondName
        rcases hfirstName with ha | ha <;> rcases hsecondName with hb | hb
        · exact absurd (ha.trans hb.symm) hne
        · exact ⟨ha ▸ hfirst, hb ▸ hsecond⟩
        · exact ⟨hb ▸ hsecond, ha ▸ hfirst⟩
        · exact absurd (ha.trans hb.symm) hne
      exact absurd hboth (h.single field hfield)

/-- The values of a field in two mappings, and the names under which they stand. -/
inductive Found (field : Field) (Inside : Datum → Datum → Prop) :
    Option (Text × Datum) → Option (Text × Datum) → Prop where
  | missing : Found field Inside none none
  | there {name other : Text} {value changed : Datum} (hname : name ∈ field.names)
    (hother : other ∈ field.names) (hinside : Inside value changed) :
    Found field Inside (some (name, value)) (some (other, changed))

theorem Found.refl {Inside : Datum → Datum → Prop} (hrefl : ∀ d, Inside d d) (field : Field)
    (entries : List (Datum × Datum)) :
    field.Found Inside (field.find? entries) (field.find? entries) := by
  rw [find?]
  cases hwire : Datum.field? field.wire entries with
  | some value =>
    have hname : field.wire ∈ field.names := mem_names.mpr (.inl rfl)
    exact .there hname hname (hrefl value)
  | none =>
    cases Datum.field? field.plain entries with
    | some value =>
      have hname : field.plain ∈ field.names := mem_names.mpr (.inr rfl)
      exact .there hname hname (hrefl value)
    | none => exact .missing

section Respelled

variable {fields : List Field} {Inside : Field → Datum → Datum → Prop}

/-- The entries for a field correspond one by one, since an entry for one field does not become one
for another. -/
theorem forall₂_given (hapart : Apart fields) (hfield : field ∈ fields)
    (hrefl : ∀ d, Inside field d d)
    (h : List.Forall₂ (Datum.EntryRespelled fields Inside) entries others) :
    List.Forall₂ (fun a b => a.1 ∈ field.names ∧ b.1 ∈ field.names ∧ Inside field a.2 b.2)
      (field.given entries) (field.given others) := by
  induction h with
  | nil => exact .nil
  | @cons first second rest more hfirst _ ih =>
    cases hfirst with
    | kept =>
      obtain ⟨key, value⟩ := first
      cases key with
      | text t =>
        by_cases ht : t ∈ field.names
        · rw [given_of_mem ht, given_of_mem ht]
          exact .cons ⟨ht, ht, hrefl value⟩ ih
        · rw [given_of_notMem ht, given_of_notMem ht]
          exact ih
      | _ => exact ih
    | @field other name changed value _ hother hname hchanged hinside =>
      by_cases hsame : other = field
      · subst hsame
        rw [given_of_mem hname, given_of_mem hchanged]
        exact .cons ⟨hname, hchanged, hinside⟩ ih
      · have hno : ∀ t ∈ other.names, t ∉ field.names := fun t ht htfield =>
          hsame (hapart other hother field hfield t ht htfield)
        rw [given_of_notMem (hno _ hname), given_of_notMem (hno _ hchanged)]
        exact ih

theorem found_of_respelled (hapart : Apart fields) (hfield : field ∈ fields)
    (hrefl : ∀ d, Inside field d d) (hsingle : Unambiguous fields entries)
    (h : List.Forall₂ (Datum.EntryRespelled fields Inside) entries others) :
    field.Found (Inside field) (field.find? entries) (field.find? others) := by
  have hgiven := forall₂_given hapart hfield hrefl h
  have hone := length_given_le hsingle hfield
  rw [find?_eq_head? hone, find?_eq_head? (hgiven.length_eq ▸ hone)]
  generalize field.given entries = before at hgiven
  generalize field.given others = after at hgiven
  cases hgiven with
  | nil => exact .missing
  | cons hfirst _ => exact .there hfirst.1 hfirst.2.1 hfirst.2.2

end Respelled

end Field

/-! ## Checks on trees that differ in names -/

namespace Checked

variable {α β : Type}

private theorem forall₂_within {step other : Step} (hstep : step.Respelled other)
    {issues others : List Issue} (h : List.Forall₂ Issue.Respelled issues others) :
    List.Forall₂ Issue.Respelled (issues.map (Issue.within step))
      (others.map (Issue.within other)) := by
  induction h with
  | nil => exact .nil
  | cons hfirst _ ih =>
    refine .cons ?_ ih
    cases hfirst with
    | missing hfield hplace => exact .missing hfield (.cons hstep hplace)
    | present hproblem hplace => exact .present hproblem (.cons hstep hplace)

theorem Alike.within {step other : Step} (hstep : step.Respelled other) {x y : Checked α}
    (h : Alike x y) : Alike (x.within step) (y.within other) := by
  cases h with
  | ok a => exact .ok a
  | error h => exact .error (forall₂_within hstep h)

theorem Alike.both {x y : Checked α} {v w : Checked β} (h : Alike x y) (h' : Alike v w) :
    Alike (x.both v) (y.both w) := by
  cases h with
  | ok a =>
    cases h' with
    | ok b => exact .ok (a, b)
    | error h' => exact .error h'
  | error h =>
    cases h' with
    | ok b => exact .error h
    | error h' => exact .error (List.rel_append h h')

theorem Alike.bind {f : α → Checked β} (hf : ∀ a, Alike (f a) (f a)) {x y : Checked α}
    (h : Alike x y) : Alike (Except.bind x f) (Except.bind y f) := by
  cases h with
  | ok a => exact hf a
  | error h => exact .error h

theorem Alike.map (f : α → β) {x y : Checked α} (h : Alike x y) : Alike (x.map f) (y.map f) := by
  cases h with
  | ok a => exact .ok (f a)
  | error h => exact .error h

theorem alike_problem {p : Problem} (hp : p ≠ .missing) : Alike (α := α) (problem p) (problem p) :=
  .error (.cons (.present hp .nil) .nil)

end Checked

namespace Field

variable {α : Type} {field : Field} {Inside : Datum → Datum → Prop} {check : Datum → Checked α}
  {entries others : List (Datum × Datum)}

theorem required_alike (hfield : field ∈ Record.allFields)
    (hcheck : ∀ d e, Inside d e → Checked.Alike (check d) (check e))
    (h : field.Found Inside (field.find? entries) (field.find? others)) :
    Checked.Alike (field.required check entries) (field.required check others) := by
  rw [required, required]
  generalize field.find? entries = before at h
  generalize field.find? others = after at h
  cases h with
  | missing =>
    have hplace : List.Forall₂ Step.Respelled [] [] := .nil
    exact .error (.cons (.missing hfield hplace) .nil)
  | there hname hother hinside => exact (hcheck _ _ hinside).within (.field hfield hname hother)

theorem optional_alike (hfield : field ∈ Record.allFields) (default : α)
    (hcheck : ∀ d e, Inside d e → Checked.Alike (check d) (check e))
    (h : field.Found Inside (field.find? entries) (field.find? others)) :
    Checked.Alike (field.optional default check entries)
      (field.optional default check others) := by
  rw [optional, optional]
  generalize field.find? entries = before at h
  generalize field.find? others = after at h
  cases h with
  | missing => exact .ok default
  | there hname hother hinside => exact (hcheck _ _ hinside).within (.field hfield hname hother)

end Field

namespace Datum

theorem asText_alike (d : Datum) : Checked.Alike d.asText d.asText := by
  rw [asText.eq_def]
  split
  · exact .ok _
  · split
    · exact .ok _
    · exact Checked.alike_problem (by decide)
  · exact Checked.alike_problem (by decide)

theorem boolOfText_alike (t : Text) : Checked.Alike (boolOfText t) (boolOfText t) := by
  rw [boolOfText]
  split
  · exact Checked.alike_problem (by decide)
  · split
    · exact .ok _
    · exact Checked.alike_problem (by decide)

theorem boolOfInt_alike (n : Int) : Checked.Alike (boolOfInt n) (boolOfInt n) := by
  rw [boolOfInt]
  split
  · exact .ok _
  · split
    · exact .ok _
    · exact Checked.alike_problem (by decide)

private theorem asBool_alike (d : Datum) : Checked.Alike d.asBool d.asBool := by
  rw [asBool.eq_def]
  split
  · exact .ok _
  · exact boolOfText_alike _
  · split
    · exact boolOfText_alike _
    · exact Checked.alike_problem (by decide)
  · split
    · exact boolOfInt_alike _
    · exact Checked.alike_problem (by decide)
  · split
    · split
      · exact boolOfInt_alike _
      · exact Checked.alike_problem (by decide)
    · exact Checked.alike_problem (by decide)
  · exact Checked.alike_problem (by decide)

end Datum

private theorem Datum.asList_alike (d : Datum) : Checked.Alike d.asList d.asList := by
  rw [asList]
  split
  · exact .ok _
  · exact .ok _
  · exact .ok _
  · exact Checked.alike_problem nofun

private theorem Datum.asMapping_alike (shape : Shape) (d : Datum) :
    Checked.Alike (d.asMapping shape) (d.asMapping shape) := by
  rw [asMapping]
  split
  · exact .ok _
  · exact Checked.alike_problem nofun

private theorem Attempt.severityProblem_ne_missing [Host] (fault : Severity.Fault) :
    severityProblem fault ≠ .missing := by
  rw [severityProblem]
  split <;> exact nofun

private theorem Attempt.checkSeverity_alike [Host] (d : Datum) :
    Checked.Alike (checkSeverity d) (checkSeverity d) := by
  rw [checkSeverity]
  split
  · exact .ok _
  · exact Checked.alike_problem (severityProblem_ne_missing _)

/-! ## Mappings and lists -/

section Containers

variable {α : Type} {fields : List Field} {Inside : Field → Datum → Datum → Prop}

theorem mapping_alike {shape : Shape} {ofEntries : List (Datum × Datum) → Checked α}
    (hapart : Field.Apart fields) (hrefl : ∀ field d, Inside field d d)
    (h : ∀ entries others, (∀ field ∈ fields,
      field.Found (Inside field) (field.find? entries) (field.find? others)) →
        Checked.Alike (ofEntries entries) (ofEntries others))
    {d e : Datum} (hde : Datum.MappingRespelled fields Inside d e) :
    Checked.Alike
      (match d.asMapping shape with
        | .ok entries => ofEntries entries
        | .error issues => .error issues)
      (match e.asMapping shape with
        | .ok entries => ofEntries entries
        | .error issues => .error issues) := by
  have hkept : ∀ entries, Checked.Alike (ofEntries entries) (ofEntries entries) := fun entries =>
    h entries entries fun field _ => Field.Found.refl (hrefl field) field entries
  cases hde with
  | kept =>
    have hmapping := d.asMapping_alike shape
    cases hentries : d.asMapping shape with
    | ok entries => exact hkept entries
    | error issues =>
      rw [hentries] at hmapping
      cases hmapping with
      | error hissues => exact .error hissues
  | mapping hsingle hentries =>
    apply h
    intro field hfield
    exact Field.found_of_respelled hapart hfield (hrefl field) hsingle hentries

variable {R : Datum → Datum → Prop} {check : Datum → Checked α}

theorem itemsFrom_alike (hcheck : ∀ d e, R d e → Checked.Alike (check d) (check e)) (index : Nat)
    {items others : List Datum} (h : List.Forall₂ R items others) :
    Checked.Alike (Checked.itemsFrom check index items)
      (Checked.itemsFrom check index others) := by
  induction h generalizing index with
  | nil => exact .ok []
  | cons hfirst _ ih =>
    rw [Checked.itemsFrom, Checked.itemsFrom]
    exact (((hcheck _ _ hfirst).within (.kept _)).both (ih (index + 1))).map _

private theorem listOf_alike (hrefl : ∀ d, R d d)
    (hcheck : ∀ d e, R d e → Checked.Alike (check d) (check e)) {d e : Datum}
    (h : Datum.ItemsRespelled R d e) :
    Checked.Alike (Checked.listOf check d) (Checked.listOf check e) := by
  cases h with
  | kept =>
    have hitems : ∀ items, Checked.Alike (Checked.itemsFrom check 0 items)
        (Checked.itemsFrom check 0 items) := fun items =>
      itemsFrom_alike hcheck 0 (List.forall₂_same.mpr fun d _ => hrefl d)
    have hlist := d.asList_alike
    rw [Checked.listOf]
    cases hopened : d.asList with
    | ok items => exact hitems items
    | error issues =>
      rw [hopened] at hlist
      cases hlist with
      | error hissues => exact .error hissues
  | list hitems => exact itemsFrom_alike hcheck 0 hitems
  | pair hfirst hsecond => exact itemsFrom_alike hcheck 0 (.cons hfirst (.cons hsecond .nil))

theorem same_alike {check : Datum → Checked α} (hcheck : ∀ d, Checked.Alike (check d) (check d)) :
    ∀ d e, d = e → Checked.Alike (check d) (check e) := by
  rintro d _ rfl
  exact hcheck d

theorem itemsOf_refl (nested field : Field) (d : Datum) :
    Datum.ItemsOf nested R field d d := by
  rw [Datum.ItemsOf]
  split
  · exact .kept d
  · rfl

theorem itemsOf_self {nested : Field} (hrefl : ∀ d, R d d)
    (hcheck : ∀ d e, R d e → Checked.Alike (check d) (check e)) :
    ∀ d e, Datum.ItemsOf nested R nested d e →
      Checked.Alike (Checked.listOf check d) (Checked.listOf check e) := by
  intro d e h
  rw [Datum.ItemsOf, if_pos rfl] at h
  exact listOf_alike hrefl hcheck h

theorem itemsOf_other {nested field : Field} (hne : field ≠ nested)
    (hcheck : ∀ d, Checked.Alike (check d) (check d)) :
    ∀ d e, Datum.ItemsOf nested R field d e → Checked.Alike (check d) (check e) := by
  intro d e h
  rw [Datum.ItemsOf, if_neg hne] at h
  exact same_alike hcheck d e h

end Containers

/-! ## Records -/

section Reading

namespace Attempt

theorem Respelled.refl (d : Datum) : Respelled d d := .kept d

theorem ofDatum_alike [Host] {d e : Datum} (h : Respelled d e) :
    Checked.Alike (ofDatum d) (ofDatum e) := by
  apply mapping_alike (by decide) (fun _ _ => rfl) _ h
  intro entries others hfound
  have hlanguage := Field.required_alike (by decide) (same_alike Datum.asText_alike)
    (hfound languageField (by decide))
  have hseverity := Field.optional_alike (by decide) Severity.success
    (same_alike checkSeverity_alike) (hfound severityField (by decide))
  have hdetail := Field.optional_alike (by decide) [] (same_alike Datum.asText_alike)
    (hfound detailField (by decide))
  have hmultiple := Field.optional_alike (by decide) false (same_alike Datum.asBool_alike)
    (hfound multipleField (by decide))
  exact (hlanguage.both (hseverity.both (hdetail.both hmultiple))).map _

end Attempt

namespace Example

theorem Respelled.refl (d : Datum) : Respelled d d := .kept d

theorem ofDatum_alike [Host] {d e : Datum} (h : Respelled d e) :
    Checked.Alike (ofDatum d) (ofDatum e) := by
  apply mapping_alike (by decide) (itemsOf_refl _) _ h
  intro entries others hfound
  have hname := Field.required_alike (by decide) (itemsOf_other (by decide) Datum.asText_alike)
    (hfound nameField (by decide))
  have hsource := Field.optional_alike (by decide) [] (itemsOf_other (by decide) Datum.asText_alike)
    (hfound sourceField (by decide))
  have hattempts := Field.optional_alike (by decide) []
    (itemsOf_self Attempt.Respelled.refl fun _ _ => Attempt.ofDatum_alike)
    (hfound attemptsField (by decide))
  exact (hname.both (hsource.both hattempts)).map _

end Example

namespace Record

private theorem repeatedNamesProblem_ne_missing (names : List Text) :
    repeatedNamesProblem names ≠ .missing := by
  unfold repeatedNamesProblem
  split <;> exact nofun

private theorem ofParts_alike (provider version : Text) (examples : List Example) :
    Checked.Alike (ofParts provider version examples) (ofParts provider version examples) := by
  rw [ofParts]
  split
  · exact .ok _
  · exact Checked.alike_problem (repeatedNamesProblem_ne_missing _)

theorem ofEntries_alike [Host] {entries others : List (Datum × Datum)}
    (hfound : ∀ field ∈ fields,
      field.Found (Datum.ItemsOf examplesField Example.Respelled field) (field.find? entries)
        (field.find? others)) :
    Checked.Alike (ofEntries entries) (ofEntries others) := by
  have hprovider := Field.required_alike (by decide)
    (itemsOf_other (by decide) Datum.asText_alike) (hfound providerField (by decide))
  have hversion := Field.optional_alike (by decide) []
    (itemsOf_other (by decide) Datum.asText_alike) (hfound versionField (by decide))
  have hexamples := Field.optional_alike (by decide) []
    (itemsOf_self Example.Respelled.refl fun _ _ => Example.ofDatum_alike)
    (hfound examplesField (by decide))
  exact (hprovider.both (hversion.both hexamples)).bind fun _ => ofParts_alike _ _ _

private theorem interruption?_eq_of_respelled {issues others : List Issue}
    (h : List.Forall₂ Issue.Respelled issues others) :
    Issue.interruption? issues = Issue.interruption? others := by
  induction h with
  | nil => rfl
  | @cons issue other rest more hissue _ ih =>
    have hproblem : issue.problem = other.problem := by cases hissue <;> rfl
    rw [Issue.interruption?, List.findSome?_cons, hproblem, Issue.interruption?,
      List.findSome?_cons, ← Issue.interruption?, ← Issue.interruption?, ih]

theorem sameOutcome_of_alike {x y : Checked Record} (h : Checked.Alike x y) :
    SameOutcome (x.mapError .ofIssues) (y.mapError .ofIssues) := by
  cases h with
  | ok r => exact .ok r
  | @error issues others h =>
    show SameOutcome (.error (.ofIssues issues)) (.error (.ofIssues others))
    rw [SchemaFault.ofIssues, SchemaFault.ofIssues, interruption?_eq_of_respelled h]
    cases Issue.interruption? others with
    | none => exact .invalid h
    | some cause => exact .interrupted cause

/-- Which name is used for a field makes no difference, in any mapping of a tree: the same record is
read, or issues that correspond one by one, with the same problems at the same places, but for the
names of keys that are there. -/
theorem ofDatum_respelled [Host] {d e : Datum} (h : Respelled d e) :
    SameOutcome (ofDatum d) (ofDatum e) := by
  cases h with
  | kept =>
    cases d with
    | mapping entries =>
      apply sameOutcome_of_alike
      apply ofEntries_alike
      intro field _
      exact .refl (itemsOf_refl _ field) field entries
    | _ => exact .notMapping _
  | mapping hsingle hentries =>
    apply sameOutcome_of_alike
    apply ofEntries_alike
    intro field hfield
    exact Field.found_of_respelled (by decide) hfield (itemsOf_refl _ field) hsingle hentries

end Record

end Reading

namespace Record

/-- A record with an attempt without a language, and names of both kinds. -/
def wireTree : Datum := .mapping [
  (.text "ProviderName", .text "aws"),
  (.text "examples", .list [.mapping [
    (.text "Name", .text "ex"),
    (.text "ConversionAttempts", .list [.mapping [(.text "FailureSeverity", .text "odd")]])]])]

/-- The same with other names at each level. -/
def plainTree : Datum := .mapping [
  (.text "provider_name", .text "aws"),
  (.text "examples", .list [.mapping [
    (.text "Name", .text "ex"),
    (.text "conversion_attempts", .list [.mapping [(.text "severity", .text "odd")]])]])]

open scoped Host in
theorem ofDatum_respelled_missing : Respelled wireTree plainTree ∧
    (∃ issues, ofDatum wireTree = .error (.invalid ⟨.record, issues⟩) ∧
      (issues.map Issue.problem).head? = some .missing) ∧
    SameOutcome (ofDatum wireTree) (ofDatum plainTree) := by
  have hattempt : Attempt.Respelled (.mapping [(.text "FailureSeverity", .text "odd")])
      (.mapping [(.text "severity", .text "odd")]) := by
    apply Datum.MappingRespelled.mapping ⟨by decide, by decide⟩
    exact .cons (.field (show Attempt.severityField ∈ _ by decide) (by decide) (by decide) rfl) .nil
  have hexample : Example.Respelled
      (.mapping [(.text "Name", .text "ex"),
        (.text "ConversionAttempts", .list [.mapping [(.text "FailureSeverity", .text "odd")]])])
      (.mapping [(.text "Name", .text "ex"),
        (.text "conversion_attempts", .list [.mapping [(.text "severity", .text "odd")]])]) := by
    apply Datum.MappingRespelled.mapping ⟨by decide, by decide⟩
    refine .cons (.kept _) (.cons ?_ .nil)
    apply Datum.EntryRespelled.field (show Example.attemptsField ∈ _ by decide)
      (by decide) (by decide)
    exact .list (.cons hattempt .nil)
  have hrecord : Respelled wireTree plainTree := by
    apply Datum.MappingRespelled.mapping ⟨by decide, by decide⟩
    refine .cons ?_ (.cons ?_ .nil)
    · exact .field (show providerField ∈ _ by decide) (by decide) (by decide) rfl
    · apply Datum.EntryRespelled.field (show examplesField ∈ _ by decide) (by decide) (by decide)
      exact .list (.cons hexample .nil)
  exact ⟨hrecord, ⟨_, rfl, rfl⟩, ofDatum_respelled hrecord⟩

end Record

end ConversionCoverage

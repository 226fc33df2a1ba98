import ConversionCoverage.Proofs.JsonFloat
import ConversionCoverage.Proofs.JsonText

/-!
# JSON round trip

A value that is printed with blanks between its parts is read back as it was: its texts whatever
they hold, its integers and doubles, and the members of its objects in their order. From a document
in ASCII it is read back with the surrogate pairs in its texts joined.
-/

namespace ConversionCoverage.Json

open Text

/-- The values that a document can hold: integers of at most `maxDigits` digits, doubles in stored
form, objects with different names, and at most `depth` arrays and objects in each other. -/
inductive Readable (maxDigits : Nat) : (depth : Nat) → Json → Prop
  | null {depth : Nat} : Readable maxDigits depth .null
  | bool {depth : Nat} (b : Bool) : Readable maxDigits depth (.bool b)
  | int {depth : Nat} {n : Int} (h : Binary64.digitCount n.natAbs ≤ maxDigits) :
    Readable maxDigits depth (.int n)
  | float {depth : Nat} {x : Binary64} (h : x.Stored) : Readable maxDigits depth (.float x)
  | text {depth : Nat} (t : Text) : Readable maxDigits depth (.text t)
  | array {depth : Nat} {items : List Json} (h : ∀ j ∈ items, Readable maxDigits depth j) :
    Readable maxDigits (depth + 1) (.array items)
  | object {depth : Nat} {members : List (Text × Json)} (hnames : (members.map Prod.fst).Nodup)
    (h : ∀ m ∈ members, Readable maxDigits depth m.2) :
    Readable maxDigits (depth + 1) (.object members)

/-- A layout that puts nothing but blanks between the parts of a document. -/
structure Layout.Spaced (layout : Layout) : Prop where
  indent : ∀ indent ∈ layout.indent, ∀ c ∈ indent, isBlank c

/-- A layout of which everything is read back as it was. -/
structure Layout.Neutral (layout : Layout) : Prop extends layout.Spaced where
  ascii : layout.ascii = false

theorem neutral_line : Layout.line.Neutral := ⟨⟨fun _ h => nomatch h⟩, rfl⟩

theorem spaced_asciiLine : Layout.asciiLine.Spaced := ⟨fun _ h => nomatch h⟩

theorem neutral_indented {indent : Text} (h : ∀ c ∈ indent, isBlank c) :
    (Layout.indented indent).Neutral := by
  refine ⟨⟨fun t ht => ?_⟩, rfl⟩
  cases ht
  exact h

mutual

/-- The value that is read from what is printed for a value, in ASCII or not. -/
def reading (ascii : Bool) : Json → Json
  | .null => .null
  | .bool b => .bool b
  | .int n => .int n
  | .float x => .float x
  | .text t => .text (readingText ascii t)
  | .array items => .array (readingItems ascii items)
  | .object members => .object (lastOfEach (readingMembers ascii members))

def readingItems (ascii : Bool) : List Json → List Json
  | [] => []
  | item :: rest => reading ascii item :: readingItems ascii rest

def readingMembers (ascii : Bool) : List (Text × Json) → List (Text × Json)
  | [] => []
  | (name, value) :: rest =>
    (readingText ascii name, reading ascii value) :: readingMembers ascii rest

end

/-- A text that begins as values do. -/
def Starts (t : Text) : Prop :=
  ∃ c u, t = c :: u ∧ isBlank c = false ∧ c ≠ ']' ∧ c ≠ '\ufeff'

/-- A text before which a value ends. -/
def Closes (rest : Text) : Prop :=
  ∀ c ∈ rest.head?, isBlank c ∨ c = ',' ∨ c = ']' ∨ c = '\x7d'

theorem Closes.endsNumber {rest : Text} (h : Closes rest) : EndsNumber rest := by
  intro c hc
  rcases h c hc with hblank | rfl | rfl | rfl
  · simp only [isBlank, Bool.or_eq_true, decide_eq_true_eq] at hblank
    rcases hblank with ((rfl | rfl) | rfl) | rfl <;> decide
  · decide
  · decide
  · decide

theorem Starts.append {t : Text} (h : Starts t) (rest : Text) : Starts (t ++ rest) := by
  obtain ⟨c, u, rfl, hc⟩ := h
  exact ⟨c, u ++ rest, rfl, hc⟩

theorem skipBlanks_of_starts {t : Text} (h : Starts t) : skipBlanks t = t := by
  obtain ⟨c, u, rfl, hc, -⟩ := h
  rw [skipBlanks, List.dropWhile_cons_of_neg (by simp [hc])]

theorem skipBlanks_append {blanks : Text} (h : ∀ c ∈ blanks, isBlank c) (t : Text) :
    skipBlanks (blanks ++ t) = skipBlanks t :=
  List.dropWhile_append_of_pos h

section Printing

variable {layout : Layout} (hlayout : layout.Spaced)
include hlayout

theorem isBlank_lineStart (k : Nat) : ∀ c ∈ layout.lineStart k, isBlank c := by
  intro c hc
  cases hindent : layout.indent with
  | none =>
    rw [Layout.lineStart, hindent] at hc
    cases hc
  | some indent =>
    rw [Layout.lineStart, hindent] at hc
    rcases List.mem_cons.mp hc with rfl | hc
    · rfl
    · obtain ⟨t, ht, hc⟩ := List.mem_flatten.mp hc
      rw [(List.mem_replicate.mp ht).2] at hc
      exact hlayout.indent indent hindent c hc

theorem separator_eq (k : Nat) :
    ∃ blanks, layout.separator k = .char ',' :: blanks ∧ ∀ c ∈ blanks, isBlank c := by
  cases hindent : layout.indent with
  | none =>
    refine ⟨[.char ' '], by rw [Layout.separator, hindent]; rfl, ?_⟩
    simp [isBlank]
  | some indent =>
    exact ⟨layout.lineStart k, by rw [Layout.separator, hindent], isBlank_lineStart hlayout k⟩

theorem closes_lineStart (k : Nat) {c : CodePoint} (hc : c = ']' ∨ c = '\x7d') (rest : Text) :
    Closes (layout.lineStart k ++ c :: rest) := by
  intro d hd
  cases hstart : layout.lineStart k with
  | nil =>
    rw [hstart] at hd
    cases hd
    exact .inr (.inr hc)
  | cons e t =>
    rw [hstart] at hd
    cases hd
    exact .inl (isBlank_lineStart hlayout k d (hstart ▸ List.mem_cons_self))

theorem closes_separator (k : Nat) (rest : Text) : Closes (layout.separator k ++ rest) := by
  obtain ⟨blanks, hsep, -⟩ := separator_eq hlayout k
  intro c hc
  rw [hsep] at hc
  cases hc
  exact .inr (.inl rfl)

theorem closes_printItems (k : Nat) (items : List Json) (rest : Text) :
    Closes (printItems layout k items ++ rest) := by
  cases items with
  | nil =>
    rw [printItems, List.append_assoc]
    exact closes_lineStart hlayout k (.inl rfl) rest
  | cons item items =>
    rw [printItems, List.append_assoc, List.append_assoc]
    exact closes_separator hlayout (k + 1) _

theorem closes_printMembers (k : Nat) (members : List (Text × Json)) (rest : Text) :
    Closes (printMembers layout k members ++ rest) := by
  cases members with
  | nil =>
    rw [printMembers, List.append_assoc]
    exact closes_lineStart hlayout k (.inr rfl) rest
  | cons member members =>
    rw [printMembers]
    simp only [List.append_assoc]
    exact closes_separator hlayout (k + 1) _

end Printing

theorem starts_signPart (negative : Bool) {c : CodePoint} (t : Text) (hc : c.asciiDigit?.isSome) :
    Starts (Binary64.signPart negative ++ c :: t) := by
  cases negative with
  | true => exact ⟨'-', c :: t, rfl, rfl, by decide, by decide⟩
  | false =>
    have hne := ne_of_asciiDigit? hc
    refine ⟨c, t, rfl, ?_, (hne ']' rfl).symm, (hne '\ufeff' rfl).symm⟩
    simp [isBlank, (hne ' ' rfl).symm, (hne '\t' rfl).symm, (hne '\n' rfl).symm,
      (hne '\r' rfl).symm]

theorem readValue_cons (maxDigits fuel depth : Nat) {c : CodePoint} (t : Text) (hquote : c ≠ '"')
    (harray : c ≠ '[') (hobject : c ≠ '\x7b') :
    readValue maxDigits (fuel + 1) depth (c :: t) = readPlain maxDigits (c :: t) := by
  rw [readValue]
  · exact fun rest h => hquote (List.cons.inj h).1
  · exact fun rest h => harray (List.cons.inj h).1
  · exact fun rest h => hobject (List.cons.inj h).1

theorem readValue_signPart (maxDigits fuel depth : Nat) (negative : Bool) {c : CodePoint}
    (t : Text) (hc : c.asciiDigit?.isSome) :
    readValue maxDigits (fuel + 1) depth (Binary64.signPart negative ++ c :: t) =
      readPlain maxDigits (Binary64.signPart negative ++ c :: t) := by
  cases negative with
  | true => exact readValue_cons maxDigits fuel depth _ (by decide) (by decide) (by decide)
  | false =>
    have hne := ne_of_asciiDigit? hc
    exact readValue_cons maxDigits fuel depth t (hne '"' rfl).symm (hne '[' rfl).symm
      (hne '\x7b' rfl).symm

theorem exists_ofInt_eq (n : Int) :
    ∃ negative c t, ofInt n = Binary64.signPart negative ++ c :: t ∧ c.asciiDigit?.isSome := by
  obtain ⟨c, t, hcons, hc⟩ := (isWhole_ofNat n.natAbs).exists_cons
  exact ⟨decide (n < 0), c, t, by rw [ofInt_eq, hcons], hc⟩

theorem exists_printFloat_eq {negative : Bool} {m : Nat} {e : Int}
    (hx : (Binary64.finite negative m e).Stored) :
    ∃ c t, printFloat (.finite negative m e) = Binary64.signPart negative ++ c :: t ∧
      c.asciiDigit?.isSome := by
  show ∃ c t, Binary64.toText (.finite negative m e) = _ ∧ _
  by_cases hm : m = 0
  · exact ⟨.char '0', ".0", by rw [Binary64.toText, if_pos hm]; rfl, rfl⟩
  · obtain ⟨t, digits, exponent, htext, ⟨whole, fraction, e?, hwhole, -, -, rfl, -⟩, -⟩ :=
      Binary64.toText_eq negative hx hm
    obtain ⟨c, u, rfl, hc⟩ := hwhole.exists_cons
    exact ⟨c, _, htext, hc⟩

theorem starts_print (layout : Layout) (k : Nat) {maxDigits depth : Nat} {j : Json}
    (hj : Readable maxDigits depth j) : Starts (print layout k j) := by
  cases hj with
  | null => exact ⟨'n', "ull", rfl, rfl, by decide, by decide⟩
  | bool b =>
    cases b with
    | true => exact ⟨'t', "rue", rfl, rfl, by decide, by decide⟩
    | false => exact ⟨'f', "alse", rfl, rfl, by decide, by decide⟩
  | int h =>
    obtain ⟨negative, c, t, htext, hc⟩ := exists_ofInt_eq ‹Int›
    rw [print, htext]
    exact starts_signPart negative t hc
  | @float _ x h =>
    cases x with
    | nan => exact ⟨'N', "aN", rfl, rfl, by decide, by decide⟩
    | infinite negative =>
      cases negative with
      | true => exact ⟨'-', "Infinity", rfl, rfl, by decide, by decide⟩
      | false => exact ⟨'I', "nfinity", rfl, rfl, by decide, by decide⟩
    | finite negative m e =>
      obtain ⟨c, t, htext, hc⟩ := exists_printFloat_eq h
      rw [print, htext]
      exact starts_signPart negative t hc
  | text t => exact ⟨'"', _, rfl, rfl, by decide, by decide⟩
  | @array _ items h =>
    cases items with
    | nil => exact ⟨'[', _, rfl, rfl, by decide, by decide⟩
    | cons item items => exact ⟨'[', _, rfl, rfl, by decide, by decide⟩
  | @object _ members _ h =>
    cases members with
    | nil => exact ⟨'\x7b', _, rfl, rfl, by decide, by decide⟩
    | cons member members => exact ⟨'\x7b', _, rfl, rfl, by decide, by decide⟩

private theorem skipBlanks_printItems_nil {layout : Layout} (hlayout : layout.Spaced) (k : Nat)
    (rest : Text) : skipBlanks (printItems layout k [] ++ rest) = .char ']' :: rest := by
  rw [printItems, List.append_assoc, skipBlanks_append (isBlank_lineStart hlayout k)]
  rfl

private theorem skipBlanks_printMembers_nil {layout : Layout} (hlayout : layout.Spaced) (k : Nat)
    (rest : Text) : skipBlanks (printMembers layout k [] ++ rest) = .char '\x7d' :: rest := by
  rw [printMembers, List.append_assoc, skipBlanks_append (isBlank_lineStart hlayout k)]
  rfl

theorem skipBlanks_separator {layout : Layout} (hlayout : layout.Spaced) (k : Nat) {t : Text}
    (ht : Starts t) :
    ∃ u, skipBlanks (layout.separator k ++ t) = .char ',' :: u ∧ skipBlanks u = t := by
  obtain ⟨blanks, hsep, hblanks⟩ := separator_eq hlayout k
  refine ⟨blanks ++ t, by rw [hsep]; rfl, ?_⟩
  rw [skipBlanks_append hblanks, skipBlanks_of_starts ht]

theorem printText_append (ascii : Bool) (t rest : Text) :
    printText ascii t ++ rest =
      .char '"' :: (t.flatMap (escapePoint ascii) ++ .char '"' :: rest) := by
  rw [printText, List.cons_append, List.cons_append, List.append_assoc]
  rfl

theorem starts_printText (ascii : Bool) (t : Text) : Starts (printText ascii t) :=
  ⟨'"', _, rfl, rfl, by decide, by decide⟩

theorem skipBlanks_colon (t : Text) :
    skipBlanks (": " ++ t) = .char ':' :: .char ' ' :: t := rfl

theorem skipBlanks_blank {t : Text} (h : Starts t) : skipBlanks (.char ' ' :: t) = t := by
  refine (@skipBlanks_append [.char ' '] ?_ t).trans (skipBlanks_of_starts h)
  simp [isBlank]

/-- What is printed for a value starts like a value and is read back. -/
structure ReadsBack (layout : Layout) (maxDigits depth : Nat) (j : Json) : Prop where
  starts : ∀ k, Starts (print layout k j)
  read : ∀ k fuel rest, (print layout k j).length ≤ fuel → Closes rest →
    readValue maxDigits fuel depth (print layout k j ++ rest) =
      .ok (j.reading layout.ascii, rest)

section Reading

variable {layout : Layout} (hlayout : layout.Spaced) {maxDigits depth : Nat}
include hlayout

/-- The items of an array are read one after the other, and each costs less fuel than its text has
characters. -/
theorem readItems_print (k fuel : Nat) (rest : Text) (item : Json) (items : List Json)
    (h : ∀ j ∈ item :: items, ReadsBack layout maxDigits depth j)
    (hfuel : (print layout (k + 1) item ++ printItems layout k items).length ≤ fuel) :
    readItems maxDigits fuel depth
        (print layout (k + 1) item ++ (printItems layout k items ++ rest)) =
      .ok (readingItems layout.ascii (item :: items), rest) := by
  induction items generalizing item fuel with
  | nil =>
    simp only [printItems, List.length_append] at hfuel
    have hbracket : (ofString "]").length = 1 := rfl
    obtain ⟨fuel, rfl⟩ : ∃ n, fuel = n + 1 := ⟨fuel - 1, by omega⟩
    have hitem := (h item List.mem_cons_self).read (k + 1) fuel (printItems layout k [] ++ rest)
      (by omega) (closes_printItems hlayout k [] rest)
    rw [readItems, hitem]
    simp only [bind, Except.bind, skipBlanks_printItems_nil hlayout]
    rfl
  | cons next items ih =>
    have hnext := (h next (by simp)).starts (k + 1)
    obtain ⟨u, hcomma, hu⟩ := skipBlanks_separator hlayout (k + 1)
      (hnext.append (printItems layout k items ++ rest))
    have htail : printItems layout k (next :: items) ++ rest =
        layout.separator (k + 1) ++ (print layout (k + 1) next ++
          (printItems layout k items ++ rest)) := by
      rw [printItems]
      simp only [List.append_assoc]
    have hcloses := closes_printItems hlayout k (next :: items) rest
    obtain ⟨blanks, hsep, -⟩ := separator_eq hlayout (k + 1)
    simp only [printItems, hsep, List.length_append, List.length_cons] at hfuel
    obtain ⟨fuel, rfl⟩ : ∃ n, fuel = n + 1 := ⟨fuel - 1, by omega⟩
    have hitem := (h item List.mem_cons_self).read (k + 1) fuel
      (printItems layout k (next :: items) ++ rest) (by omega) hcloses
    have hitems := ih fuel next (fun j hj => h j (List.mem_cons_of_mem _ hj))
      (by rw [List.length_append]; omega)
    rw [readItems, hitem, htail]
    simp only [bind, Except.bind, hcomma, hu, hitems]
    rfl

private theorem readMembers_print (k fuel : Nat) (rest name : Text) (value : Json)
    (members : List (Text × Json))
    (h : ∀ m ∈ (name, value) :: members, ReadsBack layout maxDigits depth m.2)
    (hfuel : (print layout (k + 1) value ++ printMembers layout k members).length ≤ fuel) :
    readMembers maxDigits fuel depth (printText layout.ascii name ++ (": " ++
        (print layout (k + 1) value ++ (printMembers layout k members ++ rest)))) =
      .ok (readingMembers layout.ascii ((name, value) :: members), rest) := by
  induction members generalizing name value fuel with
  | nil =>
    have hvalue : ReadsBack layout maxDigits depth value := h (name, value) List.mem_cons_self
    simp only [printMembers, List.length_append] at hfuel
    have hbracket : (ofString "\x7d").length = 1 := rfl
    obtain ⟨fuel, rfl⟩ : ∃ n, fuel = n + 1 := ⟨fuel - 1, by omega⟩
    have hblank := skipBlanks_blank
      ((hvalue.starts (k + 1)).append (printMembers layout k [] ++ rest))
    have hread := hvalue.read (k + 1) fuel (printMembers layout k [] ++ rest) (by omega)
      (closes_printMembers hlayout k [] rest)
    rw [printText_append, readMembers]
    simp only [bind, Except.bind, readQuoted_escaped, skipBlanks_colon, hblank, hread,
      skipBlanks_printMembers_nil hlayout]
    rfl
  | cons next members ih =>
    obtain ⟨nextName, nextValue⟩ := next
    have hvalue : ReadsBack layout maxDigits depth value := h (name, value) List.mem_cons_self
    obtain ⟨u, hcomma, hu⟩ := skipBlanks_separator hlayout (k + 1)
      ((starts_printText layout.ascii nextName).append (": " ++ (print layout (k + 1) nextValue ++
        (printMembers layout k members ++ rest))))
    have htail : printMembers layout k ((nextName, nextValue) :: members) ++ rest =
        layout.separator (k + 1) ++ (printText layout.ascii nextName ++ (": " ++
          (print layout (k + 1) nextValue ++ (printMembers layout k members ++ rest)))) := by
      rw [printMembers]
      simp only [List.append_assoc]
    have hcloses := closes_printMembers hlayout k ((nextName, nextValue) :: members) rest
    obtain ⟨blanks, hsep, -⟩ := separator_eq hlayout (k + 1)
    simp only [printMembers, hsep, List.length_append, List.length_cons] at hfuel
    obtain ⟨fuel, rfl⟩ : ∃ n, fuel = n + 1 := ⟨fuel - 1, by omega⟩
    have hblank := skipBlanks_blank ((hvalue.starts (k + 1)).append
      (printMembers layout k ((nextName, nextValue) :: members) ++ rest))
    have hread := hvalue.read (k + 1) fuel
      (printMembers layout k ((nextName, nextValue) :: members) ++ rest) (by omega) hcloses
    have hmembers := ih fuel nextName nextValue (fun m hm => h m (List.mem_cons_of_mem _ hm))
      (by rw [List.length_append]; omega)
    rw [printText_append, readMembers]
    simp only [bind, Except.bind, readQuoted_escaped, skipBlanks_colon, hblank, hread]
    rw [htail]
    simp only [hcomma, hu, hmembers]
    rfl

end Reading

private theorem setMember_of_notMem {name : Text} {set : List (Text × Json)}
    (h : name ∉ set.map Prod.fst) (value : Json) :
    setMember name value set = set ++ [(name, value)] := by
  induction set with
  | nil => rfl
  | cons m set ih =>
    rw [List.map_cons, List.mem_cons, not_or] at h
    rw [setMember, if_neg (Ne.symm h.1), ih h.2, List.cons_append]

private theorem foldl_setMember {set members : List (Text × Json)}
    (h : ((set ++ members).map Prod.fst).Nodup) :
    members.foldl (fun set (name, value) => setMember name value set) set = set ++ members := by
  induction members generalizing set with
  | nil => rw [List.foldl_nil, List.append_nil]
  | cons m members ih =>
    obtain ⟨name, value⟩ := m
    have hname : name ∉ set.map Prod.fst := by
      rw [List.map_append, List.map_cons] at h
      exact fun hm => (List.nodup_append.mp h).2.2 name hm name List.mem_cons_self rfl
    have happend : set ++ (name, value) :: members = set ++ [(name, value)] ++ members := by
      rw [List.append_assoc, List.singleton_append]
    simp only [List.foldl_cons, setMember_of_notMem hname]
    rw [happend] at h ⊢
    exact ih h

theorem lastOfEach_eq_self {members : List (Text × Json)}
    (h : (members.map Prod.fst).Nodup) : lastOfEach members = members :=
  foldl_setMember h

private theorem readValue_array {maxDigits fuel depth : Nat} {t u after : Text} {items : List Json}
    (ht : skipBlanks t = u) (hu : Starts u)
    (h : readItems maxDigits fuel depth u = .ok (items, after)) :
    readValue maxDigits (fuel + 1) (depth + 1) (.char '[' :: t) = .ok (.array items, after) := by
  obtain ⟨c, v, rfl, -, hc, -⟩ := hu
  rw [readValue]
  simp only [ht]
  split
  · rename_i hbracket
    exact absurd (List.cons.inj hbracket).1 hc
  · rw [h]
    rfl

private theorem readValue_object {maxDigits fuel depth : Nat} {t u after : Text}
    {members : List (Text × Json)} (ht : skipBlanks t = .char '"' :: u)
    (h : readMembers maxDigits fuel depth (.char '"' :: u) = .ok (members, after)) :
    readValue maxDigits (fuel + 1) (depth + 1) (.char '\x7b' :: t) =
      .ok (.object (lastOfEach members), after) := by
  rw [readValue]
  simp only [ht]
  split
  · rename_i hbrace
    exact absurd (List.cons.inj hbrace).1 (by decide)
  · rw [h]
    rfl

theorem ReadsBack.of_succ {layout : Layout} {maxDigits depth : Nat} {j : Json}
    (hj : Readable maxDigits depth j)
    (h : ∀ k fuel rest, (print layout k j).length ≤ fuel + 1 → Closes rest →
      readValue maxDigits (fuel + 1) depth (print layout k j ++ rest) =
        .ok (j.reading layout.ascii, rest)) :
    ReadsBack layout maxDigits depth j := by
  refine ⟨fun k => starts_print layout k hj, fun k fuel rest hfuel hrest => ?_⟩
  obtain ⟨c, t, htext, -⟩ := starts_print layout k hj
  have hlength := hfuel
  rw [htext, List.length_cons] at hlength
  obtain ⟨fuel, rfl⟩ : ∃ n, fuel = n + 1 := ⟨fuel - 1, by omega⟩
  exact h k fuel rest hfuel hrest

/-- Every readable value is read back. -/
theorem readsBack {layout : Layout} (hlayout : layout.Spaced) {maxDigits depth : Nat} {j : Json}
    (hj : Readable maxDigits depth j) : ReadsBack layout maxDigits depth j := by
  -- What may follow a value is left open, so that the induction reaches the parts of arrays and
  -- objects, each of which is followed by what is printed for the parts after it.
  induction hj with
  | null => exact .of_succ .null fun k fuel rest _ _ => rfl
  | bool b =>
    refine .of_succ (.bool b) fun k fuel rest _ _ => ?_
    cases b <;> rfl
  | @int _ n h =>
    refine .of_succ (.int h) fun k fuel rest _ hrest => ?_
    obtain ⟨negative, c, t, htext, hc⟩ := exists_ofInt_eq n
    have hplain := readPlain_ofInt maxDigits n h hrest.endsNumber
    rw [htext, List.append_assoc, List.cons_append] at hplain
    rw [print, htext, List.append_assoc, List.cons_append,
      readValue_signPart _ _ _ _ _ hc, hplain, reading]
  | @float _ x h =>
    refine .of_succ (.float h) fun k fuel rest _ hrest => ?_
    have hplain := readPlain_printFloat maxDigits h hrest.endsNumber
    cases x with
    | nan => rfl
    | infinite negative => cases negative <;> rfl
    | finite negative m e =>
      obtain ⟨c, t, htext, hc⟩ := exists_printFloat_eq h
      rw [htext, List.append_assoc, List.cons_append] at hplain
      rw [print, htext, List.append_assoc, List.cons_append,
        readValue_signPart _ _ _ _ _ hc, hplain, reading]
  | text t =>
    refine .of_succ (.text t) fun k fuel rest _ _ => ?_
    rw [print, printText_append, readValue, readQuoted_escaped]
    rfl
  | @array depth items h ih =>
    refine .of_succ (.array h) fun k fuel rest hfuel hrest => ?_
    cases items with
    | nil => rfl
    | cons item items =>
      have hstarts := ((ih item List.mem_cons_self).starts (k + 1)).append
        (printItems layout k items ++ rest)
      have hskip := (skipBlanks_append (isBlank_lineStart hlayout (k + 1)) _).trans
        (skipBlanks_of_starts hstarts)
      have hbracket : (ofString "[").length = 1 := rfl
      simp only [print, List.length_append] at hfuel
      have hitems := readItems_print hlayout k fuel rest item items ih
        (by rw [List.length_append]; omega)
      rw [print]
      simp only [List.append_assoc]
      exact readValue_array hskip hstarts hitems
  | @object depth members hnames h ih =>
    refine .of_succ (.object hnames h) fun k fuel rest hfuel hrest => ?_
    cases members with
    | nil => rfl
    | cons member members =>
      obtain ⟨name, value⟩ := member
      have hbrace : (ofString "\x7b").length = 1 := rfl
      simp only [print, List.length_append] at hfuel
      have hmembers := readMembers_print hlayout k fuel rest name value members ih
        (by rw [List.length_append]; omega)
      rw [printText_append] at hmembers
      have hskip : skipBlanks (layout.lineStart (k + 1) ++ (printText layout.ascii name ++ (": " ++
          (print layout (k + 1) value ++ (printMembers layout k members ++ rest))))) = _ :=
        (skipBlanks_append (isBlank_lineStart hlayout (k + 1)) _).trans
          (skipBlanks_of_starts ((starts_printText layout.ascii name).append _))
      rw [printText_append] at hskip
      rw [print]
      simp only [List.append_assoc]
      rw [printText_append]
      exact readValue_object hskip hmembers

/-- A document holds what is read of the value that it was written for. -/
theorem readNested_toText {layout : Layout} (hlayout : layout.Spaced) {maxDigits depth : Nat}
    {j : Json} (hj : Readable maxDigits depth j) :
    readNested maxDigits depth (j.toText layout) = .ok (j.reading layout.ascii) := by
  obtain ⟨hstarts, hread⟩ := readsBack hlayout hj
  have hvalue := hread 0 (2 * (print layout 0 j).length + 2) [] (by omega) (fun _ h => nomatch h)
  have hskip := skipBlanks_of_starts (hstarts 0)
  obtain ⟨c, t, htext, -, -, hmark⟩ := hstarts 0
  rw [List.append_nil] at hvalue
  rw [toText]
  unfold readNested
  split
  · rename_i hcons
    rw [htext] at hcons
    exact absurd (List.cons.inj hcons).1 hmark
  · simp only [hskip, hvalue, bind, Except.bind]
    rfl

/-! ## What is read back as it was -/

/-- All texts in a value, names of members included, are as `p` says. -/
inductive EachText (p : Text → Prop) : Json → Prop
  | null : EachText p .null
  | bool (b : Bool) : EachText p (.bool b)
  | int (n : Int) : EachText p (.int n)
  | float (x : Binary64) : EachText p (.float x)
  | text {t : Text} (h : p t) : EachText p (.text t)
  | array {items : List Json} (h : ∀ j ∈ items, EachText p j) : EachText p (.array items)
  | object {members : List (Text × Json)} (hnames : ∀ m ∈ members, p m.1)
    (h : ∀ m ∈ members, EachText p m.2) : EachText p (.object members)

private theorem Readable.eachText {maxDigits depth : Nat} {j : Json}
    (hj : Readable maxDigits depth j) {p : Text → Prop} (h : ∀ t, p t) : j.EachText p := by
  induction hj with
  | null => exact .null
  | bool b => exact .bool b
  | int _ => exact .int _
  | float _ => exact .float _
  | text t => exact .text (h t)
  | array _ ih => exact .array ih
  | object _ _ ih => exact .object (fun m _ => h m.1) ih

theorem EachText.imp {p q : Text → Prop} {j : Json} (hj : j.EachText p) (h : ∀ t, p t → q t) :
    j.EachText q := by
  induction hj with
  | null => exact .null
  | bool b => exact .bool b
  | int n => exact .int n
  | float x => exact .float x
  | text ht => exact .text (h _ ht)
  | array _ ih => exact .array ih
  | object hnames _ ih => exact .object (fun m hm => h _ (hnames m hm)) ih

private theorem readingItems_eq_self {ascii : Bool} {items : List Json}
    (h : ∀ j ∈ items, j.reading ascii = j) : readingItems ascii items = items := by
  induction items with
  | nil => rfl
  | cons item items ih =>
    rw [readingItems, h item List.mem_cons_self, ih fun j hj => h j (List.mem_cons_of_mem _ hj)]

private theorem readingMembers_eq_self {ascii : Bool} {members : List (Text × Json)}
    (hnames : ∀ m ∈ members, readingText ascii m.1 = m.1)
    (h : ∀ m ∈ members, m.2.reading ascii = m.2) : readingMembers ascii members = members := by
  induction members with
  | nil => rfl
  | cons member members ih =>
    have hrest := ih (fun m hm => hnames m (List.mem_cons_of_mem _ hm))
      fun m hm => h m (List.mem_cons_of_mem _ hm)
    rw [readingMembers, hnames member List.mem_cons_self, h member List.mem_cons_self, hrest]

theorem Readable.reading_eq_self {ascii : Bool} {maxDigits depth : Nat} {j : Json}
    (hj : Readable maxDigits depth j) (h : j.EachText fun t => readingText ascii t = t) :
    j.reading ascii = j := by
  induction hj with
  | null => rfl
  | bool b => rfl
  | int _ => rfl
  | float _ => rfl
  | text t =>
    cases h with
    | text ht => rw [reading, ht]
  | array _ ih =>
    cases h with
    | array h => rw [reading, readingItems_eq_self fun j hj => ih j hj (h j hj)]
  | object hdistinct _ ih =>
    cases h with
    | object hnames h =>
      rw [reading, readingMembers_eq_self hnames fun m hm => ih m hm (h m hm),
        lastOfEach_eq_self hdistinct]

theorem readWithin_toText [Host] {layout : Layout} (hlayout : layout.Neutral) {maxDigits : Nat}
    {j : Json} (hj : Readable maxDigits (Host.room .reading) j) :
    readWithin maxDigits (j.toText layout) = .ok j := by
  have hself : j.reading layout.ascii = j :=
    hj.reading_eq_self (hj.eachText fun t => by rw [hlayout.ascii]; rfl)
  rw [readWithin, readDocument, readNested_toText hlayout.toSpaced hj, hself]
  rfl

theorem readNested_asciiLine {maxDigits depth : Nat} {j : Json} (hj : Readable maxDigits depth j)
    (h : j.EachText Text.Unpaired) :
    readNested maxDigits depth (j.toText .asciiLine) = .ok j := by
  have hself : j.reading true = j := hj.reading_eq_self (h.imp fun t ht => ht.joined_eq)
  exact (readNested_toText spaced_asciiLine hj).trans (congrArg Except.ok hself)

end ConversionCoverage.Json

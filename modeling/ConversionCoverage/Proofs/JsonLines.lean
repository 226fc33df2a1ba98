import ConversionCoverage.Proofs.JsonRoundTrip
import ConversionCoverage.Proofs.PrintableAscii

/-!
# Lines of JSON

A document on one line has no line break in it, whatever its texts hold, so that several of them
can be told apart by their line breaks. In ASCII it holds nothing but printable characters.
-/

namespace ConversionCoverage

namespace Text

private theorem exists_splitOn_eq_cons (separator : CodePoint) (t : Text) :
    ∃ piece rest, splitOn separator t = piece :: rest := by
  cases t with
  | nil => exact ⟨[], [], rfl⟩
  | cons c t =>
    rw [splitOn, List.foldr_cons]
    split
    · exact ⟨_, _, rfl⟩
    · split <;> exact ⟨_, _, rfl⟩

theorem splitOn_cons (separator c : CodePoint) (t piece : Text) (rest : List Text)
    (h : splitOn separator t = piece :: rest) :
    splitOn separator (c :: t) =
      if c = separator then [] :: piece :: rest else (c :: piece) :: rest := by
  rw [splitOn] at h ⊢
  rw [List.foldr_cons, h]

private theorem splitOn_append_cons {separator : CodePoint} {t : Text} (h : separator ∉ t)
    (rest : Text) :
    splitOn separator (t ++ separator :: rest) = t :: splitOn separator rest := by
  induction t with
  | nil =>
    obtain ⟨piece, pieces, hrest⟩ := exists_splitOn_eq_cons separator rest
    rw [List.nil_append, splitOn_cons separator separator rest piece pieces hrest, if_pos rfl, hrest]
  | cons c t ih =>
    rw [List.mem_cons, not_or] at h
    rw [List.cons_append, splitOn_cons separator c _ _ _ (ih h.2), if_neg (Ne.symm h.1)]

theorem splitOn_flatMap {lines : List Text} (h : ∀ line ∈ lines, .char '\n' ∉ line) :
    splitOn '\n' (lines.flatMap fun line => line ++ "\n") = lines ++ [[]] := by
  induction lines with
  | nil => rfl
  | cons line lines ih =>
    have hlines := ih fun l hl => h l (List.mem_cons_of_mem _ hl)
    rw [List.flatMap_cons, List.append_assoc, List.cons_append, ← hlines]
    exact splitOn_append_cons (h line List.mem_cons_self) _

end Text

namespace Json

open Text

section OneLine

variable {layout : Layout} (hlayout : layout.indent = none)
include hlayout

theorem shows_lineStart (k : Nat) : ∀ c ∈ layout.lineStart k, layout.Shows c := by
  rw [Layout.lineStart, hlayout]
  exact List.forall_mem_nil _

theorem shows_separator (k : Nat) : ∀ c ∈ layout.separator k, layout.Shows c := by
  rw [Layout.separator, hlayout]
  exact (by decide : IsPrintableAscii ", ").shows layout

private theorem shows_printItems (k : Nat) {items : List Json}
    (h : ∀ j ∈ items, ∀ k, ∀ c ∈ print layout k j, layout.Shows c) :
    ∀ c ∈ printItems layout k items, layout.Shows c := by
  induction items with
  | nil =>
    rw [printItems, List.forall_mem_append]
    exact ⟨shows_lineStart hlayout k, (by decide : IsPrintableAscii "]").shows layout⟩
  | cons item items ih =>
    have hitems := ih fun j hj => h j (List.mem_cons_of_mem _ hj)
    simp only [printItems, List.forall_mem_append]
    exact ⟨⟨shows_separator hlayout _, h item List.mem_cons_self _⟩, hitems⟩

private theorem shows_printMembers (k : Nat) {members : List (Text × Json)}
    (h : ∀ m ∈ members, ∀ k, ∀ c ∈ print layout k m.2, layout.Shows c) :
    ∀ c ∈ printMembers layout k members, layout.Shows c := by
  induction members with
  | nil =>
    rw [printMembers, List.forall_mem_append]
    exact ⟨shows_lineStart hlayout k, (by decide : IsPrintableAscii "\x7d").shows layout⟩
  | cons member members ih =>
    have hmembers := ih fun m hm => h m (List.mem_cons_of_mem _ hm)
    have hcolon := (by decide : IsPrintableAscii ": ").shows layout
    simp only [printMembers, List.forall_mem_append]
    exact ⟨⟨⟨⟨shows_separator hlayout _, shows_printText layout _⟩, hcolon⟩,
      h member List.mem_cons_self _⟩, hmembers⟩

/-- A document without an indentation holds no control characters, and only ASCII on request. -/
theorem shows_print {maxDigits depth : Nat} {j : Json} (hj : Readable maxDigits depth j)
    (k : Nat) : ∀ c ∈ print layout k j, layout.Shows c := by
  induction hj generalizing k with
  | null => exact (by decide : IsPrintableAscii "null").shows layout
  | bool b =>
    cases b with
    | true => exact (by decide : IsPrintableAscii "true").shows layout
    | false => exact (by decide : IsPrintableAscii "false").shows layout
  | int h => exact (isPrintableAscii_ofInt _).shows layout
  | float h => exact (isPrintableAscii_printFloat _).shows layout
  | text t => exact shows_printText layout t
  | @array _ items h ih =>
    cases items with
    | nil => exact (by decide : IsPrintableAscii "[]").shows layout
    | cons item items =>
      simp only [print, List.forall_mem_append]
      exact ⟨⟨⟨(by decide : IsPrintableAscii "[").shows layout, shows_lineStart hlayout _⟩,
        ih item List.mem_cons_self _⟩,
        shows_printItems hlayout k fun j hj => ih j (List.mem_cons_of_mem _ hj)⟩
  | @object _ members hnames h ih =>
    cases members with
    | nil => exact (by decide : IsPrintableAscii "\x7b\x7d").shows layout
    | cons member members =>
      have hbrace := (by decide : IsPrintableAscii "\x7b").shows layout
      have hcolon := (by decide : IsPrintableAscii ": ").shows layout
      simp only [print, List.forall_mem_append]
      exact ⟨⟨⟨⟨⟨hbrace, shows_lineStart hlayout _⟩, shows_printText layout _⟩, hcolon⟩,
        ih member List.mem_cons_self _⟩,
        shows_printMembers hlayout k fun m hm => ih m (List.mem_cons_of_mem _ hm)⟩

theorem newline_notMem_print {maxDigits depth : Nat} {j : Json} (hj : Readable maxDigits depth j)
    (k : Nat) : .char '\n' ∉ print layout k j :=
  fun hmem => absurd (shows_print hlayout hj k _ hmem).1 (by decide)

end OneLine

private theorem checkItems_eq_ok {room : Nat} {items : List Json}
    (h : ∀ item ∈ items, check room item = .ok ()) : checkItems room items = .ok () := by
  induction items with
  | nil => rfl
  | cons item rest ih =>
    rw [checkItems, h item List.mem_cons_self]
    exact ih fun j hj => h j (List.mem_cons_of_mem _ hj)

private theorem checkMembers_eq_ok {room : Nat} {members : List (Text × Json)}
    (h : ∀ member ∈ members, check room member.2 = .ok ()) :
    checkMembers room members = .ok () := by
  induction members with
  | nil => rfl
  | cons member rest ih =>
    rw [checkMembers, h member List.mem_cons_self]
    exact ih fun m hm => h m (List.mem_cons_of_mem _ hm)

/-- A value that can be read back with some room can be printed with the same room. -/
theorem Readable.check_eq_ok {room : Nat} {j : Json} (hj : Readable Numeral.maxDigits room j) :
    check room j = .ok () := by
  induction hj with
  | null => simp only [check]
  | bool b => simp only [check]
  | float h => simp only [check]
  | text t => simp only [check]
  | @int room n h =>
    have hshort : ¬ Numeral.maxDigits < (Text.ofNat n.natAbs).length := by
      rw [Text.length_ofNat]
      exact Nat.not_lt.mpr h
    simp only [check, Numeral.write, if_neg hshort]
    rfl
  | array h ih => exact checkItems_eq_ok ih
  | object hnames h ih => exact checkMembers_eq_ok ih

theorem Readable.toTextWithin_eq {room : Nat} {j : Json} (hj : Readable Numeral.maxDigits room j)
    (layout : Layout) : j.toTextWithin room layout = .ok (j.toText layout) := by
  rw [toTextWithin, hj.check_eq_ok]
  rfl

theorem isPrintableAscii_asciiLine {maxDigits depth : Nat} {j : Json}
    (hj : Readable maxDigits depth j) : (j.toText .asciiLine).IsPrintableAscii := by
  intro c hc
  obtain ⟨hlow, hhigh⟩ := @shows_print .asciiLine rfl _ _ j hj 0 c hc
  exact ⟨hlow, hhigh rfl⟩

end Json

end ConversionCoverage

import ConversionCoverage.Markup
import Mathlib.Data.List.Infix
import Mathlib.Data.List.TakeWhile

/-!
# The tags of texts that are put together

A tag ends at the first bracket after its own. So texts of which the later one does not begin with
the end of a tag have the tags of both, but that backslashes at the end of the earlier one count for
the later one. Escaped text has no tags, and only an opening bracket before a slash makes a tag that
closes a style.
-/

namespace ConversionCoverage.Markup

/-! ## Brackets -/

def isBracket (c : CodePoint) : Bool := c = '[' || c = ']'

/-- The text has neither tags nor any part of one that ends or begins in it. -/
def NoBracket (t : Text) : Prop := ∀ c ∈ t, isBracket c = false

instance : DecidablePred NoBracket := fun t =>
  inferInstanceAs (Decidable (∀ c ∈ t, isBracket c = false))

theorem NoBracket.append {a b : Text} (ha : NoBracket a) (hb : NoBracket b) : NoBracket (a ++ b) :=
  fun c hc => (List.mem_append.mp hc).elim (ha c) (hb c)

theorem NoBracket.cons {c : CodePoint} {t : Text} (ht : NoBracket t) (hc : isBracket c = false) :
    NoBracket (c :: t) :=
  List.forall_mem_cons.mpr ⟨hc, ht⟩

/-- No tag of a text before this one ends in it: its first bracket, if it has one, opens. -/
def Apart (t : Text) : Prop := t.find? isBracket ≠ some (.char ']')

/-- No tag starts in this text and ends in a later one: its last bracket, if it has one, closes. -/
def Closed (t : Text) : Prop := t.reverse.find? isBracket ≠ some (.char '[')

instance : DecidablePred Apart := fun t =>
  inferInstanceAs (Decidable (t.find? isBracket ≠ some (.char ']')))

instance : DecidablePred Closed := fun t =>
  inferInstanceAs (Decidable (t.reverse.find? isBracket ≠ some (.char '[')))

theorem apart_of_noBracket {t : Text} (h : NoBracket t) : Apart t := by
  have hnone : t.find? isBracket = none := List.find?_eq_none.mpr fun c hc => by simp [h c hc]
  simp [Apart, hnone]

theorem apart_append {t : Text} (h : t.find? isBracket = some (.char '[')) (more : Text) :
    Apart (t ++ more) := by
  rw [Apart, List.find?_append, h]
  exact of_decide_eq_true rfl

private theorem closed_of_cons {c : CodePoint} {rest : Text} (h : Closed (c :: rest)) :
    Closed rest := by
  intro hrest
  rw [Closed, List.reverse_cons, List.find?_append, hrest] at h
  exact h rfl

private theorem isSome_find?_of_closed {rest : Text} (h : Closed (.char '[' :: rest)) :
    (rest.find? isBracket).isSome := by
  by_contra hnone
  rw [Option.not_isSome_iff_eq_none, List.find?_eq_none] at hnone
  have hreverse : rest.reverse.find? isBracket = none :=
    List.find?_eq_none.mpr fun c hc => hnone c (List.mem_reverse.mp hc)
  rw [Closed, List.reverse_cons, List.find?_append, hreverse] at h
  exact h rfl

theorem not_isBracket_of_opensTag {c : CodePoint} (h : opensTag c) : isBracket c = false := by
  rw [isBracket, Bool.or_eq_false_iff, decide_eq_false_iff_not, decide_eq_false_iff_not]
  constructor
  · rintro rfl
    cases h
  · rintro rfl
    cases h

theorem tag?_cons (c : CodePoint) (rest : Text) : tag? (c :: rest) =
    if opensTag c && rest.find? isBracket = some (.char ']') then
      some (c :: rest.takeWhile fun d => !isBracket d)
    else none := by
  have hbody : (fun d : CodePoint => decide (d ≠ '[') && decide (d ≠ ']')) =
      fun d => !isBracket d := by
    funext d
    simp [isBracket]
  have hdrop : rest.drop (rest.takeWhile fun d => !isBracket d).length =
      rest.dropWhile fun d => !isBracket d := by
    conv_lhs => rw [← List.takeWhile_append_dropWhile (p := fun d => !isBracket d) (l := rest)]
    rw [List.drop_append]
    simp
  rw [tag?]
  simp only [hbody, hdrop, List.find?_eq_head?_dropWhile_not]

private theorem tag?_of_apart {t : Text} (h : Apart t) : tag? t = none := by
  cases t with
  | nil => rfl
  | cons c rest =>
    rw [tag?_cons, if_neg]
    rw [Bool.and_eq_true, decide_eq_true_eq]
    rintro ⟨hopens, hcloses⟩
    apply h
    rw [List.find?_cons_of_neg (by simp [not_isBracket_of_opensTag hopens]), hcloses]

private theorem takeWhile_append_of_find? {p : CodePoint → Bool} {a : Text} (b : Text)
    (h : (a.find? p).isSome) :
    (a ++ b).takeWhile (fun d => !p d) = a.takeWhile fun d => !p d := by
  induction a with
  | nil => cases h
  | cons c rest ih =>
    by_cases hc : p c
    · simp [hc]
    · rw [List.find?_cons_of_neg hc] at h
      simp [hc, ih h]

/-- A tag that does not end in a text ends after it, or not at all. -/
theorem tag?_append {a b : Text} (h : a.find? isBracket = none → Apart b) :
    tag? (a ++ b) = tag? a := by
  cases a with
  | nil => exact tag?_of_apart (h rfl)
  | cons c rest =>
    rw [List.cons_append, tag?_cons, tag?_cons, List.find?_append]
    by_cases hopens : opensTag c
    · rw [List.find?_cons_of_neg (by simp [not_isBracket_of_opensTag hopens])] at h
      cases hfind : rest.find? isBracket with
      | none =>
        have hapart : b.find? isBracket ≠ some (.char ']') := h hfind
        simp [hapart]
      | some bracket =>
        rw [takeWhile_append_of_find? b (by rw [hfind]; rfl)]
        rfl
    · simp [hopens]

/-! ## Tags of two texts -/

/-- The number of backslashes right before what follows a text, if `slashes` come before it. -/
def slashesAfter (slashes : Nat) : Text → Nat
  | [] => slashes
  | c :: rest => slashesAfter (if c = '\\' then slashes + 1 else 0) rest

theorem tagsFrom_append (position slashes : Nat) {a b : Text} (h : Closed a ∨ Apart b) :
    tagsFrom position slashes (a ++ b) = tagsFrom position slashes a ++
      tagsFrom (position + a.length) (slashesAfter slashes a) b := by
  induction a generalizing position slashes with
  | nil => rfl
  | cons c rest ih =>
    have hlater := fun position slashes => ih position slashes (h.imp_left closed_of_cons)
    have hlength : position + (c :: rest).length = position + 1 + rest.length := by
      rw [List.length_cons]
      omega
    rw [List.cons_append, tagsFrom, tagsFrom, slashesAfter, hlength]
    by_cases hc : c = '\\'
    · simp only [if_pos hc, hlater]
    · simp only [if_neg hc, hlater]
      split
      · rename_i hopen
        obtain ⟨rfl, -⟩ : c = '[' ∧ slashes % 2 = 0 := by simpa using hopen
        have htag : tag? (rest ++ b) = tag? rest := by
          apply tag?_append
          intro hnone
          apply h.resolve_left
          intro hclosed
          rw [← Option.not_isSome_iff_eq_none] at hnone
          exact hnone (isSome_find?_of_closed hclosed)
        rw [htag]
        cases tag? rest <;> rfl
      · rfl

/-- The tags of a text without their places. -/
def bodies (slashes : Nat) (t : Text) : List Text := (tagsFrom 0 slashes t).map Prod.snd

theorem map_snd_tagsFrom (position slashes : Nat) (t : Text) :
    (tagsFrom position slashes t).map Prod.snd = bodies slashes t := by
  rw [bodies]
  generalize 0 = start
  induction t generalizing position start slashes with
  | nil => rfl
  | cons c rest ih =>
    have hlater := ih (position + 1) 0 (start + 1)
    rw [tagsFrom, tagsFrom]
    split
    · exact ih _ _ _
    · simp only
      split
      · split
        · simp [hlater]
        · exact hlater
      · exact hlater

theorem bodies_append (slashes : Nat) {a b : Text} (h : Closed a ∨ Apart b) :
    bodies slashes (a ++ b) = bodies slashes a ++ bodies (slashesAfter slashes a) b := by
  rw [bodies, tagsFrom_append 0 slashes h, List.map_append, map_snd_tagsFrom, map_snd_tagsFrom]

theorem bodies_cons (slashes : Nat) (c : CodePoint) (rest : Text) :
    bodies slashes (c :: rest) =
      if c = '\\' then bodies (slashes + 1) rest
      else if c = '[' && slashes % 2 = 0 then
        match tag? rest with
        | some body => body :: bodies 0 rest
        | none => bodies 0 rest
      else bodies 0 rest := by
  rw [bodies, tagsFrom]
  split
  · exact map_snd_tagsFrom _ _ _
  · simp only
    split
    · cases tag? rest with
      | some body => exact congrArg (body :: ·) (map_snd_tagsFrom _ _ _)
      | none => exact map_snd_tagsFrom _ _ _
    · exact map_snd_tagsFrom _ _ _

theorem bodies_of_noBracket (slashes : Nat) {t : Text} (h : NoBracket t) :
    bodies slashes t = [] := by
  induction t generalizing slashes with
  | nil => rfl
  | cons c rest ih =>
    have hrest : NoBracket rest := fun d hd => h d (List.mem_cons_of_mem _ hd)
    have hc : c ≠ '[' := by
      rintro rfl
      exact absurd (h _ List.mem_cons_self) (by decide)
    rw [bodies_cons]
    simp [hc, ih _ hrest]

private theorem bodies_mod_two (slashes : Nat) (t : Text) :
    bodies (slashes % 2) t = bodies slashes t := by
  induction t generalizing slashes with
  | nil => rfl
  | cons c rest ih =>
    have hnext : bodies (slashes % 2 + 1) rest = bodies (slashes + 1) rest := by
      rw [← ih (slashes % 2 + 1), ← ih (slashes + 1), Nat.mod_add_mod]
    rw [bodies_cons, bodies_cons, Nat.mod_mod, hnext]

/-- Of the backslashes before a text it only matters whether one of them escapes its start. -/
theorem bodies_eq_or (slashes : Nat) (t : Text) :
    bodies slashes t = bodies 0 t ∨ bodies slashes t = bodies 1 t := by
  rw [← bodies_mod_two]
  rcases Nat.mod_two_eq_zero_or_one slashes with h | h
  · exact .inl (by rw [h])
  · exact .inr (by rw [h])

/-! ## Escaped text -/

private theorem find?_escapeTags (slashes : Nat) (t : Text) :
    (escapeTags slashes t).find? isBracket = t.find? isBracket := by
  induction t generalizing slashes with
  | nil => rfl
  | cons c rest ih =>
    rw [escapeTags]
    split
    · rename_i hc
      have hslash : isBracket c = false := by rw [hc]; rfl
      rw [List.find?_cons_of_neg (by simp [hslash]), List.find?_cons_of_neg (by simp [hslash]), ih]
    · split
      · rename_i hc hopen
        obtain ⟨rfl, -⟩ : c = '[' ∧ (tag? rest).isSome = true := by simpa using hopen
        have hnone : (Text.repeated "\\" (slashes + 1)).find? isBracket = none := by
          rw [List.find?_eq_none]
          intro d hd
          obtain ⟨piece, hpiece, hd⟩ := List.mem_flatten.mp hd
          rw [List.eq_of_mem_replicate hpiece] at hd
          rw [List.mem_singleton.mp hd]
          decide
        rw [List.find?_append, hnone]
        rfl
      · rw [List.find?_cons, List.find?_cons, ih]

theorem isSome_tag?_escapeTags {t : Text} (h : (tag? (escapeTags 0 t)).isSome) :
    (tag? t).isSome := by
  cases t with
  | nil => cases h
  | cons c rest =>
    rw [escapeTags] at h
    split at h
    · rename_i hc
      subst hc
      rw [tag?_cons] at h
      cases h
    · split at h
      · rw [Text.repeated, List.replicate_succ, List.flatten_cons] at h
        have hslash : ∀ t : Text, tag? (("\\" : Text) ++ t) = none := fun t => tag?_cons _ _
        rw [List.append_assoc, hslash] at h
        cases h
      · rw [tag?_cons, find?_escapeTags] at h
        rw [tag?_cons]
        split at h
        · rename_i hopens
          rw [if_pos hopens]
          rfl
        · cases h

private theorem bodies_repeated (slashes n : Nat) (t : Text) :
    bodies slashes (Text.repeated "\\" n ++ t) = bodies (slashes + n) t := by
  induction n generalizing slashes with
  | zero => rfl
  | succ n ih =>
    have hfirst : Text.repeated "\\" (n + 1) ++ t =
        .char '\\' :: (Text.repeated "\\" n ++ t) := rfl
    rw [hfirst, bodies_cons, if_pos rfl, ih, Nat.add_assoc, Nat.add_comm 1 n]

theorem bodies_escapeTags (slashes : Nat) (t : Text) :
    bodies slashes (escapeTags slashes t) = [] := by
  induction t generalizing slashes with
  | nil => rfl
  | cons c rest ih =>
    rw [escapeTags]
    split
    · rename_i hc
      rw [bodies_cons, if_pos hc, ih]
    · rename_i hc
      split
      · -- The backslashes before the tag are doubled, and one more makes their number odd.
        have hodd : ¬ (slashes + (slashes + 1)) % 2 = 0 := by omega
        rw [bodies_repeated, bodies_cons]
        simp [hc, hodd, ih]
      · rename_i hno
        rw [bodies_cons, if_neg hc]
        split
        · rename_i hopen
          have hopen' : c = '[' := by simp at hopen; exact hopen.1
          have hnone : tag? (escapeTags 0 rest) = none := by
            rw [← Option.not_isSome_iff_eq_none]
            intro hsome
            exact hno (by simp [hopen', isSome_tag?_escapeTags hsome])
          rw [hnone]
          exact ih 0
        · exact ih 0

/-- Escaped text is shown as it is: it has no tags. -/
theorem bodies_escape (t : Text) : bodies 0 (escape t) = [] := by
  rw [escape]
  split
  · exact bodies_escapeTags 0 t
  · rw [bodies_append _ (.inr (apart_of_noBracket (by decide))), bodies_escapeTags]
    exact bodies_of_noBracket _ (by decide)
  · exact bodies_escapeTags 0 t

/-! ## Styles that are open -/

/-- The styles that are open after tags, the latest first, or nothing if a tag closes nothing. -/
def openAfter (opened : List Text) : List Text → Option (List Text)
  | [] => some opened
  | body :: rest =>
    match closes? body with
    | none => openAfter (styleName (tagName body) :: opened) rest
    | some [] =>
      match opened with
      | [] => none
      | _ :: others => openAfter others rest
    | some name =>
      if opened.contains (styleName name) then openAfter (opened.erase (styleName name)) rest
      else none

private theorem firstFault_eq_none_iff (opened : List Text) (tags : List (Nat × Text)) :
    firstFault opened tags = none ↔ (openAfter opened (tags.map Prod.snd)).isSome := by
  induction tags generalizing opened with
  | nil => exact iff_of_true rfl rfl
  | cons tag rest ih =>
    obtain ⟨position, body⟩ := tag
    rw [firstFault.eq_def, List.map_cons, openAfter.eq_def]
    simp only
    cases hcloses : closes? body with
    | none => exact ih _
    | some name =>
      cases name with
      | nil =>
        cases opened with
        | nil => exact iff_of_false nofun nofun
        | cons _ others => exact ih _
      | cons c name =>
        simp only
        split
        · exact ih _
        · exact iff_of_false nofun nofun

theorem check_eq_ok_iff (t : Text) : check t = .ok () ↔ (openAfter [] (bodies 0 t)).isSome := by
  rw [bodies, ← firstFault_eq_none_iff, check, tags]
  cases firstFault [] (tagsFrom 0 0 t) with
  | none => exact iff_of_true rfl rfl
  | some fault => exact iff_of_false nofun nofun

theorem check_escape (t : Text) : check (escape t) = .ok () := by
  rw [check_eq_ok_iff, bodies_escape]
  rfl

theorem openAfter_append (opened xs ys : List Text) :
    openAfter opened (xs ++ ys) = (openAfter opened xs).bind fun later => openAfter later ys := by
  induction xs generalizing opened with
  | nil => rfl
  | cons body rest ih =>
    rw [List.cons_append, openAfter.eq_def, openAfter.eq_def opened (body :: rest)]
    simp only
    split
    · exact ih _
    · split
      · rfl
      · exact ih _
    · split
      · exact ih _
      · rfl

theorem openAfter_of_opening (opened : List Text) {xs : List Text}
    (h : ∀ body ∈ xs, closes? body = none) :
    ∃ more, openAfter opened xs = some (more ++ opened) := by
  induction xs generalizing opened with
  | nil => exact ⟨[], rfl⟩
  | cons body rest ih =>
    have hbody := h body List.mem_cons_self
    obtain ⟨more, hmore⟩ := ih (styleName (tagName body) :: opened) fun b hb =>
      h b (List.mem_cons_of_mem _ hb)
    refine ⟨more ++ [styleName (tagName body)], ?_⟩
    rw [openAfter.eq_def]
    simpa [hbody] using hmore

private theorem closes?_of_tag? {t body : Text} (htag : tag? t = some body)
    (h : t.head? ≠ some (.char '/')) : closes? body = none := by
  cases t with
  | nil => cases htag
  | cons c rest =>
    rw [tag?_cons] at htag
    split at htag
    · cases htag
      rw [closes?, tagName]
      by_cases hc : c = '='
      · simp [hc]
      · rw [List.takeWhile_cons_of_pos (by simpa using hc)]
        split
        · rename_i heq
          cases heq
          exact absurd rfl h
        · rfl
    · cases htag

theorem closes?_of_mem_bodies {t : Text} (h : ¬ ("[/" : Text) <:+: t) (slashes : Nat) :
    ∀ body ∈ bodies slashes t, closes? body = none := by
  induction t generalizing slashes with
  | nil => exact nofun
  | cons c rest ih =>
    have hrest : ∀ slashes, ∀ body ∈ bodies slashes rest, closes? body = none :=
      ih fun hwithin => h (hwithin.trans (List.suffix_cons c rest).isInfix)
    rw [bodies_cons]
    split
    · exact hrest _
    · split
      · rename_i hopen
        have hc : c = '[' := by simp at hopen; exact hopen.1
        split
        · rename_i body htag
          have hslash : rest.head? ≠ some (.char '/') := by
            intro hslash
            obtain ⟨more, rfl⟩ := List.head?_eq_some_iff.mp hslash
            subst hc
            exact h ⟨[], more, rfl⟩
          intro other hother
          rcases List.mem_cons.mp hother with rfl | hother
          · exact closes?_of_tag? htag hslash
          · exact hrest _ other hother
        · exact hrest _
      · exact hrest _

theorem check_of_noBracket {t : Text} (h : NoBracket t) : check t = .ok () := by
  rw [check_eq_ok_iff, bodies_of_noBracket 0 h]
  rfl

theorem check_of_no_closing {t : Text} (h : ¬ ("[/" : Text) <:+: t) : check t = .ok () := by
  obtain ⟨more, hmore⟩ := openAfter_of_opening [] (closes?_of_mem_bodies h 0)
  rw [check_eq_ok_iff, hmore]
  rfl

end ConversionCoverage.Markup

import ConversionCoverage.Command.Run
import ConversionCoverage.Proofs.Encodability
import ConversionCoverage.Proofs.Export
import ConversionCoverage.Proofs.Markup

/-!
# The markup of an export

What the command shows of an export is put together of words of its own, of the paths that it is
given, and of the names in a record, which are escaped. The tags in it are those of the paths and
some that open and close styles of their own. A console need not read all markup as it is read here.
But if it does so where all tags are made of small letters, then it takes whatever an export shows
unless a path closes a style that is not open.
-/

namespace ConversionCoverage

/-! ## Tags of small letters -/

namespace Markup

def isSmallLetter : CodePoint → Bool
  | .char c => c.isLower
  | .half _ => false

/-- A tag of small letters, which may come after a slash. -/
def IsWord (body : Text) : Prop :=
  body.all isSmallLetter ∨ body.head? = some (.char '/') ∧ body.tail.all isSmallLetter

instance : DecidablePred IsWord := fun body =>
  inferInstanceAs (Decidable (body.all isSmallLetter ∨
    body.head? = some (.char '/') ∧ body.tail.all isSmallLetter))

/-- Markup that can be encoded and has no tags but words. -/
structure Simple (t : Text) : Prop where
  whole : ¬ t.HasHalf
  words : ∀ body ∈ bodies 0 t, IsWord body

theorem hasHalf_escapeTags (slashes : Nat) (t : Text) :
    (escapeTags slashes t).HasHalf ↔ t.HasHalf := by
  have hslashes (n : Nat) : ¬ (Text.repeated "\\" n).HasHalf :=
    Text.not_hasHalf_repeated (Text.not_hasHalf_ofString _) n
  induction t generalizing slashes with
  | nil => rfl
  | cons c rest ih =>
    have hcons (n : Nat) : Text.HasHalf (c :: escapeTags n rest) ↔ Text.HasHalf (c :: rest) := by
      cases c <;> simp [ih]
    rw [escapeTags]
    split
    · exact hcons _
    · split
      · rw [Text.hasHalf_append, or_iff_right (hslashes _)]
        exact hcons 0
      · exact hcons 0

theorem hasHalf_escape (t : Text) : (escape t).HasHalf ↔ t.HasHalf := by
  rw [escape]
  split
  · exact hasHalf_escapeTags 0 t
  · rw [Text.hasHalf_append, or_iff_left (Text.not_hasHalf_ofString _)]
    exact hasHalf_escapeTags 0 t
  · exact hasHalf_escapeTags 0 t

/-- Simple markup in which each closing tag has a style to close. -/
structure Sound (t : Text) : Prop extends Simple t where
  check : check t = .ok ()

theorem sound_of_noBracket {t : Text} (hwhole : ¬ t.HasHalf) (h : NoBracket t) : Sound t where
  whole := hwhole
  words := by simp [bodies_of_noBracket 0 h]
  check := check_of_noBracket h

theorem sound_escape {t : Text} (h : ¬ t.HasHalf) : Sound (escape t) where
  whole := mt (hasHalf_escape t).mp h
  words := by simp [bodies_escape]
  check := check_escape t

end Markup

/-- The console takes markup of words as it is read here. -/
def Host.ReadsWords [Host] : Prop :=
  ∀ t, Markup.Simple t → (Host.console t = .ok () ↔ Markup.check t = .ok ())

/-! ## Paths -/

private theorem Text.join_concat (separator : Text) {ts : List Text} (h : ts ≠ []) (t : Text) :
    join separator (ts ++ [t]) = join separator ts ++ (separator ++ t) := by
  fun_induction join separator ts with
  | case1 => exact absurd rfl h
  | case2 first => simp [join]
  | case3 first rest hrest ih =>
    obtain ⟨second, more, rfl⟩ := List.exists_cons_of_ne_nil hrest
    rw [List.cons_append, join, ih hrest]
    · simp
    · simp

theorem FilePath.toText_concat {p : FilePath} (h : ¬ (p.slashes = 0 ∧ p.parts = []))
    (name : Text) : toText ⟨p.slashes, p.parts ++ [name]⟩ =
      p.toText ++ ((if p.parts = [] then [] else ("/" : Text)) ++ name) := by
  have hne : ¬ (p.slashes = 0 ∧ p.parts ++ [name] = []) := by simp
  rw [toText, toText, if_neg hne, if_neg h]
  split
  · rename_i hparts
    rw [hparts]
    simp [Text.join]
  · rename_i hparts
    rw [Text.join_concat _ hparts, List.append_assoc]

namespace Export

private theorem noBracket_fileName (kind : Report) : Markup.NoBracket kind.fileName := by
  cases kind <;> decide

theorem toText_target (directory : FilePath) (kind : Report) :
    ∃ last, Markup.NoBracket last ∧ ¬ last.HasHalf ∧
      ((target directory kind).toText = directory.toText ++ last ∨
        directory = ⟨0, []⟩ ∧ (target directory kind).toText = last) := by
  have hname := noBracket_fileName kind
  have hwhole : ¬ kind.fileName.HasHalf := by cases kind <;> decide
  rw [target_eq]
  by_cases htop : directory.slashes = 0 ∧ directory.parts = []
  · obtain ⟨slashes, parts⟩ := directory
    obtain ⟨rfl, rfl⟩ := htop
    have htext : FilePath.toText ⟨0, [] ++ [kind.fileName]⟩ = kind.fileName := by
      simp [FilePath.toText, Text.join, Text.repeated]
    exact ⟨_, hname, hwhole, .inr ⟨rfl, htext⟩⟩
  · have hgap : Markup.NoBracket (if directory.parts = [] then [] else "/") := by
      split <;> decide
    have hgapWhole : ¬ Text.HasHalf (if directory.parts = [] then [] else ("/" : Text)) := by
      split <;> decide
    refine ⟨_, hgap.append hname, ?_, .inl (FilePath.toText_concat htop _)⟩
    rw [Text.hasHalf_append, not_or]
    exact ⟨hgapWhole, hwhole⟩

/-- The file names of reports have no tags, so that a directory has those of all its reports. -/
theorem bodies_target (directory : FilePath) (kind : Report) :
    Markup.bodies 0 (target directory kind).toText = Markup.bodies 0 directory.toText := by
  obtain ⟨last, hlast, -, htext | ⟨rfl, htext⟩⟩ := toText_target directory kind
  · rw [htext, Markup.bodies_append 0 (.inr (Markup.apart_of_noBracket hlast)),
      Markup.bodies_of_noBracket _ hlast, List.append_nil]
  · rw [htext, Markup.bodies_of_noBracket 0 hlast]
    rfl

private theorem simple_target {directory : FilePath} (h : Markup.Simple directory.toText)
    (kind : Report) : Markup.Simple (target directory kind).toText where
  whole := by
    obtain ⟨last, -, hlast, htext | ⟨-, htext⟩⟩ := toText_target directory kind
    · rw [htext, Text.hasHalf_append, not_or]
      exact ⟨h.whole, hlast⟩
    · rw [htext]
      exact hlast
  words := by
    rw [bodies_target]
    exact h.words

end Export

/-! ## Names and numbers of a record -/

theorem noBracket_of_isDigits {t : Text} (h : t.IsDigits) : Markup.NoBracket t := by
  intro c hc
  rw [Markup.isBracket, Bool.or_eq_false_iff, decide_eq_false_iff_not, decide_eq_false_iff_not]
  constructor
  · rintro rfl
    cases h _ hc
  · rintro rfl
    cases h _ hc

private theorem noBracket_toFixed (places : Nat) (x : Binary64) :
    Markup.NoBracket (x.toFixed places) := by
  have hsign : ∀ negative, Markup.NoBracket (Binary64.signPart negative) := by decide
  have hnan : Markup.NoBracket "nan" := by decide
  cases x with
  | nan => exact hnan
  | infinite negative => exact (hsign negative).append (by decide)
  | finite negative m e =>
    have hdigits (n : Nat) := noBracket_of_isDigits (Json.isDigits_zeroPadded places n)
    rw [Binary64.toFixed]
    apply ((hsign negative).append (noBracket_of_isDigits (Text.isDigits_ofNat _))).append
    split
    · decide
    · exact (hdigits _).cons rfl

/-- All of a record that is shown can be encoded. -/
structure Record.ShownWhole (r : Record) : Prop where
  provider : ¬ r.provider.HasHalf
  version : ¬ r.version.HasHalf
  language : ∀ a ∈ r.conversions, ¬ a.language.HasHalf
  detail : ∀ a ∈ r.conversions, a.succeeded = false → ¬ a.detail.HasHalf

namespace Markup

/-- The tags at the end of what is shown, of which the first may be escaped by what comes before. -/
theorem isWord_of_mem_bodies {t : Text} (h : ∀ body ∈ bodies 0 t, IsWord body)
    (h' : ∀ body ∈ bodies 1 t, IsWord body) (slashes : Nat) :
    ∀ body ∈ bodies slashes t, IsWord body := by
  rcases bodies_eq_or slashes t with heq | heq
  · rw [heq]
    exact h
  · rw [heq]
    exact h'

/-- Markup that opens one style and ends it, unless a backslash escapes the end. -/
private theorem sound_of_bold {t closing : Text} {slashes : Nat} (hwhole : ¬ t.HasHalf)
    (hbodies : bodies 0 t = [("bold" : Text)] ++ bodies slashes closing)
    (hcloses : bodies 0 closing = [("/bold" : Text)]) (hescaped : bodies 1 closing = []) :
    Sound t := by
  have hcases : bodies 0 t = [("bold" : Text), "/bold"] ∨ bodies 0 t = [("bold" : Text)] := by
    rw [hbodies]
    rcases bodies_eq_or slashes closing with h | h
    · rw [h, hcloses]
      exact .inl rfl
    · rw [h, hescaped]
      exact .inr rfl
  rcases hcases with h | h
  · exact ⟨⟨hwhole, by rw [h]; decide⟩, by rw [check_eq_ok_iff, h]; rfl⟩
  · exact ⟨⟨hwhole, by rw [h]; decide⟩, by rw [check_eq_ok_iff, h]; rfl⟩

end Markup

namespace LanguageTable

private theorem bodies_heading (r : Record) : ∃ slashes, Markup.bodies 0 (heading r) =
    [("bold" : Text)] ++ Markup.bodies slashes "[/bold] " := by
  have hapart : Markup.Apart ("[/bold] " ++ Markup.escape r.version) := Markup.apart_append rfl _
  have hstart : ∀ t : Text, Markup.bodies 0 ("\n[bold]" ++ t) =
      [("bold" : Text)] ++ Markup.bodies 0 t := fun t => Markup.bodies_append 0 (.inl (by decide))
  have hend : ∀ slashes (t : Text), Markup.bodies slashes ("[/bold] " ++ t) =
      Markup.bodies slashes "[/bold] " ++ Markup.bodies 0 t := fun slashes t =>
    Markup.bodies_append slashes (.inl (by decide))
  refine ⟨Markup.slashesAfter 0 (Markup.escape r.provider), ?_⟩
  rw [heading, List.append_assoc, List.append_assoc, hstart,
    Markup.bodies_append 0 (.inr hapart), Markup.bodies_escape, hend, Markup.bodies_escape,
    List.nil_append, List.append_nil]

theorem sound_heading {r : Record} (h : r.ShownWhole) : Markup.Sound (heading r) := by
  obtain ⟨slashes, hbodies⟩ := bodies_heading r
  refine Markup.sound_of_bold ?_ hbodies rfl rfl
  simp [heading, Markup.hasHalf_escape, h.provider, h.version]

theorem noBracket_pctText (x : Binary64) : Markup.NoBracket (pctText x) :=
  (noBracket_toFixed 1 x).append (by decide)

private theorem bodies_bold_pctText (x : Binary64) :
    ∃ slashes, Markup.bodies 0 ("[bold]" ++ pctText x ++ "[/bold]") =
      [("bold" : Text)] ++ Markup.bodies slashes "[/bold]" := by
  have hend : Markup.Apart "[/bold]" := by decide
  have hstart : Markup.bodies 0 ("[bold]" ++ (pctText x ++ "[/bold]")) =
      [("bold" : Text)] ++ Markup.bodies 0 (pctText x ++ "[/bold]") :=
    Markup.bodies_append 0 (.inl (by decide))
  refine ⟨Markup.slashesAfter 0 (pctText x), ?_⟩
  rw [List.append_assoc, hstart, Markup.bodies_append 0 (.inr hend),
    Markup.bodies_of_noBracket 0 (noBracket_pctText x), List.nil_append]

private theorem sound_bold_pctText (x : Binary64) :
    Markup.Sound ("[bold]" ++ pctText x ++ "[/bold]") := by
  obtain ⟨slashes, hbodies⟩ := bodies_bold_pctText x
  exact Markup.sound_of_bold (by simp [pctText]) hbodies rfl rfl

private theorem hasHalf_of_shortReason {t : Text} (h : (shortReason t).HasHalf) : t.HasHalf := by
  rw [shortReason] at h
  split at h
  · rw [Text.hasHalf_append, or_iff_left (Text.not_hasHalf_ofString _)] at h
    obtain ⟨k, hk⟩ := h
    exact ⟨k, List.mem_of_mem_take hk⟩
  · exact h

private theorem sound_columns : ∀ cell ∈ columns, Markup.Sound cell := by
  have hplain : ∀ cell ∈ columns, ¬ cell.HasHalf ∧ Markup.NoBracket cell := by decide
  intro cell hcell
  obtain ⟨hwhole, hbracket⟩ := hplain cell hcell
  exact Markup.sound_of_noBracket hwhole hbracket

private theorem sound_ofNat (n : Nat) : Markup.Sound (Text.ofNat n) :=
  Markup.sound_of_noBracket (Text.not_hasHalf_ofNat n)
    (noBracket_of_isDigits (Text.isDigits_ofNat n))

private theorem sound_row {language : Text} {s : LanguageStatistic} (hlanguage : ¬ language.HasHalf)
    (hreasons : ∀ e ∈ s.frequentErrors, ¬ e.reason.HasHalf) :
    ∀ cell ∈ row language s, Markup.Sound cell := by
  have hpct : Markup.Sound (pctText s.shares.successes.pct) :=
    Markup.sound_of_noBracket (by simp [pctText]) (noBracket_pctText _)
  simp only [row, List.forall_mem_cons]
  refine ⟨Markup.sound_escape hlanguage, sound_ofNat _, sound_ofNat _, hpct, ?_,
    List.forall_mem_nil _⟩
  refine Markup.sound_escape (mt hasHalf_of_shortReason ?_)
  cases hlist : s.frequentErrors with
  | nil => exact Text.not_hasHalf_ofString _
  | cons e rest =>
    have he : e ∈ s.frequentErrors := by
      rw [hlist]
      exact List.mem_cons_self
    exact hreasons e he

private theorem sound_overallRow (s : ProviderStatistic) :
    ∀ cell ∈ overallRow s, Markup.Sound cell := by
  have hword : Markup.Sound "Overall" :=
    Markup.sound_of_noBracket (Text.not_hasHalf_ofString _) (by decide)
  have hnone : Markup.Sound "-" :=
    Markup.sound_of_noBracket (Text.not_hasHalf_ofString _) (by decide)
  simp only [overallRow, List.forall_mem_cons]
  exact ⟨hword, sound_ofNat _, sound_ofNat _, sound_bold_pctText _, hnone, List.forall_mem_nil _⟩

theorem sound_rows {r : Record} (h : r.ShownWhole) :
    ∀ cell ∈ (rows r).flatten, Markup.Sound cell := by
  intro cell hcell
  obtain ⟨cells, hrow, hcell⟩ := List.mem_flatten.mp hcell
  rcases List.mem_append.mp hrow with hrow | hrow
  · obtain ⟨⟨language, s⟩, hmem, rfl⟩ := List.mem_map.mp hrow
    rw [Record.languageStatistics_eq] at hmem
    obtain ⟨name, hname, heq⟩ := List.mem_map.mp hmem
    obtain ⟨rfl, rfl⟩ := Prod.mk.inj heq
    obtain ⟨a, ha, rfl⟩ := List.mem_map.mp (Text.mem_distinct.mp hname)
    refine sound_row (h.language a ha) ?_ cell hcell
    intro e he
    have hcounts := Tally.counts_ofAttempts (r.conversions.filter fun b => b.language = a.language)
    have hlisted : e ∈ (Tally.ofAttempts
        (r.conversions.filter fun b => b.language = a.language)).errors.frequent (some 1) := he
    obtain ⟨b, hb, hfailed, hreason⟩ := hcounts.exists_of_mem_frequent hlisted
    rw [← hreason]
    exact h.detail b (List.mem_of_mem_filter hb) hfailed
  · obtain rfl := List.mem_singleton.mp hrow
    exact sound_overallRow _ cell hcell

end LanguageTable

/-! ## What an export shows -/

namespace Command

/-- What is shown before a record is exported. -/
def announcement (record : Text) (directory : FilePath) : Text :=
  "[bold]Exporting:[/bold] " ++ record ++ "\n[dim]Output: " ++ directory.toText ++ "[/dim]"

theorem bodies_announcement (record : Text) (directory : FilePath) :
    Markup.bodies 0 (announcement record directory) =
      [("bold" : Text), "/bold"] ++ (Markup.bodies 0 record ++ ([("dim" : Text)] ++
        (Markup.bodies 0 directory.toText ++
          Markup.bodies (Markup.slashesAfter 0 directory.toText) "[/dim]"))) := by
  have hstart : ∀ t : Text, Markup.bodies 0 ("[bold]Exporting:[/bold] " ++ t) =
      [("bold" : Text), "/bold"] ++ Markup.bodies 0 t := fun t =>
    Markup.bodies_append 0 (.inl (by decide))
  have hdim : ∀ slashes (t : Text), Markup.bodies slashes ("\n[dim]Output: " ++ t) =
      [("dim" : Text)] ++ Markup.bodies 0 t := fun slashes t =>
    Markup.bodies_append slashes (.inl (by decide))
  have hapart : ∀ t : Text, Markup.Apart ("\n[dim]Output: " ++ t) := Markup.apart_append rfl
  have hend : Markup.Apart "[/dim]" := by decide
  rw [announcement, List.append_assoc, List.append_assoc, List.append_assoc, hstart,
    Markup.bodies_append 0 (.inr (hapart _)), hdim, Markup.bodies_append 0 (.inr hend)]

private theorem simple_announcement {record : Text} {directory : FilePath}
    (hrecord : Markup.Simple record) (hdirectory : Markup.Simple directory.toText) :
    Markup.Simple (announcement record directory) where
  whole := by
    simp [announcement, hrecord.whole, hdirectory.whole]
  words := by
    have hend := Markup.isWord_of_mem_bodies (t := "[/dim]") (by decide) (by decide)
      (Markup.slashesAfter 0 directory.toText)
    rw [bodies_announcement]
    simp only [List.forall_mem_append]
    exact ⟨by decide, hrecord.words, by decide, hdirectory.words, hend⟩

/-- A panel for paths without closing tags ends no style but its own. -/
theorem check_announcement {record : Text} {directory : FilePath}
    (hrecord : ¬ ("[/" : Text) <:+: record) (hdirectory : ¬ ("[/" : Text) <:+: directory.toText) :
    Markup.check (announcement record directory) = .ok () := by
  obtain ⟨first, hfirst⟩ :=
    Markup.openAfter_of_opening [] (Markup.closes?_of_mem_bodies hrecord 0)
  obtain ⟨second, hsecond⟩ := Markup.openAfter_of_opening (("dim" : Text) :: (first ++ []))
    (Markup.closes?_of_mem_bodies hdirectory 0)
  have hstart : ∀ xs, Markup.openAfter [] ([("bold" : Text), "/bold"] ++ xs) =
      Markup.openAfter [] xs := fun _ => rfl
  have hdim : ∀ opened xs, Markup.openAfter opened ([("dim" : Text)] ++ xs) =
      Markup.openAfter ("dim" :: opened) xs := fun _ _ => rfl
  rw [Markup.check_eq_ok_iff, bodies_announcement, hstart, Markup.openAfter_append, hfirst]
  simp only [Option.bind_some]
  rw [hdim, Markup.openAfter_append, hsecond]
  simp only [Option.bind_some]
  rcases Markup.bodies_eq_or (Markup.slashesAfter 0 directory.toText) "[/dim]" with h | h
  · have hend : Markup.openAfter (second ++ ("dim" : Text) :: (first ++ [])) [("/dim" : Text)] =
        some ((second ++ ("dim" : Text) :: (first ++ [])).erase "dim") := by
      rw [Markup.openAfter.eq_def]
      have hcontains : (second ++ ("dim" : Text) :: (first ++ [])).contains "dim" = true := by simp
      exact if_pos hcontains
    rw [h]
    exact (congrArg Option.isSome hend).trans rfl
  · rw [h]
    rfl

/-- What is shown for a report that was written. -/
def doneLine (path : FilePath) : Text := "[green]✓[/green] " ++ ("Written " ++ path.toText)

theorem bodies_doneLine (path : FilePath) : Markup.bodies 0 (doneLine path) =
    [("green" : Text), "/green"] ++ Markup.bodies 0 path.toText := by
  rw [doneLine, ← List.append_assoc]
  exact Markup.bodies_append 0 (.inl (by decide))

private theorem check_doneLine (path : FilePath) :
    Markup.check (doneLine path) = .ok () ↔ Markup.check path.toText = .ok () := by
  rw [Markup.check_eq_ok_iff, Markup.check_eq_ok_iff, bodies_doneLine]
  rfl

private theorem check_doneLine_target (directory : FilePath) (kind : Report) :
    Markup.check (doneLine (Export.target directory kind)) = .ok () ↔
      Markup.check directory.toText = .ok () := by
  rw [check_doneLine, Markup.check_eq_ok_iff, Export.bodies_target, Markup.check_eq_ok_iff]

private theorem simple_doneLine {path : FilePath} (h : Markup.Simple path.toText) :
    Markup.Simple (doneLine path) where
  whole := by simp [doneLine, h.whole]
  words := by
    rw [bodies_doneLine]
    exact List.forall_mem_append.mpr ⟨by decide, h.words⟩

/-- The panel before an export, piece by piece. -/
def panelMarkup (record : Text) (directory : FilePath) : List Text :=
  ["📊 Example Coverage", announcement record directory]

/-- What is shown after an export, piece by piece. -/
def resultMarkup (r : Record) (directory : FilePath) : List Text :=
  LanguageTable.heading r ::
    (LanguageTable.columns ++ (LanguageTable.rows r).flatten ++
      Report.all.map fun kind => doneLine (Export.target directory kind))

section Read

variable [Host] (hreads : Host.ReadsWords)
include hreads

theorem console_of_sound {t : Text} (h : Markup.Sound t) : Host.console t = .ok () :=
  (hreads t h.toSimple).mpr h.check

theorem console_panelMarkup_iff {record : Text} {directory : FilePath}
    (hrecord : Markup.Simple record) (hdirectory : Markup.Simple directory.toText) :
    (∀ markup ∈ panelMarkup record directory, Host.console markup = .ok ()) ↔
      Markup.check (announcement record directory) = .ok () := by
  have htitle := console_of_sound hreads
    (Markup.sound_of_noBracket (t := "📊 Example Coverage") (by decide) (by decide))
  rw [panelMarkup, List.forall_mem_cons, List.forall_mem_singleton, and_iff_right htitle]
  exact hreads _ (simple_announcement hrecord hdirectory)

/-- After an export only the paths of the reports can have closing tags without a style. -/
theorem console_resultMarkup_iff {r : Record} {directory : FilePath} (h : r.ShownWhole)
    (hdirectory : Markup.Simple directory.toText) :
    (∀ markup ∈ resultMarkup r directory, Host.console markup = .ok ()) ↔
      Markup.check directory.toText = .ok () := by
  have hheading := console_of_sound hreads (LanguageTable.sound_heading h)
  have hcolumns : ∀ cell ∈ LanguageTable.columns, Host.console cell = .ok () :=
    fun cell hcell => console_of_sound hreads (LanguageTable.sound_columns cell hcell)
  have hrows : ∀ cell ∈ (LanguageTable.rows r).flatten, Host.console cell = .ok () :=
    fun cell hcell => console_of_sound hreads (LanguageTable.sound_rows h cell hcell)
  have hdone (kind : Report) :
      Host.console (doneLine (Export.target directory kind)) = .ok () ↔
        Markup.check directory.toText = .ok () :=
    (hreads _ (simple_doneLine (Export.simple_target hdirectory kind))).trans
      (check_doneLine_target directory kind)
  rw [resultMarkup, List.forall_mem_cons, and_iff_right hheading, List.forall_mem_append,
    List.forall_mem_append, and_iff_right ⟨hcolumns, hrows⟩, List.forall_mem_map]
  simp only [hdone]
  constructor
  · exact fun h => h .byExample (by decide)
  · exact fun h _ _ => h

end Read

end Command

end ConversionCoverage

import ConversionCoverage.FileTree

/-!
# What changes in a file tree

A tree that grows keeps its directories and loses no entry, so that paths lead on to where they
led. Writing a file grows a tree and changes it at the place of the file alone. Making a directory
with those on the way to it keeps every entry and adds directories that the way leads through.
-/

namespace ConversionCoverage.FileTree

variable {tree before mid after : FileTree}

private theorem lookup_setEntry (location l : Location) (e : FileEntry)
    (entries : List (Location × FileEntry)) :
    (setEntry location e entries).lookup l =
      if l = location then some e else entries.lookup l := by
  induction entries with
  | nil =>
    by_cases h : l = location
    · simp [setEntry, h]
    · simp [setEntry, List.lookup_cons, beq_eq_false_iff_ne.mpr h, h]
  | cons p rest ih =>
    obtain ⟨k, v⟩ := p
    by_cases hl : l = k
    · subst hl
      by_cases h : l = location <;> simp [setEntry, h]
    · have hkeep : ((k, v) :: rest).lookup l = rest.lookup l := by
        rw [List.lookup_cons, beq_eq_false_iff_ne.mpr hl]
      by_cases hk : k = location
      · subst hk
        simp [setEntry, List.lookup_cons, beq_eq_false_iff_ne.mpr hl, hl]
      · simp [setEntry, hk, List.lookup_cons, beq_eq_false_iff_ne.mpr hl, ih]

theorem get?_set (tree : FileTree) (location l : Location) (e : FileEntry) (h : location ≠ []) :
    (tree.set location e).get? l = if l = location then some e else tree.get? l := by
  cases l with
  | nil => simp [get?, Ne.symm h]
  | cons part rest => exact lookup_setEntry location _ e tree.entries

theorem isDirAt_iff (tree : FileTree) (l : Location) :
    tree.isDirAt l = true ↔ ∃ m, tree.get? l = some (.dir m) := by
  rw [isDirAt, Option.any_eq_true]
  constructor
  · rintro ⟨e, he, hdir⟩
    cases e with
    | file mode bytes => simp [FileEntry.isDir] at hdir
    | dir mode => exact ⟨mode, he⟩
  · rintro ⟨m, hm⟩
    exact ⟨_, hm, rfl⟩

/-! ## Where paths lead -/

theorem walk_cons_eq_ok_iff (tree : FileTree) (start l : Location) (part : Text)
    (rest : List Text) : tree.walk start (part :: rest) = .ok l ↔
      tree.isDirAt start = true ∧
        if part = ".." then tree.walk start.dropLast rest = .ok l
        else ¬ maxName < byteLength part ∧ (tree.get? (start ++ [part])).isSome ∧
          tree.walk (start ++ [part]) rest = .ok l := by
  rw [walk]
  cases hdir : tree.isDirAt start with
  | false => simp
  | true =>
    by_cases hup : part = ".."
    · simp [hup]
    · by_cases hlong : maxName < byteLength part
      · simp [hup, hlong]
      · cases hentry : tree.get? (start ++ [part]) <;> simp [hup, hlong]

theorem walk_append_eq_ok_iff (tree : FileTree) (start l : Location) (parts more : List Text) :
    tree.walk start (parts ++ more) = .ok l ↔
      ∃ mid, tree.walk start parts = .ok mid ∧ tree.walk mid more = .ok l := by
  induction parts generalizing start with
  | nil => simp [walk]
  | cons part rest ih =>
    simp only [List.cons_append, walk_cons_eq_ok_iff]
    by_cases hup : part = ".."
    · simp [hup, ih, and_assoc]
    · simp [hup, ih, and_assoc]

theorem getLast?_of_walk (tree : FileTree) (way : List Text) (name : Text) (start l : Location)
    (hup : name ≠ "..") (h : tree.walk start (way ++ [name]) = .ok l) :
    l.getLast? = some name := by
  obtain ⟨directory, -, hlast⟩ := (walk_append_eq_ok_iff _ _ _ _ _).mp h
  rw [walk_cons_eq_ok_iff, if_neg hup] at hlast
  obtain rfl := Except.ok.inj hlast.2.2.2
  exact List.getLast?_concat

theorem find_eq_ok_iff (tree : FileTree) (path : FilePath) (l : Location) :
    tree.find path = .ok l ↔
      (∃ written, accept path = .ok written) ∧ tree.walk [] path.parts = .ok l := by
  rw [find]
  cases accept path with
  | error fault => simp [bind, Except.bind]
  | ok written =>
    have hwritten : ∃ w, (.ok written : Except FileFault Text) = .ok w := ⟨written, rfl⟩
    rw [and_iff_right hwritten]
    show (tree.walk [] path.parts).mapError _ = _ ↔ _
    cases tree.walk [] path.parts <;> constructor <;> intro h <;> cases h <;> rfl

/-- A path that consists of a way to a directory and the name of a place in it. -/
structure Names (tree : FileTree) (way : List Text) (name : Text) (directory : Location) :
    Prop where
  way : tree.walk [] way = .ok directory
  dir : tree.isDirAt directory = true
  proper : name ≠ ".."
  short : ¬ maxName < byteLength name

theorem Names.walk {way : List Text} {name : Text} {directory : Location}
    (h : tree.Names way name directory) (hsome : (tree.get? (directory ++ [name])).isSome) :
    tree.walk [] (way ++ [name]) = .ok (directory ++ [name]) := by
  refine (walk_append_eq_ok_iff _ _ _ _ _).mpr ⟨directory, h.way, ?_⟩
  rw [walk_cons_eq_ok_iff, if_neg h.proper]
  exact ⟨h.dir, h.short, hsome, rfl⟩

/-- The place of a request, unless it is a directory named by a dot or by double dots. -/
def Place.location? : Place → Option Location
  | .taken location | .free location => some location
  | .special => none

theorem place_concat (tree : FileTree) (way : List Text) (name : Text) :
    tree.place (way ++ [name]) = match tree.walk [] way with
      | .error refusal => .error refusal
      | .ok directory =>
        if tree.isDirAt directory = false then .error .notDirectory
        else if name = ".." then .ok .special
        else if maxName < byteLength name then .error .nameTooLong
        else .ok (if (tree.get? (directory ++ [name])).isSome then .taken (directory ++ [name])
          else .free (directory ++ [name])) := by
  rw [place, List.getLast?_concat, List.dropLast_concat]
  cases hwalk : tree.walk [] way with
  | error refusal => rfl
  | ok directory =>
    cases hdir : tree.isDirAt directory with
    | false => simp [hdir, bind, Except.bind, throw, throwThe, MonadExceptOf.throw]
    | true =>
      by_cases hup : name = ".."
      · simp [hdir, hup, bind, Except.bind, pure, Except.pure]
      · by_cases hlong : maxName < byteLength name
        · simp [hdir, hup, hlong, bind, Except.bind, throw, throwThe, MonadExceptOf.throw]
        · simp [hdir, hup, hlong, bind, Except.bind, pure, Except.pure]

theorem place_eq_ok (parts : List Text) (p : Place) (l : Location)
    (h : tree.place parts = .ok p) (hl : p.location? = some l) :
    ∃ way name directory, parts = way ++ [name] ∧ l = directory ++ [name] ∧
      tree.Names way name directory ∧
      p = if (tree.get? l).isSome then .taken l else .free l := by
  rcases List.eq_nil_or_concat parts with rfl | ⟨way, name, rfl⟩
  · obtain rfl := Except.ok.inj h
    cases hl
  · rw [List.concat_eq_append, place_concat] at h
    split at h
    · cases h
    · rename_i directory hwalk
      split at h
      · cases h
      · rename_i hdir
        split at h
        · obtain rfl := Except.ok.inj h
          cases hl
        · rename_i hup
          split at h
          · cases h
          · rename_i hlong
            obtain rfl := Except.ok.inj h
            have hloc : l = directory ++ [name] := by
              split at hl <;> exact (Option.some.inj hl).symm
            subst hloc
            exact ⟨way, name, directory, List.concat_eq_append, rfl,
              ⟨hwalk, by simpa using hdir, hup, hlong⟩, rfl⟩

theorem get?_of_free {l : Location}
    (h : Place.free l = if (tree.get? l).isSome then .taken l else .free l) :
    tree.get? l = none := by
  cases hentry : tree.get? l with
  | none => rfl
  | some e => simp [hentry] at h

/-! ## Growth -/

/-- Directories are kept, and no entry is lost. -/
structure Grows (before after : FileTree) : Prop where
  dirs : ∀ l m, before.get? l = some (.dir m) → after.get? l = some (.dir m)
  present : ∀ l, (before.get? l).isSome → (after.get? l).isSome

namespace Grows

theorem refl (tree : FileTree) : Grows tree tree := ⟨fun _ _ h => h, fun _ h => h⟩

theorem trans (h : Grows before mid) (h' : Grows mid after) : Grows before after :=
  ⟨fun l m hl => h'.dirs l m (h.dirs l m hl), fun l hl => h'.present l (h.present l hl)⟩

theorem isDirAt (h : Grows before after) (l : Location) (hl : before.isDirAt l = true) :
    after.isDirAt l = true := by
  rw [isDirAt_iff] at hl ⊢
  obtain ⟨m, hm⟩ := hl
  exact ⟨m, h.dirs l m hm⟩

theorem walk (h : Grows before after) (parts : List Text) (start l : Location)
    (hw : before.walk start parts = .ok l) : after.walk start parts = .ok l := by
  induction parts generalizing start with
  | nil => exact hw
  | cons part rest ih =>
    rw [walk_cons_eq_ok_iff] at hw ⊢
    obtain ⟨hdir, hstep⟩ := hw
    refine ⟨h.isDirAt start hdir, ?_⟩
    by_cases hup : part = ".."
    · rw [if_pos hup] at hstep ⊢
      exact ih _ hstep
    · rw [if_neg hup] at hstep ⊢
      exact ⟨hstep.1, h.present _ hstep.2.1, ih _ hstep.2.2⟩

theorem find (h : Grows before after) (path : FilePath) (l : Location)
    (hf : before.find path = .ok l) : after.find path = .ok l := by
  rw [find_eq_ok_iff] at hf ⊢
  exact ⟨hf.1, h.walk _ _ _ hf.2⟩

theorem set (tree : FileTree) (l : Location) (e : FileEntry) (hl : l ≠ [])
    (hdir : tree.isDirAt l = false) : Grows tree (tree.set l e) where
  dirs l' m h := by
    have hne : l' ≠ l := by
      rintro rfl
      have htrue := (isDirAt_iff tree l').mpr ⟨m, h⟩
      simp [htrue] at hdir
    rw [get?_set _ _ _ _ hl, if_neg hne, h]
  present l' h := by
    rw [get?_set _ _ _ _ hl]
    by_cases hl' : l' = l
    · simp [hl']
    · simpa [hl'] using h

end Grows

theorem Names.grow {way : List Text} {name : Text} {directory : Location}
    (h : before.Names way name directory) (hg : Grows before after) :
    after.Names way name directory :=
  ⟨hg.walk _ _ _ h.way, hg.isDirAt _ h.dir, h.proper, h.short⟩

/-! ## Writing a file -/

/-- The file at the end of a path holds the given bytes, and all else is as it was. -/
structure Wrote (path : FilePath) (bytes : List UInt8) (before after : FileTree) (l : Location) :
    Prop where
  find : after.find path = .ok l
  file : ∃ m, after.get? l = some (.file m bytes)
  others : ∀ l', l' ≠ l → after.get? l' = before.get? l'
  notDir : before.isDirAt l = false

theorem Wrote.grows {path : FilePath} {bytes : List UInt8} {l : Location}
    (h : Wrote path bytes before after l) : Grows before after where
  dirs l' m hl' := by
    have hne : l' ≠ l := by
      rintro rfl
      have htrue := (isDirAt_iff before l').mpr ⟨m, hl'⟩
      exact Bool.false_ne_true (h.notDir.symm.trans htrue)
    rw [h.others l' hne, hl']
  present l' hl' := by
    by_cases hne : l' = l
    · obtain ⟨m, hm⟩ := h.file
      simp [hne, hm]
    · rw [h.others l' hne]
      exact hl'

theorem readFile_eq_ok_iff (tree : FileTree) (path : FilePath) (bytes : List UInt8) :
    tree.readFile path = .ok bytes ↔
      ∃ l m, tree.find path = .ok l ∧ tree.get? l = some (.file m bytes) := by
  rw [readFile]
  cases hfind : tree.find path with
  | error fault => simp [bind, Except.bind]
  | ok l =>
    simp only [bind, Except.bind]
    split
    · rename_i m present hentry
      simp [hentry, pure, Except.pure]
    · rename_i hentry
      constructor
      · intro h
        cases h
      · rintro ⟨l', m, hl, hm⟩
        obtain rfl := Except.ok.inj hl
        exact absurd hm (hentry m bytes)

private theorem wrote_set {path : FilePath} {way : List Text} {name written : Text}
    {directory : Location} (m : Nat) (bytes : List UInt8) (haccept : accept path = .ok written)
    (hparts : path.parts = way ++ [name]) (hnames : tree.Names way name directory)
    (hdir : tree.isDirAt (directory ++ [name]) = false) :
    Wrote path bytes tree (tree.set (directory ++ [name]) (.file m bytes))
      (directory ++ [name]) := by
  have hne : directory ++ [name] ≠ [] := by simp
  have hget : (tree.set (directory ++ [name]) (.file m bytes)).get? (directory ++ [name]) =
      some (.file m bytes) := by rw [get?_set _ _ _ _ hne, if_pos rfl]
  refine ⟨?_, ⟨m, hget⟩, ?_, hdir⟩
  · rw [find_eq_ok_iff, hparts]
    refine ⟨⟨written, haccept⟩, ?_⟩
    exact (hnames.grow (Grows.set tree _ _ hne hdir)).walk (by rw [hget]; rfl)
  · intro l' hl'
    rw [get?_set _ _ _ _ hne, if_neg hl']

/-- The permission bits of a file once it has been written: one that was there keeps its own. -/
def writtenMode [Host] (tree : FileTree) (mode : Nat) (l : Location) : Nat :=
  match tree.get? l with
  | some (.file present _) => present
  | _ => granted mode

theorem writeFile_eq_set [Host] (mode : Nat) (path : FilePath) (bytes : List UInt8)
    (h : tree.writeFile mode path bytes = .ok after) :
    ∃ written way name directory, accept path = .ok written ∧ path.parts = way ++ [name] ∧
      tree.Names way name directory ∧ tree.isDirAt (directory ++ [name]) = false ∧
      after = tree.set (directory ++ [name])
        (.file (tree.writtenMode mode (directory ++ [name])) bytes) := by
  rw [writeFile] at h
  cases haccept : accept path with
  | error fault => simp [haccept, bind, Except.bind] at h
  | ok written =>
    simp only [haccept, bind, Except.bind] at h
    split at h
    · cases h
    · cases h
    · rename_i l hplace
      obtain ⟨way, name, directory, hparts, rfl, hnames, hfree⟩ :=
        place_eq_ok _ _ l hplace rfl
      have hnone := get?_of_free hfree
      obtain rfl := Except.ok.inj h
      refine ⟨written, way, name, directory, rfl, hparts, hnames, ?_, ?_⟩
      · simp [isDirAt, hnone]
      · simp [writtenMode, hnone]
    · rename_i l hplace
      obtain ⟨way, name, directory, hparts, rfl, hnames, -⟩ := place_eq_ok _ _ l hplace rfl
      split at h
      · rename_i present old hentry
        obtain rfl := Except.ok.inj h
        refine ⟨written, way, name, directory, rfl, hparts, hnames, ?_, ?_⟩
        · simp [isDirAt, hentry, FileEntry.isDir]
        · simp [writtenMode, hentry]
      · cases h

theorem writeFile_eq_ok [Host] (mode : Nat) (path : FilePath) (bytes : List UInt8)
    (h : tree.writeFile mode path bytes = .ok after) : ∃ l, Wrote path bytes tree after l := by
  obtain ⟨written, way, name, directory, haccept, hparts, hnames, hdir, rfl⟩ :=
    writeFile_eq_set mode path bytes h
  exact ⟨_, wrote_set _ bytes haccept hparts hnames hdir⟩

/-- Permission bits and bytes of the file at a location. -/
def file? (tree : FileTree) (l : Location) : Option (Nat × List UInt8) :=
  match tree.get? l with
  | some (.file m bytes) => some (m, bytes)
  | _ => none

theorem Wrote.file?_eq {path : FilePath} {bytes : List UInt8} {l : Location}
    (h : Wrote path bytes before after l) (l' : Location) (hl : l' ≠ l) :
    after.file? l' = before.file? l' := by
  rw [file?, file?, h.others l' hl]

/-! ## Making directories -/

/-- Every entry is kept, and those that are new are directories that a part of the way leads to. -/
structure MadeDirs (way : List Text) (before after : FileTree) : Prop where
  kept : ∀ l e, before.get? l = some e → after.get? l = some e
  added : ∀ l e, after.get? l = some e → before.get? l = none →
    (∃ m, e = .dir m) ∧ ∃ n, after.walk [] (way.take n) = .ok l

namespace MadeDirs

theorem refl (way : List Text) (tree : FileTree) : MadeDirs way tree tree where
  kept _ _ h := h
  added l e h hnone := by simp [hnone] at h

theorem grows {way : List Text} (h : MadeDirs way before after) : Grows before after where
  dirs l m hl := h.kept l _ hl
  present l hl := by
    obtain ⟨e, he⟩ := Option.isSome_iff_exists.mp hl
    rw [h.kept l e he]
    rfl

theorem get?_cases {way : List Text} (h : MadeDirs way before after) (l : Location) :
    after.get? l = before.get? l ∨ before.get? l = none ∧ ∃ m, after.get? l = some (.dir m) := by
  cases hbefore : before.get? l with
  | some e => exact .inl (h.kept l e hbefore)
  | none =>
    cases hafter : after.get? l with
    | none => exact .inl rfl
    | some e =>
      obtain ⟨⟨m, rfl⟩, -⟩ := h.added l e hafter hbefore
      exact .inr ⟨rfl, m, rfl⟩

theorem file?_eq {way : List Text} (h : MadeDirs way before after) (l : Location) :
    after.file? l = before.file? l := by
  rw [file?, file?]
  rcases h.get?_cases l with heq | ⟨hnone, m, hdir⟩
  · rw [heq]
  · rw [hnone, hdir]

theorem trans {way : List Text} (h : MadeDirs way before mid) (h' : MadeDirs way mid after) :
    MadeDirs way before after where
  kept l e hl := h'.kept l e (h.kept l e hl)
  added l e hl hnone := by
    cases hmid : mid.get? l with
    | none => exact h'.added l e hl hmid
    | some f =>
      obtain rfl : f = e := Option.some.inj ((h'.kept l f hmid).symm.trans hl)
      obtain ⟨hdir, n, hn⟩ := h.added l f hmid hnone
      exact ⟨hdir, n, h'.grows.walk _ _ _ hn⟩

theorem of_dropLast {way : List Text} (h : MadeDirs way.dropLast before after) :
    MadeDirs way before after where
  kept := h.kept
  added l e hl hnone := by
    obtain ⟨hdir, n, hn⟩ := h.added l e hl hnone
    refine ⟨hdir, min n (way.length - 1), ?_⟩
    rw [← List.take_take, ← List.dropLast_eq_take]
    exact hn

end MadeDirs

theorem makeDir_eq_set [Host] (mode : Nat) (path : FilePath)
    (h : tree.makeDir mode path = .ok after) :
    ∃ way name directory, path.parts = way ++ [name] ∧ tree.Names way name directory ∧
      tree.get? (directory ++ [name]) = none ∧
      after = tree.set (directory ++ [name]) (.dir (granted mode)) := by
  rw [makeDir] at h
  cases haccept : accept path with
  | error fault => simp [haccept, bind, Except.bind] at h
  | ok written =>
    simp only [haccept, bind, Except.bind] at h
    split at h
    · cases h
    · rename_i l hplace
      obtain ⟨way, name, directory, hparts, rfl, hnames, hfree⟩ := place_eq_ok _ _ l hplace rfl
      exact ⟨way, name, directory, hparts, hnames, get?_of_free hfree, (Except.ok.inj h).symm⟩
    · cases h

theorem makeDir_eq_ok [Host] (mode : Nat) (path : FilePath)
    (h : tree.makeDir mode path = .ok after) :
    MadeDirs path.parts tree after := by
  obtain ⟨way, name, directory, hparts, hnames, hnone, rfl⟩ := makeDir_eq_set mode path h
  have hne : directory ++ [name] ≠ [] := by simp
  have hgrows := Grows.set tree (directory ++ [name]) (.dir (granted mode)) hne
    (by simp [isDirAt, hnone])
  constructor
  · intro l e hl
    have hl' : l ≠ directory ++ [name] := by
      rintro rfl
      simp [hnone] at hl
    rw [get?_set _ _ _ _ hne, if_neg hl', hl]
  · intro l e hl hfresh
    rw [get?_set _ _ _ _ hne] at hl
    by_cases hl' : l = directory ++ [name]
    · subst hl'
      rw [if_pos rfl] at hl
      obtain rfl := Option.some.inj hl
      refine ⟨⟨_, rfl⟩, path.parts.length, ?_⟩
      rw [List.take_length, hparts]
      refine (hnames.grow hgrows).walk ?_
      rw [get?_set _ _ _ _ hne, if_pos rfl]
      rfl
    · rw [if_neg hl', hfresh] at hl
      cases hl

theorem ensureLast_madeDirs [Host] (tree : FileTree) (mode : Nat) (path : FilePath) :
    MadeDirs path.parts tree (tree.ensureLast mode path).2 := by
  rw [ensureLast]
  split
  · rename_i changed h
    exact makeDir_eq_ok mode path h
  · exact .refl _ _
  · exact .refl _ _

theorem ensureWithin_madeDirs [Host] (room : Nat) (tree : FileTree) (mode : Nat) (path : FilePath) :
    MadeDirs path.parts tree (tree.ensureWithin room mode path).2 := by
  fun_induction ensureWithin room tree mode path with
  | case1 => exact .refl _ _
  | case2 _ _ mode path changed h => exact makeDir_eq_ok mode path h
  | case3 => exact .refl _ _
  | case4 _ _ mode path written habsent hparts fault changed hparent ih =>
    rw [hparent] at ih
    exact ih.of_dropLast
  -- The directories on the way have been made, and the last one is tried again.
  | case5 _ _ mode path written habsent hparts changed hparent ih =>
    rw [hparent] at ih
    exact ih.of_dropLast.trans (ensureLast_madeDirs changed mode path)
  | case6 => exact .refl _ _

/-- Whether or not it fails, making a directory with those on the way adds directories only. -/
theorem ensureDir_madeDirs [Host] (tree : FileTree) (mode : Nat) (path : FilePath) :
    MadeDirs path.parts tree (tree.ensureDir mode path).2 :=
  ensureWithin_madeDirs _ tree mode path

end ConversionCoverage.FileTree

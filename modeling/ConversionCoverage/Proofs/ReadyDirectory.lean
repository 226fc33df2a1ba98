import ConversionCoverage.Proofs.Export
import ConversionCoverage.Proofs.Halves

/-!
# Directories that are ready for reports

Once a directory has been made it is found again, and asking for it changes nothing. A report can be
written into it whatever the bytes are, if nothing but a file stands at the place of the report and
its path is not too long; and after that it still holds for the other reports.
-/

namespace ConversionCoverage

namespace Text

private theorem subset_join {t : Text} {ts : List Text} (separator : Text) (h : t ∈ ts) :
    t ⊆ join separator ts := by
  fun_induction join separator ts with
  | case1 => cases h
  | case2 u => rw [List.mem_singleton.mp h]; exact fun _ hc => hc
  | case3 u rest hrest ih =>
    intro c hc
    rcases List.mem_cons.mp h with rfl | h
    · exact List.mem_append_left _ (List.mem_append_left _ hc)
    · exact List.mem_append_right _ (ih h hc)

private theorem forall_mem_join {P : CodePoint → Prop} {separator : Text} {ts : List Text}
    (hseparator : ∀ c ∈ separator, P c) (h : ∀ t ∈ ts, ∀ c ∈ t, P c) :
    ∀ c ∈ join separator ts, P c := by
  fun_induction join separator ts with
  | case1 => simp
  | case2 t => exact h t List.mem_cons_self
  | case3 t rest hrest ih =>
    intro c hc
    rcases List.mem_append.mp hc with hc | hc
    · rcases List.mem_append.mp hc with hc | hc
      · exact h t List.mem_cons_self c hc
      · exact hseparator c hc
    · exact ih (fun u hu => h u (List.mem_cons_of_mem _ hu)) c hc

end Text

namespace FileTree

/-! ## Paths that a file system takes -/

/-- A code point that the path of a file can have. -/
def Usable (c : CodePoint) : Prop := isWritable c = true ∧ c ≠ .char '\x00'

theorem usable_ofString {s : String} (h : '\x00' ∉ s.toList) :
    ∀ c ∈ Text.ofString s, Usable c := by
  intro c hc
  obtain ⟨d, hd, rfl⟩ := List.mem_map.mp hc
  exact ⟨rfl, fun hzero => h (CodePoint.char.inj hzero ▸ hd)⟩

theorem encodingFault?_eq_none_iff (position : Nat) (t : Text) :
    encodingFault? position t = none ↔ ∀ c ∈ t, isWritable c = true := by
  fun_induction encodingFault? position t with
  | case1 => simp
  | case2 position c rest ih => simp [ih, isWritable]
  | case3 position h rest hbyte ih => simp [ih, isWritable, hbyte]
  | case4 position h rest hbyte => simp [isWritable, hbyte]

theorem forall_usable_iff (t : Text) : (∀ c ∈ t, Usable c) ↔
    (∀ c ∈ t, isWritable c = true) ∧ CodePoint.char '\x00' ∉ t := by
  constructor
  · intro h
    exact ⟨fun c hc => (h c hc).1, fun hzero => (h _ hzero).2 rfl⟩
  · rintro ⟨hwritable, hzero⟩ c hc
    exact ⟨hwritable c hc, fun h => hzero (h ▸ hc)⟩

theorem accept_of_usable {path : FilePath} (h : ∀ c ∈ path.toText, Usable c) :
    accept path = if maxPath < byteLength path.toText then
      .error (.refused .nameTooLong path.toText) else .ok path.toText := by
  obtain ⟨hwritable, hzero⟩ := (forall_usable_iff _).mp h
  simp [accept, (encodingFault?_eq_none_iff 0 _).mpr hwritable, hzero]

theorem accept_of_not_usable {path : FilePath} (h : ¬ ∀ c ∈ path.toText, Usable c) :
    accept path = .error .zeroByte ∨ ∃ fault, accept path = .error (.unencodable fault) := by
  cases hfault : encodingFault? 0 path.toText with
  | some fault => exact .inr ⟨fault, by simp [accept, hfault]⟩
  | none =>
    have hzero : CodePoint.char '\x00' ∈ path.toText := by
      rw [forall_usable_iff] at h
      by_contra hzero
      exact h ⟨(encodingFault?_eq_none_iff 0 _).mp hfault, hzero⟩
    exact .inl (by simp [accept, hfault, hzero])

theorem accept_eq_ok_iff (path : FilePath) : (∃ written, accept path = .ok written) ↔
    (∀ c ∈ path.toText, Usable c) ∧ byteLength path.toText ≤ maxPath := by
  by_cases h : ∀ c ∈ path.toText, Usable c
  · rw [accept_of_usable h, and_iff_right h]
    by_cases hlong : maxPath < byteLength path.toText
    · simp [hlong]
    · simp [hlong, Nat.le_of_not_lt hlong]
  · rcases accept_of_not_usable h with hzero | ⟨fault, hfault⟩
    · simp [hzero, h]
    · simp [hfault, h]

/-- A path can be used if its parts can: the slashes and the dot around them always can. -/
theorem usable_toText_iff (path : FilePath) :
    (∀ c ∈ path.toText, Usable c) ↔ ∀ part ∈ path.parts, ∀ c ∈ part, Usable c := by
  have hslash : ∀ c ∈ ("/" : Text), Usable c := usable_ofString (by decide)
  rw [FilePath.toText]
  split
  · rename_i hempty
    rw [hempty.2]
    exact iff_of_true (usable_ofString (by decide)) nofun
  · constructor
    · intro h part hpart c hc
      exact h c (List.mem_append_right _ (Text.subset_join _ hpart hc))
    · intro hparts c hc
      rcases List.mem_append.mp hc with hc | hc
      · obtain ⟨t, ht, hmem⟩ := List.mem_flatten.mp hc
        obtain rfl := List.eq_of_mem_replicate ht
        exact hslash c hmem
      · exact Text.forall_mem_join hslash hparts c hc

theorem byteLength_eq_sum (t : Text) : byteLength t = (t.map byteLength.width).sum := by
  rw [List.sum_eq_foldl_nat, List.foldl_map, byteLength]

theorem byteLength_append (t u : Text) : byteLength (t ++ u) = byteLength t + byteLength u := by
  rw [byteLength_eq_sum, List.map_append, List.sum_append, ← byteLength_eq_sum, ← byteLength_eq_sum]

theorem accept_file {path : FilePath} {name : Text} (hname : ∀ c ∈ name, Usable c)
    (haccept : ∃ written, accept path = .ok written)
    (hshort : byteLength (FilePath.toText ⟨path.slashes, path.parts ++ [name]⟩) ≤ maxPath) :
    ∃ written, accept ⟨path.slashes, path.parts ++ [name]⟩ = .ok written := by
  rw [accept_eq_ok_iff, usable_toText_iff] at haccept ⊢
  refine ⟨?_, hshort⟩
  intro part hpart
  rcases List.mem_append.mp hpart with hpart | hpart
  · exact haccept.1 part hpart
  · obtain rfl := List.mem_singleton.mp hpart
    exact hname

/-! ## Directories that are there -/

/-- A path leads to a directory. -/
structure Reaches (tree : FileTree) (path : FilePath) (l : Location) : Prop where
  find : tree.find path = .ok l
  dir : tree.isDirAt l = true

variable {tree after : FileTree} {path : FilePath} {l : Location}

theorem Reaches.walk (h : tree.Reaches path l) : tree.walk [] path.parts = .ok l :=
  ((find_eq_ok_iff _ _ _).mp h.find).2

theorem Reaches.grow (h : tree.Reaches path l) (hg : Grows tree after) : after.Reaches path l :=
  ⟨hg.find _ _ h.find, hg.isDirAt _ h.dir⟩

variable [Host]

theorem Reaches.makeDir (h : tree.Reaches path l) (mode : Nat) :
    ∃ written, tree.makeDir mode path = .error (.refused .present written) := by
  obtain ⟨⟨written, haccept⟩, hwalk⟩ := (find_eq_ok_iff _ _ _).mp h.find
  refine ⟨written, ?_⟩
  rw [FileTree.makeDir, haccept]
  simp only [bind, Except.bind]
  rcases List.eq_nil_or_concat path.parts with hparts | ⟨way, name, hparts⟩
  · rw [hparts]
    rfl
  · rw [hparts, List.concat_eq_append] at hwalk ⊢
    obtain ⟨directory, hway, hlast⟩ := (walk_append_eq_ok_iff _ _ _ _ _).mp hwalk
    rw [walk_cons_eq_ok_iff] at hlast
    obtain ⟨hdir, hlast⟩ := hlast
    simp only [place_concat, hway]
    by_cases hup : name = ".."
    · simp [hdir, hup]
      rfl
    · rw [if_neg hup] at hlast
      simp [hdir, hup, hlast.1, hlast.2.1]
      rfl

theorem exists_ensureWithin : ∃ room, ∀ (tree : FileTree) (mode : Nat) (path : FilePath),
    tree.ensureDir mode path = tree.ensureWithin (room + 16) mode path := by
  obtain ⟨room, hroom⟩ := Host.exists_room .directories
  exact ⟨room, fun tree mode path => by rw [FileTree.ensureDir, hroom]⟩

theorem Reaches.ensureDir (h : tree.Reaches path l) (mode : Nat) :
    tree.ensureDir mode path = (.ok (), tree) := by
  obtain ⟨room, hroom⟩ := exists_ensureWithin
  obtain ⟨written, hmake⟩ := h.makeDir mode
  have hentry : tree.status path = .ok (tree.get? l) := by rw [status, h.find]
  have hdir : (tree.get? l).any FileEntry.isDir = true := h.dir
  rw [hroom, ensureWithin, hmake]
  simp [unlessDir, hentry, hdir]

theorem reaches_of_makeDir {mode : Nat} (h : tree.makeDir mode path = .ok after) :
    ∃ l, after.Reaches path l := by
  obtain ⟨way, name, directory, hparts, hnames, hnone, hset⟩ := makeDir_eq_set mode path h
  have haccept : ∃ written, accept path = .ok written := by
    cases haccept : accept path with
    | error fault => simp [FileTree.makeDir, haccept, bind, Except.bind] at h
    | ok written => exact ⟨written, rfl⟩
  have hne : directory ++ [name] ≠ [] := by simp
  have hget : after.get? (directory ++ [name]) = some (.dir (granted mode)) := by
    rw [hset, get?_set _ _ _ _ hne, if_pos rfl]
  have hgrows : Grows tree after := hset ▸ Grows.set tree _ _ hne (by simp [isDirAt, hnone])
  refine ⟨directory ++ [name], (find_eq_ok_iff _ _ _).mpr ⟨haccept, ?_⟩, ?_⟩
  · rw [hparts]
    exact (hnames.grow hgrows).walk (by rw [hget]; rfl)
  · exact (isDirAt_iff _ _).mpr ⟨_, hget⟩

omit [Host] in
theorem reaches_of_unlessDir {fault : FileFault} (h : tree.unlessDir path fault = .ok ()) :
    ∃ l, tree.Reaches path l := by
  unfold unlessDir at h
  split at h
  · split at h
    · rename_i found hentry
      split at h
      · rename_i hdir
        obtain ⟨e, he, hisDir⟩ := (Option.any_eq_true ..).mp hdir
        unfold status at hentry
        split at hentry
        · rename_i l hfind
          refine ⟨l, hfind, ?_⟩
          rw [isDirAt, Except.ok.inj hentry, he]
          exact hisDir
        · split at hentry <;> cases hentry
          simp at he
        · cases hentry
          simp at he
      · cases h
    · cases h
  · cases h

private theorem reaches_of_ensureLast {mode : Nat}
    (h : tree.ensureLast mode path = (.ok (), after)) :
    ∃ l, after.Reaches path l := by
  unfold ensureLast at h
  split at h
  · rename_i changed hmake
    cases h
    exact reaches_of_makeDir hmake
  · cases h
  · obtain ⟨hunless, rfl⟩ := Prod.mk.inj h
    exact reaches_of_unlessDir hunless

theorem reaches_of_ensureDir {mode : Nat} (h : tree.ensureDir mode path = (.ok (), after)) :
    ∃ l, after.Reaches path l := by
  obtain ⟨room, hroom⟩ := exists_ensureWithin
  rw [hroom, ensureWithin] at h
  split at h
  · rename_i changed hmake
    cases h
    exact reaches_of_makeDir hmake
  · split at h
    · cases h
    · split at h
      · cases h
      · exact reaches_of_ensureLast h
  · obtain ⟨hunless, rfl⟩ := Prod.mk.inj h
    exact reaches_of_unlessDir hunless

theorem ensureWithin_of_absent {room mode : Nat} {written : Text} {changed : FileTree}
    (habsent : tree.makeDir mode path = .error (.refused .absent written))
    (hparts : path.parts ≠ [])
    (hparent : tree.ensureWithin room usualDirMode path.parent = (.ok (), changed)) :
    tree.ensureWithin (room + 1) mode path = changed.ensureLast mode path := by
  rw [ensureWithin, habsent]
  simp only [hparts, if_false, hparent]

private theorem writeFile_of_names {way : List Text} {name : Text} {directory : Location}
    (haccept : ∃ written, accept path = .ok written) (hparts : path.parts = way ++ [name])
    (hnames : tree.Names way name directory) (hdir : tree.isDirAt (directory ++ [name]) = false)
    (mode : Nat) (bytes : List UInt8) : ∃ m, tree.writeFile mode path bytes =
      .ok (tree.set (directory ++ [name]) (.file m bytes)) := by
  obtain ⟨written, haccept⟩ := haccept
  have hplace : tree.place path.parts = .ok (if (tree.get? (directory ++ [name])).isSome then
      .taken (directory ++ [name]) else .free (directory ++ [name])) := by
    simp [hparts, place_concat, hnames.way, hnames.dir, hnames.proper, hnames.short]
  rw [writeFile, haccept]
  simp only [bind, Except.bind, hplace]
  cases hentry : tree.get? (directory ++ [name]) with
  | none => exact ⟨granted mode, rfl⟩
  | some e =>
    cases e with
    | dir m => simp [isDirAt, hentry, FileEntry.isDir] at hdir
    | file m old => exact ⟨m, by simp [hentry]; rfl⟩

end FileTree

namespace Export

/-- The directory of an export is there, and each report can be written into it. -/
structure Ready (directory : FilePath) (l : Location) (tree : FileTree) : Prop where
  reaches : tree.Reaches directory l
  accepted : ∀ kind, ∃ written, FileTree.accept (target directory kind) = .ok written
  vacant : ∀ kind : Report, tree.isDirAt (l ++ [kind.fileName]) = false

theorem usable_fileName (kind : Report) : ∀ c ∈ kind.fileName, FileTree.Usable c := by
  cases kind <;> exact FileTree.usable_ofString (by decide)

theorem names_fileName {tree : FileTree} {directory : FilePath} {l : Location}
    (h : tree.Reaches directory l) (kind : Report) :
    tree.Names directory.parts kind.fileName l where
  way := h.walk
  dir := h.dir
  proper := fileName_ne_up kind
  short := by cases kind <;> decide

theorem ready_of_reaches {tree : FileTree} {directory : FilePath} {l : Location}
    (h : tree.Reaches directory l)
    (hvacant : ∀ kind l, tree.find (target directory kind) = .ok l → tree.isDirAt l = false)
    (hshort : ∀ kind,
      FileTree.byteLength (target directory kind).toText ≤ FileTree.maxPath) :
    Ready directory l tree := by
  have haccepted (kind : Report) :
      ∃ written, FileTree.accept (target directory kind) = .ok written := by
    have hkind := hshort kind
    rw [target_eq] at hkind ⊢
    exact FileTree.accept_file (usable_fileName kind)
      ((FileTree.find_eq_ok_iff _ _ _).mp h.find).1 hkind
  refine ⟨h, haccepted, fun kind => ?_⟩
  cases hdir : tree.isDirAt (l ++ [kind.fileName]) with
  | false => rfl
  | true =>
    obtain ⟨m, hm⟩ := (FileTree.isDirAt_iff _ _).mp hdir
    have hwalk := (names_fileName h kind).walk (by rw [hm]; rfl)
    have hfind : tree.find (target directory kind) = .ok (l ++ [kind.fileName]) := by
      rw [FileTree.find_eq_ok_iff, parts_target]
      exact ⟨haccepted kind, hwalk⟩
    exact hdir.symm.trans (hvacant kind _ hfind)

namespace Ready

variable {directory : FilePath} {l : Location} {tree : FileTree} (h : Ready directory l tree)
include h

variable [Host]

/-- A report can be written, and after that the others can. -/
theorem write (mode : Nat) (kind : Report) (bytes : List UInt8) :
    ∃ after, tree.writeFile mode (target directory kind) bytes = .ok after ∧
      Ready directory l after := by
  have hnames := names_fileName h.reaches kind
  have hne : l ++ [kind.fileName] ≠ [] := by simp
  obtain ⟨m, hwrite⟩ := FileTree.writeFile_of_names (h.accepted kind) (parts_target directory kind)
    hnames (h.vacant kind) mode bytes
  have hgrows : FileTree.Grows tree (tree.set (l ++ [kind.fileName]) (.file m bytes)) :=
    .set tree _ _ hne (h.vacant kind)
  refine ⟨_, hwrite, h.reaches.grow hgrows, h.accepted, fun other => ?_⟩
  rw [FileTree.isDirAt, FileTree.get?_set _ _ _ _ hne]
  split
  · rfl
  · exact h.vacant other

/-- In a directory that has been made only what cannot be encoded keeps a report from being
written. -/
theorem outcome_eq {before : FileTree} (s : Settings)
    (hensure : before.ensureDir s.dirMode directory = (.ok (), tree)) (kind : Report)
    (content : Text) :
    (∃ fault, content.HasHalf ∧ outcome s directory (target directory kind) content before =
      (.error (.failed .serialization (target directory kind) (.encoding fault)), tree)) ∨
    ∃ after, ¬ content.HasHalf ∧ Ready directory l after ∧
      outcome s directory (target directory kind) content before = (.ok (), after) := by
  by_cases hhalf : content.HasHalf
  · left
    obtain ⟨fault, hencode⟩ := Utf8.exists_encode_eq_error hhalf
    exact ⟨fault, hhalf, by simp only [outcome, hensure, hencode]⟩
  · right
    obtain ⟨bytes, hencode⟩ := Utf8.exists_encode_eq_ok hhalf
    obtain ⟨after, hwrite, hafter⟩ := h.write s.fileMode kind bytes
    exact ⟨after, hhalf, hafter, by simp only [outcome, hensure, hencode, hwrite]⟩

end Ready

end Export

end ConversionCoverage

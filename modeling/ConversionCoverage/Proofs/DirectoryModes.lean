import ConversionCoverage.Proofs.ReadyDirectory

/-!
# Which permission bits new directories get

The permission bits that are asked for are those of the last directory of a path. All others that are
made on the way to it get the usual ones, and there are such if and only if the way was not there.
-/

namespace ConversionCoverage

namespace FileTree

variable {tree before mid after : FileTree} {path : FilePath}

/-! ## Ways that lead somewhere -/

private theorem isSome_take_of_walk {start l : Location} {parts : List Text}
    (hstart : ∀ n, (tree.get? (start.take n)).isSome) (h : tree.walk start parts = .ok l)
    (n : Nat) :
    (tree.get? (l.take n)).isSome := by
  -- Each entry on the way down has been met, so that one may turn back to it.
  induction parts generalizing start n with
  | nil =>
    obtain rfl := Except.ok.inj h
    exact hstart n
  | cons part rest ih =>
    rw [walk_cons_eq_ok_iff] at h
    obtain ⟨-, h⟩ := h
    by_cases hup : part = ".."
    · rw [if_pos hup] at h
      apply ih _ h
      intro k
      rw [List.dropLast_eq_take, List.take_take]
      exact hstart _
    · rw [if_neg hup] at h
      apply ih _ h.2.2
      intro k
      rcases Nat.lt_or_ge start.length k with hk | hk
      · rw [List.take_of_length_le (by rw [List.length_append]; exact hk)]
        exact h.2.1
      · rw [List.take_append_of_le_length hk]
        exact hstart k

theorem isSome_of_walk {l : Location} {parts : List Text} (h : tree.walk [] parts = .ok l) :
    (tree.get? l).isSome := by
  have hl := isSome_take_of_walk (by simp [get?]) h l.length
  rwa [List.take_length] at hl

theorem exists_walk_take {start l : Location} {parts : List Text}
    (h : tree.walk start parts = .ok l)
    (n : Nat) : ∃ mid, tree.walk start (parts.take n) = .ok mid := by
  rw [← List.take_append_drop n parts, walk_append_eq_ok_iff] at h
  obtain ⟨mid, hfirst, -⟩ := h
  exact ⟨mid, hfirst⟩

theorem take_dropLast {parts : List Text} {n : Nat} (h : n < parts.length) :
    parts.dropLast.take n = parts.take n := by
  rw [List.dropLast_eq_take, List.take_take, Nat.min_eq_left (by omega)]

/-- A part of a path, and not the whole path, leads to a location. -/
def OnTheWay (tree : FileTree) (path : FilePath) (l : Location) : Prop :=
  ∃ n < path.parts.length, tree.walk [] (path.parts.take n) = .ok l

theorem OnTheWay.grow {l : Location} (h : before.OnTheWay path l) (hg : Grows before after) :
    after.OnTheWay path l := by
  obtain ⟨n, hn, hwalk⟩ := h
  exact ⟨n, hn, hg.walk _ _ _ hwalk⟩

theorem OnTheWay.of_grow {l d : Location} (hreaches : before.Reaches path d)
    (hg : Grows before after) (h : after.OnTheWay path l) : before.OnTheWay path l := by
  obtain ⟨n, hn, hwalk⟩ := h
  obtain ⟨l', hfirst⟩ := exists_walk_take hreaches.walk n
  rw [hg.walk _ _ _ hfirst] at hwalk
  obtain rfl := Except.ok.inj hwalk
  exact ⟨n, hn, hfirst⟩

theorem not_onTheWay_of_walk {l d : Location} (hway : before.walk [] path.parts.dropLast = .ok d)
    (hg : Grows before after) (hl : before.get? l = none) : ¬ after.OnTheWay path l := by
  rintro ⟨n, hn, hwalk⟩
  obtain ⟨l', hfirst⟩ := exists_walk_take hway n
  have hsome := isSome_of_walk hfirst
  have hafter := hg.walk _ _ _ hfirst
  rw [← take_dropLast hn, hafter] at hwalk
  obtain rfl := Except.ok.inj hwalk
  simp [hl] at hsome

namespace MadeDirs

private theorem isDirAt_of_isSome {way : List Text} (h : MadeDirs way before after) {l : Location}
    (hl : (before.get? l).isSome) (hdir : after.isDirAt l = true) : before.isDirAt l = true := by
  obtain ⟨e, he⟩ := Option.isSome_iff_exists.mp hl
  rw [isDirAt, he]
  rwa [isDirAt, h.kept l e he] at hdir

private theorem walk_one {way : List Text} (h : MadeDirs way before after) {start l : Location}
    {part : Text} (hwalk : after.walk start [part] = .ok l) (hstart : (before.get? start).isSome)
    (hl : (before.get? l).isSome) : before.walk start [part] = .ok l := by
  rw [walk_cons_eq_ok_iff] at hwalk ⊢
  obtain ⟨hdir, hstep⟩ := hwalk
  refine ⟨h.isDirAt_of_isSome hstart hdir, ?_⟩
  by_cases hup : part = ".."
  · rw [if_pos hup] at hstep ⊢
    exact hstep
  · rw [if_neg hup] at hstep ⊢
    obtain rfl := Except.ok.inj hstep.2.2
    exact ⟨hstep.1, hl, rfl⟩

/-- A way that can be gone after directories have been made could be gone before, or it leads to one
of these. -/
theorem walk_or_new {way : List Text} (h : MadeDirs way before after) {start l : Location}
    {parts : List Text} (hwalk : after.walk start parts = .ok l)
    (hstart : (before.get? start).isSome) :
    before.walk start parts = .ok l ∨ ∃ n ≤ parts.length, ∃ l',
      after.walk start (parts.take n) = .ok l' ∧ before.get? l' = none := by
  induction parts generalizing start with
  | nil => exact .inl hwalk
  | cons part rest ih =>
    obtain ⟨mid, hfirst, hrest⟩ := (walk_append_eq_ok_iff _ _ _ [part] rest).mp hwalk
    cases hmid : before.get? mid with
    | none => exact .inr ⟨1, by simp, mid, hfirst, hmid⟩
    | some e =>
      have hsome : (before.get? mid).isSome := by simp [hmid]
      rcases ih hrest hsome with hbefore | ⟨n, hn, l', hl', hnone⟩
      · left
        have hone := h.walk_one hfirst hstart hsome
        exact (walk_append_eq_ok_iff _ _ _ [part] rest).mpr ⟨mid, hone, hbefore⟩
      · right
        have hway := (walk_append_eq_ok_iff _ _ _ [part] (rest.take n)).mpr ⟨mid, hfirst, hl'⟩
        exact ⟨n + 1, Nat.succ_le_succ hn, l', hway, hnone⟩

variable [Host]

theorem writtenMode_eq {way : List Text} (h : MadeDirs way before after) (mode : Nat)
    (l : Location) :
    after.writtenMode mode l = before.writtenMode mode l := by
  rw [writtenMode, writtenMode]
  rcases h.get?_cases l with heq | ⟨hnone, m, hdir⟩
  · rw [heq]
  · rw [hnone, hdir]

end MadeDirs

/-! ## New directories -/

variable [Host]

/-- A new directory on the way to the one that was asked for has the usual permission bits, and the
one that was asked for has those that were asked for. -/
def ModesOfNew (mode : Nat) (path : FilePath) (before after : FileTree) : Prop :=
  ∀ l m, after.get? l = some (.dir m) → before.get? l = none →
    after.OnTheWay path l ∧ m = granted usualDirMode ∨
      ¬ after.OnTheWay path l ∧ m = granted mode

theorem ModesOfNew.refl (mode : Nat) (path : FilePath) (tree : FileTree) :
    ModesOfNew mode path tree tree := by
  intro l m hl hnone
  simp [hnone] at hl

theorem modesOfNew_of_makeDir {mode : Nat} (h : tree.makeDir mode path = .ok after) :
    ModesOfNew mode path tree after := by
  have hgrows := (makeDir_eq_ok mode path h).grows
  obtain ⟨way, name, directory, hparts, hnames, hfree, hset⟩ := makeDir_eq_set mode path h
  intro l m hl hnone
  right
  constructor
  · apply not_onTheWay_of_walk (d := directory) _ hgrows hnone
    rw [hparts, List.dropLast_concat]
    exact hnames.way
  · rw [hset, get?_set _ _ _ _ (by simp)] at hl
    split at hl
    · cases hl
      rfl
    · simp [hnone] at hl

private theorem ensureLast_modesOfNew (tree : FileTree) (mode : Nat) (path : FilePath) :
    ModesOfNew mode path tree (tree.ensureLast mode path).2 := by
  rw [ensureLast]
  split
  · rename_i changed h
    exact modesOfNew_of_makeDir h
  · exact .refl _ _ _
  · exact .refl _ _ _

/-- What is made with the parent of a path is on the way, and has the usual bits. -/
theorem ModesOfNew.onTheWay (hparts : path.parts ≠ [])
    (h : ModesOfNew usualDirMode path.parent before mid)
    (hmade : MadeDirs path.parent.parts before mid) {l : Location} {m : Nat}
    (hl : mid.get? l = some (.dir m)) (hnone : before.get? l = none) :
    mid.OnTheWay path l ∧ m = granted usualDirMode := by
  obtain ⟨-, n, hwalk⟩ := hmade.added l _ hl hnone
  have hlength : 0 < path.parts.length := List.length_pos_iff.mpr hparts
  constructor
  · refine ⟨min n (path.parts.length - 1), by omega, ?_⟩
    rw [← List.take_take, ← List.dropLast_eq_take]
    exact hwalk
  · rcases h l m hl hnone with ⟨-, hm⟩ | ⟨-, hm⟩
    · exact hm
    · exact hm

private theorem ensureWithin_modesOfNew (room : Nat) (tree : FileTree) (mode : Nat)
    (path : FilePath) :
    ModesOfNew mode path tree (tree.ensureWithin room mode path).2 := by
  fun_induction ensureWithin room tree mode path with
  | case1 => exact .refl _ _ _
  | case2 _ _ mode path changed h => exact modesOfNew_of_makeDir h
  | case3 => exact .refl _ _ _
  | case4 room tree mode path written habsent hparts fault changed hparent ih =>
    have hmade := ensureWithin_madeDirs room tree usualDirMode path.parent
    rw [hparent] at ih hmade
    intro l m hl hnone
    exact .inl (ih.onTheWay hparts hmade hl hnone)
  | case5 room tree mode path written habsent hparts changed hparent ih =>
    have hmade := ensureWithin_madeDirs room tree usualDirMode path.parent
    have hlast := changed.ensureLast_madeDirs mode path
    rw [hparent] at ih hmade
    intro l m hl hnone
    cases hchanged : changed.get? l with
    | none => exact ensureLast_modesOfNew changed mode path l m hl hchanged
    | some e =>
      obtain rfl : e = .dir m := Option.some.inj ((hlast.kept l e hchanged).symm.trans hl)
      obtain ⟨hway, hm⟩ := ih.onTheWay hparts hmade hchanged hnone
      exact .inl ⟨hway.grow hlast.grows, hm⟩
  | case6 => exact .refl _ _ _

theorem ensureDir_modesOfNew (tree : FileTree) (mode : Nat) (path : FilePath) :
    ModesOfNew mode path tree (tree.ensureDir mode path).2 :=
  ensureWithin_modesOfNew _ tree mode path

omit [Host] in
theorem exists_new_onTheWay (hmade : MadeDirs path.parts before after) {l : Location}
    (hreaches : after.Reaches path l) (hway : ∀ d, before.walk [] path.parts.dropLast ≠ .ok d) :
    ∃ l m, after.get? l = some (.dir m) ∧ before.get? l = none ∧ after.OnTheWay path l := by
  have hne : path.parts ≠ [] := by
    intro h
    exact hway [] (by rw [h]; rfl)
  have hlength : 0 < path.parts.length := List.length_pos_iff.mpr hne
  obtain ⟨d, hfirst⟩ := exists_walk_take hreaches.walk (path.parts.length - 1)
  rw [← List.dropLast_eq_take] at hfirst
  rcases hmade.walk_or_new hfirst (by simp [get?]) with hbefore | ⟨n, hn, l', hl', hnone⟩
  · exact absurd hbefore (hway d)
  · obtain ⟨e, he⟩ := Option.isSome_iff_exists.mp (isSome_of_walk hl')
    obtain ⟨⟨m, rfl⟩, -⟩ := hmade.added l' e he hnone
    rw [List.length_dropLast] at hn
    have hlt : n < path.parts.length := by omega
    rw [take_dropLast hlt] at hl'
    exact ⟨l', m, he, hnone, n, hlt, hl'⟩

end FileTree

end ConversionCoverage

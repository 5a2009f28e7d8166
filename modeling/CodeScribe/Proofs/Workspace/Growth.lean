import CodeScribe.Workspace.Disk

/-!
# Disks on which things are put down

Writing files and making folders takes nothing away: what was a folder stays one, what was a file
stays one, and paths lead where they led before.

* `Disk.Grows.place?`, `Disk.Grows.isFolder`, `Disk.Grows.isThere` — what a path names stays there.
-/

namespace CodeScribe.Disk

variable {path : String} {c : Content}

/-- Folders stay folders and files stay files. -/
structure Grows (d e : Disk) : Prop where
  home : e.home = d.home
  folders : ∀ p, d.hasFolder p = true → e.hasFolder p = true
  files : ∀ p, d.hasFile p = true → e.hasFile p = true

theorem Grows.refl (d : Disk) : d.Grows d := ⟨rfl, fun _ h => h, fun _ h => h⟩

theorem Grows.trans {d e f : Disk} (h : d.Grows e) (h' : e.Grows f) : d.Grows f where
  home := h'.home.trans h.home
  folders p hp := h'.folders p (h.folders p hp)
  files p hp := h'.files p (h.files p hp)

/-! ### Putting an entry at a place -/

variable {d e : Disk} {p q : Place} {x : Entry}

theorem lookup_map_put (h : q ≠ p) (entries : List (Place × Entry)) :
    (entries.map fun y => if y.1 == p then (p, x) else y).lookup q = entries.lookup q := by
  induction entries with
  | nil => rfl
  | cons y rest ih =>
    obtain ⟨r, y⟩ := y
    rw [List.map_cons, List.lookup_cons, List.lookup_cons, ih]
    by_cases hr : r = p
    · subst hr
      rw [if_pos (beq_self_eq_true r), beq_false_of_ne h]
    · rw [if_neg (by simpa using hr)]

theorem lookup_map_put_self {entries : List (Place × Entry)}
    (h : entries.any (·.1 == p) = true) :
    (entries.map fun y => if y.1 == p then (p, x) else y).lookup p = some x := by
  induction entries with
  | nil => cases h
  | cons y rest ih =>
    obtain ⟨r, y⟩ := y
    rw [List.map_cons]
    by_cases hr : r = p
    · subst hr
      rw [if_pos (beq_self_eq_true r), List.lookup_cons, beq_self_eq_true]
    · have hrest : rest.any (·.1 == p) = true := by
        rwa [List.any_cons, beq_false_of_ne hr, Bool.false_or] at h
      rw [if_neg (by simpa using hr), List.lookup_cons, beq_false_of_ne (Ne.symm hr)]
      exact ih hrest

theorem lookup_of_not_any {entries : List (Place × Entry)}
    (h : ¬ entries.any (·.1 == p) = true) : entries.lookup p = none := by
  rw [List.lookup_eq_none_iff]
  intro y hy
  simp only [List.any_eq_true, not_exists, not_and] at h
  have hyp : ¬ y.1 = p := fun heq => h y hy (beq_iff_eq.mpr heq)
  exact bne_iff_ne.mpr (Ne.symm hyp)

theorem entry?_put_self : Disk.entry? (d.put p x) p = some x := by
  rw [ entry?, put]
  dsimp only
  split
  · rename_i h
    exact lookup_map_put_self h
  · rename_i h
    rw [List.lookup_append, lookup_of_not_any h]
    simp

theorem entry?_put_of_ne (h : q ≠ p) : Disk.entry? (d.put p x) q = d.entry? q := by
  rw [ entry?, put]
  dsimp only
  split
  · exact lookup_map_put h d.entries
  · have hqp : (q == p) = false := by simpa using h
    rw [List.lookup_append, List.lookup_cons, hqp]
    simp [ entry?]

/-- The places at which something stands are kept. -/
theorem any_put (f : Place → Bool) (h : d.entries.any (fun y => f y.1) = true) :
    (d.put p x).entries.any (fun y => f y.1) = true := by
  rw [put]
  dsimp only
  split
  · rw [List.any_eq_true] at h ⊢
    obtain ⟨y, hy, hfy⟩ := h
    refine ⟨_, List.mem_map_of_mem hy, ?_⟩
    split
    · rename_i hyp
      rwa [beq_iff_eq.mp hyp] at hfy
    · exact hfy
  · rw [List.any_append, h, Bool.true_or]

theorem hasFolder_put (hp : x = .folder ∨ d.hasFolder p = false) (h : d.hasFolder q = true) :
    (d.put p x).hasFolder q = true := by
  by_cases hq : q = p
  · subst hq
    obtain rfl | hfalse := hp
    · simp [hasFolder, entry?_put_self]
    · rw [h] at hfalse
      cases hfalse
  · rw [hasFolder, entry?_put_of_ne hq]
    rw [hasFolder, Bool.or_eq_true] at h
    obtain h | h := h
    · rw [h, Bool.true_or]
    · rw [any_put (fun r => q.isPrefixOf r && q.length < r.length) h, Bool.or_true]

theorem hasFile_put (hp : (∃ c, x = .file c) ∨ d.hasFile p = false) (h : d.hasFile q = true) :
    (d.put p x).hasFile q = true := by
  by_cases hq : q = p
  · subst hq
    obtain ⟨c, rfl⟩ | hfalse := hp
    · simp [hasFile, entry?_put_self]
    · rw [h] at hfalse
      cases hfalse
  · rwa [hasFile, entry?_put_of_ne hq]

/-! ### Writing files and making folders -/

theorem write_cases (h : d.write path c = .ok e) :
    ∃ p, d.place? path = some p ∧ d.hasFolder p = false ∧ e = d.put p (.file c) := by
  rw [write] at h
  split at h
  · cases h
  · rename_i p hplace
    split at h
    · cases h
    · rename_i hfolder
      split at h
      · cases h
      · split at h
        · cases h
        · cases h
          exact ⟨p, hplace, by simpa using hfolder, rfl⟩

theorem makeFolders_cases (h : d.makeFolders path = .ok e) :
    ∃ p, d.place? path = some p ∧
      (d.hasFolder p = true ∧ e = d ∨ d.hasFile p = false ∧ e = d.put p .folder) := by
  rw [makeFolders] at h
  split at h
  · cases h
  · rename_i p hplace
    refine ⟨p, hplace, ?_⟩
    split at h
    · rename_i hfolder
      cases h
      exact .inl ⟨hfolder, rfl⟩
    · split at h
      · cases h
      · rename_i hfile
        split at h
        · cases h
        · cases h
          exact .inr ⟨by simpa using hfile, rfl⟩

theorem grows_write (h : d.write path c = .ok e) : d.Grows e := by
  obtain ⟨p, -, hfolder, rfl⟩ := write_cases h
  exact ⟨rfl, fun _ => hasFolder_put (.inr hfolder), fun _ => hasFile_put (.inl ⟨c, rfl⟩)⟩

theorem grows_makeFolders (h : d.makeFolders path = .ok e) : d.Grows e := by
  obtain ⟨p, -, ⟨-, rfl⟩ | ⟨hfile, rfl⟩⟩ := makeFolders_cases h
  · exact Grows.refl _
  · exact ⟨rfl, fun _ => hasFolder_put (.inl rfl), fun _ => hasFile_put (.inr hfile)⟩

/-! ### Paths on a disk that has grown -/

theorem Grows.follow (h : d.Grows e) {here : Place} {names : List String}
    (hp : d.follow here names = some p) : e.follow here names = some p := by
  induction names generalizing here with
  | nil => exact hp
  | cons name rest ih =>
    rw [Disk.follow] at hp ⊢
    split at hp
    · rename_i hname
      rw [if_pos hname]
      split at hp
      · cases hp
      · rename_i hback
        simp only [Bool.or_eq_true, Bool.not_eq_true', not_or, Bool.not_eq_true,
          Bool.not_eq_false] at hback
        rw [hback.1, h.folders here hback.2]
        exact ih hp
    · rename_i hname
      rw [if_neg hname]
      exact ih hp

theorem Grows.place? (h : d.Grows e) (hp : d.place? path = some p) : e.place? path = some p := by
  rw [Disk.place?] at hp ⊢
  rw [h.home]
  split at hp
  · rename_i rest hrest
    simpa only [hrest] using h.follow hp
  · rename_i hrest
    split at hp
    · rename_i hroot
      simpa only [hrest, hroot, if_true] using h.follow hp
    · cases hp

theorem isFolder_iff :
    d.isFolder path = true ↔ ∃ p, d.place? path = some p ∧ d.hasFolder p = true :=
  Option.any_eq_true _ _

theorem isFile_iff : d.isFile path = true ↔ ∃ p, d.place? path = some p ∧ d.hasFile p = true :=
  Option.any_eq_true _ _

theorem Grows.isFolder (h : d.Grows e) (hd : d.isFolder path = true) : e.isFolder path = true := by
  obtain ⟨p, hplace, hfolder⟩ := isFolder_iff.mp hd
  exact isFolder_iff.mpr ⟨p, h.place? hplace, h.folders p hfolder⟩

theorem Grows.isThere (h : d.Grows e) (hd : d.isThere path = true) : e.isThere path = true := by
  rw [Disk.isThere, Bool.or_eq_true] at hd ⊢
  obtain hfile | hfolder := hd
  · obtain ⟨p, hplace, hp⟩ := isFile_iff.mp hfile
    exact .inl (isFile_iff.mpr ⟨p, h.place? hplace, h.files p hp⟩)
  · exact .inr (h.isFolder hfolder)

theorem isFolder_of_makeFolders (h : d.makeFolders path = .ok e) : e.isFolder path = true := by
  have hgrows := grows_makeFolders h
  obtain ⟨p, hplace, ⟨hfolder, rfl⟩ | ⟨-, rfl⟩⟩ := makeFolders_cases h
  · exact isFolder_iff.mpr ⟨p, hplace, hfolder⟩
  · exact isFolder_iff.mpr ⟨p, hgrows.place? hplace, by simp [hasFolder, entry?_put_self]⟩

/-- A file that was written is there. -/
theorem isThere_of_write (h : d.write path c = .ok e) : e.isThere path = true := by
  have hgrows := grows_write h
  obtain ⟨p, hplace, -, rfl⟩ := write_cases h
  have hfile : (d.put p (.file c)).isFile path = true :=
    isFile_iff.mpr ⟨p, hgrows.place? hplace, by simp [hasFile, entry?_put_self]⟩
  rw [isThere, hfile, Bool.true_or]

/-! ### Writing a file again -/

theorem write_eq_ok_iff : d.write path c = .ok e ↔
    ∃ p, d.place? path = some p ∧ d.hasFolder p = false ∧ d.blocked p = false ∧
      d.hasFolder p.dropLast = true ∧ e = d.put p (.file c) := by
  rw [write]
  cases d.place? path with
  | none => simp
  | some p =>
    cases hfolder : d.hasFolder p with
    | true => simp [hfolder]
    | false =>
      cases hblocked : d.blocked p with
      | true => simp [hfolder, hblocked]
      | false =>
        cases hparent : d.hasFolder p.dropLast with
        | true => simpa [hfolder, hblocked, hparent] using eq_comm
        | false => simp [hfolder, hblocked, hparent]

theorem hasFolder_put_file (h : d.hasFolder p = false) :
    (d.put p (.file c)).hasFolder p = false := by
  rw [hasFolder, Bool.or_eq_false_iff, Bool.or_eq_false_iff] at h
  obtain ⟨⟨hempty, -⟩, hbelow⟩ := h
  rw [hasFolder, entry?_put_self, hempty]
  have hentries : (d.put p (.file c)).entries.any
      (fun y => p.isPrefixOf y.1 && decide (p.length < y.1.length)) = false := by
    rw [List.any_eq_false] at hbelow ⊢
    intro y hy
    rw [put] at hy
    dsimp only at hy
    split at hy
    · obtain ⟨z, hz, rfl⟩ := List.mem_map.mp hy
      split
      · simp
      · exact hbelow z hz
    · obtain hy | hy := List.mem_append.mp hy
      · exact hbelow y hy
      · obtain rfl := List.mem_singleton.mp hy
        simp
  rw [hentries]
  rfl

theorem blocked_put_file (h : d.blocked p = false) : (d.put p (.file c)).blocked p = false := by
  rw [blocked, List.any_eq_false] at h ⊢
  intro n hn
  have hne : p.take n ≠ p := by
    intro heq
    have hlength := congrArg List.length heq
    rw [List.length_take] at hlength
    have hlt := List.mem_range.mp hn
    omega
  rw [hasFile, entry?_put_of_ne hne]
  exact h n hn

/-- A text stands in a file that can be written again. -/
structure Stands (d : Disk) (path text : String) : Prop where
  read : d.read? path = some (.text text)
  free : ∃ e, d.write path (.text text) = .ok e

theorem stands_of_write {text : String} (h : d.write path (.text text) = .ok e) :
    e.Stands path text := by
  have hgrows := grows_write h
  obtain ⟨p, hplace, hfolder, hblocked, hparent, rfl⟩ := write_eq_ok_iff.mp h
  have hplace' := hgrows.place? hplace
  refine ⟨?_, _, write_eq_ok_iff.mpr ⟨p, hplace', hasFolder_put_file hfolder,
    blocked_put_file hblocked, hgrows.folders _ hparent, rfl⟩⟩
  simp [read?, hplace', entry?_put_self]

theorem Stands.write {text : String} (h : d.Stands path text) (other : String) :
    ∃ e, d.write path (.text other) = .ok e ∧ e.Stands path other := by
  obtain ⟨e, he⟩ := h.free
  obtain ⟨p, hplace, hfolder, hblocked, hparent, -⟩ := write_eq_ok_iff.mp he
  have hother : d.write path (.text other) = .ok (d.put p (.file (.text other))) :=
    write_eq_ok_iff.mpr ⟨p, hplace, hfolder, hblocked, hparent, rfl⟩
  exact ⟨_, hother, stands_of_write hother⟩

/-- A folder that is there is not made again. -/
theorem makeFolders_of_isFolder (h : d.isFolder path = true) : d.makeFolders path = .ok d := by
  obtain ⟨p, hplace, hfolder⟩ := isFolder_iff.mp h
  rw [makeFolders, hplace]
  exact if_pos hfolder

/-! ### Paths at which nothing changed -/

/-- Two disks on which a path names the same file, or a folder, or nothing. -/
structure SameAt (d e : Disk) (path : String) : Prop where
  read? : e.read? path = d.read? path
  isFolder : e.isFolder path = d.isFolder path

theorem isFile_eq (d : Disk) (path : String) : d.isFile path = (d.read? path).isSome := by
  rw [isFile, read?]
  cases d.place? path with
  | none => rfl
  | some p =>
    show d.hasFile p = _
    rw [hasFile]
    cases hentry : d.entry? p with
    | none => simp [hentry]
    | some x => cases x <;> simp [hentry]

theorem SameAt.isThere (h : d.SameAt e path) : e.isThere path = d.isThere path := by
  rw [Disk.isThere, Disk.isThere, isFile_eq, isFile_eq, h.read?, h.isFolder]

theorem SameAt.read (h : d.SameAt e path) : e.read path = d.read path := by
  rw [Disk.read, Disk.read, h.read?, h.isFolder]

end CodeScribe.Disk

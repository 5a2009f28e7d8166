import CodeScribe.Proofs.Path
import CodeScribe.Proofs.Workspace.Growth

/-!
# What stands below a place

A path made of names leads to one place, and what stands below that place changes only when
something is put or removed there.
-/

namespace CodeScribe

theorem Text.join_singleton (sep x : String) : join sep [x] = x := by
  simp [join]

/-! ### Paths made of names -/

namespace Path

/-- A name that leads from a folder to something in it. -/
structure IsName (x : String) : Prop where
  ne_empty : x ≠ ""
  ne_point : x ≠ "."
  ne_points : x ≠ ".."
  slash : '/' ∉ x.toList

instance (x : String) : Decidable (IsName x) :=
  decidable_of_iff (x ≠ "" ∧ x ≠ "." ∧ x ≠ ".." ∧ '/' ∉ x.toList)
    ⟨fun h => ⟨h.1, h.2.1, h.2.2.1, h.2.2.2⟩, fun h => ⟨h.1, h.2, h.3, h.4⟩⟩

variable {p q : List String}

theorem text_names (hne : p ≠ []) : text ⟨"", p⟩ = Text.join "/" p := by
  simp [text, hne]

theorem ofString_join (hp : ∀ x ∈ p, IsName x) (hne : p ≠ []) :
    ofString (Text.join "/" p) = ⟨"", p⟩ := by
  have hclean : Clean ⟨"", p⟩ :=
    ⟨.inl rfl, fun x hx => ⟨(hp x hx).ne_empty, (hp x hx).ne_point, (hp x hx).slash⟩⟩
  rw [← text_names hne, ofString_text hclean]

theorem ofString_name {x : String} (h : IsName x) : ofString x = ⟨"", [x]⟩ := by
  have hjoin := ofString_join (p := [x]) (by simpa using h) (by simp)
  rwa [Text.join_singleton] at hjoin

theorem normal_join (hp : ∀ x ∈ p, IsName x) (hne : p ≠ []) :
    normal (Text.join "/" p) = Text.join "/" p := by
  rw [normal, ofString_join hp hne, text_names hne]

theorem below_join (hp : ∀ x ∈ p, IsName x) (hpne : p ≠ []) (hq : ∀ x ∈ q, IsName x)
    (hqne : q ≠ []) :
    below (Text.join "/" p) (Text.join "/" q) = Text.join "/" (p ++ q) := by
  rw [below, ofString_join hp hpne, ofString_join hq hqne]
  exact text_names (by simp [hpne])

/-- A path text that leads from a folder to something in it. -/
structure IsInner (s : String) : Prop where
  root : (ofString s).root = ""
  ne_nil : (ofString s).parts ≠ []
  points : ".." ∉ (ofString s).parts

variable {s path : String}

theorem isName_of_mem_parts {x : String} (hpoints : ".." ∉ (ofString s).parts)
    (hx : x ∈ (ofString s).parts) : IsName x := by
  obtain ⟨hempty, hpoint, hslash⟩ := (clean_ofString s).part x hx
  exact ⟨hempty, hpoint, fun h => hpoints (h ▸ hx), hslash⟩

theorem IsInner.isName (h : IsInner s) : ∀ x ∈ (ofString s).parts, IsName x :=
  fun _ => isName_of_mem_parts h.points

theorem IsInner.ofString_eq (h : IsInner s) : ofString s = ⟨"", (ofString s).parts⟩ := by
  rw [← h.root]

theorem IsInner.ofString_below (h : IsInner s) (hpath : ofString path = ⟨"", p⟩)
    (hp : ∀ x ∈ p, IsName x) : ofString (below path s) = ⟨"", p ++ (ofString s).parts⟩ := by
  have hnames : ∀ x ∈ p ++ (ofString s).parts, IsName x := by
    intro x hx
    obtain hx | hx := List.mem_append.mp hx
    · exact hp x hx
    · exact h.isName x hx
  have hne : p ++ (ofString s).parts ≠ [] := by simp [h.ne_nil]
  have hbelow : below path s = Text.join "/" (p ++ (ofString s).parts) := by
    rw [below, hpath, append, h.root, if_pos (beq_self_eq_true _)]
    exact text_names hne
  rw [hbelow, ofString_join hnames hne]

end Path

namespace Disk

open CodeScribe.Path (IsName)

variable {d e : Disk} {p q r : Place} {x : Entry}

theorem follow_of_names {names : List String} (h : ∀ x ∈ names, IsName x) (here : Place) :
    d.follow here names = some (here ++ names) := by
  induction names generalizing here with
  | nil => simp [follow]
  | cons name rest ih =>
    have hname : (name == "..") = false := by simpa using (h name (by simp)).ne_points
    rw [follow, hname, if_neg Bool.false_ne_true, ih fun x hx => h x (by simp [hx])]
    simp

/-- The working folder has a path of its own. -/
def Rooted (d : Disk) : Prop := (Path.ofString d.home).root ≠ ""

instance (d : Disk) : Decidable d.Rooted :=
  inferInstanceAs (Decidable ((Path.ofString d.home).root ≠ ""))

theorem place?_of_names (hd : d.Rooted) {path : String} (hpath : Path.ofString path = ⟨"", p⟩)
    (hp : ∀ x ∈ p, IsName x) : d.place? path = some p := by
  have hroot : ("" == (Path.ofString d.home).root) = false := by
    simpa using Ne.symm hd
  simp [place?, hpath, Path.relativeTo?, hroot, follow_of_names hp]

/-! ### Entries below a place -/

def within (d : Disk) (p : Place) : List (Place × Entry) := d.entries.filter (p.isPrefixOf ·.1)

theorem lookup_filter (f : Place → Bool) (entries : List (Place × Entry)) (r : Place) :
    (entries.filter (f ·.1)).lookup r = if f r then entries.lookup r else none := by
  induction entries with
  | nil => simp
  | cons y rest ih =>
    obtain ⟨q, y⟩ := y
    rw [List.filter_cons, List.lookup_cons]
    by_cases hq : r = q
    · subst hq
      by_cases hf : f r = true
      · rw [if_pos hf, List.lookup_cons, beq_self_eq_true, if_pos hf]
      · rw [if_neg hf, ih, if_neg hf, if_neg hf]
    · have hne : (r == q) = false := by simpa using hq
      rw [hne]
      split
      · rw [List.lookup_cons, hne, ih]
      · exact ih

theorem entry?_within (hp : p.isPrefixOf r = true) : (d.within p).lookup r = d.entry? r := by
  rw [within, lookup_filter (p.isPrefixOf ·), if_pos hp, entry?]

/-- Two disks with the same entries below a place have the same there. -/
theorem hasFile_congr (h : d.within p = e.within p) (hp : p.isPrefixOf r = true) :
    d.hasFile r = e.hasFile r := by
  rw [hasFile, hasFile, ← entry?_within hp, ← entry?_within hp, h]

theorem hasFolder_congr (h : d.within p = e.within p) (hp : p.isPrefixOf r = true) :
    d.hasFolder r = e.hasFolder r := by
  have hany (d : Disk) : (d.entries.any fun y => r.isPrefixOf y.1 && r.length < y.1.length) =
      (d.within p).any fun y => r.isPrefixOf y.1 && r.length < y.1.length := by
    rw [within, List.any_filter]
    refine List.any_congr rfl fun y => ?_
    cases hr : r.isPrefixOf y.1 with
    | false => simp
    | true =>
      have hpy : p.isPrefixOf y.1 = true := by
        rw [List.isPrefixOf_iff_prefix] at hp hr ⊢
        exact hp.trans hr
      simp [hpy]
  rw [hasFolder, hasFolder, ← entry?_within hp, ← entry?_within hp, hany d, hany e, h]

theorem hasFolder_above (h : d.hasFolder r = true) (hp : p.isPrefixOf r = true) :
    d.hasFolder p = true := by
  by_cases hpr : p = r
  · rwa [hpr]
  have hstart := List.isPrefixOf_iff_prefix.mp hp
  have hlength : p.length < r.length :=
    lt_of_le_of_ne hstart.length_le fun hlen => hpr (hstart.eq_of_length hlen)
  -- Something stands at the place of the folder or below it.
  have hentry : ∃ y ∈ d.entries, r <+: y.1 := by
    rw [hasFolder, Bool.or_eq_true, Bool.or_eq_true, List.any_eq_true] at h
    obtain (h | h) | ⟨y, hy, h⟩ := h
    · simp [List.isEmpty_iff.mp h] at hlength
    · obtain ⟨y, hy, hyr⟩ := List.lookup_isSome_iff.mp
        (show (d.entries.lookup r).isSome by rw [← entry?, beq_iff_eq.mp h]; rfl)
      exact ⟨y, hy, by rw [← beq_iff_eq.mp hyr]⟩
    · rw [Bool.and_eq_true] at h
      exact ⟨y, hy, List.isPrefixOf_iff_prefix.mp h.1⟩
  obtain ⟨y, hy, hry⟩ := hentry
  rw [hasFolder, Bool.or_eq_true]
  refine .inr (List.any_eq_true.mpr ⟨y, hy, ?_⟩)
  have hle := hry.length_le
  simp only [Bool.and_eq_true, decide_eq_true_eq, List.isPrefixOf_iff_prefix]
  exact ⟨hstart.trans hry, by omega⟩

/-! ### Putting and removing -/

/-- Putting something below a place is putting it among the entries there. -/
theorem within_put (h : p.isPrefixOf q = true) :
    (d.put q x).within p = (put ⟨d.home, d.within p⟩ q x).entries := by
  have hany : (d.within p).any (·.1 == q) = d.entries.any (·.1 == q) := by
    rw [within, List.any_filter]
    refine List.any_congr rfl fun y => ?_
    by_cases hy : y.1 = q
    · simp [hy, h]
    · simp [hy]
  rw [put, put]
  dsimp only
  rw [hany]
  split
  · rw [within, within, List.filter_map]
    congr 1
    refine List.filter_congr fun y _ => ?_
    by_cases hy : y.1 = q
    · simp [hy]
    · simp [hy]
  · simp [within, h]

theorem within_put_elsewhere (h : p.isPrefixOf q = false) :
    (d.put q x).within p = d.within p := by
  rw [put, within, within]
  dsimp only
  split
  · induction d.entries with
    | nil => rfl
    | cons y rest ih =>
      rw [List.map_cons, List.filter_cons, List.filter_cons, ih]
      by_cases hy : y.1 = q
      · simp [hy, h]
      · simp [hy]
  · simp [h]

/-- Nothing stands below a place at which there is nothing. -/
theorem within_eq_nil (hfile : d.hasFile p = false) (hfolder : d.hasFolder p = false) :
    d.within p = [] := by
  rw [within, List.filter_eq_nil_iff]
  intro y hy hstart
  rw [hasFolder, Bool.or_eq_false_iff, Bool.or_eq_false_iff, List.any_eq_false] at hfolder
  obtain ⟨⟨-, hmade⟩, hbelow⟩ := hfolder
  have hlength : ¬ p.length < y.1.length := by simpa [hstart] using hbelow y hy
  obtain ⟨rest, hrest⟩ := List.isPrefixOf_iff_prefix.mp hstart
  have hyp : y.1 = p := by
    have : rest = [] := by
      rw [← hrest, List.length_append] at hlength
      exact List.length_eq_zero_iff.mp (by omega)
    rw [← hrest, this, List.append_nil]
  have hsome : (d.entries.lookup p).isSome :=
    List.lookup_isSome_iff.mpr ⟨y, hy, by simp [hyp]⟩
  obtain ⟨z, hz⟩ : ∃ z, d.entry? p = some z := Option.isSome_iff_exists.mp hsome
  cases z with
  | folder => simp [hz] at hmade
  | file c => simp [hasFile, hz] at hfile

theorem hasFile_put_folder (h : d.hasFile r = false) : (d.put q .folder).hasFile r = false := by
  by_cases hr : r = q
  · simp [hasFile, hr, entry?_put_self]
  · rwa [hasFile, entry?_put_of_ne hr]

theorem within_removeAt (hp : p ≠ []) : (d.removeAt p).within p = [] := by
  have hkept : (⟨d.home, d.entries.filter fun y => !p.isPrefixOf y.1⟩ : Disk).within p = [] := by
    simp [within, List.filter_filter]
  have hup : p.isPrefixOf p.dropLast = false := by
    rw [Bool.eq_false_iff]
    intro h
    have hle := (List.isPrefixOf_iff_prefix.mp h).length_le
    have hpos := List.length_pos_of_ne_nil hp
    rw [List.length_dropLast] at hle
    omega
  simp only [removeAt]
  split
  · exact hkept
  · rw [within_put_elsewhere hup, hkept]

/-- Removing something changes nothing elsewhere. -/
theorem within_removeAt_of_ne {x : String} {rest : Place} (hp : p = x :: rest) (hrest : rest ≠ [])
    {z : String} (hz : z ≠ x) : (d.removeAt p).within [z] = d.within [z] := by
  have hkept : (⟨d.home, d.entries.filter fun y => !p.isPrefixOf y.1⟩ : Disk).within [z] =
      d.within [z] := by
    rw [within, within, List.filter_filter]
    refine List.filter_congr fun y _ => ?_
    obtain ⟨q, y⟩ := y
    cases q with
    | nil => simp
    | cons a q =>
      by_cases ha : z = a
      · have hxa : x ≠ a := fun h => hz (ha.trans h.symm)
        simp [hp, List.isPrefixOf, hxa]
      · simp [List.isPrefixOf, ha]
  simp only [removeAt]
  split
  · exact hkept
  · rw [within_put_elsewhere, hkept]
    rw [hp, List.dropLast_cons_of_ne_nil hrest]
    simp [List.isPrefixOf, hz]

theorem hasFile_removeAt (h : d.hasFile r = false) : (d.removeAt p).hasFile r = false := by
  have hkept :
      (⟨d.home, d.entries.filter fun y => !p.isPrefixOf y.1⟩ : Disk).hasFile r = false := by
    rw [hasFile, entry?, lookup_filter (fun q => !p.isPrefixOf q)]
    split
    · rename_i hentry
      split at hentry
      · rw [hasFile, entry?, hentry] at h
        exact h
      · cases hentry
    · rfl
  simp only [removeAt]
  split
  · exact hkept
  · exact hasFile_put_folder hkept

/-! ### Putting files down -/

/-- Files that are put down below a folder. -/
def under (path : String) (files : List (String × Content)) : List (String × Content) :=
  files.map fun f => (Path.below path f.1, f.2)

theorem withFiles_cons (hd : d.Rooted) {path : String} (hpath : Path.ofString path = ⟨"", p⟩)
    (hp : ∀ x ∈ p, IsName x) (c : Content) (files : List (String × Content)) :
    d.withFiles ((path, c) :: files) = (d.put p (.file c)).withFiles files := by
  rw [withFiles, List.foldl_cons]
  simp only [place?_of_names hd hpath hp]
  rfl

theorem home_withFiles (d : Disk) (files : List (String × Content)) :
    (d.withFiles files).home = d.home := by
  induction files generalizing d with
  | nil => rfl
  | cons f files ih =>
    rw [withFiles, List.foldl_cons, ← withFiles, ih]
    dsimp only
    split <;> rfl

/-- Putting something at a longer place, among entries at longer places. -/
theorem entries_put_map (d : Disk) (home : String) (q : Place) (x : Entry) :
    (put ⟨home, d.entries.map fun y => (p ++ y.1, y.2)⟩ (p ++ q) x).entries =
      (d.put q x).entries.map fun y => (p ++ y.1, y.2) := by
  have hany : (d.entries.map fun y => (p ++ y.1, y.2)).any (·.1 == p ++ q) =
      d.entries.any (·.1 == q) := by
    rw [List.any_map]
    refine List.any_congr rfl fun y => ?_
    simp
  rw [put, put]
  dsimp only
  rw [hany]
  split
  · rw [List.map_map, List.map_map]
    refine List.map_congr_left fun y _ => ?_
    by_cases hy : y.1 = q
    · simp [hy]
    · simp [hy]
  · simp

theorem filesAt_of_within (h : d.within p = e.entries.map fun y => (p ++ y.1, y.2)) :
    d.filesAt p = e.filesAt [] := by
  have hfiles : d.filesAt p = (⟨d.home, d.within p⟩ : Disk).filesAt p := by
    rw [filesAt, filesAt, within, List.filterMap_filter]
    refine List.filterMap_congr fun y _ => ?_
    obtain ⟨r, y⟩ := y
    cases hr : p.isPrefixOf r <;> cases y <;> simp [hr]
  rw [hfiles, h, filesAt, filesAt, List.filterMap_map]
  refine List.filterMap_congr fun y _ => ?_
  obtain ⟨r, y⟩ := y
  cases y <;> simp

section Under

variable {path : String} {files : List (String × Content)}
  (hpath : Path.ofString path = ⟨"", p⟩) (hp : ∀ x ∈ p, IsName x)

include hpath hp

theorem withFiles_under_cons (hd : d.Rooted) (f : String × Content) (hf : Path.IsInner f.1) :
    d.withFiles (under path (f :: files)) =
      (d.put (p ++ (Path.ofString f.1).parts) (.file f.2)).withFiles (under path files) := by
  refine withFiles_cons hd (hf.ofString_below hpath hp) ?_ f.2 _
  intro x hx
  obtain hx | hx := List.mem_append.mp hx
  · exact hp x hx
  · exact hf.isName x hx

variable (hfiles : ∀ f ∈ files, Path.IsInner f.1)

include hfiles

/-- What holds of a disk and is kept when a file is put down below a folder holds when files were
put down there. -/
theorem withFiles_under_induction {P : Disk → Prop} (hd : d.Rooted) (h : P d)
    (step : ∀ e q c, e.home = d.home → q ≠ [] → P e → P (e.put (p ++ q) (.file c))) :
    P (d.withFiles (under path files)) := by
  induction files generalizing d with
  | nil => exact h
  | cons f files ih =>
    have hf := hfiles f (by simp)
    have hrest : ∀ g ∈ files, Path.IsInner g.1 := fun g hg => hfiles g (by simp [hg])
    rw [withFiles_under_cons hpath hp hd f hf]
    exact ih hrest hd (step d _ f.2 rfl hf.ne_nil h) step

/-- What is put down below a folder stands there as it stands on an empty disk. -/
theorem within_withFiles_under (hd : d.Rooted) (he : e.Rooted)
    (h : d.within p = e.entries.map fun y => (p ++ y.1, y.2)) :
    (d.withFiles (under path files)).within p =
      (e.withFiles files).entries.map fun y => (p ++ y.1, y.2) := by
  induction files generalizing d e with
  | nil => exact h
  | cons f files ih =>
    have hf := hfiles f (by simp)
    have hrest : ∀ g ∈ files, Path.IsInner g.1 := fun g hg => hfiles g (by simp [hg])
    rw [withFiles_under_cons hpath hp hd f hf,
      withFiles_cons he hf.ofString_eq hf.isName f.2 files]
    refine ih hrest hd he ?_
    rw [within_put (List.isPrefixOf_iff_prefix.mpr (List.prefix_append _ _)), h]
    exact entries_put_map e _ _ _

/-- The files that are put down below an empty folder are those of an empty disk. -/
theorem filesAt_withFiles_under (hd : d.Rooted) (he : e.Rooted) (hwithin : d.within p = [])
    (hempty : e.entries = []) :
    (d.withFiles (under path files)).filesAt p = (e.withFiles files).filesAt [] := by
  apply filesAt_of_within
  exact within_withFiles_under hpath hp hfiles hd he (by rw [hwithin, hempty]; rfl)

end Under

/-- A folder adds nothing to the files below it. -/
theorem filesAt_put_folder : (d.put p .folder).filesAt p = d.filesAt p := by
  rw [put, filesAt, filesAt]
  dsimp only
  split
  · rw [List.filterMap_map]
    refine List.filterMap_congr fun y _ => ?_
    by_cases hy : y.1 = p
    · obtain ⟨q, y⟩ := y
      obtain rfl : q = p := hy
      cases y <;> simp
    · simp [hy]
  · simp

end Disk

end CodeScribe

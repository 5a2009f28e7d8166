import CodeScribe.Proofs.Workspace.Checkout

/-!
# What is removed when a repository is located

Before a repository is fetched, its folder is cleared, and it is cleared once more when the fetch
fails and another address is tried.  Each time the folder is opened first, and it stays if it is a
repository.

* `Repository.locating_spares_repositories` — the whole run.
-/

namespace CodeScribe

open CodeScribe.Frame

/-! ### What stands on a disk -/

namespace Disk

variable {d e f : Disk} {p q : Place} {names : List String}

/-- Whether anything stands at a place. -/
def stands (d : Disk) (p : Place) : Bool := d.hasFile p || d.hasFolder p

theorem stands_iff : d.stands p = true ↔ d.hasFile p = true ∨ d.hasFolder p = true := by
  rw [stands, Bool.or_eq_true]

theorem Grows.stands (h : d.Grows e) (hp : d.stands p = true) : e.stands p = true :=
  stands_iff.mpr ((stands_iff.mp hp).imp (h.files p) (h.folders p))

theorem stands_put {x : Entry} (h : d.stands p = true) : (d.put q x).stands p = true := by
  rw [stands_iff] at h ⊢
  by_cases hpq : p = q
  · subst hpq
    cases x with
    | folder => exact .inr (by simp [hasFolder, entry?_put_self])
    | file c => exact .inl (by simp [hasFile, entry?_put_self])
  · refine h.imp (fun hfile => ?_) fun hfolder => ?_
    · rwa [hasFile, entry?_put_of_ne hpq]
    · rw [hasFolder, Bool.or_eq_true] at hfolder
      rw [hasFolder, entry?_put_of_ne hpq, Bool.or_eq_true]
      exact hfolder.imp_right (any_put fun r => p.isPrefixOf r && p.length < r.length)

theorem stands_withFiles {files : List (String × Content)} (h : d.stands p = true) :
    (d.withFiles files).stands p = true := by
  induction files generalizing d with
  | nil => exact h
  | cons file files ih =>
    obtain ⟨path, c⟩ := file
    rw [withFiles, List.foldl_cons]
    refine ih ?_
    dsimp only
    split
    · exact stands_put h
    · exact h

theorem hasFolder_dropLast_removeAt (d : Disk) (q : Place) :
    (d.removeAt q).hasFolder q.dropLast = true := by
  simp only [removeAt]
  split
  · assumption
  · simp [hasFolder, entry?_put_self]

/-- The entries that are left, before the folder around them is made good. -/
theorem stands_removeAt_of_stands
    (h : stands ⟨d.home, d.entries.filter fun y => !q.isPrefixOf y.1⟩ p = true) :
    (d.removeAt q).stands p = true := by
  simp only [removeAt]
  split
  · exact h
  · exact stands_put h

theorem not_isPrefixOf (h : ¬ q <+: p) : (!q.isPrefixOf p) = true := by
  rw [Bool.not_eq_true', Bool.eq_false_iff]
  exact fun hprefix => h (List.isPrefixOf_iff_prefix.mp hprefix)

/-- Removing takes away what stands at a place and below it, and nothing else. -/
theorem stands_removeAt (h : d.stands p = true) (hp : ¬ q <+: p) :
    (d.removeAt q).stands p = true := by
  have hentry : Disk.entry? ⟨d.home, d.entries.filter fun y => !q.isPrefixOf y.1⟩ p =
      d.entry? p := by
    rw [ entry?, lookup_filter (fun r => !q.isPrefixOf r), if_pos (not_isPrefixOf hp), entry?]
  obtain hfile | hfolder := stands_iff.mp h
  · refine stands_removeAt_of_stands (stands_iff.mpr (.inl ?_))
    rwa [hasFile, hentry]
  · rw [hasFolder, Bool.or_eq_true, List.any_eq_true] at hfolder
    obtain hmade | ⟨y, hy, hbelow⟩ := hfolder
    · refine stands_removeAt_of_stands (stands_iff.mpr (.inr ?_))
      rw [hasFolder, hentry, hmade, Bool.true_or]
    · by_cases hqy : q <+: y.1
      · -- All that stood below the place may be gone; then the place is above the removed one.
        rw [Bool.and_eq_true, List.isPrefixOf_iff_prefix] at hbelow
        have hpq : p <+: q := (List.prefix_or_prefix_of_prefix hbelow.1 hqy).resolve_right hp
        have hup : p.isPrefixOf q.dropLast = true := by
          rw [List.isPrefixOf_iff_prefix]
          obtain ⟨r, rfl⟩ := hpq
          cases r with
          | nil => simp at hp
          | cons a r => simp
        exact stands_iff.mpr (.inr (hasFolder_above (hasFolder_dropLast_removeAt d q) hup))
      · refine stands_removeAt_of_stands (stands_iff.mpr (.inr ?_))
        rw [hasFolder, Bool.or_eq_true, List.any_eq_true]
        exact .inr ⟨y, List.mem_filter.mpr ⟨hy, not_isPrefixOf hqy⟩, hbelow⟩

/-! ### A path that was removed -/

/-- A path leads to one place at most, whatever stands where. -/
theorem follow_unique {here : Place} (hp : d.follow here names = some p)
    (hq : e.follow here names = some q) : p = q := by
  induction names generalizing here with
  | nil => exact Option.some.inj (hp.symm.trans hq)
  | cons name rest ih =>
    rw [follow] at hp hq
    split at hp
    · split at hp
      · cases hp
      · rename_i hname _
        rw [if_pos hname] at hq
        split at hq
        · cases hq
        · exact ih hp hq
    · rename_i hname
      rw [if_neg hname] at hq
      exact ih hp hq

theorem follow_of_entries_nil (h : d.entries = []) {here : Place}
    (hp : d.follow here names = some p) : p = here ++ names := by
  induction names generalizing here with
  | nil => simpa [follow, eq_comm] using hp
  | cons name rest ih =>
    rw [follow] at hp
    split at hp
    · split at hp
      · cases hp
      · rename_i hback
        simp [hasFolder, entry?, h] at hback
    · rw [ih hp]
      simp

theorem entries_removeAt_nil (d : Disk) : (d.removeAt []).entries = [] := by
  simp [removeAt, hasFolder]

theorem not_stands_removeAt (hp : p ≠ []) : (d.removeAt p).stands p = false := by
  have hnone : Disk.entry? (d.removeAt p) p = none := by
    rw [← entry?_within (List.isPrefixOf_iff_prefix.mpr (List.prefix_refl p)), within_removeAt hp]
    rfl
  have hbelow : (d.removeAt p).entries.any
      (fun y => p.isPrefixOf y.1 && decide (p.length < y.1.length)) = false := by
    rw [List.any_eq_false]
    intro y hy hyp
    rw [Bool.and_eq_true] at hyp
    have hmem : y ∈ (d.removeAt p).within p := List.mem_filter.mpr ⟨hy, hyp.1⟩
    rw [within_removeAt hp] at hmem
    cases hmem
  simp [stands, hasFile, hasFolder, hnone, hbelow, hp]

theorem isThere_eq (d : Disk) (path : String) :
    d.isThere path = (d.place? path).any d.stands := by
  rw [isThere, isFile, isFolder]
  cases d.place? path with
  | none => rfl
  | some p => rfl

theorem place?_of_relative (hd : d.Rooted) {path : String}
    (hpath : Path.ofString path = ⟨"", names⟩) : d.place? path = d.follow [] names := by
  have hroot : ("" == (Path.ofString d.home).root) = false := by
    simpa using Ne.symm hd
  simp [place?, hpath, Path.relativeTo?, hroot]

theorem isThere_removeTree (hd : d.Rooted) {path : String}
    (hpath : Path.ofString path = ⟨"", names⟩) (hne : names ≠ []) :
    (d.removeTree path).isThere path = false := by
  have hplace := place?_of_relative hd hpath
  rw [removeTree]
  cases hp : d.place? path with
  | none =>
    dsimp only
    rw [isThere_eq, hp]
    rfl
  | some p =>
    dsimp only
    have he : (d.removeAt p).Rooted := by
      have hhome : (d.removeAt p).home = d.home := by
        have := d.home_removeTree path
        rwa [removeTree, hp] at this
      rwa [Rooted, hhome]
    rw [isThere_eq, place?_of_relative he hpath]
    cases hq : (d.removeAt p).follow [] names with
    | none => rfl
    | some q =>
      obtain rfl : p = q := follow_unique (hplace ▸ hp) hq
      refine not_stands_removeAt ?_
      rintro rfl
      exact hne (follow_of_entries_nil (entries_removeAt_nil d) hq).symm

end Disk

/-! ### Deeds that a disk undergoes -/

namespace Noted

/-- What a deed takes away: a removal takes what stands at the place of its path and below it. -/
def Takes (m : Noted) (p : Place) : Prop :=
  ∃ path q, m.deed = .removal path ∧ m.disk.place? path = some q ∧ q <+: p

/-- Only one folder is removed and fetched into: it is removed when it is no repository, and fetched
into when it is one or when it is not there. -/
def IsSafe (path : String) (m : Noted) : Prop :=
  match m.deed with
  | .removal target => target = path ∧ target ∉ m.valid
  | .fetch _ target => target = path ∧ (m.disk.isThere target = false ∨ target ∈ m.valid)
  | .opening _ | .update | .switch _ => True

end Noted

/-- How one disk becomes another along the deeds that were noted: each deed takes away what it says
and nothing is taken away otherwise. -/
inductive Disk.Undergoes : Disk → List Noted → Disk → Prop
  | nil {d e : Disk} : (∀ p, d.stands p = true → e.stands p = true) → Undergoes d [] e
  | cons {d e f : Disk} {m : Noted} {deeds : List Noted} :
      (∀ p, d.stands p = true → m.disk.stands p = true) →
      (∀ p, m.disk.stands p = true → e.stands p = true ∨ m.Takes p) →
      Undergoes e deeds f → Undergoes d (m :: deeds) f

theorem Disk.Undergoes.of_stands {d e f : Disk} {deeds : List Noted} (h : Undergoes e deeds f)
    (hde : ∀ p, d.stands p = true → e.stands p = true) : Undergoes d deeds f := by
  cases h with
  | nil hef => exact .nil fun p hp => hef p (hde p hp)
  | cons hm htakes hrest => exact .cons (fun p hp => hm p (hde p hp)) htakes hrest

theorem Disk.Undergoes.trans {d e f : Disk} {deeds more : List Noted} (h : Undergoes d deeds e)
    (h' : Undergoes e more f) : Undergoes d (deeds ++ more) f := by
  induction h with
  | nil hde => exact h'.of_stands hde
  | cons hm htakes _ ih => exact .cons hm htakes (ih h')

namespace World

def careful (path : String) : Frame World where
  rel w v := v.disk.home = w.disk.home ∧ ∃ deeds : List Noted,
    v.repositories.journal = w.repositories.journal ++ deeds ∧ (∀ m ∈ deeds, m.IsSafe path) ∧
      w.disk.Undergoes deeds v.disk
  refl w := ⟨rfl, [], by simp, by simp, .nil fun _ => id⟩
  trans := by
    rintro w v u ⟨hhome, deeds, hjournal, hsafe, hdisk⟩ ⟨hhome', more, hjournal', hsafe', hdisk'⟩
    refine ⟨hhome'.trans hhome, deeds ++ more, ?_, ?_, hdisk.trans hdisk'⟩
    · rw [hjournal', hjournal, List.append_assoc]
    · exact fun m hm => (List.mem_append.mp hm).elim (hsafe m) (hsafe' m)

variable {path : String} {w v : World}

theorem careful_of_stands (hhome : v.disk.home = w.disk.home)
    (hjournal : v.repositories.journal = w.repositories.journal)
    (hstands : ∀ p, w.disk.stands p = true → v.disk.stands p = true) : (careful path).rel w v :=
  ⟨hhome, [], by rw [hjournal, List.append_nil], by simp, .nil hstands⟩

/-- Whether a folder can be fetched into. -/
def IsFree (path : String) (w : World) : Prop :=
  w.disk.isThere path = false ∨ path ∈ w.repositories.valid

theorem rooted_of_careful (h : (careful path).rel w v) (hw : w.disk.Rooted) :
    v.disk.Rooted := by
  rwa [Disk.Rooted, h.1]

theorem careful_note (deed : Deed)
    (h : Noted.IsSafe path ⟨deed, w.disk, w.repositories.valid⟩) :
    (careful path).rel w ((Repository.note deed).runIn w).2 :=
  ⟨rfl, [⟨deed, w.disk, w.repositories.valid⟩], rfl, by simpa using h,
    .cons (fun _ => id) (fun _ => .inl) (.nil fun _ => id)⟩

theorem careful_allowsNotes (path : String) : AllowsNotes (careful path) where
  print _ w := careful_of_stands rfl rfl fun _ => id
  note deed hdeed w := careful_note deed (by cases deed <;> trivial)

theorem careful_makeFolders (path folder : String) :
    (careful path).Keeps (Work.changeDisk (·.makeFolders folder)) := by
  intro w
  have hrun := Work.runIn_changeDisk (·.makeFolders folder) w
  cases hmake : w.disk.makeFolders folder with
  | error fault =>
    rw [hmake] at hrun
    exact (congrArg (fun r => (careful path).rel w r.2) hrun).mpr ((careful path).refl w)
  | ok d =>
    rw [hmake] at hrun
    have hgrows := Disk.grows_makeFolders hmake
    exact (congrArg (fun r => (careful path).rel w r.2) hrun).mpr
      (careful_of_stands hgrows.home rfl fun _ => hgrows.stands)

end World

/-! ### Clearing and fetching -/

namespace Repository

open World

variable {path : String} {w : World}

theorem ofString_root_of_slash_notMem {s : String} (h : '/' ∉ s.toList) :
    (Path.ofString s).root = "" := by
  show Path.rootOf s = ""
  unfold Path.rootOf
  split
  case h_4 => rfl
  all_goals
    rename_i hlist
    rw [hlist] at h
    simp at h

theorem exists_ofString_checkoutOf (source : String) :
    ∃ names, Path.ofString (checkoutOf source) = ⟨"", names⟩ ∧ names ≠ [] := by
  obtain ⟨name, hname⟩ : ∃ name, nameIn (fullAddress (Path.normal source)) = name := ⟨_, rfl⟩
  have hroot : (Path.ofString name).root = "" :=
    ofString_root_of_slash_notMem (hname ▸ slash_notMem_nameIn _)
  have htop : Path.ofString "temp_repos" = ⟨"", ["temp_repos"]⟩ :=
    Path.ofString_name (by decide)
  have hclean : Path.Clean ⟨"", "temp_repos" :: (Path.ofString name).parts⟩ := by
    refine ⟨.inl rfl, fun x hx => ?_⟩
    obtain rfl | hx := List.mem_cons.mp hx
    · decide
    · exact (Path.clean_ofString name).part x hx
  refine ⟨"temp_repos" :: (Path.ofString name).parts, ?_, by simp⟩
  rw [checkoutOf, folderFor, hname, Path.below, htop, Path.append, hroot]
  exact Path.ofString_text hclean

/-- Removing a folder, with the note that is made of it. -/
def remove (path : String) : Work Unit := do
  note (.removal path)
  Work.changeDisk fun d => .ok (d.removeTree path)

theorem careful_remove (hvalid : path ∉ w.repositories.valid) :
    (careful path).rel w ((remove path).runIn w).2 := by
  refine ⟨w.disk.home_removeTree path, [⟨.removal path, w.disk, w.repositories.valid⟩], rfl,
    by simpa [Noted.IsSafe] using hvalid, ?_⟩
  refine .cons (fun _ => id) (fun p hp => ?_) (.nil fun _ => id)
  show (w.disk.removeTree path).stands p = true ∨ _
  by_cases htakes : Noted.Takes ⟨.removal path, w.disk, w.repositories.valid⟩ p
  · exact .inr htakes
  · refine .inl ?_
    rw [Disk.removeTree]
    split
    · rename_i q hq
      exact Disk.stands_removeAt hp fun hqp => htakes ⟨path, q, rfl, hq, hqp⟩
    · exact hp

theorem careful_fetch (url : String) (hfree : IsFree path w) :
    (careful path).rel w ((fetch url path).runIn w).2 := by
  have hnote : (careful path).KeepsFrom w (note (.fetch url path)) fun _ _ => True :=
    ⟨careful_note _ ⟨rfl, hfree⟩, fun _ _ _ => trivial⟩
  have hvalid (valid : World → List String) : (careful path).Keeps (modify fun w =>
      { w with repositories := { w.repositories with valid := valid w } } : Work Unit) :=
    keeps_modify fun w => careful_of_stands rfl rfl fun _ => id
  refine (hnote.bind fun _ v _ _ => Keeps.from ?_ v).1
  refine keeps_get_set (fun w => careful_of_stands (Disk.home_withFiles _ _) rfl
    fun _ => Disk.stands_withFiles) fun w => ?_
  split
  · exact (hvalid _).bind fun _ => keeps_throw _
  · exact (careful_makeFolders path path).bind fun _ => (hvalid _).bind fun _ =>
      keeps_openAt (careful_allowsNotes path) path

theorem keepsFrom_openAt (path target : String) (w : World) :
    (careful path).KeepsFrom w (Work.attempt (openAt target)) fun r v =>
      v.ground = w.ground ∧ r = (if target ∈ w.repositories.valid then .ok ()
        else .error (.notARepository target)) := by
  refine ⟨keeps_openAt (careful_allowsNotes path) target w, fun r v hrun => ?_⟩
  obtain ⟨hr, hv⟩ := Prod.mk.inj hrun
  rw [← Except.ok.inj hr, ← hv]
  exact ⟨keeps_openAt groundFrame_allowsNotes target w, fst_runIn_openAt target w⟩

section Runs

variable {names : List String} (hpath : Path.ofString path = ⟨"", names⟩) (hne : names ≠ [])
  (hw : w.disk.Rooted)

include hpath hne hw

/-- Clearing a folder removes it only if it is no repository, and it can be fetched into then. -/
theorem keepsFrom_clear : (careful path).KeepsFrom w (clear path) fun _ v => IsFree path v := by
  unfold clear
  refine Work.keepsFrom_disk_bind ?_
  split
  · refine (keepsFrom_openAt path path w).bind fun r v hcareful ⟨hground, hr⟩ => ?_
    have hvalid : v.repositories.valid = w.repositories.valid := congrArg Ground.valid hground
    by_cases hmem : path ∈ w.repositories.valid
    · rw [if_pos hmem] at hr
      rw [hr]
      exact keepsFrom_pure (.inr (hvalid ▸ hmem))
    · rw [if_neg hmem] at hr
      rw [hr]
      refine ⟨careful_remove (hvalid ▸ hmem), fun _ u hrun => .inl ?_⟩
      obtain rfl : _ = u := congrArg Prod.snd hrun
      exact Disk.isThere_removeTree (rooted_of_careful hcareful hw) hpath hne
  · rename_i habsent
    exact keepsFrom_pure (.inl (by simpa using habsent))

/-- A folder that is not used again can be fetched into. -/
theorem keepsFrom_reuse :
    (careful path).KeepsFrom w (reuse path) fun used v => used = false → IsFree path v := by
  have hnotes := careful_allowsNotes path
  unfold reuse
  refine Work.keepsFrom_disk_bind ?_
  split
  · rename_i habsent
    exact keepsFrom_pure fun _ => .inl (by simpa using habsent)
  · refine (keepsFrom_openAt path path w).bind fun r v hv _ => ?_
    have hline (line : String) (u : World) := (hnotes.print line).from u
    cases r with
    | ok _ =>
      refine (hline _ v).bind fun _ u _ _ => ?_
      refine (Work.keepsFrom_attempt ((keeps_update hnotes).from u)).bind fun r t _ _ => ?_
      cases r <;> exact (hline _ t).bind fun _ _ _ _ => keepsFrom_pure nofun
    | error _ =>
      refine (hline _ v).bind fun _ u hu _ => ?_
      have hrooted := rooted_of_careful ((careful path).trans hv hu) hw
      exact (keepsFrom_clear hpath hne hrooted).bind fun _ _ _ hfree =>
        keepsFrom_pure fun _ => hfree

theorem careful_fetchAnyway (url : String) (hfree : IsFree path w) :
    (careful path).rel w ((fetchAnyway url path).runIn w).2 := by
  have hnotes := careful_allowsNotes path
  have hline (line : String) (u : World) (hu : u.disk.Rooted) :
      (careful path).KeepsFrom u (Work.print line) fun _ v =>
        v.disk.Rooted ∧ (IsFree path u → IsFree path v) := by
    refine ⟨hnotes.print line u, fun _ v hrun => ?_⟩
    cases hrun
    exact ⟨hu, id⟩
  have hfetch (url : String) (u : World) (hu : IsFree path u) :
      (careful path).KeepsFrom u (fetch url path) fun _ _ => True :=
    ⟨careful_fetch url hu, fun _ _ _ => trivial⟩
  refine ((hline _ w hw).bind (R := fun _ _ => True) fun _ v _ ⟨hv, hvfree⟩ => ?_).1
  split
  · exact hfetch url v (hvfree hfree)
  · refine (Work.keepsFrom_attempt (hfetch url v (hvfree hfree))).bind fun r u hu _ => ?_
    cases r with
    | ok _ => exact keepsFrom_pure trivial
    | error fault =>
      dsimp only
      split
      · refine (hline _ u (rooted_of_careful hu hv)).bind fun _ t _ ⟨ht, _⟩ => ?_
        have hagain : (careful path).KeepsFrom t (do clear path; fetch (webAddress url) path)
            fun _ _ => True :=
          (keepsFrom_clear hpath hne ht).bind fun _ s _ hs => hfetch _ s hs
        refine (Work.keepsFrom_attempt hagain).bind fun r s _ _ => ?_
        cases r with
        | ok _ => exact keepsFrom_pure trivial
        | error _ => exact (keeps_throw _).from s
      · exact (keeps_throw _).from u

end Runs

/-! ### Locating -/

section Locating

variable (source : String) (branch : Option String) (hw : w.disk.Rooted)

theorem keepsFrom_tryBranch (result : String) :
    (careful path).KeepsFrom w (tryBranch branch >>= fun _ => pure result) fun _ _ => True :=
  ((keeps_tryBranch (careful_allowsNotes path) branch).bind fun _ => keeps_pure _).from w

include hw

theorem keepsFrom_checkOut :
    (careful (checkoutOf source)).KeepsFrom w (checkOut source branch) fun _ _ => True := by
  obtain ⟨names, hpath, hne⟩ := exists_ofString_checkoutOf source
  unfold checkOut
  generalize checkoutOf source = path at hpath ⊢
  refine ((careful_makeFolders path _).from w).bind fun _ v hv _ => ?_
  refine (keepsFrom_reuse hpath hne (rooted_of_careful hv hw)).bind fun used u hu hfree => ?_
  cases used with
  | true => exact keepsFrom_tryBranch branch path
  | false =>
    have hrooted := rooted_of_careful ((careful path).trans hv hu) hw
    have hfetch (url : String) :
        (careful path).KeepsFrom u (fetchAnyway url path) fun _ _ => True :=
      ⟨careful_fetchAnyway hpath hne hrooted url (hfree rfl), fun _ _ _ => trivial⟩
    exact (hfetch _).bind fun _ _ _ _ => keepsFrom_tryBranch branch path

theorem careful_locate :
    (careful (checkoutOf source)).rel w ((locate source branch).runIn w).2 := by
  suffices h : (careful (checkoutOf source)).KeepsFrom w (locate source branch)
      fun _ _ => True from h.1
  unfold locate
  refine Work.keepsFrom_get_bind ?_
  split
  · exact (keeps_throw _).from w
  refine Work.keepsFrom_disk_bind ?_
  dsimp only
  split
  · exact ((keeps_openAt (careful_allowsNotes _) _).from w).bind fun _ _ _ _ =>
      keepsFrom_tryBranch branch _
  · exact keepsFrom_checkOut source branch hw

end Locating

/-- Whatever fetches, updates and switches come to, and whichever folders are repositories: while a
repository is located, nothing is taken away but what is in the folder of the repository, and that
only when the folder is no repository; and it is fetched only into that folder, and only when the
folder is a repository or is not there. -/
theorem locating_spares_repositories {w : World} (source : String) (branch : Option String)
    (hw : w.disk.Rooted) : ∃ deeds : List Noted,
    ((locate source branch).runIn w).2.repositories.journal = w.repositories.journal ++ deeds ∧
    (∀ m ∈ deeds, m.IsSafe (checkoutOf source)) ∧
    w.disk.Undergoes deeds ((locate source branch).runIn w).2.disk :=
  (careful_locate source branch hw).2

/-- A world in which something else stands where a repository is to be fetched into, and the first
fetch stops half-way. -/
def halfFetched : World where
  disk := { home := "/w", entries := [(["temp_repos", "x", "old"], .file (.text ""))] }
  repositories := { fetches := [{ files := [("part", .text "")], failure := some "broken" },
    bringing "A.java" "class A {}"] }

theorem deeds_halfFetched :
    ((locate "git@github.com:a/x.git" none).runIn halfFetched).2.repositories.journal.map (·.deed) =
      [.opening "temp_repos/x", .opening "temp_repos/x", .removal "temp_repos/x",
        .fetch "git@github.com:a/x.git" "temp_repos/x", .opening "temp_repos/x",
        .removal "temp_repos/x", .fetch "https///github.com/a/x.git" "temp_repos/x",
        .opening "temp_repos/x"] := by
  decide +kernel

/-- What stood in the folder is removed, and so is what the fetch that failed has left. -/
theorem halfFetched_spared : ∃ deeds : List Noted,
    deeds.map (·.deed) = [.opening "temp_repos/x", .opening "temp_repos/x",
      .removal "temp_repos/x", .fetch "git@github.com:a/x.git" "temp_repos/x",
      .opening "temp_repos/x", .removal "temp_repos/x",
      .fetch "https///github.com/a/x.git" "temp_repos/x", .opening "temp_repos/x"] ∧
    (∀ m ∈ deeds, m.IsSafe (checkoutOf "git@github.com:a/x.git")) ∧
    halfFetched.disk.Undergoes deeds
      ((locate "git@github.com:a/x.git" none).runIn halfFetched).2.disk := by
  obtain ⟨deeds, hjournal, hsafe, hdisk⟩ :=
    locating_spares_repositories (w := halfFetched) "git@github.com:a/x.git" none (by decide)
  refine ⟨deeds, ?_, hsafe, hdisk⟩
  rw [← deeds_halfFetched, hjournal]
  rfl

end Repository

end CodeScribe

import CodeScribe.Proofs.Workspace.Fetching

/-!
# Whose files a repository gives

A repository is fetched into a folder that is named after the last part of its address only.  So two
repositories with different folders each give their own files, and a repository whose folder holds
another one gives the files of that other one.

* `Repository.second_read` — what is read of a second repository, after a first one;
* `Repository.same_name_gives_first` — a repository that gives the files of another.
-/

namespace CodeScribe

open Work World
open CodeScribe.Path (IsName)

/-! ### The name of a repository -/

namespace Repository

theorem slash_notMem_dropRight {x : String} (h : '/' ∉ x.toList) (n : Nat) :
    '/' ∉ (Text.dropRight n x).toList := by
  rw [Text.dropRight, String.toList_ofList]
  exact fun hmem => h (List.mem_of_mem_take hmem)

theorem slash_notMem_name (s : String) : '/' ∉ (Path.ofString s).name.toList := by
  rw [Path.name]
  cases hlast : (Path.ofString s).parts.getLast? with
  | none => simp
  | some x => exact ((Path.clean_ofString s).part x (List.mem_of_getLast? hlast)).2.2

theorem nameIn_cases (url : String) : ∃ stem other : String,
    '/' ∉ stem.toList ∧ '/' ∉ other.toList ∧ nameIn url =
      if stem != "" then stem else if other == "" then "repo" else other := by
  have hstem : '/' ∉ (Path.ofString url).stem.toList :=
    slash_notMem_dropRight (slash_notMem_name url) _
  refine ⟨if Text.endsWith (Path.ofString url).stem ".git"
      then Text.dropRight 4 (Path.ofString url).stem else (Path.ofString url).stem,
    (Path.ofString (Text.trimRightOf (".git".toList.contains ·)
      (Text.trimRightOf (· == '/') url))).name, ?_, slash_notMem_name _, rfl⟩
  split
  · exact slash_notMem_dropRight hstem 4
  · exact hstem

theorem slash_notMem_nameIn (url : String) : '/' ∉ (nameIn url).toList := by
  obtain ⟨stem, other, hstem, hother, h⟩ := nameIn_cases url
  rw [h]
  split
  · exact hstem
  · split
    · decide
    · exact hother

theorem nameIn_ne_empty (url : String) : nameIn url ≠ "" := by
  obtain ⟨stem, other, -, -, h⟩ := nameIn_cases url
  rw [h]
  grind

/-- The name of the repository at an address, as its folder has it. -/
def nameOf (source : String) : String := nameIn (fullAddress (Path.normal source))

/-- An address: read as a path, it does not lead into the folder of all repositories, and its name
is one that a folder can have. -/
structure IsAddress (source : String) : Prop where
  root : (Path.ofString source).root = ""
  points : ".." ∉ (Path.ofString source).parts
  elsewhere : (Path.ofString source).parts.head? ≠ some "temp_repos"
  name_ne_point : nameOf source ≠ "."
  name_ne_points : nameOf source ≠ ".."

instance (source : String) : Decidable (IsAddress source) :=
  decidable_of_iff ((Path.ofString source).root = "" ∧ ".." ∉ (Path.ofString source).parts ∧
      (Path.ofString source).parts.head? ≠ some "temp_repos" ∧ nameOf source ≠ "." ∧
      nameOf source ≠ "..")
    ⟨fun h => ⟨h.1, h.2.1, h.2.2.1, h.2.2.2.1, h.2.2.2.2⟩,
      fun h => ⟨h.1, h.2, h.3, h.4, h.5⟩⟩

def placeOf (source : String) : Place := ["temp_repos", nameOf source]

namespace IsAddress

variable {source : String} (h : IsAddress source)

include h

theorem isName : ∀ x ∈ placeOf source, IsName x := by
  have htop : IsName "temp_repos" := by decide
  have hname : IsName (nameOf source) :=
    ⟨nameIn_ne_empty _, h.name_ne_point, h.name_ne_points, slash_notMem_nameIn _⟩
  intro x hx
  obtain hx | hx : x = "temp_repos" ∨ x = nameOf source := by simpa [placeOf] using hx
  · exact hx ▸ htop
  · exact hx ▸ hname

theorem checkoutOf_eq : checkoutOf source = Text.join "/" (placeOf source) := by
  have hnames := h.isName
  have hbelow := Path.below_join (p := ["temp_repos"]) (q := [nameOf source])
    (fun x hx => hnames x (by simp [placeOf, List.mem_singleton.mp hx])) (by simp)
    (fun x hx => hnames x (by simp [placeOf, List.mem_singleton.mp hx])) (by simp)
  rw [Text.join_singleton, Text.join_singleton] at hbelow
  rw [checkoutOf, folderFor, ← nameOf, hbelow]
  rfl

theorem ofString_checkoutOf : Path.ofString (checkoutOf source) = ⟨"", placeOf source⟩ := by
  rw [h.checkoutOf_eq]
  exact Path.ofString_join h.isName (by simp [placeOf])

theorem normal_checkoutOf : Path.normal (checkoutOf source) = checkoutOf source := by
  rw [h.checkoutOf_eq]
  exact Path.normal_join h.isName (by simp [placeOf])

theorem parent_checkoutOf : (Path.ofString (checkoutOf source)).parent.text = "temp_repos" := by
  rw [h.ofString_checkoutOf, Path.parent]
  have hparts : (placeOf source).dropLast = ["temp_repos"] := rfl
  rw [hparts, Path.text_names (by simp), Text.join_singleton]

end IsAddress

end Repository

/-! ### Checkouts -/

/-- A fetch that brings all its files into the folder that it is asked for. -/
structure Fetch.Succeeds (F : Fetch) : Prop where
  failure : F.failure = none
  inner : ∀ f ∈ F.files, Path.IsInner f.1

/-- The files of a fetch by their paths in the repository, ascending. -/
def Fetch.checkout (F : Fetch) : List (String × Content) :=
  (Disk.withFiles { home := "/" } F.files).filesBelow "."

namespace Disk

variable {d e : Disk} {source : String}

/-- A disk on which repositories can be fetched: the working folder has a path of its own, and no
file stands where the folder of all repositories should be. -/
structure Open (d : Disk) : Prop where
  rooted : d.Rooted
  free : d.hasFile ["temp_repos"] = false

structure Holds (d : Disk) (source : String) (files : List (String × Content)) : Prop
    extends d.Open where
  folder : d.hasFolder (Repository.placeOf source) = true
  files : d.filesBelow (Repository.checkoutOf source) = files

/-- Two disks with the same outside the folder of all repositories. -/
def SameElsewhere (d e : Disk) : Prop := ∀ x, x ≠ "temp_repos" → e.within [x] = d.within [x]

open Repository

theorem place?_checkoutOf (hd : d.Rooted) (h : IsAddress source) :
    d.place? (checkoutOf source) = some (placeOf source) :=
  place?_of_names hd h.ofString_checkoutOf h.isName

theorem not_blocked (hd : d.Open) (name : String) : d.blocked ["temp_repos", name] = false := by
  have hrange : List.range 2 = [0, 1] := rfl
  simp [blocked, hrange, hd.free]

/-- The folder of all repositories is made if it is missing. -/
theorem makeFolders_top (hd : d.Open) :
    ∃ e, d.makeFolders "temp_repos" = .ok e ∧ e.Open ∧ d.SameElsewhere e ∧
      (d.hasFolder ["temp_repos"] = true → e = d) := by
  have hplace : d.place? "temp_repos" = some ["temp_repos"] := by
    refine place?_of_names hd.rooted (by decide) ?_
    simpa using (by decide : IsName "temp_repos")
  have hblocked : d.blocked ["temp_repos"] = false := by
    have hrange : List.range 1 = [0] := rfl
    simp [blocked, hrange]
  rw [makeFolders, hplace]
  dsimp only
  split
  · exact ⟨d, rfl, hd, fun _ _ => rfl, fun _ => rfl⟩
  · rename_i hfolder
    rw [hd.free, hblocked]
    refine ⟨d.put ["temp_repos"] .folder, rfl, ⟨hd.rooted, hasFile_put_folder hd.free⟩, ?_,
      fun h => absurd h hfolder⟩
    intro x hx
    exact within_put_elsewhere (by simp [List.isPrefixOf, hx])

theorem open_cleared (hd : d.Open) (h : IsAddress source) :
    (d.cleared (checkoutOf source)).Open ∧ d.SameElsewhere (d.cleared (checkoutOf source)) ∧
      (d.cleared (checkoutOf source)).within (placeOf source) = [] := by
  have hplace := place?_checkoutOf hd.rooted h
  rw [cleared, isThere, isFile, isFolder, hplace, removeTree, hplace]
  dsimp only [Option.any_some]
  split
  · have hhome : (d.removeAt (placeOf source)).home = d.home := by
      have hremove := d.home_removeTree (checkoutOf source)
      rwa [removeTree, hplace] at hremove
    refine ⟨⟨?_, hasFile_removeAt hd.free⟩, fun x hx => ?_, within_removeAt (by simp [placeOf])⟩
    · rw [Rooted, hhome]
      exact hd.rooted
    · exact within_removeAt_of_ne rfl (by simp) hx
  · rename_i hthere
    rw [Bool.or_eq_true, not_or, Bool.not_eq_true, Bool.not_eq_true] at hthere
    exact ⟨hd, fun _ _ => rfl, within_eq_nil hthere.1 hthere.2⟩

variable {F : Fetch}

theorem filesBelow_of_place? {path : String} {p : Place} (h : d.place? path = some p) :
    d.filesBelow path = ((d.filesAt p).map fun f => (Text.join "/" f.1, f.2)).mergeSort
      fun a b => Text.atMost a.1 b.1 := by
  rw [filesBelow, h]

theorem checkout_eq (F : Fetch) : F.checkout =
    (((Disk.withFiles { home := "/" } F.files).filesAt []).map fun f =>
      (Text.join "/" f.1, f.2)).mergeSort fun a b => Text.atMost a.1 b.1 := by
  refine filesBelow_of_place? ?_
  have hrooted : (Disk.withFiles { home := "/" } F.files).Rooted := by
    rw [Rooted, home_withFiles]
    decide
  exact place?_of_names hrooted (by decide) (by simp)

/-- What a fetch leaves where files can stand already. -/
theorem withFiles_filesIn (hd : d.Open) (hwithin : d.within (placeOf source) = [])
    (h : IsAddress source) (hF : F.Succeeds) :
    (d.withFiles (F.filesIn (checkoutOf source))).Open ∧
      (d.withFiles (F.filesIn (checkoutOf source))).hasFile (placeOf source) = false ∧
      d.SameElsewhere (d.withFiles (F.filesIn (checkoutOf source))) := by
  have hfile : d.hasFile (placeOf source) = false := by
    have hentry : Disk.entry? d (placeOf source) = none := by
      rw [← entry?_within (p := placeOf source) (List.isPrefixOf_iff_prefix.mpr
        (List.prefix_refl _)), hwithin]
      rfl
    rw [hasFile, hentry]
  refine withFiles_under_induction h.ofString_checkoutOf h.isName hF.inner hd.rooted
    (P := fun e => e.Open ∧ e.hasFile (placeOf source) = false ∧ d.SameElsewhere e)
    ⟨hd, hfile, fun _ _ => rfl⟩ ?_
  rintro e q c - hq ⟨hopen, hfile, hsame⟩
  obtain ⟨y, q, rfl⟩ := List.exists_cons_of_ne_nil hq
  refine ⟨⟨hopen.rooted, ?_⟩, ?_, fun x hx => (within_put_elsewhere ?_).trans (hsame x hx)⟩
  · rw [hasFile, entry?_put_of_ne (by simp [placeOf])]
    exact hopen.free
  · rw [hasFile, entry?_put_of_ne (by simp)]
    exact hfile
  · simp [placeOf, List.isPrefixOf, hx]

/-- A fetch that succeeds leaves its files in the folder of the repository. -/
theorem exists_holds (hd : d.Open) (hwithin : d.within (placeOf source) = [])
    (h : IsAddress source) (hF : F.Succeeds) :
    ∃ e, (d.withFiles (F.filesIn (checkoutOf source))).makeFolders (checkoutOf source) = .ok e ∧
      e.Holds source F.checkout ∧ d.SameElsewhere e := by
  obtain ⟨hopen, hfile, hsame⟩ := withFiles_filesIn hd hwithin h hF
  have hfiles : (d.withFiles (F.filesIn (checkoutOf source))).filesAt (placeOf source) =
      (Disk.withFiles { home := "/" } F.files).filesAt [] :=
    filesAt_withFiles_under h.ofString_checkoutOf h.isName hF.inner hd.rooted (by decide) hwithin
      rfl
  generalize d.withFiles (F.filesIn (checkoutOf source)) = m at hopen hfile hsame hfiles
  rw [makeFolders, place?_checkoutOf hopen.rooted h]
  dsimp only
  split
  · rename_i hfolder
    refine ⟨m, rfl, ⟨hopen, hfolder, ?_⟩, hsame⟩
    rw [filesBelow_of_place? (place?_checkoutOf hopen.rooted h), hfiles, checkout_eq]
  · rw [hfile, placeOf, not_blocked hopen, ← placeOf]
    have hput : (m.put (placeOf source) .folder).Open :=
      ⟨hopen.rooted, hasFile_put_folder hopen.free⟩
    refine ⟨m.put (placeOf source) .folder, rfl, ⟨hput, ?_, ?_⟩, fun x hx => ?_⟩
    · simp [hasFolder, entry?_put_self]
    · rw [filesBelow_of_place? (place?_checkoutOf hput.rooted h), filesAt_put_folder, hfiles,
        checkout_eq]
    · rw [within_put_elsewhere, hsame x hx]
      simp [placeOf, List.isPrefixOf, hx]

/-- What an address reads as is on a disk if it was there before. -/
theorem isThere_of_sameElsewhere (hd : d.Rooted) (he : e.Rooted) (h : IsAddress source)
    (hsame : d.SameElsewhere e) (hthere : d.isThere (Path.normal source) = false) :
    e.isThere (Path.normal source) = false := by
  have hnames : ∀ x ∈ (Path.ofString source).parts, IsName x :=
    fun _ => Path.isName_of_mem_parts h.points
  have hpath : Path.ofString (Path.normal source) = ⟨"", (Path.ofString source).parts⟩ := by
    rw [Path.normal, Path.ofString_text (Path.clean_ofString source), ← h.root]
  rw [isThere, isFile, isFolder, place?_of_names hd hpath hnames] at hthere
  rw [isThere, isFile, isFolder, place?_of_names he hpath hnames]
  dsimp only [Option.any_some] at hthere ⊢
  cases hparts : (Path.ofString source).parts with
  | nil =>
    rw [hparts] at hthere
    simp [hasFolder] at hthere
  | cons x rest =>
    have hx : x ≠ "temp_repos" := fun hx => h.elsewhere (by rw [hparts, hx]; rfl)
    have hstart : [x].isPrefixOf (x :: rest) = true := by simp [List.isPrefixOf]
    rw [hparts] at hthere
    rwa [hasFile_congr (hsame x hx) hstart, hasFolder_congr (hsame x hx) hstart]

end Disk

/-! ### Reading a repository -/

structure World.CanFetch (w : World) : Prop where
  supported : w.repositories.supported = true
  disk : w.disk.Open

namespace Repository

variable {w : World} {source : String} {files : List (String × Content)} {F G : Fetch}
  {rest : List Fetch}

/-- The address of a repository that was never fetched. -/
structure IsNew (w : World) (source : String) : Prop extends IsAddress source where
  absent : w.disk.isThere (Path.normal source) = false
  unfetched : checkoutOf source ∉ w.repositories.valid

theorem isThere_of_holds (h : IsAddress source) (hholds : w.disk.Holds source files) :
    w.disk.isThere (checkoutOf source) = true := by
  rw [Disk.isThere, Disk.isFolder, Disk.place?_checkoutOf hholds.rooted h]
  simp [hholds.folder]

section Held

variable (hsupported : w.repositories.supported = true) (h : IsAddress source)
  (hholds : w.disk.Holds source files) (hvalid : checkoutOf source ∈ w.repositories.valid)

include hsupported h hholds hvalid

/-- A repository that is located in its folder is located there once more. -/
theorem leads_access_checkoutOf (branch : Option String) :
    Leads (access (checkoutOf source) branch) w (checkoutOf source) w.ground :=
  leads_access (leads_locate_of_isThere hsupported (isThere_of_holds h hholds) hvalid
    h.normal_checkoutOf branch)

/-- A repository whose folder is one already gives the files that stand there. -/
theorem read_of_held (habsent : w.disk.isThere (Path.normal source) = false) (s : Selection)
    (branch : Option String) :
    ((read s source branch).runIn w).1 = Reader.chosen s (checkoutOf source) files := by
  have hthere := isThere_of_holds h hholds
  have hparent : w.disk.makeFolders (Path.ofString (checkoutOf source)).parent.text =
      .ok w.disk := by
    obtain ⟨e, hmake, -, -, hsame⟩ := Disk.makeFolders_top hholds.toOpen
    have htop := Disk.hasFolder_above hholds.folder (p := ["temp_repos"]) (by
      simp [placeOf, List.isPrefixOf])
    rw [h.parent_checkoutOf, hmake, hsame htop]
  have hcheckOut := leads_checkOut_of_valid hparent hthere hvalid branch
  have haccess := leads_access (leads_locate hsupported habsent hcheckOut)
  have hread := read_of_leads s h.normal_checkoutOf haccess fun v hv => ?_
  · rw [hread.1, ← hholds.files]
    rfl
  · obtain ⟨hdisk, hsupported', hvalid', -⟩ := Ground.mk.inj hv
    rw [← hv]
    exact leads_access_checkoutOf (hsupported'.trans hsupported) h (hdisk ▸ hholds)
      (hvalid' ▸ hvalid) branch

end Held

/-- A repository that was never fetched gives the files of its fetch, and leaves them in its
folder. -/
theorem read_of_new (hw : w.CanFetch) (h : IsNew w source)
    (hfetches : w.repositories.fetches = F :: rest) (hF : F.Succeeds) (s : Selection)
    (branch : Option String) :
    ((read s source branch).runIn w).1 = Reader.chosen s (checkoutOf source) F.checkout ∧
      ∃ d : Disk, d.Holds source F.checkout ∧ w.disk.SameElsewhere d ∧
        ((read s source branch).runIn w).2.ground =
          ⟨d, true, w.repositories.valid ++ [checkoutOf source], rest⟩ := by
  obtain ⟨e, hmake, hopen, hsame, -⟩ := Disk.makeFolders_top hw.disk
  obtain ⟨hcleared, hsame', hwithin⟩ := Disk.open_cleared hopen h.toIsAddress
  obtain ⟨d, hfetched, hholds, hsame''⟩ := Disk.exists_holds hcleared hwithin h.toIsAddress hF
  rw [← h.parent_checkoutOf] at hmake
  have hcheckOut :=
    leads_checkOut_of_not_valid hmake h.unfetched hfetches hF.failure hfetched branch
  have haccess := leads_access (leads_locate hw.supported h.absent hcheckOut)
  rw [hw.supported] at haccess
  have hread := read_of_leads s h.normal_checkoutOf haccess fun v hv => ?_
  · refine ⟨hread.1.trans ?_, d, hholds, fun x hx => ?_, hread.2⟩
    · rw [hholds.files]
    · rw [hsame'' x hx, hsame' x hx, hsame x hx]
  · obtain ⟨hdisk, hsupported, hvalid, -⟩ := Ground.mk.inj hv
    rw [← hv]
    exact leads_access_checkoutOf hsupported h.toIsAddress (hdisk ▸ hholds)
      (by rw [hvalid]; simp) branch

theorem checkoutOf_congr {first second : String} (h : nameOf second = nameOf first) :
    checkoutOf second = checkoutOf first := by
  rw [checkoutOf, checkoutOf, folderFor, folderFor, ← nameOf, ← nameOf, h]

theorem nameOf_of_checkoutOf {first second : String} (hfirst : IsAddress first)
    (hsecond : IsAddress second) (h : checkoutOf second = checkoutOf first) :
    nameOf second = nameOf first := by
  have hplace : placeOf second = placeOf first := by
    have hpath := hsecond.ofString_checkoutOf
    rw [h, hfirst.ofString_checkoutOf] at hpath
    exact (Path.mk.inj hpath).2.symm
  simpa [placeOf] using hplace

/-! ### Reading two repositories -/

section Two

variable {first second : String} (hw : w.CanFetch) (hfirst : IsNew w first)
  (hsecond : IsNew w second) (hF : F.Succeeds) (s t : Selection) (branch branch' : Option String)

include hw hfirst hsecond hF

theorem absent_after_read (hfetches : w.repositories.fetches = F :: rest) :
    ((read s first branch).runIn w).2.disk.isThere (Path.normal second) = false := by
  obtain ⟨-, d, hholds, hsame, hground⟩ := read_of_new hw hfirst hfetches hF s branch
  rw [show ((read s first branch).runIn w).2.disk = d from congrArg Ground.disk hground]
  exact Disk.isThere_of_sameElsewhere hw.disk.rooted hholds.rooted hsecond.toIsAddress hsame
    hsecond.absent

theorem read_after_same_name (hfetches : w.repositories.fetches = F :: rest)
    (hname : nameOf second = nameOf first) :
    ((read t second branch').runIn ((read s first branch).runIn w).2).1 =
      Reader.chosen t (checkoutOf second) F.checkout := by
  have habsent := absent_after_read hw hfirst hsecond hF s branch hfetches
  obtain ⟨-, d, hholds, -, hground⟩ := read_of_new hw hfirst hfetches hF s branch
  generalize ((read s first branch).runIn w).2 = v at habsent hground
  obtain ⟨hdisk, hsupported, hvalid, -⟩ := Ground.mk.inj hground
  have hholds' : v.disk.Holds second F.checkout := by
    rw [hdisk]
    refine ⟨hholds.toOpen, ?_, ?_⟩
    · rw [placeOf, hname]
      exact hholds.folder
    · rw [checkoutOf_congr hname]
      exact hholds.files
  refine read_of_held hsupported hsecond.toIsAddress hholds' ?_ habsent t branch'
  rw [hvalid, checkoutOf_congr hname]
  simp

/-- After a repository of another name, a repository gives the files of its own fetch. -/
theorem read_after_other_name (hfetches : w.repositories.fetches = F :: G :: rest)
    (hG : G.Succeeds) (hname : nameOf second ≠ nameOf first) :
    ((read t second branch').runIn ((read s first branch).runIn w).2).1 =
      Reader.chosen t (checkoutOf second) G.checkout := by
  have habsent := absent_after_read hw hfirst hsecond hF s branch hfetches
  obtain ⟨-, d, hholds, -, hground⟩ := read_of_new hw hfirst hfetches hF s branch
  generalize ((read s first branch).runIn w).2 = v at habsent hground
  obtain ⟨hdisk, hsupported, hvalid, hrest⟩ := Ground.mk.inj hground
  have hnew : IsNew v second := by
    refine ⟨hsecond.toIsAddress, habsent, ?_⟩
    rw [hvalid, List.mem_append, List.mem_singleton]
    rintro (hmem | heq)
    · exact hsecond.unfetched hmem
    · exact hname (nameOf_of_checkoutOf hfirst.toIsAddress hsecond.toIsAddress heq)
  exact (read_of_new ⟨hsupported, hdisk ▸ hholds.toOpen⟩ hnew hrest hG t branch').1

end Two

def bringing (name text : String) : Fetch where
  files := [(name, .text text)]

section Bringing

variable {name : String} (h : IsName name) (text : String)

include h

theorem succeeds_bringing : (bringing name text).Succeeds := by
  have hpath : Path.ofString name = ⟨"", [name]⟩ := Path.ofString_name h
  refine ⟨rfl, fun f hf => ?_⟩
  obtain rfl : f = (name, .text text) := by simpa [bringing] using hf
  refine ⟨by rw [hpath], by simp [hpath], ?_⟩
  rw [hpath]
  simpa using h.ne_points.symm

theorem checkout_bringing : (bringing name text).checkout = [(name, .text text)] := by
  have hwith : Disk.withFiles { home := "/" } (bringing name text).files =
      ({ home := "/" } : Disk).put [name] (.file (.text text)) :=
    Disk.withFiles_cons (by decide) (Path.ofString_name h) (by simpa using h) _ []
  rw [Disk.checkout_eq, hwith]
  simp [Disk.put, Disk.filesAt, Text.join_singleton]

end Bringing

def twoFetches : World where
  disk := { home := "/w" }
  repositories := { fetches := [bringing "A.java" "class A {}", bringing "B.java" "class B {}"] }

theorem canFetch_twoFetches : twoFetches.CanFetch := ⟨rfl, ⟨by decide, rfl⟩⟩

theorem isNew_twoFetches {source : String} (h : IsAddress source)
    (habsent : twoFetches.disk.isThere (Path.normal source) = false) : IsNew twoFetches source :=
  ⟨h, habsent, by simp [twoFetches]⟩

theorem succeeds_twoFetches :
    (bringing "A.java" "class A {}").Succeeds ∧ (bringing "B.java" "class B {}").Succeeds :=
  ⟨succeeds_bringing (by decide) _, succeeds_bringing (by decide) _⟩

/-- All files of one language are taken. -/
def javaFiles : Selection where
  config := .record [("extensions", .record [("java", .texts [".java"])])]
  exclude := .list []
  included := .list []
  limit := .whole 1000

def texts (read : Outcome (List SourceFile)) : Option (List (Option String)) :=
  read.toOption.map (·.map fun f => f.content.bind (·.text?))

end Repository

end CodeScribe

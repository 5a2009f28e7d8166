import CodeScribe.Proofs.Text.Search
import CodeScribe.Proofs.Text.Substitution
import CodeScribe.Proofs.Workspace.Checkout

/-!
# The addresses at which a repository is looked for

An address is read as a path before it is used, and a secure one that cannot be fetched is rewritten
into a web address.  Both change the colons and slashes of it, so it is not always the address that
was given, and not always one of the web, that is tried.

* `Repository.secure_addresses_tried` — which addresses are tried for them.
-/

namespace CodeScribe

open CodeScribe.Frame Work World
open CodeScribe.Path (IsName)

/-! ### What was tried -/

def Deed.fetch? : Deed → Option (String × String)
  | fetch url path => some (url, path)
  | opening _ | update | switch _ | removal _ => none

namespace World

/-- The fetches that were tried, oldest first, with their addresses and folders. -/
def tried (w : World) : List (String × String) :=
  w.repositories.journal.filterMap (·.deed.fetch?)

/-- The fetch that comes next; without one, fetching fails. -/
def nextFetch (w : World) : Fetch :=
  w.repositories.fetches.head?.getD { failure := some "no clone scripted" }

def triedFrame : Frame World := .view tried

theorem tried_note (deed : Deed) (w : World) :
    ((Repository.note deed).runIn w).2.tried = w.tried ++ deed.fetch?.toList := by
  have hjournal : ((Repository.note deed).runIn w).2.repositories.journal =
      w.repositories.journal ++ [⟨deed, w.disk, w.repositories.valid⟩] := rfl
  rw [tried, hjournal, List.filterMap_append, tried]
  cases deed <;> rfl

theorem triedFrame_allowsReading : AllowsReading triedFrame where
  print _ := keeps_modify fun _ => rfl
  note deed hdeed w := by
    refine (tried_note deed w).trans ?_
    cases deed with
    | fetch url path => cases hdeed
    | removal path => cases hdeed
    | opening path => exact List.append_nil _
    | update => exact List.append_nil _
    | switch branch => exact List.append_nil _
  noteRemoval path w := (tried_note (.removal path) w).trans (List.append_nil _)
  changeDisk _ _ := keeps_disk.bind fun _ => (keeps_ofOutcome _).bind fun _ =>
    keeps_modify fun _ => rfl

theorem triedFrame_makeFolders (path : String) :
    triedFrame.Keeps (changeDisk (·.makeFolders path)) :=
  triedFrame_allowsReading.changeDisk _ fun _ _ => Disk.home_makeFolders

end World

namespace Work

theorem exists_runIn_print_bind {β : Type} (line : String) (f : Unit → Work β) (w : World) :
    ∃ v : World, v.tried = w.tried ∧ v.ground = w.ground ∧
      (print line >>= f).runIn w = (f ()).runIn v :=
  ⟨((print line).runIn w).2, rfl, rfl, rfl⟩

end Work

/-- A path and its normal text lead to the same place. -/
theorem Disk.isThere_normal (d : Disk) (path : String) :
    d.isThere (Path.normal path) = d.isThere path := by
  have hplace : d.place? (Path.normal path) = d.place? path := by
    rw [place?, Path.normal, Path.ofString_text (Path.clean_ofString path), place?]
  rw [isThere, isFile, isFolder, hplace, isThere, isFile, isFolder]

namespace Repository

variable {w : World} {url path source : String}

/-- However it ends, a fetch tries its address once. -/
theorem tried_fetch (url path : String) (w : World) :
    ((fetch url path).runIn w).2.tried = w.tried ++ [(url, path)] := by
  have hvalid (valid : World → List String) : triedFrame.Keeps (modify fun w =>
      { w with repositories := { w.repositories with valid := valid w } } : Work Unit) :=
    keeps_modify fun _ => rfl
  refine Eq.trans (rel_bind_of_keeps (F := triedFrame) (fun _ => ?_) _ w)
    (tried_note (.fetch url path) w)
  refine keeps_get_set (fun _ => rfl) fun w => ?_
  split
  · exact (hvalid _).bind fun _ => keeps_throw _
  · exact (triedFrame_makeFolders path).bind fun _ => (hvalid _).bind fun _ =>
      keeps_openAt triedFrame_allowsReading.toAllowsNotes path

theorem fst_runIn_fetch_of_failure {reason : String} (h : w.nextFetch.failure = some reason)
    (url path : String) : ((fetch url path).runIn w).1 = .error (.failed reason) := by
  unfold fetch
  rw [runIn_bind_ok (show (note (.fetch url path)).runIn w = (.ok (), _) from rfl)]
  rw [runIn_bind_ok (show (get : Work World).runIn _ = (.ok _, _) from rfl)]
  dsimp only
  rw [runIn_bind_ok (show (set _ : Work PUnit).runIn _ = (.ok (), _) from rfl)]
  split
  case h_1 hreason =>
    rw [Option.some.inj (h.symm.trans hreason)]
    rfl
  case h_2 hnone => cases h.symm.trans hnone

theorem fst_runIn_clear (path : String) (w : World) : ((clear path).runIn w).1 = .ok () := by
  unfold clear
  rw [runIn_bind_ok (show disk.runIn w = (.ok w.disk, w) from rfl)]
  split
  · rw [runIn_attempt_bind]
    cases ((openAt path).runIn w).1 <;> rfl
  · rfl

theorem tried_clear_fetch (url path : String) (w : World) :
    ((do clear path; fetch url path : Work Unit).runIn w).2.tried = w.tried ++ [(url, path)] := by
  have hclear : (clear path).runIn w = (.ok (), ((clear path).runIn w).2) :=
    Prod.ext (fst_runIn_clear path w) rfl
  have hkeeps : ((clear path).runIn w).2.tried = w.tried :=
    keeps_clear triedFrame_allowsReading path w
  rw [runIn_bind_ok hclear, tried_fetch, hkeeps]

theorem tried_fetchAnyway_of_ok (h : isSecure url = false ∨
    ∀ v, v.ground = w.ground → ((fetch url path).runIn v).1 = .ok ()) :
    ((fetchAnyway url path).runIn w).2.tried = w.tried ++ [(url, path)] := by
  unfold fetchAnyway
  obtain ⟨v, hv, hground, hrun⟩ := exists_runIn_print_bind _ _ w
  rw [hrun, ← hv, ← tried_fetch]
  split
  · rfl
  · rename_i hsecure
    have hok := h.resolve_left (by simpa using hsecure)
    rw [runIn_attempt_bind, hok v hground]
    rfl

theorem tried_fetchAnyway_of_error {fault : Fault} (hsecure : isSecure url = true)
    (hweb : hasWebAddress url = true)
    (herror : ∀ v, v.ground = w.ground → ((fetch url path).runIn v).1 = .error fault) :
    ((fetchAnyway url path).runIn w).2.tried =
      w.tried ++ [(url, path), (webAddress url, path)] := by
  unfold fetchAnyway
  obtain ⟨v, hv, hground, hrun⟩ := exists_runIn_print_bind _ _ w
  rw [hrun, hsecure, if_neg (by decide), runIn_attempt_bind, herror v hground]
  dsimp only
  rw [if_pos hweb]
  obtain ⟨u, hu, -, hrun'⟩ := exists_runIn_print_bind _ _ ((fetch url path).runIn v).2
  rw [hrun', runIn_attempt_bind]
  have hagain := tried_clear_fetch (webAddress url) path u
  rw [hu, tried_fetch, hv, List.append_assoc, List.singleton_append] at hagain
  rw [← hagain]
  cases (Work.runIn (do clear path; fetch (webAddress url) path) u).1 <;> rfl

/-! ### Coming to a fetch -/

theorem runIn_locate (hsupported : w.repositories.supported = true)
    (habsent : w.disk.isThere (Path.normal source) = false) (branch : Option String) :
    (locate source branch).runIn w = (checkOut source branch).runIn w := by
  unfold locate
  rw [runIn_bind_ok (show Work.runIn get w = (.ok w, w) from rfl), hsupported, if_neg (by decide),
    runIn_bind_ok (show disk.runIn w = (.ok w.disk, w) from rfl)]
  simp only [habsent]
  rfl

/-- A repository that was never fetched comes to be fetched, into an empty folder. -/
theorem exists_before_fetch (hw : w.CanFetch) (h : IsNew w source) (branch : Option String) :
    ∃ v : World, v.tried = w.tried ∧ v.repositories.fetches = w.repositories.fetches ∧
      v.disk.Open ∧ v.disk.within (placeOf source) = [] ∧
      ((access source branch).runIn w).2.tried =
        ((fetchAnyway (fullAddress (Path.normal source)) (checkoutOf source)).runIn v).2.tried := by
  obtain ⟨e, hmake, hopen, -, -⟩ := Disk.makeFolders_top hw.disk
  obtain ⟨hcleared, -, hwithin⟩ := Disk.open_cleared hopen h.toIsAddress
  rw [← h.parent_checkoutOf] at hmake
  obtain ⟨u, hrun, hu⟩ := leads_makeFolders hmake
  obtain ⟨hdisk, -, hvalid, hfetches⟩ := Ground.mk.inj hu
  have hunfetched : checkoutOf source ∉ u.repositories.valid := hvalid ▸ h.unfetched
  obtain ⟨v, hrun', hv⟩ := leads_reuse_of_not_valid hunfetched
  obtain ⟨hdisk', -, -, hfetches'⟩ := Ground.mk.inj hv
  rw [hdisk] at hdisk'
  refine ⟨v, ?_, hfetches'.trans hfetches, hdisk' ▸ hcleared, hdisk' ▸ hwithin, ?_⟩
  · exact Eq.trans (rel_of_runIn (keeps_reuse triedFrame_allowsReading _) hrun')
      (rel_of_runIn (triedFrame_makeFolders _) hrun)
  · have haccess : ((access source branch).runIn w).2.tried =
        ((locate source branch).runIn w).2.tried :=
      rel_bind_of_keeps (F := triedFrame) (fun r => by cases r <;> exact triedFrame.refl) _ w
    rw [haccess, runIn_locate hw.supported h.absent]
    unfold checkOut
    rw [runIn_bind_ok hrun, runIn_bind_ok hrun']
    exact rel_bind_of_keeps (F := triedFrame) (fun _ =>
      (keeps_tryBranch triedFrame_allowsReading.toAllowsNotes branch).bind fun _ =>
        keeps_pure _) _ v

theorem tried_access_of_failure (hw : w.CanFetch) (h : IsNew w source) (branch : Option String)
    (hurl : fullAddress (Path.normal source) = url) (hsecure : isSecure url = true)
    (hweb : hasWebAddress url = true) (hfailure : w.nextFetch.failure ≠ none) :
    ((access source branch).runIn w).2.tried =
      w.tried ++ [(url, checkoutOf source), (webAddress url, checkoutOf source)] := by
  obtain ⟨reason, hreason⟩ := Option.ne_none_iff_exists'.mp hfailure
  obtain ⟨v, htried, hfetches, -, -, haccess⟩ := exists_before_fetch hw h branch
  rw [haccess, hurl, ← htried]
  have herror (u : World) (hu : u.ground = v.ground) :
      ((fetch url (checkoutOf source)).runIn u).1 = .error (.failed reason) := by
    have hnext : u.nextFetch = w.nextFetch := by
      rw [nextFetch, nextFetch, ← hfetches]
      exact congrArg (fun g : Ground => g.fetches.head?.getD _) hu
    exact fst_runIn_fetch_of_failure (hnext ▸ hreason) _ _
  exact tried_fetchAnyway_of_error hsecure hweb herror

theorem tried_access_of_succeeds (hw : w.CanFetch) (h : IsNew w source) (branch : Option String)
    (hfetch : w.nextFetch.Succeeds) :
    ((access source branch).runIn w).2.tried =
      w.tried ++ [(fullAddress (Path.normal source), checkoutOf source)] := by
  obtain ⟨v, htried, hfetches, hopen, hwithin, haccess⟩ := exists_before_fetch hw h branch
  obtain ⟨d, hmake, -, -⟩ := Disk.exists_holds hopen hwithin h.toIsAddress hfetch
  rw [haccess, ← htried]
  refine tried_fetchAnyway_of_ok (.inr fun u hu => ?_)
  obtain ⟨hdisk, -, -, hfetches'⟩ := Ground.mk.inj hu
  cases hlist : w.repositories.fetches with
  | nil =>
    have hnone := hfetch.failure
    rw [nextFetch, hlist] at hnone
    cases hnone
  | cons F rest =>
    have hnext : w.nextFetch = F := by
      rw [nextFetch, hlist]
      rfl
    rw [hnext] at hmake hfetch
    obtain ⟨t, hrun, -⟩ := leads_fetch (hfetches'.trans (hfetches.trans hlist)) hfetch.failure
      (hdisk ▸ hmake) (fullAddress (Path.normal source))
    exact congrArg Prod.fst hrun

theorem tried_access_of_not_secure (hw : w.CanFetch) (h : IsNew w source) (branch : Option String)
    (hsecure : isSecure (fullAddress (Path.normal source)) = false) :
    ((access source branch).runIn w).2.tried =
      w.tried ++ [(fullAddress (Path.normal source), checkoutOf source)] := by
  obtain ⟨v, htried, -, -, -, haccess⟩ := exists_before_fetch hw h branch
  rw [haccess, ← htried]
  exact tried_fetchAnyway_of_ok (.inl hsecure)

/-! ### Secure addresses -/

theorem mendSlash_eq_self {head : String} (p : Pattern) {cs : List Char}
    (h : ¬ head.toList <+: cs) : mendSlash (.lit head ++ p) cs = cs := by
  have hanchored : (oneSlash (.lit head ++ p)).Anchored :=
    ((Pattern.anchored_textStart.append _).append _).append _
  refine hanchored.replaceAll_eq_self _ ?_
  show (Pattern.lit head).run _ _ = none
  rw [Pattern.run_lit]
  exact if_neg fun hhead => h (List.isPrefixOf_iff_prefix.mp hhead)

/-- An address of another protocol is taken as it is. -/
theorem fullAddress_eq_self (h : url.toList.head? ≠ some 'h') : fullAddress url = url := by
  have hnot (w : List Char) : ¬ 'h' :: w <+: url.toList := by
    rintro ⟨rest, hrest⟩
    rw [← hrest] at h
    simp at h
  have hfirst : mendSlash (.lit "http" ++ .opt (.char 's')) url.toList = url.toList :=
    mendSlash_eq_self _ (hnot _)
  have hsecond : mendSlash (.lit "htt" ++ .opt (.char 'p')) url.toList = url.toList :=
    mendSlash_eq_self _ (hnot _)
  have hweb : Text.startsWith url "http" = false := by
    rw [Text.startsWith, Bool.eq_false_iff]
    exact fun hw => hnot _ (List.isPrefixOf_iff_prefix.mp hw)
  simp only [fullAddress, hfirst, hsecond, String.ofList_toList, hweb, Bool.false_and,
    if_neg Bool.false_ne_true]

/-- The web address in place of a secure one that holds no second mark: all its colons become
slashes. -/
theorem toList_webAddress {rest : List Char} (hurl : url.toList = ['g', 'i', 't', '@'] ++ rest)
    (hmark : '@' ∉ rest) : (webAddress url).toList =
      (['h', 't', 't', 'p', 's', ':', '/', '/'] ++ rest).map fun c =>
        if c = ':' then '/' else c := by
  have hfirst : (Text.replace url "git@" "https://").toList =
      ['h', 't', 't', 'p', 's', ':', '/', '/'] ++ rest := by
    have hrest : Chars.replace ['g', 'i', 't', '@'] ['h', 't', 't', 'p', 's', ':', '/', '/'] rest =
        rest := Chars.replace_eq_self fun hin => hmark (hin.subset (by decide))
    rw [Text.toList_replace, hurl]
    exact (Chars.replace_old_append (by simp) rest).trans (congrArg _ hrest)
  have hsecond : Text.replace (Text.replace url "git@" "https://") "ssh://git@" "https://" =
      Text.replace url "git@" "https://" := by
    refine Text.replace_eq_self (fun hin => ?_) _
    have hmem := hin.subset (show '@' ∈ "ssh://git@".toList by decide)
    rw [hfirst] at hmem
    simp [hmark] at hmem
  have hthird : (Text.replace (Text.replace url "git@" "https://") ":" "/").toList =
      (['h', 't', 't', 'p', 's', ':', '/', '/'] ++ rest).map fun c =>
        if c = ':' then '/' else c := by
    rw [Text.toList_replace, hfirst]
    exact Chars.replace_singleton ':' '/' _
  have hstart : Text.startsWith (Text.replace (Text.replace url "git@" "https://") ":" "/") "http" =
      true := by
    rw [Text.startsWith, hthird, List.isPrefixOf_iff_prefix]
    exact ⟨_, rfl⟩
  rw [webAddress, hsecond, if_pos hstart, hthird]

/-- Characters of the names of owners and repositories. -/
def isNameChar (c : Char) : Bool := Text.isAlnum c || c == '-' || c == '_'

def shortAddress (owner name : String) : String :=
  "git@github.com:" ++ owner ++ "/" ++ name ++ ".git"

def longAddress (owner name : String) : String :=
  "ssh://git@github.com/" ++ owner ++ "/" ++ name ++ ".git"

/-- A name that does not start with a point and holds no slash. -/
theorem isName_of_head {x : String} {c : Char} (hhead : x.toList.head? = some c) (hc : c ≠ '.')
    (hslash : '/' ∉ x.toList) : IsName x := by
  have hne (y : String) (hy : y.toList.head? ≠ some c) : x ≠ y := fun hxy => hy (hxy ▸ hhead)
  have hpoint : some '.' ≠ some c := fun h => hc (Option.some.inj h).symm
  exact ⟨hne "" (by simp), hne "." hpoint, hne ".." hpoint, hslash⟩

/-- Behind a name, empty parts and single points are dropped. -/
theorem ofString_join_of_head {first : String} {parts : List String} (hfirst : IsName first)
    (hparts : ∀ x ∈ parts, '/' ∉ x.toList) : Path.ofString (Text.join "/" (first :: parts)) =
      ⟨"", first :: parts.filter fun x => x != "" && x != "."⟩ := by
  have hroot : Path.rootOf (Text.join "/" (first :: parts)) = "" := by
    obtain ⟨c, cs, hcs⟩ :=
      List.exists_cons_of_ne_nil (mt String.toList_eq_nil_iff.mp hfirst.ne_empty)
    have hc : c ≠ '/' := by
      rintro rfl
      exact hfirst.slash (by simp [hcs])
    obtain ⟨rest, hrest⟩ : ∃ rest, (Text.join "/" (first :: parts)).toList = c :: rest := by
      cases parts <;> simp [Text.join, hcs]
    have hempty : Path.rootOf ("" ++ Text.join "/" (first :: parts)) = "" :=
      Path.rootOf_append (.inl rfl) hrest hc
    rwa [String.empty_append] at hempty
  have hsplit : Text.splitOn (Text.join "/" (first :: parts)) "/" = first :: parts := by
    have hslash : ∀ l ∈ (first :: parts).map String.toList, '/' ∉ l := by
      simpa using ⟨hfirst.slash, hparts⟩
    rw [Path.splitOn_slash, Text.join, String.toList_intercalate, show "/".toList = ['/'] from rfl,
      List.splitOn_intercalate '/' hslash (by simp), List.map_map]
    simp [Function.comp_def]
  rw [Path.ofString, hroot, hsplit, List.filter_cons_of_pos]
  simp [hfirst.ne_empty, hfirst.ne_point]

/-- A repository is named after the last part of its address, without the ending. -/
theorem nameIn_of_parts {name : String} (hname : Text.MadeOf isNameChar name)
    {parts : List String} (hurl : Path.ofString url = ⟨"", parts ++ [name ++ ".git"]⟩) :
    nameIn url = name := by
  have hpoint : '.' ∉ name.toList := hname.not_mem (by decide)
  have hlast : (Path.ofString url).name = name ++ ".git" := by
    rw [hurl, Path.name, List.getLast?_concat]
    rfl
  have hending : (Path.ofString url).suffix = ".git" := by
    have hchars : (name ++ ".git").toList.reverse.takeWhile (· != '.') = ['t', 'i', 'g'] := by simp
    have hlength : 0 < name.length := by
      rw [← String.length_toList]
      exact List.length_pos_of_ne_nil hname.1
    have hgit : ".git".length = 4 := by decide
    rw [Path.suffix, hlast, Path.suffixOf, hchars]
    simp [hgit, hlength]
  have hstem : (Path.ofString url).stem = name := by
    rw [Path.stem, hending, hlast, Text.dropRight, String.length_append, Nat.add_sub_cancel,
      String.toList_append, List.take_left' String.length_toList, String.ofList_toList]
  have hno : Text.endsWith name ".git" = false := by
    rw [Bool.eq_false_iff]
    exact fun h => hpoint ((Chars.endsWith_iff.mp h).subset (by decide))
  have hne : (name != "") = true := by simpa using hname.ne_empty
  simp only [nameIn, hstem, hno, if_neg Bool.false_ne_true, hne, if_pos]

section Secure

variable {owner name : String} (howner : Text.MadeOf isNameChar owner)
  (hname : Text.MadeOf isNameChar name)

/-- What stands behind the first mark of a short address. -/
def hosted (owner name : String) : List Char :=
  ['g', 'i', 't', 'h', 'u', 'b', '.', 'c', 'o', 'm', ':'] ++
    (owner.toList ++ '/' :: (name.toList ++ ['.', 'g', 'i', 't']))

theorem toList_shortAddress (owner name : String) :
    (shortAddress owner name).toList = ['g', 'i', 't', '@'] ++ hosted owner name := by
  show ("git@github.com:" ++ owner ++ "/" ++ name ++ ".git").toList = _
  simp [hosted]

include hname

theorem isName_of_madeOf : IsName name := by
  obtain ⟨c, rest, hrest⟩ := List.exists_cons_of_ne_nil hname.1
  have hpoint : '.' ∉ name.toList := hname.not_mem (by decide)
  refine isName_of_head (by rw [hrest]; rfl) ?_ (hname.not_mem (by decide))
  rintro rfl
  exact hpoint (by simp [hrest])

theorem isName_repository : IsName (name ++ ".git") := by
  obtain ⟨c, rest, hrest⟩ := List.exists_cons_of_ne_nil hname.1
  have hpoint : '.' ∉ name.toList := hname.not_mem (by decide)
  have hslash : '/' ∉ name.toList := hname.not_mem (by decide)
  refine isName_of_head (c := c) ?_ ?_ ?_
  · simp [hrest]
  · rintro rfl
    exact hpoint (by simp [hrest])
  · simp [hslash]

include howner

theorem ofString_shortAddress : Path.ofString (shortAddress owner name) =
    ⟨"", ["git@github.com:" ++ owner] ++ [name ++ ".git"]⟩ := by
  have hslash : '/' ∉ owner.toList := howner.not_mem (by decide)
  have hhost : IsName ("git@github.com:" ++ owner) :=
    isName_of_head (c := 'g') (by simp) (by decide) (by simp [hslash])
  have htext : shortAddress owner name =
      Text.join "/" (["git@github.com:" ++ owner] ++ [name ++ ".git"]) := by
    show "git@github.com:" ++ owner ++ "/" ++ name ++ ".git" = _
    simp [Text.join, String.append_assoc]
  rw [htext]
  exact Path.ofString_join (by simp [hhost, isName_repository hname]) (by simp)

theorem ofString_longAddress : Path.ofString (longAddress owner name) =
    ⟨"", ["ssh:", "git@github.com", owner] ++ [name ++ ".git"]⟩ := by
  have howner' := isName_of_madeOf howner
  have hname' := isName_repository hname
  have htext : longAddress owner name =
      Text.join "/" ("ssh:" :: ["", "git@github.com", owner, name ++ ".git"]) := by
    show "ssh://git@github.com/" ++ owner ++ "/" ++ name ++ ".git" = _
    simp [Text.join, ← String.toList_inj]
  have hslash : '/' ∉ name.toList := hname.not_mem (by decide)
  rw [htext, ofString_join_of_head (by decide) (by simp [howner'.slash, hslash])]
  simp [howner'.ne_empty, howner'.ne_point, hname'.ne_empty, hname'.ne_point]

omit howner

/-- An address whose last part is that of a repository has the name of the repository. -/
theorem isAddress_of_parts {parts : List String}
    (hsource : Path.ofString source = ⟨"", parts ++ [name ++ ".git"]⟩)
    (hparts : ".." ∉ parts) (helsewhere : (parts ++ [name ++ ".git"]).head? ≠ some "temp_repos")
    (hfull : fullAddress (Path.normal source) = Path.normal source) :
    IsAddress source ∧ checkoutOf source = "temp_repos/" ++ name := by
  have hname' := isName_of_madeOf hname
  have hrepository := isName_repository hname
  have hnameOf : nameOf source = name := by
    have hnormal : Path.ofString (Path.normal source) = ⟨"", parts ++ [name ++ ".git"]⟩ := by
      rw [Path.normal, Path.ofString_text (Path.clean_ofString source), hsource]
    rw [nameOf, hfull, nameIn_of_parts hname hnormal]
  have haddress : IsAddress source := by
    refine ⟨by rw [hsource], ?_, by rwa [hsource], hnameOf ▸ hname'.ne_point,
      hnameOf ▸ hname'.ne_points⟩
    rw [hsource]
    simpa [hparts] using hrepository.ne_points.symm
  refine ⟨haddress, ?_⟩
  rw [haddress.checkoutOf_eq, placeOf, hnameOf]
  simp [Text.join]

include howner

theorem normal_shortAddress :
    Path.normal (shortAddress owner name) = shortAddress owner name := by
  rw [Path.normal, ofString_shortAddress howner hname, Path.text_names (by simp)]
  show _ = "git@github.com:" ++ owner ++ "/" ++ name ++ ".git"
  simp [Text.join, String.append_assoc]

/-- Of the two slashes behind the protocol, reading an address as a path leaves one. -/
theorem normal_longAddress : Path.normal (longAddress owner name) =
    "ssh:/git@github.com/" ++ owner ++ "/" ++ name ++ ".git" := by
  rw [Path.normal, ofString_longAddress howner hname, Path.text_names (by simp)]
  simp [Text.join, ← String.toList_inj]

theorem fullAddress_shortAddress :
    fullAddress (Path.normal (shortAddress owner name)) = shortAddress owner name := by
  rw [normal_shortAddress howner hname]
  refine fullAddress_eq_self ?_
  rw [toList_shortAddress]
  simp

theorem fullAddress_longAddress : fullAddress (Path.normal (longAddress owner name)) =
    "ssh:/git@github.com/" ++ owner ++ "/" ++ name ++ ".git" := by
  rw [normal_longAddress howner hname]
  refine fullAddress_eq_self ?_
  simp

theorem isAddress_shortAddress : IsAddress (shortAddress owner name) ∧
    checkoutOf (shortAddress owner name) = "temp_repos/" ++ name := by
  refine isAddress_of_parts hname (ofString_shortAddress howner hname) ?_ ?_ ?_
  · simp [← String.toList_inj]
  · simp [← String.toList_inj]
  · rw [fullAddress_shortAddress howner hname, normal_shortAddress howner hname]

theorem isAddress_longAddress : IsAddress (longAddress owner name) ∧
    checkoutOf (longAddress owner name) = "temp_repos/" ++ name := by
  have howner' := isName_of_madeOf howner
  refine isAddress_of_parts hname (ofString_longAddress howner hname) ?_ ?_ ?_
  · simpa using howner'.ne_points.symm
  · simp
  · rw [fullAddress_longAddress howner hname, normal_longAddress howner hname]

/-- With one slash behind its protocol, an address is not taken for a secure one. -/
theorem isSecure_longAddress :
    isSecure (fullAddress (Path.normal (longAddress owner name))) = false := by
  rw [fullAddress_longAddress howner hname]
  simp [isSecure, Text.startsWith, List.isPrefixOf]

omit hname howner

theorem isSecure_shortAddress (owner name : String) :
    isSecure (shortAddress owner name) = true := by
  have hstart : Text.startsWith (shortAddress owner name) "git@" = true := by
    rw [Text.startsWith, toList_shortAddress, List.isPrefixOf_iff_prefix]
    exact List.prefix_append _ _
  rw [isSecure, hstart, Bool.true_or]

theorem hasWebAddress_shortAddress (owner name : String) :
    hasWebAddress (shortAddress owner name) = true := by
  have hholds : Text.contains (shortAddress owner name) "github.com" = true := by
    rw [Text.contains, Chars.contains_iff_infix, toList_shortAddress]
    exact ⟨['g', 'i', 't', '@'], _, rfl⟩
  rw [hasWebAddress, hholds, Bool.true_or]

include hname howner

/-- The colon behind the host is replaced, and the one behind the protocol as well. -/
theorem webAddress_shortAddress :
    webAddress (shortAddress owner name) =
      "https///github.com/" ++ owner ++ "/" ++ name ++ ".git" := by
  have hmark : '@' ∉ hosted owner name := by
    have howner' : '@' ∉ owner.toList := howner.not_mem (by decide)
    have hname' : '@' ∉ name.toList := hname.not_mem (by decide)
    simp [hosted, howner', hname']
  have hkeep {cs : List Char} (hcs : ∀ c ∈ cs, isNameChar c = true) :
      cs.map (fun c => if c = ':' then '/' else c) = cs := by
    refine (List.map_congr_left fun c hc => ?_).trans (List.map_id cs)
    refine if_neg ?_
    rintro rfl
    exact absurd (hcs _ hc) (by decide)
  rw [← String.toList_inj, toList_webAddress (toList_shortAddress owner name) hmark]
  simp [hosted, hkeep howner.2, hkeep hname.2]

end Secure

def refusing : World where
  disk := { home := "/w" }
  repositories := { fetches := [{ failure := some "no key" }, bringing "A.java" "class A {}"] }

end Repository

end CodeScribe

import CodeScribe.Proofs.Path
import CodeScribe.Proofs.Text.Substitution
import CodeScribe.Workspace.Reader

/-!
# Which files a folder pattern leaves out

A folder pattern is the name of a folder between slashes, with double stars around it.  A path is
covered by it in two ways: the pattern fits the path as a whole, backslashes taken for slashes, or
the path holds what is left of the pattern when the double stars are gone.  The second way knows
where the name ends, but not where it begins.

* `Selection.folderPattern_excludes` — a path is left out exactly if the name of one of its folders
  ends with the name, or the name stands between two slashes or backslashes;
* `Selection.cabin_left_out` — a folder that is left out for the end of its name.
-/

namespace CodeScribe

open Pattern (noneOf)

/-! ### Plain texts between stars -/

namespace Glob

/-- Characters that a pattern does not read in a special way. -/
def isPlain (c : Char) : Bool := noneOf "*?[" c

theorem scan_plain {w : List Char} (hw : ∀ c ∈ w, isPlain c = true) (fuel : Nat)
    (rest : List Char) :
    scan (w.length + fuel) (w ++ rest) = w.map Item.char ++ scan fuel rest := by
  induction w with
  | nil => simp
  | cons c w ih =>
    obtain ⟨hc, hw⟩ := List.forall_mem_cons.mp hw
    have hspecial : c ≠ '*' ∧ c ≠ '?' ∧ c ≠ '[' := by simpa [isPlain, noneOf] using hc
    rw [List.length_cons, Nat.add_right_comm, List.cons_append, scan]
    simp [hspecial, ih hw]

/-- The pieces of a plain text between double stars. -/
theorem ofChars_enclosed {c : Char} {w : List Char} (hw : ∀ e ∈ c :: w, isPlain e = true) :
    ofChars ('*' :: '*' :: (c :: w ++ ['*', '*'])) =
      .anything :: ((c :: w).map Item.char ++ [.anything]) := by
  have hscan : scan ((c :: w).length + 2) (c :: w ++ ['*', '*']) =
      Item.char c :: (w.map Item.char ++ [.anything]) := scan_plain hw 2 ['*', '*']
  have hstar : scan ((c :: w).length + 3) ('*' :: (c :: w ++ ['*', '*'])) =
      .anything :: Item.char c :: (w.map Item.char ++ [.anything]) := by
    rw [scan, if_pos (beq_self_eq_true '*'), hscan]
  have hlength : ('*' :: '*' :: (c :: w ++ ['*', '*'])).length = (c :: w).length + 4 := by simp
  rw [ofChars, hlength, scan, if_pos (beq_self_eq_true '*'), hstar]
  rfl

theorem someEnd_iff {test : List Char → Bool} {cs : List Char} :
    someEnd test cs = true ↔ ∃ t, t <:+ cs ∧ test t = true := by
  induction cs with
  | nil => simp [someEnd]
  | cons c rest ih =>
    rw [someEnd, Bool.or_eq_true, ih]
    constructor
    · rintro (h | ⟨t, ht, h⟩)
      · exact ⟨c :: rest, List.suffix_rfl, h⟩
      · exact ⟨t, ht.trans (List.suffix_cons c rest), h⟩
    · rintro ⟨t, ht, h⟩
      rcases List.suffix_cons_iff.mp ht with rfl | ht
      · exact .inl h
      · exact .inr ⟨t, ht, h⟩

theorem fitsItems_plain (w cs : List Char) :
    fitsItems (w.map Item.char ++ [.anything]) cs = true ↔ w <+: cs := by
  induction w generalizing cs with
  | nil => exact iff_of_true (someEnd_iff.mpr ⟨[], List.nil_suffix, rfl⟩) List.nil_prefix
  | cons c w ih =>
    cases cs with
    | nil => simp [fitsItems]
    | cons d cs =>
      rw [List.cons_prefix_cons, ← ih cs, List.map_cons, List.cons_append, fitsItems,
        Item.accepts, Bool.and_eq_true, beq_iff_eq, eq_comm]
      exact nofun

/-- A plain text between stars fits exactly the texts that hold it. -/
theorem fitsItems_enclosed (w cs : List Char) :
    fitsItems (.anything :: (w.map Item.char ++ [.anything])) cs = true ↔ w <:+: cs := by
  rw [fitsItems, someEnd_iff, List.infix_iff_prefix_suffix]
  constructor
  · rintro ⟨t, ht, h⟩
    exact ⟨t, (fitsItems_plain w t).mp h, ht⟩
  · rintro ⟨t, h, ht⟩
    exact ⟨t, ht, (fitsItems_plain w t).mpr h⟩

end Glob

/-! ### Folder patterns -/

namespace Selection

def folderPattern (name : String) : String := "**/" ++ name ++ "/**"

/-- Characters of names that can stand in a folder pattern. -/
def isFolderChar (c : Char) : Bool := Glob.isPlain c && noneOf "/\\" c

/-- The names in a path text between its first and its last, backslashes separating names as well as
slashes. -/
def innerNames (path : String) : List String :=
  (Text.splitOn (Text.replace path "\\" "/") "/").tail.dropLast

variable {name : String} (h : Text.MadeOf isFolderChar name)

theorem toList_folderPattern (name : String) :
    (folderPattern name).toList = '*' :: '*' :: ('/' :: (name.toList ++ ['/']) ++ ['*', '*']) := by
  simp [folderPattern]

include h

theorem backslash_notMem_folderPattern : '\\' ∉ (folderPattern name).toList := by
  have hname : '\\' ∉ name.toList := h.not_mem (by decide)
  rw [toList_folderPattern]
  simp [hname]

theorem replace_folderPattern : Text.replace (folderPattern name) "\\" "/" = folderPattern name :=
  Text.replace_eq_self (fun hin => backslash_notMem_folderPattern h (hin.subset (by decide))) _

/-- What is left of a folder pattern without its double stars. -/
theorem legacy_folderPattern :
    (Text.replace (Text.replace (folderPattern name) "**/" "") "**" "").toList =
      name.toList ++ ['/'] := by
  have hname : '*' ∉ name.toList ++ ['/'] := by
    have hstar : '*' ∉ name.toList := h.not_mem (by decide)
    simp [hstar]
  have hfirst : Chars.replace ['*', '*', '/'] [] (folderPattern name).toList =
      name.toList ++ ['/'] ++ ['*', '*'] := by
    have htext : (folderPattern name).toList =
        ['*', '*', '/'] ++ (name.toList ++ ['/'] ++ ['*', '*']) := by simp [folderPattern]
    have hend : Chars.replace ['*', '*', '/'] [] ['*', '*'] = ['*', '*'] := by decide
    rw [htext, Chars.replace_old_append (by simp), Chars.replace_append hname, hend,
      List.nil_append]
  have hsecond : Chars.replace ['*', '*'] [] (name.toList ++ ['/'] ++ ['*', '*']) =
      name.toList ++ ['/'] := by
    have hend : Chars.replace ['*', '*'] [] ['*', '*'] = [] := by decide
    rw [Chars.replace_append hname, hend, List.append_nil]
  rw [Text.toList_replace, Text.toList_replace]
  exact (congrArg (Chars.replace ['*', '*'] []) hfirst).trans hsecond

theorem fits_folderPattern (path : String) :
    Glob.fits (folderPattern name) (Text.replace path "\\" "/") = true ↔
      name ∈ innerNames path := by
  have hslash : '/' ∉ name.toList := h.not_mem (by decide)
  have hplain : ∀ c ∈ '/' :: (name.toList ++ ['/']), Glob.isPlain c = true := by
    have hname : ∀ c ∈ name.toList, Glob.isPlain c = true :=
      fun c hc => (Bool.and_eq_true_iff.mp (h.2 c hc)).1
    have hends : Glob.isPlain '/' = true := by decide
    intro c hc
    obtain rfl | hc | rfl : c = '/' ∨ c ∈ name.toList ∨ c = '/' := by simpa using hc
    · exact hends
    · exact hname c hc
    · exact hends
  have hinner := Chars.infix_inner_iff hslash (Text.replace path "\\" "/").toList
  rw [Glob.fits, toList_folderPattern, Glob.ofChars_enclosed hplain, Glob.fitsItems_enclosed,
    hinner, innerNames, Path.splitOn_slash, ← List.map_tail, ← List.map_dropLast]
  constructor
  · intro hmem
    exact List.mem_map.mpr ⟨_, hmem, String.ofList_toList⟩
  · intro hmem
    obtain ⟨piece, hpiece, rfl⟩ := List.mem_map.mp hmem
    rwa [String.toList_ofList]

theorem contains_folderPattern (path : String) :
    Text.contains path (Text.replace (Text.replace (folderPattern name) "**/" "") "**" "") = true ↔
      ∃ folder ∈ (Text.splitOn path "/").dropLast, Text.endsWith folder name = true := by
  have hslash : '/' ∉ name.toList := h.not_mem (by decide)
  have hends := Chars.infix_end_iff hslash path.toList
  rw [Text.contains, legacy_folderPattern h, Chars.contains_iff_infix, hends, Path.splitOn_slash,
    ← List.map_dropLast]
  simp only [List.mem_map, exists_exists_and_eq_and, Text.endsWith, Chars.endsWith_iff,
    String.toList_ofList]

theorem covers_folderPattern (path : String) : covers (folderPattern name) path =
    ((Text.splitOn path "/").dropLast.any (Text.endsWith · name) ||
      (innerNames path).contains name) := by
  rw [covers, replace_folderPattern h, Bool.or_comm, Bool.eq_iff_iff, Bool.or_eq_true,
    Bool.or_eq_true, fits_folderPattern h, contains_folderPattern h, List.any_eq_true,
    List.contains_iff_mem]

omit h

theorem excludes_of_texts_singleton {s : Selection} {pattern : String}
    (hs : s.exclude = .texts [pattern]) (path : String) :
    s.excludes path = .ok (covers pattern path) := by
  have hitems : s.exclude.each = .ok [.text pattern] := by
    rw [hs]
    rfl
  simp only [excludes, hitems, coveredBy, Value.textFor, bind, Except.bind, pure, Except.pure]
  cases covers pattern path <;> rfl

/-- The folders on the way to what a relative path names. -/
theorem splitOn_normal {path : String} (hroot : (Path.ofString path).root = "") :
    (Text.splitOn (Path.normal path) "/").dropLast = (Path.ofString path).parent.parts := by
  have hclean := Path.clean_ofString path
  rw [Path.normal, Path.text, hroot, Path.parent]
  by_cases hne : (Path.ofString path).parts = []
  · rw [hne]
    exact (by decide : (Text.splitOn "." "/").dropLast = [])
  · have hempty : (Path.ofString path).parts.isEmpty = false := by simpa using hne
    rw [hempty, if_neg Bool.false_ne_true, String.empty_append, Path.splitOn_slash,
      hclean.splitOn_join hne, List.map_map]
    simp [Function.comp_def]

include h

/-- A relative path is left out by a folder pattern exactly if the name of one of its folders ends
with the name in the pattern, or if that name stands between slashes or backslashes. -/
theorem folderPattern_excludes {s : Selection} (hs : s.exclude = .texts [folderPattern name])
    {path : String} (hroot : (Path.ofString path).root = "") :
    s.excludes (Path.normal path) =
      .ok ((Path.ofString path).parent.parts.any (Text.endsWith · name) ||
        (innerNames (Path.normal path)).contains name) := by
  rw [excludes_of_texts_singleton hs, covers_folderPattern h, splitOn_normal hroot]

omit h

/-- All files are taken but those that one folder pattern covers. -/
def without (name : String) : Selection where
  config := .map []
  exclude := .texts [folderPattern name]
  included := .list []
  limit := .whole 1000

/-- What is in a folder is left out at the top and below other folders, and a file of that name is
taken. -/
theorem bin_left_out : Text.MadeOf isFolderChar "bin" ∧
    (without "bin").excludes (Path.normal "bin/x.cs") = .ok true ∧
    (without "bin").excludes (Path.normal "./src//bin/x.cs") = .ok true ∧
    (without "bin").excludes (Path.normal "src/bin") = .ok false := by
  have hname : Text.MadeOf isFolderChar "bin" := by decide
  refine ⟨hname, ?_, ?_, ?_⟩
  · exact (folderPattern_excludes hname rfl (by decide)).trans (congrArg _ (by decide))
  · exact (folderPattern_excludes hname rfl (by decide)).trans (congrArg _ (by decide))
  · exact (folderPattern_excludes hname rfl (by decide)).trans (congrArg _ (by decide))

/-- A folder of another name is left out as well if its name has the same end. -/
theorem cabin_left_out : (without "bin").excludes (Path.normal "cabin/x.cs") = .ok true ∧
    (Path.ofString "cabin/x.cs").parent.parts = ["cabin"] ∧ "bin" ∉ ["cabin"] := by
  have hcovers : covers (folderPattern "bin") (Path.normal "cabin/x.cs") = true := by
    decide
  exact ⟨(excludes_of_texts_singleton rfl _).trans (congrArg _ hcovers), by decide, by decide⟩

end Selection

end CodeScribe

import CodeScribe.Source.File
import CodeScribe.Proofs.Text.Basic

/-!
# Normal path texts

Reading a path drops empty parts and single points; writing it again gives a text in which there
is nothing more to drop.
-/

namespace CodeScribe

namespace Path

/-- A path with nothing to drop. -/
structure Clean (p : Path) : Prop where
  root : p.root = "" ∨ p.root = "/" ∨ p.root = "//"
  part : ∀ x ∈ p.parts, x ≠ "" ∧ x ≠ "." ∧ '/' ∉ x.toList

theorem splitOn_slash (s : String) :
    Text.splitOn s "/" = (s.toList.splitOn '/').map String.ofList := by
  rw [Text.splitOn, show "/".toList = ['/'] from rfl, Chars.splitOn_singleton]

theorem clean_ofString (s : String) : (ofString s).Clean where
  root := by
    show rootOf s = "" ∨ rootOf s = "/" ∨ rootOf s = "//"
    rw [rootOf]
    split <;> simp
  part := by
    intro x hx
    obtain ⟨hx, hkeep⟩ := List.mem_filter.mp hx
    rw [splitOn_slash] at hx
    obtain ⟨piece, hpiece, rfl⟩ := List.mem_map.mp hx
    simp only [Bool.and_eq_true, bne_iff_ne] at hkeep
    rw [String.toList_ofList]
    exact ⟨hkeep.1, hkeep.2, Chars.not_mem_of_mem_splitOn hpiece⟩

/-- The text of the parts starts with a character of the first part. -/
theorem Clean.exists_head {p : Path} (h : p.Clean) (hne : p.parts ≠ []) :
    ∃ c cs, (Text.join "/" p.parts).toList = c :: cs ∧ c ≠ '/' := by
  obtain ⟨x, xs, hparts⟩ := List.exists_cons_of_ne_nil hne
  obtain ⟨hx, -, hslash⟩ := h.part x (by simp [hparts])
  have hxne : x.toList ≠ [] := by simpa using hx
  obtain ⟨c, cs, hcs⟩ := List.exists_cons_of_ne_nil hxne
  have hc : c ≠ '/' := by
    rintro rfl
    exact hslash (by simp [hcs])
  cases xs with
  | nil => exact ⟨c, cs, by simp [Text.join, hparts, hcs], hc⟩
  | cons y ys =>
    refine ⟨c, cs ++ '/' :: (Text.join "/" (y :: ys)).toList, ?_, hc⟩
    simp [Text.join, hparts, hcs]

/-- The parts are read back from their text. -/
theorem Clean.splitOn_join {p : Path} (h : p.Clean) (hne : p.parts ≠ []) :
    (Text.join "/" p.parts).toList.splitOn '/' = p.parts.map String.toList := by
  rw [Text.join, String.toList_intercalate, show "/".toList = ['/'] from rfl]
  apply List.splitOn_intercalate
  · intro l hl
    obtain ⟨x, hx, rfl⟩ := List.mem_map.mp hl
    exact (h.part x hx).2.2
  · simpa using hne

theorem Clean.filter_parts {p : Path} (h : p.Clean) :
    p.parts.filter (fun x => x != "" && x != ".") = p.parts := by
  rw [List.filter_eq_self]
  intro x hx
  obtain ⟨hempty, hpoint, -⟩ := h.part x hx
  simp [hempty, hpoint]

/-- The slashes in front of a text that starts with none. -/
theorem rootOf_append {root s : String} (hroot : root = "" ∨ root = "/" ∨ root = "//") {c : Char}
    {cs : List Char} (hs : s.toList = c :: cs) (hc : c ≠ '/') : rootOf (root ++ s) = root := by
  rcases hroot with rfl | rfl | rfl <;> simp [rootOf, hs, hc]

/-- Slashes in front of a text split off nothing but empty parts. -/
theorem filter_splitOn_append {root : String} (hroot : root = "" ∨ root = "/" ∨ root = "//")
    (s : String) :
    (Text.splitOn (root ++ s) "/").filter (fun x => x != "" && x != ".")
      = (Text.splitOn s "/").filter (fun x => x != "" && x != ".") := by
  have hslash : ∀ l : List Char, ('/' :: l).splitOn '/' = [] :: l.splitOn '/' :=
    fun l => List.splitOn_append_cons_self [] l
  rw [splitOn_slash, splitOn_slash, String.toList_append]
  rcases hroot with rfl | rfl | rfl
  · rfl
  · rw [show "/".toList = ['/'] from rfl, List.singleton_append, hslash]
    rfl
  · rw [show "//".toList = ['/', '/'] from rfl, List.cons_append, List.singleton_append, hslash,
      hslash]
    rfl

theorem ofString_text {p : Path} (h : p.Clean) : ofString p.text = p := by
  obtain ⟨root, parts⟩ := p
  rw [text]
  by_cases hne : parts = []
  · subst hne
    rcases h.root with hroot | hroot | hroot <;> simp only at hroot <;> subst hroot <;> decide
  · obtain ⟨c, cs, hcs, hc⟩ := h.exists_head hne
    have hempty : parts.isEmpty = false := by simpa using hne
    have hroot := rootOf_append h.root hcs hc
    have hparts : (Text.splitOn (root ++ Text.join "/" parts) "/").filter
        (fun x => x != "" && x != ".") = parts := by
      rw [filter_splitOn_append h.root, splitOn_slash, h.splitOn_join hne, List.map_map]
      simpa [Function.comp_def] using h.filter_parts
    show ofString (if parts.isEmpty then _ else root ++ Text.join "/" parts) = ⟨root, parts⟩
    rw [hempty, if_neg Bool.false_ne_true, ofString, hparts, hroot]

theorem normal_normal (s : String) : normal (normal s) = normal s := by
  rw [normal, normal, ofString_text (clean_ofString s)]

theorem normal_ne_empty (s : String) : normal s ≠ "" := by
  have h := clean_ofString s
  rw [normal, text]
  by_cases hne : (ofString s).parts = []
  · rw [hne]
    rcases h.root with hroot | hroot | hroot <;> rw [hroot] <;> decide
  · have hempty : (ofString s).parts.isEmpty = false := by simpa using hne
    obtain ⟨c, cs, hcs, -⟩ := h.exists_head hne
    rw [hempty, if_neg Bool.false_ne_true]
    intro hnil
    have hlist := congrArg String.toList hnil
    rw [String.toList_append, hcs] at hlist
    simp at hlist

end Path

namespace SourceFile

theorem normalText_eq_empty {s : String} : normalText s = "" ↔ s = "" := by
  rw [normalText]
  split
  · rename_i h
    simpa using h
  · rename_i h
    simpa [Path.normal_ne_empty] using h

theorem normalText_normalText (s : String) : normalText (normalText s) = normalText s := by
  by_cases hs : s = ""
  · subst hs
    rfl
  · have hempty : s.isEmpty = false := by simpa using hs
    have hnormal : (Path.normal s).isEmpty = false := by simpa using Path.normal_ne_empty s
    rw [normalText, normalText, hempty, if_neg Bool.false_ne_true, hnormal,
      if_neg Bool.false_ne_true, Path.normal_normal]

end SourceFile

end CodeScribe

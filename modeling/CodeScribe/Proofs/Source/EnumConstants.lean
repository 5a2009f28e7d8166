import Mathlib.Data.List.DropRight
import CodeScribe.Proofs.Source.Enumerations
import CodeScribe.Source.Java

/-!
# Which constants of an enumeration are read

A constant is read where a name stands directly in front of a comma, a semicolon or the closing
brace.  White space in front of a name does not matter, and white space behind it makes the name be
passed over.

* `Java.constants_read` — what is read of such a source, and when that is all.
-/

namespace CodeScribe

open Text

namespace Java

open Pattern Declaration

variable {s t : Cursor} {c : Char}

/-! ### Constants -/

/-- Characters that end a constant. -/
def isStop (c : Char) : Bool := among ",;\x7d" c

theorem isWord_of_isStop (h : isStop c = true) : isWord c = false := by
  have hstops : (",;\x7d".toList.all fun c => !isWord c) = true := by decide
  simpa using List.all_eq_true.mp hstops c (List.contains_iff_mem.mp h)

theorem fits_constantPattern (h : constantPattern.Fits s t) : ∃ y c rest, y ≠ [] ∧
    (∀ d ∈ y, isWord d = true) ∧ s.rest = y ++ c :: rest ∧ (isStop c = true ∨ c = '(') := by
  obtain ⟨a, ⟨b, hname, harguments⟩, m, ⟨c, hc, hreads, -⟩, -⟩ := h
  obtain ⟨y, hne, hy, hrest⟩ := hname.group_span1
  obtain ⟨e, ⟨d, ⟨f, hf, hreads', -⟩, -⟩, -⟩ | hnothing := harguments
  · exact ⟨y, f, _, hne, hy, by rw [hrest, hreads'.rest]; rfl, .inr (beq_iff_eq.mp hf)⟩
  · obtain rfl : a = b := hnothing
    exact ⟨y, c, _, hne, hy, by rw [hrest, hreads.rest]; rfl, .inl hc⟩

/-- A name in front of a character that ends a constant is read as it stands. -/
theorem consumes_constantPattern {w : List Char} (hne : w ≠ []) (hw : ∀ d ∈ w, isWord d = true)
    (hc : isStop c = true) (rest : List Char) :
    constantPattern.Consumes w (c :: rest) [(1, w)] := by
  have hedge : (c :: rest).head?.any isWord = false := isWord_of_isStop hc
  have hname := (consumes_span1 hne hw hedge).group 1
  have harguments : (opt arguments).Consumes [] (c :: rest) [] := by
    refine consumes_opt_nil ?_
    rintro s t hs ⟨a, ⟨b, ⟨d, hd, hreads, -⟩, -⟩, -⟩
    obtain ⟨rfl, -⟩ := List.cons.inj (hs.symm.trans hreads.rest)
    rw [beq_iff_eq.mp hd] at hc
    exact absurd hc (by decide)
  have hahead : (ahead (one isStop)).Consumes [] (c :: rest) [] :=
    consumes_nil_of_takes fun s hs => takes_ahead (takes_one hs hc) rfl
  exact (hname.pass harguments).pass hahead

/-- Characters that can stand in a constant or around it. -/
def isInner (c : Char) : Bool := noneOf ",;(\x7b\x7d" c

theorem isInner_iff : isInner c = true ↔ c ∉ [',', ';', '(', '{', '}'] := noneOf_iff

theorem isInner_of_accept {accept : Char → Bool}
    (hmarks : ([',', ';', '(', '{', '}'].all fun d => !accept d) = true) (h : accept c = true) :
    isInner c = true := by
  refine isInner_iff.mpr fun hmem => ?_
  have hnot := List.all_eq_true.mp hmarks c hmem
  simp [h] at hnot

theorem missesAt_of_not_isWord (hc : isWord c = false) (rest : List Char) :
    constantPattern.MissesAt (c :: rest) :=
  (missesAt_group_span1 hc rest 1 _).assoc

/-- A name that does not reach to the end of a part is followed by a character of the part. -/
theorem missesAt_part {v : List Char} (hv : ∀ c ∈ v, isInner c = true)
    (hword : ∃ c ∈ v, isWord c = false) (rest : List Char) :
    constantPattern.MissesAt (v ++ rest) := by
  refine missesAt_of_not_fits fun s t hs hfits => ?_
  obtain ⟨y, d, r, -, hy, hrest, hd⟩ := fits_constantPattern hfits
  obtain ⟨c, hc, hnot⟩ := hword
  have hcy : c ∉ y := fun hmem => by
    rw [hy c hmem] at hnot
    cases hnot
  obtain ⟨a, rfl, ha⟩ | ⟨a, rfl, -⟩ := List.append_eq_append_iff.mp (hrest.symm.trans hs)
  · cases a with
    | nil => exact hcy (by simpa using hc)
    | cons e a =>
      obtain ⟨rfl, -⟩ := List.cons.inj ha
      refine isInner_iff.mp (hv d (by simp)) ?_
      obtain hstop | rfl := hd
      · have hmarks : ",;\x7d".toList ⊆ [',', ';', '(', '{', '}'] := by decide
        exact hmarks (List.contains_iff_mem.mp hstop)
      · decide
  · exact hcy (List.mem_append_left a hc)

/-- The word at the end of some characters. -/
def lastWord? (cs : List Char) : Option String :=
  if cs.rtakeWhile isWord = [] then none else some (String.ofList (cs.rtakeWhile isWord))

variable {names : List String} {rest : List Char}

theorem lists_part {cs : List Char} (hcs : ∀ c ∈ cs, isInner c = true)
    (h : constantPattern.Lists 1 rest names) :
    constantPattern.Lists 1 (cs.rdropWhile isWord ++ rest) names := by
  refine Lists.skips (fun v hne hsuffix => ?_) h
  have hdrop : cs.rdropWhile isWord ≠ [] := hsuffix.ne_nil hne
  refine missesAt_part (fun c hc => ?_) ⟨v.getLast hne, List.getLast_mem hne, ?_⟩ rest
  · exact hcs c ((List.rdropWhile_prefix isWord cs).subset (hsuffix.subset hc))
  · rw [hsuffix.getLast hne]
    exact Bool.eq_false_iff.mpr (List.rdropWhile_last_not isWord cs hdrop)

/-- Of a piece, the word at its end is read. -/
theorem lists_piece {cs : List Char} (hcs : ∀ c ∈ cs, isInner c = true) (hc : isStop c = true)
    (h : constantPattern.Lists 1 rest names) :
    constantPattern.Lists 1 (cs ++ c :: rest) ((lastWord? cs).toList ++ names) := by
  have hstop : constantPattern.Lists 1 (c :: rest) names :=
    Lists.skip (missesAt_of_not_isWord (isWord_of_isStop hc) rest) h
  have hsplit : cs.rdropWhile isWord ++ cs.rtakeWhile isWord = cs :=
    List.rdropWhile_append_rtakeWhile
  rw [lastWord?]
  split
  · rename_i hnone
    rw [hnone, List.append_nil] at hsplit
    have hskip := lists_part hcs hstop
    rwa [hsplit] at hskip
  · rename_i hne
    have hword := consumes_constantPattern hne (fun d hd => List.mem_rtakeWhile_imp hd) hc rest
    have hfound := lists_part hcs (Lists.found (hword.reads rfl) hne hstop)
    rwa [← List.append_assoc, hsplit] at hfound

theorem lists_constants_nil : constantPattern.Lists 1 [] [] := by
  refine lists_nil (missesAt_of_not_fits fun s t hs hfits => ?_)
  obtain ⟨y, c, r, -, -, hrest, -⟩ := fits_constantPattern hfits
  rw [hs] at hrest
  simp at hrest

/-- Of the pieces between commas, the words at their ends are read. -/
theorem lists_constants {pieces : List (List Char)}
    (h : ∀ cs ∈ pieces, ∀ c ∈ cs, isInner c = true) :
    constantPattern.Lists 1 ([','].intercalate pieces ++ ['}']) (pieces.filterMap lastWord?) := by
  have hstops : ∀ c ∈ [',', '}'], isStop c = true := List.all_eq_true.mp rfl
  have hlists : constantPattern.Lists 1 ([','].intercalate (pieces.map id) ++ ['}'])
      (pieces.flatMap fun cs => (lastWord? cs).toList) :=
    lists_items lists_constants_nil (missesAt_of_not_isWord (by decide) [])
      fun cs hcs c hc rest names => lists_piece (h cs hcs) (hstops c hc)
  rwa [List.map_id, ← List.filterMap_eq_flatMap_toList] at hlists

/-! ### Sources of enumerations -/

/-- Characters of identifiers: neither white space nor a mark that separates or encloses. -/
def isIdentifierChar (c : Char) : Bool := !isBlank c && noneOf ",;()\x7b\x7d" c

/-- Characters of no word at the start of a text have no part in the word at its end. -/
theorem rtakeWhile_append {a b : List Char} (ha : ∀ c ∈ a, isWord c = false) :
    (a ++ b).rtakeWhile isWord = b.rtakeWhile isWord := by
  have hrev : a.reverse.takeWhile isWord = [] := by
    rw [List.takeWhile_eq_nil_iff]
    intro hlength
    rw [ha _ (List.mem_reverse.mp (List.get_mem _ _))]
    exact Bool.false_ne_true
  rw [List.rtakeWhile, List.reverse_append, List.takeWhile_append, hrev, List.append_nil]
  split
  · rename_i hlength
    rw [List.rtakeWhile, (List.takeWhile_prefix isWord).eq_of_length hlength]
  · rfl

/-- A constant as it is written: an identifier with white space around it. -/
structure Constant where
  before : String
  name : String
  after : String
  before_blank : ∀ c ∈ before.toList, isBlank c = true
  name_identifier : MadeOf isIdentifierChar name
  after_blank : ∀ c ∈ after.toList, isBlank c = true

namespace Constant

def text (c : Constant) : List Char := c.before.toList ++ (c.name.toList ++ c.after.toList)

/-- What is read of a constant: the word at its end, if no white space stands behind it. -/
def read? (c : Constant) : Option String :=
  if c.after = "" then lastWord? c.name.toList else none

theorem isInner_of_mem_text (c : Constant) : ∀ d ∈ c.text, isInner d = true := by
  have hblanks : ([',', ';', '(', '{', '}'].all fun d => !isBlank d) = true := by decide
  intro d hd
  rw [text, List.mem_append, List.mem_append] at hd
  obtain hd | hd | hd := hd
  · exact isInner_of_accept hblanks (c.before_blank d hd)
  · exact isInner_of_accept (by decide) (c.name_identifier.2 d hd)
  · exact isInner_of_accept hblanks (c.after_blank d hd)

theorem lastWord?_text (c : Constant) : lastWord? c.text = c.read? := by
  rw [read?]
  split
  · rename_i hafter
    have hbefore : c.text.rtakeWhile isWord = c.name.toList.rtakeWhile isWord := by
      rw [text, hafter, String.toList_empty, List.append_nil]
      exact rtakeWhile_append fun d hd => isWord_of_isBlank (c.before_blank d hd)
    rw [lastWord?, hbefore, lastWord?]
  · rename_i hafter
    obtain ⟨cs, d, hcs⟩ := (List.eq_nil_or_concat c.after.toList).resolve_left
      (mt String.toList_eq_nil_iff.mp hafter)
    have hnot : ¬ isWord d = true := by
      rw [isWord_of_isBlank (c.after_blank d (by simp [hcs]))]
      exact Bool.false_ne_true
    have hnone : c.text.rtakeWhile isWord = [] := by
      rw [text, hcs, List.concat_eq_append, ← List.append_assoc, ← List.append_assoc]
      exact List.rtakeWhile_concat_neg isWord _ d hnot
    rw [lastWord?, if_pos hnone]

theorem read?_eq_some_iff (c : Constant) :
    c.read? = some c.name ↔ c.after = "" ∧ MadeOf isWord c.name := by
  rw [read?]
  constructor
  · intro h
    split at h
    · rename_i hafter
      rw [lastWord?] at h
      split at h
      · cases h
      · have hsame := congrArg String.toList (Option.some.inj h)
        rw [String.toList_ofList] at hsame
        exact ⟨hafter, c.name_identifier.1, List.rtakeWhile_eq_self_iff.mp hsame⟩
    · cases h
  · rintro ⟨hafter, hne, hword⟩
    rw [if_pos hafter, lastWord?, List.rtakeWhile_eq_self_iff.mpr hword, if_neg hne,
      String.ofList_toList]

end Constant

def enumSource (name : String) (constants : List Constant) : List Char :=
  enumText name ([','].intercalate (constants.map Constant.text))

theorem no_braces (constants : List Constant) :
    ∀ d ∈ [','].intercalate (constants.map Constant.text), d ≠ '{' ∧ d ≠ '}' := by
  refine forall_mem_items (by decide) fun c _ d hd => ?_
  have hinner := isInner_iff.mp (c.isInner_of_mem_text d hd)
  simp only [List.mem_cons, not_or] at hinner
  exact ⟨hinner.2.2.2.1, hinner.2.2.2.2.1⟩

theorem findGroup_constants (constants : List Constant) :
    constantPattern.findGroup 1
        ('{' :: ([','].intercalate (constants.map Constant.text) ++ ['}'])) =
      constants.filterMap Constant.read? := by
  have hinner : ∀ cs ∈ constants.map Constant.text, ∀ d ∈ cs, isInner d = true := by
    intro cs hcs
    obtain ⟨c, -, rfl⟩ := List.mem_map.mp hcs
    exact c.isInner_of_mem_text
  have hlists := Lists.skip (missesAt_of_not_isWord (c := '{') (by decide) _)
    (lists_constants hinner)
  rw [hlists.findGroup_eq, List.filterMap_map]
  exact List.filterMap_congr fun c _ => c.lastWord?_text

theorem enumPattern_eq : enumPattern = enumHead ["public", "private", "protected"] := rfl

/-- A source with one enumeration has one if its name is a word, and none otherwise. -/
theorem enumsIn_enumSource {name : String} (hname : MadeOf isIdentifierChar name)
    (constants : List Constant) : enumsIn (enumSource name constants) =
      if MadeOf isWord name then [⟨name, constants.filterMap Constant.read?⟩] else [] := by
  have hunbroken : Unbroken name.toList := by
    intro c hc
    have hletter := hname.2 c hc
    rw [isIdentifierChar, Bool.and_eq_true, Bool.not_eq_true'] at hletter
    exact hletter.1
  rw [enumsIn, enumPattern_eq, enumSource, enums_of_enumText (by decide) hname.1 hunbroken
    (hname.not_mem (by decide)) (no_braces constants) (constantPattern.findGroup 1),
    findGroup_constants]

/-- Of a source that declares an enumeration, all constants are read exactly if the identifiers are
words and no white space stands behind a constant.  Otherwise only the words directly in front of
commas and the brace are read, and nothing at all if the name of the enumeration is no word. -/
theorem constants_read (options : ReadOptions) {name : String}
    (hname : MadeOf isIdentifierChar name) (constants : List Constant) :
    (read options (enumSource name constants)).enums =
        (if MadeOf isWord name then [⟨name, constants.filterMap Constant.read?⟩] else []) ∧
      ((read options (enumSource name constants)).enums = [⟨name, constants.map (·.name)⟩] ↔
        MadeOf isWord name ∧ ∀ c ∈ constants, c.after = "" ∧ MadeOf isWord c.name) := by
  have hread : (read options (enumSource name constants)).enums = _ :=
    enumsIn_enumSource hname constants
  refine ⟨hread, ?_⟩
  rw [hread]
  split
  · rename_i hword
    rw [List.singleton_inj, Enumeration.mk.injEq, List.filterMap_eq_map_iff_forall_eq_some]
    simp only [Constant.read?_eq_some_iff, hword, true_and]
  · rename_i hword
    simp [hword]

/-- Four constants, of which the first and a part of the last can be read. -/
def colors : List Constant :=
  [⟨" ", "RED", "", List.all_eq_true.mp rfl, by decide, by simp⟩,
    ⟨"\n  ", "GREEN", "\n", List.all_eq_true.mp rfl, by decide, List.all_eq_true.mp rfl⟩,
    ⟨" ", "BLUE$", "", List.all_eq_true.mp rfl, by decide, by simp⟩,
    ⟨"", "DARK$RED", "", by simp, by decide, by simp⟩]

theorem colors_read : MadeOf isIdentifierChar "Color" ∧
    (read {} (enumSource "Color" colors)).enums = [⟨"Color", ["RED", "RED"]⟩] ∧
    (read {} (enumSource "Color" colors)).enums ≠ [⟨"Color", colors.map (·.name)⟩] := by
  have hname : MadeOf isIdentifierChar "Color" := by decide
  obtain ⟨hread, hall⟩ := constants_read {} hname colors
  have hword : MadeOf isWord "Color" := by decide
  have hconstants : colors.filterMap Constant.read? = ["RED", "RED"] := by decide
  refine ⟨hname, ?_, fun heq => ?_⟩
  · rw [hread, if_pos hword, hconstants]
  · have hafter := ((hall.mp heq).2 _ (List.mem_cons_of_mem _ List.mem_cons_self)).1
    exact absurd hafter (by decide)

/-- White space in front of the brace, and the last constant is not read. -/
theorem spaced_constant_not_read :
    (read {} "enum E \x7b A, B \x7d".toList).enums.map (fun e => (e.name, e.constants)) =
      [("E", ["A"])] := by
  decide

end Java

end CodeScribe

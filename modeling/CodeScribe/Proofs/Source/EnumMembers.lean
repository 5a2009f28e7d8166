import CodeScribe.Proofs.Source.Enumerations
import CodeScribe.Source.CSharp

/-!
# Members of an enumeration and their values

A member of an enumeration is a name, and a value may stand behind it.  A search for members reads a
name together with its value, so no word of a value is taken for a member.

* `CSharp.members_read` — all members of an enumeration are read.
-/

namespace CodeScribe.CSharp

open Text Pattern Declaration

variable {s : Cursor} {c : Char} {gap rest w : List Char}

/-! ### Constants -/

/-- Characters of values. -/
def isValueChar (c : Char) : Bool := noneOf ",\x7d" c

/-- The part of a constant behind its name. -/
def valuePattern : Pattern := blanks ++ char '=' ++ blanks ++ span1 isValueChar

theorem missesAt_of_not_isWord (hc : isWord c = false) (rest : List Char) :
    constantPattern.MissesAt (c :: rest) :=
  missesAt_group_span1 hc rest 1 _

/-- White space is passed over. -/
theorem lists_gap {names : List String} (hgap : ∀ d ∈ gap, isBlank d = true)
    (h : constantPattern.Lists 1 rest names) : constantPattern.Lists 1 (gap ++ rest) names := by
  refine Lists.skips (fun v hne hsuffix => ?_) h
  obtain ⟨d, v, rfl⟩ := List.exists_cons_of_ne_nil hne
  exact missesAt_of_not_isWord
    (isWord_of_isBlank (hgap d (hsuffix.subset List.mem_cons_self))) _

/-- Without an equals sign behind the white space, there is no value. -/
theorem not_fits_valuePattern (hgap : ∀ d ∈ gap, isBlank d = true) (hc : isBlank c = false)
    (hne : c ≠ '=') (hs : s.rest = gap ++ c :: rest) (t : Cursor) : ¬ valuePattern.Fits s t := by
  rintro ⟨u₁, ⟨u₂, ⟨u₃, ⟨b, hb, hreads, -⟩, d, hd, hreads', -⟩, -⟩, -⟩
  obtain rfl := beq_iff_eq.mp hd
  have hsame : gap ++ c :: rest = b ++ '=' :: u₂.rest := by
    rw [← hs, hreads.rest, hreads'.rest]
    rfl
  exact hne (Chars.cut_char (p := fun e => !isBlank e) (by simpa using hgap) (by simpa using hb)
    (by simpa using hc) (by decide) hsame)

/-- A name without a value is read alone. -/
theorem consumes_constantPattern_bare (hne : w ≠ []) (hw : ∀ d ∈ w, isWord d = true)
    (hgap : ∀ d ∈ gap, isBlank d = true) (hc : isBlank c = false) (hword : isWord c = false)
    (hequals : c ≠ '=') (rest : List Char) :
    constantPattern.Consumes w (gap ++ c :: rest) [(1, w)] := by
  have hedge : (gap ++ c :: rest).head?.any isWord = false :=
    head?_append_any (fun d hd => isWord_of_isBlank (hgap d hd))
      (show (c :: rest).head?.any isWord = false from hword)
  have hvalue : (opt valuePattern).Consumes [] (gap ++ c :: rest) [] :=
    consumes_opt_nil fun s t hs => not_fits_valuePattern hgap hc hequals hs t
  exact ((consumes_span1 hne hw hedge).group 1).pass hvalue

/-- A value is read up to the comma or brace behind it. -/
theorem consumes_valuePattern {value : List Char} (hgap : ∀ d ∈ gap, isBlank d = true)
    (hvalue : ∀ d ∈ value, isValueChar d = true) (hblank : ∃ d ∈ value, isBlank d = false)
    (hc : isValueChar c = false) (rest : List Char) :
    valuePattern.Consumes (gap ++ '=' :: value) (c :: rest) [] := by
  -- white space in front of the value is read first, and then its first other character
  have hfind : (value.find? fun d => !isBlank d).isSome := by simpa using hblank
  obtain ⟨d, hd⟩ := Option.isSome_iff_exists.mp hfind
  obtain ⟨hfirst, lead, core, rfl, hlead⟩ := List.find?_eq_some_iff_append.mp hd
  have hfirst : isBlank d = false := by simpa using hfirst
  have hgaps (cs : List Char) : blanks.Consumes gap (['='] ++ cs) [] := consumes_span hgap rfl
  have hequals (cs : List Char) : (char '=').Consumes ['='] cs [] := consumes_one rfl cs
  have hleads : blanks.Consumes lead (d :: core ++ c :: rest) [] :=
    consumes_span (by simpa using hlead) hfirst
  have hvalues : (span1 isValueChar).Consumes (d :: core) (c :: rest) [] :=
    consumes_span1 (List.cons_ne_nil d core)
      (fun e he => hvalue e (List.mem_append_right lead he)) hc
  exact ((((hgaps _).seq (hequals _)).seq hleads).seq hvalues).of_eq (by simp)

/-- A name with a value is read together with it. -/
theorem consumes_constantPattern_value {value : List Char} (hne : w ≠ [])
    (hw : ∀ d ∈ w, isWord d = true) (hgap : ∀ d ∈ gap, isBlank d = true)
    (hvalue : ∀ d ∈ value, isValueChar d = true) (hblank : ∃ d ∈ value, isBlank d = false)
    (hc : isValueChar c = false) (rest : List Char) :
    constantPattern.Consumes (w ++ (gap ++ '=' :: value)) (c :: rest) [(1, w)] := by
  have hedge : (gap ++ '=' :: value ++ c :: rest).head?.any isWord = false := by
    rw [List.append_assoc]
    exact head?_append_any (fun d hd => isWord_of_isBlank (hgap d hd))
      (show ('=' :: value ++ c :: rest).head?.any isWord = false from
        (by decide : isWord '=' = false))
  have hassigned := consumes_valuePattern hgap hvalue hblank hc rest
  exact ((consumes_span1 hne hw hedge).group 1).seq (hassigned.orElse nothing)

/-! ### Members -/

/-- Characters that neither separate nor enclose members. -/
def isInner (c : Char) : Bool := noneOf ",\x7b\x7d" c

theorem isInner_iff : isInner c = true ↔ c ∉ [',', '{', '}'] := noneOf_iff

theorem isValueChar_of_isInner (h : isInner c = true) : isValueChar c = true := by
  have hstops : ",\x7d".toList ⊆ [',', '{', '}'] := by decide
  exact noneOf_iff.mpr fun hmem => isInner_iff.mp h (hstops hmem)

/-- A member as it is written: a name with white space around it and perhaps a value behind it.
White space around the value is part of the value's text. -/
structure Member where
  before : String
  name : String
  after : String
  value? : Option String
  before_blank : ∀ c ∈ before.toList, isBlank c = true
  name_word : MadeOf isWord name
  after_blank : ∀ c ∈ after.toList, isBlank c = true
  value_inner : ∀ v ∈ value?, MadeOf isInner v
  value_not_blank : ∀ v ∈ value?, ∃ c ∈ v.toList, isBlank c = false

namespace Member

/-- The text of a value with the equals sign in front of it. -/
def assignment (m : Member) : List Char := (m.value?.map fun v => '=' :: v.toList).getD []

def text (m : Member) : List Char :=
  m.before.toList ++ (m.name.toList ++ (m.after.toList ++ m.assignment))

theorem no_braces (m : Member) : ∀ d ∈ m.text, d ≠ '{' ∧ d ≠ '}' := by
  have hblank {d : Char} (h : isBlank d = true) : d ≠ '{' ∧ d ≠ '}' := by
    constructor <;> rintro rfl <;> exact absurd h (by decide)
  have hword {d : Char} (h : isWord d = true) : d ≠ '{' ∧ d ≠ '}' := by
    constructor <;> rintro rfl <;> exact absurd h (by decide)
  intro d hd
  simp only [text, List.mem_append] at hd
  obtain hd | hd | hd | hd := hd
  · exact hblank (m.before_blank d hd)
  · exact hword (m.name_word.2 d hd)
  · exact hblank (m.after_blank d hd)
  · rw [assignment] at hd
    cases hvalue : m.value? with
    | none =>
      rw [hvalue] at hd
      cases hd
    | some v =>
      rw [hvalue, Option.map_some, Option.getD_some] at hd
      obtain rfl | hd := List.mem_cons.mp hd
      · decide
      · have hinner := isInner_iff.mp ((m.value_inner v hvalue).2 d hd)
        simp only [List.mem_cons, not_or] at hinner
        exact ⟨hinner.2.1, hinner.2.2.1⟩

/-- Of a member in front of a comma or a brace, the name is found and nothing else. -/
theorem lists (m : Member) {c : Char} (hc : c ∈ [',', '}']) {rest : List Char}
    {names : List String} (h : constantPattern.Lists 1 rest names) :
    constantPattern.Lists 1 (m.text ++ c :: rest) (m.name :: names) := by
  obtain ⟨hcblank, hcword, hequals, hcvalue⟩ : isBlank c = false ∧ isWord c = false ∧ c ≠ '=' ∧
      isValueChar c = false := by
    obtain rfl | rfl : c = ',' ∨ c = '}' := by simpa using hc
    all_goals decide
  have hstop := Lists.skip (missesAt_of_not_isWord hcword rest) h
  rw [text, List.append_assoc]
  refine lists_gap m.before_blank ?_
  rw [List.append_assoc, List.append_assoc, assignment]
  cases hvalue : m.value? with
  | none =>
    have hbare := consumes_constantPattern_bare m.name_word.1 m.name_word.2 m.after_blank hcblank
      hcword hequals rest
    have hfound := Lists.found (hbare.reads rfl) m.name_word.1 (lists_gap m.after_blank hstop)
    rwa [String.ofList_toList] at hfound
  | some v =>
    have hchars : ∀ d ∈ v.toList, isValueChar d = true :=
      fun d hd => isValueChar_of_isInner ((m.value_inner v hvalue).2 d hd)
    have hassigned := consumes_constantPattern_value m.name_word.1 m.name_word.2 m.after_blank
      hchars (m.value_not_blank v hvalue) hcvalue rest
    have hfound := Lists.found (hassigned.reads rfl) (by simp [m.name_word.1]) hstop
    rw [String.ofList_toList] at hfound
    simpa using hfound

end Member

theorem findGroup_members (members : List Member) :
    constantPattern.findGroup 1 ('{' :: ([','].intercalate (members.map Member.text) ++ ['}'])) =
      members.map (·.name) := by
  have hend : constantPattern.Lists 1 [] [] := lists_nil fun _ _ => rfl
  have hitems : constantPattern.Lists 1 ([','].intercalate (members.map Member.text) ++ ['}'])
      (members.flatMap fun m => [m.name]) :=
    lists_items hend (missesAt_of_not_isWord (by decide) [])
      fun m _ c hc rest names => m.lists hc
  have hlists := Lists.skip (missesAt_of_not_isWord (c := '{') (by decide) _) hitems
  rw [hlists.findGroup_eq, ← List.map_eq_flatMap]

theorem enumPattern_eq : enumPattern = enumHead ["public", "private", "internal"] := rfl

/-- Members with values in which names and equals signs stand. -/
def levels : List Member :=
  [⟨" ", "Low", " ", some " 1 << x ", blank_space, by decide, blank_space, by rintro _ ⟨⟩; decide,
      by rintro _ ⟨⟩; exact ⟨'1', by decide, by decide⟩⟩,
    ⟨"\n\t", "Mid", "\t", none, List.all_eq_true.mp rfl, by decide, List.all_eq_true.mp rfl, by simp,
      by simp⟩,
    ⟨"", "High", "", some "(Low == Mid) ? \n Low : Mid", blank_empty, by decide, blank_empty,
      by rintro _ ⟨⟩; decide, by rintro _ ⟨⟩; exact ⟨'(', by decide, by decide⟩⟩]

end CodeScribe.CSharp

import CodeScribe.Proofs.Source.FunctionHeads
import CodeScribe.Proofs.Text.Case

/-!
# Functions and methods

A source is a sequence of functions and of types with methods.  All of them are found by the search
for heads, and whether one is reported as a function depends on the text in front of it: a method is
left out if more braces are open than closed there and the word for classes occurs somewhere.

* `Php.functions_read` — which functions and methods are reported, and when these are exactly the
  functions outside of all types.
-/

namespace CodeScribe.Php

open Text Pattern Declaration

/-! ### Braces -/

/-- A text opens so many more braces than it closes. -/
def Opens (n : Nat) (cs : List Char) : Prop := cs.count '{' = cs.count '}' + n

instance (n : Nat) (cs : List Char) : Decidable (Opens n cs) := inferInstanceAs (Decidable (_ = _))

section Braces

variable {n m : Nat} {cs ds : List Char}

theorem Opens.append (hcs : Opens n cs) (hds : Opens m ds) : Opens (n + m) (cs ++ ds) := by
  rw [Opens] at *
  rw [List.count_append, List.count_append]
  omega

theorem Opens.brace (h : Opens n cs) : Opens (n + 1) (cs ++ ['{']) :=
  h.append (by decide : Opens 1 ['{'])

theorem Opens.closing (h : Opens (n + 1) cs) : Opens n (cs ++ ['}']) := by
  rw [Opens] at *
  simp only [List.count_append, List.count_singleton]
  simp
  omega

theorem opens_of_not_mem (hopening : '{' ∉ cs) (hclosing : '}' ∉ cs) : Opens 0 cs := by
  rw [Opens, List.count_eq_zero_of_not_mem hopening, List.count_eq_zero_of_not_mem hclosing]

theorem opens_flatMap {α : Type} {text : α → List Char} (items : List α)
    (h : ∀ a, Opens 0 (text a)) : Opens 0 (items.flatMap text) := by
  induction items with
  | nil => rfl
  | cons a items ih => exact (h a).append ih

end Braces

/-- With balanced parameters, a head opens the brace of the body. -/
theorem Head.opens_text (h : Head) (hparameters : Opens 0 h.parameters.toList) :
    Opens 1 h.text := by
  have hfront : Opens 0 h.front :=
    opens_of_not_mem (h.not_mem_front (by decide) (by decide))
      (h.not_mem_front (by decide) (by decide))
  have hback : Opens 0 h.back :=
    opens_of_not_mem (h.not_mem_back (by decide) (by decide) (by decide))
      (h.not_mem_back (by decide) (by decide) (by decide))
  have hopening : Opens 0 ['('] := by decide
  have hclosing : Opens 0 [')'] := by decide
  exact hfront.append (hopening.append (hparameters.append (hclosing.append hback.brace)))

/-! ### Sources -/

/-- A function with its body, and what stands in front of it. -/
structure FunctionText where
  lead : List Char
  head : Head
  body : List Char
  lead_quiet : Quiet lead
  lead_balanced : Opens 0 lead
  parameters_balanced : Opens 0 head.parameters.toList
  body_quiet : Quiet (body ++ ['}'])
  body_balanced : Opens 0 body

namespace FunctionText

def text (f : FunctionText) : List Char := f.lead ++ (f.head.text ++ (f.body ++ ['}']))

theorem opens_text (f : FunctionText) : Opens 0 f.text := by
  have hbody : Opens 0 (f.head.text ++ (f.body ++ ['}'])) := by
    rw [← List.append_assoc]
    exact ((f.head.opens_text f.parameters_balanced).append f.body_balanced).closing
  exact f.lead_balanced.append hbody

end FunctionText

inductive TypeKind where
  | classType
  | interfaceType
  | traitType
deriving DecidableEq

def TypeKind.word : TypeKind → String
  | classType => "class"
  | interfaceType => "interface"
  | traitType => "trait"

/-- A type with the methods that have a body.  Those without one belong to what stands between. -/
structure TypeText where
  lead : List Char
  kind : TypeKind
  naming : List Char
  methods : List FunctionText
  trail : List Char
  heading_quiet : Quiet (lead ++ (kind.word.toList ++ naming) ++ ['{'])
  heading_balanced : Opens 0 (lead ++ (kind.word.toList ++ naming))
  trail_quiet : Quiet (trail ++ ['}'])
  trail_balanced : Opens 0 trail

namespace TypeText

/-- What stands in front of the methods. -/
def opening (t : TypeText) : List Char := t.lead ++ (t.kind.word.toList ++ t.naming) ++ ['{']

def text (t : TypeText) : List Char :=
  t.opening ++ (t.methods.flatMap FunctionText.text ++ (t.trail ++ ['}']))

theorem opens_opening (t : TypeText) : Opens 1 t.opening := t.heading_balanced.brace

theorem opens_text (t : TypeText) : Opens 0 t.text := by
  have hmethods := opens_flatMap t.methods FunctionText.opens_text
  rw [text, ← List.append_assoc, ← List.append_assoc]
  exact ((t.opens_opening.append hmethods).append t.trail_balanced).closing

theorem word_infix_opening (t : TypeText) : t.kind.word.toList <:+: t.opening :=
  ⟨t.lead, t.naming ++ ['{'], by simp [opening]⟩

end TypeText

inductive Part where
  | function (f : FunctionText)
  | type (t : TypeText)

namespace Part

def text : Part → List Char
  | function f => f.text
  | type t => t.text

def function? : Part → Option Head
  | function f => some f.head
  | type _ => none

theorem opens_text : ∀ p : Part, Opens 0 p.text
  | function f => f.opens_text
  | type t => t.opens_text

end Part

/-- A source: functions and types one after the other. -/
structure SourceText where
  parts : List Part
  trail : List Char
  trail_quiet : Quiet trail

namespace SourceText

def text (source : SourceText) : List Char := source.parts.flatMap Part.text ++ source.trail

def functions (source : SourceText) : List Head := source.parts.filterMap Part.function?

end SourceText

/-! ### Places -/

/-- A function, or a method of a type of some kind, with the text in front of it. -/
structure Place where
  before : List Char
  owner? : Option TypeKind
  head : Head

def placesOf (owner? : Option TypeKind) : List Char → List FunctionText → List Place
  | _, [] => []
  | before, f :: fs =>
    ⟨before ++ f.lead, owner?, f.head⟩ :: placesOf owner? (before ++ f.text) fs

def Part.places (before : List Char) : Part → List Place
  | function f => placesOf none before [f]
  | type t => placesOf (some t.kind) (before ++ t.opening) t.methods

def placesIn : List Char → List Part → List Place
  | _, [] => []
  | before, p :: ps => p.places before ++ placesIn (before ++ p.text) ps

/-- The functions and methods of a source from left to right. -/
def SourceText.places (source : SourceText) : List Place := placesIn [] source.parts

namespace Place

/-- A function stands outside of braces, and a method inside of those of its type. -/
def depth (place : Place) : Nat := if place.owner?.isSome then 1 else 0

/-- The text in front of a place has the open braces and the word of the type around it. -/
structure Consistent (place : Place) : Prop where
  opens : Opens place.depth place.before
  word_infix : ∀ kind ∈ place.owner?, kind.word.toList <:+: place.before

end Place

section Consistent

variable {owner? : Option TypeKind} {before : List Char} {place : Place} {n : Nat}

theorem owner?_of_mem_placesOf {fs : List FunctionText} (h : place ∈ placesOf owner? before fs) :
    place.owner? = owner? := by
  induction fs generalizing before with
  | nil => cases h
  | cons f fs ih =>
    obtain rfl | h := List.mem_cons.mp h
    · rfl
    · exact ih h

/-- Functions that stand one after the other have the text in front of the first one before them,
and as many open braces. -/
theorem before_of_mem_placesOf {fs : List FunctionText} (hbefore : Opens n before)
    (h : place ∈ placesOf owner? before fs) : before <+: place.before ∧ Opens n place.before := by
  induction fs generalizing before with
  | nil => cases h
  | cons f fs ih =>
    obtain rfl | h := List.mem_cons.mp h
    · exact ⟨List.prefix_append before f.lead, hbefore.append f.lead_balanced⟩
    · obtain ⟨hbegins, hopens⟩ := ih (hbefore.append f.opens_text) h
      exact ⟨(List.prefix_append before f.text).trans hbegins, hopens⟩

theorem Part.consistent {p : Part} (hbefore : Opens 0 before) (h : place ∈ p.places before) :
    place.Consistent := by
  cases p with
  | function f =>
    have howner := owner?_of_mem_placesOf h
    obtain ⟨-, hopens⟩ := before_of_mem_placesOf hbefore h
    exact ⟨by rwa [Place.depth, howner], by simp [howner]⟩
  | type t =>
    have howner := owner?_of_mem_placesOf h
    obtain ⟨hbegins, hopens⟩ := before_of_mem_placesOf (hbefore.append t.opens_opening) h
    refine ⟨by rwa [Place.depth, howner], fun kind hkind => ?_⟩
    obtain rfl : t.kind = kind := by simpa [howner] using hkind
    have hopening : t.opening <:+: place.before :=
      (List.suffix_append before t.opening).isInfix.trans hbegins.isInfix
    exact t.word_infix_opening.trans hopening

theorem consistent_of_mem_placesIn {parts : List Part} (hbefore : Opens 0 before)
    (h : place ∈ placesIn before parts) : place.Consistent := by
  induction parts generalizing before with
  | nil => cases h
  | cons p ps ih =>
    obtain h | h := List.mem_append.mp h
    · exact p.consistent hbefore h
    · exact ih (hbefore.append p.opens_text) h

end Consistent

/-! ### What the search finds -/

def Place.finding (place : Place) : Finding := ⟨place.before, place.head.text, place.head.name⟩

section Findings

variable {before rest : List Char} {findings : List Finding}

theorem Quiet.locates {w : List Char} (hw : Quiet w)
    (h : functionPattern.Locates 1 (before ++ w) rest findings) :
    functionPattern.Locates 1 before (w ++ rest) findings :=
  Locates.skips (fun _ hne hv => hw.missesAt hne hv rest) h

theorem Head.text_ne_nil (h : Head) : h.text ≠ [] := by simp [text, upTo]

theorem Head.locates (h : Head)
    (hrest : functionPattern.Locates 1 (before ++ h.text) rest findings) :
    functionPattern.Locates 1 before (h.text ++ rest) (⟨before, h.text, h.name⟩ :: findings) := by
  have hreads : functionPattern.Reads 1 h.text rest h.name.toList :=
    (h.consumes rest).reads rfl
  have hfound := Locates.found hreads h.text_ne_nil hrest
  rwa [String.ofList_toList] at hfound

theorem locates_functions (owner? : Option TypeKind) {fs : List FunctionText}
    (h : functionPattern.Locates 1 (before ++ fs.flatMap FunctionText.text) rest findings) :
    functionPattern.Locates 1 before (fs.flatMap FunctionText.text ++ rest)
      ((placesOf owner? before fs).map Place.finding ++ findings) := by
  induction fs generalizing before with
  | nil => simpa [placesOf] using h
  | cons f fs ih =>
    rw [List.flatMap_cons] at h ⊢
    rw [← List.append_assoc] at h
    have hbehind := ih h
    have hbody : functionPattern.Locates 1 (before ++ f.lead ++ f.head.text)
        (f.body ++ ['}'] ++ (fs.flatMap FunctionText.text ++ rest)) _ :=
      f.body_quiet.locates (by simpa [FunctionText.text] using hbehind)
    have hhere := f.lead_quiet.locates (f.head.locates hbody)
    simpa [FunctionText.text, placesOf, Place.finding] using hhere

theorem Part.locates (p : Part) (h : functionPattern.Locates 1 (before ++ p.text) rest findings) :
    functionPattern.Locates 1 before (p.text ++ rest)
      ((p.places before).map Place.finding ++ findings) := by
  cases p with
  | function f =>
    have hbehind : functionPattern.Locates 1 (before ++ [f].flatMap FunctionText.text) rest
        findings := by simpa [text] using h
    simpa [text, places] using locates_functions none hbehind
  | type t =>
    have htrail : functionPattern.Locates 1
        (before ++ t.opening ++ t.methods.flatMap FunctionText.text)
        (t.trail ++ ['}'] ++ rest) findings :=
      t.trail_quiet.locates (by simpa [text, TypeText.text] using h)
    have hmethods := t.heading_quiet.locates (locates_functions (some t.kind) htrail)
    simpa [text, places, TypeText.text, TypeText.opening] using hmethods

theorem locates_parts {parts : List Part}
    (h : functionPattern.Locates 1 (before ++ parts.flatMap Part.text) rest findings) :
    functionPattern.Locates 1 before (parts.flatMap Part.text ++ rest)
      ((placesIn before parts).map Place.finding ++ findings) := by
  induction parts generalizing before with
  | nil => simpa [placesIn] using h
  | cons p ps ih =>
    rw [List.flatMap_cons] at h ⊢
    rw [← List.append_assoc] at h
    simpa [placesIn] using p.locates (ih h)

end Findings

/-- The search finds the functions and methods of a source, and nothing else. -/
theorem SourceText.findings_eq (source : SourceText) :
    (functionPattern.findAll source.text).map (Finding.ofMatch 1 source.text) =
      source.places.map Place.finding := by
  have hend : functionPattern.MissesAt [] := fun _ _ => rfl
  have htrail : functionPattern.Locates 1 ([] ++ source.parts.flatMap Part.text)
      (source.trail ++ []) [] := source.trail_quiet.locates (locates_nil hend)
  have hparts := locates_parts htrail
  rw [List.append_nil, List.append_nil] at hparts
  exact hparts.findAll_eq

/-! ### What is reported -/

def Head.routine (h : Head) : Routine := { name := h.name, signature := headOf h.text }

namespace Place

/-- A place seems to lie inside of a class if it belongs to a method, of whatever type, and the word
for classes occurs before it. -/
theorem Consistent.insideClass_eq {place : Place} (h : place.Consistent) :
    insideClass place.before =
      (place.owner?.isSome && Chars.contains place.before "class".toList) := by
  have hopens := h.opens
  rw [Opens, depth] at hopens
  rw [insideClass, hopens, Bool.and_comm]
  cases place.owner?.isSome <;> simp

/-- A function, or a method without the word for classes anywhere in front of it. -/
def reported (place : Place) : Bool :=
  place.owner?.isNone || !Chars.contains place.before "class".toList

theorem Consistent.reported_eq {place : Place} (h : place.Consistent) :
    (!insideClass place.before) = place.reported := by
  rw [h.insideClass_eq, reported, Bool.not_and, Option.not_isSome]

/-- A method of a class always has the word for classes in front of it, so only methods of other
types can be reported. -/
theorem Consistent.isNone_of_reported_iff {place : Place} (h : place.Consistent) :
    (place.reported = true → place.owner?.isNone = true) ↔
      ∀ kind ∈ place.owner?, kind ≠ .classType →
        Chars.contains place.before "class".toList = true := by
  have hword := h.word_infix
  rw [reported]
  cases howner : place.owner? with
  | none => simp
  | some kind =>
    have hclass : kind = .classType → Chars.contains place.before "class".toList = true := by
      rintro rfl
      have hinfix : TypeKind.classType.word.toList <:+: place.before := hword _ howner
      rw [TypeKind.word] at hinfix
      rwa [Chars.contains_iff_infix]
    simpa [or_iff_not_imp_left] using hclass

end Place

/-- The functions that are reported are told by the findings of the search. -/
theorem functionsIn_eq (code : List Char) :
    functionsIn code = (((functionPattern.findAll code).map (Finding.ofMatch 1 code)).filter
      fun f => !insideClass f.before).map
        fun f => { name := f.value, signature := headOf f.chars } := by
  rw [List.filter_map, List.map_map]
  rfl

/-- If one choice from a list is part of another, what is made of them is the same only if the
choices are the same. -/
theorem map_filter_eq_map_filter_iff {α β : Type} {f : α → β} {p q : α → Bool} {l : List α}
    (hqp : ∀ a ∈ l, q a = true → p a = true) :
    (l.filter p).map f = (l.filter q).map f ↔ ∀ a ∈ l, p a = true → q a = true := by
  constructor
  · intro hsame a ha hp
    have hpart : (l.filter p).filter q = l.filter q := by
      rw [List.filter_filter]
      exact List.filter_congr fun a ha => by
        cases hq : q a with
        | false => rfl
        | true => rw [hqp a ha hq]; rfl
    have hlength : ((l.filter p).filter q).length = (l.filter p).length := by
      rw [hpart, ← List.length_map f, ← hsame, List.length_map]
    exact List.length_filter_eq_length_iff.mp hlength a (List.mem_filter.mpr ⟨ha, hp⟩)
  · intro hpq
    rw [List.filter_congr fun a ha => Bool.eq_iff_iff.mpr ⟨hpq a ha, hqp a ha⟩]

namespace SourceText

theorem functionsIn_text (source : SourceText) :
    functionsIn source.text = (source.places.filter Place.reported).map (·.head.routine) := by
  have hreported : ∀ place ∈ source.places,
      ((fun f : Finding => !insideClass f.before) ∘ Place.finding) place = place.reported :=
    fun place h => (consistent_of_mem_placesIn (by decide) h).reported_eq
  rw [functionsIn_eq, findings_eq, List.filter_map, List.map_map, List.filter_congr hreported]
  rfl

/-- The places outside of all types are those of the functions. -/
theorem filter_placesIn (before : List Char) (parts : List Part) :
    ((placesIn before parts).filter (·.owner?.isNone)).map (·.head) =
      parts.filterMap Part.function? := by
  induction parts generalizing before with
  | nil => rfl
  | cons p ps ih =>
    rw [placesIn, List.filter_append, List.map_append, ih]
    cases p with
    | function f => rfl
    | type t =>
      have hmethods : ∀ place ∈ (Part.type t).places before, ¬ place.owner?.isNone = true :=
        fun place h => by simp [owner?_of_mem_placesOf h]
      rw [List.filter_eq_nil_iff.mpr hmethods]
      rfl

end SourceText

/-- The functions that are reported are those outside of all types and the methods without the word
for classes in front of them.  So they are the functions outside of all types exactly if every
method of an interface or trait has that word somewhere in front of it. -/
theorem functions_read (options : ReadOptions) (source : SourceText) :
    (read options source.text).functions =
        (source.places.filter Place.reported).map (·.head.routine) ∧
      ((read options source.text).functions = source.functions.map Head.routine ↔
        ∀ place ∈ source.places, ∀ kind ∈ place.owner?, kind ≠ .classType →
          Chars.contains place.before "class".toList = true) := by
  have hread : (read options source.text).functions =
      (source.places.filter Place.reported).map (·.head.routine) := source.functionsIn_text
  have hfunctions : source.functions.map Head.routine =
      (source.places.filter (·.owner?.isNone)).map (·.head.routine) := by
    rw [SourceText.functions, ← SourceText.filter_placesIn [], List.map_map]
    rfl
  have hreported : ∀ place ∈ source.places, place.owner?.isNone = true → place.reported = true :=
    fun place _ h => by simp [Place.reported, h]
  rw [hread, hfunctions, map_filter_eq_map_filter_iff hreported]
  exact ⟨rfl, forall₂_congr fun place h =>
    (consistent_of_mem_placesIn (by decide) h).isNone_of_reported_iff⟩

def bareHead (name : String) (hname : MadeOf isWord name) : Head where
  gap := " "
  name := name
  space := ""
  parameters := ""
  after := " "
  result? := none
  gap_blank := by decide
  name_word := hname
  space_blank := blank_empty
  parameters_open := by simp
  after_blank := blank_space

def areaHead : Head where
  gap := " "
  name := "area"
  space := " "
  parameters := "$unit = 1"
  after := ""
  result? := some ⟨" ", "int|float", "", blank_space, by decide, blank_empty⟩
  gap_blank := by decide
  name_word := by decide
  space_blank := blank_space
  parameters_open := by decide
  after_blank := blank_empty

def functionNamed (name : String) (hname : MadeOf isWord name) : FunctionText where
  lead := "\n".toList
  head := bareHead name hname
  body := " if ($x) \x7b y(); \x7d ".toList
  lead_quiet := quiet_of_tails (by decide)
  lead_balanced := by decide
  parameters_balanced := by simp [bareHead, Opens]
  body_quiet := quiet_of_tails (by decide)
  body_balanced := by decide

def shape : TypeText where
  lead := "<?php\n".toList
  kind := .interfaceType
  naming := " Shape ".toList
  methods := []
  trail := " public ".toList ++ areaHead.upTo ';' ++ [' ']
  heading_quiet := quiet_of_tails (by decide)
  heading_balanced := by decide
  trail_quiet := ((Quiet.append (quiet_of_tails (by decide)) areaHead.quiet_declaration).append
    (quiet_of_tails (by decide))).append (quiet_of_tails (by decide))
  trail_balanced := by decide

def box : TypeText where
  lead := "\nfinal ".toList
  kind := .classType
  naming := " Box ".toList
  methods :=
    [⟨" private $w; public ".toList, areaHead, " return 1; ".toList, quiet_of_tails (by decide),
      by decide, by decide, quiet_of_tails (by decide), by decide⟩]
  trail := "\n".toList
  heading_quiet := quiet_of_tails (by decide)
  heading_balanced := by decide
  trail_quiet := quiet_of_tails (by decide)
  trail_balanced := by decide

def named : TypeText where
  lead := []
  kind := .traitType
  naming := " T ".toList
  methods :=
    [⟨[' '], bareHead "f" (by decide), [' '], quiet_of_tails (by decide), by decide, by decide,
      quiet_of_tails (by decide), by decide⟩]
  trail := [' ']
  heading_quiet := quiet_of_tails (by decide)
  heading_balanced := by decide
  trail_quiet := quiet_of_tails (by decide)
  trail_balanced := by decide

/-- A source with functions around types of every kind. -/
def shapes : SourceText where
  parts := [.type shape, .function (functionNamed "first" (by decide)), .type box, .type named,
    .function (functionNamed "last" (by decide))]
  trail := "\n".toList
  trail_quiet := quiet_of_tails (by decide)

/-- The trait has a class in front of it, so its method is left out. -/
theorem shapes_functions_read :
    (read {} shapes.text).functions = shapes.functions.map Head.routine ∧
      shapes.functions.map (·.name) = ["first", "last"] ∧
        shapes.places.map (·.head.name) = ["first", "area", "f", "last"] := by
  refine ⟨(functions_read {} shapes).2.mpr ?_, rfl, rfl⟩
  decide +kernel

def traitAlone : SourceText := ⟨[.type named], [], quiet_of_tails (by decide)⟩

/-- Without a class in front of it, the method of a trait is reported. -/
theorem trait_method_reported :
    traitAlone.text = "trait T \x7b function f() \x7b \x7d \x7d".toList ∧
      traitAlone.functions = [] ∧
      (read {} traitAlone.text).functions.map (fun r => (r.name, r.signature)) =
        [("f", "function f()")] := by
  refine ⟨by decide, rfl, ?_⟩
  decide

end CodeScribe.Php

import Mathlib.Data.List.Infix
import CodeScribe.Proofs.Text.Search
import CodeScribe.Source.Php

/-!
# Heads of functions

The head of a function is a keyword, a name, parameters and perhaps a result, up to the brace that
opens its body.  A search for functions finds exactly such heads.
-/

namespace CodeScribe.Php

open Text Pattern Declaration

variable {s t : Cursor} {rest : List Char}

/-! ### Heads -/

def isResultChar (c : Char) : Bool := isWord c || c == '|'

theorem isResultChar_of_isBlank {c : Char} (h : isBlank c = true) : isResultChar c = false := by
  rw [isResultChar, isWord_of_isBlank h, Bool.false_or, beq_eq_false_iff_ne]
  rintro rfl
  exact absurd h (by decide)

theorem isBlank_of_isResultChar {c : Char} (h : isResultChar c = true) : isBlank c = false := by
  rw [isResultChar, Bool.or_eq_true, beq_iff_eq] at h
  obtain h | rfl := h
  · exact isBlank_of_isWord h
  · decide

/-- The result in a head: a colon and a type, with white space around the type. -/
structure Result where
  before : String
  type : String
  after : String
  before_blank : ∀ c ∈ before.toList, isBlank c = true
  type_chars : MadeOf isResultChar type
  after_blank : ∀ c ∈ after.toList, isBlank c = true

def Result.text (r : Result) : List Char :=
  ':' :: (r.before.toList ++ (r.type.toList ++ r.after.toList))

def resultText (r? : Option Result) : List Char := (r?.map Result.text).getD []

structure Head where
  gap : String
  name : String
  space : String
  parameters : String
  after : String
  result? : Option Result
  gap_blank : MadeOf isBlank gap
  name_word : MadeOf isWord name
  space_blank : ∀ c ∈ space.toList, isBlank c = true
  parameters_open : ')' ∉ parameters.toList
  after_blank : ∀ c ∈ after.toList, isBlank c = true

/-- The word with which a head begins. -/
def keyword : String := "function"

theorem keyword_word : MadeOf isWord keyword := by decide

namespace Head

def front (h : Head) : List Char :=
  keyword.toList ++ (h.gap.toList ++ (h.name.toList ++ h.space.toList))

/-- What stands behind the parameters. -/
def back (h : Head) : List Char := h.after.toList ++ resultText h.result?

/-- A head with the character that ends it. -/
def upTo (h : Head) (stop : Char) : List Char :=
  h.front ++ '(' :: (h.parameters.toList ++ ')' :: (h.back ++ [stop]))

/-- The head of a function that has a body, with the brace that opens it. -/
def text (h : Head) : List Char := h.upTo '{'

theorem mem_front {h : Head} {c : Char} (hc : c ∈ h.front) :
    isWord c = true ∨ isBlank c = true := by
  simp only [front, List.mem_append] at hc
  obtain hc | hc | hc | hc := hc
  · exact .inl (keyword_word.2 c hc)
  · exact .inr (h.gap_blank.2 c hc)
  · exact .inl (h.name_word.2 c hc)
  · exact .inr (h.space_blank c hc)

theorem mem_back {h : Head} {c : Char} (hc : c ∈ h.back) :
    isBlank c = true ∨ isResultChar c = true ∨ c = ':' := by
  obtain hc | hc := List.mem_append.mp hc
  · exact .inl (h.after_blank c hc)
  · cases hresult : h.result? with
    | none => simp [hresult, resultText] at hc
    | some r =>
      simp only [hresult, resultText, Option.map_some, Option.getD_some, Result.text,
        List.mem_cons, List.mem_append] at hc
      obtain hc | hc | hc | hc := hc
      · exact .inr (.inr hc)
      · exact .inl (r.before_blank c hc)
      · exact .inr (.inl (r.type_chars.2 c hc))
      · exact .inl (r.after_blank c hc)

theorem not_mem_front (h : Head) {c : Char} (hword : isWord c = false)
    (hblank : isBlank c = false) : c ∉ h.front := by
  intro hc
  obtain hc | hc := mem_front hc
  · exact absurd hc (by simp [hword])
  · exact absurd hc (by simp [hblank])

theorem not_mem_back (h : Head) {c : Char} (hblank : isBlank c = false)
    (hresult : isResultChar c = false) (hcolon : c ≠ ':') : c ∉ h.back := by
  intro hc
  obtain hc | hc | hc := mem_back hc
  · exact absurd hc (by simp [hblank])
  · exact absurd hc (by simp [hresult])
  · exact hcolon hc

end Head

/-! ### How heads are read -/

def resultPattern : Pattern := char ':' ++ blanks ++ span1 isResultChar

theorem functionPattern_eq : functionPattern = lit keyword ++ blanks1 ++ group 1 name ++ blanks ++
    arguments ++ blanks ++ opt resultPattern ++ blanks ++ char '{' := rfl

theorem consumes_result (r? : Option Result) (rest : List Char) :
    (opt resultPattern ++ blanks).Consumes (resultText r?) ('{' :: rest) [] := by
  cases r? with
  | none =>
    have hopt : (opt resultPattern).Consumes [] ('{' :: rest) [] := by
      refine consumes_opt_nil ?_
      rintro s t hs ⟨u, ⟨v, ⟨c, hc, hreads, -⟩, -⟩, -⟩
      obtain ⟨rfl, -⟩ := List.cons.inj (hs.symm.trans hreads.rest)
      exact absurd hc (by decide)
    exact hopt.pass (consumes_span (by simp) rfl)
  | some r =>
    have hunbroken : Unbroken r.type.toList := fun c hc =>
      isBlank_of_isResultChar (r.type_chars.2 c hc)
    have hedge : (r.after.toList ++ '{' :: rest).head?.any isResultChar = false :=
      head?_append_any (fun c hc => isResultChar_of_isBlank (r.after_blank c hc))
        (show ('{' :: rest).head?.any isResultChar = false from
          (by decide : isResultChar '{' = false))
    have hcolon (cs : List Char) : (char ':').Consumes [':'] cs [] := consumes_one rfl cs
    have hblanks (cs : List Char) : blanks.Consumes r.before.toList (r.type.toList ++ cs) [] :=
      consumes_span r.before_blank (hunbroken.head?_append r.type_chars.1 cs)
    have htype := consumes_span1 r.type_chars.1 r.type_chars.2 hedge
    have hafter : blanks.Consumes r.after.toList ('{' :: rest) [] := consumes_span r.after_blank rfl
    have hall := ((((hcolon _).seq (hblanks _)).seq htype).orElse nothing).seq hafter
    exact hall.of_eq (by simp [resultText, Result.text])

theorem consumes_arguments {parameters : List Char} (hopen : ')' ∉ parameters) (rest : List Char) :
    arguments.Consumes ('(' :: (parameters ++ [')'])) rest [] := by
  have hopening : (char '(').Consumes ['('] (parameters ++ ([')'] ++ rest)) [] :=
    consumes_one rfl _
  have hinner : (span (· != ')')).Consumes parameters ([')'] ++ rest) [] :=
    consumes_span (fun c hc => bne_iff_ne.mpr (ne_of_mem_of_not_mem hc hopen)) rfl
  have hclosing : (char ')').Consumes [')'] rest [] := consumes_one rfl _
  exact (hopening.seq hinner).seq hclosing

/-- A head is read as it stands, and its name with it. -/
theorem Head.consumes (h : Head) (rest : List Char) :
    functionPattern.Consumes h.text rest [(1, h.name.toList)] := by
  have hword := unbroken_of_isWord h.name_word.2
  have hedge (cs : List Char) : (h.space.toList ++ '(' :: cs).head?.any isWord = false :=
    head?_append_any (fun c hc => isWord_of_isBlank (h.space_blank c hc))
      (show ('(' :: cs).head?.any isWord = false from (by decide : isWord '(' = false))
  have hedge' : (resultText h.result? ++ '{' :: rest).head?.any isBlank = false := by
    cases h.result? <;> rfl
  have hgap (cs : List Char) : blanks1.Consumes h.gap.toList (h.name.toList ++ cs) [] :=
    consumes_span1 h.gap_blank.1 h.gap_blank.2 (hword.head?_append h.name_word.1 cs)
  have hname (cs : List Char) := (consumes_span1 h.name_word.1 h.name_word.2 (hedge cs)).group 1
  have hspace (cs : List Char) : blanks.Consumes h.space.toList
      ('(' :: (h.parameters.toList ++ [')']) ++ cs) [] := consumes_span h.space_blank rfl
  have harguments := consumes_arguments h.parameters_open
  have hafter : blanks.Consumes h.after.toList (resultText h.result? ++ '{' :: rest) [] :=
    consumes_span h.after_blank hedge'
  have hbrace : (char '{').Consumes ['{'] rest [] := consumes_one rfl rest
  have hfront (cs : List Char) :=
    (((consumes_lit keyword _).seq (hgap _)).seq (hname _)).seq (hspace cs)
  have hback := (((hfront _).seq (harguments _)).seq hafter).seq (consumes_result h.result? rest)
  exact (hback.assoc.seq hbrace).of_eq (by simp [text, upTo, front, back])

/-! ### What is read is a head -/

/-- What is read of a result and of the white space behind it is a result or white space. -/
theorem exists_of_fits_result (h : (opt resultPattern ++ blanks).Fits s t) :
    ∃ b r?, (∀ c ∈ b, isBlank c = true) ∧ s.rest = b ++ (resultText r? ++ t.rest) := by
  obtain ⟨m, hopt, after, hafter, hreads, -⟩ := h
  obtain ⟨u, ⟨v, ⟨c, hc, hcolon, -⟩, before, hbefore, hblanks, -⟩, htype⟩ | rfl := hopt
  · obtain ⟨type, hne, htype, hchars⟩ := htype.span1
    obtain rfl : c = ':' := beq_iff_eq.mp hc
    refine ⟨[], some ⟨String.ofList before, String.ofList type, String.ofList after, ?_, ?_, ?_⟩,
      by simp, ?_⟩
    · simpa using hbefore
    · simpa [MadeOf] using ⟨hne, htype⟩
    · simpa using hafter
    · rw [hcolon.rest, hblanks.rest, hchars.rest, hreads.rest]
      simp [resultText, Result.text]
  · exact ⟨after, none, hafter, hreads.rest⟩

theorem exists_of_fits_arguments (h : arguments.Fits s t) :
    ∃ parameters, ')' ∉ parameters ∧ s.rest = '(' :: (parameters ++ ')' :: t.rest) := by
  obtain ⟨m, ⟨u, ⟨c, hc, hopening, -⟩, parameters, hparameters, hinner, -⟩, d, hd, hclosing, -⟩ := h
  obtain rfl : c = '(' := beq_iff_eq.mp hc
  obtain rfl : d = ')' := beq_iff_eq.mp hd
  refine ⟨parameters, fun hmem => ?_, by rw [hopening.rest, hinner.rest, hclosing.rest]; rfl⟩
  exact absurd (hparameters _ hmem) (by decide)

theorem Head.exists_of_fits (h : functionPattern.Fits s t) :
    ∃ h : Head, s.rest = h.text ++ t.rest := by
  rw [functionPattern_eq] at h
  obtain ⟨m₅, ⟨m₄, ⟨m₃, ⟨m₂, ⟨m₁, hfront, harguments⟩, after, hafter, hreads, -⟩, hopt⟩, hend⟩,
    c, hc, hbrace, -⟩ := h
  obtain ⟨u₃, ⟨u₂, ⟨u₁, hkeyword, hgap⟩, hname⟩, space, hspace, hreads', -⟩ := hfront
  obtain ⟨gap, hgap, hs₁⟩ := hgap.blanks1
  obtain ⟨name, hne, hname, hs₂⟩ := hname.group_span1
  obtain ⟨parameters, hopen, hs₃⟩ := exists_of_fits_arguments harguments
  obtain ⟨b, r?, hb, hs₄⟩ := exists_of_fits_result ⟨m₄, hopt, hend⟩
  obtain rfl : c = '{' := beq_iff_eq.mp hc
  refine ⟨⟨String.ofList gap, String.ofList name, String.ofList space, String.ofList parameters,
    String.ofList (after ++ b), r?, ?_, ?_, ?_, ?_, ?_⟩, ?_⟩
  · simpa [MadeOf, Gap] using hgap
  · simpa [MadeOf] using ⟨hne, hname⟩
  · simpa using hspace
  · simpa using hopen
  · simpa [or_imp, forall_and] using ⟨hafter, hb⟩
  · rw [hkeyword.lit, hs₁, hs₂, hreads'.rest, hs₃, hreads.rest, hs₄, hbrace.rest]
    simp only [text, upTo, front, back, String.toList_ofList, List.append_assoc, List.cons_append,
      List.nil_append]

/-! ### Texts without heads -/

/-- No head begins in a text, whatever stands behind it. -/
def Quiet (w : List Char) : Prop :=
  ∀ v, v ≠ [] → v <:+ w → ∀ rest (h : Head), ¬ h.text <+: v ++ rest

namespace Quiet

variable {w w' : List Char}

theorem missesAt (hw : Quiet w) {v : List Char} (hne : v ≠ []) (hv : v <:+ w) (rest : List Char) :
    functionPattern.MissesAt (v ++ rest) := by
  refine missesAt_of_not_fits fun s t hs hfits => ?_
  obtain ⟨h, hrest⟩ := Head.exists_of_fits hfits
  exact hw v hne hv rest h ⟨t.rest, by rw [← hrest, hs]⟩

theorem append (hw : Quiet w) (hw' : Quiet w') : Quiet (w ++ w') := by
  intro v hne hv rest h
  rcases List.suffix_or_suffix_of_suffix hv (List.suffix_append w w') with hv' | ⟨u, rfl⟩
  · exact hw' v hne hv' rest h
  · -- the tail begins in the first part, unless it is all of the second
    cases u with
    | nil => exact hw' w' hne List.suffix_rfl rest h
    | cons c u =>
      rw [List.append_assoc]
      exact hw (c :: u) (List.cons_ne_nil c u) (List.suffix_append_self_iff.mp hv) _ h

end Quiet

/-- A text is quiet if the keyword does not begin in it, be it in part. -/
theorem quiet_of_tails {w : List Char}
    (hw : ∀ v ∈ w.tails, v ≠ [] → ¬ keyword.toList <+: v ∧ ¬ v <+: keyword.toList) : Quiet w := by
  intro v hne hv rest h hprefix
  have hkeyword : keyword.toList <+: v ++ rest := by
    refine List.IsPrefix.trans ?_ hprefix
    rw [Head.text, Head.upTo, Head.front, List.append_assoc]
    exact List.prefix_append _ _
  obtain ⟨hbegins, hpart⟩ := hw v ((List.mem_tails v w).mpr hv) hne
  exact (List.prefix_or_prefix_of_prefix hkeyword (List.prefix_append v rest)).elim hbegins hpart

namespace Head

/-- A head has an opening parenthesis in front of its first semicolon. -/
theorem not_begins_of_no_open (h : Head) {b : List Char} (hopen : '(' ∉ b) (hend : ';' ∉ b)
    (rest : List Char) : ¬ h.text <+: b ++ ';' :: rest := by
  rintro ⟨r, hr⟩
  rw [text, upTo, List.append_assoc, List.cons_append] at hr
  have hfront : ∀ c ∈ h.front, (c == '(' || c == ';') = false := fun c hc => by
    simp [ne_of_mem_of_not_mem hc (h.not_mem_front (c := '(') (by decide) (by decide)),
      ne_of_mem_of_not_mem hc (h.not_mem_front (c := ';') (by decide) (by decide))]
  have hb : ∀ c ∈ b, (c == '(' || c == ';') = false := fun c hc => by
    simp [ne_of_mem_of_not_mem hc hopen, ne_of_mem_of_not_mem hc hend]
  exact absurd (Chars.cut_char hfront hb rfl rfl hr) (by decide)

/-- A head has a brace behind its first closing parenthesis, and no semicolon in between. -/
theorem not_begins_of_back (h h' : Head) {p : List Char} (hp : ')' ∉ p) (rest : List Char) :
    ¬ h'.text <+: p ++ ')' :: (h.back ++ ';' :: rest) := by
  rintro ⟨r, hr⟩
  have hsplit : (h'.front ++ '(' :: h'.parameters.toList) ++ ')' :: (h'.back ++ '{' :: r) =
      p ++ ')' :: (h.back ++ ';' :: rest) := by
    rw [← hr, text, upTo]
    simp only [List.append_assoc, List.cons_append, List.nil_append]
  have hopen : ')' ∉ h'.front ++ '(' :: h'.parameters.toList := by
    rw [List.mem_append, List.mem_cons]
    rintro (hc | hc | hc)
    · exact h'.not_mem_front (by decide) (by decide) hc
    · exact absurd hc (by decide)
    · exact h'.parameters_open hc
  obtain ⟨-, hback⟩ := Chars.cut_at hopen hp hsplit
  have hends (h : Head) : ∀ c ∈ h.back, (c == '{' || c == ';') = false := fun c hc => by
    simp [ne_of_mem_of_not_mem hc (h.not_mem_back (c := '{') (by decide) (by decide) (by decide)),
      ne_of_mem_of_not_mem hc (h.not_mem_back (c := ';') (by decide) (by decide) (by decide))]
  exact absurd (Chars.cut_char (hends h') (hends h) rfl rfl hback) (by decide)

theorem quiet_declaration (h : Head) : Quiet (h.upTo ';') := by
  intro v hne hv rest h'
  have hsplit : h.upTo ';' =
      (h.front ++ '(' :: (h.parameters.toList ++ [')'])) ++ (h.back ++ [';']) := by
    simp [upTo]
  rw [hsplit] at hv
  -- a tail begins behind the parameters, or it has their closing parenthesis
  rcases List.suffix_or_suffix_of_suffix hv (List.suffix_append _ _) with hback | ⟨u, rfl⟩
  · obtain rfl | ⟨b, rfl, hb⟩ := List.suffix_concat_iff.mp hback
    · exact absurd rfl hne
    · rw [List.append_assoc]
      exact h'.not_begins_of_no_open
        (fun hc => h.not_mem_back (by decide) (by decide) (by decide) (hb.subset hc))
        (fun hc => h.not_mem_back (by decide) (by decide) (by decide) (hb.subset hc)) rest
  · have hu := List.suffix_append_self_iff.mp hv
    rw [← List.cons_append, ← List.append_assoc] at hu
    obtain rfl | ⟨p, rfl, hp⟩ := List.suffix_concat_iff.mp hu
    · rw [List.nil_append, List.append_assoc]
      exact h'.not_begins_of_no_open (h.not_mem_back (by decide) (by decide) (by decide))
        (h.not_mem_back (by decide) (by decide) (by decide)) rest
    · have hopen : ')' ∉ p := fun hc => by
        have hmem := hp.subset hc
        rw [List.mem_append, List.mem_cons] at hmem
        obtain hc | hc | hc := hmem
        · exact h.not_mem_front (by decide) (by decide) hc
        · exact absurd hc (by decide)
        · exact h.parameters_open hc
      simpa using h.not_begins_of_back h' hopen rest

end Head

end CodeScribe.Php

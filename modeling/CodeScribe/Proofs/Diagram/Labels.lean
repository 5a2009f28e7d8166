import CodeScribe.Proofs.Diagram.NodeIds

/-!
# Labels between quotes

A label stands between double quotes.  A reader goes through it from left to right, and a backslash
makes the next character an ordinary one.  Labels are written for such a reader first and cut to
their length then, so the cut can come between a backslash and its character; this file says
exactly when it does, and that nothing else can go wrong.

* `Mermaid.label_between_quotes` — when the quote behind a label ends it;
* `Mermaid.long_label_left_open` — it need not.
-/

namespace CodeScribe.Mermaid

variable {c d : Char}

/-! ### Reading between quotes -/

/-- Whether the next character is escaped, behind a character that was read. -/
def waitsAfter (escaped : Bool) (c : Char) : Bool := !escaped && c == '\\'

/-- Whether a backslash still waits for its character at the end of a text. -/
def waitsFrom (escaped : Bool) (cs : List Char) : Bool := cs.foldl waitsAfter escaped

/-- The place of the first double quote that is not escaped. -/
def bareQuoteFrom? : Bool → List Char → Option Nat
  | _, [] => none
  | escaped, c :: rest =>
    if !escaped && c == '"' then some 0
    else (bareQuoteFrom? (waitsAfter escaped c) rest).map (· + 1)

/-- Whether a text ends in a backslash that waits for its character. -/
def waits (cs : List Char) : Bool := waitsFrom false cs

/-- The place of the first double quote in a text that no backslash escapes. -/
def bareQuote? (cs : List Char) : Option Nat := bareQuoteFrom? false cs

/-- Without a quote in the first part, reading goes on with the second. -/
theorem bareQuoteFrom?_append {escaped : Bool} {as : List Char}
    (h : bareQuoteFrom? escaped as = none) (bs : List Char) :
    bareQuoteFrom? escaped (as ++ bs)
      = (bareQuoteFrom? (waitsFrom escaped as) bs).map (· + as.length) := by
  induction as generalizing escaped with
  | nil => simp [waitsFrom]
  | cons a as ih =>
    rw [bareQuoteFrom?] at h
    split at h
    · cases h
    · rename_i hquote
      rw [List.cons_append, bareQuoteFrom?, if_neg hquote, ih (Option.map_eq_none_iff.mp h),
        Option.map_map]
      simp only [waitsFrom, List.foldl_cons, List.length_cons]
      congr 1

/-- A quote behind a text without one ends it exactly if no backslash waits. -/
theorem bareQuote?_append_quote {cs : List Char} (h : bareQuote? cs = none) (rest : List Char) :
    bareQuote? (cs ++ '"' :: rest) = some cs.length ↔ waits cs = false := by
  rw [bareQuote?, bareQuoteFrom?_append h, ← waits, bareQuoteFrom?]
  cases hwaits : waits cs with
  | false => simp
  | true =>
    simp only [Bool.not_true, Bool.false_and, Bool.false_eq_true, if_false, Option.map_map,
      Option.map_eq_some_iff, Function.comp_apply, reduceCtorEq, iff_false]
    rintro ⟨n, -, hn⟩
    omega

/-! ### Escaped texts -/

/-- The characters that get a backslash. -/
def isEscaped (c : Char) : Bool := c == '\\' || c == '"'

/-- What is written for a character of a label. -/
def escape (c : Char) : List Char :=
  if c == '\\' then ['\\', '\\'] else if c == '"' then ['\\', '"']
  else if c == '\n' || c == '\r' then [' '] else [c]

theorem escape_of_isEscaped (h : isEscaped c = true) : escape c = ['\\', c] := by
  rw [isEscaped, Bool.or_eq_true, beq_iff_eq, beq_iff_eq] at h
  rcases h with rfl | rfl <;> rfl

/-- Any other character is written as one that means nothing to the reader. -/
theorem escape_of_not_isEscaped (h : isEscaped c = false) :
    ∃ d, escape c = [d] ∧ isEscaped d = false ∧ d ≠ '\n' ∧ d ≠ '\r' := by
  have hparts := Bool.or_eq_false_iff.mp h
  rw [escape, hparts.1, hparts.2]
  cases hbreak : c == '\n' || c == '\r' with
  | true => exact ⟨' ', rfl, by decide⟩
  | false => exact ⟨c, rfl, h, by simpa using hbreak⟩

/-- A character that means nothing to the reader is passed over. -/
theorem waits_cons (h : isEscaped d = false) (cs : List Char) : waits (d :: cs) = waits cs := by
  have hbackslash : (d == '\\') = false := (Bool.or_eq_false_iff.mp h).1
  simp [waits, waitsFrom, waitsAfter, hbackslash]

theorem bareQuote?_cons (h : isEscaped d = false) (cs : List Char) :
    bareQuote? (d :: cs) = (bareQuote? cs).map (· + 1) := by
  have hparts := Bool.or_eq_false_iff.mp h
  simp [bareQuote?, bareQuoteFrom?, waitsAfter, hparts.1, hparts.2]

/-- A backslash and its character are passed over together. -/
theorem waits_escape_cons (c : Char) (cs : List Char) : waits ('\\' :: c :: cs) = waits cs := rfl

theorem bareQuote?_escape_cons (c : Char) (cs : List Char) :
    bareQuote? ('\\' :: c :: cs) = (bareQuote? cs).map (· + 2) := by
  simp [bareQuote?, bareQuoteFrom?, waitsAfter, Function.comp_def]

theorem label_eq (limit : Nat) (s : String) :
    label limit s = if s.toList.flatMap escape = [] then "file"
      else String.ofList ((s.toList.flatMap escape).take limit) := by
  rw [label]
  simp only [List.isEmpty_iff]
  rfl

theorem ne_lineBreak_of_mem_escape (h : d ∈ escape c) : d ≠ '\n' ∧ d ≠ '\r' := by
  cases hc : isEscaped c with
  | true =>
    have hbackslash : c ≠ '\n' ∧ c ≠ '\r' := by
      constructor <;> rintro rfl <;> exact absurd hc (by decide)
    rw [escape_of_isEscaped hc, List.mem_pair] at h
    rcases h with rfl | rfl
    · decide
    · exact hbackslash
  | false =>
    obtain ⟨e, he, -, hbreaks⟩ := escape_of_not_isEscaped hc
    rw [he, List.mem_singleton] at h
    rw [h]
    exact hbreaks

/-! ### Cuts -/

/-- A length that separates a backslash from its character: it ends one place behind some
characters, each escaped one counted twice, in front of one that is escaped. -/
def CutsEscape (cs : List Char) (limit : Nat) : Prop :=
  ∃ before c after, cs = before ++ c :: after ∧ isEscaped c = true ∧
    before.length + before.countP isEscaped + 1 = limit

theorem not_cutsEscape_nil (limit : Nat) : ¬ CutsEscape [] limit := by
  rintro ⟨before, c, after, h, -⟩
  simp at h

theorem not_cutsEscape_zero (cs : List Char) : ¬ CutsEscape cs 0 := by
  rintro ⟨before, c, after, -, -, h⟩
  omega

theorem cutsEscape_cons_iff {cs : List Char} {limit : Nat} :
    CutsEscape (c :: cs) limit ↔ isEscaped c = true ∧ limit = 1 ∨
      ∃ rest, CutsEscape cs rest ∧ limit = rest + (if isEscaped c then 2 else 1) := by
  constructor
  · rintro ⟨before, d, after, heq, hd, hlimit⟩
    cases before with
    | nil =>
      obtain ⟨rfl, -⟩ := List.cons.inj heq
      exact .inl ⟨hd, hlimit.symm⟩
    | cons e before =>
      obtain ⟨rfl, rfl⟩ := List.cons.inj heq
      refine .inr ⟨_, ⟨before, d, after, rfl, hd, rfl⟩, ?_⟩
      rw [← hlimit, List.length_cons, List.countP_cons]
      split <;> omega
  · rintro (⟨hc, rfl⟩ | ⟨rest, ⟨before, d, after, rfl, hd, rfl⟩, rfl⟩)
    · exact ⟨[], c, cs, rfl, hc, rfl⟩
    · refine ⟨c :: before, d, after, rfl, hd, ?_⟩
      rw [List.length_cons, List.countP_cons]
      split <;> omega

/-- A cut text ends in a waiting backslash exactly if the cut came behind that backslash. -/
theorem waits_take_escape_iff (cs : List Char) (limit : Nat) :
    waits ((cs.flatMap escape).take limit) = true ↔ CutsEscape cs limit := by
  induction cs generalizing limit with
  | nil => simp [waits, waitsFrom, not_cutsEscape_nil]
  | cons c cs ih =>
    cases limit with
    | zero => simp [waits, waitsFrom, not_cutsEscape_zero]
    | succ limit =>
      rw [List.flatMap_cons, cutsEscape_cons_iff]
      cases hc : isEscaped c with
      | false =>
        obtain ⟨d, hd, hplain, -⟩ := escape_of_not_isEscaped hc
        rw [hd, List.singleton_append, List.take_succ_cons, waits_cons hplain, ih]
        simp
      | true =>
        rw [escape_of_isEscaped hc]
        cases limit with
        | zero => simp [waits, waitsFrom, waitsAfter]
        | succ limit =>
          rw [List.cons_append, List.singleton_append, List.take_succ_cons, List.take_succ_cons,
            waits_escape_cons, ih]
          simp

/-- However a text is cut, no quote in it ends it. -/
theorem bareQuote?_take_escape (cs : List Char) (limit : Nat) :
    bareQuote? ((cs.flatMap escape).take limit) = none := by
  induction cs generalizing limit with
  | nil => simp [bareQuote?, bareQuoteFrom?]
  | cons c cs ih =>
    cases limit with
    | zero => rfl
    | succ limit =>
      rw [List.flatMap_cons]
      cases hc : isEscaped c with
      | false =>
        obtain ⟨d, hd, hplain, -⟩ := escape_of_not_isEscaped hc
        rw [hd, List.singleton_append, List.take_succ_cons, bareQuote?_cons hplain, ih]
        rfl
      | true =>
        rw [escape_of_isEscaped hc]
        cases limit with
        | zero => rfl
        | succ limit =>
          rw [List.cons_append, List.singleton_append, List.take_succ_cons, List.take_succ_cons,
            bareQuote?_escape_cons, ih]
          rfl

/-! ### Labels -/

/-- The name that stands for an empty label has nothing to escape, and any other label is a cut. -/
theorem toList_label (limit : Nat) (s : String) :
    (label limit s).toList = "file".toList ∧ s.toList.flatMap escape = [] ∨
      (label limit s).toList = (s.toList.flatMap escape).take limit := by
  rw [label_eq]
  split
  · rename_i hempty
    exact .inl ⟨rfl, hempty⟩
  · exact .inr String.toList_ofList

theorem ne_lineBreak_of_mem_label {limit : Nat} {s : String} (h : d ∈ (label limit s).toList) :
    d ≠ '\n' ∧ d ≠ '\r' := by
  rcases toList_label limit s with ⟨hfile, -⟩ | hcut
  · rw [hfile] at h
    constructor <;> rintro rfl <;> exact absurd h (by decide)
  · rw [hcut] at h
    obtain ⟨c, -, hd⟩ := List.mem_flatMap.mp (List.mem_of_mem_take h)
    exact ne_lineBreak_of_mem_escape hd

theorem bareQuote?_label (limit : Nat) (s : String) : bareQuote? (label limit s).toList = none := by
  rcases toList_label limit s with ⟨hfile, -⟩ | hcut
  · rw [hfile]
    decide
  · rw [hcut]
    exact bareQuote?_take_escape _ _

theorem waits_label_iff (limit : Nat) (s : String) :
    waits (label limit s).toList = true ↔ CutsEscape s.toList limit := by
  rcases toList_label limit s with ⟨hfile, hempty⟩ | hcut
  · rw [hfile, ← waits_take_escape_iff, hempty, List.take_nil]
    decide
  · rw [hcut]
    exact waits_take_escape_iff _ _

/-- **What a label can do to its quotes.**  A label has no line ends, and no quote in it ends it.
It ends in a backslash that waits for its character exactly if the text has a quote or backslash
in front of which the characters, those with a backslash counted twice, fill all places but one.
So the quote behind the label is the first that ends it exactly if that is not the case. -/
theorem label_between_quotes (limit : Nat) (s : String) :
    '\n' ∉ (label limit s).toList ∧ '\r' ∉ (label limit s).toList ∧
      bareQuote? (label limit s).toList = none ∧
      (waits (label limit s).toList = true ↔ CutsEscape s.toList limit) ∧
      ∀ rest, bareQuote? ((label limit s).toList ++ '"' :: rest)
        = some (label limit s).toList.length ↔ ¬ CutsEscape s.toList limit := by
  have hbreaks {d : Char} (h : d ∈ (label limit s).toList) := ne_lineBreak_of_mem_label h
  refine ⟨fun h => (hbreaks h).1 rfl, fun h => (hbreaks h).2 rfl, bareQuote?_label limit s,
    waits_label_iff limit s, fun rest => ?_⟩
  rw [bareQuote?_append_quote (bareQuote?_label limit s), ← waits_label_iff, Bool.not_eq_true]

/-- A name of 120 characters, of which the last one is a quote. -/
def quotedName : String := String.ofList (List.replicate 119 'a' ++ ['"'])

/-- **A label that is left open.**  The last place goes to the backslash of a quote, and the quote
behind the label is read as a part of it. -/
theorem long_label_left_open :
    waits (label 120 quotedName).toList = true ∧
      bareQuote? ((label 120 quotedName).toList ++ ['"', ']']) = none := by
  have hname : quotedName.toList = List.replicate 119 'a' ++ ['"'] := String.toList_ofList
  have hescaped : quotedName.toList.flatMap escape = List.replicate 119 'a' ++ ['\\', '"'] := by
    rewrite [hname]
    decide
  have hlabel : (label 120 quotedName).toList = List.replicate 119 'a' ++ ['\\'] := by
    rw [label_eq, hescaped, if_neg (List.append_ne_nil_of_right_ne_nil _ (List.cons_ne_nil _ _)),
      String.toList_ofList, List.take_append, List.length_replicate,
      List.take_of_length_le (by rw [List.length_replicate]; omega)]
    rfl
  rw [hlabel]
  decide +kernel

end CodeScribe.Mermaid

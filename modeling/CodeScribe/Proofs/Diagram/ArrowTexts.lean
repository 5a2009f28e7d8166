import Mathlib.Data.List.TakeWhile
import CodeScribe.Proofs.Diagram.NodeIds
import CodeScribe.Proofs.Diagram.Replies
import CodeScribe.Proofs.Text.Replacing

/-!
# The texts of arrows

A drawing is cleaned line by line: an arrow gets clean names and a clean text.  Its text is read up
to the next backslash or letter n, and what comes behind is left as it is, unless there is another
arrow in it.

* `ClassSequence.arrow_text_clean_iff` — when the text of an arrow is clean;
* `ClassSequence.blank_kept_in_arrow_text` — it may not be.
-/

namespace CodeScribe.ClassSequence

open Pattern Chars
open Text (isWord isBlank MadeOf)

variable {c : Char} {t bl cs line : List Char} {arrow x y : String}

/-! ### What an arrow takes in -/

/-- The part of a text that the text of an arrow reaches: up to a backslash or a letter n. -/
def reached (t : List Char) : List Char := t.takeWhile (noneOf "\\n")

/-- The part of a text that the text of an arrow does not reach. -/
def missed (t : List Char) : List Char := t.dropWhile (noneOf "\\n")

def drawn (c : Char) : Char := if isArrowText c then c else '_'

theorem noneOf_of_isBlank (h : isBlank c = true) : noneOf "\\n" c = true := by
  rw [noneOf, Bool.not_eq_true', Bool.eq_false_iff]
  intro hmem
  have hc : c = '\\' ∨ c = 'n' := by simpa using hmem
  rcases hc with rfl | rfl <;> exact absurd h (by decide)

theorem head?_missed (t : List Char) : (missed t).head?.any (noneOf "\\n") = false := by
  rw [missed]
  cases h : t.dropWhile (noneOf "\\n") with
  | nil => rfl
  | cons c r =>
    have hhead := List.head?_dropWhile_not (noneOf "\\n") t
    simpa [h] using hhead

/-- A text that is not blank, as its blanks in front and the rest. -/
theorem exists_blanks_cons (h : ∃ c ∈ t, isBlank c = false) :
    ∃ bl c r, t = bl ++ c :: r ∧ (∀ b ∈ bl, isBlank b = true) ∧ isBlank c = false := by
  obtain ⟨d, hd, hblank⟩ := h
  have hne : t.dropWhile isBlank ≠ [] := by
    intro hnil
    have hall := List.dropWhile_eq_nil_iff.mp hnil d hd
    rw [hblank] at hall
    cases hall
  have hhead := List.head?_dropWhile_not isBlank t
  obtain ⟨c, r, hr⟩ := List.exists_cons_of_ne_nil hne
  refine ⟨t.takeWhile isBlank, c, r, ?_, fun b hb => List.mem_takeWhile_imp hb, ?_⟩
  · rw [← hr, List.takeWhile_append_dropWhile]
  · simpa [hr] using hhead

theorem trim_append_of_blank (h : ∀ b ∈ bl, isBlank b = true) (t : List Char) :
    trim (bl ++ t) = trim t := by
  rw [trim, trimOf, trimLeftOf, List.dropWhile_append_of_pos h]
  rfl

theorem trim_of_blank (h : ∀ b ∈ bl, isBlank b = true) : trim bl = [] := by
  have htrim := trim_append_of_blank h []
  rwa [List.append_nil] at htrim

/-- What reads the text behind the colon of an arrow. -/
def arrowTail : Pattern := blanks ++ group 4 (span1 (noneOf "\\n"))

/-- A text that begins with something else is read up to what is missed. -/
theorem consumes_reached {r : List Char} (hbl : ∀ b ∈ bl, isBlank b = true)
    (hc : isBlank c = false) (hreach : noneOf "\\n" c = true) :
    arrowTail.Consumes (bl ++ reached (c :: r)) (missed (c :: r)) [(4, reached (c :: r))] := by
  have hne : reached (c :: r) ≠ [] := by simp [reached, hreach]
  have hsplit : reached (c :: r) ++ missed (c :: r) = c :: r := List.takeWhile_append_dropWhile
  have hblanks : blanks.Consumes bl (reached (c :: r) ++ missed (c :: r)) [] :=
    consumes_span hbl (by rw [hsplit]; exact hc)
  exact hblanks.seq ((consumes_span1 hne (fun d hd => List.mem_takeWhile_imp hd)
    (head?_missed _)).group 4)

/-- Of a text that begins with what is missed, the last blank before it is read. -/
theorem consumes_blankBefore {w r : List Char} {b : Char} (hw : ∀ d ∈ w, isBlank d = true)
    (hb : isBlank b = true) (hc : isBlank c = false) (hreach : noneOf "\\n" c = false) :
    arrowTail.Consumes (w ++ [b]) (c :: r) [(4, [b])] := by
  intro s hs
  have hedge : (c :: r).head?.any (noneOf "\\n") = false := by simpa using hreach
  have hrefused (α : Type) (k : Cursor → Option α) :
      (group 4 (span1 (noneOf "\\n"))).run k (s.after (w ++ [b]) (c :: r)) = none := by
    rw [run]
    exact run_span1_eq_none hedge _
  obtain ⟨e, he, hrest, hpos, hheld⟩ := (consumes_span1 (List.cons_ne_nil b [])
    (by simpa using noneOf_of_isBlank hb) hedge).group 4 (s.after w (b :: c :: r)) rfl
  refine ⟨e, ?_, hrest, ?_, hheld⟩
  · exact takes_span_back (hs.trans (List.append_assoc _ _ _)) hw hb (by simpa using hc) hrefused he
  · rw [hpos, List.length_append]
    exact Nat.add_assoc _ _ _

/-- The text behind the colon of an arrow is read up to what is missed.  If it begins with that, one
of the blanks before it is read instead. -/
theorem consumes_arrowText (ht : ∃ c ∈ t, isBlank c = false) :
    ∃ w msg, ' ' :: t = w ++ missed t ∧ trim msg = trim (reached t) ∧
      arrowTail.Consumes w (missed t) [(4, msg)] := by
  obtain ⟨bl, c, r, rfl, hbl, hc⟩ := exists_blanks_cons ht
  have hblanks : ∀ b ∈ ' ' :: bl, isBlank b = true := List.forall_mem_cons.mpr ⟨by decide, hbl⟩
  have hnone : ∀ b ∈ bl, noneOf "\\n" b = true := fun b hb => noneOf_of_isBlank (hbl b hb)
  have hmissed : missed (bl ++ c :: r) = missed (c :: r) := List.dropWhile_append_of_pos hnone
  have hreached : reached (bl ++ c :: r) = bl ++ reached (c :: r) :=
    List.takeWhile_append_of_pos hnone
  rw [hmissed, hreached, trim_append_of_blank hbl]
  cases hreach : noneOf "\\n" c with
  | true =>
    have hsplit : reached (c :: r) ++ missed (c :: r) = c :: r := List.takeWhile_append_dropWhile
    refine ⟨_, _, ?_, rfl, consumes_reached hblanks hc hreach⟩
    rw [List.append_assoc, hsplit]
    rfl
  | false =>
    have hempty : reached (c :: r) = [] := by simp [reached, hreach]
    have hwhole : missed (c :: r) = c :: r := by simp [missed, hreach]
    obtain ⟨w, b, hlast⟩ : ∃ w b, ' ' :: bl = w ++ [b] :=
      ⟨_, _, (List.dropLast_append_getLast (List.cons_ne_nil ' ' bl)).symm⟩
    rw [hlast] at hblanks
    have hb : isBlank b = true := hblanks b (by simp)
    rw [hempty, hwhole]
    refine ⟨w ++ [b], [b], ?_, trim_of_blank (by simpa using hb),
      consumes_blankBefore (fun d hd => hblanks d (by simp [hd])) hb hc hreach⟩
    rw [← hlast]
    rfl

/-- The texts that an arrow is written with. -/
def arrows : List String := ["->>", "-->>", "->"]

def arrowLine (x arrow y : String) (t : List Char) : List Char :=
  x.toList ++ (arrow.toList ++ (y.toList ++ (": ".toList ++ t)))

/-- Of the ways to write an arrow, the right one is found in front of a name. -/
theorem consumes_arrowSign (harrow : arrow ∈ arrows) (hc : isWord c = true) (rest : List Char) :
    (words ["->>", "-->>", "->", "--"]).Consumes arrow.toList (c :: rest) [] := by
  refine consumes_of_takes fun s hs => ?_
  have hsign : c ≠ '>' := by
    rintro rfl
    exact absurd hc (by decide)
  have hcases : arrow = "->>" ∨ arrow = "-->>" ∨ arrow = "->" := by simpa [arrows] using harrow
  rcases hcases with rfl | rfl | rfl
  · exact takes_words hs [] ["-->>", "->", "--"] (by simp)
  · exact takes_words hs ["->>"] ["->", "--"] (by simp [hs])
  · exact takes_words hs ["->>", "-->>"] ["--"] (by simp [hs, hsign.symm])

def arrowHead : Pattern :=
  group 1 name ++ blanks ++ group 2 (words ["->>", "-->>", "->", "--"]) ++ blanks ++
    group 3 name ++ blanks ++ char ':'

theorem arrowPattern_eq :
    arrowPattern = arrowHead ++ blanks ++ group 4 (span1 (noneOf "\\n")) := rfl

/-- The names of an arrow and the arrow between them are found where they stand. -/
theorem consumes_arrowHead (hx : MadeOf isWord x) (harrow : arrow ∈ arrows) (hy : MadeOf isWord y)
    (rest : List Char) : arrowHead.Consumes (x.toList ++ arrow.toList ++ y.toList ++ [':']) rest
      [(3, y.toList), (2, arrow.toList), (1, x.toList)] := by
  obtain ⟨c, tail, hyc⟩ := List.exists_cons_of_ne_nil hy.1
  have hc : isWord c = true := hy.2 c (by simp [hyc])
  have hdash : ∀ a ∈ arrows, a.toList.head? = some '-' := by decide
  have hsign (accept : Char → Bool) (h : accept '-' = false) (tail : List Char) :
      (arrow.toList ++ tail).head?.any accept = false := by
    rw [List.head?_append, hdash arrow harrow]
    exact h
  have hblanks {cs : List Char} (h : cs.head?.any isBlank = false) : blanks.Consumes [] cs [] :=
    consumes_span (by simp) h
  have hfirst (cs : List Char) :=
    (consumes_span1 hx.1 hx.2 (hsign isWord (by decide) cs)).group 1
  have harrow' : (group 2 (words ["->>", "-->>", "->", "--"])).Consumes arrow.toList
      (y.toList ++ ([':'] ++ rest)) [(2, arrow.toList)] := by
    rw [hyc]
    exact (consumes_arrowSign harrow hc _).group 2
  have hsecond := (consumes_span1 hy.1 hy.2
    (show ([':'] ++ rest).head?.any isWord = false from (by decide : isWord ':' = false))).group 3
  have hcolon : (char ':').Consumes [':'] rest [] := consumes_one (by decide) rest
  have hnames := ((((hfirst _).pass (hblanks (hsign isBlank (by decide) _))).seq harrow').pass
    (hblanks (by rw [hyc]; exact Text.isBlank_of_isWord hc))).seq hsecond
  exact (hnames.pass (hblanks (show isBlank ':' = false by decide))).seq hcolon

/-- An arrow is found where its line begins, with its names, and with its text as far as it is
reached. -/
theorem consumes_arrow (hx : MadeOf isWord x) (harrow : arrow ∈ arrows) (hy : MadeOf isWord y)
    (ht : ∃ c ∈ t, isBlank c = false) :
    ∃ w msg, arrowLine x arrow y t = w ++ missed t ∧ w ≠ [] ∧ trim msg = trim (reached t) ∧
      arrowPattern.Consumes w (missed t)
        [(4, msg), (3, y.toList), (2, arrow.toList), (1, x.toList)] := by
  obtain ⟨w, msg, hw, htrim, htext⟩ := consumes_arrowText ht
  refine ⟨_, msg, ?_, by simp, htrim, ((consumes_arrowHead hx harrow hy _).seq htext).assoc⟩
  rw [List.append_assoc, ← hw]
  simp [arrowLine]

/-! ### Cleaning a line with an arrow -/

/-- An arrow with clean names, in front of a text. -/
def cleanHead (x arrow y : String) : List Char :=
  (cleanName x).toList ++ (arrow.toList ++ (cleanName y).toList)

def drawnLine (x arrow y : String) (t rest : List Char) : List Char :=
  cleanHead x arrow y ++ (": ".toList ++ ((trim (reached t)).map drawn ++ rest))

theorem replaceAll_arrowLine (hx : MadeOf isWord x) (harrow : arrow ∈ arrows) (hy : MadeOf isWord y)
    (ht : ∃ c ∈ t, isBlank c = false) :
    ∃ before pos, arrowPattern.replaceAll cleanArrow (arrowLine x arrow y t) =
      drawnLine x arrow y t (arrowPattern.replaceFrom cleanArrow before pos (missed t)) := by
  obtain ⟨w, msg, hw, hne, htrim, harrow⟩ := consumes_arrow hx harrow hy ht
  obtain ⟨e, htakes, -, hpos, hheld⟩ := harrow (Cursor.start (w ++ missed t)) rfl
  rw [hw]
  refine ⟨w.getLast?, w.length, (replaceAll_of_takes cleanArrow htakes
    (hpos.trans (Nat.zero_add _)) hne).trans ?_⟩
  generalize hm : (⟨⟨0, w.length, w ++ missed t⟩, e.groups⟩ : Match) = m
  have hget {i : Nat} {s : String} (h : e.groupAt i = some s.toList) : m.get i = s := by
    rw [Match.get, Match.get?, ← hm]
    show ((e.groupAt i).map String.ofList).getD "" = s
    rw [h]
    exact String.ofList_toList
  have htext : (m.chars? 4).getD [] = msg := by
    rw [← hm]
    show (e.groupAt 4).getD [] = msg
    rw [hheld]
    rfl
  rw [cleanArrow, hget (hheld 1), hget (hheld 2), hget (hheld 3), htext, htrim, drawnLine,
    cleanHead]
  simp only [String.toList_append, List.append_assoc]
  rfl

theorem dash_mem_of_foundIn {m : Match} (h : m.FoundIn arrowPattern cs) :
    '-' ∈ cs ∧ '-' ∈ cleanArrow m := by
  have hdash : ∀ a ∈ ["->>", "-->>", "->", "--"], '-' ∈ a.toList := by decide
  constructor
  · obtain ⟨s, t, hfits, -, hrest, -⟩ := h
    rw [arrowPattern_eq] at hfits
    obtain ⟨_, ⟨_, ⟨_, ⟨_, ⟨_, ⟨_, ⟨u, hname, v, harrow, -⟩, -⟩, -⟩, -⟩, -⟩, -⟩, -⟩ := hfits
    obtain ⟨p, hp, hsign⟩ := Fits.anyOf harrow
    obtain ⟨a, ha, rfl⟩ := List.mem_map.mp hp
    have hmem : '-' ∈ u.rest := by
      rw [hsign.lit]
      exact List.mem_append_left _ (hdash a ha)
    exact hrest.subset (Fits.suffix (p := group 1 name ++ blanks) hname |>.subset hmem)
  · have hmem : '-' ∈ (m.get 2).toList := hdash _ (get_mem_of_foundBy h.foundBy)
    rw [cleanArrow]
    simp [hmem]

/-! ### Activations -/

/-- The word by which activations are known. -/
def activating : List Char := "activate".toList

/-- Characters whose lower cases have no part in the word. -/
def Foreign (cs : List Char) : Prop := ∀ c ∈ cs, Text.lowerAlone c ∉ activating

instance (cs : List Char) : Decidable (Foreign cs) :=
  List.decidableBAll (Text.lowerAlone · ∉ activating) cs

theorem Foreign.notMem (h : Foreign cs) {d : Char} (hd : d ∈ cs.map Text.lowerAlone) :
    d ∉ activating := by
  obtain ⟨c, hc, rfl⟩ := List.mem_map.mp hd
  exact h c hc

theorem mentions_activate_iff :
    mentions line "activate" = true ↔ activating <:+: line.map Text.lowerAlone := by
  have hword : Text.Dotless activating := by decide
  rw [mentions, contains_iff_infix]
  exact hword.infix_lowerChars line

/-- Writing other characters as underscores does not bring in the word. -/
theorem infix_of_underscores {keep : Char → Bool}
    (h : activating <:+: (cs.map fun c => if keep c then c else '_').map Text.lowerAlone) :
    activating <:+: cs.map Text.lowerAlone := by
  have hunderscore : Text.lowerAlone '_' ∉ activating := by decide
  rw [List.map_map] at h
  refine Text.infix_map_of_infix_map (fun c => ?_) h
  rw [Function.comp_apply]
  split
  · exact .inl rfl
  · exact .inr hunderscore

theorem infix_of_cleanName {name : String}
    (h : activating <:+: (cleanName name).toList.map Text.lowerAlone) :
    activating <:+: name.toList.map Text.lowerAlone := by
  have hunknown : ¬ activating <:+: "Unknown".toList.map Text.lowerAlone := by
    decide
  rw [cleanName] at h
  split at h
  · exact absurd h hunknown
  · rw [String.toList_ofList] at h
    have htrim := (trimOf_isInfix (· == '_')
      (name.toList.map fun c => if isWord c then c else '_')).map Text.lowerAlone
    exact infix_of_underscores (h.trans htrim)

theorem missed_cases (t : List Char) :
    missed t = [] ∨ ∃ c rest, missed t = c :: rest ∧ Text.lowerAlone c ∉ activating := by
  have hend : Foreign "\\n".toList := by decide
  cases h : missed t with
  | nil => exact .inl rfl
  | cons c rest =>
    have hhead := head?_missed t
    rw [h] at hhead
    refine .inr ⟨c, rest, rfl, hend c ?_⟩
    simpa [noneOf, or_iff_not_imp_left] using hhead

/-- Cleaning an arrow does not bring in the word. -/
theorem mentions_of_cleaned (harrow : arrow ∈ arrows)
    (h : mentions (drawnLine x arrow y t (missed t)) "activate" = true) :
    mentions (arrowLine x arrow y t) "activate" = true := by
  have hne : activating ≠ [] := by decide
  have hsign : ∀ a ∈ arrows, a.toList.map Text.lowerAlone ≠ [] ∧ Foreign a.toList := by
    decide
  have hcolon : Foreign ": ".toList := by decide
  have ht : t <:+: arrowLine x arrow y t :=
    ((List.suffix_append _ _).trans ((List.suffix_append _ _).trans
      ((List.suffix_append _ _).trans (List.suffix_append _ _)))).isInfix
  rw [mentions_activate_iff] at h ⊢
  simp only [drawnLine, cleanHead, List.map_append, List.append_assoc] at h
  obtain ⟨harrowNe, hforeign⟩ := hsign arrow harrow
  rcases infix_of_infix_append hne harrowNe (fun _ => hforeign.notMem) h with h | h
  · exact (infix_of_cleanName h).trans ((List.prefix_append _ _).isInfix.map _)
  rcases infix_of_infix_append hne (by decide) (fun _ => hcolon.notMem) h with h | h
  · have hy : y.toList <:+: arrowLine x arrow y t :=
      (List.prefix_append _ _).isInfix.trans
        ((List.suffix_append _ _).trans (List.suffix_append _ _)).isInfix
    exact (infix_of_cleanName h).trans (hy.map _)
  have hreached (h : activating <:+: ((trim (reached t)).map drawn).map Text.lowerAlone) :
      activating <:+: (arrowLine x arrow y t).map Text.lowerAlone := by
    have htrim : trim (reached t) <:+: t :=
      (trimOf_isInfix _ _).trans (List.takeWhile_prefix _).isInfix
    exact (infix_of_underscores h).trans ((htrim.trans ht).map _)
  rcases missed_cases t with hmissed | ⟨c, rest, hmissed, hc⟩
  · rw [hmissed, List.map_nil, List.append_nil] at h
    exact hreached h
  · rw [hmissed, List.map_cons, infix_append_cons_iff hc] at h
    rcases h with h | h
    · exact hreached h
    · have hrest : rest <:+: t :=
        ((List.suffix_cons c rest).trans (hmissed ▸ List.dropWhile_suffix _)).isInfix
      exact h.trans ((hrest.trans ht).map _)

/-! ### The text behind the colon -/

/-- What stands behind the first place of a text. -/
def textAfter? (sep cs : List Char) : Option (List Char) :=
  (find? sep cs).map fun i => cs.drop (i + sep.length)

theorem textAfter?_colon {front : List Char} (h : ':' ∉ front) (rest : List Char) :
    textAfter? ": ".toList (front ++ (": ".toList ++ rest)) = some rest := by
  have hfind : find? ": ".toList (front ++ (": ".toList ++ rest)) = some front.length := by
    induction front with
    | nil => exact if_pos rfl
    | cons c front ih =>
      obtain ⟨hc, hfront⟩ := not_or.mp (mt List.mem_cons.mpr h)
      have hnot : ": ".toList.isPrefixOf (c :: (front ++ (": ".toList ++ rest))) = false := by
        have hne : (':' == c) = false := beq_false_of_ne hc
        show (':' == c && _) = false
        rw [hne, Bool.false_and]
      rw [List.cons_append, Chars.find?, hnot, if_neg Bool.false_ne_true, ih hfront]
      rfl
  rw [textAfter?, hfind, Option.map_some, List.drop_length_add_append]
  rfl

theorem textAfter?_eq_none (h : ':' ∉ cs) : textAfter? ": ".toList cs = none := by
  rw [textAfter?, Option.map_eq_none_iff, ← Option.not_isSome_iff_eq_none]
  intro hsome
  have hwithin : ": ".toList <:+: cs := contains_iff_infix.mp hsome
  exact h (hwithin.subset (by decide))

theorem colon_notMem_cleanHead (harrow : arrow ∈ arrows) : ':' ∉ cleanHead x arrow y := by
  have hname (name : String) : ':' ∉ (cleanName name).toList := fun h =>
    absurd (isWord_of_mem_cleanName h) (by decide)
  have hsign : ∀ a ∈ arrows, ':' ∉ a.toList := by decide
  simp [cleanHead, hname, hsign arrow harrow]

theorem colon_notMem_cleanActivation (h : cleanActivation line ≠ line) :
    ':' ∉ cleanActivation line := by
  rw [cleanActivation] at h ⊢
  split at h
  · rename_i m hm
    have hcommand := notMem_lower_command hm (z := ':') (by decide) (by decide)
    have hname : ':' ∉ (cleanName (m.get 2)).toList := fun h =>
      absurd (isWord_of_mem_cleanName h) (by decide)
    simp [hcommand, hname]
  · exact absurd rfl h

/-! ### A drawing of one line -/

/-- A line that begins with a name is kept as it is. -/
theorem keptLines_of_isWord (hc : isWord c = true) (hline : '\n' ∉ c :: line) :
    keptLines (c :: line) = [c :: line] := by
  have hblank := Text.isBlank_of_isWord hc
  have hpercent : c ≠ '%' := by
    rintro rfl
    exact absurd hc (by decide)
  have htrim : trim (c :: line) = c :: trimRightOf isBlank line := by
    rw [trim, trimOf, trimLeftOf, List.dropWhile_cons_of_neg (by simp [hblank]), trimRightOf_cons,
      if_neg (by simp [hblank])]
  have hcomment : isComment (c :: line) = false := by
    rw [isComment, htrim]
    show ('%' == c && _) = false
    rw [beq_false_of_ne (Ne.symm hpercent), Bool.false_and]
  rw [keptLines, splitOn_singleton, List.splitOn_eq_singleton hline]
  simp [hcomment, htrim]

theorem toList_clean_of_isWord (hc : isWord c = true) (hline : '\n' ∉ c :: line) :
    (clean (String.ofList (c :: line))).toList = cleanLine (c :: line) := by
  rw [toList_clean, String.toList_ofList, keptLines_of_isWord hc hline]
  simp

/-- What the line of an arrow comes to: clean names, a clean text as far as it is reached, and what
replacing makes of the rest.  If that is some activation, nothing else is left of it. -/
theorem cleanLine_arrowLine (hx : MadeOf isWord x) (harrow : arrow ∈ arrows) (hy : MadeOf isWord y)
    (ht : ∃ c ∈ t, isBlank c = false)
    (hparticipant : mentions (arrowLine x arrow y t) "participant" = false) :
    ∃ rest, cleanLine (arrowLine x arrow y t) =
        (if mentions (drawnLine x arrow y t rest) "activate" then
          cleanActivation (drawnLine x arrow y t rest) else drawnLine x arrow y t rest) ∧
      (rest = missed t ∨ '-' ∈ missed t ∧ '-' ∈ rest) := by
  obtain ⟨before, pos, hreplaced⟩ := replaceAll_arrowLine hx harrow hy ht
  refine ⟨arrowPattern.replaceFrom cleanArrow before pos (missed t), ?_, ?_⟩
  · rw [cleanLine, hparticipant, if_neg Bool.false_ne_true, hreplaced]
  · refine (replaceFrom_cases arrowPattern cleanArrow before pos (missed t)).imp_right ?_
    rintro ⟨m, hfound, hwithin⟩
    obtain ⟨hmissed, hwritten⟩ := dash_mem_of_foundIn hfound
    exact ⟨hmissed, hwithin.subset hwritten⟩

theorem isArrowText_drawn (c : Char) : isArrowText (drawn c) = true := by
  rw [drawn]
  split
  · assumption
  · decide

/-- If the rest of the text has only characters that may stand there, the line is clean. -/
theorem cleanLine_of_missed (hx : MadeOf isWord x) (harrow : arrow ∈ arrows) (hy : MadeOf isWord y)
    (ht : ∃ c ∈ t, isBlank c = false)
    (hparticipant : mentions (arrowLine x arrow y t) "participant" = false)
    (hactivate : mentions (arrowLine x arrow y t) "activate" = false)
    (hmissed : ∀ c ∈ missed t, isArrowText c = true) :
    cleanLine (arrowLine x arrow y t) = drawnLine x arrow y t (missed t) := by
  obtain ⟨rest, hclean, hrest⟩ := cleanLine_arrowLine hx harrow hy ht hparticipant
  obtain rfl : rest = missed t := hrest.resolve_right fun h =>
    absurd (hmissed '-' h.1) (by decide)
  rw [hclean, if_neg fun h => by
    rw [mentions_of_cleaned harrow h] at hactivate
    cases hactivate]

/-- If the text behind the colon has only characters that may stand there, so has the rest of the
text. -/
theorem missed_of_cleanLine {msg : List Char} (hx : MadeOf isWord x) (harrow : arrow ∈ arrows)
    (hy : MadeOf isWord y) (ht : ∃ c ∈ t, isBlank c = false)
    (hparticipant : mentions (arrowLine x arrow y t) "participant" = false)
    (hmsg : textAfter? ": ".toList (cleanLine (arrowLine x arrow y t)) = some msg)
    (htext : ∀ c ∈ msg, isArrowText c = true) : ∀ c ∈ missed t, isArrowText c = true := by
  obtain ⟨rest, hclean, hrest⟩ := cleanLine_arrowLine hx harrow hy ht hparticipant
  have hsame : cleanLine (arrowLine x arrow y t) = drawnLine x arrow y t rest := by
    rw [hclean]
    split
    · by_contra hne
      rw [hclean, if_pos ‹_›, textAfter?_eq_none (colon_notMem_cleanActivation hne)] at hmsg
      cases hmsg
    · rfl
  rw [hsame, drawnLine, textAfter?_colon (colon_notMem_cleanHead harrow)] at hmsg
  obtain rfl := Option.some.inj hmsg
  have hall : ∀ c ∈ rest, isArrowText c = true := fun c hc => htext c (List.mem_append_right _ hc)
  rcases hrest with rfl | ⟨-, hdash⟩
  · exact hall
  · exact absurd (hall '-' hdash) (by decide)

/-- **The text of an arrow.**  Of a line that is an arrow with its text, the text behind the colon
has only characters that may stand there exactly if the text had only such characters from its first
backslash or letter n on.  Then all that comes before is clean. -/
theorem arrow_text_clean_iff (x arrow y t : String) (hx : MadeOf isWord x)
    (harrow : arrow ∈ arrows) (hy : MadeOf isWord y) (ht : ∃ c ∈ t.toList, isBlank c = false)
    (hline : '\n' ∉ t.toList)
    (hparticipant : mentions (x ++ arrow ++ y ++ ": " ++ t).toList "participant" = false)
    (hactivate : mentions (x ++ arrow ++ y ++ ": " ++ t).toList "activate" = false) :
    ((∃ msg, textAfter? ": ".toList (clean (x ++ arrow ++ y ++ ": " ++ t)).toList = some msg ∧
        ∀ c ∈ msg, isArrowText c = true) ↔ ∀ c ∈ missed t.toList, isArrowText c = true) ∧
    ((∀ c ∈ missed t.toList, isArrowText c = true) →
      (clean (x ++ arrow ++ y ++ ": " ++ t)).toList =
        drawnLine x arrow y t.toList (missed t.toList)) := by
  have hchars : (x ++ arrow ++ y ++ ": " ++ t).toList = arrowLine x arrow y t.toList := by
    simp only [arrowLine, String.toList_append, List.append_assoc]
  have hclean : (clean (x ++ arrow ++ y ++ ": " ++ t)).toList =
      cleanLine (arrowLine x arrow y t.toList) := by
    obtain ⟨c, xs, hxs⟩ := List.exists_cons_of_ne_nil hx.1
    have hsigns : ∀ a ∈ arrows, '\n' ∉ a.toList := by decide
    have hword : isWord '\n' = false := by decide
    have hbreak : '\n' ∉ arrowLine x arrow y t.toList := by
      simp [arrowLine, hx.not_mem hword, hy.not_mem hword, hsigns arrow harrow, hline]
    have hcons : arrowLine x arrow y t.toList = c :: (xs ++ (arrow.toList ++ (y.toList ++
        (": ".toList ++ t.toList)))) := by rw [arrowLine, hxs, List.cons_append]
    rw [← String.ofList_toList (s := x ++ arrow ++ y ++ ": " ++ t), hchars]
    rw [hcons] at hbreak ⊢
    exact toList_clean_of_isWord (hx.2 c (by simp [hxs])) hbreak
  rw [hchars] at hparticipant hactivate
  rw [hclean]
  have hwhole := cleanLine_of_missed hx harrow hy ht hparticipant hactivate
  refine ⟨⟨?_, fun hmissed => ?_⟩, hwhole⟩
  · rintro ⟨msg, hmsg, htext⟩
    exact missed_of_cleanLine hx harrow hy ht hparticipant hmsg htext
  · rw [hwhole hmissed]
    refine ⟨_, textAfter?_colon (colon_notMem_cleanHead harrow) _, fun c hc => ?_⟩
    rcases List.mem_append.mp hc with hc | hc
    · obtain ⟨d, -, rfl⟩ := List.mem_map.mp hc
      exact isArrowText_drawn d
    · exact hmissed c hc

/-- A text that is clean from its first letter n on. -/
theorem arrow_text_cleaned : (clean "A->>B: get it now(x)").toList = "A->>B: get_itnow(x)".toList ∧
    ∃ msg, textAfter? ": ".toList (clean "A->>B: get it now(x)").toList = some msg ∧
      ∀ c ∈ msg, isArrowText c = true := by
  have hmissed : ∀ c ∈ missed "get it now(x)".toList, isArrowText c = true := by
    have : missed "get it now(x)".toList = "now(x)".toList := by decide
    rw [this]
    simp
    decide
  obtain ⟨hiff, htext⟩ := arrow_text_clean_iff "A" "->>" "B" "get it now(x)" (by decide) (by decide)
    (by decide) ⟨'g', by decide, by decide⟩ (by decide) (by decide) (by decide)
  refine ⟨(htext hmissed).trans (by decide), hiff.mpr hmissed⟩

/-- **A blank that is kept.**  Behind the letter n the text of an arrow is not clean. -/
theorem blank_kept_in_arrow_text :
    mentions "A->>B: x n y".toList "participant" = false ∧
    mentions "A->>B: x n y".toList "activate" = false ∧
    clean "A->>B: x n y" = "A->>B: xn y" ∧
    textAfter? ": ".toList (clean "A->>B: x n y").toList = some "xn y".toList ∧
    isArrowText ' ' = false := by
  decide

end CodeScribe.ClassSequence

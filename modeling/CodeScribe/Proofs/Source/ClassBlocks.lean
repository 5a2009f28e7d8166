import Mathlib.Data.List.Infix
import CodeScribe.Proofs.Text.Search
import CodeScribe.Source.VisualBasic

/-!
# Which classes are read from blocks

The head of a class is a word, white space and a name, and a line end is white space too.  So the
word in the last line of a block and the first word of the next block are taken for the head of a
class, and the name behind them is passed over.

* `VisualBasic.names_of_blocks` — these are the names of the classes.
-/

namespace CodeScribe

open Text

/-! ### Words in any case -/

namespace Text

/-- Some characters spell a word, upper and lower case alike. -/
def Spells (w : String) (cs : List Char) : Prop :=
  List.Forall₂ (fun c d => sameLetter c d = true) w.toList cs

instance (w : String) (cs : List Char) : Decidable (Spells w cs) :=
  inferInstanceAs (Decidable (List.Forall₂ _ _ _))

theorem Spells.length_eq {w : String} {cs : List Char} (h : Spells w cs) :
    cs.length = w.length := by
  rw [← String.length_toList]
  exact (List.Forall₂.length_eq h).symm

theorem spells_self (w : String) : Spells w w.toList :=
  List.forall₂_same.mpr fun c _ => Pattern.sameLetter_self c

/-- Whether some characters end with a word, upper and lower case alike. -/
def endsLike (w : String) (cs : List Char) : Bool := cs.tails.any fun v => decide (Spells w v)

theorem endsLike_cons (w : String) (c : Char) (cs : List Char) :
    endsLike w (c :: cs) = (decide (Spells w (c :: cs)) || endsLike w cs) := by
  rw [endsLike, List.tails, List.any_cons, endsLike]

theorem endsLike_append {w : String} {v : List Char} (h : Spells w v) (m : List Char) :
    endsLike w (m ++ v) = true := by
  rw [endsLike, List.any_eq_true]
  exact ⟨v, (List.mem_tails _ _).mpr (List.suffix_append m v), decide_eq_true h⟩

end Text

namespace VisualBasic

open Pattern Declaration

variable {m c : List Char}

/-! ### The head of a class -/

/-- The words that may stand in front of a class. -/
def classModifiers : List String :=
  ["Public", "Private", "Friend", "Protected", "MustInherit", "NotInheritable", "Partial"]

def classHead : Pattern := modifierAnyCase classModifiers ++ keyword "Class"

/-- What may stand behind the name of a class. -/
def parentsAfter : Pattern := listAfter "Inherits" fun c => isListChar c || among "<>" c

def classTail : Pattern := group 1 name ++ (parentsAfter ++ blanks)

variable {s t : Cursor}

theorem fits_classPattern (h : classPattern.Fits s t) :
    ∃ u, classHead.Fits s u ∧ classTail.Fits u t := by
  obtain ⟨a, ⟨b, ⟨u, hhead, hname⟩, hparents⟩, hblanks⟩ := h
  exact ⟨u, hhead, b, hname, a, hparents, hblanks⟩

theorem numbers_classHead : classHead.numbers = [] := by
  have hwords : (wordsAnyCase classModifiers).numbers = [] := by
    refine numbers_anyOf fun p hp => ?_
    obtain ⟨w, -, rfl⟩ := List.mem_map.mp hp
    exact numbers_litAnyCase w
  simp [classHead, modifierAnyCase, keyword, hwords]

theorem plain_classHead : classHead.Plain := by
  have hwords : (wordsAnyCase classModifiers).Plain := by
    refine plain_anyOf fun p hp => ?_
    obtain ⟨w, -, rfl⟩ := List.mem_map.mp hp
    exact plain_litAnyCase w
  simp [classHead, modifierAnyCase, keyword, hwords]

def IsModifier (m : List Char) : Prop := m = [] ∨ ∃ w ∈ classModifiers, Spells w m

theorem IsModifier.unbroken (h : IsModifier m) : Unbroken m := by
  obtain rfl | ⟨w, hw, hm⟩ := h
  · exact fun c hc => absurd hc List.not_mem_nil
  · have hwords : ∀ w ∈ classModifiers, NeverBlank w.toList := by decide
    exact (hwords w hw).unbroken hm

theorem IsModifier.length (h : IsModifier m) : m = [] ∨ 6 ≤ m.length := by
  refine h.imp_right ?_
  rintro ⟨w, hw, hm⟩
  have hwords : ∀ w ∈ classModifiers, 6 ≤ w.length := by decide
  rw [hm.length_eq]
  exact hwords w hw

theorem ne_nil_of_spells_class (h : Spells "Class" c) : c ≠ [] := by
  rintro rfl
  cases h.length_eq

theorem unbroken_of_spells_class (h : Spells "Class" c) : Unbroken c := by
  have hword : NeverBlank "Class".toList := by decide
  exact hword.unbroken h

/-- What is read up to the name of a class: a modifier, which may be missing, white space, which may
be missing too, the word and white space. -/
theorem fits_classHead (h : classHead.Fits s t) : ∃ m b c d, IsModifier m ∧
    (∀ x ∈ b, isBlank x = true) ∧ Spells "Class" c ∧ Gap d ∧
      s.rest = m ++ (b ++ (c ++ (d ++ t.rest))) := by
  obtain ⟨u, ⟨r, hmodifier, b, hb, hblanks, -⟩, v, hclass, hgap⟩ := h
  obtain ⟨c, hc, hrest⟩ := hclass.litAnyCase
  obtain ⟨d, hd, hrest'⟩ := hgap.blanks1
  have hbehind : r.rest = b ++ (c ++ (d ++ t.rest)) := by rw [hblanks.rest, hrest, hrest']
  obtain hwords | hnothing := hmodifier
  · obtain ⟨p, hp, hfits⟩ := Fits.anyOf hwords
    obtain ⟨w, hw, rfl⟩ := List.mem_map.mp hp
    obtain ⟨m, hm, hfirst⟩ := hfits.litAnyCase
    exact ⟨m, b, c, d, .inr ⟨w, hw, hm⟩, hb, hc, hd, by rw [hfirst, hbehind]⟩
  · obtain rfl : r = s := hnothing
    exact ⟨[], b, c, d, .inl rfl, hb, hc, hd, hbehind⟩

theorem classHead_fits {b d rest : List Char} (hm : IsModifier m) (hb : ∀ x ∈ b, isBlank x = true)
    (hc : Spells "Class" c) (hd : Gap d) (hs : s.rest = m ++ (b ++ (c ++ (d ++ rest)))) :
    classHead.Fits s (s.after (m ++ (b ++ (c ++ d))) rest) := by
  have hmodifier : (opt (wordsAnyCase classModifiers)).Fits s
      (s.after m (b ++ (c ++ (d ++ rest)))) := by
    obtain rfl | ⟨w, hw, hspells⟩ := hm
    · refine .inr ?_
      rw [List.nil_append] at hs
      rw [← hs]
      rfl
    · exact .inl (fits_anyOf (List.mem_map_of_mem hw) (takes_all hs hspells).fits)
  have hblanks : blanks.Fits (s.after m (b ++ (c ++ (d ++ rest))))
      (s.after (m ++ b) (c ++ (d ++ rest))) := Cursor.after_after s m b _ _ ▸ fits_span rfl hb
  have hclass : (litAnyCase "Class").Fits (s.after (m ++ b) (c ++ (d ++ rest)))
      (s.after (m ++ (b ++ c)) (d ++ rest)) := by
    have hword := (takes_all (s := s.after (m ++ b) (c ++ (d ++ rest))) rfl hc).fits
    rwa [Cursor.after_after, List.append_assoc] at hword
  have hgap : blanks1.Fits (s.after (m ++ (b ++ c)) (d ++ rest))
      (s.after (m ++ (b ++ (c ++ d))) rest) := by
    have hspace := fits_span1 (s := s.after (m ++ (b ++ c)) (d ++ rest)) rfl hd.1 hd.2
    rwa [Cursor.after_after, List.append_assoc, List.append_assoc] at hspace
  exact ⟨_, ⟨_, hmodifier, hblanks⟩, _, hclass, hgap⟩

/-- Where the head of a class begins with a word, its last word ends there, or the next word is
its last one. -/
theorem classHead_cases {v rest : List Char} {x : Char} (h : classHead.Fits s t)
    (hs : s.rest = v ++ x :: rest) (hv : Unbroken v) (hx : isBlank x = true)
    (hrest : rest.head?.any isBlank = false) :
    (∃ m c, IsModifier m ∧ Spells "Class" c ∧ v = m ++ c ∧ t.rest = rest) ∨
      IsModifier v ∧ ∃ c d, Spells "Class" c ∧ Gap d ∧ rest = c ++ (d ++ t.rest) := by
  obtain ⟨m, b, c, d, hm, hb, hc, hd, hread⟩ := fits_classHead h
  have hunbroken := unbroken_of_spells_class hc
  rw [hs] at hread
  cases b with
  | nil =>
    obtain ⟨y, d, rfl⟩ := List.exists_cons_of_ne_nil hd.1
    rw [List.nil_append, List.cons_append, ← List.append_assoc] at hread
    obtain ⟨hy, hd⟩ := List.forall_mem_cons.mp hd.2
    obtain ⟨rfl, hend⟩ := hv.cut (hm.unbroken.append hunbroken) hx hy hread
    obtain rfl := eq_nil_of_blanks hd hrest hend
    exact .inl ⟨m, c, hm, hc, rfl, hend.symm⟩
  | cons y b =>
    obtain ⟨hy, hb⟩ := List.forall_mem_cons.mp hb
    rw [List.cons_append] at hread
    obtain ⟨rfl, hend⟩ := hv.cut hm.unbroken hx hy hread
    obtain rfl := eq_nil_of_blanks hb hrest hend
    exact .inr ⟨hm, c, d, hc, hd, hend⟩

/-! ### Where the head of a class is read -/

/-- In some characters and those behind them, the head of a class up to its name is the former. -/
def HeadReads (u rest : List Char) : Prop :=
  ∀ s : Cursor, s.rest = u ++ rest →
    classHead.Fits s (s.after u rest) ∧ ∀ t, classHead.Fits s t → t.rest = rest

theorem HeadReads.consumes {u v rest : List Char} {held : List (Nat × List Char)}
    (h : HeadReads u (v ++ rest)) (htail : classTail.Consumes v rest held) :
    classPattern.Consumes (u ++ v) rest held := by
  have hhead : classHead.Consumes u (v ++ rest) [] := by
    refine consumes_of_takes fun s hs α k a hk => ?_
    obtain ⟨hfits, hunique⟩ := h s hs
    have hone (t : Cursor) (ht : classHead.Fits s t) : t = s.after u (v ++ rest) :=
      ht.eq_of_rest numbers_classHead hs (hunique t ht)
    rw [run_eq_of_unique plain_classHead hfits hone]
    exact hk
  have hall := hhead.seq htail
  rwa [List.append_nil] at hall

variable {v y z rest : List Char} {x x' : Char}

/-- The last word of a head stands in front of white space. -/
theorem headReads_word (hm : IsModifier m) (hc : Spells "Class" c) (hx : isBlank x = true)
    (hrest : rest.head?.any isBlank = false)
    (hnext : IsModifier (m ++ c) → ∀ d b r, Spells "Class" d → Gap b → rest ≠ d ++ (b ++ r)) :
    HeadReads (m ++ c ++ [x]) rest := by
  have hgap : Gap [x] := ⟨by simp, by simpa using hx⟩
  intro s hs
  refine ⟨?_, fun t ht => ?_⟩
  · have hfits := classHead_fits (b := []) hm (by simp) hc hgap (by simpa using hs)
    simpa using hfits
  · have hv : Unbroken (m ++ c) := hm.unbroken.append (unbroken_of_spells_class hc)
    obtain ⟨-, -, -, -, -, hend⟩ | ⟨hmodifier, d, b, hd, hb, hend⟩ :=
      classHead_cases ht (by simpa using hs) hv hx hrest
    · exact hend
    · exact absurd hend (hnext hmodifier d b _ hd hb)

/-- White space may stand in front of the last word of a head. -/
theorem headReads_gap (hc : Spells "Class" c) (hx : isBlank x = true) (hx' : isBlank x' = true)
    (hrest : rest.head?.any isBlank = false) : HeadReads (x :: (c ++ [x'])) rest := by
  have hgap : Gap [x'] := ⟨by simp, by simpa using hx'⟩
  have hunbroken := unbroken_of_spells_class hc
  intro s hs
  refine ⟨?_, fun t ht => ?_⟩
  · have hfits := classHead_fits (m := []) (b := [x]) (.inl rfl) (by simpa using hx) hc hgap
      (by simpa using hs)
    simpa using hfits
  · have hhead := hunbroken.head?_append (ne_nil_of_spells_class hc) (x' :: rest)
    obtain ⟨m, d, -, hd, hnil, -⟩ | ⟨-, d, b, hd, hb, hend⟩ :=
      classHead_cases (v := []) ht (by simpa using hs) (fun _ h => by cases h) hx hhead
    · exact absurd (List.append_eq_nil_iff.mp hnil.symm).2 (ne_nil_of_spells_class hd)
    · obtain ⟨y, b, rfl⟩ := List.exists_cons_of_ne_nil hb.1
      obtain ⟨hy, hb⟩ := List.forall_mem_cons.mp hb.2
      obtain ⟨rfl, hafter⟩ := hunbroken.cut (unbroken_of_spells_class hd) hx' hy hend
      obtain rfl := eq_nil_of_blanks hb hrest hafter
      exact hafter.symm

/-! ### Names and parents -/

/-- Without the word for parents behind the name, the next word is passed to the search. -/
theorem consumes_classTail (hne : y ≠ []) (hy : ∀ c ∈ y, isWord c = true) (hx : isBlank x = true)
    (hzne : z ≠ []) (hz : Unbroken z) (hx' : isBlank x' = true) (hparents : ¬ Spells "Inherits" z)
    (rest : List Char) : classTail.Consumes (y ++ [x]) (z ++ x' :: rest) [(1, y)] := by
  have hhead := hz.head?_append hzne (x' :: rest)
  have hword' : NeverBlank "Inherits".toList := by decide
  have hedge : ([x] ++ (z ++ x' :: rest)).head?.any isWord = false := isWord_of_isBlank hx
  have hname := (consumes_span1 hne hy hedge).group 1
  have hparentsAfter : parentsAfter.Consumes [] ([x] ++ (z ++ x' :: rest)) [] := by
    refine consumes_opt_nil ?_
    rintro s t hs ⟨a, ⟨b, hfirst, c, hword, hspace⟩, -⟩
    obtain ⟨d, hd, hrest⟩ := hfirst.blanks1
    obtain ⟨i, hi, hrest'⟩ := hword.litAnyCase
    obtain ⟨e, he, hrest''⟩ := hspace.blanks1
    obtain ⟨w, d, rfl⟩ := List.exists_cons_of_ne_nil hd.1
    obtain ⟨w', e, rfl⟩ := List.exists_cons_of_ne_nil he.1
    rw [hs, hrest', hrest'', List.cons_append, List.cons_append] at hrest
    obtain ⟨-, hrest⟩ := List.cons.inj hrest
    obtain rfl := eq_nil_of_blanks (List.forall_mem_cons.mp hd.2).2 hhead hrest
    obtain ⟨rfl, -⟩ := hz.cut (hword'.unbroken hi) hx' (he.2 w' List.mem_cons_self) hrest
    exact hparents hi
  have hblanks : blanks.Consumes [x] (z ++ x' :: rest) [] := consumes_span (by simpa using hx) hhead
  exact (hname.pass hparentsAfter).seq hblanks

/-- Behind the word for parents, a list goes on to the end of a text of words. -/
theorem consumes_classTail_parents (hne : y ≠ []) (hy : ∀ c ∈ y, isWord c = true)
    (hx : isBlank x = true) (hz : Spells "Inherits" z) (hx' : isBlank x' = true)
    (hrest : rest ≠ []) (hhead : rest.head?.any isBlank = false)
    (hlist : ∀ c ∈ rest, isListChar c = true) :
    classTail.Consumes (y ++ x :: (z ++ x' :: rest)) [] [(2, rest), (1, y)] := by
  have hword : NeverBlank "Inherits".toList := by decide
  have hzne : z ≠ [] := by
    rintro rfl
    cases hz.length_eq
  have hedge : ([x] ++ z ++ [x'] ++ rest ++ []).head?.any isWord = false := isWord_of_isBlank hx
  have hname := (consumes_span1 hne hy hedge).group 1
  have hgap (cs : List Char) : blanks1.Consumes [x] (z ++ cs) [] :=
    consumes_span1 (by simp) (by simpa using hx) ((hword.unbroken hz).head?_append hzne cs)
  have hinherits (cs : List Char) : (litAnyCase "Inherits").Consumes z cs [] :=
    consumes_of_takes fun _ hs => takes_all hs hz
  have hgap' : blanks1.Consumes [x'] (rest ++ []) [] :=
    consumes_span1 (by simp) (by simpa using hx') (by simpa using hhead)
  have hparents : (group 2 (span1 fun c => isListChar c || among "<>" c)).Consumes rest [] _ :=
    (consumes_span1 hrest (fun d hd => by rw [hlist d hd, Bool.true_or]) rfl).group 2
  have hblanks : blanks.Consumes [] [] [] := consumes_span (by simp) rfl
  have hword' := ((hgap _).seq (hinherits _)).seq hgap'
  have hafter : parentsAfter.Consumes _ [] _ := (hword'.seq hparents).orElse nothing
  exact ((hname.seq hafter).pass hblanks).of_eq (by simp)

/-! ### What a search for classes finds -/

variable {u : List Char} {names : List String}

/-- The head of a class holds at least six characters beside white space. -/
theorem six_le_countP (h : classPattern.Fits s t) :
    6 ≤ s.rest.countP fun c => !isBlank c := by
  obtain ⟨a, hhead, b, hname, -⟩ := fits_classPattern h
  obtain ⟨m, g, c, d, -, -, hc, -, hread⟩ := fits_classHead hhead
  obtain ⟨y, hne, hy, hread'⟩ := hname.group_span1
  have hclass : c.countP (fun c => !isBlank c) = 5 := by
    rw [List.countP_eq_length.mpr fun e he => by rw [unbroken_of_spells_class hc e he]; rfl]
    exact hc.length_eq
  have hword : y.countP (fun c => !isBlank c) = y.length :=
    List.countP_eq_length.mpr fun e he => by rw [isBlank_of_isWord (hy e he)]; rfl
  have hlength : 0 < y.length := List.length_pos_of_ne_nil hne
  simp only [hread, hread', List.countP_append]
  omega

theorem lists_short {cs : List Char} (h : cs.countP (fun c => !isBlank c) < 6) :
    classPattern.Lists 1 cs [] := by
  refine lists_of_not_foundIn fun m hm => ?_
  obtain ⟨s, t, hfits, -, hsuffix, -⟩ := hm
  have hcount := six_le_countP hfits
  have hle := hsuffix.sublist.countP_le (p := fun c => !isBlank c)
  omega

/-- A class is found by its name, and the search goes on with the word behind it. -/
theorem lists_class (hhead : HeadReads u (y ++ x :: (z ++ x' :: rest))) (hne : y ≠ [])
    (hy : ∀ c ∈ y, isWord c = true) (hx : isBlank x = true) (hzne : z ≠ []) (hz : Unbroken z)
    (hx' : isBlank x' = true) (hparents : ¬ Spells "Inherits" z)
    (h : classPattern.Lists 1 (z ++ x' :: rest) names) :
    classPattern.Lists 1 (u ++ (y ++ x :: (z ++ x' :: rest))) (String.ofList y :: names) := by
  have hreads : classPattern.Reads 1 (u ++ (y ++ [x])) (z ++ x' :: rest) y := by
    have htail := consumes_classTail hne hy hx hzne hz hx' hparents rest
    exact (HeadReads.consumes (by simpa using hhead) htail).reads rfl
  have hfound := Lists.found hreads (by simp) h
  simpa using hfound

theorem lists_class_parents (hhead : HeadReads u (y ++ x :: (z ++ x' :: rest))) (hne : y ≠ [])
    (hy : ∀ c ∈ y, isWord c = true) (hx : isBlank x = true) (hz : Spells "Inherits" z)
    (hx' : isBlank x' = true) (hrest : rest ≠ []) (hhead' : rest.head?.any isBlank = false)
    (hlist : ∀ c ∈ rest, isListChar c = true) :
    classPattern.Lists 1 (u ++ (y ++ x :: (z ++ x' :: rest))) [String.ofList y] := by
  have hreads : classPattern.Reads 1 (u ++ (y ++ x :: (z ++ x' :: rest))) [] y := by
    have htail := consumes_classTail_parents hne hy hx hz hx' hrest hhead' hlist
    exact (HeadReads.consumes (by simpa using hhead) htail).reads rfl
  have hfound := Lists.found hreads (by simp) (lists_short (by decide))
  simpa using hfound

theorem missesAt_word (hv : Unbroken v) (hx : isBlank x = true)
    (hrest : rest.head?.any isBlank = false)
    (hword : ∀ m c, IsModifier m → Spells "Class" c → v ≠ m ++ c)
    (hnext : IsModifier v → ∀ d b r, Spells "Class" d → Gap b → rest ≠ d ++ (b ++ r)) :
    classPattern.MissesAt (v ++ x :: rest) := by
  refine missesAt_of_not_fits fun s t hs hfits => ?_
  obtain ⟨a, hhead, -⟩ := fits_classPattern hfits
  obtain ⟨m, c, hm, hc, heq, -⟩ | ⟨hmodifier, d, b, hd, hb, hend⟩ :=
    classHead_cases hhead hs hv hx hrest
  · exact hword m c hm hc heq
  · exact hnext hmodifier d b _ hd hb hend

/-! ### Sources of blocks -/

/-- A source that declares a class with nothing in it for each name. -/
def blocks (names : List String) : List Char :=
  names.flatMap fun n => ("Class " ++ n ++ "\nEnd Class\n").toList

/-- The names that are read behind the last line of a block: first the word for classes, and then
what is left of the names of the blocks. -/
def followers : List String → List String
  | [] => []
  | n :: names => "Class" ::
      if Spells "Inherits" n.toList then []
      else (if endsLike "Class" n.toList then ["End"] else []) ++ followers names

def namesRead : List String → List String
  | [] => []
  | n :: names => n :: followers names

theorem blocks_cons (n : String) (names : List String) : blocks (n :: names) =
    "Class".toList ++ ' ' :: (n.toList ++ '\n' :: ("End".toList ++ ' ' ::
      ("Class".toList ++ '\n' :: blocks names))) := by
  show ("Class " ++ n ++ "\nEnd Class\n").toList ++ blocks names = _
  simp

theorem head?_blocks (names : List String) : (blocks names).head?.any isBlank = false := by
  cases names with
  | nil => rfl
  | cons n names =>
    rw [blocks_cons]
    rfl

theorem isListChar_of_mem_blocks (h : ∀ n ∈ names, MadeOf isWord n) :
    ∀ c ∈ blocks names, isListChar c = true := by
  have hfirst : "Class ".toList.all isListChar = true := by decide
  have hlast : "\nEnd Class\n".toList.all isListChar = true := by decide
  intro c hc
  obtain ⟨n, hn, hc⟩ := List.mem_flatMap.mp hc
  rw [String.toList_append, String.toList_append, List.mem_append, List.mem_append] at hc
  obtain (hc | hc) | hc := hc
  · exact List.all_eq_true.mp hfirst c hc
  · rw [isListChar, (h n hn).2 c hc, Bool.true_or, Bool.true_or]
  · exact List.all_eq_true.mp hlast c hc

theorem not_isModifier_class : ¬ IsModifier "Class".toList := by
  intro h
  obtain h | h := h.length
  · cases h
  · simp at h

/-- The last line of a block does not begin with the word for classes. -/
theorem end_ne_class {d b r : List Char} (hd : Spells "Class" d) (hb : Gap b) :
    "End".toList ++ ' ' :: rest ≠ d ++ (b ++ r) := by
  intro h
  obtain ⟨y, b, rfl⟩ := List.exists_cons_of_ne_nil hb.1
  have hy := hb.2 y List.mem_cons_self
  obtain ⟨rfl, -⟩ := Unbroken.cut (by decide) (unbroken_of_spells_class hd) (by decide) hy h
  cases hd.length_eq

/-- The first word of the last line of a block is passed over. -/
theorem lists_end (h : classPattern.Lists 1 (' ' :: ("Class".toList ++ '\n' :: rest)) names) :
    classPattern.Lists 1 ("End".toList ++ ' ' :: ("Class".toList ++ '\n' :: rest))
      names := by
  refine Lists.skips (fun v hne hsuffix => ?_) h
  have hlength : v.length ≤ 3 := hsuffix.length_le
  have hunbroken : Unbroken "End".toList := by decide
  refine missesAt_word (fun c hc => hunbroken c (hsuffix.subset hc)) (by decide) rfl ?_ ?_
  · rintro m c - hc rfl
    have hclass : c.length = 5 := hc.length_eq
    rw [List.length_append] at hlength
    omega
  · intro hmodifier
    obtain h | h := hmodifier.length
    · exact absurd h hne
    · omega

/-- A word in front of the last line of a block is passed over, unless it ends with the word for
classes: then the first word of the last line is taken for a name. -/
theorem lists_word (hv : ∀ c ∈ v, isWord c = true)
    (hclass : classPattern.Lists 1 ("Class".toList ++ '\n' :: rest) names)
    (hspace : classPattern.Lists 1 (' ' :: ("Class".toList ++ '\n' :: rest)) names) :
    classPattern.Lists 1
      (v ++ '\n' :: ("End".toList ++ ' ' :: ("Class".toList ++ '\n' :: rest)))
      ((if endsLike "Class" v then ["End"] else []) ++ names) := by
  induction v with
  | nil =>
    have hmiss : classPattern.MissesAt
        ([] ++ '\n' :: ("End".toList ++ ' ' :: ("Class".toList ++ '\n' :: rest))) := by
      refine missesAt_word (fun _ h => by cases h) (by decide) rfl (fun m c _ hc h => ?_)
        fun _ d b r hd hb => end_ne_class hd hb
      exact ne_nil_of_spells_class hc (List.append_eq_nil_iff.mp h.symm).2
    exact Lists.skip hmiss (lists_end hspace)
  | cons c v ih =>
    obtain ⟨hc, hv'⟩ := List.forall_mem_cons.mp hv
    by_cases hhead : ∃ m k, IsModifier m ∧ Spells "Class" k ∧ c :: v = m ++ k
    · obtain ⟨m, k, hm, hk, heq⟩ := hhead
      have hreads : HeadReads (m ++ k ++ ['\n'])
          ("End".toList ++ ' ' :: ("Class".toList ++ '\n' :: rest)) :=
        headReads_word hm hk (by decide) rfl fun _ d b r hd hb => end_ne_class hd hb
      have hfound := lists_class hreads (by decide) (List.all_eq_true.mp rfl) (by decide)
        (by decide) (by decide) (by decide) (by decide) hclass
      rw [heq, endsLike_append hk, if_pos rfl]
      simpa using hfound
    · have hmiss : classPattern.MissesAt
          (c :: v ++ '\n' :: ("End".toList ++ ' ' :: ("Class".toList ++ '\n' :: rest))) :=
        missesAt_word (unbroken_of_isWord hv) (by decide) rfl
          (fun m k hm hk heq => hhead ⟨m, k, hm, hk, heq⟩)
          fun _ d b r hd hb => end_ne_class hd hb
      have hspells : ¬ Spells "Class" (c :: v) := fun h => hhead ⟨[], c :: v, .inl rfl, h, rfl⟩
      rw [endsLike_cons, decide_eq_false hspells, Bool.false_or]
      exact Lists.skip hmiss (ih hv')

/-- Behind the last word of a head, the first word of a block is taken for the name. -/
theorem lists_block {n : String} (hn : MadeOf isWord n) (hnames : ∀ n ∈ names, MadeOf isWord n)
    (hhead : HeadReads u (blocks (n :: names)))
    (hclass : classPattern.Lists 1 ("Class".toList ++ '\n' :: blocks names) (followers names))
    (hspace : classPattern.Lists 1 (' ' :: ("Class".toList ++ '\n' :: blocks names))
      (followers names)) :
    classPattern.Lists 1 (u ++ blocks (n :: names)) (followers (n :: names)) := by
  rw [blocks_cons] at hhead ⊢
  rw [followers]
  by_cases hparents : Spells "Inherits" n.toList
  · have hlist : ∀ c ∈ "End".toList ++ ' ' :: ("Class".toList ++ '\n' :: blocks names),
        isListChar c = true := by
      have hwords : "End Class\n".toList.all isListChar = true := by decide
      have hline : "End".toList ++ ' ' :: ("Class".toList ++ '\n' :: blocks names) =
          "End Class\n".toList ++ blocks names := rfl
      intro c hc
      rw [hline, List.mem_append] at hc
      exact hc.elim (List.all_eq_true.mp hwords c) (isListChar_of_mem_blocks hnames c)
    rw [if_pos hparents]
    exact lists_class_parents hhead (by decide) (List.all_eq_true.mp rfl) (by decide) hparents
      (by decide) (by simp) rfl hlist
  · rw [if_neg hparents]
    exact lists_class hhead (by decide) (List.all_eq_true.mp rfl) (by decide) hn.1
      (unbroken_of_isWord hn.2) (by decide) hparents (lists_word hn.2 hclass hspace)

theorem lists_followers (h : ∀ n ∈ names, MadeOf isWord n) :
    classPattern.Lists 1 ("Class".toList ++ '\n' :: blocks names) (followers names) ∧
      classPattern.Lists 1 (' ' :: ("Class".toList ++ '\n' :: blocks names)) (followers names) := by
  induction names with
  | nil => exact ⟨lists_short (by decide), lists_short (by decide)⟩
  | cons n names ih =>
    obtain ⟨hn, hnames⟩ := List.forall_mem_cons.mp h
    obtain ⟨hclass, hspace⟩ := ih hnames
    have hrest := head?_blocks (n :: names)
    have hword : HeadReads ([] ++ "Class".toList ++ ['\n']) (blocks (n :: names)) :=
      headReads_word (.inl rfl) (spells_self "Class") (by decide) hrest
        fun hmodifier => absurd hmodifier not_isModifier_class
    have hgap : HeadReads (' ' :: ("Class".toList ++ ['\n'])) (blocks (n :: names)) :=
      headReads_gap (spells_self "Class") (by decide) (by decide) hrest
    have hfirst := lists_block hn hnames hword hclass hspace
    have hsecond := lists_block hn hnames hgap hclass hspace
    rw [List.nil_append, List.append_assoc, List.singleton_append] at hfirst
    rw [List.cons_append, List.append_assoc, List.singleton_append] at hsecond
    exact ⟨hfirst, hsecond⟩

theorem lists_blocks (h : ∀ n ∈ names, MadeOf isWord n) :
    classPattern.Lists 1 (blocks names) (namesRead names) := by
  cases names with
  | nil => exact lists_short (by decide)
  | cons n names =>
    obtain ⟨hn, hnames⟩ := List.forall_mem_cons.mp h
    have hhead : HeadReads ([] ++ "Class".toList ++ [' '])
        (n.toList ++ '\n' :: ("End".toList ++ ' ' :: ("Class".toList ++ '\n' :: blocks names))) :=
      headReads_word (.inl rfl) (spells_self "Class") (by decide)
        ((unbroken_of_isWord hn.2).head?_append hn.1 _)
        fun hmodifier => absurd hmodifier not_isModifier_class
    have hfound := lists_class hhead hn.1 hn.2 (by decide) (by decide) (by decide) (by decide)
      (by decide) (lists_end (lists_followers hnames).2)
    rw [List.nil_append, List.append_assoc, List.singleton_append, String.ofList_toList] at hfound
    rw [blocks_cons]
    exact hfound

/-- The names of the classes that are read from a source of blocks; they are those of the blocks
only if there is at most one block. -/
theorem names_of_blocks (options : ReadOptions) (h : ∀ n ∈ names, MadeOf isWord n) :
    ((read options (blocks names)).classes.map (·.name)) = namesRead names ∧
      ((∀ n ∈ names, n ≠ "Class") →
        (((read options (blocks names)).classes.map (·.name)) = names ↔ names.length ≤ 1)) := by
  have hread : (read options (blocks names)).classes.map (·.name) = namesRead names := by
    rw [← (lists_blocks h).findGroup_eq]
    exact List.map_map
  refine ⟨hread, fun hclass => ?_⟩
  rw [hread]
  cases names with
  | nil => simp [namesRead]
  | cons n names =>
    cases names with
    | nil => simp [namesRead, followers]
    | cons n' names =>
      have hne : "Class" ≠ n' := (hclass n' (by simp)).symm
      simp [namesRead, followers, hne]

/-- Of three blocks, the first name is read, and the second one is taken for a word in front of a
name, since it ends with the word for classes. -/
theorem names_of_three_blocks : (∀ n ∈ ["Order", "OrderClass", "Item"], MadeOf isWord n) ∧
    (read {} (blocks ["Order", "OrderClass", "Item"])).classes.map (·.name) =
      ["Order", "Class", "End", "Class"] ∧
    (read {} (blocks ["Order", "OrderClass", "Item"])).classes.map (·.name) ≠
      ["Order", "OrderClass", "Item"] := by
  have hnames : ∀ n ∈ ["Order", "OrderClass", "Item"], MadeOf isWord n := by decide
  obtain ⟨hread, hsame⟩ := names_of_blocks {} hnames
  refine ⟨hnames, hread.trans (by decide), fun heq => ?_⟩
  exact absurd ((hsame (by decide)).mp heq) (by decide)

/-- Two blocks, and the name of the second one is not read. -/
theorem second_block_misread :
    blocks ["A", "B"] = "Class A\nEnd Class\nClass B\nEnd Class\n".toList ∧
    (read {} (blocks ["A", "B"])).classes.map (·.name) = ["A", "Class"] := by
  decide

end VisualBasic

end CodeScribe

import CodeScribe.Diagram.Mermaid
import CodeScribe.Proofs.Text.Basic
import Mathlib.Data.List.DropRight

/-!
# What an identifier in a drawing tells

The identifier of a path is made of the words of the path.  With a digest behind it, the path can
be told from the identifier as far as it can be told from the digest; without one, only the words
can be told, and of long paths not even all of them.

* `Mermaid.nodeId_eq`, `Mermaid.shortId_eq` — identifiers as cut spellings;
* `Mermaid.isIdentifier_nodeId`, `Mermaid.isIdentifier_shortId` — what a drawing asks of identifiers.
-/

namespace CodeScribe

namespace Chars

/-- The first character of a text is trimmed off its end only if nothing else is left of it. -/
theorem trimRightOf_cons (p : Char → Bool) (c : Char) (cs : List Char) :
    trimRightOf p (c :: cs) =
      if trimRightOf p cs = [] ∧ p c = true then [] else c :: trimRightOf p cs := by
  rw [trimRightOf, trimRightOf, List.reverse_cons, List.dropWhile_append]
  by_cases hrest : cs.reverse.dropWhile p = []
  · by_cases hc : p c = true
    · simp [hrest, hc]
    · simp [hrest, hc]
  · simp [hrest]

end Chars

namespace Mermaid

open Chars
open Text (isAlnum isWord isLetter)

variable {c : Char} {cs : List Char} {ws : List (List Char)} {limit : Nat} {path : String}

/-! ### Words -/

/-- The words of a text: its longest runs of letters and numbers. -/
def words (cs : List Char) : List (List Char) :=
  (cs.splitOnP fun c => !isAlnum c).filter fun w => !w.isEmpty

theorem words_cons_of_not (hc : isAlnum c = false) (cs : List Char) :
    words (c :: cs) = words cs := by
  simp [words, List.splitOnP_cons_eq_if_modifyHead, hc]

/-- A letter or number alone is a word of its own. -/
theorem words_cons_alone (hc : isAlnum c = true) (hnext : cs.head?.any isAlnum = false) :
    words (c :: cs) = [c] :: words cs := by
  cases cs with
  | nil => simp [words, List.splitOnP_cons_eq_if_modifyHead, hc]
  | cons d cs =>
    have hd : isAlnum d = false := by simpa using hnext
    simp [words, List.splitOnP_cons_eq_if_modifyHead, hc, hd]

/-- A letter or number in front of another one belongs to the same word. -/
theorem words_cons_cons {d : Char} (hc : isAlnum c = true) (hd : isAlnum d = true)
    (cs : List Char) :
    ∃ w ws, words (d :: cs) = w :: ws ∧ words (c :: d :: cs) = (c :: w) :: ws := by
  obtain ⟨h, t, hsplit⟩ := List.exists_cons_of_ne_nil
    (List.splitOnP_ne_nil (fun c => !isAlnum c) cs)
  refine ⟨d :: h, t.filter fun w => !w.isEmpty, ?_, ?_⟩
  · simp [words, List.splitOnP_cons_eq_if_modifyHead, hd, hsplit]
  · simp [words, List.splitOnP_cons_eq_if_modifyHead, hc, hd, hsplit]

theorem isAlnum_underscore : isAlnum '_' = false := by decide

/-- Words are not empty and hold letters and numbers only. -/
theorem isAlnum_of_mem_words {w : List Char} (hw : w ∈ words cs) :
    w ≠ [] ∧ ∀ c ∈ w, isAlnum c = true := by
  induction cs generalizing w with
  | nil => cases hw
  | cons c cs ih =>
    cases hc : isAlnum c with
    | false =>
      rw [words_cons_of_not hc] at hw
      exact ih hw
    | true =>
      cases hnext : cs.head?.any isAlnum with
      | false =>
        rw [words_cons_alone hc hnext] at hw
        rcases List.mem_cons.mp hw with rfl | hw
        · simp [hc]
        · exact ih hw
      | true =>
        cases cs with
        | nil => cases hnext
        | cons d cs =>
          obtain ⟨v, vs, hwords, hwords'⟩ := words_cons_cons hc (by simpa using hnext) cs
          rw [hwords'] at hw
          rw [hwords] at ih
          rcases List.mem_cons.mp hw with rfl | hw
          · simpa [hc] using (ih List.mem_cons_self).2
          · exact ih (List.mem_cons_of_mem _ hw)

/-! ### Squeezed texts -/

theorem squeeze_cons (h : c ≠ '_' ∨ cs.head? ≠ some '_') : squeeze (c :: cs) = c :: squeeze cs := by
  rw [squeeze.eq_def]
  split
  · rename_i heq
    obtain ⟨rfl, rfl⟩ := List.cons.inj heq
    simp at h
  · rename_i heq
    obtain ⟨rfl, rfl⟩ := List.cons.inj heq
    rfl
  · rename_i heq
    cases heq

/-- One underscore is left of those in front of a text. -/
theorem squeeze_underscore (cs : List Char) :
    squeeze ('_' :: cs) = '_' :: (squeeze cs).dropWhile (· == '_') := by
  induction cs with
  | nil => rfl
  | cons d cs ih =>
    by_cases hd : d = '_'
    · subst hd
      rw [squeeze, ih]
      simp [List.dropWhile_idempotent]
    · rw [squeeze_cons (.inr (by simpa using hd)), squeeze_cons (.inl hd)]
      simp [hd]

/-- A text without doubled underscores and without underscores around it. -/
def tight (cs : List Char) : List Char := trimOf (· == '_') (squeeze cs)

theorem tight_underscore (cs : List Char) : tight ('_' :: cs) = tight cs := by
  rw [tight, tight, trimOf, trimOf, trimLeftOf, trimLeftOf, squeeze_underscore]
  simp [List.dropWhile_idempotent]

theorem tight_cons (hc : c ≠ '_') (cs : List Char) :
    tight (c :: cs) = c :: trimRightOf (· == '_') (squeeze cs) := by
  rw [tight, trimOf, trimLeftOf, squeeze_cons (.inl hc)]
  simp [trimRightOf_cons, hc]

theorem trimRightOf_squeeze_underscore (cs : List Char) :
    trimRightOf (· == '_') (squeeze ('_' :: cs)) =
      if tight cs = [] then [] else '_' :: tight cs := by
  rw [squeeze_underscore, trimRightOf_cons, tight, trimOf, trimLeftOf]
  simp only [beq_self_eq_true, and_true]

theorem trimRightOf_squeeze (h : cs.head? ≠ some '_') :
    trimRightOf (· == '_') (squeeze cs) = tight cs := by
  cases cs with
  | nil => rfl
  | cons c cs =>
    have hc : c ≠ '_' := by simpa using h
    rw [tight_cons hc, squeeze_cons (.inl hc)]
    simp [trimRightOf_cons, hc]

/-- A character that may stand in an identifier. -/
def wordChar (c : Char) : Char := if isWord c then c else '_'

theorem wordChar_of_isAlnum (hc : isAlnum c = true) : wordChar c = c ∧ c ≠ '_' := by
  refine ⟨by simp [wordChar, isWord, hc], ?_⟩
  rintro rfl
  rw [isAlnum_underscore] at hc
  cases hc

theorem wordChar_of_not (hc : isAlnum c = false) : wordChar c = '_' := by
  by_cases h : c = '_'
  · simp [wordChar, h]
  · simp [wordChar, isWord, hc, h]

/-- Squeezed and trimmed, a text is its words with single underscores between them. -/
theorem tight_map_wordChar (cs : List Char) :
    tight (cs.map wordChar) = ['_'].intercalate (words cs) := by
  induction cs with
  | nil => rfl
  | cons c cs ih =>
    rw [List.map_cons]
    cases hc : isAlnum c with
    | false => rw [wordChar_of_not hc, tight_underscore, ih, words_cons_of_not hc]
    | true =>
      obtain ⟨hsame, hne⟩ := wordChar_of_isAlnum hc
      rw [hsame, tight_cons hne]
      cases cs with
      | nil => rw [words_cons_alone hc rfl]; rfl
      | cons d cs =>
        rw [List.map_cons] at ih ⊢
        cases hd : isAlnum d with
        | true =>
          have hhead : (wordChar d :: cs.map wordChar).head? ≠ some '_' := by
            simp [wordChar_of_isAlnum hd]
          obtain ⟨w, ws, hwords, hwords'⟩ := words_cons_cons hc hd cs
          rw [trimRightOf_squeeze hhead, ih, hwords, hwords']
          cases ws <;> simp
        | false =>
          have hnext : (d :: cs).head?.any isAlnum = false := by simpa using hd
          rw [wordChar_of_not hd, tight_underscore] at ih
          rw [wordChar_of_not hd, trimRightOf_squeeze_underscore, ih, words_cons_alone hc hnext,
            words_cons_of_not hd]
          cases hwords : words cs with
          | nil => simp
          | cons w ws =>
            obtain ⟨a, w', rfl⟩ := List.exists_cons_of_ne_nil
              (isAlnum_of_mem_words (hwords ▸ List.mem_cons_self : w ∈ words cs)).1
            cases ws <;> simp

/-! ### Spellings -/

/-- Words of letters and numbers, none of them empty. -/
def AreWords (ws : List (List Char)) : Prop := ∀ w ∈ ws, w ≠ [] ∧ ∀ c ∈ w, isAlnum c = true

theorem areWords_words (cs : List Char) : AreWords (words cs) := fun _ => isAlnum_of_mem_words

namespace AreWords

variable {w : List Char} {ws vs : List (List Char)}

theorem underscore_notMem (h : AreWords ws) : ∀ w ∈ ws, '_' ∉ w := by
  intro w hw hmem
  exact (wordChar_of_isAlnum ((h w hw).2 _ hmem)).2 rfl

/-- Joined words start as the first of them does, with no underscore. -/
theorem exists_head (h : AreWords (w :: ws)) :
    ∃ c v rest, w = c :: v ∧ c ≠ '_' ∧ ['_'].intercalate (w :: ws) = c :: rest := by
  obtain ⟨hne, hw⟩ := h w List.mem_cons_self
  obtain ⟨c, v, rfl⟩ := List.exists_cons_of_ne_nil hne
  have hc : c ≠ '_' := (wordChar_of_isAlnum (hw c List.mem_cons_self)).2
  cases ws with
  | nil => exact ⟨c, v, v, rfl, hc, by simp⟩
  | cons u us => exact ⟨c, v, v ++ '_' :: ['_'].intercalate (u :: us), rfl, hc, by simp⟩

theorem intercalate_eq_nil (h : AreWords ws) : ['_'].intercalate ws = [] ↔ ws = [] := by
  cases ws with
  | nil => simp
  | cons w ws =>
    obtain ⟨c, v, rest, -, -, hjoined⟩ := h.exists_head
    simp [hjoined]

/-- Joined words are read back by splitting at the underscores. -/
theorem intercalate_inj (hws : AreWords ws) (hvs : AreWords vs)
    (h : ['_'].intercalate ws = ['_'].intercalate vs) : ws = vs := by
  by_cases hempty : ws = []
  · subst hempty
    exact (hvs.intercalate_eq_nil.mp h.symm).symm
  · have hempty' : vs ≠ [] := by
      rintro rfl
      exact hempty (hws.intercalate_eq_nil.mp h)
    rw [← List.splitOn_intercalate '_' hws.underscore_notMem hempty, h,
      List.splitOn_intercalate '_' hvs.underscore_notMem hempty']

end AreWords

/-- What stands in front of words that start with no letter. -/
def lead : List (List Char) → List Char
  | (c :: _) :: _ => if isLetter c then [] else ['_']
  | _ => []

/-- Words in one, with underscores between them and in front of a number. -/
def spelling (ws : List (List Char)) : List Char := lead ws ++ ['_'].intercalate ws

theorem stem_eq (s : String) : stem s = spelling (words s.toList) := by
  have htight : trimOf (· == '_') (squeeze (s.toList.map fun c => if isWord c then c else '_'))
      = ['_'].intercalate (words s.toList) := tight_map_wordChar s.toList
  have hwords := areWords_words s.toList
  rw [stem, htight, spelling]
  cases hlist : words s.toList with
  | nil => rfl
  | cons w ws =>
    rw [hlist] at hwords
    obtain ⟨c, v, rest, rfl, hc, hjoined⟩ := hwords.exists_head
    rw [hjoined, lead]
    cases hletter : isLetter c <;> simp [hc, hletter]

theorem spelling_eq_nil (h : AreWords ws) : spelling ws = [] ↔ ws = [] := by
  rw [spelling, List.append_eq_nil_iff, h.intercalate_eq_nil]
  constructor
  · exact And.right
  · rintro rfl
    exact ⟨rfl, rfl⟩

/-- Without what stands in front of them, spelled words start with no underscore. -/
theorem dropWhile_spelling (h : AreWords ws) :
    (spelling ws).dropWhile (· == '_') = ['_'].intercalate ws := by
  cases ws with
  | nil => rfl
  | cons w ws =>
    obtain ⟨c, v, rest, rfl, hc, hjoined⟩ := h.exists_head
    rw [spelling, lead, hjoined]
    cases isLetter c <;> simp [hc]

theorem spelling_inj {vs : List (List Char)} (hws : AreWords ws) (hvs : AreWords vs) :
    spelling ws = spelling vs ↔ ws = vs := by
  constructor
  · intro h
    apply hws.intercalate_inj hvs
    rw [← dropWhile_spelling hws, ← dropWhile_spelling hvs, h]
  · rintro rfl
    rfl

theorem isWord_of_mem_spelling (h : AreWords ws) (hc : c ∈ spelling ws) : isWord c = true := by
  have hlead : c ∈ lead ws → c = '_' := by
    rw [lead.eq_def]
    split
    · split <;> simp
    · simp
  have hjoined : ∀ us : List (List Char), AreWords us → c ∈ ['_'].intercalate us →
      isWord c = true := by
    intro us hus
    induction us with
    | nil => simp
    | cons u us ih =>
      have hu : c ∈ u → isWord c = true := by
        intro hmem
        simp [isWord, (hus u List.mem_cons_self).2 c hmem]
      have hus' : AreWords us := fun w hw => hus w (List.mem_cons_of_mem _ hw)
      cases us with
      | nil => simpa using hu
      | cons v us =>
        intro hmem
        simp only [List.intercalate_cons_cons, List.mem_append, List.mem_singleton] at hmem
        rcases hmem with (hmem | rfl) | hmem
        · exact hu hmem
        · decide
        · exact ih hus' hmem
  rcases List.mem_append.mp hc with hc | hc
  · rw [hlead hc]
    decide
  · exact hjoined ws h hc

/-! ### Identifiers -/

/-- The words that a path is called by; a path without words is called a node. -/
def namedWords (path : String) : List (List Char) :=
  if words path.toList = [] then ["node".toList] else words path.toList

theorem areWords_namedWords (path : String) : AreWords (namedWords path) := by
  rw [namedWords]
  split
  · intro w hw
    rw [List.mem_singleton.mp hw]
    exact ⟨List.cons_ne_nil _ _, List.all_eq_true.mp (by decide)⟩
  · exact areWords_words _

/-- A path as it is called: its words, spelled. -/
def calledBy (path : String) : List Char := spelling (namedWords path)

theorem calledBy_inj {p q : String} : calledBy p = calledBy q ↔ namedWords p = namedWords q :=
  spelling_inj (areWords_namedWords p) (areWords_namedWords q)

theorem isEmpty_stem (s : String) : (stem s).isEmpty = (words s.toList).isEmpty := by
  rw [stem_eq, Bool.eq_iff_iff, List.isEmpty_iff, List.isEmpty_iff,
    spelling_eq_nil (areWords_words _)]

theorem cut_stem (hlimit : 4 ≤ limit) (s : String) :
    (if (stem s).isEmpty then "node" else String.ofList ((stem s).take limit)) =
      String.ofList ((calledBy s).take limit) := by
  rw [isEmpty_stem, stem_eq, calledBy, namedWords]
  cases hwords : words s.toList with
  | nil =>
    have hnode : spelling ["node".toList] = "node".toList := by decide
    have htake : "node".toList.take limit = "node".toList := List.take_of_length_le hlimit
    simp only [List.isEmpty_nil, if_true, hnode, htake, String.ofList_toList]
  | cons w ws => simp only [List.isEmpty_cons, Bool.false_eq_true, reduceCtorEq, if_false]

theorem shortId_eq (s : String) : shortId s = String.ofList ((calledBy s).take 50) :=
  cut_stem (by decide) s

def digestStart (path : String) : String := Text.take 10 (Sha1.hex path)

theorem nodeId_eq (path : String) :
    nodeId path = String.ofList ((calledBy path).take 80) ++ "_" ++ digestStart path := by
  rw [nodeId, cut_stem (by decide), digestStart]

/-! ### Characters -/

theorem isWord_of_mem_toDigits {n : Nat} (hc : c ∈ Nat.toDigits 16 n) : isWord c = true := by
  have hdigit : ∀ d < 16, isWord (Nat.digitChar d) = true := by decide
  induction n using Nat.strongRecOn with
  | ind n ih =>
    rw [Nat.toDigits_eq_if (by decide)] at hc
    split at hc
    · rename_i hn
      rw [List.mem_singleton.mp hc]
      exact hdigit n hn
    · rcases List.mem_append.mp hc with hc | hc
      · exact ih (n / 16) (by omega) hc
      · rw [List.mem_singleton.mp hc]
        exact hdigit (n % 16) (Nat.mod_lt n (by decide))

theorem isWord_of_mem_wordHex {w : UInt32} (hc : c ∈ (Sha1.wordHex w).toList) :
    isWord c = true := by
  rw [Sha1.wordHex, String.toList_ofList] at hc
  rcases List.mem_append.mp hc with hc | hc
  · rw [(List.mem_replicate.mp hc).2]
    decide
  · exact isWord_of_mem_toDigits hc

theorem isWord_of_mem_digestStart (hc : c ∈ (digestStart path).toList) : isWord c = true := by
  rw [digestStart, Text.take, String.toList_ofList] at hc
  have hmem := List.mem_of_mem_take hc
  simp only [Sha1.hex, String.toList_append, List.mem_append] at hmem
  rcases hmem with (((hmem | hmem) | hmem) | hmem) | hmem <;> exact isWord_of_mem_wordHex hmem

theorem le_length_wordHex (w : UInt32) : 8 ≤ (Sha1.wordHex w).toList.length := by
  rw [Sha1.wordHex, String.toList_ofList, List.length_append, List.length_replicate]
  omega

theorem length_digestStart (path : String) : (digestStart path).length = 10 := by
  have hlength : 10 ≤ (Sha1.hex path).toList.length := by
    simp only [Sha1.hex, String.toList_append, List.length_append]
    have ha := le_length_wordHex (Sha1.digest path.toUTF8.toList).a
    have hb := le_length_wordHex (Sha1.digest path.toUTF8.toList).b
    omega
  rw [digestStart, Text.take, String.length_ofList, List.length_take]
  omega

theorem newline_notMem_label (limit : Nat) (s : String) : '\n' ∉ (label limit s).toList := by
  rw [label]
  split
  · decide
  · rw [String.toList_ofList]
    intro hmem
    obtain ⟨c, -, hc⟩ := List.mem_flatMap.mp (List.mem_of_mem_take hmem)
    split at hc
    · simp at hc
    · split at hc
      · simp at hc
      · split at hc
        · simp at hc
        · rename_i hbreak
          simp [← List.mem_singleton.mp hc] at hbreak

/-! ### Valid identifiers -/

/-- A text that a drawing takes as the name of a node: word characters, at least one and at most a
number of them, with a letter or an underscore in front. -/
structure IsIdentifier (limit : Nat) (id : String) : Prop where
  madeOf : Text.MadeOf isWord id
  starts : ∀ c ∈ id.toList.head?, isLetter c = true ∨ c = '_'
  length_le : id.length ≤ limit

theorem namedWords_ne_nil (path : String) : namedWords path ≠ [] := by
  rw [namedWords]
  split
  · exact List.cons_ne_nil _ _
  · assumption

/-- What a path is called starts with a letter, or with the underscore in front of a number. -/
theorem exists_calledBy_eq_cons (path : String) :
    ∃ c cs, calledBy path = c :: cs ∧ (isLetter c = true ∨ c = '_') := by
  obtain ⟨w, ws, hwords⟩ := List.exists_cons_of_ne_nil (namedWords_ne_nil path)
  have hare := areWords_namedWords path
  rw [hwords] at hare
  obtain ⟨c, v, rest, rfl, -, hjoined⟩ := hare.exists_head
  rw [calledBy, hwords, spelling, lead, hjoined]
  cases hletter : isLetter c with
  | true => exact ⟨c, rest, by simp, .inl hletter⟩
  | false => exact ⟨'_', c :: rest, by simp, .inr rfl⟩

/-- What a path is called is an identifier, however it is cut. -/
theorem isIdentifier_take_calledBy (hlimit : 0 < limit) (path : String) :
    IsIdentifier limit (String.ofList ((calledBy path).take limit)) := by
  obtain ⟨c, cs, hcalled, hc⟩ := exists_calledBy_eq_cons path
  have hhead : ((calledBy path).take limit).head? = some c := by
    rw [List.head?_take, if_neg hlimit.ne', hcalled, List.head?_cons]
  refine ⟨⟨fun hnil => ?_, fun d hd => ?_⟩, ?_, ?_⟩
  · rw [String.toList_ofList] at hnil
    rw [hnil] at hhead
    cases hhead
  · rw [String.toList_ofList] at hd
    exact isWord_of_mem_spelling (areWords_namedWords path) (List.mem_of_mem_take hd)
  · rw [String.toList_ofList, hhead]
    simpa using hc
  · rw [String.length_ofList]
    exact List.length_take_le _ _

/-- An identifier stays one with more word characters behind it. -/
theorem IsIdentifier.append {id s : String} (hid : IsIdentifier limit id)
    (hs : ∀ c ∈ s.toList, isWord c = true) : IsIdentifier (limit + s.length) (id ++ s) := by
  refine ⟨⟨?_, fun c hc => ?_⟩, ?_, ?_⟩
  · simp [hid.madeOf.1]
  · rw [String.toList_append] at hc
    exact (List.mem_append.mp hc).elim (hid.madeOf.2 c) (hs c)
  · rw [String.toList_append, List.head?_append_of_ne_nil _ hid.madeOf.1]
    exact hid.starts
  · rw [String.length_append]
    exact Nat.add_le_add_right hid.length_le _

theorem isIdentifier_shortId (path : String) : IsIdentifier 50 (shortId path) := by
  rw [shortId_eq]
  exact isIdentifier_take_calledBy (by decide) path

theorem isIdentifier_nodeId (path : String) : IsIdentifier 91 (nodeId path) := by
  have hlimit : 80 + "_".length + (digestStart path).length = 91 := by
    rw [length_digestStart]
    rfl
  have hbase := isIdentifier_take_calledBy (by decide : 0 < 80) path
  have hmarked := hbase.append (s := "_") fun c hc => by
    rw [List.mem_singleton.mp hc]
    decide
  rw [nodeId_eq, ← hlimit]
  exact hmarked.append fun c => isWord_of_mem_digestStart

theorem isWord_of_mem_shortId (hc : c ∈ (shortId path).toList) : isWord c = true :=
  (isIdentifier_shortId path).madeOf.2 c hc

theorem isWord_of_mem_nodeId (hc : c ∈ (nodeId path).toList) : isWord c = true :=
  (isIdentifier_nodeId path).madeOf.2 c hc

/-- **Every path has valid identifiers**, also one that starts with a number or has no word in it:
both kinds are made of word characters, start with a letter or an underscore and keep to their
limits, which long paths reach. -/
theorem ids_are_identifiers (path : String) :
    IsIdentifier 91 (nodeId path) ∧ IsIdentifier 50 (shortId path) ∧
      (nodeId path).length = min 80 (calledBy path).length + 11 ∧
      (shortId path).length = min 50 (calledBy path).length := by
  refine ⟨isIdentifier_nodeId path, isIdentifier_shortId path, ?_, ?_⟩
  · rw [nodeId_eq, String.length_append, String.length_append, String.length_ofList,
      List.length_take, length_digestStart]
    rfl
  · rw [shortId_eq, String.length_ofList, List.length_take]

/-- Equal identifiers have equal digests at their ends. -/
theorem digestStart_of_nodeId_eq {p q : String} (h : nodeId p = nodeId q) :
    digestStart p = digestStart q := by
  have hlist := congrArg String.toList h
  simp only [nodeId_eq, String.toList_append] at hlist
  have hlength : (digestStart p).toList.length = (digestStart q).toList.length := by
    rw [String.length_toList, String.length_toList, length_digestStart, length_digestStart]
  exact String.toList_inj.mp (List.append_inj_right' hlist hlength)

end Mermaid

end CodeScribe

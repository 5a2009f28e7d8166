import CodeScribe.Text.Chars
import Mathlib.Data.List.Infix
import Mathlib.Data.List.Sort
import Mathlib.Data.String.Basic

/-!
# Laws of texts

What trimming, searching and splitting do to texts whose characters are known.

* `Chars.endsWith_iff`, `Chars.contains_singleton` — searching as relations on lists;
* `Chars.splitOn_singleton` — splitting at one character is splitting of lists.
-/

namespace CodeScribe

namespace Text

variable {c : Char}

/-! ### Character classes -/

/-- A text of characters of one class, and not empty. -/
def MadeOf (accept : Char → Bool) (s : String) : Prop :=
  s.toList ≠ [] ∧ ∀ c ∈ s.toList, accept c = true

instance (accept : Char → Bool) (s : String) : Decidable (MadeOf accept s) :=
  have : Decidable (∀ c ∈ s.toList, accept c = true) :=
    List.decidableBAll (fun c => accept c = true) s.toList
  inferInstanceAs (Decidable (_ ∧ _))

theorem MadeOf.ne_empty {accept : Char → Bool} {s : String} (h : MadeOf accept s) : s ≠ "" := by
  intro hs
  exact h.1 (by rw [hs]; rfl)

theorem MadeOf.not_mem {accept : Char → Bool} {s : String} (h : MadeOf accept s)
    (hc : accept c = false) : c ∉ s.toList := by
  intro hmem
  rw [h.2 c hmem] at hc
  cases hc

/-- The code points of white space. -/
def blankCodes : List Nat :=
  [0x09, 0x0A, 0x0B, 0x0C, 0x0D, 0x1C, 0x1D, 0x1E, 0x1F, 0x20, 0x85, 0xA0, 0x1680, 0x2000, 0x2001,
    0x2002, 0x2003, 0x2004, 0x2005, 0x2006, 0x2007, 0x2008, 0x2009, 0x200A, 0x2028, 0x2029, 0x202F,
    0x205F, 0x3000]

theorem mem_blankCodes (h : isBlank c = true) : c.toNat ∈ blankCodes := by
  simp only [isBlank] at h
  simp only [blankCodes, List.mem_cons, List.not_mem_nil, or_false]
  split at h <;> simp at h <;> omega

/-- White space belongs to no word. -/
theorem isWord_of_isBlank (h : isBlank c = true) : isWord c = false := by
  have hcodes : ∀ n ∈ blankCodes, isWord (Char.ofNat n) = false := by decide +kernel
  rw [← Char.ofNat_toNat c]
  exact hcodes _ (mem_blankCodes h)

theorem isBlank_of_isWord (h : isWord c = true) : isBlank c = false := by
  cases hb : isBlank c with
  | false => rfl
  | true => rw [isWord_of_isBlank hb] at h; cases h

end Text

namespace Chars

variable {p : Char → Bool} {cs as bs r r' : List Char} {c : Char}

/-! ### Trimming -/

theorem trimOf_eq_self (h : ∀ c ∈ cs, p c = false) : trimOf p cs = cs := by
  have hdrop : ∀ l : List Char, (∀ c ∈ l, p c = false) → l.dropWhile p = l := by
    intro l hl
    cases l with
    | nil => rfl
    | cons c l => rw [List.dropWhile_cons_of_neg (by simp [hl c List.mem_cons_self])]
  rw [trimOf, trimLeftOf, trimRightOf, hdrop cs h, hdrop cs.reverse (by simpa using h),
    List.reverse_reverse]

/-! ### Searching -/

theorem endsWith_iff {tail : List Char} : endsWith cs tail = true ↔ tail <:+ cs := by
  rw [endsWith, List.isPrefixOf_iff_prefix, List.reverse_prefix]

theorem contains_singleton : contains cs [c] = true ↔ c ∈ cs := by
  rw [contains]
  induction cs with
  | nil => simp [find?]
  | cons d rest ih =>
    rw [find?, List.mem_cons]
    by_cases hcd : c = d
    · simp [hcd]
    · have hhead : [c].isPrefixOf (d :: rest) = false := by
        rw [List.isPrefixOf_cons_cons, beq_false_of_ne hcd, Bool.false_and]
      rw [hhead, if_neg Bool.false_ne_true, Option.isSome_map, ih]
      simp [hcd]

/-! ### Splitting -/

/-- The first character of a class is at one place. -/
theorem cut {b b' : Char} (ha : ∀ c ∈ as, p c = false) (hb : ∀ c ∈ bs, p c = false)
    (hp : p b = true) (hp' : p b' = true) (h : as ++ b :: r = bs ++ b' :: r') :
    as = bs ∧ r = r' := by
  induction as generalizing bs with
  | nil =>
    cases bs with
    | nil => exact ⟨rfl, (List.cons.inj h).2⟩
    | cons c bs =>
      obtain ⟨rfl, -⟩ := List.cons.inj h
      rw [hb b List.mem_cons_self] at hp
      cases hp
  | cons a as ih =>
    cases bs with
    | nil =>
      obtain ⟨rfl, -⟩ := List.cons.inj h
      rw [ha a List.mem_cons_self] at hp'
      cases hp'
    | cons c bs =>
      obtain ⟨rfl, hrest⟩ := List.cons.inj h
      obtain ⟨rfl, rfl⟩ := ih (fun d hd => ha d (List.mem_cons_of_mem a hd))
        (fun d hd => hb d (List.mem_cons_of_mem a hd)) hrest
      exact ⟨rfl, rfl⟩

/-- There is one first character of a class. -/
theorem cut_char {b b' : Char} (ha : ∀ c ∈ as, p c = false) (hb : ∀ c ∈ bs, p c = false)
    (hp : p b = true) (hp' : p b' = true) (h : as ++ b :: r = bs ++ b' :: r') : b = b' := by
  obtain ⟨rfl, -⟩ := cut ha hb hp hp' h
  exact (List.cons.inj (List.append_cancel_left h)).1

/-- The first place of a character. -/
theorem cut_at {d : Char} (ha : d ∉ as) (hb : d ∉ bs) (h : as ++ d :: r = bs ++ d :: r') :
    as = bs ∧ r = r' := by
  have hother {cs : List Char} (hcs : d ∉ cs) : ∀ c ∈ cs, (c == d) = false := by
    intro c hc
    rw [beq_eq_false_iff_ne]
    rintro rfl
    exact hcs hc
  exact cut (hother ha) (hother hb) (beq_self_eq_true d) (beq_self_eq_true d) h

/-- Where a character stands that a text has once. -/
theorem cut_once {d : Char} (hbs : d ∉ bs) (hr' : d ∉ r') (h : as ++ d :: r = bs ++ d :: r') :
    as = bs ∧ r = r' := by
  -- The right side has the character once, so the left side has it at the cut only.
  have hcount := congrArg (List.count d) h
  simp only [List.count_append, List.count_cons_self, List.count_eq_zero_of_not_mem hbs,
    List.count_eq_zero_of_not_mem hr'] at hcount
  have has : d ∉ as := List.count_eq_zero.mp (by omega)
  exact cut_at has hbs h

theorem splitFrom_singleton (c : Char) (piece cs : List Char) :
    splitFrom [c] 0 piece cs = List.splitOnPPrepend (· == c) cs piece := by
  induction cs generalizing piece with
  | nil => rfl
  | cons d rest ih =>
    have hhead : [c].isPrefixOf (d :: rest) = (d == c) := by
      rw [List.isPrefixOf_cons_cons, List.isPrefixOf_nil_left, Bool.and_true, Bool.beq_comm]
    rw [splitFrom, List.splitOnPPrepend_cons_eq_if, hhead]
    split
    · rw [← List.splitOnPPrepend_nil_right, ← ih []]
      rfl
    · exact ih (d :: piece)

theorem splitOn_singleton (c : Char) (cs : List Char) : splitOn [c] cs = cs.splitOn c := by
  rw [splitOn, splitFrom_singleton, List.splitOnPPrepend_nil_right, List.splitOn_eq_splitOnP]

/-- The pieces of a text do not hold the character it was split at. -/
theorem not_mem_of_mem_splitOn {piece : List Char} (h : piece ∈ cs.splitOn c) : c ∉ piece := by
  induction cs generalizing piece with
  | nil =>
    rw [List.splitOn_nil, List.mem_singleton] at h
    simp [h]
  | cons d cs ih =>
    rw [List.splitOn_cons_eq_if_modifyHead] at h
    split at h
    · rcases List.mem_cons.mp h with rfl | h
      · simp
      · exact ih h
    · rename_i hd
      obtain ⟨head, tail, heq⟩ := List.exists_cons_of_ne_nil (List.splitOn_ne_nil c cs)
      rw [heq] at h ih
      rcases List.mem_cons.mp h with rfl | h
      · rw [List.mem_cons, not_or]
        exact ⟨fun hcd => hd (beq_iff_eq.mpr hcd.symm), ih List.mem_cons_self⟩
      · exact ih (List.mem_cons_of_mem _ h)

/-- The pieces of a text hold characters of the text. -/
theorem subset_of_mem_splitOn {piece : List Char} (h : piece ∈ cs.splitOn c) : piece ⊆ cs := by
  induction cs generalizing piece with
  | nil =>
    rw [List.splitOn_nil, List.mem_singleton] at h
    simp [h]
  | cons d cs ih =>
    have hcs : cs ⊆ d :: cs := List.subset_cons_self d cs
    rw [List.splitOn_cons_eq_if_modifyHead] at h
    split at h
    · rcases List.mem_cons.mp h with rfl | h
      · simp
      · exact List.Subset.trans (ih h) hcs
    · obtain ⟨head, tail, heq⟩ := List.exists_cons_of_ne_nil (List.splitOn_ne_nil c cs)
      rw [heq] at h ih
      rcases List.mem_cons.mp h with rfl | h
      · exact List.cons_subset_cons d (ih List.mem_cons_self)
      · exact List.Subset.trans (ih (List.mem_cons_of_mem _ h)) hcs

end Chars

namespace Text

variable {s : String}

/-- A text without white space is trimmed to itself. -/
theorem trim_eq_self (h : ∀ c ∈ s.toList, isBlank c = false) : trim s = s := by
  rw [trim, Chars.trim, Chars.trimOf_eq_self h, String.ofList_toList]

theorem lines_join {lines : List String} (hlines : ∀ line ∈ lines, '\n' ∉ line.toList)
    (hne : lines ≠ []) : splitOn (join "\n" lines) "\n" = lines := by
  have hends : ∀ l ∈ lines.map String.toList, '\n' ∉ l := by
    intro l hl
    obtain ⟨line, hline, rfl⟩ := List.mem_map.mp hl
    exact hlines line hline
  rw [splitOn, join, String.toList_intercalate, show "\n".toList = ['\n'] from rfl,
    Chars.splitOn_singleton, List.splitOn_intercalate '\n' hends (by simpa using hne), List.map_map]
  simp [Function.comp_def]

/-! ### The last piece -/

/-- Whatever stands before a point is not in the last piece. -/
theorem lastPiece_append (a b : String) : lastPiece (a ++ "." ++ b) "." = lastPiece b "." := by
  have hsplit : splitOn (a ++ "." ++ b) "." = splitOn a "." ++ splitOn b "." := by
    have hsep : (a ++ "." ++ b).toList = a.toList ++ '.' :: b.toList := by simp
    have hpoint : ".".toList = ['.'] := rfl
    rw [splitOn, splitOn, splitOn, hpoint, Chars.splitOn_singleton, Chars.splitOn_singleton,
      Chars.splitOn_singleton, hsep, List.splitOn_append_cons_self, List.map_append]
  have hne : splitOn b "." ≠ [] := by
    rw [splitOn, show ".".toList = ['.'] from rfl, Chars.splitOn_singleton]
    simp [List.splitOn_ne_nil]
  rw [lastPiece, lastPiece, hsplit, List.getLast?_append]
  obtain ⟨x, hx⟩ := Option.isSome_iff_exists.mp (List.getLast?_isSome.mpr hne)
  rw [hx]
  rfl

/-- A text without points is its own last piece. -/
theorem lastPiece_of_not_mem (h : '.' ∉ s.toList) : lastPiece s "." = s := by
  rw [lastPiece, splitOn, show ".".toList = ['.'] from rfl, Chars.splitOn_singleton,
    List.splitOn_eq_singleton h]
  simp

/-- The last piece holds characters of the text, and no point. -/
theorem mem_lastPiece {c : Char} (h : c ∈ (lastPiece s ".").toList) : c ∈ s.toList ∧ c ≠ '.' := by
  rw [lastPiece, splitOn, show ".".toList = ['.'] from rfl, Chars.splitOn_singleton,
    List.getLast?_map] at h
  obtain ⟨piece, hpiece⟩ := Option.isSome_iff_exists.mp
    (List.getLast?_isSome.mpr (List.splitOn_ne_nil '.' s.toList))
  rw [hpiece, Option.map_some, Option.getD_some, String.toList_ofList] at h
  have hmem := List.mem_of_getLast? hpiece
  refine ⟨Chars.subset_of_mem_splitOn hmem h, ?_⟩
  rintro rfl
  exact Chars.not_mem_of_mem_splitOn hmem h

/-! ### Sorting -/

theorem atMost_eq (a b : String) : atMost a b = decide (a ≤ b) := by
  rw [atMost, ← decide_not, decide_eq_decide, not_lt]

/-- Texts are sorted in their usual order; insertion is the way to sort that evaluates. -/
theorem sort_eq_insertionSort : sort = List.insertionSort (fun a b : String => a ≤ b) := by
  funext texts
  have hatMost : atMost = fun a b => decide (a ≤ b) := funext fun a => funext (atMost_eq a)
  rw [sort, hatMost, List.mergeSort_eq_insertionSort]

end Text

end CodeScribe

import CodeScribe.Pdf.Markup
import CodeScribe.Proofs.Text.Case
import CodeScribe.Proofs.Text.Substitution

/-!
# The text of code blocks

A page holds the text of a code block in escaped form, and the escapes are taken back one kind after
the other, those of ampersands before those of quotes.  As long as ampersands are escaped, every
ampersand begins an escape and a kind of escapes can be taken back on its own.  After that, an
ampersand of the text may look like the beginning of an escaped quote.

* `Pdf.code_text_kept_iff` — which texts survive.
-/

namespace CodeScribe.Pdf

open Text Pattern

/-! ### Escapes -/

/-- The characters that are escaped, in the order in which their escapes are taken back. -/
def marks : List Char := ['<', '>', '&', '"', '\'']

theorem forall_mem_marks {P : Char → Prop} :
    (∀ c ∈ marks, P c) ↔ P '<' ∧ P '>' ∧ P '&' ∧ P '"' ∧ P '\'' := by simp [marks]

/-- A text with some characters escaped. -/
def escapeOnly (chars cs : List Char) : List Char :=
  cs.flatMap fun c => if c ∈ chars then (escapeChar c).toList else [c]

theorem escapeOnly_append (chars as bs : List Char) :
    escapeOnly chars (as ++ bs) = escapeOnly chars as ++ escapeOnly chars bs :=
  List.flatMap_append

theorem escapeOnly_cons (chars : List Char) (c : Char) (cs : List Char) :
    escapeOnly chars (c :: cs) =
      (if c ∈ chars then (escapeChar c).toList else [c]) ++ escapeOnly chars cs := rfl

/-- A text without characters that are escaped stays as it is. -/
theorem escapeOnly_eq_self {chars cs : List Char} (h : ∀ c ∈ cs, c ∉ chars) :
    escapeOnly chars cs = cs := by
  induction cs with
  | nil => rfl
  | cons c cs ih =>
    obtain ⟨hc, hcs⟩ := List.forall_mem_cons.mp h
    rw [escapeOnly_cons, if_neg hc, ih hcs, List.singleton_append]

theorem toList_escapeChar_of_not_mem {c : Char} (h : c ∉ marks) : (escapeChar c).toList = [c] := by
  rw [escapeChar]
  · exact String.toList_singleton c
  all_goals
    rintro rfl
    exact h (by decide)

theorem toList_escape (s : String) : (escape s).toList = escapeOnly marks s.toList := by
  rw [escape, String.toList_join, List.flatMap_map, escapeOnly]
  congr 1
  funext c
  split
  · rfl
  · rename_i hc
    exact toList_escapeChar_of_not_mem hc

/-- An escape begins with the only ampersand in it, and has no other character that is escaped. -/
theorem escapeChar_shape {c : Char} (h : c ∈ marks) :
    ∃ body, (escapeChar c).toList = '&' :: body ∧ ∀ d ∈ body, d ∉ marks := by
  have hshape : ∀ c ∈ marks, (escapeChar c).toList = '&' :: (escapeChar c).toList.tail ∧
      (escapeChar c).toList.tail.all (fun d => !marks.contains d) = true :=
    forall_mem_marks.mpr (by decide)
  obtain ⟨hhead, htail⟩ := hshape c h
  refine ⟨_, hhead, fun d hd hmem => ?_⟩
  have hnot := List.all_eq_true.mp htail d hd
  rw [Bool.not_eq_true', List.contains_eq_mem, decide_eq_false_iff_not] at hnot
  exact hnot hmem

theorem eq_of_escape_begins {c d : Char} (hc : c ∈ marks) (hd : d ∈ marks) {rest : List Char}
    (h : (escapeChar c).toList <+: (escapeChar d).toList ++ rest) : c = d := by
  have hmarks : ∀ c ∈ marks, ∀ d ∈ marks, (escapeChar c).toList <+: (escapeChar d).toList →
      c = d := by
    refine forall_mem_marks.mpr ⟨?_, ?_, ?_, ?_, ?_⟩
    all_goals exact forall_mem_marks.mpr (by decide)
  rcases List.prefix_or_prefix_of_prefix h (List.prefix_append _ rest) with hcd | hdc
  · exact hmarks c hc d hd hcd
  · exact (hmarks d hd c hc hdc).symm

/-- Replacing an escape passes over the others. -/
theorem replace_escape_append {c d : Char} (hc : c ∈ marks) (hd : d ∈ marks) (hne : c ≠ d)
    (new cs : List Char) :
    Chars.replace (escapeChar c).toList new ((escapeChar d).toList ++ cs) =
      (escapeChar d).toList ++ Chars.replace (escapeChar c).toList new cs := by
  have hnot : ¬ (escapeChar c).toList <+: (escapeChar d).toList ++ cs :=
    fun h => hne (eq_of_escape_begins hc hd h)
  obtain ⟨body, hbody, -⟩ := escapeChar_shape hc
  obtain ⟨body', hbody', hothers⟩ := escapeChar_shape hd
  have hamp : '&' ∉ body' := fun hmem => hothers '&' hmem (by decide)
  rw [hbody', List.cons_append] at hnot ⊢
  rw [Chars.replace_cons hnot, hbody, Chars.replace_append hamp, List.cons_append]

/-! ### Taking back one kind of escapes -/

/-- A text with the escapes of one character taken back. -/
def restore (c : Char) (cs : List Char) : List Char := Chars.replace (escapeChar c).toList [c] cs

theorem toList_unescape (s : String) :
    (unescape s).toList = marks.foldl (fun cs c => restore c cs) s.toList := by
  simp only [unescape, replaceEach, List.foldl_cons, List.foldl_nil, toList_replace, marks]
  rfl

variable {c : Char} {chars : List Char}

/-- While ampersands are escaped, the escapes of one character are taken back without any effect on
the rest of the text. -/
theorem restore_of_amp (hmarks : c :: chars ⊆ marks) (hamp : '&' ∈ c :: chars)
    (hc : c ∉ chars) (cs : List Char) :
    restore c (escapeOnly (c :: chars) cs) = escapeOnly chars cs := by
  have hmark : c ∈ marks := hmarks List.mem_cons_self
  obtain ⟨body, hbody, -⟩ := escapeChar_shape hmark
  have hne : (escapeChar c).toList ≠ [] := by simp [hbody]
  simp only [restore]
  induction cs with
  | nil => rfl
  | cons d cs ih =>
    rw [escapeOnly_cons, escapeOnly_cons]
    by_cases hdc : d = c
    · subst hdc
      rw [if_pos List.mem_cons_self, if_neg hc, Chars.replace_old_append hne, ih]
    · by_cases hd : d ∈ chars
      · have hd' : d ∈ c :: chars := List.mem_cons_of_mem c hd
        rw [if_pos hd', if_pos hd, replace_escape_append hmark (hmarks hd') (Ne.symm hdc), ih]
      · have hd' : d ∉ c :: chars := List.not_mem_cons_of_ne_of_not_mem hdc hd
        have hnot : ¬ (escapeChar c).toList <+: d :: escapeOnly (c :: chars) cs := by
          rw [hbody, List.cons_prefix_cons]
          rintro ⟨rfl, -⟩
          exact hd' hamp
        rw [if_neg hd', if_neg hd, List.singleton_append, Chars.replace_cons hnot, ih,
          List.singleton_append]

/-- What begins an escaped text without having a character that is escaped begins the text. -/
theorem prefix_of_prefix_escapeOnly {w cs : List Char} (hw : ∀ d ∈ w, d ∉ marks)
    (hchars : chars ⊆ marks) (h : w <+: escapeOnly chars cs) : w <+: cs := by
  induction w generalizing cs with
  | nil => exact List.nil_prefix
  | cons d w ih =>
    obtain ⟨hd, hw⟩ := List.forall_mem_cons.mp hw
    cases cs with
    | nil => exact absurd (List.prefix_nil.mp h) (List.cons_ne_nil d w)
    | cons e cs =>
      rw [escapeOnly_cons] at h
      split at h
      · rename_i he
        obtain ⟨body, hbody, -⟩ := escapeChar_shape (hchars he)
        rw [hbody, List.cons_append, List.cons_prefix_cons] at h
        exact absurd (h.1 ▸ show '&' ∈ marks by decide) hd
      · rw [List.singleton_append, List.cons_prefix_cons] at h
        exact List.cons_prefix_cons.mpr ⟨h.1, ih hw h.2⟩

/-- With ampersands as they are, what looks like the escape of a character is taken back as well. -/
theorem restore_of_not_amp (hmarks : c :: chars ⊆ marks) (hamp : '&' ∉ c :: chars)
    (hc : c ∉ chars) (cs : List Char) :
    restore c (escapeOnly (c :: chars) cs) = escapeOnly chars (restore c cs) := by
  have hmark : c ∈ marks := hmarks List.mem_cons_self
  obtain ⟨body, hbody, hplain⟩ := escapeChar_shape hmark
  have hne : (escapeChar c).toList ≠ [] := by simp [hbody]
  simp only [restore]
  induction cs using Chars.replace_induction (escapeChar c).toList hne with
  | nil => rfl
  | @found cs ih =>
    have hplain' : ∀ d ∈ (escapeChar c).toList, d ∉ c :: chars := by
      rw [hbody]
      exact List.forall_mem_cons.mpr ⟨hamp, fun d hd hmem => hplain d hd (hmarks hmem)⟩
    have hkept : escapeOnly chars [c] = [c] := escapeOnly_eq_self (by simpa using hc)
    rw [escapeOnly_append, escapeOnly_eq_self hplain', Chars.replace_old_append hne,
      Chars.replace_old_append hne, ih, escapeOnly_append, hkept]
  | @other d cs hnot ih =>
    rw [Chars.replace_cons hnot, escapeOnly_cons, escapeOnly_cons]
    by_cases hdc : d = c
    · subst hdc
      rw [if_pos List.mem_cons_self, if_neg hc, Chars.replace_old_append hne, ih]
    · by_cases hd : d ∈ chars
      · have hd' : d ∈ c :: chars := List.mem_cons_of_mem c hd
        rw [if_pos hd', if_pos hd, replace_escape_append hmark (hmarks hd') (Ne.symm hdc), ih]
      · have hd' : d ∉ c :: chars := List.not_mem_cons_of_ne_of_not_mem hdc hd
        have hnot' : ¬ (escapeChar c).toList <+: d :: escapeOnly (c :: chars) cs := by
          intro h
          rw [hbody, List.cons_prefix_cons] at h hnot
          exact hnot ⟨h.1, prefix_of_prefix_escapeOnly hplain hmarks h.2⟩
        rw [if_neg hd', if_neg hd, List.singleton_append, Chars.replace_cons hnot', ih,
          List.singleton_append]

/-- A text that was escaped comes back with what looked like escaped quotes turned into quotes. -/
theorem unescape_escape (s : String) :
    unescape (escape s) = replace (replace s "&quot;" "\"") "&#39;" "'" := by
  rw [← String.toList_inj, toList_unescape, toList_escape, toList_replace, toList_replace]
  simp only [marks, List.foldl_cons, List.foldl_nil]
  rw [restore_of_amp (by decide) (by decide) (by decide),
    restore_of_amp (by decide) (by decide) (by decide),
    restore_of_amp (by decide) (by decide) (by decide),
    restore_of_not_amp (by decide) (by decide) (by decide),
    restore_of_not_amp (by decide) (by decide) (by decide), escapeOnly_eq_self (by simp)]
  rfl

/-! ### Escaping one kind of characters after the other -/

/-- The characters that are escaped with their escapes, the ampersand first. -/
def escapes : List (String × String) :=
  [("&", "&amp;"), ("<", "&lt;"), (">", "&gt;"), ("\"", "&quot;"), ("'", "&#39;")]

/-- One more character is escaped; the ampersand has to be the first, since escapes have one. -/
theorem replace_escapeOnly (hmarks : c :: chars ⊆ marks) (hamp : c = '&' → chars = [])
    (hc : c ∉ chars) (cs : List Char) :
    Chars.replace [c] (escapeChar c).toList (escapeOnly chars cs) = escapeOnly (c :: chars) cs := by
  induction cs with
  | nil => rfl
  | cons d cs ih =>
    rw [escapeOnly_cons, escapeOnly_cons]
    by_cases hdc : d = c
    · subst hdc
      rw [if_neg hc, if_pos List.mem_cons_self, Chars.replace_old_append (List.cons_ne_nil d []),
        ih]
    · by_cases hd : d ∈ chars
      · obtain ⟨body, hbody, hplain⟩ := escapeChar_shape (hmarks (List.mem_cons_of_mem c hd))
        have hne : c ≠ '&' := fun hc => List.ne_nil_of_mem hd (hamp hc)
        have hkept : c ∉ (escapeChar d).toList := by
          rw [hbody]
          exact List.not_mem_cons_of_ne_of_not_mem hne
            fun hmem => hplain c hmem (hmarks List.mem_cons_self)
        rw [if_pos hd, if_pos (List.mem_cons_of_mem c hd), Chars.replace_append hkept, ih]
      · have hkept : c ∉ [d] := by simpa using Ne.symm hdc
        rw [if_neg hd, if_neg (List.not_mem_cons_of_ne_of_not_mem hdc hd),
          Chars.replace_append hkept, ih]

theorem escapeOnly_congr {chars' : List Char} (h : ∀ c, c ∈ chars ↔ c ∈ chars') (cs : List Char) :
    escapeOnly chars cs = escapeOnly chars' cs := by
  simp only [escapeOnly, h]

/-- Escaping one character after the other, the ampersand first, is escaping all of them. -/
theorem replaceEach_escapes (s : String) : replaceEach escapes s = escape s := by
  have hmarks : ∀ c, c ∈ marks ↔ c ∈ ['\'', '"', '>', '<', '&'] := by
    have hperm : marks.Perm ['\'', '"', '>', '<', '&'] := by decide
    exact fun c => hperm.mem_iff
  rw [← String.toList_inj, toList_escape, escapeOnly_congr hmarks,
    ← replace_escapeOnly (by decide) (by decide) (by decide),
    ← replace_escapeOnly (by decide) (by decide) (by decide),
    ← replace_escapeOnly (by decide) (by decide) (by decide),
    ← replace_escapeOnly (by decide) (by decide) (by decide),
    ← replace_escapeOnly (by decide) (by decide) (by decide), escapeOnly_eq_self (by simp)]
  simp only [replaceEach, escapes, List.foldl_cons, List.foldl_nil, toList_replace]
  rfl

/-! ### What is left of a text -/

theorem unescape_escape_eq_self_iff (s : String) :
    unescape (escape s) = s ↔ ¬ "&quot;".toList <:+: s.toList ∧ ¬ "&#39;".toList <:+: s.toList := by
  rw [unescape_escape, ← String.toList_inj, toList_replace, toList_replace]
  constructor
  · intro h
    -- a text only gets shorter, so neither replacement has found anything
    have hquote : ¬ "&quot;".toList <:+: s.toList := by
      intro hold
      have hlt : (Chars.replace "&quot;".toList "\"".toList s.toList).length < s.toList.length :=
        Chars.length_replace_lt (by decide) hold
      have hle : s.toList.length ≤ (Chars.replace "&quot;".toList "\"".toList s.toList).length := by
        rw [← congrArg List.length h]
        exact Chars.length_replace_le (by decide) (by decide) _
      omega
    rw [Chars.replace_eq_self hquote, Chars.replace_eq_self_iff (by decide)] at h
    exact ⟨hquote, h⟩
  · rintro ⟨hquote, hsingle⟩
    rw [Chars.replace_eq_self hquote, Chars.replace_eq_self hsingle]

/-- The text of a code block is escaped, the ampersand first, and comes back with what looks like an
escaped quote turned into a quote.  So exactly the texts without such places survive. -/
theorem code_text_kept_iff (text : String) :
    unescape (replaceEach escapes text) = replace (replace text "&quot;" "\"") "&#39;" "'" ∧
      (unescape (replaceEach escapes text) = text ↔
        Text.contains text "&quot;" = false ∧ Text.contains text "&#39;" = false) := by
  rw [replaceEach_escapes, unescape_escape_eq_self_iff, ← Chars.contains_iff_infix,
    ← Chars.contains_iff_infix, Bool.not_eq_true, Bool.not_eq_true]
  exact ⟨unescape_escape text, Iff.rfl⟩

/-- The code for a quote is taken for a quote. -/
theorem escaped_quote_not_kept : unescape (replaceEach escapes "&quot;") = "\"" := by
  decide

end CodeScribe.Pdf

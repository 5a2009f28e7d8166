import CodeScribe.Proofs.Text.FirstWay

/-!
# Sentences of four words

Patterns that read a sentence word by word, and the words that they find there.
-/

namespace CodeScribe

namespace Text

variable {n : Nat} {cs : List Char}

/-! ### Case -/

theorem lastAtMost_le {key : Nat → Nat} {fuel lo hi i : Nat}
    (h : lastAtMost key n fuel lo hi = some i) : key i ≤ n := by
  induction fuel generalizing lo hi with
  | zero => cases h
  | succ fuel ih =>
    rw [lastAtMost] at h
    split at h
    · dsimp only at h
      split at h
      · rename_i hmid
        split at h
        · rename_i j hj
          cases h
          exact ih hj
        · cases h
          exact hmid
      · exact ih h
    · cases h

/-- A shift does not lead from above ASCII to a blank. -/
theorem shiftOf_lowerShifts (hn : 0x80 ≤ n) : (0x20 : Int) < n + shiftOf lowerShifts n := by
  have hruns : ∀ run ∈ lowerShifts.toList, (0x20 : Int) < run.first + run.shift := by
    decide +kernel
  rw [shiftOf]
  split
  · rename_i i hi
    have hfirst := lastAtMost_le hi
    split
    · rename_i run hrun
      rw [hrun] at hfirst
      have hfirst : run.first ≤ n := hfirst
      have hmem := hruns run (Array.mem_toList_iff.mpr (Array.mem_of_getElem? hrun))
      split <;> omega
    · omega
  · omega

/-- Only the code of the blank stands for it. -/
theorem eq_of_ofNat_eq_space (h : Char.ofNat n = ' ') : n = 0x20 := by
  rw [Char.ofNat] at h
  by_cases hvalid : n.isValidChar
  · rw [dif_pos hvalid] at h
    exact congrArg Char.toNat h
  · rw [dif_neg hvalid] at h
    cases h

theorem eq_space_of_lowerChar {c : Char} (h : lowerChar c = ' ') : c = ' ' := by
  rw [lowerChar] at h
  split at h
  · rename_i hc
    have hcodes : ∀ n < 0x80, (Char.ofNat n).toLower = ' ' → Char.ofNat n = ' ' := by decide
    rw [← Char.ofNat_toNat c] at h ⊢
    exact hcodes _ hc h
  · rename_i hc
    have hshift := shiftOf_lowerShifts (Nat.le_of_not_lt hc)
    have hcode := eq_of_ofNat_eq_space h
    omega

/-- Only a blank is like a blank when case is ignored. -/
theorem sameLetter_space {c : Char} (h : sameLetter ' ' c = true) : c = ' ' := by
  have hmates : ∀ mates ∈ caseMates, mates.contains (lowerChar ' ').toNat = false := by decide
  simp only [sameLetter, Bool.or_eq_true, beq_iff_eq, List.any_eq_true, Bool.and_eq_true] at h
  rcases h with h | ⟨mates, hmem, hspace, -⟩
  · exact eq_space_of_lowerChar h.symm
  · rw [hmates mates hmem] at hspace
    cases hspace

/-! ### Words -/

/-- Characters without white space among them. -/
def Unbroken (cs : List Char) : Prop := ∀ c ∈ cs, isBlank c = false

instance (cs : List Char) : Decidable (Unbroken cs) :=
  List.decidableBAll (fun c => isBlank c = false) cs

theorem Unbroken.countP (h : Unbroken cs) : cs.countP isBlank = 0 := by
  rw [List.countP_eq_zero]
  intro c hc
  simp [h c hc]

theorem unbroken_of_countP (h : cs.countP isBlank = 0) : Unbroken cs := by
  intro c hc
  simpa using List.countP_eq_zero.mp h c hc

theorem Unbroken.append {as bs : List Char} (ha : Unbroken as) (hb : Unbroken bs) :
    Unbroken (as ++ bs) := by
  intro c hc
  rcases List.mem_append.mp hc with hc | hc
  · exact ha c hc
  · exact hb c hc

/-- The first white space of a text is at one place. -/
theorem Unbroken.cut {as bs r r' : List Char} {b b' : Char} (ha : Unbroken as) (hb : Unbroken bs)
    (hblank : isBlank b = true) (hblank' : isBlank b' = true)
    (h : as ++ b :: r = bs ++ b' :: r') : as = bs ∧ r = r' :=
  Chars.cut ha hb hblank hblank' h

/-- Some white space. -/
def Gap (cs : List Char) : Prop := cs ≠ [] ∧ ∀ c ∈ cs, isBlank c = true

theorem Gap.countP (h : Gap cs) : cs.countP isBlank = cs.length :=
  List.countP_eq_length.mpr h.2

/-- Four words found in a sentence of four words: the inner ones are its own. -/
theorem four_words_align {u v p₁ p₂ p₃ p₄ b₁ b₂ b₃ w₁ w₂ w₃ w₄ : List Char}
    (hp₁ : Unbroken p₁) (hp₂ : Unbroken p₂) (hp₃ : Unbroken p₃) (hb₁ : Gap b₁) (hb₂ : Gap b₂)
    (hb₃ : Gap b₃) (hw₁ : Unbroken w₁) (hw₂ : Unbroken w₂) (hw₃ : Unbroken w₃) (hw₄ : Unbroken w₄)
    (h : u ++ (p₁ ++ (b₁ ++ (p₂ ++ (b₂ ++ (p₃ ++ (b₃ ++ (p₄ ++ v))))))) =
      w₁ ++ ' ' :: (w₂ ++ ' ' :: (w₃ ++ ' ' :: w₄))) :
    p₂ = w₂ ∧ p₃ = w₃ ∧ p₄ <+: w₄ := by
  -- the sentence has three blanks, so each gap is one of them and the rest of the text has none
  have hspace : isBlank ' ' = true := by decide
  have hcount := congrArg (List.countP isBlank) h
  simp only [List.countP_append, List.countP_cons, hp₁.countP, hp₂.countP, hp₃.countP,
    hb₁.countP, hb₂.countP, hb₃.countP, hw₁.countP, hw₂.countP, hw₃.countP, hw₄.countP, hspace,
    if_true] at hcount
  have hlen₁ := List.length_pos_iff.mpr hb₁.1
  have hlen₂ := List.length_pos_iff.mpr hb₂.1
  have hlen₃ := List.length_pos_iff.mpr hb₃.1
  obtain ⟨c₁, rfl⟩ := List.length_eq_one_iff.mp (show b₁.length = 1 by omega)
  obtain ⟨c₂, rfl⟩ := List.length_eq_one_iff.mp (show b₂.length = 1 by omega)
  obtain ⟨c₃, rfl⟩ := List.length_eq_one_iff.mp (show b₃.length = 1 by omega)
  have hu : Unbroken u := unbroken_of_countP (by omega)
  have hc₁ := hb₁.2 c₁ List.mem_cons_self
  have hc₂ := hb₂.2 c₂ List.mem_cons_self
  have hc₃ := hb₃.2 c₃ List.mem_cons_self
  rw [← List.append_assoc] at h
  obtain ⟨-, h₁⟩ := (hu.append hp₁).cut hw₁ hc₁ hspace h
  obtain ⟨h₂, h₂'⟩ := hp₂.cut hw₂ hc₂ hspace h₁
  obtain ⟨h₃, h₃'⟩ := hp₃.cut hw₃ hc₃ hspace h₂'
  exact ⟨h₂, h₃, v, h₃'⟩

end Text

namespace Pattern

open Text

variable {s t : Cursor} {w : String}

/-! ### Given texts -/

/-- Characters one by one, each read by the test at its position. -/
theorem Fits.all {test : Char → Char → Bool} {w : List Char}
    (h : (all (w.map fun c => one (test c))).Fits s t) :
    ∃ cs, List.Forall₂ (fun c d => test c d = true) w cs ∧ s.rest = cs ++ t.rest := by
  induction w generalizing s with
  | nil =>
    have hst : t = s := h
    exact ⟨[], .nil, by rw [hst]; rfl⟩
  | cons c w ih =>
    cases w with
    | nil =>
      obtain ⟨d, hd, hreads, -⟩ := h
      exact ⟨[d], .cons hd .nil, hreads.rest⟩
    | cons c' w =>
      obtain ⟨m, ⟨d, hd, hreads, -⟩, hrest⟩ := h
      obtain ⟨cs, hcs, hm⟩ := ih hrest
      exact ⟨d :: cs, .cons hd hcs, by rw [hreads.rest, hm]; rfl⟩

/-- The characters that ignoring case takes for a text. -/
theorem Fits.litAnyCase (h : (litAnyCase w).Fits s t) :
    ∃ cs, List.Forall₂ (fun c d => sameLetter c d = true) w.toList cs ∧ s.rest = cs ++ t.rest :=
  Fits.all h

theorem Fits.lit (h : (lit w).Fits s t) : s.rest = w.toList ++ t.rest := by
  obtain ⟨cs, hcs, hrest⟩ : ∃ cs, List.Forall₂ (fun c d => (d == c) = true) w.toList cs ∧
      s.rest = cs ++ t.rest := Fits.all h
  have hsame : List.Forall₂ (· = ·) w.toList cs := hcs.imp fun c d hd => (beq_iff_eq.mp hd).symm
  rw [List.forall₂_eq_eq_eq] at hsame
  rw [hrest, hsame]

theorem Fits.blanks1 (h : blanks1.Fits s t) : ∃ cs, Gap cs ∧ s.rest = cs ++ t.rest := by
  obtain ⟨cs, hne, hcs, hreads⟩ := Fits.span1 h
  exact ⟨cs, ⟨hne, hcs⟩, hreads.rest⟩

theorem Fits.group_span1 {i : Nat} {accept : Char → Bool}
    (h : (group i (Pattern.span1 accept)).Fits s t) :
    ∃ cs, cs ≠ [] ∧ (∀ c ∈ cs, accept c = true) ∧ s.rest = cs ++ t.rest := by
  obtain ⟨m, hm, rfl⟩ := h
  obtain ⟨cs, hne, hcs, hreads⟩ := hm.span1
  exact ⟨cs, hne, hcs, hreads.rest⟩

/-! ### Given words -/

/-- Characters whose lower case is no white space. -/
def NeverBlank (w : List Char) : Prop := Unbroken (w.map lowerChar)

instance (w : List Char) : Decidable (NeverBlank w) :=
  inferInstanceAs (Decidable (Unbroken (w.map lowerChar)))

/-- White space has no other case. -/
theorem lowerChar_of_sameLetter {c d : Char} (h : sameLetter c d = true) (hd : isBlank d = true) :
    lowerChar c = d := by
  have hlower : ∀ n ∈ blankCodes, lowerChar (Char.ofNat n) = Char.ofNat n := by decide +kernel
  have hmates : ∀ mates ∈ caseMates, ∀ n ∈ blankCodes,
      mates.contains (Char.ofNat n).toNat = false := by decide
  have hself := hlower _ (mem_blankCodes hd)
  rw [Char.ofNat_toNat] at hself
  simp only [sameLetter, hself, Bool.or_eq_true, beq_iff_eq, List.any_eq_true,
    Bool.and_eq_true] at h
  obtain h | ⟨mates, hmem, -, hmate⟩ := h
  · exact h
  · have hnone := hmates mates hmem _ (mem_blankCodes hd)
    rw [Char.ofNat_toNat, hmate] at hnone
    cases hnone

theorem NeverBlank.unbroken {w cs : List Char} (hw : NeverBlank w)
    (h : List.Forall₂ (fun c d => sameLetter c d = true) w cs) : Unbroken cs := by
  induction h with
  | nil => intro d hd; cases hd
  | @cons c d w cs hcd hrest ih =>
    obtain ⟨hc, hw⟩ := List.forall_mem_cons.mp hw
    refine List.forall_mem_cons.mpr ⟨?_, ih hw⟩
    cases hd : isBlank d with
    | false => rfl
    | true =>
      rw [lowerChar_of_sameLetter hcd hd, hd] at hc
      cases hc

theorem Fits.litAnyCase_word (h : (Pattern.litAnyCase w).Fits s t) (hw : NeverBlank w.toList) :
    ∃ cs, Unbroken cs ∧ cs.length = w.length ∧ s.rest = cs ++ t.rest := by
  obtain ⟨cs, hcs, hrest⟩ := h.litAnyCase
  exact ⟨cs, hw.unbroken hcs, hcs.length_eq.symm, hrest⟩

theorem Fits.litAnyCase_words {a b : List Char} (h : (Pattern.litAnyCase w).Fits s t)
    (hw : w.toList = a ++ ' ' :: b) (ha : NeverBlank a) :
    ∃ cs ds, Unbroken cs ∧ cs.length = a.length ∧ ds.length = b.length ∧
      s.rest = cs ++ ([' '] ++ (ds ++ t.rest)) := by
  obtain ⟨cs, hcs, hrest⟩ := h.litAnyCase
  rw [hw] at hcs
  obtain ⟨d, ds, hspace, hds, hdrop⟩ := List.forall₂_cons_left_iff.mp
    (List.forall₂_drop_append cs a _ hcs.flip).flip
  have htake := (List.forall₂_take_append cs a _ hcs.flip).flip
  obtain rfl := sameLetter_space hspace
  refine ⟨cs.take a.length, ds, ha.unbroken htake, htake.length_eq.symm, hds.length_eq.symm, ?_⟩
  rw [hrest]
  conv_lhs => rw [← List.take_append_drop a.length cs, hdrop]
  simp

/-! ### Patterns of four words -/

def ReadsWords (p : Pattern) (third fourth : Nat) : Prop :=
  ∀ s t, p.Fits s t → ∃ p₁ b₁ p₂ b₂ p₃ b₃ p₄,
    s.rest = p₁ ++ (b₁ ++ (p₂ ++ (b₂ ++ (p₃ ++ (b₃ ++ (p₄ ++ t.rest)))))) ∧
    Unbroken p₁ ∧ Unbroken p₂ ∧ Unbroken p₃ ∧ Gap b₁ ∧ Gap b₂ ∧ Gap b₃ ∧
    p₃.length = third ∧ fourth ≤ p₄.length

/-- A pattern of four words does not occur in a sentence with other words at the end. -/
theorem ReadsWords.find?_eq_none {p : Pattern} {third fourth : Nat}
    (hp : p.ReadsWords third fourth) {w₁ w₂ w₃ w₄ : List Char} (hw₁ : Unbroken w₁)
    (hw₂ : Unbroken w₂) (hw₃ : Unbroken w₃) (hw₄ : Unbroken w₄)
    (hne : w₃.length ≠ third ∨ w₄.length < fourth) :
    p.find? (w₁ ++ ' ' :: (w₂ ++ ' ' :: (w₃ ++ ' ' :: w₄))) = none := by
  cases hfind : p.find? (w₁ ++ ' ' :: (w₂ ++ ' ' :: (w₃ ++ ' ' :: w₄))) with
  | none => rfl
  | some m =>
    exfalso
    obtain ⟨s, t, hfits, -, ⟨u, hu⟩, -⟩ := foundIn_of_find? hfind
    obtain ⟨p₁, b₁, p₂, b₂, p₃, b₃, p₄, hrest, hp₁, hp₂, hp₃, hb₁, hb₂, hb₃, hthird, hfourth⟩ :=
      hp s t hfits
    rw [hrest] at hu
    obtain ⟨-, rfl, hprefix⟩ :=
      four_words_align hp₁ hp₂ hp₃ hb₁ hb₂ hb₃ hw₁ hw₂ hw₃ hw₄ hu
    have hlength := hprefix.length_le
    omega

end Pattern

end CodeScribe

import CodeScribe.Proofs.Text.Words

/-!
# Words in any case

Texts are searched for a word in two ways: by a pattern that ignores case, and by the lower case of
the whole text.  The lower case of a character may depend on its neighbours, or be two characters
long; for words of other letters both ways look at the lower cases of single characters.

* `Chars.contains_iff_infix`, `Chars.infix_append_cons_iff` — a text holds another exactly if it is
  a stretch of it, and a stretch does not reach over a character that it lacks.
-/

namespace CodeScribe

/-! ### Stretches of texts -/

theorem Chars.contains_iff_infix {cs needle : List Char} :
    contains cs needle = true ↔ needle <:+: cs := by
  rw [contains]
  induction cs with
  | nil => cases needle <;> simp [find?]
  | cons c rest ih =>
    rw [find?, List.infix_cons_iff, ← ih]
    by_cases hhead : needle.isPrefixOf (c :: rest) = true
    · simp [hhead, List.isPrefixOf_iff_prefix.mp hhead]
    · have hnot : ¬ needle <+: c :: rest := fun h => hhead (List.isPrefixOf_iff_prefix.mpr h)
      simp [hhead, hnot]

/-- A stretch without a character does not reach over that character. -/
theorem Chars.infix_append_cons_iff {w a b : List Char} {d : Char} (hw : d ∉ w) :
    w <:+: a ++ d :: b ↔ w <:+: a ∨ w <:+: b := by
  constructor
  · rintro ⟨s, t, h⟩
    rw [List.append_assoc] at h
    rcases List.append_eq_append_iff.mp h with ⟨a', rfl, h'⟩ | ⟨s', rfl, h'⟩
    · rcases List.append_eq_append_iff.mp h' with ⟨r, rfl, -⟩ | ⟨r, rfl, hr⟩
      · exact .inl ⟨s, r, by simp⟩
      · cases r with
        | nil => exact .inl ⟨s, [], by simp⟩
        | cons c r =>
          obtain ⟨rfl, -⟩ := List.cons.inj hr
          simp at hw
    · cases s' with
      | nil =>
        cases w with
        | nil => exact .inr List.nil_infix
        | cons c w =>
          obtain ⟨rfl, -⟩ := List.cons.inj h'
          simp at hw
      | cons c s' =>
        obtain ⟨-, rfl⟩ := List.cons.inj h'
        exact .inr ⟨s', t, by simp⟩
  · rintro (h | h)
    · exact h.trans (List.prefix_append _ _).isInfix
    · exact h.trans ((List.suffix_cons _ _).trans (List.suffix_append _ _)).isInfix

namespace Text

variable {w : List Char}

/-! ### Lower case -/

/-- The lower case of a character by itself; the dotted capital I stands for its dot. -/
def lowerAlone (c : Char) : Char := if c.toNat == 0x130 then Char.ofNat 0x307 else lowerChar c

/-- A word in which no special lower case has a part: it has no sigma and no dot, and the letter i
only in front of another. -/
structure Dotless (w : List Char) : Prop where
  letters : ∀ c ∈ w, c ∉ [Char.ofNat 0x3C2, Char.ofNat 0x3C3, Char.ofNat 0x307]
  last : w.getLast? ≠ some 'i'

instance (w : List Char) : Decidable (Dotless w) :=
  have : Decidable (∀ c ∈ w, c ∉ [Char.ofNat 0x3C2, Char.ofNat 0x3C3, Char.ofNat 0x307]) :=
    List.decidableBAll _ w
  decidable_of_iff ((∀ c ∈ w, c ∉ [Char.ofNat 0x3C2, Char.ofNat 0x3C3, Char.ofNat 0x307]) ∧
    w.getLast? ≠ some 'i') ⟨fun h => ⟨h.1, h.2⟩, fun h => ⟨h.1, h.2⟩⟩

theorem Dotless.tail {x : Char} (h : Dotless (x :: w)) : Dotless w := by
  refine ⟨fun c hc => h.letters c (List.mem_cons_of_mem _ hc), ?_⟩
  cases w with
  | nil => simp
  | cons y w => simpa using h.last

/-- The three ways in which a character gets its lower case. -/
theorem lowerFrom_cases (read : List Char) (c : Char) (rest : List Char) :
    lowerFrom read (c :: rest) = lowerAlone c :: lowerFrom (c :: read) rest ∨
      (lowerFrom read (c :: rest) = 'i' :: lowerAlone c :: lowerFrom (c :: read) rest ∧
        lowerAlone c = Char.ofNat 0x307) ∨
      ∃ d ∈ [Char.ofNat 0x3C2, Char.ofNat 0x3C3],
        lowerFrom read (c :: rest) = d :: lowerFrom (c :: read) rest ∧
          lowerAlone c = Char.ofNat 0x3C3 := by
  have hcode {n : Nat} (hn : (c.toNat == n) = true) : c = Char.ofNat n := by
    rw [← beq_iff_eq.mp hn, Char.ofNat_toNat]
  rw [lowerFrom]
  by_cases hsigma : (c.toNat == 0x3A3) = true
  · have halone : lowerAlone c = Char.ofNat 0x3C3 := by
      rw [hcode hsigma]
      decide +kernel
    rw [if_pos hsigma]
    refine .inr (.inr ?_)
    split
    · exact ⟨Char.ofNat 0x3C2, by simp, rfl, halone⟩
    · exact ⟨Char.ofNat 0x3C3, by simp, rfl, halone⟩
  · rw [if_neg hsigma, lowerAlone]
    by_cases hdotted : (c.toNat == 0x130) = true
    · rw [if_pos hdotted, if_pos hdotted]
      exact .inr (.inl ⟨rfl, rfl⟩)
    · rw [if_neg hdotted, if_neg hdotted]
      exact .inl rfl

theorem Dotless.not_prefix {tail : List Char} {d : Char} (hw : Dotless w) (hne : w ≠ [])
    (hd : d ∈ [Char.ofNat 0x3C2, Char.ofNat 0x3C3, Char.ofNat 0x307]) : ¬ w <+: d :: tail := by
  obtain ⟨x, w, rfl⟩ := List.exists_cons_of_ne_nil hne
  intro h
  obtain ⟨rfl, -⟩ := List.cons_prefix_cons.mp h
  exact hw.letters x List.mem_cons_self hd

/-- The letter i in front of a dot begins no such word. -/
theorem Dotless.not_prefix_dotted {tail : List Char} (hw : Dotless w) (hne : w ≠ []) :
    ¬ w <+: 'i' :: Char.ofNat 0x307 :: tail := by
  obtain ⟨x, w, rfl⟩ := List.exists_cons_of_ne_nil hne
  intro h
  obtain ⟨rfl, hrest⟩ := List.cons_prefix_cons.mp h
  by_cases hw' : w = []
  · exact hw.last (by rw [hw']; rfl)
  · exact hw.tail.not_prefix hw' (by simp) hrest

theorem Dotless.prefix_lowerFrom (hw : Dotless w) (read cs : List Char) :
    w <+: lowerFrom read cs ↔ w <+: cs.map lowerAlone := by
  induction cs generalizing w read with
  | nil => rfl
  | cons c rest ih =>
    by_cases hne : w = []
    · simp [hne]
    rw [List.map_cons]
    obtain hlow | ⟨hlow, hdot⟩ | ⟨d, hd, hlow, hsigma⟩ := lowerFrom_cases read c rest
    · obtain ⟨x, w, rfl⟩ := List.exists_cons_of_ne_nil hne
      rw [hlow, List.cons_prefix_cons, List.cons_prefix_cons, ih hw.tail]
    · rw [hlow, hdot]
      exact iff_of_false (hw.not_prefix_dotted hne) (hw.not_prefix hne (by simp))
    · rw [hlow, hsigma]
      exact iff_of_false (hw.not_prefix hne (List.mem_append_left [_] hd))
        (hw.not_prefix hne (by simp))

/-- Such a word stands in the lower case of a text exactly if neighbouring characters spell it. -/
theorem Dotless.infix_lowerChars (hw : Dotless w) (cs : List Char) :
    w <:+: lowerChars cs ↔ w <:+: cs.map lowerAlone := by
  by_cases hne : w = []
  · simp [hne]
  have hfrom (read : List Char) : w <:+: lowerFrom read cs ↔ w <:+: cs.map lowerAlone := by
    induction cs generalizing read with
    | nil => rfl
    | cons c rest ih =>
      have hstart := hw.prefix_lowerFrom read (c :: rest)
      rw [List.map_cons] at hstart ⊢
      rw [List.infix_cons_iff, ← hstart, ← ih (c :: read)]
      obtain hlow | ⟨hlow, hdot⟩ | ⟨d, hd, hlow, -⟩ := lowerFrom_cases read c rest
      · rw [hlow, List.infix_cons_iff]
      · have hnot : ¬ w <+: lowerAlone c :: lowerFrom (c :: read) rest :=
          hdot ▸ hw.not_prefix hne (by simp)
        rw [hlow, List.infix_cons_iff, List.infix_cons_iff]
        simp [hnot]
      · rw [hlow, List.infix_cons_iff]
  exact hfrom []

/-- Reading some characters in another way brings in no word without the new readings. -/
theorem infix_map_of_infix_map {f g : Char → Char} {cs : List Char} (h : ∀ c, f c = g c ∨ f c ∉ w)
    (hw : w <:+: cs.map f) : w <:+: cs.map g := by
  obtain ⟨u, hu, rfl⟩ := List.infix_map_iff.mp hw
  have hsame : u.map f = u.map g :=
    List.map_congr_left fun c hc => (h c).resolve_right fun hnot => hnot (List.mem_map_of_mem hc)
  rw [hsame]
  exact hu.map g

/-- The letters that the characters with special lower case come to. -/
def contextual : List Char :=
  [Char.ofNat 0x3C2, Char.ofNat 0x3C3, Char.ofNat 0x69, Char.ofNat 0x307]

/-- A word none of whose letters comes from a character with special lower case. -/
def Steady (w : List Char) : Prop := ∀ c ∈ w, c ∉ contextual

instance (w : List Char) : Decidable (Steady w) := List.decidableBAll (· ∉ contextual) w

theorem Steady.dotless (hw : Steady w) : Dotless w := by
  refine ⟨fun c hc hmem => hw c hc ?_, fun hlast => ?_⟩
  · simp only [List.mem_cons, List.not_mem_nil, or_false] at hmem
    rcases hmem with rfl | rfl | rfl <;> simp [contextual]
  · exact hw 'i' (List.mem_of_getLast? hlast) (by decide)

/-- A steady word stands in the lower case of a text exactly if neighbouring characters spell it. -/
theorem infix_lowerChars (hw : Steady w) (cs : List Char) :
    w <:+: lowerChars cs ↔ w <:+: cs.map lowerChar := by
  -- The dotted capital I is read in two ways, and the word has neither of the two letters.
  have hspecial : lowerChar (Char.ofNat 0x130) ∈ contextual := by decide +kernel
  have hread (c : Char) :
      lowerAlone c = lowerChar c ∨ lowerAlone c ∈ contextual ∧ lowerChar c ∈ contextual := by
    rw [lowerAlone]
    split
    · rename_i hdotted
      have hc : c = Char.ofNat 0x130 := by rw [← beq_iff_eq.mp hdotted, Char.ofNat_toNat]
      exact .inr ⟨by decide, hc ▸ hspecial⟩
    · exact .inl rfl
  rw [hw.dotless.infix_lowerChars]
  constructor
  · exact infix_map_of_infix_map fun c => (hread c).imp_right fun h hmem => hw _ hmem h.1
  · exact infix_map_of_infix_map fun c =>
      (hread c).imp Eq.symm fun h hmem => hw _ hmem h.2

/-! ### Letters that are alike -/

/-- A word whose letters are alike only if their lower cases are the same. -/
def Single (w : List Char) : Prop :=
  ∀ c ∈ w, ∀ mates ∈ caseMates, mates.contains (lowerChar c).toNat = false

instance (w : List Char) : Decidable (Single w) :=
  List.decidableBAll (fun c => ∀ mates ∈ caseMates, mates.contains (lowerChar c).toNat = false) w

theorem Single.lowerChar_eq (hw : Single w) {c d : Char} (hc : c ∈ w) (h : sameLetter c d = true) :
    lowerChar d = lowerChar c := by
  simp only [sameLetter, Bool.or_eq_true, beq_iff_eq, List.any_eq_true, Bool.and_eq_true] at h
  obtain h | ⟨mates, hmem, hmate, -⟩ := h
  · exact h.symm
  · rw [hw c hc mates hmem] at hmate
    cases hmate

theorem Single.map_lowerChar {cs : List Char} (hw : Single w)
    (h : List.Forall₂ (fun c d => sameLetter c d = true) w cs) :
    cs.map lowerChar = w.map lowerChar := by
  induction h with
  | nil => rfl
  | @cons c d w cs hcd _ ih =>
    have hrest : Single w := fun e he => hw e (List.mem_cons_of_mem _ he)
    rw [List.map_cons, List.map_cons, hw.lowerChar_eq List.mem_cons_self hcd, ih hrest]

end Text

namespace Pattern

open Text

/-- A pattern reads on from where it starts. -/
theorem Fits.suffix {p : Pattern} {s t : Cursor} (h : p.Fits s t) : t.rest <:+ s.rest := by
  induction p generalizing s t with
  | nothing => rw [show t = s from h]
  | one accept =>
    obtain ⟨c, -, hreads, -⟩ := h
    exact ⟨[c], hreads.rest.symm⟩
  | span accept =>
    obtain ⟨cs, -, hreads, -⟩ := h
    exact ⟨cs, hreads.rest.symm⟩
  | spanLazy accept =>
    obtain ⟨cs, -, hreads, -⟩ := h
    exact ⟨cs, hreads.rest.symm⟩
  | seq a b iha ihb =>
    obtain ⟨m, hm, ht⟩ := h
    exact (ihb ht).trans (iha hm)
  | alt a b iha ihb => exact h.elim iha ihb
  | star p ih =>
    have hturns : ∀ u, Relation.ReflTransGen (fun x y => p.Fits x y) s u → u.rest <:+ s.rest := by
      intro u hu
      induction hu with
      | refl => exact List.suffix_rfl
      | tail _ hlast ihturns => exact (ih hlast).trans ihturns
    exact hturns t h
  | group i p ih =>
    obtain ⟨m, hm, rfl⟩ := h
    show m.rest <:+ s.rest
    exact ih hm
  | test holds => rw [h.2]
  | ahead p ih =>
    obtain ⟨m, -, rfl⟩ := h
    exact List.suffix_rfl

/-- A pattern that ends with a given text has found what spells the end of that text. -/
theorem infix_of_occursIn {p : Pattern} {v : String} {a b cs : List Char}
    (h : (p ++ litAnyCase v).occursIn cs = true) (hv : v.toList = a ++ b) (hb : Single b) :
    b.map lowerChar <:+: cs.map lowerChar := by
  obtain ⟨m, hm⟩ := Option.isSome_iff_exists.mp h
  obtain ⟨s, t, ⟨u, hp, hlast⟩, -, hrest, -⟩ := foundIn_of_find? hm
  obtain ⟨ds, hds, hu⟩ := hlast.litAnyCase
  rw [hv] at hds
  have hlower := hb.map_lowerChar (List.forall₂_drop_append ds a b hds.flip).flip
  have hwithin : ds.drop a.length <:+: cs := by
    have hdrop : ds.drop a.length <:+: u.rest := by
      rw [hu]
      exact (List.drop_suffix _ _).isInfix.trans (List.prefix_append _ _).isInfix
    exact hdrop.trans ((hp.suffix.trans hrest).isInfix)
  rw [← hlower]
  exact hwithin.map lowerChar

end Pattern

end CodeScribe

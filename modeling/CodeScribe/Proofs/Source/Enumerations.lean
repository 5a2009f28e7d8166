import CodeScribe.Proofs.Source.Blocks
import CodeScribe.Proofs.Text.Search

/-!
# Where an enumeration is found

The head of an enumeration is a word, white space, a name and a brace.  In a source with one opening
brace, it can only be found in front of that brace, and there it is found if what stands in front of
the brace is a name.
-/

namespace CodeScribe

open Text

namespace Declaration

open Pattern

theorem noneOf_iff {s : String} {c : Char} : noneOf s c = true ↔ c ∉ s.toList := by
  rw [noneOf, Bool.not_eq_true', Bool.eq_false_iff, Ne, List.contains_iff_mem]

/-! ### The head of an enumeration -/

def enumHead (modifiers : List String) : Pattern :=
  modifier modifiers ++ lit "enum" ++ blanks1 ++ group 1 name ++ blanks ++ char '{'

variable {modifiers : List String} {s t : Cursor}

/-- A word between white space at the end of a text is its last word. -/
theorem last_word_eq {a b y z blanks : List Char} {c c' d : Char} (hy : Unbroken y) (hyne : y ≠ [])
    (hz : Unbroken z) (hzne : z ≠ []) (hc : isBlank c = true) (hc' : isBlank c' = true)
    (hd : isBlank d = true) (hblanks : ∀ x ∈ blanks, isBlank x = true)
    (h : a ++ c :: (y ++ blanks) = b ++ c' :: (z ++ [d])) : y = z := by
  have hyrev : Unbroken y.reverse := fun x hx => hy x (List.mem_reverse.mp hx)
  have hzrev : Unbroken z.reverse := fun x hx => hz x (List.mem_reverse.mp hx)
  have hrev : blanks.reverse ++ (y.reverse ++ c :: a.reverse) =
      d :: (z.reverse ++ c' :: b.reverse) := by
    simpa using congrArg List.reverse h
  cases hcases : blanks.reverse with
  | nil =>
    have hhead := hyrev.head?_append (by simpa using hyne) (c :: a.reverse)
    rw [hcases, List.nil_append] at hrev
    rw [hrev] at hhead
    exact absurd (show isBlank d = false from hhead) (by simp [hd])
  | cons e bs =>
    have hbs : ∀ x ∈ bs, isBlank x = true := fun x hx =>
      hblanks x (List.mem_reverse.mp (hcases ▸ List.mem_cons_of_mem e hx))
    rw [hcases, List.cons_append] at hrev
    obtain ⟨-, hrest⟩ := List.cons.inj hrev
    obtain rfl := eq_nil_of_blanks hbs (hzrev.head?_append (by simpa using hzne) _) hrest.symm
    exact List.reverse_injective (hyrev.cut hzrev hc hc' hrest).1

/-- What stands in front of the brace of an enumeration. -/
theorem fits_enumHead (h : (enumHead modifiers).Fits s t) : ∃ a c y b, isBlank c = true ∧ y ≠ [] ∧
    (∀ d ∈ y, isWord d = true) ∧ (∀ x ∈ b, isBlank x = true) ∧
      s.rest = a ++ c :: (y ++ b) ++ '{' :: t.rest := by
  obtain ⟨u₁, ⟨u₂, ⟨u₃, ⟨u₄, hfirst, hgap⟩, hname⟩, b, hb, hblanks, -⟩, c, hc, hbrace, -⟩ := h
  obtain ⟨a, ha, -⟩ := hfirst.reads
  obtain ⟨g, hg, hgrest⟩ := hgap.blanks1
  obtain ⟨y, hyne, hy, hyrest⟩ := hname.group_span1
  obtain rfl : c = '{' := beq_iff_eq.mp hc
  obtain ⟨g, d, rfl⟩ := (List.eq_nil_or_concat g).resolve_left hg.1
  refine ⟨a ++ g, d, y, b, hg.2 d (by simp), hyne, hy, hb, ?_⟩
  rw [ha, hgrest, hyrest, hblanks.rest, hbrace.rest]
  simp

theorem not_foundIn_of_no_brace {cs : List Char} (h : '{' ∉ cs) (m : Match) :
    ¬ m.FoundIn (enumHead modifiers) cs := by
  rintro ⟨s, t, hfits, -, hsuffix, -⟩
  obtain ⟨a, c, y, b, -, -, -, -, hrest⟩ := fits_enumHead hfits
  exact h (hsuffix.subset (by simp [hrest]))

/-- What is written in front of the brace of an enumeration. -/
def enumOpening (name : String) : List Char := "enum".toList ++ ' ' :: (name.toList ++ [' '])

variable {name : String} {body : List Char}

theorem isWord_of_foundIn (hne : name.toList ≠ []) (hname : Unbroken name.toList)
    (hbrace : '{' ∉ name.toList) (hbody : '{' ∉ body) {m : Match}
    (hm : m.FoundIn (enumHead modifiers) (enumOpening name ++ '{' :: body)) :
    ∀ c ∈ name.toList, isWord c = true := by
  obtain ⟨s, t, hfits, -, ⟨r, hsuffix⟩, -⟩ := hm
  obtain ⟨a, c, y, b, hc, hyne, hy, hb, hrest⟩ := fits_enumHead hfits
  have hopening : '{' ∉ enumOpening name := by simp [enumOpening, hbrace]
  rw [hrest, ← List.append_assoc, ← List.append_assoc] at hsuffix
  obtain ⟨hsame, -⟩ := Chars.cut_once hopening hbody hsuffix
  have hword : y = name.toList := last_word_eq (unbroken_of_isWord hy) hyne hname hne hc (by decide)
    (by decide) hb hsame
  rwa [← hword]

/-- The head of an enumeration is read as it stands, if no modifier begins like it. -/
theorem consumes_enumHead (hmodifiers : ∀ w ∈ modifiers, w.toList.head?.any (· != 'e') = true)
    (hname : MadeOf isWord name) (body : List Char) :
    (enumHead modifiers).Consumes (enumOpening name ++ ['{']) body [(1, name.toList)] := by
  obtain ⟨hne, hword⟩ := hname
  have hmodifier (cs : List Char) :
      (opt (words modifiers)).Consumes [] ("enum".toList ++ cs) [] := by
    refine consumes_opt_nil fun s t hs hfits => ?_
    obtain ⟨p, hp, hfits⟩ := Fits.anyOf hfits
    obtain ⟨w, hw, rfl⟩ := List.mem_map.mp hp
    have hrest : some 'e' = (w.toList ++ t.rest).head? :=
      congrArg List.head? (hs.symm.trans hfits.lit)
    obtain ⟨c, hc, hother⟩ := (Option.any_eq_true _ _).mp (hmodifiers w hw)
    rw [List.head?_append, hc] at hrest
    cases hrest
    exact absurd hother (by decide)
  have hfront (cs : List Char) : blanks.Consumes [] ("enum".toList ++ cs) [] :=
    consumes_span (by simp) rfl
  have hgap (cs : List Char) : blanks1.Consumes [' '] (name.toList ++ cs) [] :=
    consumes_span1 (by simp) (List.all_eq_true.mp rfl)
      ((unbroken_of_isWord hword).head?_append hne cs)
  have hgroup : (group 1 Pattern.name).Consumes name.toList ([' '] ++ (['{'] ++ body)) _ :=
    (consumes_span1 hne hword rfl).group 1
  have hblanks : blanks.Consumes [' '] (['{'] ++ body) [] :=
    consumes_span (List.all_eq_true.mp rfl) rfl
  have hbrace : (char '{').Consumes ['{'] body [] := consumes_one rfl body
  have henum (cs : List Char) := ((hmodifier _).pass (hfront _)).seq (consumes_lit "enum" cs)
  exact (((((henum _).seq (hgap _)).seq hgroup).seq hblanks).seq hbrace).of_eq
    (by simp [enumOpening])

/-! ### Items between commas -/

section Items

variable {α : Type} {text : α → List Char} {items : List α}

/-- What holds of commas and of the characters of items holds of all that stands between braces. -/
theorem forall_mem_items {P : Char → Prop} (hcomma : P ',')
    (h : ∀ a ∈ items, ∀ d ∈ text a, P d) : ∀ d ∈ [','].intercalate (items.map text), P d := by
  induction items with
  | nil => simp
  | cons a items ih =>
    obtain ⟨ha, hitems⟩ := List.forall_mem_cons.mp h
    cases items with
    | nil => simpa using ha
    | cons b items =>
      intro d hd
      rw [List.map_cons, List.map_cons, List.intercalate_cons_cons, List.mem_append,
        List.mem_append, List.mem_singleton] at hd
      obtain (hd | rfl) | hd := hd
      · exact ha d hd
      · exact hcomma
      · exact ih hitems d hd

/-- If a search finds some texts in an item in front of a comma or a brace, whatever follows, it
finds those of all items one after the other. -/
theorem lists_items {p : Pattern} {i : Nat} {found : α → List String} (hend : p.Lists i [] [])
    (hbrace : p.MissesAt ['}'])
    (hitem : ∀ a ∈ items, ∀ c ∈ [',', '}'], ∀ rest names, p.Lists i rest names →
      p.Lists i (text a ++ c :: rest) (found a ++ names)) :
    p.Lists i ([','].intercalate (items.map text) ++ ['}']) (items.flatMap found) := by
  induction items with
  | nil => exact Lists.skip hbrace hend
  | cons a items ih =>
    obtain ⟨ha, hitems⟩ := List.forall_mem_cons.mp hitem
    cases items with
    | nil => simpa using ha '}' (by simp) [] [] hend
    | cons b items =>
      rw [List.map_cons, List.map_cons, List.intercalate_cons_cons, List.append_assoc,
        List.append_assoc, List.singleton_append, List.flatMap_cons]
      exact ha ',' (by simp) _ _ (ih hitems)

end Items

/-! ### Sources of enumerations -/

/-- A source that declares an enumeration with some characters between its braces. -/
def enumText (name : String) (inner : List Char) : List Char :=
  enumOpening name ++ '{' :: (inner ++ ['}'])

variable {inner : List Char}

/-- In a source that declares an enumeration, one is found if its name is a word, and none
otherwise.  Its constants are looked for between its braces. -/
theorem enums_of_enumText (hmodifiers : ∀ w ∈ modifiers, w.toList.head?.any (· != 'e') = true)
    (hne : name.toList ≠ []) (hname : Unbroken name.toList) (hbrace : '{' ∉ name.toList)
    (hinner : ∀ d ∈ inner, d ≠ '{' ∧ d ≠ '}') (constants : List Char → List String) :
    ((enumHead modifiers).findAll (enumText name inner)).map (fun m =>
        Enumeration.mk (m.get 1) (constants (bodyOf (enumText name inner) m))) =
      if MadeOf isWord name then [⟨name, constants ('{' :: (inner ++ ['}']))⟩] else [] := by
  have hbehind : '{' ∉ inner ++ ['}'] := by
    have hnone : '{' ∉ inner := fun hmem => (hinner _ hmem).1 rfl
    simp [hnone]
  split
  · rename_i hword
    obtain ⟨t, htakes, -, hpos, hheld⟩ :=
      consumes_enumHead hmodifiers hword (inner ++ ['}']) (Cursor.start _) rfl
    have hfind := findAll_eq_singleton htakes (hpos.trans (Nat.zero_add _)) (by simp)
      (not_foundIn_of_no_brace hbehind)
    have hcode : enumText name inner = enumOpening name ++ ['{'] ++ (inner ++ ['}']) := by
      simp [enumText]
    generalize hm : Match.mk ⟨0, (enumOpening name ++ ['{']).length,
      enumOpening name ++ ['{'] ++ (inner ++ ['}'])⟩ t.groups = m at hfind
    have hchars : m.chars? 1 = some name.toList := by
      rw [← hm]
      exact hheld 1
    have hget : m.get 1 = name := by
      rw [Match.get, Match.get?, hchars]
      simp
    have hstop : m.stop - 1 = (enumOpening name).length := by
      rw [← hm, Match.stop, List.length_append, List.length_singleton, Nat.add_sub_cancel]
    have hbody : bodyOf (enumText name inner) m = '{' :: (inner ++ ['}']) := by
      rw [bodyOf, hstop, Block.braces, enumText, List.drop_left]
      exact Block.leading_enclosed [] hinner
    rw [← hcode] at hfind
    rw [hfind, List.map_singleton, hget, hbody]
  · rename_i hword
    have hnone : (enumHead modifiers).findAll (enumText name inner) = [] :=
      List.eq_nil_iff_forall_not_mem.mpr fun m hm =>
        hword ⟨hne, isWord_of_foundIn hne hname hbrace hbehind (foundIn_of_mem_findAll hm)⟩
    rw [hnone, List.map_nil]

end Declaration

end CodeScribe

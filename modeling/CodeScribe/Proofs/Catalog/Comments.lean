import CodeScribe.Catalog.Steps
import CodeScribe.Proofs.Text.Case
import CodeScribe.Proofs.Text.Removal

/-!
# Sources without comments

Comments of two kinds can hold the marks of each other, and a reader of the language goes by the
one that comes first.  Here the comments are removed kind by kind instead: first all block
comments, wherever they seem to begin, and then the line comments that are left.  This file
compares the two.

* `stripComments_eq` — removing comments kind by kind is two scans, one for each kind;
* `stripComments_eq_cutOut_comment` — if all line comments are like that, both ways agree;
* `live_call_stripped` — they need not.
-/

namespace CodeScribe

open Chars (Lexeme)

namespace Chars

/-! ### The first occurrence -/

theorem find?_le {needle cs : List Char} {i : Nat} (h : find? needle cs = some i) :
    i + needle.length ≤ cs.length := by
  induction cs generalizing i with
  | nil =>
    rw [find?] at h
    split at h
    · rename_i hempty
      cases h
      simp [List.isEmpty_iff.mp hempty]
    · cases h
  | cons c rest ih =>
    rw [find?] at h
    split at h
    · rename_i hhead
      cases h
      simpa using (List.isPrefixOf_iff_prefix.mp hhead).length_le
    · obtain ⟨j, hj, rfl⟩ := Option.map_eq_some_iff.mp h
      have := ih hj
      rw [List.length_cons]
      omega

/-- What follows a text does not change where something first occurs in it. -/
theorem find?_append {needle cs : List Char} {i : Nat} (h : find? needle cs = some i)
    (rest : List Char) : find? needle (cs ++ rest) = some i := by
  induction cs generalizing i with
  | nil =>
    rw [find?] at h
    split at h
    · rename_i hempty
      cases h
      rw [List.isEmpty_iff.mp hempty]
      cases rest <;> rfl
    · cases h
  | cons c cs ih =>
    rw [find?] at h
    rw [List.cons_append, find?]
    split at h
    · rename_i hhead
      have hstart := List.isPrefixOf_iff_prefix.mp hhead
      cases h
      rw [if_pos]
      exact List.isPrefixOf_iff_prefix.mpr (hstart.trans (List.prefix_append (c :: cs) rest))
    · rename_i hhead
      obtain ⟨j, hj, rfl⟩ := Option.map_eq_some_iff.mp h
      have hlength : needle.length ≤ (c :: cs).length := by
        have := find?_le hj
        rw [List.length_cons]
        omega
      rw [if_neg, ih hj, Option.map_some]
      intro hlonger
      refine hhead (List.isPrefixOf_iff_prefix.mpr ?_)
      exact List.prefix_of_prefix_length_le (List.isPrefixOf_iff_prefix.mp hlonger)
        (List.prefix_append (c :: cs) rest) hlength

end Chars

namespace Pattern

open CommentStyle (throughTo restOfLine)

/-! ### What the patterns read -/

/-- Text up to a given one ends with its first occurrence. -/
theorem run_throughTo_lit {α : Type} (w : String) (f : Nat → List (Nat × Span) → α)
    (before : Option Char) (pos : Nat) (rest : List Char) (groups : List (Nat × Span)) :
    (throughTo (lit w)).run (fun t => some (f t.pos t.groups)) ⟨before, pos, rest, groups⟩
      = (Chars.find? w.toList rest).map fun n => f (pos + n + w.toList.length) groups := by
  have hlit (before : Option Char) (pos : Nat) (rest : List Char) :
      (lit w).run (fun t => some (f t.pos t.groups)) ⟨before, pos, rest, groups⟩
        = if w.toList.isPrefixOf rest then some (f (pos + w.toList.length) groups) else none :=
    run_lit w _ _
  show runLazy (fun _ => true) (fun t => (lit w).run (fun t => some (f t.pos t.groups)) t) groups
    before pos rest = _
  induction rest generalizing before pos with
  | nil =>
    rw [runLazy, Chars.find?, hlit]
    cases w.toList <;> rfl
  | cons c rest ih =>
    rw [runLazy, Chars.find?, hlit]
    cases hhead : w.toList.isPrefixOf (c :: rest) with
    | true => rfl
    | false =>
      simp only [Bool.false_eq_true, if_false, if_true, ih, Option.map_map]
      congr 1
      funext n
      simp only [Function.comp_apply, Nat.add_assoc, Nat.add_comm 1 n]

/-- The rest of a line ends in front of the first line end. -/
theorem run_restOfLine {α : Type} (f : Nat → List (Nat × Span) → α) (before : Option Char)
    (pos : Nat) (rest : List Char) (groups : List (Nat × Span)) :
    restOfLine.run (fun t => some (f t.pos t.groups)) ⟨before, pos, rest, groups⟩
      = some (f (pos + (rest.takeWhile (· != '\n')).length) groups) := by
  show runLazy (· != '\n') (fun t => if t.rest.head?.all (· == '\n') then
    some (f t.pos t.groups) else none) groups before pos rest = _
  induction rest generalizing before pos with
  | nil => rfl
  | cons c rest ih =>
    rw [runLazy]
    by_cases hc : c = '\n'
    · simp [hc]
    · simp only [List.head?_cons, Option.all_some, beq_iff_eq, hc, if_false, ih, bne_iff_ne, ne_eq,
        not_false_eq_true, if_true, List.takeWhile_cons, List.length_cons, Nat.add_assoc,
        Nat.add_comm 1]

end Pattern

namespace Catalog

open Pattern Chars

variable {cs : List Char} {n : Nat}

/-! ### Comments -/

/-- Line comments: two slashes and the rest of the line. -/
def lineComment : Lexeme where
  length? cs := if ['/', '/'].isPrefixOf cs then some (cs.takeWhile (· != '\n')).length else none
  pos := by
    intro cs n h
    split at h
    · rename_i hslashes
      obtain ⟨rest, rfl⟩ := List.isPrefixOf_iff_prefix.mp hslashes
      cases h
      simp
    · cases h
  le := by
    intro cs n h
    split at h
    · cases h
      exact (List.takeWhile_sublist _).length_le
    · cases h

/-- Whether a text begins like a block comment. -/
def opens (cs : List Char) : Bool := ['/', '*'].isPrefixOf cs

/-- Whether a block comment would end in a text. -/
def closes (cs : List Char) : Bool := contains cs ['*', '/']

/-- Block comments: a slash and a star, and everything up to the first star and slash behind
them. -/
def blockComment : Lexeme where
  length? cs := if opens cs then (find? ['*', '/'] (cs.drop 2)).map (· + 4) else none
  pos := by
    intro cs n h
    split at h
    · obtain ⟨i, -, rfl⟩ := Option.map_eq_some_iff.mp h
      exact Nat.succ_pos _
    · cases h
  le := by
    intro cs n h
    split at h
    · rename_i hopen
      obtain ⟨i, hi, rfl⟩ := Option.map_eq_some_iff.mp h
      have hlength := (List.isPrefixOf_iff_prefix.mp hopen).length_le
      have hclose := find?_le hi
      simp only [List.length_drop, List.length_cons, List.length_nil] at hlength hclose
      omega
    · cases h

def comment : Lexeme := lineComment.orElse blockComment

theorem finds_lineComment : (lit "//" ++ CommentStyle.restOfLine).Finds lineComment := by
  intro before pos cs
  rw [matchAt?_lit_append, lineComment, show "//".toList = ['/', '/'] from rfl]
  dsimp only
  split
  · rename_i hslashes
    obtain ⟨rest, rfl⟩ := List.isPrefixOf_iff_prefix.mp hslashes
    rw [Cursor.after, run_restOfLine fun stop groups => (⟨⟨pos, stop, _⟩, groups⟩ : Match)]
    simp [Nat.add_assoc, Nat.add_comm 2]
  · rfl

theorem finds_blockComment :
    (lit "/*" ++ CommentStyle.throughTo (lit "*/")).Finds blockComment := by
  intro before pos cs
  rw [matchAt?_lit_append, blockComment, show "/*".toList = ['/', '*'] from rfl, ← opens]
  dsimp only
  split
  · rw [Cursor.after, run_throughTo_lit "*/" fun stop groups => (⟨⟨pos, stop, _⟩, groups⟩ : Match),
      Option.map_map]
    congr 1
    funext n
    simp [Nat.add_assoc, Nat.add_comm 2]
  · rfl

theorem stripComments_eq (cs : List Char) :
    stripComments cs = lineComment.cutOut (blockComment.cutOut cs) := by
  rw [stripComments, removeAll_eq_cutOut finds_blockComment,
    removeAll_eq_cutOut finds_lineComment]

/-! ### Line comments with block marks -/

/-- The block marks of a line comment do not reach out of it: a slash and a star in it are closed in
the comment or nowhere, and if the slash is the second of the comment, nowhere. -/
structure Untangled (line behind : List Char) : Prop where
  closed : ∀ t ∈ line.tails, opens t = true → closes (t.drop 2) = true ∨ closes behind = false
  slashes : opens line.tail = true → closes (line.drop 3 ++ behind) = false

instance (line behind : List Char) : Decidable (Untangled line behind) :=
  have : Decidable (∀ t ∈ line.tails, opens t = true →
      closes (t.drop 2) = true ∨ closes behind = false) := List.decidableBAll _ _
  decidable_of_iff (_ ∧ _) ⟨fun h => ⟨h.1, h.2⟩, fun h => ⟨h.closed, h.slashes⟩⟩

/-- The line comments that a scan for comments meets, each with what follows it. -/
def lineComments (cs : List Char) : List (List Char × List Char) :=
  (comment.places cs).filterMap fun place =>
    (lineComment.length? place).map fun n => (place.take n, place.drop n)

theorem length_of_opens (h : opens cs = true) : 2 ≤ cs.length :=
  (List.isPrefixOf_iff_prefix.mp h).length_le

theorem find?_eq_none_iff : find? ['*', '/'] cs = none ↔ closes cs = false := by
  rw [closes, contains, Option.isSome_eq_false_iff, Option.isNone_iff_eq_none]

/-- A block comment begins a text exactly if it is opened there and closed somewhere. -/
theorem length?_blockComment_eq_none :
    blockComment.length? cs = none ↔ (opens cs = true → closes (cs.drop 2) = false) := by
  rw [← find?_eq_none_iff, blockComment]
  dsimp only
  split
  · rename_i hopens
    rw [Option.map_eq_none_iff]
    exact ⟨fun hnone _ => hnone, fun hnone => hnone hopens⟩
  · rename_i hopens
    exact ⟨fun _ hopens' => absurd hopens' hopens, fun _ => rfl⟩

/-- A block comment is the same whatever follows. -/
theorem length?_blockComment_append (h : blockComment.length? cs = some n) (rest : List Char) :
    blockComment.length? (cs ++ rest) = some n := by
  rw [blockComment] at h ⊢
  dsimp only at h ⊢
  split at h
  · rename_i hopens
    obtain ⟨i, hi, rfl⟩ := Option.map_eq_some_iff.mp h
    have hwhole : opens (cs ++ rest) = true := List.isPrefixOf_iff_prefix.mpr
      ((List.isPrefixOf_iff_prefix.mp hopens).trans (List.prefix_append cs rest))
    rw [if_pos hwhole, List.drop_append_of_le_length (length_of_opens hopens), find?_append hi]
    rfl
  · cases h

/-! ### Over the end of a line -/

section LineEnd

variable {line behind : List Char} (hbehind : behind.head?.all (· == '\n') = true)
include hbehind

theorem opens_append (c : Char) : opens (c :: line ++ behind) = opens (c :: line) := by
  cases line with
  | cons d line => rfl
  | nil =>
    cases behind with
    | nil => rfl
    | cons d rest =>
      obtain rfl : d = '\n' := by simpa using hbehind
      rfl

theorem closes_append : closes (line ++ behind) = (closes line || closes behind) := by
  rw [Bool.eq_iff_iff, Bool.or_eq_true, closes, closes, closes, contains_iff_infix,
    contains_iff_infix, contains_iff_infix]
  cases behind with
  | nil => simp
  | cons c rest =>
    obtain rfl : c = '\n' := by simpa using hbehind
    rw [infix_append_cons_iff (by decide), List.infix_cons_iff]
    simp

theorem cutOut_blockComment_lineEnd :
    (blockComment.cutOut behind).head?.all (· == '\n') = true := by
  cases behind with
  | nil => rfl
  | cons c rest =>
    obtain rfl : c = '\n' := by simpa using hbehind
    rw [Lexeme.cutOut_of_none (length?_blockComment_eq_none.mpr (by simp [opens]))]
    rfl

/-- The block comments of a line comment and of what follows it are removed apart. -/
theorem cutOut_blockComment_append
    (h : ∀ t, t <:+ line → opens t = true → closes (t.drop 2) = true ∨ closes behind = false) :
    blockComment.cutOut (line ++ behind)
      = blockComment.cutOut line ++ blockComment.cutOut behind := by
  induction line using blockComment.induction with
  | nil => rfl
  | @lexeme line n hlength ih =>
    rw [Lexeme.cutOut_of_some hlength,
      Lexeme.cutOut_of_some (length?_blockComment_append hlength behind),
      List.drop_append_of_le_length (blockComment.le hlength)]
    exact ih fun t ht => h t (ht.trans (List.drop_suffix n line))
  | @char c line hlength ih =>
    have hwhole : blockComment.length? (c :: (line ++ behind)) = none := by
      rw [← List.cons_append, length?_blockComment_eq_none, opens_append hbehind]
      intro hopens
      have hline : closes ((c :: line).drop 2) = false :=
        length?_blockComment_eq_none.mp hlength hopens
      have hrest : closes behind = false :=
        (h (c :: line) List.suffix_rfl hopens).resolve_left (Bool.not_eq_true _ ▸ hline)
      rw [List.drop_append_of_le_length (length_of_opens hopens), closes_append hbehind, hline,
        hrest, Bool.or_false]
    rw [Lexeme.cutOut_of_none hlength, List.cons_append, Lexeme.cutOut_of_none hwhole,
      List.cons_append, ih fun t ht => h t (ht.trans (List.suffix_cons c line))]

end LineEnd

theorem Untangled.cutOut_slashes {line behind : List Char}
    (h : Untangled ('/' :: '/' :: line) behind) :
    blockComment.cutOut ('/' :: '/' :: line) = '/' :: '/' :: blockComment.cutOut line := by
  have hfirst : blockComment.length? ('/' :: '/' :: line) = none :=
    length?_blockComment_eq_none.mpr (by simp [opens, List.isPrefixOf])
  have hsecond : blockComment.length? ('/' :: line) = none := by
    rw [length?_blockComment_eq_none]
    intro hopens
    have hrest : closes (line.drop 1 ++ behind) = false := h.slashes hopens
    rw [closes, ← Bool.not_eq_true, contains_iff_infix] at hrest ⊢
    exact fun hfound => hrest (hfound.trans (List.prefix_append _ _).isInfix)
  rw [Lexeme.cutOut_of_none hfirst, Lexeme.cutOut_of_none hsecond]

/-- A line comment goes up to the end of its line, whatever it holds. -/
theorem cutOut_lineComment {line behind : List Char} (hline : '\n' ∉ line)
    (hbehind : behind.head?.all (· == '\n') = true) :
    lineComment.cutOut ('/' :: '/' :: line ++ behind) = lineComment.cutOut behind := by
  have hstop : behind.takeWhile (· != '\n') = [] := by
    cases behind with
    | nil => rfl
    | cons c rest =>
      obtain rfl : c = '\n' := by simpa using hbehind
      rfl
  have hall : ∀ c ∈ '/' :: '/' :: line, (c != '\n') = true := by
    intro c hc
    rw [bne_iff_ne]
    rintro rfl
    simp [hline] at hc
  have hlength : lineComment.length? ('/' :: '/' :: line ++ behind)
      = some ('/' :: '/' :: line).length := by
    rw [lineComment]
    dsimp only
    rw [List.takeWhile_append_of_pos hall, hstop, List.append_nil]
    rfl
  rw [Lexeme.cutOut_of_some hlength, List.drop_left]

/-- Where no comment begins, a slash that is kept does not come to stand in front of another. -/
theorem length?_lineComment_cutOut {c : Char} {rest : List Char}
    (h : lineComment.length? (c :: rest) = none) :
    lineComment.length? (c :: blockComment.cutOut rest) = none := by
  cases rest with
  | nil => exact h
  | cons d rest =>
    by_cases hd : d = '/'
    · -- two slashes would begin a comment, so the first character is no slash
      subst hd
      have hc : c ≠ '/' := by
        rintro rfl
        simp [lineComment] at h
      simp [lineComment, Ne.symm hc]
    · -- the next character is kept, and it is no slash
      have hkept : blockComment.length? (d :: rest) = none :=
        length?_blockComment_eq_none.mpr (by simp [opens, List.isPrefixOf, Ne.symm hd])
      rw [Lexeme.cutOut_of_none hkept]
      simp [lineComment, Ne.symm hd]

/-! ### Both ways to remove comments -/

theorem mem_lineComments (h : lineComment.length? cs = some n) :
    (cs.take n, cs.drop n) ∈ lineComments cs := by
  cases cs with
  | nil => rw [lineComment.length?_nil] at h; cases h
  | cons c rest =>
    refine List.mem_filterMap.mpr ⟨c :: rest, Lexeme.mem_places_self, ?_⟩
    rw [h, Option.map_some]

/-- A line comment is two slashes and what follows them up to the end of the line. -/
theorem exists_of_lineComment (h : lineComment.length? cs = some n) :
    ∃ line behind, cs = '/' :: '/' :: line ++ behind ∧ n = ('/' :: '/' :: line).length ∧
      '\n' ∉ line ∧ behind.head?.all (· == '\n') = true := by
  rw [lineComment] at h
  dsimp only at h
  split at h
  · rename_i hslashes
    obtain ⟨rest, rfl⟩ := List.isPrefixOf_iff_prefix.mp hslashes
    refine ⟨rest.takeWhile (· != '\n'), rest.dropWhile (· != '\n'), ?_, ?_, ?_, ?_⟩
    · simp
    · simpa using h.symm
    · intro hmem
      simpa using List.all_eq_true.mp List.all_takeWhile _ hmem
    · have hhead := List.head?_dropWhile_not (· != '\n') rest
      cases hrest : (rest.dropWhile (· != '\n')).head? with
      | none => rfl
      | some c => simpa [hrest] using hhead
  · cases h

/-- **Where comments can be removed kind by kind.**  If no block mark of a line comment reaches out
of it, removing all block comments and then all line comments leaves the same text as a scan from
left to right that goes by the comment which comes first. -/
theorem stripComments_eq_cutOut_comment (cs : List Char)
    (h : ∀ c ∈ lineComments cs, Untangled c.1 c.2) : stripComments cs = comment.cutOut cs := by
  rw [stripComments_eq]
  induction cs using comment.induction with
  | nil => rfl
  | @lexeme cs n hlength ih =>
    have hrest : ∀ c ∈ lineComments (cs.drop n), Untangled c.1 c.2 := fun c hc =>
      h c (List.filterMap_subset _ (Lexeme.places_subset_of_some hlength) hc)
    rw [Lexeme.cutOut_of_some hlength, ← ih hrest]
    rcases Option.or_eq_some_iff.mp hlength with hline | ⟨-, hblock⟩
    · have huntangled : Untangled (cs.take n) (cs.drop n) := h _ (mem_lineComments hline)
      obtain ⟨line, behind, rfl, rfl, hbreak, hbehind⟩ := exists_of_lineComment hline
      rw [List.take_left, List.drop_left] at huntangled
      have hkept : '\n' ∉ blockComment.cutOut line := fun hmem =>
        hbreak (blockComment.cutOut_subset line hmem)
      have hclosed (t : List Char) (ht : t <:+ '/' :: '/' :: line) :=
        huntangled.closed t ((List.mem_tails _ _).mpr ht)
      rw [cutOut_blockComment_append hbehind hclosed, huntangled.cutOut_slashes,
        cutOut_lineComment hkept (cutOut_blockComment_lineEnd hbehind), List.drop_left]
    · rw [Lexeme.cutOut_of_some hblock]
  | @char c rest hlength ih =>
    have hrest : ∀ c ∈ lineComments rest, Untangled c.1 c.2 := fun c hc =>
      h c (List.filterMap_subset _ (Lexeme.places_subset_of_none hlength) hc)
    obtain ⟨hline, hblock⟩ := Option.or_eq_none_iff.mp hlength
    rw [Lexeme.cutOut_of_none hlength, ← ih hrest, Lexeme.cutOut_of_none hblock,
      Lexeme.cutOut_of_none (length?_lineComment_cutOut hline)]

/-- A source in which comments of each kind hold marks of the other. -/
def mixedComments : List Char := "f(); // see /* g */\nh(); /* // i\n */ j();".toList

theorem mixedComments_stripped :
    (∀ c ∈ lineComments mixedComments, Untangled c.1 c.2) ∧
      stripComments mixedComments = "f(); \nh();  j();".toList := by
  have huntangled : ∀ c ∈ lineComments mixedComments, Untangled c.1 c.2 := by decide
  have hscan : comment.cutOut mixedComments = "f(); \nh();  j();".toList := by decide
  exact ⟨huntangled, (stripComments_eq_cutOut_comment mixedComments huntangled).trans hscan⟩

/-- A call between a line comment with an opening block mark and a block comment. -/
def liveCall : List Char := "// /*\nbus.Publish(new A());\n/* */".toList

/-- **A call that disappears.**  Without quotes in the text, a block mark in a line comment takes
the next line with it up to the end of the next block comment. -/
theorem live_call_stripped :
    '"' ∉ liveCall ∧ '\'' ∉ liveCall ∧ stripComments liveCall = [] ∧
      comment.cutOut liveCall = "\nbus.Publish(new A());\n".toList ∧
      messagesOf (stripComments liveCall) = [] ∧ messagesOf (comment.cutOut liveCall) = ["A"] := by
  decide

end Catalog

end CodeScribe

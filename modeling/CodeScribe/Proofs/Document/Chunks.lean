import CodeScribe.Document.Chunk
import Mathlib.Algebra.Order.Ring.Int

/-!
# Chunks lose nothing

A text that is longer than the size of a chunk is cut at places that move on by the size less the
overlap.  Where the overlap is smaller than the size the places move on until the end of the text;
otherwise they never come past the start, and there is no last chunk.

* `Chunk.Lossless`, `Chunk.ofContent_lossless` — the lengths of the chunks, what neighbours share,
  and the text put together again;
* `Chunk.cut_eq_none`, `Chunk.chunks_end_iff` — with an overlap that is not below the size no number
  of turns is enough, so that chunks come to an end exactly in the other cases.
-/

namespace CodeScribe.Chunk

variable {cs : List Char} {size overlap start : Nat} {chunks : List (List Char)}

/-! ### Places -/

theorem stop_of_le {length : Nat} (h : length ≤ start + size) :
    stop length size start = length := by
  simp only [stop]
  omega

theorem stop_of_lt {length : Nat} {start : Int} (h : start + size ≤ length) :
    stop length size start = start + size := by
  simp only [stop]
  omega

/-- The last chunk is the rest of the text. -/
theorem next?_of_le (h : cs.length ≤ start + size) : next? cs.length size overlap start = none := by
  rw [next?, stop_of_le h, if_neg (lt_irrefl _)]

theorem next?_of_lt {start : Int} (h : start + size < cs.length) :
    next? cs.length size overlap start = some (start + size - overlap) := by
  rw [next?, stop_of_lt h.le, if_pos h]

theorem slice_of_le (h : cs.length ≤ start + size) :
    slice cs start (stop cs.length size start) = cs.drop start := by
  rw [slice, stop_of_le h]
  apply List.take_of_length_le
  simp only [List.length_drop]
  omega

theorem slice_of_lt (h : start + size < cs.length) :
    slice cs start (stop cs.length size start) = (cs.drop start).take size := by
  have hstop : (start : Int) + size ≤ cs.length := by exact_mod_cast h.le
  rw [slice, stop_of_lt hstop]
  simp

/-! ### Chunks that cover a text -/

/-- Chunks that cover a text: the last is what is left, and behind a full one the next begins as
many characters before its end as they share. -/
inductive Covers (size overlap : Nat) : List Char → List (List Char) → Prop
  | last {cs : List Char} : cs.length ≤ size → Covers size overlap cs [cs]
  | next {cs : List Char} {chunks : List (List Char)} : size < cs.length →
      Covers size overlap (cs.drop (size - overlap)) chunks →
      Covers size overlap cs (cs.take size :: chunks)

/-- With an overlap below the size every turn moves on, so that as many turns as there are
characters are enough. -/
theorem covers_cut (cs : List Char) (h : overlap < size) {turns : Nat} (start : Nat)
    (hstart : start < cs.length) (hturns : cs.length - start ≤ turns) :
    ∃ chunks, cut cs size overlap turns start = some chunks ∧
      Covers size overlap (cs.drop start) chunks := by
  induction turns generalizing start with
  | zero => omega
  | succ turns ih =>
    rw [cut, if_pos (by exact_mod_cast hstart)]
    by_cases hlast : cs.length ≤ start + size
    · rw [slice_of_le hlast, next?_of_le hlast]
      refine ⟨_, rfl, Covers.last ?_⟩
      simp only [List.length_drop]
      omega
    · have hlt : start + size < cs.length := by omega
      have hnext : (start : Int) + size - overlap = ((start + (size - overlap) : Nat) : Int) := by
        omega
      obtain ⟨chunks, hchunks, hcovers⟩ :=
        ih (start + (size - overlap)) (by omega) (by omega)
      rw [slice_of_lt hlt, next?_of_lt (by exact_mod_cast hlt), hnext]
      dsimp only
      rw [hchunks]
      refine ⟨_, rfl, Covers.next ?_ ?_⟩
      · simp only [List.length_drop]
        omega
      · rwa [List.drop_drop]

theorem Covers.length_le (h : Covers size overlap cs chunks) : ∀ c ∈ chunks, c.length ≤ size := by
  induction h with
  | last hle => simpa using hle
  | next hlt _ ih =>
    intro c hc
    rcases List.mem_cons.mp hc with rfl | hc
    · exact List.length_take_le size _
    · exact ih c hc

theorem Covers.ne_nil (h : Covers size overlap cs chunks) : chunks ≠ [] := by
  cases h <;> simp

theorem Covers.length_eq (h : Covers size overlap cs chunks) :
    ∀ c ∈ chunks.dropLast, c.length = size := by
  induction h with
  | last _ => simp
  | next hlt hcovers ih =>
    intro c hc
    rw [List.dropLast_cons_of_ne_nil hcovers.ne_nil] at hc
    rcases List.mem_cons.mp hc with rfl | hc
    · rw [List.length_take]
      omega
    · exact ih c hc

/-- The first chunk begins as the text does. -/
theorem Covers.take_head {chunk : List Char} (h : Covers size overlap cs (chunk :: chunks))
    (hle : overlap ≤ size) : chunk.take overlap = cs.take overlap := by
  cases h with
  | last _ => rfl
  | next _ _ => rw [List.take_take, Nat.min_eq_left hle]

/-- Where the text is long enough to share characters, so is the first chunk. -/
theorem Covers.overlap_le_length {chunk : List Char} (h : Covers size overlap cs (chunk :: chunks))
    (hle : overlap ≤ size) (hcs : overlap ≤ cs.length) : overlap ≤ chunk.length := by
  have hlength := congrArg List.length (h.take_head hle)
  simp only [List.length_take] at hlength
  omega

/-- Neighbours share the end of the one and the beginning of the other. -/
def Shares (overlap : Nat) (c d : List Char) : Prop :=
  overlap ≤ d.length ∧ d.take overlap = c.drop (c.length - overlap)

theorem Covers.shares (h : Covers size overlap cs chunks) (hle : overlap ≤ size) :
    chunks.IsChain (Shares overlap) := by
  induction h with
  | last _ => exact .singleton _
  | @next cs chunks hlt hcovers ih =>
    cases chunks with
    | nil => exact .singleton _
    | cons d rest =>
      refine List.isChain_cons_cons.mpr ⟨⟨?_, ?_⟩, ih⟩
      · apply hcovers.overlap_le_length hle
        simp only [List.length_drop]
        omega
      · rw [hcovers.take_head hle, List.length_take, Nat.min_eq_left hlt.le, List.drop_take]
        congr 1
        omega

/-- Chunks put together again: all of the first, and of the others what they do not share with the
one before. -/
def joined (overlap : Nat) : List (List Char) → List Char
  | [] => []
  | chunk :: chunks => chunk ++ chunks.flatMap (·.drop overlap)

theorem Covers.joined_eq (h : Covers size overlap cs chunks) (hle : overlap ≤ size) :
    joined overlap chunks = cs := by
  induction h with
  | last _ => simp [joined]
  | @next cs chunks hlt hcovers ih =>
    cases chunks with
    | nil => exact absurd rfl hcovers.ne_nil
    | cons d rest =>
      have hshared : overlap ≤ d.length := by
        apply hcovers.overlap_le_length hle
        simp only [List.length_drop]
        omega
      -- Without the shared characters, the chunks that follow are the text behind this one.
      have hrest : d.drop overlap ++ rest.flatMap (·.drop overlap) = cs.drop size := by
        have hdrop := congrArg (List.drop overlap) ih
        rw [joined, List.drop_append_of_le_length hshared, List.drop_drop] at hdrop
        rwa [show size - overlap + overlap = size by omega] at hdrop
      rw [joined, List.flatMap_cons, hrest, List.take_append_drop]

/-! ### Turns without end -/

/-- With an overlap that is not below the size the places never come past the start, so that no
number of turns is enough. -/
theorem cut_eq_none (hle : size ≤ overlap) (hlt : size < cs.length) (turns : Nat) {start : Int}
    (hstart : start ≤ 0) : cut cs size overlap turns start = none := by
  induction turns generalizing start with
  | zero => rfl
  | succ turns ih =>
    have hnext : start + size < cs.length := by omega
    rw [cut, if_pos (by omega), next?_of_lt hnext]
    dsimp only
    rw [ih (by omega), Option.map_none]

theorem exists_cut_iff (cs : List Char) (size overlap : Nat) :
    (∃ turns chunks, cut cs size overlap turns 0 = some chunks) ↔
      cs.length ≤ size ∨ overlap < size := by
  constructor
  · rintro ⟨turns, chunks, hchunks⟩
    by_contra hnot
    rw [cut_eq_none (by omega) (by omega) turns le_rfl] at hchunks
    cases hchunks
  · intro h
    by_cases hempty : cs.length = 0
    · exact ⟨1, [], by rw [cut, if_neg (by omega)]⟩
    · rcases h with h | h
      · have hlast : cs.length ≤ 0 + size := by omega
        refine ⟨1, [cs.drop 0], ?_⟩
        rw [cut, if_pos (by omega)]
        have hnone : next? cs.length size overlap (0 : Nat) = none := next?_of_le hlast
        have hslice := slice_of_le hlast
        simp only [Nat.cast_zero] at hnone hslice
        rw [hnone, hslice]
      · obtain ⟨chunks, hchunks, -⟩ := covers_cut cs h 0 (by omega) le_rfl
        exact ⟨_, chunks, hchunks⟩

/-! ### Chunks of a text -/

theorem split_of_lt (hsize : 1 ≤ size) (hlt : size < cs.length) :
    split cs size overlap = cut cs size overlap (cs.length + 1) 0 := by
  rw [split, if_neg (by omega)]

theorem covers_split (cs : List Char) (h : overlap < size) :
    ∃ chunks, split cs size overlap = some chunks ∧ Covers size overlap cs chunks := by
  by_cases hle : cs.length ≤ size
  · refine ⟨[cs], ?_, .last hle⟩
    rw [split, if_pos (Or.inr (by exact_mod_cast hle))]
  · rw [split_of_lt (by omega) (by omega)]
    exact covers_cut cs h 0 (by omega) (by omega)

theorem split_eq_none_iff (cs : List Char) (overlap : Nat) (hsize : 1 ≤ size) :
    split cs size overlap = none ↔ size < cs.length ∧ size ≤ overlap := by
  constructor
  · intro hnone
    by_contra hnot
    by_cases hle : cs.length ≤ size
    · rw [split, if_pos (Or.inr (by exact_mod_cast hle))] at hnone
      cases hnone
    · have hoverlap : overlap < size := by omega
      obtain ⟨chunks, hchunks, -⟩ := covers_split cs hoverlap
      rw [hchunks] at hnone
      cases hnone
  · rintro ⟨hlt, hle⟩
    rw [split_of_lt hsize hlt]
    exact cut_eq_none hle hlt _ le_rfl

/-- A text is cut under whole numbers, and a fault says that there is no last chunk. -/
theorem ofContent_text (s : String) {size : Int} (hsize : 1 ≤ size) (overlap : Int) :
    ofContent (.text s) (.int size) (.int overlap) =
      (split s.toList size overlap.toNat).elim (.error .endlessChunks) fun chunks =>
        .ok (chunks.map fun c => .text (String.ofList c)) := by
  have hpresent : (Value.int size).isPresent = true := by
    simp only [Value.isPresent, bne_iff_ne]
    omega
  have hoverlap : overlapOf (.int overlap) = .ok overlap.toNat := by
    by_cases hzero : overlap = 0
    · subst hzero
      rfl
    · simp [overlapOf, Value.orElse, Value.isPresent, hzero]
  have hlength : s.toList.length = s.length := String.length_toList
  by_cases hle : (s.length : Int) ≤ size
  · have hsplit : split s.toList size overlap.toNat = some [s.toList] := by
      rw [split, if_pos (Or.inr (by rwa [hlength]))]
    simp [ofContent, hpresent, Value.size, Value.whole?, hle, hsplit, bind, Except.bind]
    rfl
  · simp only [ofContent, hpresent, Value.size, Value.whole?, hoverlap]
    cases hsplit : split s.toList size overlap.toNat with
    | none => simp [hle, hsplit, bind, Except.bind]
    | some chunks => simp [hle, hsplit, bind, Except.bind]; rfl

/-- Chunks from which the text can be told again. -/
structure Lossless (size overlap : Nat) (cs : List Char) (chunks : List (List Char)) : Prop where
  short : ∀ c ∈ chunks, c.length ≤ size
  full : ∀ c ∈ chunks.dropLast, c.length = size
  shares : chunks.IsChain (Shares overlap)
  whole : joined overlap chunks = cs

/-- A text is cut without loss, whatever the size and any overlap below it. -/
theorem ofContent_lossless (s : String) {size overlap : Int} (hsize : 1 ≤ size)
    (hoverlap : 0 ≤ overlap) (hlt : overlap < size) :
    ∃ chunks, ofContent (.text s) (.int size) (.int overlap) =
        .ok (chunks.map fun c => .text (String.ofList c)) ∧
      Lossless size.toNat overlap.toNat s.toList chunks := by
  obtain ⟨n, rfl⟩ := Int.eq_ofNat_of_zero_le (show 0 ≤ size by omega)
  obtain ⟨k, rfl⟩ := Int.eq_ofNat_of_zero_le hoverlap
  have hk : k < n := by omega
  obtain ⟨chunks, hchunks, hcovers⟩ := covers_split s.toList hk
  refine ⟨chunks, ?_, ?_⟩
  · rw [ofContent_text s hsize, Int.toNat_natCast, hchunks]
    rfl
  · exact ⟨hcovers.length_le, hcovers.length_eq, hcovers.shares hk.le, hcovers.joined_eq hk.le⟩

/-- Three chunks of four characters, the last of them shorter. -/
theorem three_chunks_lossless :
    ∃ chunks, ofContent (.text "class A \x7b\x7d") (.int 4) (.int 1) =
        .ok (chunks.map fun c => .text (String.ofList c)) ∧
      Lossless 4 1 "class A \x7b\x7d".toList chunks :=
  ofContent_lossless "class A \x7b\x7d" (by decide) (by decide) (by decide)

/-- The chunks of a text come to an end, after some number of turns, exactly if the text is no
longer than a chunk or the overlap is below the size. -/
theorem chunks_end_iff (s : String) {size overlap : Int} (hsize : 1 ≤ size)
    (hoverlap : 0 ≤ overlap) :
    ((∃ turns chunks, cut s.toList size overlap.toNat turns 0 = some chunks) ↔
        (s.length : Int) ≤ size ∨ overlap < size) ∧
      ((∃ chunks, ofContent (.text s) (.int size) (.int overlap) = .ok chunks) ↔
        (s.length : Int) ≤ size ∨ overlap < size) := by
  obtain ⟨n, rfl⟩ := Int.eq_ofNat_of_zero_le (show 0 ≤ size by omega)
  obtain ⟨k, rfl⟩ := Int.eq_ofNat_of_zero_le hoverlap
  have hlength : s.toList.length = s.length := String.length_toList
  constructor
  · rw [Int.toNat_natCast, exists_cut_iff, hlength]
    omega
  · have hnone := split_eq_none_iff s.toList k (show 1 ≤ n by omega)
    rw [ofContent_text s hsize, Int.toNat_natCast]
    cases hsplit : split s.toList n k with
    | none =>
      obtain ⟨hlt, hle⟩ := hnone.mp hsplit
      simp only [Option.elim]
      constructor
      · rintro ⟨chunks, hchunks⟩
        cases hchunks
      · omega
    | some chunks =>
      have hnot : ¬ (n < s.toList.length ∧ n ≤ k) := by
        rw [← hnone, hsplit]
        simp
      simp only [Option.elim]
      constructor
      · intro _
        omega
      · intro _
        exact ⟨_, rfl⟩

theorem three_chunks_end :
    (∃ turns chunks, cut "class A \x7b\x7d".toList 4 1 turns 0 = some chunks) ∧
      ∃ chunks, ofContent (.text "class A \x7b\x7d") (.int 4) (.int 1) = .ok chunks := by
  obtain ⟨hcut, hchunks⟩ := chunks_end_iff "class A \x7b\x7d" (show (1 : Int) ≤ 4 by decide)
    (show (0 : Int) ≤ 1 by decide)
  exact ⟨hcut.mpr (by decide), hchunks.mpr (by decide)⟩

/-- Chunks of one character that share one character stay at the first. -/
theorem full_overlap_without_end :
    ¬ ∃ turns chunks, cut "ab".toList 1 1 turns 0 = some chunks := by
  have hiff := exists_cut_iff "ab".toList 1 1
  rw [Nat.cast_one] at hiff
  rw [hiff]
  decide

end CodeScribe.Chunk

import CodeScribe.Proofs.Dependency.Drawings

/-!
# The drawing in a document

A document shows a dependency graph by a drawing that grows edge by edge and stops, in the middle
of a source if need be, when it has as many edges as are asked for.  The drawing in a file of its
own has all edges.  This file shows that the first is an excerpt of the second.

* `Graph.Sketch.lines_foldl_draw` — without a limit, a sketch keeps the first line of each key;
* `Graph.sketchRows_eq` — leaving both loops when the sketch is full is leaving one loop over all
  edges;
* `Graph.splitOn_mermaid` — the lines of the whole drawing;
* `Graph.mermaidBlock_shows_first` — the drawing in a document has the first of those lines.
-/

namespace CodeScribe.Dependency.Graph

namespace Sketch

/-! ### Sketches without a limit -/

theorem lines_draw_extends (sk : Sketch) (edge : String × String) :
    sk.lines <+: (sk.draw edge).lines := by
  rw [draw]
  split
  · exact List.prefix_rfl
  · exact List.prefix_append _ _

theorem lines_foldl_draw_extends (sk : Sketch) (edges : List (String × String)) :
    sk.lines <+: (edges.foldl draw sk).lines := by
  induction edges generalizing sk with
  | nil => exact List.prefix_rfl
  | cons edge edges ih => exact (sk.lines_draw_extends edge).trans (ih (sk.draw edge))

theorem length_lines_draw_le (sk : Sketch) (edge : String × String) :
    (sk.draw edge).lines.length ≤ sk.lines.length + 1 := by
  rw [draw]
  split
  · exact Nat.le_succ _
  · simp

/-- A sketch goes through the states of the loop that keeps the first line of each key, with its
lines in the order of drawing. -/
theorem foldl_draw_eq (edges : List (String × String)) (sk : Sketch) :
    let out := edges.foldl keepFirst (sk.keys, sk.lines.reverse)
    (edges.foldl draw sk).keys = out.1 ∧ (edges.foldl draw sk).lines = out.2.reverse := by
  induction edges generalizing sk with
  | nil => simp
  | cons edge edges ih =>
    have hstep : keepFirst (sk.keys, sk.lines.reverse) edge
        = ((sk.draw edge).keys, (sk.draw edge).lines.reverse) := by
      rw [keepFirst, draw]
      split <;> simp
    rw [List.foldl_cons, List.foldl_cons, hstep]
    exact ih (sk.draw edge)

theorem lines_foldl_draw (edges : List (String × String)) :
    (edges.foldl draw {}).lines = firstOfEach edges :=
  (foldl_draw_eq edges {}).2

/-! ### Sketches with a limit -/

theorem isFull_iff {limit : Int} {sk : Sketch} :
    sk.isFull limit = true ↔ limit.toNat ≤ sk.lines.length := by
  rw [isFull, decide_eq_true_iff, sk.counted]
  omega

/-- A sketch that grows up to a limit has the first lines of the one that grows without, and at
least those it began with. -/
theorem lines_drawUpTo (limit : Int) (sk : Sketch) (edges : List (String × String)) :
    (sk.drawUpTo limit edges).lines
      = (edges.foldl draw sk).lines.take (max limit.toNat sk.lines.length) := by
  induction edges generalizing sk with
  | nil => exact (List.take_of_length_le (Nat.le_max_right _ _)).symm
  | cons edge edges ih =>
    rw [drawUpTo]
    split
    · rename_i hfull
      rw [Nat.max_eq_right (isFull_iff.mp hfull)]
      exact List.prefix_iff_eq_take.mp (sk.lines_foldl_draw_extends (edge :: edges))
    · rename_i hroom
      have hroom : sk.lines.length < limit.toNat := by simpa [isFull_iff] using hroom
      -- there is room for one more line, so the next sketch is not past the limit either
      have hnext : (sk.draw edge).lines.length ≤ limit.toNat :=
        (sk.length_lines_draw_le edge).trans hroom
      rw [ih, Nat.max_eq_left hnext, Nat.max_eq_left hroom.le, List.foldl_cons]

theorem drawUpTo_of_isFull {limit : Int} {sk : Sketch} (h : sk.isFull limit = true)
    (edges : List (String × String)) : sk.drawUpTo limit edges = sk := by
  cases edges with
  | nil => rfl
  | cons edge edges => rw [drawUpTo, if_pos h]

theorem drawUpTo_append (limit : Int) (sk : Sketch) (edges edges' : List (String × String)) :
    sk.drawUpTo limit (edges ++ edges') = (sk.drawUpTo limit edges).drawUpTo limit edges' := by
  induction edges generalizing sk with
  | nil => rfl
  | cons edge edges ih =>
    rw [List.cons_append, drawUpTo, drawUpTo]
    split
    · rename_i hfull
      rw [drawUpTo_of_isFull hfull]
    · exact ih (sk.draw edge)

end Sketch

/-! ### Both loops -/

/-- The keys and lines of all edges, source after source. -/
def keyedLines (g : Graph) (rows : Table (List String)) : List (String × String) :=
  rows.flatMap fun row => row.2.map (g.keyedLine row.1)

theorem sketchRows_eq (g : Graph) (limit : Int) (sk : Sketch) (rows : Table (List String)) :
    g.sketchRows limit sk rows = sk.drawUpTo limit (g.keyedLines rows) := by
  induction rows generalizing sk with
  | nil => rfl
  | cons row rows ih =>
    have hrows : g.keyedLines (row :: rows)
        = row.2.map (g.keyedLine row.1) ++ g.keyedLines rows := List.flatMap_cons
    rw [hrows, Sketch.drawUpTo_append, sketchRows]
    split
    · rename_i hfull
      rw [Sketch.drawUpTo_of_isFull hfull]
    · exact ih _

theorem edgeLines_eq_firstOfEach (g : Graph) :
    g.edgeLines = firstOfEach (g.keyedLines g.links) := by
  rw [edgeLines, edges, keyedLines, List.map_flatMap]
  simp only [List.map_map]
  rfl

theorem lines_sketchRows (g : Graph) (limit : Int) :
    (g.sketchRows limit {} g.links).lines = g.edgeLines.take limit.toNat := by
  rw [sketchRows_eq, Sketch.lines_drawUpTo, Sketch.lines_foldl_draw, ← edgeLines_eq_firstOfEach]
  simp

/-! ### The lines of drawings -/

theorem firstOfEach_subset (lines : List (String × String)) :
    firstOfEach lines ⊆ lines.map (·.2) := by
  have hempty : Sketch.lines {} ⊆ lines.map (·.2) := List.nil_subset _
  rw [← Sketch.lines_foldl_draw]
  refine List.foldlRecOn lines Sketch.draw
    (motive := fun sk : Sketch => sk.lines ⊆ lines.map (·.2)) hempty ?_
  intro sk hsk edge hedge
  rw [Sketch.draw]
  split
  · exact hsk
  · refine List.append_subset.mpr ⟨hsk, ?_⟩
    exact List.cons_subset.mpr ⟨List.mem_map_of_mem hedge, List.nil_subset _⟩

theorem newline_notMem_edgeLines {g : Graph} {line : String} (h : line ∈ g.edgeLines) :
    '\n' ∉ line.toList := by
  obtain ⟨keyed, hkeyed, rfl⟩ := List.mem_map.mp (firstOfEach_subset _ h)
  obtain ⟨e, -, rfl⟩ := List.mem_map.mp hkeyed
  exact newline_notMem_drawnEdge g e

theorem splitOn_mermaid (g : Graph) : Text.splitOn g.mermaid "\n" = "graph LR" :: g.edgeLines := by
  refine Text.lines_join ?_ (List.cons_ne_nil _ _)
  intro line hline
  rcases List.mem_cons.mp hline with rfl | hline
  · decide
  · exact newline_notMem_edgeLines hline

theorem mermaidBlock_eq (g : Graph) (limit : Int) :
    g.mermaidBlock limit = if g.edgeLines.take limit.toNat = [] then ""
      else Text.join "\n"
        (["```mermaid", "graph LR"] ++ g.edgeLines.take limit.toNat ++ ["```"]) := by
  rw [mermaidBlock, Sketch.counted, lines_sketchRows]
  simp only [beq_iff_eq, List.length_eq_zero_iff]

/-- **A document shows the first edges.**  Let `lines` be the lines behind the first one in the
drawing of all edges.  If there are none, or none is asked for, the drawing in a document is
empty.  Otherwise it is a fenced drawing whose lines of edges are the first of `lines`, as many as
are asked for or as there are. -/
theorem mermaidBlock_shows_first (g : Graph) (limit : Int) :
    ∃ lines, Text.splitOn g.mermaid "\n" = "graph LR" :: lines ∧
      g.mermaidBlock limit = if lines = [] ∨ limit ≤ 0 then ""
        else Text.join "\n" (["```mermaid", "graph LR"] ++
          lines.take (min limit lines.length).toNat ++ ["```"]) := by
  refine ⟨g.edgeLines, splitOn_mermaid g, ?_⟩
  have hnone : g.edgeLines.take limit.toNat = [] ↔ g.edgeLines = [] ∨ limit ≤ 0 := by
    rw [List.take_eq_nil_iff, Int.toNat_eq_zero, or_comm]
  have hcut : g.edgeLines.take (min limit g.edgeLines.length).toNat
      = g.edgeLines.take limit.toNat := by
    rw [List.take_eq_take_iff]
    omega
  rw [mermaidBlock_eq, hcut]
  simp only [hnone]

end CodeScribe.Dependency.Graph

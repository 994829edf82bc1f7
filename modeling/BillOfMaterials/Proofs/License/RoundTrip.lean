import BillOfMaterials.Proofs.License.Grammar
import BillOfMaterials.Proofs.License.Normal

/-! # Reading what was written

    A written tree has parentheses just around the sets inside sets, so its
    words are those of a chain of operands, each a leaf or a group.

    * `scan_glued`, `scan_renderParts` and `scan_renderPart_set` give the words
      of a written tree.
    * `Normal.reads_part`: a normal tree that stands as a part is read as
      itself, whatever is on the stacks.
    * `parse_render`: reading undoes writing on normal trees, and so on every
      tree that was read. -/

namespace BillOfMaterials.License

open Text Stacks

/-! ## The words of a written tree -/

/-- Each exception adds `WITH` and itself to the words before it. -/
theorem scan_glued_text (exceptions : List Identifier) (text : String) :
    Token.scan (glued text (exceptions.map Identifier.text)).toList =
      Token.scan text.toList ++
        (exceptions.map Identifier.text).flatMap fun e => [.exception, .identifier e] := by
  induction exceptions generalizing text with
  | nil => simp [glued]
  | cons e exceptions ih =>
    have hwith : Token.scan (text ++ withSeparator ++ e.text).toList =
        Token.scan text.toList ++ [.exception, .identifier e.text] := by
      rw [String.toList_append, String.toList_append, List.append_assoc, scan_with,
        scan_identifier]
    have hrest := ih (text ++ withSeparator ++ e.text)
    rw [hwith] at hrest
    simpa [glued] using hrest

theorem scan_glued (name : Identifier) (exceptions : List Identifier) :
    Token.scan (glued name.text (exceptions.map Identifier.text)).toList =
      gluedWords name.text (exceptions.map Identifier.text) := by
  rw [scan_glued_text, scan_identifier]
  rfl

theorem scan_renderParts (p : Polarity) (first : License) (rest : List License) :
    Token.scan (renderParts p (first :: rest)).toList =
      Token.scan (renderPart first).toList ++
        rest.flatMap fun x => .operator p :: Token.scan (renderPart x).toList := by
  induction rest generalizing first with
  | nil => simp [renderParts]
  | cons next rest ih =>
    have := scan_operator p (renderPart first).toList (renderParts p (next :: rest)).toList
    rw [ih] at this
    simpa [renderParts] using this

theorem scan_renderPart_set (p : Polarity) (parts : List License) :
    Token.scan (renderPart (.set p parts)).toList =
      .openGroup :: Token.scan (renderParts p parts).toList ++ [.closeGroup] := by
  simpa [renderPart] using scan_group (renderParts p parts).toList

/-! ## Reading it -/

/-- Trees that are no sets of polarity `p` are not spliced. -/
theorem flatMap_operandsFor {p : Polarity} {xs : List License}
    (h : ∀ x ∈ xs, x.polarity? ≠ some p) : xs.flatMap (operandsFor p) = xs := by
  induction xs with
  | nil => rfl
  | cons x xs ih =>
    have hxs := ih fun y hy => h y (by simp [hy])
    simp [operandsFor_of_polarity?_ne (h x (by simp)), hxs]

/-- The parts of a normal set give the set itself when they are joined. -/
theorem gather_parts {p : Polarity} {first next : License} {rest : List License}
    (h : ∀ x ∈ first :: next :: rest, x.polarity? ≠ some p) :
    gather p first (next :: rest) = .set p (first :: next :: rest) := by
  rw [gather, flatMap_operandsFor h]
  simp

/-- The parts of a set are read as a chain that joins to the set. -/
theorem reads_renderParts {p : Polarity} {parts : List License} (hlength : 2 ≤ parts.length)
    (hpolarity : ∀ x ∈ parts, x.polarity? ≠ some p)
    (hparts : ∀ x ∈ parts, ∀ P, Reads P (Token.scan (renderPart x).toList) [x]) :
    Reads (ReleasedBy p) (Token.scan (renderParts p parts).toList) [.set p parts] := by
  match parts with
  | [] | [_] => simp at hlength
  | first :: next :: rest =>
    -- The parts are an operand chain, and nothing in it is spliced.
    have hchain : Reads (ReleasedBy p) _ [((next :: rest).map id).foldl (License.join p) first] :=
      reads_chain fun x hx => hparts x hx (Tighter p)
    rw [List.map_id, foldl_join, gather_parts hpolarity] at hchain
    rw [scan_renderParts]
    exact hchain

theorem Normal.reads_part {tree : License} (h : Normal tree) :
    ∀ P, Reads P (Token.scan (renderPart tree).toList) [tree] := by
  induction h with
  | leaf name exceptions =>
    intro P
    rw [renderPart, scan_glued]
    exact reads_glued P _ _
  | set hlength hpolarity _ ih =>
    intro P
    rw [scan_renderPart_set]
    exact reads_group (reads_renderParts hlength hpolarity ih).treesOf_eq P

/-- At the top a set has no parentheses around it. -/
theorem Normal.treesOf_render {tree : License} (h : Normal tree) :
    treesOf (Token.scan tree.render.toList) = some [tree] := by
  cases h with
  | leaf name exceptions =>
    rw [render_leaf, scan_glued]
    exact (reads_glued (ReleasedBy .any) _ _).treesOf_eq
  | set hlength hpolarity hparts =>
    rw [render_set]
    exact (reads_renderParts hlength hpolarity fun x hx => (hparts x hx).reads_part).treesOf_eq

/-- **Round trip.** Reading undoes writing on normal trees; trees that were read
    are normal, so writing one and reading it again gives it back. -/
theorem parse_render :
    (∀ tree : License, Normal tree → parse tree.render = some tree) ∧
      ∀ (text : String) (tree : License), parse text = some tree →
        parse tree.render = some tree := by
  have hnormal : ∀ tree : License, Normal tree → parse tree.render = some tree :=
    fun tree h => ofTokens_eq_some_iff.2 h.treesOf_render
  exact ⟨hnormal, fun text tree h => hnormal tree (normal_of_parse h)⟩

/-- A leaf with two exceptions beside a set, and a text with more parentheses
    than its tree needs. -/
theorem parse_render_nested :
    parse "a WITH e WITH f OR (b AND c+)" =
        some (.set .any [.leaf "a WITH e WITH f", .set .all [.leaf "b", .leaf "c+"]]) ∧
      parse "((a and b)) and c" = some (.set .all [.leaf "a", .leaf "b", .leaf "c"]) ∧
      parse "a AND b AND c" = some (.set .all [.leaf "a", .leaf "b", .leaf "c"]) := by
  have hleaf : ∀ name : Identifier, Normal (.leaf name.text) := fun name => .leaf name []
  have hexceptions : Normal (.leaf "a WITH e WITH f") :=
    .leaf ⟨"a", by decide⟩ [⟨"e", by decide⟩, ⟨"f", by decide⟩]
  have hinner : Normal (.set .all [.leaf "b", .leaf "c+"]) :=
    .set (by decide) (by simp [polarity?])
      (by simpa using ⟨hleaf ⟨"b", by decide⟩, hleaf ⟨"c+", by decide⟩⟩)
  have houter : Normal (.set .any [.leaf "a WITH e WITH f", .set .all [.leaf "b", .leaf "c+"]]) :=
    .set (by decide) (by simp [polarity?]) (by simpa using ⟨hexceptions, hinner⟩)
  have hread : parse "((a and b)) and c" = some (.set .all [.leaf "a", .leaf "b", .leaf "c"]) := rfl
  have h1 := parse_render.1 _ houter
  have h2 := parse_render.2 _ _ hread
  simp only [render, renderParts, renderPart, Polarity.operator] at h1 h2
  exact ⟨h1, hread, h2⟩

end BillOfMaterials.License

import DocWeave.Markdown.Block

/-!
# What a line does

A line goes on with the open block of text, or it starts new blocks. What holds of all lines is proved
for each way to go on, so the ways are told apart here, once for all.

- `Continued`: the ways in which a line goes on with a block of text, and what it leaves behind.
- `continueLeaf_eq_some`: there are no others.
- `step_cases`: a line goes on with the open block of text, or starts blocks behind it.
-/

namespace DocWeave.Markdown.BlockState

variable {s : BlockState} {leaf : Leaf} {n : Nat} {c : Cursor} {line : SourceLine}
  {rest : List SourceLine} {r : BlockState × Nat}

/-- The ways in which a line goes on with a block of text. `n` is the number of open containers that
the line goes on with, `c` the place after their marks. Running text may go on with a line that lacks
some marks; all other text may not. -/
inductive Continued (s : BlockState) (n : Nat) (c : Cursor) (line : SourceLine)
    (rest : List SourceLine) : Leaf → BlockState × Nat → Prop
  /-- The line underlines a paragraph, which becomes a heading. -/
  | underline {task : Option Bool} {read : List Glyph} {before : LineEnd} {level : Nat}
      (hn : n = s.frames.length) (hlevel : underlineLevel (c.skip 4).2.rest = some level) :
      Continued s n c line rest (.paragraph task read before)
        ({ s with leaf := none }.add (.heading level task ((trimGlyphs read).1 ++ (trimGlyphs read).2 ++
          glyphs .marker (before.chars ++ line.text))), 0)
  /-- The line is a further one of a paragraph. -/
  | paragraph {task : Option Bool} {read : List Glyph} {before : LineEnd}
      (hends : (c.skip 4).1 < 4 →
        s.endsText (n = s.frames.length) (c.skip 4).2.rest line.beyond rest = false) :
      Continued s n c line rest (.paragraph task read before)
        ({ s with leaf := some (.paragraph task
          ((glyphs .content before.chars ++ s.textGlyphs n c line).reverse ++ read) line.ending) }, 0)
  /-- The line starts running text behind definitions. -/
  | definition (hends : (c.skip 4).1 < 4 →
        s.endsText (n = s.frames.length) (c.skip 4).2.rest line.beyond rest = false) :
      Continued s n c line rest .definition
        (s.startText ((s.textGlyphs n c line).takeWhile (!·.isContent)) c.skipAll.rest line.ending rest)
  /-- The line is one of code between fences, or the closing fence. -/
  | fenced {fence : CodeFence} {info read : List Char} (hn : n = s.frames.length) :
      Continued s n c line rest (.fenced fence info read) (s.continueFenced fence info read c line)
  /-- The line has text of code that is set apart by its indentation. -/
  | indentedText {read blank : List Char} (hn : n = s.frames.length)
      (hcode : (c.skip 4).1 = 4 ∨ (c.skip 4).2.isAtEnd = true) :
      Continued s n c line rest (.indented read blank) ({ s with leaf := some (.indented
        (line.verbatim (c.skip 4).2.expanded ++ blank ++ read) []) }, line.more)
  /-- The line is a blank one of such code, or behind it. -/
  | indentedBlank {read blank : List Char} (hn : n = s.frames.length)
      (hcode : (c.skip 4).1 = 4 ∨ (c.skip 4).2.isAtEnd = true) :
      Continued s n c line rest (.indented read blank) ({ s with leaf := some (.indented
        read (line.verbatim (c.skip 4).2.expanded ++ blank)) }, line.more)
  /-- The line is a further one of HTML. -/
  | html {stop : HtmlStop} {read : List Char} (hn : n = s.frames.length) :
      Continued s n c line rest (.html stop read)
        (s.addHtmlLine stop read c.expanded line, line.more)
  /-- The line is a row of a table. -/
  | table {columns : List Alignment} {header : List (List Char)} {rows : List (List (List Char))}
      (hn : n = s.frames.length) (hrow : interrupts false c.skipAll.rest line.beyond [] = false) :
      Continued s n c line rest (.table columns header rows)
        ({ s with leaf := some (.table columns header
          (fitCells columns.length (rowCells c.skipAll.rest) :: rows)) }, 0)

/-- Running text goes on with a line, or becomes a heading that the line underlines. -/
theorem Continued.of_continueParagraph {task : Option Bool} {read : List Glyph} {before : LineEnd}
    {s' : BlockState} (h : s.continueParagraph task read before n c line rest = some s') :
    Continued s n c line rest (.paragraph task read before) (s', 0) := by
  unfold continueParagraph at h
  dsimp only at h
  split at h
  · rename_i level hlevel
    obtain ⟨hwhole, hlevel⟩ := Option.ite_none_right_eq_some.mp hlevel
    cases h
    -- A line that underlines has the marks of all containers.
    exact .underline (of_decide_eq_true (Bool.and_eq_true_iff.mp hwhole).1) hlevel
  · split at h
    · cases h
    · rename_i hends
      split at h
      · cases h
      · cases h
        -- If the marks are all there, the line starts nothing that ends the text before it.
        exact .paragraph fun hcolumns => by simpa [hcolumns] using hends

/-- Behind a definition, a line starts running text anew. -/
theorem Continued.of_continueDefinition (h : s.continueDefinition n c line rest = some r) :
    Continued s n c line rest .definition r := by
  unfold continueDefinition at h
  dsimp only at h
  split at h
  · cases h
  · rename_i hends
    split at h
    · cases h
    · cases h
      exact .definition fun hcolumns => by simpa [hcolumns] using hends

/-- Indented code goes on with a line that is indented, and with a blank one. -/
theorem Continued.of_continueIndented {read blank : List Char} (hn : n = s.frames.length)
    (h : s.continueIndented read blank c line = some r) :
    Continued s n c line rest (.indented read blank) r := by
  unfold continueIndented at h
  dsimp only at h
  obtain ⟨hcode, h⟩ := Option.ite_none_right_eq_some.mp h
  have hcode : (c.skip 4).1 = 4 ∨ (c.skip 4).2.isAtEnd = true := by simpa using hcode
  split at h
  · cases h
    exact .indentedBlank hn hcode
  · cases h
    exact .indentedText hn hcode

/-- HTML goes on up to the line that stops it. -/
theorem Continued.of_continueHtml {stop : HtmlStop} {read : List Char} (hn : n = s.frames.length)
    (h : s.continueHtml stop read c line = some r) :
    Continued s n c line rest (.html stop read) r := by
  unfold continueHtml at h
  extract_lets ended at h
  split at h
  · cases h
  · cases h
    exact .html hn

/-- Every line makes a row of a table, unless it starts a block of its own. -/
theorem Continued.of_continueTable {columns : List Alignment} {header : List (List Char)}
    {rows : List (List (List Char))} {s' : BlockState} (hn : n = s.frames.length)
    (h : s.continueTable columns header rows c line = some s') :
    Continued s n c line rest (.table columns header rows) (s', 0) := by
  unfold continueTable at h
  dsimp only at h
  split at h
  · cases h
  · rename_i hrow
    rw [Bool.not_eq_true, Bool.or_eq_false_iff] at hrow
    cases h
    exact .table hn hrow.2

/-- If a line goes on with a block of text, it does so in one of the ways. -/
theorem continueLeaf_eq_some (h : s.continueLeaf leaf n c line rest = some r) :
    Continued s n c line rest leaf r := by
  unfold continueLeaf at h
  -- All but running text only goes on in a line with the marks of all containers.
  have hwhole {o : Option (BlockState × Nat)}
      (ho : (if decide (n = s.frames.length) = true then o else none) = some r) :
      n = s.frames.length ∧ o = some r :=
    (Option.ite_none_right_eq_some.mp ho).imp of_decide_eq_true id
  cases leaf with
  | paragraph task read before =>
    obtain ⟨s', hs', rfl⟩ := Option.map_eq_some_iff.mp h
    exact .of_continueParagraph hs'
  | definition => exact .of_continueDefinition h
  | fenced fence info read =>
    obtain ⟨hn, h⟩ := hwhole h
    cases h
    exact .fenced hn
  | indented read blank =>
    obtain ⟨hn, h⟩ := hwhole h
    exact .of_continueIndented hn h
  | html stop read =>
    obtain ⟨hn, h⟩ := hwhole h
    exact .of_continueHtml hn h
  | table columns header rows =>
    obtain ⟨hn, h⟩ := hwhole h
    obtain ⟨s', hs', rfl⟩ := Option.map_eq_some_iff.mp h
    exact .of_continueTable hn hs'

/-- A line closes code between fences, or becomes a part of it. -/
theorem continueFenced_cases (s : BlockState) (fence : CodeFence) (info read : List Char) (c : Cursor)
    (line : SourceLine) : s.continueFenced fence info read c line = (s.closeLeaf, 0) ∨
      ∃ inside, s.continueFenced fence info read c line =
        ({ s with leaf := some (.fenced fence info (line.verbatim inside ++ read)) }, line.more) := by
  unfold continueFenced
  dsimp only
  split
  · exact Or.inl rfl
  · exact Or.inr ⟨_, rfl⟩

/-- A line goes on with the open block of text, or starts blocks behind it. -/
theorem step_cases (s : BlockState) (line : SourceLine) (rest : List SourceLine) :
    (∃ leaf, s.leaf = some leaf ∧ Continued s (advance (.ofLine line.text) s.frames.reverse).1
      (advance (.ofLine line.text) s.frames.reverse).2 line rest leaf (s.step line rest)) ∨
    s.step line rest = s.closeLeaf.startLine line rest := by
  unfold step
  rcases hleaf : s.leaf with _ | leaf
  · have hclosed : s.closeLeaf = s := by
      rw [closeLeaf, hleaf]
    rw [hclosed]
    exact Or.inr rfl
  · dsimp only
    split
    · rename_i r hr
      exact Or.inl ⟨leaf, rfl, continueLeaf_eq_some hr⟩
    · exact Or.inr rfl

end DocWeave.Markdown.BlockState

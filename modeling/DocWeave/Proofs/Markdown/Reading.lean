import DocWeave.Proofs.Markdown.Containers
import DocWeave.Proofs.Markdown.Lookahead

/-!
# Lines without a sign

Texts that have been put into a source are shown by its blocks: as they are, if they became HTML,
and escaped, if they became code between fences. Lines without a sign do not change that.

- `Leaf.Holds`: the texts that an open block of text shows so far.
- `BlockState.Shows`: the texts that all blocks show, whether a block of text is open or not.
- `BlockState.Reads`: so much for what a line leaves behind.
- `BlockState.startLine_reads`, `BlockState.continued_reads`: lines that start blocks or go on with one.
- `BlockState.step_shows`: a line without a sign neither adds a text nor loses one.
-/

namespace DocWeave.Markdown

variable {sign : List Char} {ended : Bool} {cs ds es : List (List Char)}

/-! ## Glyphs -/

theorem rawText_append (a b : List Glyph) : rawText (a ++ b) = rawText a ++ rawText b :=
  List.map_append

theorem unmarkedText_append (a b : List Glyph) :
    unmarkedText (a ++ b) = unmarkedText a ++ unmarkedText b := by
  rw [unmarkedText, List.filter_append, List.map_append]
  rfl

theorem unmarkedText_marker (text : List Char) : unmarkedText (glyphs .marker text) = [] := by
  rw [unmarkedText, List.map_eq_nil_iff, List.filter_eq_nil_iff]
  intro g hg
  obtain ⟨c, -, rfl⟩ := List.mem_map.mp hg
  simp

/-- A sign does not reach over a line end. -/
theorem absent_append_lineEnd (h : IsSign sign) {a b : List Char} (ha : ¬ sign <:+: a)
    (hb : ¬ sign <:+: b) {ending : LineEnd} (hending : ending ≠ .source) :
    ¬ sign <:+: a ++ (ending.chars ++ b) := by
  cases ending with
  | source => exact absurd rfl hending
  | lineFeed =>
    rw [LineEnd.chars, List.singleton_append, infix_append_cons h (by decide) (by decide)]
    exact not_or.mpr ⟨ha, hb⟩
  | carriageReturn =>
    rw [LineEnd.chars, List.singleton_append, infix_append_cons h (by decide) (by decide)]
    exact not_or.mpr ⟨ha, hb⟩
  | both =>
    rw [LineEnd.chars, List.cons_append, List.singleton_append,
      infix_append_cons h (by decide) (by decide), ← List.nil_append ('\n' :: b),
      infix_append_cons h (by decide) (by decide)]
    exact not_or.mpr ⟨ha, not_or.mpr ⟨h.absent_nil, hb⟩⟩

/-- Two lines without a sign make glyphs without one, whatever ends the first of them. -/
theorem Signless.append_lineEnd (h : IsSign sign) {a b : List Glyph} (ha : Signless sign a)
    (hb : Signless sign b) {ending : LineEnd} (hending : ending ≠ .source) :
    Signless sign (a ++ (glyphs .content ending.chars ++ b)) := by
  constructor
  · rw [rawText_append, rawText_append, rawText_glyphs]
    exact absent_append_lineEnd h ha.raw hb.raw hending
  · rw [unmarkedText_append, unmarkedText_append, unmarkedText_glyphs (by decide)]
    exact absent_append_lineEnd h ha.unmarked hb.unmarked hending

theorem take_append_of_suffix {text rest : List Char} (hrest : rest <:+ text) :
    text.take (text.length - rest.length) ++ rest = text := by
  obtain ⟨front, rfl⟩ := hrest
  rw [List.length_append, Nat.add_sub_cancel, List.take_left]

theorem infix_append_of_suffix {text rest : List Char} (hrest : rest <:+ text) (after : List Char) :
    rest ++ after <:+: text ++ after := by
  obtain ⟨front, rfl⟩ := hrest
  rw [List.append_assoc]
  exact (List.suffix_append front _).isInfix

/-- The glyphs of a further line are its characters, and all but the marks are those after the
marks. -/
theorem signless_textGlyphs (s : BlockState) (n : Nat) {c : Cursor} {line : SourceLine}
    (hc : c.rest <:+ line.text) (hline : ¬ sign <:+: line.text) :
    Signless sign (s.textGlyphs n c line) := by
  -- The line is split into marks, indentation and text, and how deep the indentation is does not
  -- matter.
  have hlayer : ∀ layer : Layer, layer = .shallow ∨ layer = .indent →
      Signless sign (glyphs .marker (line.text.take (line.text.length - c.rest.length)) ++
        glyphs layer (c.rest.take (c.rest.length - c.skipAll.rest.length)) ++
        glyphs .content c.skipAll.rest) := by
    intro layer hlayer
    have hne : layer ≠ .marker := by rcases hlayer with rfl | rfl <;> decide
    constructor
    · rw [rawText_append, rawText_append, rawText_glyphs, rawText_glyphs, rawText_glyphs,
        List.append_assoc, take_append_of_suffix c.suffix_skipAll, take_append_of_suffix hc]
      exact hline
    · rw [unmarkedText_append, unmarkedText_append, unmarkedText_marker, unmarkedText_glyphs hne,
        unmarkedText_glyphs (by decide), List.nil_append, take_append_of_suffix c.suffix_skipAll]
      exact fun hsign => hline (hsign.trans hc.isInfix)
  unfold BlockState.textGlyphs
  dsimp only
  split
  · exact hlayer _ (Or.inl rfl)
  · exact hlayer _ (Or.inr rfl)

/-- What stands before the text of a further line, with the text, is all of the line. -/
theorem takeWhile_textGlyphs (s : BlockState) (n : Nat) (c : Cursor) (line : SourceLine) :
    (s.textGlyphs n c line).takeWhile (!·.isContent) ++ glyphs .content c.skipAll.rest =
      s.textGlyphs n c line := by
  have hother {layer : Layer} (hlayer : layer ≠ .content) (text : List Char) :
      ∀ g ∈ glyphs layer text, (!g.isContent) = true := by
    intro g hg
    obtain ⟨x, -, rfl⟩ := List.mem_map.mp hg
    simp [Glyph.isContent, hlayer]
  -- Text is not passed over, but everything before it is.
  have hcontent (text : List Char) : (glyphs .content text).takeWhile (!·.isContent) = [] := by
    cases text <;> rfl
  have hsplit (marks indent : List Char) {layer : Layer} (hlayer : layer ≠ .content) :
      (glyphs .marker marks ++ glyphs layer indent ++ glyphs .content c.skipAll.rest).takeWhile
          (!·.isContent) ++ glyphs .content c.skipAll.rest =
        glyphs .marker marks ++ glyphs layer indent ++ glyphs .content c.skipAll.rest := by
    rw [List.append_assoc, List.takeWhile_append_of_pos (hother (by decide) marks),
      List.takeWhile_append_of_pos (hother hlayer indent), hcontent, List.append_nil, List.append_assoc]
  unfold BlockState.textGlyphs
  dsimp only
  split
  · exact hsplit _ _ (by decide)
  · exact hsplit _ _ (by decide)

/-- The content of a paragraph is what has been read of it, up to white space at the end. -/
theorem trimGlyphs_within (read : List Glyph) : (BlockState.trimGlyphs read).1 <+: read.reverse := by
  rw [BlockState.trimGlyphs, List.reverse_prefix]
  exact List.dropWhile_suffix _

/-- The white space at the end becomes marks. -/
theorem trimGlyphs_append (read : List Glyph) {content trimmed : List Glyph}
    (htrim : BlockState.trimGlyphs read = (content, trimmed)) :
    rawText (content ++ trimmed) = rawText read.reverse ∧
      unmarkedText (content ++ trimmed) = unmarkedText content := by
  rw [BlockState.trimGlyphs, Prod.mk.injEq] at htrim
  obtain ⟨rfl, rfl⟩ := htrim
  constructor
  · rw [rawText_append, rawText_glyphs, ← rawText_append, ← List.reverse_append,
      List.takeWhile_append_dropWhile]
  · rw [unmarkedText_append, unmarkedText_marker, List.append_nil]

/-! ## Levels of headings -/

/-- Number signs make headings of six levels. -/
theorem level_of_headingLevel {text : List Char} {level : Nat} (h : headingLevel text = some level) :
    1 ≤ level ∧ level ≤ 6 := by
  unfold headingLevel at h
  obtain ⟨hfits, hlevel⟩ := Option.ite_none_right_eq_some.mp h
  rw [Bool.and_eq_true, Bool.and_eq_true, decide_eq_true_iff, decide_eq_true_iff] at hfits
  rw [← Option.some.inj hlevel]
  exact hfits.1

/-- Underlines make headings of the first two of them. -/
theorem level_of_underlineLevel {text : List Char} {level : Nat}
    (h : underlineLevel text = some level) : 1 ≤ level ∧ level ≤ 6 := by
  unfold underlineLevel at h
  split at h
  · cases h
  · obtain ⟨-, hlevel⟩ := Option.ite_none_right_eq_some.mp h
    rw [← Option.some.inj hlevel]
    split <;> decide

/-! ## Cells -/

/-- Between two bars stands a part of the row. -/
theorem infix_of_mem_splitCells :
    ∀ (text read : List Char), ∀ cell ∈ splitCells read text, cell <:+: read.reverse ++ text
  | [], read => by
    unfold splitCells
    split
    · nofun
    · rw [List.append_nil]
      exact List.forall_mem_singleton.mpr List.infix_rfl
  | c :: rest, read => by
    unfold splitCells
    split
    · refine List.forall_mem_cons.mpr ⟨(List.prefix_append _ _).isInfix, fun cell hcell => ?_⟩
      exact (infix_of_mem_splitCells rest [] cell hcell).trans
        (List.suffix_append_of_suffix (List.suffix_cons c rest)).isInfix
    · intro cell hcell
      rw [List.append_cons, ← List.reverse_cons]
      exact infix_of_mem_splitCells rest (c :: read) cell hcell

/-- A cell stands in its row. -/
theorem infix_of_mem_rowCells {text : List Char} : ∀ cell ∈ rowCells text, cell <:+: text := by
  intro cell hcell
  obtain ⟨whole, hwhole, rfl⟩ := List.mem_map.mp hcell
  have htrimmed : ((whole.dropWhile isSpaceChar).reverse.dropWhile isSpaceChar).reverse <:+: whole := by
    refine List.IsInfix.trans (List.reverse_infix.mpr (List.dropWhile_suffix _).isInfix) ?_
    rw [List.reverse_reverse]
    exact (List.dropWhile_suffix _).isInfix
  refine htrimmed.trans ((infix_of_mem_splitCells _ [] whole hwhole).trans ?_)
  split
  · exact (List.suffix_cons _ _).isInfix
  · exact List.infix_rfl

/-- Cells are left out or added as the header asks, and those that are added are empty. -/
theorem absent_of_mem_fitCells (h : IsSign sign) {width : Nat} {cells : List (List Char)}
    (hcells : ∀ cell ∈ cells, ¬ sign <:+: cell) : ∀ cell ∈ fitCells width cells, ¬ sign <:+: cell := by
  intro cell hcell
  rcases List.mem_append.mp hcell with hcell | hcell
  · exact hcells cell (List.mem_of_mem_take hcell)
  · rw [List.eq_of_mem_replicate hcell]
    exact h.absent_nil

/-! ## Open blocks of text -/

/-- The texts that an open block of text shows so far: code between fences and HTML may show some.
Running text and tables hold no sign. -/
def Leaf.Holds (sign : List Char) (ended : Bool) (leaf : Leaf) (cs : List (List Char)) : Prop :=
  match leaf with
  | .paragraph _ read ending => cs = [] ∧ Signless sign read.reverse ∧ (ended → ending ≠ .source)
  | .definition => cs = []
  | .fenced fence _ read => fence.mark ≠ '<' ∧ 0 < fence.size ∧ ∃ inside, cs = inside.map escapeBody ∧
      Woven (fun _ => True) (fun _ => True) inside read.reverse
  | .indented _ _ => cs = []
  | .html _ read => Shown sign ended cs read.reverse
  | .table _ header rows => cs = [] ∧ (∀ cell ∈ header, ¬ sign <:+: cell) ∧
      ∀ row ∈ rows, ∀ cell ∈ row, ¬ sign <:+: cell

/-- What has been read shows some texts in order. If not all of it has ended, then no line is left.
-/
def BlockState.Shows (sign : List Char) (ended : Bool) (s : BlockState) (cs : List (List Char)) :
    Prop :=
  match s.leaf with
  | none => FramesHold sign ended s.frames s.done cs
  | some leaf => ∃ ds es, cs = ds ++ es ∧ FramesHold sign true s.frames s.done ds ∧
      leaf.Holds sign ended es

namespace BlockState

variable {s : BlockState} {line : SourceLine}

/-- If no block of text is open, the closed blocks show the texts. -/
theorem Idle.shows (hs : s.Idle sign ended cs) : s.Shows sign ended cs := by
  unfold Shows
  rw [hs.leaf]
  exact hs.frames

/-- An open block of text shows its texts behind those of the blocks before it. -/
theorem shows_leaf (hframes : FramesHold sign true s.frames s.done ds) (leaf : Leaf)
    (hleaf : leaf.Holds sign ended es) : Shows sign ended { s with leaf := some leaf } (ds ++ es) :=
  ⟨ds, es, rfl, hframes, hleaf⟩

/-- Of a block of text that shows nothing, nothing is added. -/
theorem shows_leaf_nil (hframes : FramesHold sign true s.frames s.done cs) (leaf : Leaf)
    (hleaf : leaf.Holds sign ended []) : Shows sign ended { s with leaf := some leaf } cs :=
  ⟨cs, [], (List.append_nil cs).symm, hframes, hleaf⟩

/-- A block of text that is closed becomes a block that shows the same. -/
theorem Shows.closeLeaf (h : IsSign sign) (hs : s.Shows sign ended cs) :
    s.closeLeaf.Idle sign ended cs := by
  obtain ⟨done, frames, leaf, definitions, lastBlank, emptyItem⟩ := s
  rcases leaf with _ | leaf
  · exact ⟨rfl, hs⟩
  · obtain ⟨ds, es, rfl, hframes, hleaf⟩ := hs
    have hclosed (lastBlank : Bool) :
        Idle sign true ⟨done, frames, none, definitions, lastBlank, emptyItem⟩ ds := ⟨rfl, hframes⟩
    cases leaf with
    | paragraph task read ending =>
      -- The white space at the end is dropped, so less is shown than has been read.
      obtain ⟨rfl, hread, -⟩ := hleaf
      exact (hclosed lastBlank).add h
        (writes_paragraph h task (hread.mono (trimGlyphs_within read).isInfix))
    | definition =>
      cases hleaf
      rw [List.append_nil]
      exact (hclosed lastBlank).mono h
    | fenced fence info read =>
      obtain ⟨-, -, inside, rfl, hread⟩ := hleaf
      exact (hclosed lastBlank).add h (writes_code h (some info) hread)
    | indented read blank =>
      cases hleaf
      have hempty : Woven (fun _ => True) (fun _ => True) [] read.reverse := .nil trivial
      exact (hclosed !blank.isEmpty).add h (writes_code h none hempty)
    | html stop read => exact (hclosed lastBlank).add h (writes_html hleaf)
    | table columns header rows =>
      obtain ⟨rfl, hheader, hrows⟩ := hleaf
      exact (hclosed lastBlank).add h
        (writes_table h columns hheader fun row hrow => hrows row (List.mem_reverse.mp hrow))

/-- A line of HTML shows what it holds behind what the HTML shows so far. -/
theorem shows_addHtmlLine (h : IsSign sign) (hframes : FramesHold sign true s.frames s.done cs)
    {stop : HtmlStop} {read text : List Char} (hread : Shown sign true ds read.reverse)
    (hline : Shown sign ended es (line.verbatim text).reverse) :
    (s.addHtmlLine stop read text line).Shows sign ended (cs ++ (ds ++ es)) := by
  have hopen : Shows sign ended { s with leaf := some (.html stop (line.verbatim text ++ read)) }
      (cs ++ (ds ++ es)) := by
    refine shows_leaf hframes _ ?_
    show Shown sign ended (ds ++ es) (line.verbatim text ++ read).reverse
    rw [List.reverse_append]
    exact hread.append hline
  unfold addHtmlLine
  dsimp only
  split
  · split
    · exact (hopen.closeLeaf h).shows
    · exact hopen
  · exact hopen

/-! ## Lines without a sign -/

/-- What a line leaves behind when it has been read, perhaps with further lines. If it has not
ended, then all lines have been read with it. -/
def Reads (sign : List Char) (line : SourceLine) (r : BlockState × Nat) (cs : List (List Char)) :
    Prop :=
  ∃ ended, r.1.Shows sign ended cs ∧ (ended = false → ¬ line.Ended ∧ r.2 = line.more)

/-- A line that leaves no block of text open has ended. -/
theorem Idle.reads (hs : s.Idle sign true cs) (line : SourceLine) (k : Nat) :
    Reads sign line (s, k) cs :=
  ⟨true, hs.shows, nofun⟩

/-- So has one that opens a block of text without regard to its end. -/
theorem reads_leaf (hframes : FramesHold sign true s.frames s.done cs) (leaf : Leaf)
    (hleaf : leaf.Holds sign true []) (line : SourceLine) (k : Nat) :
    Reads sign line ({ s with leaf := some leaf }, k) cs :=
  ⟨true, shows_leaf_nil hframes leaf hleaf, nofun⟩

/-- Only running text minds whether its line has ended. -/
theorem reads_paragraph (hframes : FramesHold sign true s.frames s.done cs) (hline : line.Plain sign)
    (task : Option Bool) {read : List Glyph} (hread : Signless sign read.reverse) :
    Reads sign line ({ s with leaf := some (.paragraph task read line.ending) }, 0) cs := by
  -- The source may end on this line, with all further lines read.
  by_cases hending : line.ending = .source
  · obtain ⟨hbeyond, hmore⟩ := hline.last hending
    refine ⟨false, shows_leaf_nil hframes _ ⟨rfl, hread, nofun⟩, fun _ => ⟨?_, hmore.symm⟩⟩
    rw [SourceLine.Ended, hbeyond]
    nofun
  · exact reads_leaf hframes (.paragraph task read line.ending) ⟨rfl, hread, fun _ => hending⟩ line 0

/-- A line of HTML without a sign shows nothing. -/
theorem reads_html (h : IsSign sign) (hframes : FramesHold sign true s.frames s.done cs)
    (stop : HtmlStop) {read text : List Char} (hread : Shown sign true ds read.reverse)
    (htext : ¬ sign <:+: text ++ line.beyond) :
    Reads sign line (s.addHtmlLine stop read text line, line.more) (cs ++ ds) := by
  have hshows {ended : Bool} (hended : ended → line.Ended) :
      (s.addHtmlLine stop read text line).Shows sign ended (cs ++ ds) := by
    rw [← List.append_nil ds]
    exact shows_addHtmlLine h hframes hread (.nil (settled_verbatim h htext hended))
  by_cases hended : line.Ended
  · exact ⟨true, hshows fun _ => hended, nofun⟩
  · exact ⟨false, hshows nofun, fun _ => ⟨hended, rfl⟩⟩

/-- A line without a sign makes a paragraph, or the header of a table, without one. -/
theorem startParagraph_reads (h : IsSign sign) (hframes : FramesHold sign true s.frames s.done cs)
    (hline : line.Plain sign) (task : Option Bool) {before : List Glyph} {text : List Char}
    (hread : Signless sign (before ++ glyphs .content text)) (htext : ¬ sign <:+: text)
    (rest : List SourceLine) :
    Reads sign line (s.startParagraph task before text line.ending rest) cs := by
  unfold startParagraph
  dsimp only
  split
  · rename_i columns _
    have hcells : ∀ cell ∈ rowCells text, ¬ sign <:+: cell := fun cell hcell hsign =>
      htext (hsign.trans (infix_of_mem_rowCells cell hcell))
    exact reads_leaf hframes (.table columns _ []) ⟨rfl, absent_of_mem_fitCells h hcells, nofun⟩ line 1
  · rw [← List.reverse_reverse (before ++ glyphs .content text)] at hread
    exact reads_paragraph hframes hline task hread

/-- Definitions show nothing at all. -/
theorem startText_reads (h : IsSign sign) (hframes : FramesHold sign true s.frames s.done cs)
    (hline : line.Plain sign) {before : List Glyph} {text : List Char}
    (hread : Signless sign (before ++ glyphs .content text)) (htext : ¬ sign <:+: text)
    (rest : List SourceLine) : Reads sign line (s.startText before text line.ending rest) cs := by
  unfold startText
  split
  · rename_i definition lines _
    have hdefined : FramesHold sign true { s with definitions := definition :: s.definitions }.frames
      s.done cs := hframes
    exact reads_leaf hdefined .definition rfl line lines
  · exact startParagraph_reads h hframes hline none hread htext rest

/-- What stands in a heading stands in its line. -/
theorem infix_headingContent (text : List Char) :
    (headingContent text).1 ++ (headingContent text).2 <:+: text := by
  have hlimited : ((text.dropWhile isSpaceChar).reverse.dropWhile (· = ' ')).reverse <:+: text := by
    refine List.IsInfix.trans (List.reverse_infix.mpr (List.dropWhile_suffix _).isInfix) ?_
    rw [List.reverse_reverse]
    exact (List.dropWhile_suffix _).isInfix
  generalize hr : headingContent text = r
  unfold headingContent at hr
  dsimp only at hr
  split at hr
  · rw [← hr]
    exact List.nil_infix
  · rw [← hr, List.append_nil]
    refine List.IsInfix.trans (List.reverse_infix.mpr ?_) hlimited
    exact ((List.dropWhile_suffix _).trans (List.dropWhile_suffix _)).isInfix
  · rw [← hr, ← List.reverse_append, List.takeWhile_append_dropWhile]
    exact hlimited

/-- A fence is a row of accents or tildes, so it has some length and is no start of HTML. -/
theorem CodeFence.ofLine_eq_some {indent : Nat} {text beyond : List Char} {r : CodeFence × List Char}
    (hfence : CodeFence.ofLine indent text beyond = some r) : r.1.mark ≠ '<' ∧ 0 < r.1.size := by
  unfold CodeFence.ofLine at hfence
  split at hfence
  · cases hfence
  · rename_i c rest
    obtain ⟨hmark, hfence⟩ := Option.ite_none_right_eq_some.mp hfence
    obtain ⟨hsize, hfence⟩ := Option.ite_none_right_eq_some.mp hfence
    cases hfence
    refine ⟨?_, ?_⟩
    · rintro rfl
      exact absurd hmark (by decide)
    · rw [Bool.and_eq_true, decide_eq_true_eq] at hsize
      exact Nat.lt_of_lt_of_le (by decide) hsize.1

/-- Whatever block starts on a line without a sign, it shows nothing. -/
theorem startLeaf_reads (h : IsSign sign) (hs : s.Idle sign true cs) (hline : line.Plain sign)
    {c : Cursor} (hc : c.rest <:+ line.text) (rest : List SourceLine) :
    Reads sign line (s.startLeaf c line rest) cs := by
  unfold startLeaf
  split
  · exact (hs.blankLine h).reads line 0
  · extract_lets s'
    have hs' : s'.Idle sign true cs := Idle.finishList h ⟨hs.leaf, hs.frames⟩
    clear_value s'
    have hstart := (c.suffix_skip 4).trans hc
    rcases hskip : c.skip 4 with ⟨indent, start⟩
    rw [hskip] at hstart
    -- All that a block takes of the line is a part of it, where no sign stands.
    have htext {text : List Char} (hpart : text <:+: start.rest) : ¬ sign <:+: text := fun hsign =>
      hline.text (hsign.trans (hpart.trans hstart.isInfix))
    dsimp only
    split
    · exact reads_leaf hs'.frames (.indented _ []) rfl line line.more
    · split
      · -- HTML keeps the text of the line behind some spaces.
        rename_i stop _
        rw [← List.append_nil cs]
        refine reads_html h hs'.frames stop (quiet_nil.shown h) fun hsign => hline.signless ?_
        rw [List.append_assoc] at hsign
        exact (infix_replicate_append h hsign).trans (infix_append_of_suffix hstart line.beyond)
      · split
        · exact (hs'.add_nil h (writes_rule h)).reads line 0
        · split
          · -- A heading leaves out parts at the ends of the line only.
            rename_i level hlevel
            have hallowed := h.allows (level_of_headingLevel hlevel)
            have hcontent := htext ((infix_headingContent _).trans (List.drop_suffix level _).isInfix)
            refine (hs'.add_nil h (writes_heading h hallowed none ⟨?_, ?_⟩)).reads line 0
            · rwa [rawText_append, rawText_glyphs, rawText_glyphs]
            · rwa [unmarkedText_append, unmarkedText_glyphs (by decide),
                unmarkedText_glyphs (by decide)]
          · split
            · rename_i fence info hfence
              obtain ⟨hmark, hsize⟩ := CodeFence.ofLine_eq_some hfence
              exact reads_leaf hs'.frames (.fenced fence (fenceInfo info) [])
                ⟨hmark, hsize, [], rfl, .nil trivial⟩ line line.more
            · have hread := htext List.infix_rfl
              exact startText_reads h hs'.frames hline (signless_glyphs (by decide) hread) hread rest

/-- A line without a sign that starts blocks shows nothing. -/
theorem startLine_reads (h : IsSign sign) (hs : s.Idle sign true cs) (hline : line.Plain sign)
    (rest : List SourceLine) : Reads sign line (s.startLine line rest) cs := by
  have hplace := suffix_advance s.frames.reverse (.ofLine line.text)
  unfold startLine
  rcases hadvance : advance (.ofLine line.text) s.frames.reverse with ⟨n, c⟩
  rw [hadvance] at hplace
  obtain ⟨hopen, hwithin⟩ := Idle.openContainers h line.ending (line.text.length + 1)
    (Idle.closeFrames h (s.frames.length - n) hs) hplace
  dsimp only
  split
  · rename_i s' hcases
    rw [hcases] at hopen
    exact hopen.reads line 0
  · rename_i s' c' hcases
    rw [hcases] at hopen hwithin
    exact startLeaf_reads h hopen hline hwithin rest
  · rename_i s' checked text hcases
    rw [hcases] at hopen hwithin
    have htext : ¬ sign <:+: text := fun hsign =>
      hline.text (hsign.trans (List.IsSuffix.isInfix hwithin))
    exact startParagraph_reads h hopen.frames hline (some checked) (signless_glyphs (by decide) htext)
      htext rest

/-! ## Further lines of a block of text -/

/-- The texts of the closed blocks come before those of the block of text that is open. -/
theorem Shows.of_leaf (hs : s.Shows sign ended cs) {leaf : Leaf} (hleaf : s.leaf = some leaf) :
    ∃ ds es, cs = ds ++ es ∧ FramesHold sign true s.frames s.done ds ∧ leaf.Holds sign ended es := by
  unfold Shows at hs
  rw [hleaf] at hs
  exact hs

/-- A line that underlines a paragraph becomes a mark behind it. -/
theorem underline_reads (h : IsSign sign) (hframes : FramesHold sign true s.frames s.done cs)
    (hline : line.Plain sign) {read : List Glyph} (hread : Signless sign read.reverse)
    {before : LineEnd} (hbefore : before ≠ .source) {level : Nat} (hlevel : Allows sign level)
    (task : Option Bool) :
    Reads sign line ({ s with leaf := none }.add (.heading level task ((trimGlyphs read).1 ++
      (trimGlyphs read).2 ++ glyphs .marker (before.chars ++ line.text))), 0) cs := by
  rcases htrim : trimGlyphs read with ⟨content, trimmed⟩
  obtain ⟨hraw, hunmarked⟩ := trimGlyphs_append read htrim
  have hidle : Idle sign true { s with leaf := none } cs := ⟨rfl, hframes⟩
  refine (hidle.add_nil h (writes_heading h hlevel task ⟨?_, ?_⟩)).reads line 0
  · rw [rawText_append, hraw, rawText_glyphs]
    exact absent_append_lineEnd h hread.raw hline.text hbefore
  · rw [unmarkedText_append, hunmarked, unmarkedText_marker, List.append_nil]
    have hcontent := trimGlyphs_within read
    rw [htrim] at hcontent
    exact (hread.mono hcontent.isInfix).unmarked

/-- Code between fences shows the same behind a further line, and when it is closed. -/
theorem continueFenced_reads (h : IsSign sign) (hs : s.Shows sign true cs) {fence : CodeFence}
    {info read : List Char} (hleaf : s.leaf = some (.fenced fence info read)) (c : Cursor)
    (line : SourceLine) : Reads sign line (s.continueFenced fence info read c line) cs := by
  rcases s.continueFenced_cases fence info read c line with hr | ⟨inside, hr⟩
  · rw [hr]
    exact (hs.closeLeaf h).reads line 0
  · -- Code shows the same texts, whatever line is added.
    rw [hr]
    obtain ⟨ds, es, rfl, hframes, hmark, hsize, inside, rfl, hread⟩ := hs.of_leaf hleaf
    refine ⟨true, shows_leaf hframes _ ⟨hmark, hsize, inside, rfl, ?_⟩, nofun⟩
    rw [List.reverse_append]
    exact hread.concat fun _ => trivial

/-- In whatever way a block of text goes on with a line without a sign, it shows what it has shown
before. -/
theorem continued_reads (h : IsSign sign) (hs : s.Shows sign true cs) (hline : line.Plain sign)
    {leaf : Leaf} (hleaf : s.leaf = some leaf) {n : Nat} {c : Cursor} (hc : c.rest <:+ line.text)
    {rest : List SourceLine} {r : BlockState × Nat} (hr : s.Continued n c line rest leaf r) :
    Reads sign line r cs := by
  obtain ⟨ds, es, rfl, hframes, hholds⟩ := hs.of_leaf hleaf
  cases hr with
  | underline hn hlevel =>
    obtain ⟨rfl, hread, hbefore⟩ := hholds
    rw [List.append_nil]
    exact underline_reads h hframes hline hread (hbefore rfl)
      (h.allows (level_of_underlineLevel hlevel)) _
  | paragraph =>
    -- The line is added to the paragraph, with the line end before it.
    obtain ⟨rfl, hread, hbefore⟩ := hholds
    rw [List.append_nil]
    refine reads_paragraph hframes hline _ ?_
    rw [List.reverse_append, List.reverse_reverse]
    exact hread.append_lineEnd h (signless_textGlyphs s n hc hline.text) (hbefore rfl)
  | definition =>
    cases hholds
    rw [List.append_nil]
    refine startText_reads h hframes hline ?_ (fun hsign => hline.text (hsign.trans ?_)) rest
    · rw [takeWhile_textGlyphs]
      exact signless_textGlyphs s n hc hline.text
    · exact (c.suffix_skipAll.trans hc).isInfix
  | fenced => exact continueFenced_reads h hs hleaf c line
  | indentedText | indentedBlank =>
    cases hholds
    rw [List.append_nil]
    refine reads_leaf hframes _ ?_ line line.more
    rfl
  | html =>
    refine reads_html h hframes _ hholds fun hsign => hline.signless ?_
    rw [Cursor.expanded, List.append_assoc] at hsign
    exact (infix_replicate_append h hsign).trans (infix_append_of_suffix hc line.beyond)
  | table =>
    obtain ⟨rfl, hheader, hrows⟩ := hholds
    rw [List.append_nil]
    have hcells : ∀ cell ∈ rowCells c.skipAll.rest, ¬ sign <:+: cell := fun cell hcell hsign =>
      hline.text (hsign.trans
        ((infix_of_mem_rowCells cell hcell).trans (c.suffix_skipAll.trans hc).isInfix))
    refine reads_leaf hframes _ ?_ line 0
    exact ⟨rfl, hheader, List.forall_mem_cons.mpr ⟨absent_of_mem_fitCells h hcells, hrows⟩⟩

/-- A line without a sign neither adds a text nor loses one. -/
theorem step_shows (h : IsSign sign) (hs : s.Shows sign true cs) (hline : line.Plain sign)
    (rest : List SourceLine) : Reads sign line (s.step line rest) cs := by
  rcases s.step_cases line rest with ⟨leaf, hleaf, hr⟩ | hr
  · exact continued_reads h hs hline hleaf (suffix_advance s.frames.reverse (.ofLine line.text)) hr
  · rw [hr]
    exact startLine_reads h (hs.closeLeaf h) hline rest

end BlockState

end DocWeave.Markdown

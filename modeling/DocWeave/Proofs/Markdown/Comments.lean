import DocWeave.Proofs.Markdown.Reading

/-!
# Comments on lines of their own

A comment that is put into a source on a line of its own, before and after empty lines, comes out as
it is, wherever the line stands: it is HTML even in the middle of a paragraph or of a table. The
only place where it does not is code between fences, where it is escaped.

- `IsComment`: the start of a comment that fits on a line.
- `BlockState.inFence`: whether a line without indentation goes on with code between fences.
- `BlockState.step_comment`: the step for the line of a comment.
- `BlockState.run_shows`, `BlockState.finish_shows`: the lines without a sign, and the end of the
  source.
- `Marked`, `shown_marked`: a source with any number of comments.
-/

namespace DocWeave.Markdown

variable {sign : List Char} {ended : Bool} {c : List Char} {cs : List (List Char)}

/-- The start of a comment that fits on a line. -/
structure IsComment (c : List Char) : Prop where
  opens : ['<', '!', '-', '-'] <+: c
  returnless : '\r' ∉ c
  feedless : '\n' ∉ c

namespace IsComment

variable (hc : IsComment c)
include hc

theorem eq_cons : ∃ body, c = '<' :: '!' :: '-' :: '-' :: body := by
  obtain ⟨body, rfl⟩ := hc.opens
  exact ⟨body, rfl⟩

theorem solid : (Cursor.ofLine c).Solid := by
  obtain ⟨body, rfl⟩ := hc.eq_cons
  refine ⟨rfl, fun x hx => ?_⟩
  cases hx
  decide

/-- No mark of a container stands before a comment, so a line with a comment goes on with lists
only. -/
theorem place (frames : List Frame) : (advance (.ofLine c) frames).2 = .ofLine c := by
  refine advance_of_solid hc.solid ?_ frames
  obtain ⟨body, rfl⟩ := hc.eq_cons
  nofun

/-- A comment starts a block of HTML, even after running text. -/
theorem stop : HtmlStop.ofLineInParagraph c = some (.text "-->".toList) := by
  obtain ⟨body, rfl⟩ := hc.eq_cons
  rfl

/-- So it ends running text, whatever comes next. -/
theorem interrupts (restricted : Bool) (beyond : List Char) (rest : List SourceLine) :
    interrupts restricted c beyond rest = true := by
  unfold Markdown.interrupts
  rw [hc.stop, Option.isSome_some, Bool.or_true]

/-- Nothing but the end of the comment ends the block of HTML. -/
theorem stop_eq : HtmlStop.ofLine c = some (.text "-->".toList) := by
  unfold HtmlStop.ofLine
  rw [hc.stop]

/-- No container starts with a comment. -/
theorem openContainers (s : BlockState) (ending : LineEnd) (fuel : Nat) :
    s.openContainers ending (.ofLine c) (fuel + 1) = (s, .block (.ofLine c)) := by
  have hsolid := hc.solid
  obtain ⟨body, rfl⟩ := hc.eq_cons
  unfold BlockState.openContainers
  rw [hsolid.skip_eq]
  rfl

theorem not_blank : isBlankLine c = false := by
  obtain ⟨body, rfl⟩ := hc.eq_cons
  rfl

/-- On a line of its own, it is HTML up to the end of the comment. -/
theorem startLeaf (s : BlockState) (rest : List SourceLine) :
    s.startLeaf (.ofLine c) (.ofText c) rest =
      (BlockState.addHtmlLine { s with emptyItem := false }.finishList (.text "-->".toList) [] c
        (.ofText c), 0) := by
  unfold BlockState.startLeaf
  rw [show (Cursor.ofLine c).rest = c from rfl, hc.not_blank, if_neg (by decide)]
  have hstop : HtmlStop.ofLine (0, Cursor.ofLine c).2.rest = some (.text "-->".toList) := hc.stop_eq
  dsimp only
  rw [hc.solid.skip_eq, hstop]
  rfl

theorem not_underline : underlineLevel c = none := by
  obtain ⟨body, rfl⟩ := hc.eq_cons
  rfl

theorem not_atEnd : (Cursor.ofLine c).isAtEnd = false := by
  obtain ⟨body, rfl⟩ := hc.eq_cons
  rfl

/-- As HTML and as code, the line is the comment with a line feed. -/
theorem verbatim : ((SourceLine.ofText c).verbatim c).reverse = c ++ ['\n'] := by
  unfold SourceLine.verbatim
  split
  · -- Only a carriage return in front of the line feed would be read differently.
    rename_i x before hall
    rw [SourceLine.ofText, List.reverse_append, List.reverse_singleton, List.singleton_append,
      List.cons.injEq] at hall
    refine absurd ?_ hc.returnless
    rw [← List.mem_reverse, hall.2]
    exact List.mem_cons_self
  · rw [List.reverse_reverse]
    rfl

/-- No fence is closed by a comment. -/
theorem not_closes {fence : CodeFence} (hmark : fence.mark ≠ '<') (hsize : 0 < fence.size) :
    fence.isClosedBy c = false := by
  obtain ⟨body, rfl⟩ := hc.eq_cons
  unfold CodeFence.isClosedBy
  rw [List.takeWhile_cons_of_neg (by simpa using hmark.symm)]
  simp [Nat.not_le.mpr hsize]

end IsComment

/-! ## Containers on the line of a comment -/

/-- Whether a container is a list, perhaps without an open item. -/
def Frame.isList : Frame → Bool
  | .list _ _ _ => true
  | .quote _ | .item _ _ => false

/-- Whether a block of text is code between fences. -/
def Leaf.isFenced : Leaf → Bool
  | .fenced _ _ _ => true
  | _ => false

/-- Whether a line without indentation goes on with code between fences: such code is open, and not
in a quote or in an item, which the line would have to go on with. -/
def BlockState.inFence (s : BlockState) : Bool :=
  s.leaf.any Leaf.isFenced && s.frames.all Frame.isList

/-- Every open item asks for some indentation. -/
theorem FramesHold.indented {frames : List Frame} {done : List Block}
    (hframes : FramesHold sign ended frames done cs) :
    ∀ indent read, Frame.item indent read ∈ frames → 0 < indent := by
  induction frames generalizing ended cs with
  | nil => nofun
  | cons f outer ih =>
    obtain ⟨ds, es, rfl, houter, hf⟩ := hframes
    intro indent read hmem
    rcases List.mem_cons.mp hmem with rfl | hmem
    · exact hf.1
    · exact ih houter indent read hmem

/-- A comment goes on with all containers if these are lists. -/
theorem IsComment.advance_eq_length (hc : IsComment c) {frames : List Frame}
    (hindent : ∀ indent read, Frame.item indent read ∈ frames → 0 < indent) :
    (advance (.ofLine c) frames).1 = frames.length ↔ frames.all Frame.isList := by
  induction frames with
  | nil => exact ⟨fun _ => rfl, fun _ => rfl⟩
  | cons f inner ih =>
    have hinner := ih fun indent read hmem => hindent indent read (List.mem_cons_of_mem _ hmem)
    rw [List.all_cons, Bool.and_eq_true, ← hinner, List.length_cons, advance]
    cases f with
    | quote done =>
      have hnone : (Frame.quote done).advance? (.ofLine c) = none := by
        obtain ⟨body, hbody⟩ := hc.eq_cons
        unfold Frame.advance?
        rw [hc.solid.skip_eq, hbody]
        rfl
      rw [hnone]
      simp [Frame.isList]
    | item indent done =>
      have hnone : (Frame.item indent done).advance? (.ofLine c) = none := by
        have hpos := hindent indent done List.mem_cons_self
        unfold Frame.advance?
        dsimp only
        rw [hc.solid.skip_eq, hc.not_atEnd, Bool.or_false, decide_eq_false hpos.ne]
        rfl
      rw [hnone]
      simp [Frame.isList]
    | list marker tight items =>
      show (advance (Cursor.ofLine c) inner).1 + 1 = inner.length + 1 ↔ _
      rw [Nat.add_right_cancel_iff]
      exact ⟨fun hlen => ⟨rfl, hlen⟩, fun hlen => hlen.2⟩

namespace BlockState

variable {s : BlockState}

/-! ## The line of a comment -/

/-- Behind what HTML shows so far, the line of a comment shows the comment. -/
theorem shows_addComment (h : IsSign sign) (hc : IsComment c) {ds : List (List Char)}
    (hframes : FramesHold sign true s.frames s.done cs) (stop : HtmlStop) {read : List Char}
    (hread : Shown sign true ds read.reverse) :
    (s.addHtmlLine stop read c (.ofText c)).Shows sign true (cs ++ (ds ++ [c])) := by
  refine shows_addHtmlLine h hframes hread ?_
  rw [hc.verbatim, ← List.nil_append (c ++ ['\n'])]
  exact .cons c quiet_nil (.nil ((quiet_of_opensTags h (by decide)).settled h))

/-- A comment closes what it does not go on with, and starts a block of HTML that shows it. -/
theorem startLine_comment (h : IsSign sign) (hc : IsComment c) (hs : s.Idle sign true cs) :
    ∃ s', (∀ rest, s.startLine (.ofText c) rest = (s', 0)) ∧ s'.Shows sign true (cs ++ [c]) := by
  generalize hcount : s.frames.length - (advance (Cursor.ofLine c) s.frames.reverse).1 = count
  have hclosed := Idle.closeFrames h count hs
  have hs' : Idle sign true { s.closeFrames count with emptyItem := false }.finishList cs :=
    Idle.finishList h ⟨hclosed.leaf, hclosed.frames⟩
  have hempty : Shown sign true [] ([] : List Char).reverse := quiet_nil.shown h
  refine ⟨_, fun rest => ?_, shows_addComment h hc hs'.frames (.text "-->".toList) hempty⟩
  unfold startLine
  dsimp only
  rw [show (SourceLine.ofText c).text = c from rfl, hcount, hc.place, hc.openContainers]
  exact hc.startLeaf _ rest

/-- Running text and tables do not go on with a comment, nor does code that is set apart by its
indentation. -/
theorem continueLeaf_comment (hc : IsComment c) {leaf : Leaf} {n : Nat} {rest : List SourceLine}
    {r : BlockState × Nat} (hr : s.continueLeaf leaf n (.ofLine c) (.ofText c) rest = some r) :
    n = s.frames.length ∧
      ((∃ fence info read, leaf = .fenced fence info read ∧
          r = s.continueFenced fence info read (.ofLine c) (.ofText c)) ∨
        ∃ stop read, leaf = .html stop read ∧ r = (s.addHtmlLine stop read c (.ofText c), 0)) := by
  have hplace : (Cursor.ofLine c).skip 4 = (0, .ofLine c) := hc.solid.skip_eq 4
  have hends (whole : Bool) (beyond : List Char) :
      s.endsText whole ((Cursor.ofLine c).skip 4).2.rest beyond rest = true := by
    unfold endsText
    rw [hplace, show (Cursor.ofLine c).rest = c from rfl, hc.interrupts, Bool.true_or]
  have hcolumns : ((Cursor.ofLine c).skip 4).1 < 4 := by
    rw [hplace]
    exact Nat.zero_lt_succ 3
  cases continueLeaf_eq_some hr with
  | underline hn hlevel =>
    rw [hplace] at hlevel
    cases hc.not_underline.symm.trans hlevel
  | paragraph hnot => cases (hends _ _).symm.trans (hnot hcolumns)
  | definition hnot => cases (hends _ _).symm.trans (hnot hcolumns)
  | fenced hn => exact ⟨hn, Or.inl ⟨_, _, _, rfl, rfl⟩⟩
  | indentedText hn hcode | indentedBlank hn hcode =>
    rw [hplace] at hcode
    rcases hcode with hcode | hcode
    · cases hcode
    · cases hc.not_atEnd.symm.trans hcode
  | html hn => exact ⟨hn, Or.inr ⟨_, _, rfl, rfl⟩⟩
  | table hn hrow =>
    have htext : (Cursor.ofLine c).skipAll.rest = c := by
      obtain ⟨body, rfl⟩ := hc.eq_cons
      rfl
    rw [htext, hc.interrupts] at hrow
    cases hrow

/-- Inside a fence, the comment is a line of code. -/
theorem continueFenced_comment (hc : IsComment c) {fence : CodeFence} (hmark : fence.mark ≠ '<')
    (hsize : 0 < fence.size) (info read : List Char) :
    s.continueFenced fence info read (.ofLine c) (.ofText c) =
      ({ s with leaf := some (.fenced fence info ((SourceLine.ofText c).verbatim c ++ read)) }, 0) := by
  unfold continueFenced
  dsimp only
  rw [hc.solid.skip_eq]
  dsimp only
  rw [hc.solid.skip_eq, hc.not_atEnd]
  show (if (_ && (fence.isClosedBy c || false)) = true then _ else _) = _
  rw [hc.not_closes hmark hsize, Bool.false_or, Bool.and_false]
  rfl

/-- The lines below a comment do not matter to it. -/
theorem continueLeaf_comment_congr (hc : IsComment c) (leaf : Leaf) (n : Nat)
    (rest rest' : List SourceLine) :
    s.continueLeaf leaf n (.ofLine c) (.ofText c) rest =
      s.continueLeaf leaf n (.ofLine c) (.ofText c) rest' := by
  -- Besides code between fences and HTML, nothing goes on with a comment at all.
  have hnone (hleaf : leaf.isFenced = false ∧ ∀ stop read, leaf ≠ .html stop read)
      (rest : List SourceLine) : s.continueLeaf leaf n (.ofLine c) (.ofText c) rest = none := by
    refine Option.eq_none_iff_forall_ne_some.mpr fun r hr => ?_
    obtain ⟨-, ⟨fence, info, read, rfl, -⟩ | ⟨stop, read, rfl, -⟩⟩ := continueLeaf_comment hc hr
    · cases hleaf.1
    · exact hleaf.2 stop read rfl
  cases leaf with
  | paragraph task read before => rw [hnone ⟨rfl, nofun⟩, hnone ⟨rfl, nofun⟩]
  | definition => rw [hnone ⟨rfl, nofun⟩, hnone ⟨rfl, nofun⟩]
  | fenced fence info read => rfl
  | indented read blank => rfl
  | html stop read => rfl
  | table columns header rows => rfl

/-- Code between fences goes on with a comment, unless it is in a quote or an item. -/
theorem not_inFence_of_continueLeaf {leaf : Leaf} (hleaf : s.leaf = some leaf) {n : Nat}
    (hcount : n = s.frames.length ↔ s.frames.all Frame.isList) {rest : List SourceLine}
    (hr : s.continueLeaf leaf n (.ofLine c) (.ofText c) rest = none) : s.inFence = false := by
  rw [inFence, hleaf, Bool.and_eq_false_imp]
  intro hfenced
  rw [Bool.eq_false_iff, ne_eq, ← hcount]
  intro hn
  cases leaf with
  | fenced fence info read =>
    unfold continueLeaf at hr
    rw [hn, decide_eq_true rfl] at hr
    cases hr
  | _ => cases hfenced

/-- A block of text that goes on with a comment shows it, as it is or, inside a fence, escaped. -/
theorem shows_continueLeaf (h : IsSign sign) (hc : IsComment c) (hs : s.Shows sign true cs)
    {leaf : Leaf} (hleaf : s.leaf = some leaf) {n : Nat}
    (hcount : n = s.frames.length ↔ s.frames.all Frame.isList) {rest : List SourceLine}
    {r : BlockState × Nat} (hr : s.continueLeaf leaf n (.ofLine c) (.ofText c) rest = some r) :
    r.2 = 0 ∧ r.1.Shows sign true (cs ++ [if s.inFence then escapeBody c else c]) := by
  obtain ⟨ds, es, rfl, hframes, hholds⟩ := hs.of_leaf hleaf
  obtain ⟨hn, ⟨fence, info, read, rfl, rfl⟩ | ⟨stop, read, rfl, rfl⟩⟩ := continueLeaf_comment hc hr
  · obtain ⟨hmark, hsize, inside, rfl, hread⟩ := hholds
    have hfence : s.inFence = true := by
      rw [inFence, hleaf, hcount.mp hn]
      rfl
    rw [hfence, if_pos rfl, continueFenced_comment hc hmark hsize, List.append_assoc]
    refine ⟨rfl, shows_leaf hframes _ ⟨hmark, hsize, inside ++ [c], ?_, ?_⟩⟩
    · rw [List.map_append, List.map_singleton]
    · rw [List.reverse_append, hc.verbatim, ← List.nil_append (c ++ ['\n'])]
      exact hread.append (fun _ _ => trivial) (fun _ _ => trivial) (.cons c trivial (.nil trivial))
  · have hout : s.inFence = false := by
      rw [inFence, hleaf]
      rfl
    rw [hout, List.append_assoc]
    exact ⟨rfl, shows_addComment h hc hframes stop hholds⟩

/-- A comment on its line is added behind what has been read, as it is or, inside a fence, escaped.
-/
theorem step_comment (h : IsSign sign) (hc : IsComment c) (hs : s.Shows sign true cs) :
    ∃ s', (∀ rest, s.step (.ofText c) rest = (s', 0)) ∧
      s'.Shows sign true (cs ++ [if s.inFence then escapeBody c else c]) := by
  unfold step
  rcases hleaf : s.leaf with _ | leaf
  · have hframes := hs
    unfold Shows at hframes
    rw [hleaf] at hframes
    have hout : s.inFence = false := by
      rw [inFence, hleaf]
      rfl
    rw [hout]
    exact startLine_comment h hc ⟨hleaf, hframes⟩
  · -- A block of text is open: it goes on with the comment, or the comment starts a block of HTML.
    dsimp only
    rw [show (SourceLine.ofText c).text = c from rfl, hc.place]
    have hcount : (advance (.ofLine c) s.frames.reverse).1 = s.frames.length ↔
        s.frames.all Frame.isList := by
      obtain ⟨_, _, -, hframes, -⟩ := hs.of_leaf hleaf
      rw [← List.length_reverse, ← List.all_reverse, hc.advance_eq_length]
      exact fun indent read hmem => hframes.indented indent read (List.mem_reverse.mp hmem)
    generalize (advance (.ofLine c) s.frames.reverse).1 = n at hcount ⊢
    simp only [fun rest => continueLeaf_comment_congr (s := s) hc leaf n rest []]
    rcases hr : s.continueLeaf leaf n (.ofLine c) (.ofText c) [] with _ | r
    · rw [not_inFence_of_continueLeaf hleaf hcount hr]
      exact startLine_comment h hc (hs.closeLeaf h)
    · obtain ⟨hnone, hshows⟩ := shows_continueLeaf h hc hs hleaf hcount hr
      exact ⟨r.1, fun _ => Prod.ext rfl hnone, hshows⟩

/-! ## All lines -/

/-- Lines that have been read with an earlier one change nothing. -/
theorem run_length (s : BlockState) : ∀ lines : List SourceLine, s.run lines.length lines = s
  | [] => rfl
  | _ :: rest => run_length s rest

/-- Lines without a sign neither add a text nor lose one. -/
theorem run_shows (h : IsSign sign) : ∀ {lines : List SourceLine} {s : BlockState} (k : Nat),
    Proper lines → (∀ line ∈ lines, line.Plain sign) → s.Shows sign true cs →
    ∃ ended, (s.run k lines).Shows sign ended cs ∧ ((∀ line ∈ lines, line.Ended) → ended = true)
  | [], s, _, _, _, hs => ⟨true, hs, fun _ => rfl⟩
  | line :: rest, s, k + 1, ⟨_, _, hproper⟩, hplain, hs => by
    obtain ⟨ended, hshows, hended⟩ :=
      run_shows h k hproper (fun l hl => hplain l (List.mem_cons_of_mem _ hl)) hs
    exact ⟨ended, hshows, fun hall => hended fun l hl => hall l (List.mem_cons_of_mem _ hl)⟩
  | line :: rest, s, 0, ⟨_, hmore, hproper⟩, hplain, hs => by
    obtain ⟨ended, hshows, hlast⟩ := step_shows h hs (hplain line List.mem_cons_self) rest
    unfold run
    dsimp only
    cases ended with
    | true =>
      obtain ⟨ended, hshows, hended⟩ := run_shows h (s.step line rest).2 hproper
        (fun l hl => hplain l (List.mem_cons_of_mem _ hl)) hshows
      exact ⟨ended, hshows, fun hall => hended fun l hl => hall l (List.mem_cons_of_mem _ hl)⟩
    | false =>
      -- The line has not ended, so all lines below have been read with it.
      obtain ⟨hopen, hcount⟩ := hlast rfl
      rw [hcount, hmore hopen, run_length]
      exact ⟨false, hshows, fun hall => absurd (hall line List.mem_cons_self) hopen⟩

theorem length_add (s : BlockState) (b : Markdown.Block) :
    (s.add b).frames.length = s.frames.length := by
  unfold add
  split <;> simp_all

theorem length_closeFrame (s : BlockState) : s.closeFrame.frames.length = s.frames.length - 1 := by
  unfold closeFrame
  split
  · simp_all
  · simp_all [length_add]
  · simp_all
  · simp_all [length_add]
  · simp_all [length_add]

theorem length_closeFrames : ∀ (n : Nat) (s : BlockState),
    (s.closeFrames n).frames.length = s.frames.length - n
  | 0, _ => rfl
  | n + 1, s => by
    rw [closeFrames, length_closeFrames n, length_closeFrame, Nat.sub_sub, Nat.add_comm]

/-- At the end of a source, all blocks are complete. -/
theorem finish_shows (h : IsSign sign) (hs : s.Shows sign ended cs) :
    WritesAll sign ended s.finish.done.reverse cs := by
  -- As many containers are closed as are open, so none is left.
  have hframes := (Idle.closeFrames h s.closeLeaf.frames.length (hs.closeLeaf h)).frames
  have hnil : s.finish.frames = [] := by
    rw [← List.length_eq_zero_iff, finish, length_closeFrames, Nat.sub_self]
  change FramesHold sign ended s.finish.frames s.finish.done cs at hframes
  rwa [hnil] at hframes

end BlockState

/-! ## Sources with comments -/

/-- A source that has comments behind its parts, each on a line of its own. -/
def withComments (parts : List (List Char × List Char)) (last : List Char) : List Char :=
  match parts with
  | [] => last
  | (text, c) :: rest => text ++ (c ++ '\n' :: withComments rest last)

/-- Whether a line without indentation would go on with code between fences behind a source. -/
def fenceAfter (source : List Char) : Bool :=
  (BlockState.run {} 0 (splitLines source)).inFence

/-- What is shown of the comments: inside a fence they are escaped. `before` stands before the
parts. -/
def commentsShown (before : List Char) : List (List Char × List Char) → List (List Char)
  | [] => []
  | (text, c) :: rest =>
    (if fenceAfter (before ++ text) then escapeBody c else c) ::
      commentsShown (before ++ (text ++ (c ++ ['\n']))) rest

/-- A part without a sign that ends with an empty line, and the comment behind it. -/
structure IsPart (sign text c : List Char) : Prop where
  ends : ∃ lines, text = lines ++ ['\n'] ∧ EndsLine lines
  signless : ¬ sign <:+: text
  comment : IsComment c

/-- What follows a source is read from a state in which some texts are shown. -/
structure Reached (sign before : List Char) (s : BlockState) (cs : List (List Char)) : Prop where
  run : ∀ after, BlockState.run {} 0 (splitLines before ++ after) = s.run 0 after
  ends : EndsLine before
  shows : s.Shows sign true cs

theorem reached_nil (h : IsSign sign) : Reached sign [] {} [] :=
  ⟨fun _ => rfl, Or.inl rfl, writesAll_nil h⟩

theorem endsLine_concat (text : List Char) : EndsLine (text ++ ['\n']) :=
  Or.inr List.getLast?_concat

/-- Behind a part and its comment, one more text is shown. -/
theorem Reached.part (h : IsSign sign) {before text : List Char} {s : BlockState}
    (hs : Reached sign before s cs) (hpart : IsPart sign text c) :
    ∃ s', Reached sign (before ++ (text ++ (c ++ ['\n']))) s'
      (cs ++ [if fenceAfter (before ++ text) then escapeBody c else c]) := by
  obtain ⟨lines, rfl, hlines⟩ := hpart.ends
  have hsplit : splitLines (lines ++ ['\n']) = splitLines lines ++ [emptyLine] :=
    splitLines_append hlines
  have hended := ended_of_mem_splitLines (endsLine_concat lines)
  obtain ⟨ended, hshows, hall⟩ := BlockState.run_shows h 0 (proper_splitLines _)
    (plain_of_mem_splitLines hpart.signless) hs.shows
  -- The part ends with a line end, so nothing of it is waiting for more.
  obtain rfl := hall hended
  obtain ⟨s', hstep, hshows'⟩ := BlockState.step_comment h hpart.comment hshows
  refine ⟨s', ⟨fun after => ?_, ?_, ?_⟩⟩
  · rw [splitLines_append hs.ends, splitLines_append (endsLine_concat lines),
      splitLines_ofText hpart.comment.returnless hpart.comment.feedless, List.append_assoc, hs.run,
      hsplit, List.append_assoc, List.append_assoc]
    -- The part is read apart from its comment, since it ends with an empty line.
    show s.run 0 (splitLines lines ++ emptyLine :: .ofText c :: after) = _
    rw [BlockState.run_append (proper_splitLines lines), ← hsplit, BlockState.run]
    dsimp only
    rw [hstep]
  · rw [← List.append_assoc, ← List.append_assoc]
    exact endsLine_concat _
  · rw [fenceAfter, splitLines_append hs.ends, hs.run]
    exact hshows'

/-- All comments are shown, by induction on the parts, and the last part adds none. -/
theorem Reached.shown (h : IsSign sign) {last : List Char} (hlast : ¬ sign <:+: last) :
    ∀ {parts : List (List Char × List Char)} {before : List Char} {s : BlockState}
      {cs : List (List Char)}, Reached sign before s cs → (∀ p ∈ parts, IsPart sign p.1 p.2) →
      Shown sign false (cs ++ commentsShown before parts) (render (before ++ withComments parts last))
  | [], before, s, cs, hs, _ => by
    obtain ⟨ended, hshows, -⟩ := BlockState.run_shows h 0 (proper_splitLines _)
      (plain_of_mem_splitLines hlast) hs.shows
    have hblocks := BlockState.finish_shows h hshows
    rw [← hs.run, ← splitLines_append hs.ends] at hblocks
    have hshown : Shown sign ended cs (render (before ++ last)) := shown_render hblocks
    rw [commentsShown, List.append_nil, withComments]
    cases ended with
    | true => exact hshown.mono h
    | false => exact hshown
  | (text, c) :: rest, before, s, cs, hs, hparts => by
    obtain ⟨hpart, hrest⟩ := List.forall_mem_cons.mp hparts
    obtain ⟨s', hs'⟩ := hs.part h hpart
    have hshown := hs'.shown h hlast hrest
    rw [List.append_assoc, List.append_assoc, List.append_assoc, List.append_assoc] at hshown
    exact hshown

/-- The HTML of a source shows its comments, in this order, and no sign stands elsewhere in it. -/
theorem shown_withComments (h : IsSign sign) {parts : List (List Char × List Char)} {last : List Char}
    (hparts : ∀ p ∈ parts, IsPart sign p.1 p.2) (hlast : ¬ sign <:+: last) :
    Shown sign false (commentsShown [] parts) (render (withComments parts last)) :=
  (reached_nil h).shown h hlast hparts

end DocWeave.Markdown

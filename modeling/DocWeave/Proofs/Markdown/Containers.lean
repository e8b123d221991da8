import DocWeave.Markdown.Block
import DocWeave.Proofs.Markdown.Lines
import DocWeave.Proofs.Markdown.Written

/-!
# Texts in open containers

Between two lines, the blocks that have been read are spread over the open containers. In the order
of the source, those outside of containers come first, then those in the outermost container, and so
on inwards.

- `FramesHold`: which texts the blocks show that have been read, in this order.
- `BlockState.Idle`: these are all, since no block of text is open.
- `Idle.add`, `Idle.closeFrame`, `Idle.continueList`: adding blocks, closing and opening containers
  neither loses a text nor moves it.
- `Idle.openContainers`: nor do the marks of containers on a line.
-/

namespace DocWeave.Markdown

variable {sign : List Char} {ended : Bool} {cs ds : List (List Char)}

/-- The blocks in a container show some texts in order. Items ask for some indentation. -/
def Frame.Holds (sign : List Char) (ended : Bool) (f : Frame) (cs : List (List Char)) : Prop :=
  match f with
  | .quote done => WritesAll sign ended done.reverse cs
  | .item indent done => 0 < indent ∧ WritesAll sign ended done.reverse cs
  | .list _ _ items => WritesItems sign items.reverse cs

/-- The blocks outside of containers and in containers, innermost first, show some texts in order.
-/
def FramesHold (sign : List Char) (ended : Bool) (frames : List Frame) (done : List Block)
    (cs : List (List Char)) : Prop :=
  match frames with
  | [] => WritesAll sign ended done.reverse cs
  | f :: outer => ∃ ds es, cs = ds ++ es ∧ FramesHold sign true outer done ds ∧ f.Holds sign ended es

/-- No block of text is open, and what has been read shows some texts in order. -/
structure BlockState.Idle (sign : List Char) (ended : Bool) (s : BlockState) (cs : List (List Char)) :
    Prop where
  leaf : s.leaf = none
  frames : FramesHold sign ended s.frames s.done cs

section Sign

variable (h : IsSign sign)
include h

/-- What a container holds may also be taken for a text that has not ended. -/
theorem Frame.Holds.mono {f : Frame} (hf : f.Holds sign true cs) : f.Holds sign ended cs := by
  cases f with
  | quote done => exact WritesAll.mono h hf
  | item indent done => exact ⟨hf.1, WritesAll.mono h hf.2⟩
  | list marker tight items => exact hf

theorem FramesHold.mono {frames : List Frame} {done : List Block}
    (hframes : FramesHold sign true frames done cs) : FramesHold sign ended frames done cs := by
  cases frames with
  | nil => exact WritesAll.mono h hframes
  | cons f outer =>
    obtain ⟨ds, es, rfl, houter, hf⟩ := hframes
    exact ⟨ds, es, rfl, houter, hf.mono h⟩

namespace BlockState

variable {s : BlockState}

theorem Idle.mono (hs : s.Idle sign true cs) : s.Idle sign ended cs :=
  ⟨hs.leaf, hs.frames.mono h⟩

/-! ## Adding blocks -/

/-- A block that is added comes last. -/
theorem Idle.add (hs : s.Idle sign true cs) {b : Block} (hb : b.Writes sign ended ds) :
    (s.add b).Idle sign ended (cs ++ ds) := by
  obtain ⟨done, frames, leaf, definitions, lastBlank, emptyItem⟩ := s
  obtain ⟨hleaf, hframes⟩ := hs
  refine ⟨?_, ?_⟩
  · rcases frames with _ | ⟨_ | _ | _, outer⟩ <;> exact hleaf
  · -- The block goes into the innermost container, whose texts come last; in a list it makes an item.
    rcases frames with _ | ⟨done' | ⟨indent, done'⟩ | ⟨marker, tight, items⟩, outer⟩
    · show WritesAll sign ended (b :: done).reverse (cs ++ ds)
      rw [List.reverse_cons]
      exact WritesAll.concat hframes hb
    · obtain ⟨as, es, rfl, houter, hf⟩ := hframes
      refine ⟨as, es ++ ds, List.append_assoc as es ds, houter, ?_⟩
      show WritesAll sign ended (b :: done').reverse (es ++ ds)
      rw [List.reverse_cons]
      exact WritesAll.concat hf hb
    · obtain ⟨as, es, rfl, houter, hindent, hf⟩ := hframes
      refine ⟨as, es ++ ds, List.append_assoc as es ds, houter, hindent, ?_⟩
      rw [List.reverse_cons]
      exact WritesAll.concat hf hb
    · obtain ⟨as, es, rfl, houter, hf⟩ := hframes
      refine ⟨as, es ++ ds, List.append_assoc as es ds, houter, ?_⟩
      show WritesItems sign ([b] :: items).reverse (es ++ ds)
      rw [List.reverse_cons]
      exact WritesItems.concat h hf (WritesAll.concat (writesAll_nil h) hb)

/-- A block may show no text. -/
theorem Idle.add_nil (hs : s.Idle sign true cs) {b : Block} (hb : b.Writes sign ended []) :
    (s.add b).Idle sign ended cs := by
  rw [← List.append_nil cs]
  exact hs.add h hb

/-! ## Closing containers -/

/-- A container that is closed becomes a block that comes last. -/
theorem Idle.closeFrame (hs : s.Idle sign ended cs) : s.closeFrame.Idle sign ended cs := by
  obtain ⟨done, frames, leaf, definitions, lastBlank, emptyItem⟩ := s
  obtain ⟨rfl, hframes⟩ := hs
  rcases frames with _ | ⟨done' | ⟨indent, done'⟩ | ⟨marker, tight, items⟩, outer⟩
  · -- There is nothing to close.
    exact ⟨rfl, hframes⟩
  · obtain ⟨as, es, rfl, houter, hf⟩ := hframes
    exact Idle.add (s := ⟨done, outer, none, definitions, lastBlank, emptyItem⟩) h ⟨rfl, houter⟩
      (writes_quote h hf)
  · -- An item outside of a list would become a list of its own.
    obtain ⟨as, es, rfl, houter, -, hf⟩ := hframes
    have hlist : (Block.list none true [done'.reverse]).Writes sign ended es :=
      writes_list h none true ((writesItems_nil h).concat h hf)
    rcases outer with _ | ⟨done'' | ⟨indent'', done''⟩ | ⟨marker, tight, items⟩, outer⟩
    · exact Idle.add (s := ⟨done, [], none, definitions, lastBlank, emptyItem⟩) h ⟨rfl, houter⟩ hlist
    · exact Idle.add (s := ⟨done, .quote done'' :: outer, none, definitions, lastBlank, emptyItem⟩) h
        ⟨rfl, houter⟩ hlist
    · exact Idle.add
        (s := ⟨done, .item indent'' done'' :: outer, none, definitions, lastBlank, emptyItem⟩) h
        ⟨rfl, houter⟩ hlist
    · -- The item goes to the list around it, with which it stays open.
      obtain ⟨as, bs, rfl, houter, hitems⟩ := houter
      refine ⟨rfl, as, bs ++ es, List.append_assoc as bs es, houter, ?_⟩
      show WritesItems sign (done'.reverse :: items).reverse (bs ++ es)
      rw [List.reverse_cons]
      exact hitems.concat h hf
  · obtain ⟨as, es, rfl, houter, hf⟩ := hframes
    exact Idle.add (s := ⟨done, outer, none, definitions, lastBlank, emptyItem && !tight⟩) h
      ⟨rfl, houter⟩ (writes_list h _ _ hf)

theorem Idle.closeFrames : ∀ (n : Nat) {s : BlockState}, s.Idle sign ended cs →
    (s.closeFrames n).Idle sign ended cs
  | 0, _, hs => hs
  | n + 1, _, hs => Idle.closeFrames n (hs.closeFrame h)

/-! ## Opening containers -/

/-- If the innermost container is a list, it is closed; no text moves. -/
theorem Idle.finishList (hs : s.Idle sign true cs) : s.finishList.Idle sign true cs := by
  unfold BlockState.finishList
  extract_lets s' frames
  have hs' : s'.Idle sign true cs := by
    dsimp only [s']
    split
    · exact hs.closeFrame h
    · exact hs
  clear_value s'
  split
  · refine ⟨hs'.leaf, ?_⟩
    have hframes := hs'.frames
    dsimp only [frames]
    split
    · rename_i hcases
      rw [hcases] at hframes
      exact hframes
    · exact hframes
  · exact hs'

omit h in
/-- A container that has just been opened shows nothing. -/
theorem Idle.push (hs : s.Idle sign true cs) {f : Frame} (hf : f.Holds sign true []) :
    BlockState.Idle sign true { s with frames := f :: s.frames } cs :=
  ⟨hs.leaf, cs, [], (List.append_nil cs).symm, hs.frames, hf⟩

/-- An item joins the list that is open, or opens one of its own. -/
theorem Idle.continueList (hs : s.Idle sign true cs) (marker : ListMarker) :
    (s.continueList marker).Idle sign true cs := by
  -- A list of the same kind goes on; else the list that is open, if any, is closed and a new one
  -- opened.
  have hopen {s : BlockState} (hs : s.Idle sign true cs) :
      BlockState.Idle sign true
        { s with frames := .list marker true [] :: s.frames, lastBlank := false } cs :=
    have hpush := hs.push (f := .list marker true []) (writesItems_nil h)
    ⟨hpush.leaf, hpush.frames⟩
  unfold BlockState.continueList
  split
  · rename_i existing tight items outer hcases
    split
    · have hframes := hs.frames
      rw [hcases] at hframes
      exact ⟨hs.leaf, hframes⟩
    · exact hopen (hs.finishList h)
  · exact hopen (hs.finishList h)
  · rename_i hcases
    have hs' := hopen hs
    rw [hcases] at hs'
    exact hs'

/-- A blank line shows nothing. It may close an item that has been empty. -/
theorem Idle.blankLine (hs : s.Idle sign true cs) : s.blankLine.Idle sign true cs := by
  unfold BlockState.blankLine
  split
  · exact hs
  · split
    · exact ⟨(hs.closeFrame h).leaf, (hs.closeFrame h).frames⟩
    · exact ⟨hs.leaf, hs.frames⟩
  · exact ⟨hs.leaf, hs.frames⟩

end BlockState

end Sign

/-! ## Marks of containers -/

/-- What follows the mark of an item is the end of its line, and an item asks for some indentation. -/
theorem ListMarker.readAt_eq_some {indent : Nat} {c : Cursor} {r : ListMarker × Cursor × Nat}
    (hread : ListMarker.readAt indent c = some r) : r.2.1.rest <:+ c.rest ∧ 0 < r.2.2 := by
  unfold ListMarker.readAt at hread
  split at hread
  · cases hread
  · rename_i marker' _
    split at hread
    · cases hread
    · extract_lets after width at hread
      have hafter : after.rest <:+ c.rest := List.drop_suffix _ _
      have hstart := (after.suffix_skip 1).trans hafter
      have hwidth : 0 < indent + marker'.size + 1 := Nat.succ_pos _
      rcases hskip : after.skip 1 with ⟨gap, start⟩
      rw [hskip] at hread hstart
      dsimp only at hread
      split at hread
      · split at hread
        · cases hread
          exact ⟨hstart, hwidth⟩
        · have htext := (start.suffix_skip 4).trans hstart
          split at hread
          · cases hread
            exact ⟨htext, Nat.lt_of_lt_of_le hwidth (Nat.le_add_right _ _)⟩
          · cases hread
            exact ⟨hstart, hwidth⟩
      · cases hread

theorem suffix_readTaskMark {ending : LineEnd} {c : Cursor} {r : Bool × Cursor}
    (hread : readTaskMark ending c = some r) : r.2.rest <:+ c.rest := by
  have hskip := c.suffix_skip 3
  unfold readTaskMark at hread
  dsimp only at hread
  split at hread
  · rename_i x rest hrest
    rw [hrest] at hskip
    split at hread
    · obtain ⟨-, hr⟩ := Option.ite_none_right_eq_some.mp hread
      cases hr
      exact (List.suffix_append ['[', x, ']'] rest).trans hskip
    · cases hread
  · cases hread

/-- What follows the marks of containers on a line is what a text ends with. -/
def BlockState.LineRest.Within (text : List Char) : BlockState.LineRest → Prop
  | .nothing => True
  | .block c => c.rest <:+ text
  | .task _ rest => rest <:+ text

/-- The marks of containers on a line open containers, and leave the end of the line. -/
theorem BlockState.Idle.openContainers (h : IsSign sign) (ending : LineEnd) {text : List Char} :
    ∀ (fuel : Nat) {s : BlockState} {c : Cursor}, s.Idle sign true cs → c.rest <:+ text →
      (s.openContainers ending c fuel).1.Idle sign true cs ∧
        (s.openContainers ending c fuel).2.Within text
  | 0, _, _, hs, hc => ⟨hs, hc⟩
  | fuel + 1, s, c, hs, hc => by
    have hstart := (c.suffix_skip 4).trans hc
    have hempty {s : BlockState} (hs : s.Idle sign true cs) (emptyItem : Bool) :
        BlockState.Idle sign true { s with emptyItem := emptyItem } cs := ⟨hs.leaf, hs.frames⟩
    unfold BlockState.openContainers
    dsimp only
    -- A mark of a list item, a mark of a quote, or the start of a block of text.
    split
    · exact ⟨hs, hc⟩
    · split
      · rename_i marker inside width hread
        obtain ⟨hinside, hwidth⟩ := ListMarker.readAt_eq_some hread
        have hinside := hinside.trans hstart
        have hitem := ((hempty hs false).continueList h marker).push (f := .item width [])
          ⟨hwidth, writesAll_nil h⟩
        split
        · exact ⟨hempty hitem true, trivial⟩
        · split
          · rename_i checked after htask
            have hafter := (suffix_readTaskMark htask).trans hinside
            split
            · exact ⟨hempty (hitem.add_nil h (writes_checkBox h checked)) true, trivial⟩
            · exact ⟨hitem, (List.dropWhile_suffix _).trans hafter⟩
          · exact Idle.openContainers h ending fuel hitem hinside
      · split
        · rename_i inside hquote
          have hinside := ((inside.suffix_skip 1).trans (Cursor.suffix_skipChar hquote)).trans hstart
          have hquote := ((hempty hs false).finishList h).push (f := .quote []) (writesAll_nil h)
          exact Idle.openContainers h ending fuel hquote hinside
        · exact ⟨hs, hc⟩

end DocWeave.Markdown

import DocWeave.Proofs.Xml.Reading
import DocWeave.Proofs.Xml.Truncation
import DocWeave.Sphinx.Build
import Mathlib.Data.List.Forall2

/-!
# Layout between tags

A program that writes a document may break lines and indent between two tags. The reader takes such
layout for a text of its own, and drops it when the element closes. To show this, a document and the same
document with layout are read side by side.

- `BetweenTags`: the places for layout; `LaidOut`: a text with layout at some of them.
- `SameShown`: open elements that will be the same once they are closed.
- `Alike`: two readers, the second of which has met layout that the first one has not.
- `Alike.step`, `Alike.insert`: a character that both read, and layout that only the second one reads.
- `parse_laidOut`: layout makes no difference to what a document says.
-/

namespace DocWeave.Xml

/-! ## Places between tags -/

/-- The last character of a text ends a start tag, an empty tag or an end tag. -/
def EndsWithTag (text : List Char) : Prop :=
  ∃ before events mode event, text = before ++ ['>'] ∧ Scans (.text []) before events mode ∧
    mode.step '>' = .ok (.text [], some event) ∧ event.text? = none

/-- A text starts with markup that can only be a tag. -/
def StartsWithTag (text : List Char) : Prop :=
  ∃ c rest, text = '<' :: c :: rest ∧ c ≠ '!' ∧ c ≠ '?'

/-- The place in a document between what stands before it and after it is directly between two tags.
Behind the root nothing is read, so every place counts there. -/
def BetweenTags (before after : List Char) : Prop :=
  EndsWithTag (dropByteOrderMark before) ∧ StartsWithTag after ∨
    ∃ root, Reader.start.run (dropByteOrderMark before) = .finished root

/-- Blanks with a line feed among them. -/
def IsLayoutText (text : List Char) : Prop :=
  '\n' ∈ text ∧ ∀ c ∈ text, Text.isBlank c

/-- The rest of a document, which follows what stands before it, without and with layout at some places
between tags. -/
inductive LaidOut : List Char → List Char → List Char → Prop where
  | nil (before : List Char) : LaidOut before [] []
  | keep {before rest laid : List Char} (c : Char) (hrest : LaidOut (before ++ [c]) rest laid) :
    LaidOut before (c :: rest) (c :: laid)
  | insert {before rest laid layout : List Char} {c : Char} (hplace : BetweenTags before (c :: rest))
      (hlayout : IsLayoutText layout) (hrest : LaidOut (before ++ [c]) rest laid) :
    LaidOut before (c :: rest) (layout ++ c :: laid)

theorem Scans.unique {mode last last' : Mode} {text : List Char} {events events' : List Event}
    (h : Scans mode text events last) (h' : Scans mode text events' last') : last = last' := by
  induction h generalizing events' with
  | nil mode =>
    cases h'
    rfl
  | cons hstep _ ih =>
    cases h' with
    | cons hstep' htext' =>
      rw [hstep] at hstep'
      obtain ⟨rfl, -⟩ := Prod.mk.inj (Except.ok.inj hstep')
      exact ih htext'

/-! ## Open elements -/

/-- The text at the end of an open element, which more text would be joined to. -/
def OpenElement.lastText? (e : OpenElement) : Option String :=
  match e.content with
  | .text value :: _ => some value
  | _ => none

/-- The text at the end of the innermost open element. -/
def lastText? (stack : List OpenElement) : Option String :=
  stack.head?.bind OpenElement.lastText?

/-- Two open elements that have the same content but for layout. -/
structure SameShown (e e' : OpenElement) : Prop where
  name : e.name = e'.name
  attributes : e.attributes = e'.attributes
  content : e.content.filter (!Tree.isLayout ·) = e'.content.filter (!Tree.isLayout ·)

theorem SameShown.refl (e : OpenElement) : SameShown e e :=
  ⟨rfl, rfl, rfl⟩

/-- Once they are closed, they are the same. -/
theorem SameShown.close {e e' : OpenElement} (h : SameShown e e') : e.close = e'.close := by
  rw [OpenElement.close, OpenElement.close, List.filter_reverse, List.filter_reverse, h.name,
    h.attributes, h.content]

theorem SameShown.push {e e' : OpenElement} (h : SameShown e e') (t : Tree) :
    SameShown (e.push t) (e'.push t) := by
  refine ⟨h.name, h.attributes, ?_⟩
  show (t :: e.content).filter _ = (t :: e'.content).filter _
  rw [List.filter_cons, List.filter_cons, h.content]

/-- An open element that ends in a text goes on with it. -/
theorem OpenElement.addText_of_lastText {e : OpenElement} {before : String}
    (h : e.lastText? = some before) (text : String) : ∃ rest,
      e.content = .text before :: rest ∧
        e.addText text = { e with content := .text (before ++ text) :: rest } := by
  obtain ⟨name, attributes, _ | ⟨_ | _, rest⟩⟩ := e
  · cases h
  · cases h
    exact ⟨rest, rfl, rfl⟩
  · cases h

theorem OpenElement.addText_of_no_lastText {e : OpenElement} (h : e.lastText? = none)
    (text : String) : e.addText text = e.push (.text text) := by
  obtain ⟨name, attributes, _ | ⟨_ | _, rest⟩⟩ := e
  · rfl
  · cases h
  · rfl

/-- More text keeps them so if the text that it is joined to is the same. -/
theorem SameShown.addText {e e' : OpenElement} (h : SameShown e e')
    (hlast : e.lastText? = e'.lastText?) (text : String) :
    SameShown (e.addText text) (e'.addText text) ∧
      (e.addText text).lastText? = (e'.addText text).lastText? := by
  cases hbefore : e.lastText? with
  | none =>
    rw [OpenElement.addText_of_no_lastText hbefore,
      OpenElement.addText_of_no_lastText (hlast.symm.trans hbefore)]
    exact ⟨h.push _, rfl⟩
  | some before =>
    obtain ⟨rest, hcontent, hadd⟩ := OpenElement.addText_of_lastText hbefore text
    obtain ⟨rest', hcontent', hadd'⟩ :=
      OpenElement.addText_of_lastText (hlast.symm.trans hbefore) text
    -- The common text may be layout and become something else, so what is before it must agree.
    have hrest : rest.filter (!Tree.isLayout ·) = rest'.filter (!Tree.isLayout ·) := by
      have hfilter := h.content
      rw [hcontent, hcontent', List.filter_cons, List.filter_cons] at hfilter
      split at hfilter
      · exact (List.cons.inj hfilter).2
      · exact hfilter
    rw [hadd, hadd']
    refine ⟨⟨h.name, h.attributes, ?_⟩, rfl⟩
    show (_ :: rest).filter _ = (_ :: rest').filter _
    rw [List.filter_cons, List.filter_cons, hrest]

theorem isLayout_of_isLayoutText {text : List Char} (h : IsLayoutText text) :
    (Tree.text (String.ofList text)).isLayout = true := by
  rw [Tree.isLayout, String.toList_ofList, Bool.and_eq_true]
  exact ⟨List.contains_iff_mem.mpr h.1, List.all_eq_true.mpr h.2⟩

/-- Layout that stands on its own is not seen. -/
theorem SameShown.addLayout {e e' : OpenElement} (h : SameShown e e') (hlast : e'.lastText? = none)
    {layout : List Char} (hlayout : IsLayoutText layout) :
    SameShown e (e'.addText (String.ofList layout)) := by
  rw [OpenElement.addText_of_no_lastText hlast]
  refine ⟨h.name, h.attributes, ?_⟩
  show _ = (_ :: e'.content).filter _
  rw [List.filter_cons, isLayout_of_isLayoutText hlayout, if_neg (by decide)]
  exact h.content

/-! ## Two readers -/

/-- The next event can only be a tag. -/
def TagAhead : Mode → List Char → Prop
  | .startTag _ _, _ | .endTag _ _, _ => True
  | .markup, rest => ∃ c tail, rest = c :: tail ∧ c ≠ '!' ∧ c ≠ '?'
  | _, _ => False

/-- Two readers with the same rest of the input before them, the second of which may have met layout.
Layout at the end of the innermost element is not joined to more text, since a tag comes next. -/
inductive Alike (rest : List Char) : Reader → Reader → Prop where
  | reading {mode : Mode} {stack stack' : List OpenElement}
      (hshown : List.Forall₂ SameShown stack stack')
      (htext : TagAhead mode rest ∨ lastText? stack = lastText? stack') :
    Alike rest (.reading mode stack) (.reading mode stack')
  | finished (root : Element) : Alike rest (.finished root) (.finished root)
  | failed (error : Error) : Alike rest (.failed error) (.failed error)

theorem alike_refl (rest : List Char) (r : Reader) : Alike rest r r := by
  cases r with
  | reading mode stack =>
    exact .reading (List.forall₂_same.mpr fun e _ => .refl e) (Or.inr rfl)
  | finished root => exact .finished root
  | failed error => exact .failed error

/-- Two such readers have the same result. -/
theorem Alike.result_eq {rest : List Char} {r r' : Reader} (h : Alike rest r r') :
    r'.result = r.result := by
  cases h with
  | finished | failed => rfl
  -- The names of the open elements are all that the errors at the end tell.
  | @reading mode _ _ hshown =>
    cases hend : mode.atEnd with
    | some error => simp only [Reader.result, hend]
    | none =>
      cases hshown with
      | nil => rfl
      | cons he => simp only [Reader.result, hend, he.name]

theorem text?_tagEvent (content : List Char) : (tagEvent content).text? = none := by
  unfold tagEvent
  dsimp only
  split <;> rfl

/-- Before a tag, a character belongs to the tag or completes it. -/
theorem TagAhead.step {mode next : Mode} {c : Char} {rest : List Char} {event? : Option Event}
    (h : TagAhead mode (c :: rest)) (hstep : mode.step c = .ok (next, event?)) :
    event? = none ∧ TagAhead next rest ∨ ∃ event, event? = some event ∧ event.text? = none := by
  have hstart {read : List Char} {quote : Option Char}
      (hstep : startTagStep read quote c = (next, event?)) :
      event? = none ∧ TagAhead next rest ∨ ∃ event, event? = some event ∧ event.text? = none := by
    unfold startTagStep at hstep
    split at hstep
    · exact Or.inr ⟨_, (Prod.mk.inj hstep).2.symm, text?_tagEvent _⟩
    · obtain ⟨rfl, rfl⟩ := Prod.mk.inj hstep
      exact Or.inl ⟨rfl, trivial⟩
  cases mode with
  | startTag read quote => exact hstart (Except.ok.inj hstep)
  | endTag read quote =>
    unfold Mode.step at hstep
    dsimp only at hstep
    split at hstep
    · exact Or.inr ⟨_, (Prod.mk.inj (Except.ok.inj hstep)).2.symm, rfl⟩
    · obtain ⟨rfl, rfl⟩ := Prod.mk.inj (Except.ok.inj hstep)
      exact Or.inl ⟨rfl, trivial⟩
  | markup =>
    obtain ⟨d, tail, hcons, hbang, hquestion⟩ := h
    obtain ⟨rfl, -⟩ := List.cons.inj hcons
    unfold Mode.step at hstep
    dsimp only at hstep
    rw [if_neg hbang, if_neg hquestion] at hstep
    split at hstep
    · obtain ⟨rfl, rfl⟩ := Prod.mk.inj (Except.ok.inj hstep)
      exact Or.inl ⟨rfl, trivial⟩
    · exact hstart (Except.ok.inj hstep)
  | text | reference | instruction | declaration | comment | characterData | doctype => exact h.elim

/-- An element that is complete is put into elements that are alike. -/
theorem alike_complete {rest : List Char} {mode : Mode} {stack stack' : List OpenElement}
    (h : List.Forall₂ SameShown stack stack') (e : Element) :
    Alike rest (Reader.complete mode e stack) (Reader.complete mode e stack') := by
  cases h with
  | nil => exact .finished e
  | cons he houter => exact .reading (.cons (he.push e.toTree) houter) (Or.inr rfl)

/-- So is text, unless it would be joined to different texts. -/
theorem alike_addText {rest : List Char} {mode : Mode} {stack stack' : List OpenElement}
    (h : List.Forall₂ SameShown stack stack') (htext : lastText? stack = lastText? stack')
    (text : List Char) :
    Alike rest (Reader.addText mode text stack) (Reader.addText mode text stack') := by
  cases h with
  | nil => exact alike_refl rest _
  | cons he houter =>
    obtain ⟨hadd, hlast⟩ := he.addText htext (String.ofList text)
    exact .reading (.cons hadd houter) (Or.inr hlast)

/-- An event does the same to both. -/
theorem alike_handle {rest : List Char} {mode : Mode} {stack stack' : List OpenElement}
    {event : Event} (h : List.Forall₂ SameShown stack stack')
    (htext : event.text? = none ∨ lastText? stack = lastText? stack') :
    Alike rest (Reader.handle mode stack event) (Reader.handle mode stack' event) := by
  cases event with
  | text value | reference name | characterData value =>
    exact alike_addText h (htext.resolve_left nofun) _
  | startTag name attributes => exact .reading (.cons (.refl _) h) (Or.inr rfl)
  | emptyTag name attributes => exact alike_complete h _
  | endTag name =>
    cases h with
    | nil => exact alike_refl rest _
    | @cons e e' outer outer' he houter =>
      unfold Reader.handle
      dsimp only
      -- The end tag closes elements with the same name and the same children.
      rw [← he.name, ← he.close]
      split
      · exact alike_complete houter _
      · exact .failed _

/-- A character that both read keeps them alike. -/
theorem Alike.step {c : Char} {rest : List Char} {r r' : Reader} (h : Alike (c :: rest) r r') :
    Alike rest (r.step c) (r'.step c) := by
  cases h with
  | finished root => exact .finished root
  | failed error => exact .failed error
  | @reading mode stack stack' hshown htext =>
    unfold Reader.step
    dsimp only
    rcases hstep : mode.step c with error | ⟨next, _ | event⟩
    · exact .failed error
    · refine .reading hshown (htext.imp_left fun htag => ?_)
      rcases htag.step hstep with ⟨-, hahead⟩ | ⟨event, hevent, -⟩
      · exact hahead
      · cases hevent
    · refine alike_handle hshown (htext.imp_left fun htag => ?_)
      rcases htag.step hstep with ⟨hevent, -⟩ | ⟨event', hevent, hnone⟩
      · cases hevent
      · rw [Option.some.inj hevent]
        exact hnone

/-! ## Layout that is inserted -/

/-- Behind a tag, the innermost element does not end in a text. -/
theorem lastText?_of_endsWithTag {before : List Char} (h : EndsWithTag before) {mode : Mode}
    {stack : List OpenElement} (hrun : Reader.start.run before = .reading mode stack) :
    mode = .text [] ∧ lastText? stack = none := by
  obtain ⟨front, events, last, event, rfl, hscans, hstep, htag⟩ := h
  rw [run_append] at hrun
  -- What scans the text and what reads it pass the same events.
  obtain ⟨mode', stack', hfront⟩ := exists_reading_of_run hrun
  obtain ⟨events', hscans', -⟩ := run_eq_reading.mp hfront
  obtain rfl := hscans.unique hscans'
  have hhandle : Reader.handle (.text []) stack' event = .reading mode stack := by
    rw [hfront] at hrun
    rw [← hrun]
    simp [Reader.run, Reader.step, hstep]
  obtain ⟨rfl, hafter⟩ := handle_eq_reading.mp hhandle
  refine ⟨rfl, ?_⟩
  -- A start tag opens an element without content, any other tag leaves an element last.
  cases event with
  | text | reference | characterData => cases htag
  | startTag name attributes =>
    rw [← Option.some.inj hafter]
    rfl
  | emptyTag name attributes =>
    rcases stack' with _ | ⟨parent, outer⟩
    · cases hafter
    · rw [← Option.some.inj hafter]
      rfl
  | endTag name =>
    rcases stack' with _ | ⟨e, _ | ⟨parent, outer⟩⟩
    · cases hhandle
    · unfold Reader.handle at hhandle
      dsimp only at hhandle
      split at hhandle <;> cases hhandle
    · unfold Reader.handle at hhandle
      dsimp only at hhandle
      split at hhandle <;> cases hhandle
      rfl

/-- Layout is read as text, up to the next markup. -/
theorem run_layout {layout : List Char} (h : IsLayoutText layout) (stack : List OpenElement) :
    (Reader.reading (.text []) stack).run (layout ++ ['<']) =
      Reader.addText .markup layout stack := by
  -- A blank character neither starts markup nor a reference.
  have hplain (c : Char) (hc : c ∈ layout) : c ≠ '<' ∧ c ≠ '&' := by
    have hblank := h.2 c hc
    constructor <;> rintro rfl <;> revert hblank <;> decide
  have hread : (Reader.reading (.text []) stack).run layout =
      .reading (.text (layout.reverse ++ [])) stack := by
    refine run_collect .text (fun c hc read => ?_) []
    simp [Mode.step_text, hplain c hc]
  have hne : layout ≠ [] := List.ne_nil_of_mem h.1
  rw [run_append, hread, List.append_nil]
  simp [Reader.run, Reader.step, Mode.step_text, Reader.handle, hne]

/-- At a place between tags, layout that only the second reader meets keeps them alike. -/
theorem Alike.insert {before rest layout : List Char} {c : Char} {r' : Reader}
    (h : Alike (c :: rest) (Reader.start.run (dropByteOrderMark before)) r')
    (hplace : BetweenTags before (c :: rest)) (hlayout : IsLayoutText layout) :
    Alike rest ((Reader.start.run (dropByteOrderMark before)).step c) (r'.run (layout ++ [c])) := by
  cases hrun : Reader.start.run (dropByteOrderMark before) with
  | finished root =>
    rw [hrun] at h
    cases h
    rw [run_finished]
    exact .finished root
  | failed error =>
    rw [hrun] at h
    cases h
    rw [run_failed]
    exact .failed error
  | reading mode stack =>
    rcases hplace with ⟨hends, d, tail, hcons, hbang, hquestion⟩ | ⟨root, hroot⟩
    · -- Both read text here, neither ends in one, and what comes next is a tag.
      obtain ⟨rfl, rfl⟩ := List.cons.inj hcons
      obtain ⟨rfl, hlast⟩ := lastText?_of_endsWithTag hends hrun
      rw [hrun] at h
      cases h with
      | @reading _ _ stack' hshown htext =>
        have hlast' : lastText? stack' = none := by
          rcases htext with htag | htext
          · exact htag.elim
          · exact htext.symm.trans hlast
        have hmarkup : (Reader.reading (.text []) stack).step '<' = .reading .markup stack := rfl
        have hahead : TagAhead .markup (d :: tail) := ⟨d, tail, rfl, hbang, hquestion⟩
        rw [run_layout hlayout, hmarkup]
        cases hshown with
        | nil => exact alike_refl _ _
        | cons he houter =>
          exact .reading (.cons (he.addLayout hlast' hlayout) houter) (Or.inl hahead)
    · rw [hrun] at hroot
      cases hroot

theorem run_start_concat {before : List Char} (hne : before ≠ []) (c : Char) :
    Reader.start.run (dropByteOrderMark (before ++ [c])) =
      (Reader.start.run (dropByteOrderMark before)).step c := by
  rw [dropByteOrderMark_append hne, run_append]
  rfl

/-- The whole rest of a document can be laid out. -/
theorem Alike.laidOut {before rest laid : List Char} (h : LaidOut before rest laid)
    (hne : before ≠ []) {r' : Reader}
    (hr : Alike rest (Reader.start.run (dropByteOrderMark before)) r') :
    Alike [] (Reader.start.run (dropByteOrderMark (before ++ rest))) (r'.run laid) := by
  induction h generalizing r' with
  | nil before =>
    rw [List.append_nil]
    exact hr
  | @keep before rest laid c _ ih =>
    rw [List.append_cons]
    refine ih (by simp) ?_
    rw [run_start_concat hne]
    exact hr.step
  | @insert before rest laid layout c hplace hlayout _ ih =>
    rw [List.append_cons before, List.append_cons layout, run_append]
    refine ih (by simp) ?_
    rw [run_start_concat hne]
    exact hr.insert hplace hlayout

/-- No place for layout is in front of the document. -/
theorem not_betweenTags_nil (after : List Char) : ¬ BetweenTags [] after := by
  rintro (⟨⟨front, _, _, _, hfront, -⟩, -⟩ | ⟨root, hroot⟩)
  · exact List.append_ne_nil_of_right_ne_nil front (by simp) hfront.symm
  · cases hroot

theorem parseChars_laidOut {text laid : List Char} (h : LaidOut [] text laid) :
    parseChars laid = parseChars text := by
  cases h with
  | nil => rfl
  | insert hplace => exact absurd hplace (not_betweenTags_nil _)
  | @keep _ rest laid c hrest =>
    have hne : [c] ≠ [] := List.cons_ne_nil c []
    -- From the first character on, what is in front of a place is not empty.
    have halike : Alike [] (Reader.start.run (dropByteOrderMark (c :: rest)))
        ((Reader.start.run (dropByteOrderMark [c])).run laid) :=
      Alike.laidOut hrest hne (alike_refl _ _)
    rw [← run_append, ← dropByteOrderMark_append hne] at halike
    exact halike.result_eq

/-- **Layout between tags makes no difference.** Let a document be laid out: at places directly between
two tags, blanks with a line feed among them are inserted. Then it is read as before, with the same root,
or with the same error. So a build finds the same in it about all modules: the same descriptions of each
one, turned into the same nodes, and the same number of descriptions that name no module. -/
theorem parse_laidOut {x y : String} (h : LaidOut [] x.toList y.toList) :
    parse y = parse x ∧
      ∀ names, Sphinx.Findings.ofOutput names y = Sphinx.Findings.ofOutput names x := by
  have hparse : parse y = parse x := parseChars_laidOut h
  refine ⟨hparse, fun names => ?_⟩
  rw [Sphinx.Findings.ofOutput, Sphinx.Findings.ofOutput, hparse]

/-- A line break and indentation between a start tag and an empty tag. The text behind the empty tag
stays as it is. -/
theorem parse_laidOut_indented :
    LaidOut [] "<a><b/>y</a>".toList "<a>\n  <b/>y</a>".toList ∧
      parse "<a>\n  <b/>y</a>" = .ok ⟨"a", [], [.element "b" [] [], .text "y"]⟩ := by
  have hlayout : IsLayoutText "\n  ".toList := ⟨by decide, List.all_eq_true.mp (by decide)⟩
  have hplace : BetweenTags "<a>".toList "<b/>y</a>".toList := by
    have hrun : Reader.start.run "<a".toList = .reading (.startTag ['a'] none) [] := by rfl
    obtain ⟨events, hscans, -⟩ := run_eq_reading.mp hrun
    exact Or.inl ⟨⟨"<a".toList, events, _, _, rfl, hscans, rfl, rfl⟩, 'b', _, rfl, by decide,
      by decide⟩
  have hlaid : LaidOut [] "<a><b/>y</a>".toList "<a>\n  <b/>y</a>".toList :=
    .keep '<' (.keep 'a' (.keep '>' (.insert hplace hlayout (.keep 'b' (.keep '/' (.keep '>'
      (.keep 'y' (.keep '<' (.keep '/' (.keep 'a' (.keep '>' (.nil _))))))))))))
  have hroot : parse "<a><b/>y</a>" = .ok ⟨"a", [], [.element "b" [] [], .text "y"]⟩ := by rfl
  exact ⟨hlaid, (parse_laidOut hlaid).1.trans hroot⟩

end DocWeave.Xml

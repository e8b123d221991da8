import DocWeave.Proofs.Xml.Events
import DocWeave.Proofs.Xml.Written

/-!
# Reading what was written

A reader takes in a text that was escaped, and tags that were written, without stopping anywhere. It
holds back the text that it is in until the next piece of markup, so an element that is open may not
have its last text yet.

- `Holds`: a reader in text, with the innermost element as it is once the text is added to it.
- `Holds.escape`: a text that was escaped.
- `run_writtenStart`, `Holds.run_writtenEnd`: the tags of an element.
-/

namespace DocWeave.Xml

open Html (escape writeAttribute)

/-! ## Text that is held back -/

/-- Adds text to an open element, unless there is none. -/
def OpenElement.hold (e : OpenElement) (text : List Char) : OpenElement :=
  if text.isEmpty then e else e.addText (String.ofList text)

theorem OpenElement.addText_addText (e : OpenElement) (before after : String) :
    (e.addText before).addText after = e.addText (before ++ after) := by
  obtain ⟨name, attributes, content⟩ := e
  rcases content with _ | ⟨_ | _, content⟩
  · rfl
  · simp only [OpenElement.addText, String.append_assoc]
  · rfl

theorem OpenElement.hold_append (e : OpenElement) (before after : List Char) :
    e.hold (before ++ after) = (e.hold before).hold after := by
  unfold OpenElement.hold
  rcases before with _ | ⟨c, before⟩
  · rfl
  · rcases after with _ | ⟨d, after⟩
    · rw [List.append_nil]
      rfl
    · show e.addText (String.ofList (c :: before ++ d :: after)) =
        (e.addText (String.ofList (c :: before))).addText (String.ofList (d :: after))
      rw [OpenElement.addText_addText, String.ofList_append]

/-- The reader is in text. The text that it holds back belongs to the innermost element, which is `e`
once the text has been added. -/
def Holds (r : Reader) (e : OpenElement) (outer : List OpenElement) : Prop :=
  ∃ read inner, r = .reading (.text read) (inner :: outer) ∧ inner.hold read.reverse = e

variable {r : Reader} {e : OpenElement} {outer stack : List OpenElement}

theorem holds_opened (e : OpenElement) (outer : List OpenElement) :
    Holds (.reading (.text []) (e :: outer)) e outer :=
  ⟨[], e, rfl, rfl⟩

/-- At the start of markup, the text is added. -/
theorem Holds.step_markup (h : Holds r e outer) : r.step '<' = .reading .markup (e :: outer) := by
  obtain ⟨read, inner, rfl, rfl⟩ := h
  cases read with
  | nil => rfl
  | cons c read => simp [Reader.step, Mode.step_text, Reader.handle, Reader.addText, OpenElement.hold]

/-- So it is at the start of a reference. -/
theorem Holds.step_reference (h : Holds r e outer) :
    r.step '&' = .reading (.reference []) (e :: outer) := by
  obtain ⟨read, inner, rfl, rfl⟩ := h
  cases read with
  | nil => rfl
  | cons c read => simp [Reader.step, Mode.step_text, Reader.handle, Reader.addText, OpenElement.hold]

/-- Any other character is held back. -/
theorem Holds.step_text (h : Holds r e outer) {c : Char} (hlt : c ≠ '<') (hamp : c ≠ '&') :
    Holds (r.step c) (e.hold [c]) outer := by
  obtain ⟨read, inner, rfl, rfl⟩ := h
  refine ⟨c :: read, inner, ?_, ?_⟩
  · simp [Reader.step, Mode.step_text, hlt, hamp]
  · rw [List.reverse_cons, OpenElement.hold_append]

/-! ## Texts -/

theorem run_cons (r : Reader) (c : Char) (text : List Char) :
    r.run (c :: text) = (r.step c).run text := rfl

/-- Characters that a mode collects are read. -/
theorem run_collect (mode : List Char → Mode) {text : List Char}
    (h : ∀ c ∈ text, ∀ read, (mode read).step c = .ok (mode (c :: read), none)) (read : List Char) :
    (Reader.reading (mode read) stack).run text = .reading (mode (text.reverse ++ read)) stack := by
  refine foldl_collect (fun read => Reader.reading (mode read) stack) (fun c hc read => ?_) read
  rw [Reader.step, h c hc read]

/-- The name of a reference is read up to its end. -/
theorem run_referenceName {name : List Char} (h : ∀ d ∈ name, d ≠ ';' ∧ d ≠ '<' ∧ d ≠ '&')
    (read : List Char) : (Reader.reading (.reference read) stack).run name =
      .reading (.reference (name.reverse ++ read)) stack := by
  refine run_collect .reference (fun d hd read => ?_) read
  obtain ⟨hend, hlt, hamp⟩ := h d hd
  simp [Mode.step_reference, hend, hlt, hamp]

/-- A character that was escaped is added to the text. -/
theorem Holds.escapeChar (h : Holds r e outer) (c : Char) :
    Holds (r.run (Html.escapeChar c)) (e.hold [c]) outer := by
  rcases escapeChar_cases c with ⟨name, hname, hescape⟩ | ⟨hplain, hescape⟩
  · have hchars (d : Char) (hd : d ∈ name) : d ≠ ';' ∧ d ≠ '<' ∧ d ≠ '&' :=
      ⟨hname.ne hd (by decide) (by decide), hname.ne hd (by decide) (by decide),
        hname.ne hd (by decide) (by decide)⟩
    -- The semicolon ends the reference, which is decoded and added as text.
    have hend : (Reader.reading (.reference (name.reverse ++ [])) (e :: outer)).step ';' =
        .reading (.text []) (e.hold [c] :: outer) := by
      simp [Reader.step, Mode.step_reference, Reader.handle, Reader.addText, decodeText,
        hname.inText, OpenElement.hold]
    rw [hescape, run_cons, h.step_reference, run_append, run_referenceName hchars, run_cons, hend]
    exact holds_opened _ _
  · have hne {d : Char} (hd : isMarkupChar d = true) : c ≠ d := by
      rintro rfl
      rw [hplain] at hd
      cases hd
    rw [hescape]
    exact h.step_text (hne (by decide)) (hne (by decide))

/-- So is every text that was escaped. -/
theorem Holds.escape (h : Holds r e outer) (text : List Char) :
    Holds (r.run (Html.escape text)) (e.hold text) outer := by
  -- Each character is added to the element, so `e` changes from one to the next.
  induction text generalizing r e with
  | nil => exact h
  | cons c text ih =>
    have hcons : Html.escape (c :: text) = Html.escapeChar c ++ Html.escape text := List.flatMap_cons
    have hhold : e.hold (c :: text) = (e.hold [c]).hold text := e.hold_append [c] text
    rw [hcons, run_append, hhold]
    exact ih (h.escapeChar c)

/-! ## Tags -/

/-- Outside of quoted values, only `>` and quotes mean something in a tag. -/
theorem run_tag {within : List Char → Option Char → Mode}
    (hwithin : within = .startTag ∨ within = .endTag) {text : List Char}
    (h : ∀ d ∈ text, d ≠ '>' ∧ d ≠ '"' ∧ d ≠ '\'') (read : List Char) :
    (Reader.reading (within read none) stack).run text =
      .reading (within (text.reverse ++ read) none) stack := by
  refine run_collect (within · none) (fun d hd read => ?_) read
  obtain ⟨hend, hdouble, hsingle⟩ := h d hd
  rcases hwithin with rfl | rfl <;>
    simp [Mode.step_startTag, Mode.step_endTag, startTagStep, nextQuote, hend, hdouble, hsingle]

/-- In a quoted value, only the quote does. -/
theorem run_quoted {quote : Char} {text : List Char} (h : quote ∉ text) (read : List Char) :
    (Reader.reading (.startTag read (some quote)) stack).run text =
      .reading (.startTag (text.reverse ++ read) (some quote)) stack := by
  refine run_collect (.startTag · (some quote)) (fun d hd read => ?_) read
  have hquote : d ≠ quote := ne_of_mem_of_not_mem hd h
  simp [Mode.step_startTag, startTagStep, nextQuote, hquote]

/-- An attribute does not end the tag that it stands in. -/
theorem run_writeAttribute {name : String} (h : isAttributeName name = true) (value : String)
    (read : List Char) : (Reader.reading (.startTag read none) stack).run
        (writeAttribute name value) =
      .reading (.startTag ((writeAttribute name value).reverse ++ read) none) stack := by
  rw [isAttributeName, Bool.and_eq_true, Bool.and_eq_true, List.all_eq_true] at h
  -- Neither the name nor the equals sign ends the tag, and the value is between quotes.
  have hbefore (d : Char) (hd : d ∈ ' ' :: (name.toList ++ ['='])) :
      d ≠ '>' ∧ d ≠ '"' ∧ d ≠ '\'' := by
    rcases List.mem_cons.mp hd with rfl | hd
    · decide
    · rcases List.mem_append.mp hd with hd | hd
      · have halpha := h.1.2 d hd
        exact ⟨ne_of_isAlpha halpha (by decide), ne_of_isAlpha halpha (by decide),
          ne_of_isAlpha halpha (by decide)⟩
      · rw [List.mem_singleton.mp hd]
        decide
  have hopen (read : List Char) : (Reader.reading (.startTag read none) stack).step '"' =
      .reading (.startTag ('"' :: read) (some '"')) stack := rfl
  have hclose (read : List Char) : (Reader.reading (.startTag read (some '"')) stack).step '"' =
      .reading (.startTag ('"' :: read) none) stack := rfl
  have hwritten : writeAttribute name value =
      ' ' :: (name.toList ++ ['=']) ++ '"' :: (escape value.toList ++ ['"']) := by
    simp [writeAttribute]
  rw [hwritten, run_append, run_tag (Or.inl rfl) hbefore, run_cons, hopen, run_append,
    run_quoted (quote_not_mem_escape _), run_cons, hclose]
  simp [Reader.run]

theorem run_writeAttributes {attributes : Attributes}
    (h : ∀ name ∈ attributes.map (·.1), isAttributeName name = true) (read : List Char) :
    (Reader.reading (.startTag read none) stack).run
        (attributes.flatMap fun a => writeAttribute a.1 a.2) =
      .reading (.startTag ((attributes.flatMap fun a => writeAttribute a.1 a.2).reverse ++ read) none)
        stack := by
  induction attributes generalizing read with
  | nil => rfl
  | cons a attributes ih =>
    obtain ⟨ha, hrest⟩ := List.forall_mem_cons.mp h
    rw [List.flatMap_cons, run_append, run_writeAttribute ha, ih hrest, List.reverse_append,
      List.append_assoc]

/-- A name that elements can have in what is written. -/
structure IsTag (tag : String) : Prop where
  /-- It starts with a letter. -/
  first : ∃ c rest, tag.toList = c :: rest ∧ c.isAlpha
  /-- It goes on with letters and digits. -/
  chars : ∀ c ∈ tag.toList, c.isAlphanum

theorem IsTag.plain {tag : String} (h : IsTag tag) :
    ∀ d ∈ tag.toList, d ≠ '>' ∧ d ≠ '"' ∧ d ≠ '\'' := by
  intro d hd
  have halpha := h.chars d hd
  refine ⟨?_, ?_, ?_⟩ <;> rintro rfl <;> cases halpha

/-- A start tag that is written opens an element. -/
theorem run_writtenStart {tag : String} (htag : IsTag tag) {attributes : Attributes}
    (h : attributes.Written) : (Reader.reading .markup stack).run
        (tag.toList ++ (attributes.flatMap fun a => writeAttribute a.1 a.2) ++ ['>']) =
      .reading (.text []) (⟨tag, attributes, []⟩ :: stack) := by
  obtain ⟨c, rest, hcons, hc⟩ := htag.first
  have hplain := htag.plain
  have hevent := tagEvent_write htag.chars h
  rw [hcons] at hplain hevent ⊢
  have hfirst : (Reader.reading .markup stack).step c = .reading (.startTag [c] none) stack := by
    have hne {d : Char} (hd : d.isAlpha = false) : c ≠ d := ne_of_isAlpha hc hd
    simp [Reader.step, Mode.step_markup, startTagStep, nextQuote, hne]
  have hend (read : List Char) : (Reader.reading (.startTag read none) stack).step '>' =
      Reader.handle (.text []) stack (tagEvent read.reverse) := rfl
  rw [List.cons_append, List.cons_append, run_cons, hfirst, run_append, run_append,
    run_tag (Or.inl rfl) (List.forall_mem_cons.mp hplain).2, run_writeAttributes h.names, run_cons,
    hend, List.reverse_append, List.reverse_append, List.reverse_reverse, List.reverse_reverse,
    List.reverse_singleton, List.singleton_append, hevent]
  rfl

/-- An end tag that is written closes the innermost element if that has its name. -/
theorem Holds.run_writtenEnd (h : Holds r e outer) {tag : String} (htag : IsTag tag)
    (hname : e.name = tag) : r.run ('<' :: '/' :: tag.toList ++ ['>']) =
      Reader.complete (.text []) e.close outer := by
  have hslash : (Reader.reading .markup (e :: outer)).step '/' =
      .reading (.endTag [] none) (e :: outer) := rfl
  have hend (read : List Char) : (Reader.reading (.endTag read none) (e :: outer)).step '>' =
      Reader.handle (.text []) (e :: outer) (.endTag (endTagName read.reverse)) := rfl
  have hhandle : Reader.handle (.text []) (e :: outer) (.endTag tag) =
      Reader.complete (.text []) e.close outer := if_pos hname
  rw [List.cons_append, List.cons_append, run_cons, h.step_markup, run_cons, hslash, run_append,
    run_tag (Or.inr rfl) htag.plain, run_cons, hend, List.append_nil, List.reverse_reverse,
    endTagName_write htag.chars, hhandle]
  rfl

end DocWeave.Xml

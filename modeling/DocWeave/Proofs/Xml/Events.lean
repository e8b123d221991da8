import DocWeave.Proofs.Xml.Content

/-!
# Events and open elements

Reading a document is done in two steps at once: its characters are scanned into events, and the events
open and close elements. Here the two are taken apart.

- `Scans`: the events of a text; `Mode.step_text` and the like: what a mode does with a character.
- `stackAfter`: what an event does to the open elements; `takes`: what events do.
- `run_eq_reading`: a reader in the middle of a document has scanned and taken all that it was given.
- `run_append`, `run_finished`: reading bit by bit; a reader that is done stays so.
- `Content`, `Unclosed`: the grammar of what is read, up to the elements that are open;
  `unclosed_iff`: it says which elements are open.
-/

namespace DocWeave.Xml

/-! ## Scanning -/

/-- A text that is scanned from a mode on gives events and ends in a mode, without an error. -/
inductive Scans : Mode → List Char → List Event → Mode → Prop where
  | nil (mode : Mode) : Scans mode [] [] mode
  | cons {mode next last : Mode} {c : Char} {text : List Char} {event : Option Event}
      {events : List Event} (hstep : mode.step c = .ok (next, event))
      (htext : Scans next text events last) : Scans mode (c :: text) (event.toList ++ events) last

/-! Steps in the modes that texts and tags are read in. -/

section

variable (read : List Char) (quote : Option Char) (c : Char)

theorem Mode.step_text : (Mode.text read).step c =
    if c = '<' then .ok (.markup, if read.isEmpty then none else some (.text read.reverse))
    else if c = '&' then .ok (.reference [], if read.isEmpty then none else some (.text read.reverse))
    else .ok (.text (c :: read), none) :=
  rfl

theorem Mode.step_reference : (Mode.reference read).step c =
    if c = ';' then .ok (.text [], some (.reference read.reverse))
    else if c = '<' || c = '&' then .error (.illFormed .reference)
    else .ok (.reference (c :: read), none) :=
  rfl

theorem Mode.step_markup : Mode.markup.step c =
    if c = '!' then .ok (.declaration, none)
    else if c = '?' then .ok (.instruction [], none)
    else if c = '/' then .ok (.endTag [] none, none)
    else .ok (startTagStep [] none c) :=
  rfl

theorem Mode.step_startTag : (Mode.startTag read quote).step c = .ok (startTagStep read quote c) :=
  rfl

theorem Mode.step_endTag : (Mode.endTag read quote).step c =
    if c = '>' && quote.isNone then .ok (.text [], some (.endTag (endTagName read.reverse)))
    else .ok (.endTag (c :: read) (nextQuote quote c), none) :=
  rfl

end

/-! ## Open elements -/

/-- The open elements after an event, innermost first, unless reading is over. -/
def stackAfter (stack : List OpenElement) (event : Event) : Option (List OpenElement) :=
  match Reader.handle (.text []) stack event with
  | .reading _ stack => some stack
  | .finished _ | .failed _ => none

/-- The open elements after several events. -/
def takes (stack : List OpenElement) (events : List Event) : Option (List OpenElement) :=
  events.foldlM stackAfter stack

theorem takes_append (stack : List OpenElement) (x y : List Event) :
    takes stack (x ++ y) = (takes stack x).bind fun middle => takes middle y :=
  List.foldlM_append

/-- A reader that goes on after an event has changed its open elements, and nothing else. -/
theorem handle_eq_reading {mode mode' : Mode} {stack stack' : List OpenElement} {event : Event} :
    Reader.handle mode stack event = .reading mode' stack' ↔
      mode = mode' ∧ stackAfter stack event = some stack' := by
  unfold stackAfter
  cases event with
  | text | reference | characterData =>
    cases stack <;> simp [Reader.handle, Reader.addText]
  | startTag => simp [Reader.handle]
  | emptyTag => cases stack <;> simp [Reader.handle, Reader.complete]
  | endTag name =>
    rcases stack with _ | ⟨e, _ | ⟨parent, outer⟩⟩
    · simp [Reader.handle]
    · by_cases hname : e.name = name <;> simp [Reader.handle, Reader.complete, hname]
    · by_cases hname : e.name = name <;> simp [Reader.handle, Reader.complete, hname]

/-! ## Readers -/

theorem run_append (r : Reader) (x y : List Char) : r.run (x ++ y) = (r.run x).run y :=
  List.foldl_append

theorem run_finished (root : Element) (text : List Char) :
    (Reader.finished root).run text = .finished root := by
  induction text with
  | nil => rfl
  | cons c text ih => exact ih

theorem run_failed (error : Error) (text : List Char) :
    (Reader.failed error).run text = .failed error := by
  induction text with
  | nil => rfl
  | cons c text ih => exact ih

/-- A reader that goes on was in the middle of the document before. -/
theorem exists_reading_of_run {r : Reader} {text : List Char} {mode : Mode}
    {stack : List OpenElement} (h : r.run text = .reading mode stack) :
    ∃ mode' stack', r = .reading mode' stack' := by
  cases r with
  | reading mode' stack' => exact ⟨mode', stack', rfl⟩
  | finished root =>
    rw [run_finished] at h
    cases h
  | failed error =>
    rw [run_failed] at h
    cases h

/-- A reader goes on if the character is scanned and its event, if there is one, is taken. -/
theorem step_eq_reading {mode next : Mode} {stack stack' : List OpenElement} {c : Char} :
    (Reader.reading mode stack).step c = .reading next stack' ↔
      ∃ event, mode.step c = .ok (next, event) ∧ takes stack event.toList = some stack' := by
  rcases hstep : mode.step c with error | ⟨next', _ | event⟩
  · simp [Reader.step, hstep]
  · simp [Reader.step, hstep, takes]
  · simp [Reader.step, hstep, takes, handle_eq_reading]

/-- A reader is in the middle of a document if all of the text so far has been scanned, and its events
have been taken. -/
theorem run_eq_reading {text : List Char} {mode last : Mode} {stack stack' : List OpenElement} :
    (Reader.reading mode stack).run text = .reading last stack' ↔
      ∃ events, Scans mode text events last ∧ takes stack events = some stack' := by
  -- Character by character: the scanner takes one step, and the open elements take its event.
  induction text generalizing mode stack with
  | nil =>
    constructor
    · intro h
      obtain ⟨rfl, rfl⟩ := Reader.reading.inj h
      exact ⟨[], .nil mode, rfl⟩
    · rintro ⟨events, hscans, htakes⟩
      cases hscans
      rw [Option.some.inj htakes]
      rfl
  | cons c text ih =>
    have hrun : (Reader.reading mode stack).run (c :: text) =
        ((Reader.reading mode stack).step c).run text := rfl
    rw [hrun]
    constructor
    · intro h
      obtain ⟨next, middle, hreading⟩ := exists_reading_of_run h
      obtain ⟨event, hstep, hevent⟩ := step_eq_reading.mp hreading
      rw [hreading] at h
      obtain ⟨events, hscans, hevents⟩ := ih.mp h
      refine ⟨event.toList ++ events, .cons hstep hscans, ?_⟩
      rw [takes_append, hevent]
      exact hevents
    · rintro ⟨events, hscans, htakes⟩
      cases hscans with
      | @cons _ next _ _ _ event events hstep hscans =>
        rw [takes_append] at htakes
        obtain ⟨middle, hevent, hevents⟩ := Option.bind_eq_some_iff.mp htakes
        rw [step_eq_reading.mpr ⟨event, hstep, hevent⟩]
        exact ih.mpr ⟨events, hscans, hevents⟩

/-! ## The grammar of what is read -/

/-- The text that an event contributes to the element that it stands in. -/
def Event.text? : Event → Option (List Char)
  | .text value | .characterData value => some value
  | .reference name => some (decodeText name)
  | .startTag _ _ | .emptyTag _ _ | .endTag _ => none

/-- Events that stand for trees: each end tag belongs to the start tag of the element that is open. -/
inductive Content : List Event → List Tree → Prop where
  | nil : Content [] []
  | text {event : Event} {value : List Char} {events : List Event} {trees : List Tree}
      (htext : event.text? = some value) (hrest : Content events trees) :
    Content (event :: events) (.text (String.ofList value) :: trees)
  | empty {name : String} {attributes : Attributes} {events : List Event} {trees : List Tree}
      (hrest : Content events trees) :
    Content (.emptyTag name attributes :: events) (.element name attributes [] :: trees)
  | element {name : String} {attributes : Attributes} {inner events : List Event}
      {children trees : List Tree} (hinner : Content inner children) (hrest : Content events trees) :
    Content (.startTag name attributes :: (inner ++ .endTag name :: events))
      (.element name attributes (contentOf children) :: trees)

/-- Events in which some elements have been opened and not closed; their names are listed innermost
first. What stands in front of the root is text that does not matter. -/
inductive Unclosed : List String → List Event → Prop where
  | outside {events : List Event} (hevents : ∀ event ∈ events, event.text?.isSome) :
    Unclosed [] events
  | inside {name : String} {outer : List String} {attributes : Attributes}
      {events content : List Event} {children : List Tree} (houter : Unclosed outer events)
      (hcontent : Content content children) :
    Unclosed (name :: outer) (events ++ .startTag name attributes :: content)

theorem Content.append {events events' : List Event} {trees trees' : List Tree}
    (h : Content events trees) (h' : Content events' trees') :
    Content (events ++ events') (trees ++ trees') := by
  induction h with
  | nil => exact h'
  | text htext _ ih => exact .text htext ih
  | empty _ ih => exact .empty ih
  | element hinner _ _ ih =>
    rw [List.cons_append, List.append_assoc, List.cons_append]
    exact .element hinner ih

/-- More content goes to the innermost element. -/
theorem Unclosed.append {name : String} {outer : List String} {events more : List Event}
    {trees : List Tree} (h : Unclosed (name :: outer) events) (hmore : Content more trees) :
    Unclosed (name :: outer) (events ++ more) := by
  cases h with
  | inside houter hcontent =>
    rw [List.append_assoc, List.cons_append]
    exact .inside houter (hcontent.append hmore)

/-- The innermost element becomes content of the one around it when it closes. -/
theorem Unclosed.close {name parent : String} {outer : List String} {events : List Event}
    (h : Unclosed (name :: parent :: outer) events) :
    Unclosed (parent :: outer) (events ++ [.endTag name]) := by
  cases h with
  | inside houter hcontent =>
    rw [List.append_assoc, List.cons_append]
    exact houter.append (.element hcontent .nil)

/-- Text goes to the innermost element as well, if there is one. -/
theorem Unclosed.text {names : List String} {events : List Event} {event : Event}
    (h : Unclosed names events) (htext : event.text?.isSome) : Unclosed names (events ++ [event]) := by
  cases names with
  | nil =>
    cases h with
    | outside hevents =>
      refine .outside fun e he => ?_
      rcases List.mem_append.mp he with he | he
      · exact hevents e he
      · rwa [List.mem_singleton.mp he]
  | cons name outer =>
    obtain ⟨value, hvalue⟩ := Option.isSome_iff_exists.mp htext
    exact h.append (.text hvalue .nil)

/-! ## What the open elements are -/

/-- Text is added to the innermost element, and ignored where none is open. -/
theorem stackAfter_text {event : Event} {value : List Char} (h : event.text? = some value)
    (stack : List OpenElement) : stackAfter stack event =
      some (stack.modifyHead (·.add (.text (String.ofList value)))) := by
  cases event with
  | text | characterData | reference =>
    rw [← Option.some.inj h]
    cases stack <;> rfl
  | startTag | emptyTag | endTag => cases h

theorem stackAfter_startTag (name : String) (attributes : Attributes) (stack : List OpenElement) :
    stackAfter stack (.startTag name attributes) = some (⟨name, attributes, []⟩ :: stack) := rfl

/-- The trees of some content are added to the element that is open. -/
theorem takes_content {events : List Event} {trees : List Tree} (h : Content events trees)
    (e : OpenElement) (outer : List OpenElement) :
    takes (e :: outer) events = some (e.fill trees :: outer) := by
  -- On the content: an element is opened, filled by its own content, and closed again.
  induction h generalizing e outer with
  | nil => rfl
  | text htext _ ih =>
    rw [takes, List.foldlM_cons, stackAfter_text htext]
    exact ih _ outer
  | empty _ ih => exact ih _ outer
  | @element name attributes inner events children trees _ _ ihinner ih =>
    have hclose : stackAfter ((⟨name, attributes, []⟩ : OpenElement).fill children :: e :: outer)
        (.endTag name) = some (e.push (.element name attributes (contentOf children)) :: outer) := by
      simp [stackAfter, Reader.handle, Reader.complete, OpenElement.close_fill, Element.toTree]
    rw [takes, List.foldlM_cons, stackAfter_startTag]
    refine (takes_append _ _ _).trans ?_
    rw [ihinner, Option.bind_some, takes, List.foldlM_cons, hclose]
    exact ih _ outer

/-- The elements that have been opened and not closed are open. -/
theorem exists_takes {names : List String} {events : List Event} (h : Unclosed names events) :
    ∃ stack, takes [] events = some stack ∧ stack.map (·.name) = names := by
  induction h with
  | @outside events hevents =>
    refine ⟨[], ?_, rfl⟩
    induction events with
    | nil => rfl
    | cons event events ih =>
      obtain ⟨hevent, hrest⟩ := List.forall_mem_cons.mp hevents
      obtain ⟨value, hvalue⟩ := Option.isSome_iff_exists.mp hevent
      rw [takes, List.foldlM_cons, stackAfter_text hvalue]
      exact ih hrest
  | @inside name outer attributes events content children _ hcontent ih =>
    obtain ⟨stack, htakes, hnames⟩ := ih
    refine ⟨(⟨name, attributes, []⟩ : OpenElement).fill children :: stack, ?_, ?_⟩
    · rw [takes_append, htakes, Option.bind_some, takes, List.foldlM_cons, stackAfter_startTag]
      exact takes_content hcontent _ stack
    · rw [List.map_cons, OpenElement.name_fill, hnames]

/-- One event keeps it so that the open elements are those that have been opened and not closed. -/
theorem Unclosed.snoc {stack stack' : List OpenElement} {events : List Event} {event : Event}
    (h : Unclosed (stack.map (·.name)) events) (hafter : stackAfter stack event = some stack') :
    Unclosed (stack'.map (·.name)) (events ++ [event]) := by
  -- Text leaves the open elements as they are; a tag opens or closes one.
  by_cases htext : event.text?.isSome
  · obtain ⟨value, hvalue⟩ := Option.isSome_iff_exists.mp htext
    have hnames : stack'.map (·.name) = stack.map (·.name) := by
      rw [stackAfter_text hvalue, Option.some_inj] at hafter
      rw [← hafter]
      cases stack with
      | nil => rfl
      | cons e outer => simp
    rw [hnames]
    exact h.text htext
  · cases event with
    | text | reference | characterData => exact absurd rfl htext
    | startTag name attributes =>
      rw [← Option.some.inj hafter]
      exact .inside h .nil
    | emptyTag name attributes =>
      rcases stack with _ | ⟨e, outer⟩
      · cases hafter
      · rw [← Option.some.inj hafter]
        exact h.append (.empty .nil)
    | endTag name =>
      rcases stack with _ | ⟨e, _ | ⟨parent, outer⟩⟩
      · cases hafter
      · by_cases hname : e.name = name <;>
          simp [stackAfter, Reader.handle, Reader.complete, hname] at hafter
      · by_cases hname : e.name = name
        · simp only [stackAfter, Reader.handle, Reader.complete, if_pos hname,
            Option.some_inj] at hafter
          rw [← hafter, ← hname]
          exact h.close
        · simp [stackAfter, Reader.handle, hname] at hafter

/-- After all events, the open elements are those that have been opened and not closed. -/
theorem unclosed_iff {names : List String} {events : List Event} :
    Unclosed names events ↔ ∃ stack, takes [] events = some stack ∧ stack.map (·.name) = names := by
  refine ⟨exists_takes, ?_⟩
  rintro ⟨stack, htakes, rfl⟩
  -- From the end, since the innermost element is the one that was opened last.
  induction events using List.reverseRecOn generalizing stack with
  | nil =>
    rw [← Option.some.inj htakes]
    exact .outside nofun
  | append_singleton events event ih =>
    rw [takes_append] at htakes
    obtain ⟨middle, hevents, hevent⟩ := Option.bind_eq_some_iff.mp htakes
    have hafter : stackAfter middle event = some stack := by
      rw [takes, List.foldlM_cons] at hevent
      obtain ⟨last, hlast, hnil⟩ := Option.bind_eq_some_iff.mp hevent
      rw [hlast]
      exact hnil
    exact (ih middle hevents).snoc hafter

end DocWeave.Xml

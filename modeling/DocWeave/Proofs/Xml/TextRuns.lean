import DocWeave.Proofs.Xml.Truncation
import Mathlib.Data.List.Chain

/-!
# Runs of text

Between two tags there may be several pieces of text: characters, references and sections of character
data, with comments and processing instructions among them. They become one text leaf, or none if they
are layout.

- `Passes`: the pieces of a text that is scanned, with those that give no event.
- `Runs`: the pieces of an element cut into runs of text and child elements; `Content.runs`: what is
  read is cut like this.
- `Element.ReadFrom`: an element with the pieces that it is read from; `Inside`: the elements of a
  tree.
- `Element.IsNormal`: what holds of all elements.
- `parse_normal`: each element of a document is read from its pieces, and is in normal form.
-/

namespace DocWeave.Xml

/-! ## Pieces -/

/-- What a character completes: an event, or markup that gives none. -/
def completed : Mode → Mode → Option Event → List (Option Event)
  | _, _, some event => [some event]
  | .comment _, .text _, none | .instruction _, .text _, none | .doctype _ _, .text _, none => [none]
  | _, _, none => []

/-- A text that is scanned from a mode on passes some pieces, comments and the like included, and ends
in a mode. -/
inductive Passes : Mode → List Char → List (Option Event) → Mode → Prop where
  | nil (mode : Mode) : Passes mode [] [] mode
  | cons {mode next last : Mode} {c : Char} {text : List Char} {event : Option Event}
      {pieces : List (Option Event)} (hstep : mode.step c = .ok (next, event))
      (htext : Passes next text pieces last) :
    Passes mode (c :: text) (completed mode next event ++ pieces) last

/-- The events among some pieces. -/
def eventsOf (pieces : List (Option Event)) : List Event :=
  pieces.filterMap id

theorem eventsOf_append (x y : List (Option Event)) :
    eventsOf (x ++ y) = eventsOf x ++ eventsOf y :=
  List.filterMap_append

/-- What a character completes has at most one event. -/
theorem eventsOf_completed (mode next : Mode) (event : Option Event) :
    eventsOf (completed mode next event) = event.toList := by
  unfold completed
  split <;> rfl

/-- In front of an event there may be pieces that give none. -/
theorem eventsOf_eq_cons {pieces : List (Option Event)} {event : Event} {events : List Event}
    (h : eventsOf pieces = event :: events) : ∃ ignored rest, pieces = ignored ++ some event :: rest ∧
      (∀ piece ∈ ignored, piece = none) ∧ eventsOf rest = events := by
  obtain ⟨ignored, piece, rest, rfl, hignored, hpiece, hrest⟩ := List.filterMap_eq_cons_iff.mp h
  -- What is kept of the pieces is the events, so this piece is the first of them.
  obtain rfl : piece = some event := hpiece
  exact ⟨ignored, rest, rfl, hignored, hrest⟩

theorem eventsOf_ignored {ignored : List (Option Event)} (h : ∀ piece ∈ ignored, piece = none) :
    eventsOf ignored = [] :=
  List.filterMap_eq_nil_iff.mpr h

/-- The pieces of a text that is scanned have the events that are found in it. -/
theorem Scans.exists_passes {mode last : Mode} {text : List Char} {events : List Event}
    (h : Scans mode text events last) :
    ∃ pieces, Passes mode text pieces last ∧ eventsOf pieces = events := by
  induction h with
  | nil mode => exact ⟨[], .nil mode, rfl⟩
  | cons hstep _ ih =>
    obtain ⟨pieces, hpasses, rfl⟩ := ih
    refine ⟨_, .cons hstep hpasses, ?_⟩
    rw [eventsOf_append, eventsOf_completed]

theorem Passes.append {mode middle last : Mode} {x y : List Char} {front back : List (Option Event)}
    (h : Passes mode x front middle) (h' : Passes middle y back last) :
    Passes mode (x ++ y) (front ++ back) last := by
  induction h with
  | nil mode => exact h'
  | cons hstep _ ih =>
    rw [List.append_assoc]
    exact .cons hstep (ih h')

/-! ## Runs -/

/-- Pieces without tags. -/
def IsRun (run : List (Option Event)) : Prop :=
  ∀ event, some event ∈ run → event.text?.isSome

/-- The texts of the pieces in a run. -/
def textsOf (run : List (Option Event)) : List (List Char) :=
  run.filterMap (·.bind Event.text?)

/-- The text leaf of a run; there is none if the run has no text. -/
def leafOf (run : List (Option Event)) : List Tree :=
  if textsOf run = [] then [] else [.text (String.ofList (textsOf run).flatten)]

/-- The pieces in an element are cut at its child elements. Between them, and at both ends, stand runs,
each with its leaf. The children of a child are what is left of its own pieces without layout. -/
inductive Runs : List (Option Event) → List Tree → Prop where
  | last {run : List (Option Event)} (hrun : IsRun run) : Runs run (leafOf run)
  | empty {run rest : List (Option Event)} {name : String} {attributes : Attributes}
      {trees : List Tree} (hrun : IsRun run) (hrest : Runs rest trees) :
    Runs (run ++ some (.emptyTag name attributes) :: rest)
      (leafOf run ++ .element name attributes [] :: trees)
  | element {run inner rest : List (Option Event)} {name : String} {attributes : Attributes}
      {within trees : List Tree} (hrun : IsRun run) (hinner : Runs inner within)
      (hrest : Runs rest trees) :
    Runs (run ++ some (.startTag name attributes) :: (inner ++ some (.endTag name) :: rest))
      (leafOf run ++ .element name attributes (within.filter (!Tree.isLayout ·)) :: trees)

theorem isRun_nil : IsRun [] :=
  nofun

/-- Markup that gives no event belongs to the run behind it. -/
theorem IsRun.consIgnored {run : List (Option Event)} (h : IsRun run) : IsRun (none :: run) := by
  intro event hevent
  rcases List.mem_cons.mp hevent with hnone | hevent
  · cases hnone
  · exact h event hevent

theorem IsRun.consText {run : List (Option Event)} (h : IsRun run) {event : Event}
    (htext : event.text?.isSome) : IsRun (some event :: run) := by
  intro e he
  rcases List.mem_cons.mp he with hsome | he
  · rw [Option.some.inj hsome]
    exact htext
  · exact h e he

/-- Markup that gives no event does not split a run. -/
theorem Runs.consIgnored {pieces : List (Option Event)} {trees : List Tree} (h : Runs pieces trees) :
    Runs (none :: pieces) trees := by
  cases h with
  | last hrun => exact .last hrun.consIgnored
  | empty hrun hrest => exact .empty hrun.consIgnored hrest
  | element hrun hinner hrest => exact .element hrun.consIgnored hinner hrest

theorem Runs.appendIgnored {ignored pieces : List (Option Event)} {trees : List Tree}
    (hignored : ∀ piece ∈ ignored, piece = none) (h : Runs pieces trees) :
    Runs (ignored ++ pieces) trees := by
  induction ignored with
  | nil => exact h
  | cons piece ignored ih =>
    obtain ⟨rfl, hrest⟩ := List.forall_mem_cons.mp hignored
    exact (ih hrest).consIgnored

/-- Text in front of a run goes to the leaf of the run. -/
theorem leafOf_consText {event : Event} {value : List Char} (htext : event.text? = some value)
    (run : List (Option Event)) {trees : List Tree} (h : ∀ t ∈ trees.head?, t.isText = false) :
    leafOf (some event :: run) ++ trees =
      consJoined (.text (String.ofList value)) (leafOf run ++ trees) := by
  have htexts : textsOf (some event :: run) = value :: textsOf run :=
    List.filterMap_cons_some htext
  unfold leafOf
  rw [htexts, if_neg (List.cons_ne_nil _ _), List.flatten_cons, String.ofList_append]
  -- A run without text gets a leaf, and any other run a longer one.
  by_cases hrun : textsOf run = []
  · rw [if_pos hrun, hrun]
    rcases trees with _ | ⟨_ | _, trees⟩
    · simp [consJoined]
    · cases h _ rfl
    · simp [consJoined]
  · rw [if_neg hrun]
    rfl

/-- Text in front of the pieces is joined to the first leaf, if a run starts them. -/
theorem Runs.consText {event : Event} {value : List Char} (htext : event.text? = some value)
    {pieces : List (Option Event)} {trees : List Tree} (h : Runs pieces trees) :
    Runs (some event :: pieces) (consJoined (.text (String.ofList value)) trees) := by
  have hsome : event.text?.isSome := by
    rw [htext]
    rfl
  have hhead {name : String} {attributes : Attributes} {children trees : List Tree} :
      ∀ t ∈ (Tree.element name attributes children :: trees).head?, t.isText = false := by
    intro t ht
    rw [← Option.some.inj ht]
    rfl
  cases h with
  | last hrun =>
    have hleaf : leafOf (some event :: pieces) ++ [] =
        consJoined (.text (String.ofList value)) (leafOf pieces ++ []) :=
      leafOf_consText htext pieces nofun
    rw [List.append_nil, List.append_nil] at hleaf
    rw [← hleaf]
    exact .last (hrun.consText hsome)
  | @empty run _ _ _ _ hrun hrest =>
    rw [← leafOf_consText htext run hhead]
    exact .empty (hrun.consText hsome) hrest
  | @element run _ _ _ _ _ _ hrun hinner hrest =>
    rw [← leafOf_consText htext run hhead]
    exact .element (hrun.consText hsome) hinner hrest

/-- The trees that events stand for are the leaves and elements of the runs, with markup that gives no
event anywhere among them. -/
theorem Content.runs {events : List Event} {trees : List Tree} (h : Content events trees) :
    ∀ {pieces : List (Option Event)}, eventsOf pieces = events → Runs pieces (joinTexts trees) := by
  induction h with
  | nil =>
    intro pieces hpieces
    have hignored : ∀ piece ∈ pieces, piece = none := List.filterMap_eq_nil_iff.mp hpieces
    rw [← List.append_nil pieces]
    exact .appendIgnored hignored (.last isRun_nil)
  | text htext _ ih =>
    intro pieces hpieces
    obtain ⟨ignored, rest, rfl, hignored, hrest⟩ := eventsOf_eq_cons hpieces
    exact .appendIgnored hignored ((ih hrest).consText htext)
  | empty _ ih =>
    intro pieces hpieces
    obtain ⟨ignored, rest, rfl, hignored, hrest⟩ := eventsOf_eq_cons hpieces
    exact .appendIgnored hignored (.empty isRun_nil (ih hrest))
  | @element name attributes within events children trees _ _ ihinner ih =>
    intro pieces hpieces
    obtain ⟨ignored, rest, rfl, hignored, hrest⟩ := eventsOf_eq_cons hpieces
    obtain ⟨inner, back, rfl, hinner, hback⟩ := List.filterMap_eq_append_iff.mp hrest
    obtain ⟨between, more, rfl, hbetween, hmore⟩ := eventsOf_eq_cons hback
    -- What stands between the last child and the end tag belongs to the element.
    have hwithin : eventsOf (inner ++ between) = within := by
      rw [eventsOf_append, eventsOf_ignored hbetween, List.append_nil]
      exact hinner
    rw [← List.append_assoc inner]
    exact .appendIgnored hignored (.element isRun_nil (ihinner hwithin) (ih hmore))

/-! ## Elements -/

/-- An element is read from some pieces: an empty tag, or its tags with what stands between them. -/
def Element.ReadFrom (e : Element) (pieces : List (Option Event)) : Prop :=
  pieces = [some (.emptyTag e.name e.attributes)] ∧ e.children = [] ∨
    ∃ inner trees, pieces =
        some (.startTag e.name e.attributes) :: (inner ++ [some (.endTag e.name)]) ∧
      Runs inner trees ∧ e.children = trees.filter (!Tree.isLayout ·)

/-- The elements of a tree: its root, and all children. -/
inductive Element.Inside (root : Element) : Element → Prop where
  | root : Inside root root
  | child {e child : Element} (he : Inside root e) (hchild : child.toTree ∈ e.children) :
    Inside root child

theorem not_mem_leafOf {run : List (Option Event)} {e : Element} : e.toTree ∉ leafOf run := by
  unfold leafOf
  split <;> simp [Element.toTree]

/-- The elements among the trees of some pieces are read from a part of them. -/
theorem Runs.exists_part {pieces : List (Option Event)} {trees : List Tree} (h : Runs pieces trees)
    {e : Element} (he : e.toTree ∈ trees) : ∃ part, part <:+: pieces ∧ e.ReadFrom part := by
  obtain ⟨name, attributes, children⟩ := e
  induction h with
  | last hrun => exact absurd he not_mem_leafOf
  | @empty run rest tagName tagAttributes _ _ _ ih =>
    rcases List.mem_append.mp he with hleaf | he
    · exact absurd hleaf not_mem_leafOf
    · rcases List.mem_cons.mp he with heq | he
      · cases heq
        exact ⟨_, ⟨run, rest, by simp⟩, Or.inl ⟨rfl, rfl⟩⟩
      · obtain ⟨part, hpart, hread⟩ := ih he
        have hrest : rest <:+: run ++ some (.emptyTag tagName tagAttributes) :: rest :=
          ⟨run ++ [some (.emptyTag tagName tagAttributes)], [], by simp⟩
        exact ⟨part, hpart.trans hrest, hread⟩
  | @element run inner rest tagName tagAttributes within _ _ hinner _ _ ih =>
    rcases List.mem_append.mp he with hleaf | he
    · exact absurd hleaf not_mem_leafOf
    · rcases List.mem_cons.mp he with heq | he
      · cases heq
        exact ⟨_, ⟨run, rest, by simp⟩, Or.inr ⟨inner, within, rfl, hinner, rfl⟩⟩
      · obtain ⟨part, hpart, hread⟩ := ih he
        have hrest : rest <:+: run ++ some (.startTag tagName tagAttributes) ::
            (inner ++ some (.endTag tagName) :: rest) :=
          ⟨run ++ some (.startTag tagName tagAttributes) :: (inner ++ [some (.endTag tagName)]), [],
            by simp⟩
        exact ⟨part, hpart.trans hrest, hread⟩

/-- A child is read from a part of the pieces of its parent. -/
theorem Element.ReadFrom.exists_part {e child : Element} {pieces : List (Option Event)}
    (h : e.ReadFrom pieces) (hchild : child.toTree ∈ e.children) :
    ∃ part, part <:+: pieces ∧ child.ReadFrom part := by
  rcases h with ⟨-, hnone⟩ | ⟨inner, trees, rfl, hruns, hchildren⟩
  · rw [hnone] at hchild
    cases hchild
  · rw [hchildren] at hchild
    obtain ⟨part, hpart, hread⟩ := hruns.exists_part (List.mem_of_mem_filter hchild)
    have hinner : inner <:+:
        some (.startTag e.name e.attributes) :: (inner ++ [some (.endTag e.name)]) :=
      ⟨[some (.startTag e.name e.attributes)], [some (.endTag e.name)], by simp⟩
    exact ⟨part, hpart.trans hinner, hread⟩

/-- Each element of a tree is read from a part of the pieces of its root. -/
theorem Element.Inside.exists_part {root e : Element} (h : root.Inside e)
    {pieces : List (Option Event)} (hroot : root.ReadFrom pieces) :
    ∃ part, part <:+: pieces ∧ e.ReadFrom part := by
  induction h with
  | root => exact ⟨pieces, List.infix_refl pieces, hroot⟩
  | child _ hchild ih =>
    obtain ⟨part, hpart, hread⟩ := ih
    obtain ⟨inner, hinner, hchildRead⟩ := hread.exists_part hchild
    exact ⟨inner, hinner.trans hpart, hchildRead⟩

/-! ## The normal form -/

/-- No two texts stand next to each other. -/
def TextsApart (trees : List Tree) : Prop :=
  trees.IsChain fun t u => t.isText = false ∨ u.isText = false

/-- What holds of an element that was read. -/
structure Element.IsNormal (e : Element) : Prop where
  /-- No two of its texts stand next to each other. -/
  apart : TextsApart e.children
  /-- No text is blank and has a line feed. -/
  shown : ∀ value, .text value ∈ e.children →
    ¬ ('\n' ∈ value.toList ∧ ∀ c ∈ value.toList, Text.isBlank c)
  /-- No attribute declares a namespace. -/
  attributes : ∀ a ∈ e.attributes, ¬ "xmlns".toList <+: a.1.toList

/-- What is left of the leaf of a run without layout. -/
theorem filter_leafOf_cases (run : List (Option Event)) :
    (leafOf run).filter (!Tree.isLayout ·) = [] ∨
      ∃ value, (leafOf run).filter (!Tree.isLayout ·) = [.text value] := by
  unfold leafOf
  split
  · exact Or.inl rfl
  · rw [List.filter_singleton]
    cases Tree.isLayout _ with
    | false => exact Or.inr ⟨_, rfl⟩
    | true => exact Or.inl rfl

/-- At most one text stands in front of an element. -/
theorem textsApart_leafOf_append (run : List (Option Event)) (name : String)
    (attributes : Attributes) (children : List Tree) {trees : List Tree}
    (h : TextsApart (trees.filter (!Tree.isLayout ·))) :
    TextsApart ((leafOf run ++ .element name attributes children :: trees).filter
      (!Tree.isLayout ·)) := by
  -- An element keeps the texts on both sides of it apart.
  have helement : TextsApart (.element name attributes children ::
      trees.filter (!Tree.isLayout ·)) := List.isChain_cons.mpr ⟨fun u _ => Or.inl rfl, h⟩
  rw [List.filter_append, List.filter_cons_of_pos rfl]
  rcases filter_leafOf_cases run with hleaf | ⟨value, hleaf⟩
  · rw [hleaf]
    exact helement
  · rw [hleaf]
    exact List.isChain_cons_cons.mpr ⟨Or.inr rfl, helement⟩

/-- Between two texts there is an element, which stays when layout is dropped. -/
theorem Runs.textsApart {pieces : List (Option Event)} {trees : List Tree}
    (h : Runs pieces trees) : TextsApart (trees.filter (!Tree.isLayout ·)) := by
  induction h with
  | @last run _ =>
    rcases filter_leafOf_cases run with hleaf | ⟨value, hleaf⟩
    · rw [hleaf]
      exact .nil
    · rw [hleaf]
      exact .singleton _
  | empty _ _ ih => exact textsApart_leafOf_append _ _ _ _ ih
  | element _ _ _ _ ih => exact textsApart_leafOf_append _ _ _ _ ih

/-- The attributes of a tag. -/
def Event.attributes : Event → Attributes
  | .startTag _ attributes | .emptyTag _ attributes => attributes
  | .text _ | .reference _ | .characterData _ | .endTag _ => []

/-- Some event has no attribute that declares a namespace. -/
def Event.DeclaresNothing (event : Event) : Prop :=
  ∀ a ∈ event.attributes, isNamespaceName a.1.toList = false

/-- Attributes that declare namespaces are left out of a tag. -/
theorem declaresNothing_tagEvent (content : List Char) : (tagEvent content).DeclaresNothing := by
  -- Only other attributes pass the filter of the reader.
  have hofTag (text : List Char) : ∀ a ∈ Attributes.ofTag text, isNamespaceName a.1.toList = false := by
    intro a ha
    unfold Attributes.ofTag at ha
    obtain ⟨b, hb, rfl⟩ := List.mem_map.mp ha
    rw [String.toList_ofList]
    simpa using (List.mem_filter.mp hb).2
  unfold tagEvent
  dsimp only
  split <;> exact hofTag _

/-- Only tags have attributes, and all of them are read in the same way. -/
theorem declaresNothing_of_step {mode next : Mode} {c : Char} {event : Event}
    (h : mode.step c = .ok (next, some event)) : event.DeclaresNothing := by
  have hstart {read : List Char} {quote : Option Char}
      (h : startTagStep read quote c = (next, some event)) : event.DeclaresNothing := by
    unfold startTagStep at h
    split at h
    · rw [← Option.some.inj (Prod.mk.inj h).2]
      exact declaresNothing_tagEvent _
    · cases h
  unfold Mode.step at h
  cases mode with
  | startTag read quote => exact hstart (Except.ok.inj h)
  | markup =>
    dsimp only at h
    repeat' split at h
    · cases h
    · cases h
    · cases h
    · exact hstart (Except.ok.inj h)
  | comment read =>
    dsimp only [commentStep] at h
    repeat' split at h
    all_goals cases h
  | characterData read =>
    dsimp only [characterDataStep] at h
    repeat' split at h
    all_goals cases h
    nofun
  | doctype read within =>
    dsimp only [endDoctype] at h
    repeat' split at h
    all_goals cases h
  | text | reference | endTag | instruction | declaration =>
    dsimp only at h
    repeat' split at h
    all_goals cases h
    all_goals nofun

theorem Passes.declaresNothing {mode last : Mode} {text : List Char} {pieces : List (Option Event)}
    (h : Passes mode text pieces last) : ∀ event, some event ∈ pieces → event.DeclaresNothing := by
  induction h with
  | nil mode => nofun
  | @cons mode next last c text event? pieces hstep _ ih =>
    intro event hevent
    rcases List.mem_append.mp hevent with hcompleted | hevent
    · have hfound : event ∈ eventsOf (completed mode next event?) :=
        List.mem_filterMap.mpr ⟨some event, hcompleted, rfl⟩
      rw [eventsOf_completed, Option.mem_toList] at hfound
      rw [hfound] at hstep
      exact declaresNothing_of_step hstep
    · exact ih event hevent

/-- An element is in normal form if no event that it is read from declares a namespace. -/
theorem Element.ReadFrom.isNormal {e : Element} {pieces : List (Option Event)}
    (h : e.ReadFrom pieces) (hpieces : ∀ event, some event ∈ pieces → event.DeclaresNothing) :
    e.IsNormal := by
  have hattributes {a : String × String} (ha : isNamespaceName a.1.toList = false) :
      ¬ "xmlns".toList <+: a.1.toList := by
    rw [isNamespaceName, Bool.eq_false_iff, ne_eq, List.isPrefixOf_iff_prefix] at ha
    exact ha
  rcases h with ⟨rfl, hnone⟩ | ⟨inner, trees, rfl, hruns, hchildren⟩
  · refine ⟨?_, ?_, fun a ha => hattributes (hpieces _ List.mem_cons_self a ha)⟩
    · rw [hnone]
      exact .nil
    · rw [hnone]
      nofun
  · refine ⟨?_, ?_, fun a ha => hattributes (hpieces _ List.mem_cons_self a ha)⟩
    · rw [hchildren]
      exact hruns.textsApart
    · rw [hchildren]
      rintro value hvalue ⟨hfeed, hblank⟩
      have hkept := (List.mem_filter.mp hvalue).2
      -- A blank text with a line feed would have been dropped.
      have hlayout : (Tree.text value).isLayout = true := by
        rw [Tree.isLayout, Bool.and_eq_true]
        exact ⟨List.contains_iff_mem.mpr hfeed, List.all_eq_true.mpr hblank⟩
      rw [hlayout] at hkept
      cases hkept

/-! ## Documents -/

/-- A reader that finds the root closes it at some character, up to which it was in the middle of the
document. -/
theorem exists_finishing {mode : Mode} {stack : List OpenElement} {text : List Char} {root : Element}
    (h : (Reader.reading mode stack).run text = .finished root) :
    ∃ front c rest mode' stack', text = front ++ c :: rest ∧
      (Reader.reading mode stack).run front = .reading mode' stack' ∧
      (Reader.reading mode' stack').step c = .finished root := by
  induction text generalizing mode stack with
  | nil => cases h
  | cons c text ih =>
    have hrun : ((Reader.reading mode stack).step c).run text = .finished root := h
    cases hstep : (Reader.reading mode stack).step c with
    | reading next middle =>
      rw [hstep] at hrun
      obtain ⟨front, d, rest, mode', stack', rfl, hfront, hd⟩ := ih hrun
      refine ⟨c :: front, d, rest, mode', stack', rfl, ?_, hd⟩
      rw [← hfront, ← hstep]
      rfl
    | finished found =>
      rw [hstep, run_finished] at hrun
      obtain rfl := Reader.finished.inj hrun
      exact ⟨[], c, text, mode, stack, rfl, rfl, hstep⟩
    | failed error =>
      rw [hstep, run_failed] at hrun
      cases hrun

/-- The root is an empty tag where nothing is open, or it is the only element that is open, and its end
tag has been read. -/
theorem handle_eq_finished {mode : Mode} {stack : List OpenElement} {event : Event} {root : Element}
    (h : Reader.handle mode stack event = .finished root) :
    stack = [] ∧ event = .emptyTag root.name root.attributes ∧ root.children = [] ∨
      ∃ e, stack = [e] ∧ event = .endTag e.name ∧ root = e.close := by
  cases event with
  | text | reference | characterData => cases stack <;> cases h
  | startTag => cases h
  | emptyTag name attributes =>
    rcases stack with _ | ⟨parent, outer⟩
    · cases h
      exact Or.inl ⟨rfl, rfl, rfl⟩
    · cases h
  | endTag name =>
    rcases stack with _ | ⟨e, outer⟩
    · cases h
    · unfold Reader.handle at h
      dsimp only at h
      split at h
      · rename_i hname
        rcases outer with _ | ⟨parent, outer⟩
        · exact Or.inr ⟨e, rfl, by rw [hname], (Reader.finished.inj h).symm⟩
        · cases h
      · cases h

/-- Where nothing is open, there were no tags. -/
theorem forall_text_of_takes {events : List Event} (h : takes [] events = some []) :
    ∀ event ∈ events, event.text?.isSome := by
  cases unclosed_iff.mpr ⟨[], h, rfl⟩ with
  | outside hevents => exact hevents

/-- An element that is open alone has the content behind its start tag. -/
theorem exists_content_of_takes {events : List Event} {e : OpenElement}
    (h : takes [] events = some [e]) : ∃ before attributes content children,
      events = before ++ .startTag e.name attributes :: content ∧
      (∀ event ∈ before, event.text?.isSome) ∧ Content content children ∧
      e.close = ⟨e.name, attributes, contentOf children⟩ := by
  cases unclosed_iff.mpr ⟨[e], h, rfl⟩ with
  | @inside _ _ attributes before content children houter hcontent =>
    obtain ⟨stack, hbefore, hnames⟩ := unclosed_iff.mp houter
    obtain rfl : stack = [] := List.map_eq_nil_iff.mp hnames
    refine ⟨before, attributes, content, children, rfl, forall_text_of_takes hbefore, hcontent, ?_⟩
    have htakes : takes [] (before ++ .startTag e.name attributes :: content) =
        some [(⟨e.name, attributes, []⟩ : OpenElement).fill children] := by
      rw [takes_append, hbefore, Option.bind_some, takes, List.foldlM_cons, stackAfter_startTag]
      exact takes_content hcontent _ []
    obtain ⟨heq, -⟩ := List.cons.inj (Option.some.inj (h.symm.trans htakes))
    rw [congrArg OpenElement.close heq, OpenElement.close_fill]

/-- Pieces whose events are all text make a run. -/
theorem isRun_of_eventsOf {pieces : List (Option Event)}
    (h : ∀ event ∈ eventsOf pieces, event.text?.isSome) : IsRun pieces :=
  fun event hevent => h event (List.mem_filterMap.mpr ⟨some event, hevent, rfl⟩)

/-- The root is read from the last pieces of the text up to its end. In front of them there are no
tags. -/
theorem exists_readFrom {text : List Char} {root : Element}
    (h : Reader.start.run text = .finished root) : ∃ front rest before pieces last,
      text = front ++ rest ∧ Passes (.text []) front (before ++ pieces) last ∧ IsRun before ∧
      root.ReadFrom pieces := by
  obtain ⟨front, c, rest, mode, stack, rfl, hfront, hfinish⟩ := exists_finishing h
  obtain ⟨events, hscans, htakes⟩ := run_eq_reading.mp hfront
  obtain ⟨passed, hpasses, rfl⟩ := hscans.exists_passes
  -- Only an event can complete the root.
  obtain ⟨next, event, hstep, hhandle⟩ : ∃ next event, mode.step c = .ok (next, some event) ∧
      Reader.handle next stack event = .finished root := by
    unfold Reader.step at hfinish
    dsimp only at hfinish
    split at hfinish
    · cases hfinish
    · cases hfinish
    · exact ⟨_, _, ‹_›, hfinish⟩
  have hwhole : Passes (.text []) (front ++ [c]) (passed ++ [some event]) next :=
    hpasses.append (.cons hstep (.nil next))
  rcases handle_eq_finished hhandle with ⟨rfl, rfl, hnone⟩ | ⟨e, rfl, rfl, rfl⟩
  · refine ⟨front ++ [c], rest, passed, _, next, by simp, hwhole, ?_, Or.inl ⟨rfl, hnone⟩⟩
    exact isRun_of_eventsOf (forall_text_of_takes htakes)
  · obtain ⟨before, attributes, content, children, hevents, hbefore, hcontent, hclose⟩ :=
      exists_content_of_takes htakes
    -- The start tag of the root is among the pieces, perhaps behind markup that gives no event.
    obtain ⟨first, back, rfl, rfl, hback⟩ := List.filterMap_eq_append_iff.mp hevents
    obtain ⟨ignored, inner, rfl, hignored, rfl⟩ := eventsOf_eq_cons hback
    rw [hclose]
    refine ⟨front ++ [c], rest, first ++ ignored,
      some (.startTag e.name attributes) :: (inner ++ [some (.endTag e.name)]), next, by simp, ?_, ?_,
      Or.inr ⟨inner, joinTexts children, rfl, hcontent.runs rfl, rfl⟩⟩
    · simpa using hwhole
    · refine isRun_of_eventsOf fun event hevent => hbefore event ?_
      rw [eventsOf_append, eventsOf_ignored hignored, List.append_nil] at hevent
      exact hevent

/-- **What is read is in normal form.** The root is read from the pieces of the text up to its end, and
each element in it from a part of these: the text leaves that it has are the runs of its text between
child elements, in which markup without an event does not count, but for runs that are layout. So no two
texts stand next to each other, none is layout, and no attribute declares a namespace. -/
theorem parse_normal {text : String} {root : Element} (h : parse text = .ok root) :
    ∃ front rest before pieces last, dropByteOrderMark text.toList = front ++ rest ∧
      Passes (.text []) front (before ++ pieces) last ∧ IsRun before ∧ root.ReadFrom pieces ∧
      ∀ e, root.Inside e → e.IsNormal ∧ ∃ part, part <:+: pieces ∧ e.ReadFrom part := by
  obtain ⟨front, rest, before, pieces, last, htext, hpasses, hbefore, hread⟩ :=
    exists_readFrom (parse_eq_ok.mp h)
  refine ⟨front, rest, before, pieces, last, htext, hpasses, hbefore, hread, fun e he => ?_⟩
  obtain ⟨part, hpart, hpartRead⟩ := he.exists_part hread
  refine ⟨hpartRead.isNormal fun event hevent => ?_, part, hpart, hpartRead⟩
  exact hpasses.declaresNothing event (List.mem_append_right _ (hpart.subset hevent))

/-- A run that a processing instruction does not split, layout, and a declaration of a namespace. -/
theorem parse_normal_mixedContent :
    let root : Element := ⟨"a", [("k", "v")], [.text "x&", .element "b" [] []]⟩
    parse "<a xmlns='u' k='v'>x<?p?>&amp;<b/>\n</a>" = .ok root ∧ root.IsNormal ∧
      (⟨"b", [], []⟩ : Element).IsNormal ∧ ∃ pieces, root.ReadFrom pieces := by
  intro root
  have hparse : parse "<a xmlns='u' k='v'>x<?p?>&amp;<b/>\n</a>" = .ok root := by rfl
  obtain ⟨_, _, _, pieces, _, -, -, -, hread, hinside⟩ := parse_normal hparse
  have hchild : root.Inside ⟨"b", [], []⟩ :=
    .child .root (List.mem_cons_of_mem _ (List.mem_singleton_self _))
  exact ⟨hparse, (hinside root .root).1, (hinside _ hchild).1, pieces, hread⟩

end DocWeave.Xml

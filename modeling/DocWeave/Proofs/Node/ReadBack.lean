import DocWeave.Proofs.Xml.Reading

/-!
# Nodes are read back

The HTML of a node is XML. Read as such it gives the node again, whatever its texts, its ids and its
addresses are: none of them can be taken for markup.

- `elementAttributes`, `Node.asTree`: the element that a node is.
- `Holds.write`: reading a node adds it to the innermost element.
- `parse_htmlOf`: the element that is read from the HTML of a node.
-/

namespace DocWeave

open Xml

/-! ## The element of a node -/

/-- The attributes of the element that a node is: its id, if it has one, and what its label adds. -/
def elementAttributes (label : Label) (id : Option String) : Attributes :=
  (match id with
    | some value => [("id", value)]
    | none => []) ++
  match label with
  | .admonition kind => [("class", "admonition " ++ kind.name)]
  | .link url => [("href", url)]
  | .plain _ | .heading _ => []

mutual

/-- The element that a node is; a text leaf is a text. -/
def Node.asTree : Node → Tree
  | .text value => .text value
  | .branch label id children =>
    .element label.tag (elementAttributes label id) (shownContent (Node.asTrees children))

/-- The elements and texts that nodes are. -/
def Node.asTrees : List Node → List Tree
  | [] => []
  | n :: ns => n.asTree :: Node.asTrees ns

end

theorem allAttributes_eq (label : Label) (id : Option String) :
    label.allAttributes id = elementAttributes label id := by
  cases label <;> cases id <;> rfl

/-- The attributes of nodes can be told apart. -/
theorem written_elementAttributes (label : Label) (id : Option String) :
    Attributes.Written (elementAttributes label id) := by
  have hnames : ∀ name ∈ ["id", "class", "href"], isAttributeName name = true := by decide
  have hsublist : ((elementAttributes label id).map (·.1)).Sublist ["id", "class", "href"] := by
    cases label <;> cases id <;> simp [elementAttributes]
  exact ⟨hsublist.nodup (by decide), fun name hname => hnames name (hsublist.subset hname)⟩

/-- The name of an element starts with a letter, and goes on with letters and digits. -/
theorem isTag_tag (label : Label) : IsTag label.tag := by
  cases label with
  | plain kind => cases kind <;> exact ⟨⟨_, _, rfl, by decide⟩, List.all_eq_true.mp (by decide)⟩
  | heading depth =>
    have htag : (Label.heading depth).tag.toList = 'h' :: (Nat.repr depth.toNat).toList :=
      String.toList_append
    refine ⟨⟨_, _, htag, by decide⟩, fun c hc => ?_⟩
    rw [htag, Nat.toList_repr] at hc
    rcases List.mem_cons.mp hc with rfl | hc
    · decide
    · have hdigit := Nat.isDigit_of_mem_toDigits (by decide) (by decide) hc
      simp [Char.isAlphanum, hdigit]
  | admonition kind =>
    show IsTag "aside"
    exact ⟨⟨_, _, rfl, by decide⟩, List.all_eq_true.mp (by decide)⟩
  | link url =>
    show IsTag "a"
    exact ⟨⟨_, _, rfl, by decide⟩, List.all_eq_true.mp (by decide)⟩

/-! ## Reading nodes -/

/-- The trees that are added to an element for some nodes. -/
def Node.added (ns : List Node) : List Tree :=
  (Node.asTrees ns).filter (!·.isEmptyText)

theorem fill_added_text (e : OpenElement) (value : String) :
    e.fill (Node.added [.text value]) = e.hold value.toList := by
  unfold OpenElement.hold
  by_cases hvalue : value = ""
  · rw [hvalue]
    rfl
  · have hadded : Node.added [.text value] = [.text value] := filter_text hvalue []
    have hne : value.toList.isEmpty = false :=
      List.isEmpty_eq_false_iff.mpr fun hnil => hvalue (String.toList_eq_nil_iff.mp hnil)
    rw [hadded, hne, if_neg Bool.false_ne_true, String.ofList_toList]
    rfl

/-- The content of a node is added to its element before that closes. -/
theorem close_added (label : Label) (id : Option String) (children : List Node) :
    ((⟨label.tag, elementAttributes label id, []⟩ : OpenElement).fill (Node.added children)).close =
      ⟨label.tag, elementAttributes label id, shownContent (Node.asTrees children)⟩ := by
  rw [OpenElement.close_fill, Node.added, contentOf_filter]

theorem added_cons (n : Node) (ns : List Node) :
    Node.added (n :: ns) = Node.added [n] ++ Node.added ns :=
  List.filter_append [n.asTree] (Node.asTrees ns)

/-- The start tag of a node opens its element. -/
theorem run_writeStart {r : Reader} {stack : List OpenElement}
    (h : r.step '<' = .reading .markup stack) (label : Label) (id : Option String) :
    r.run (Node.writeStart label id) =
      .reading (.text []) (⟨label.tag, elementAttributes label id, []⟩ :: stack) := by
  rw [Node.writeStart, allAttributes_eq, List.cons_append, List.cons_append, run_cons, h]
  exact run_writtenStart (isTag_tag label) (written_elementAttributes label id)

mutual

/-- Reading a node adds it to the innermost element. -/
theorem holds_write {r : Reader} {e : OpenElement} {outer : List OpenElement} (h : Holds r e outer) :
    ∀ n : Node, Holds (r.run n.write) (e.fill (Node.added [n])) outer
  | .text value => by
    rw [Node.write, fill_added_text]
    exact h.escape value.toList
  | .branch label id children => by
    -- The start tag opens the element, the children fill it, and the end tag adds it to `e`.
    have hopened : Holds (r.run (Node.writeStart label id))
        ⟨label.tag, elementAttributes label id, []⟩ (e :: outer) := by
      rw [run_writeStart h.step_markup]
      exact holds_opened _ _
    have hchildren := holds_writeList hopened children
    rw [Node.write, run_append, run_append, Node.writeEnd,
      hchildren.run_writtenEnd (isTag_tag label) (OpenElement.name_fill _ _), close_added]
    exact holds_opened _ _

/-- So does reading several nodes. -/
theorem holds_writeList {r : Reader} {e : OpenElement} {outer : List OpenElement}
    (h : Holds r e outer) :
    ∀ ns : List Node, Holds (r.run (Node.writeList ns)) (e.fill (Node.added ns)) outer
  | [] => h
  | n :: ns => by
    rw [Node.writeList, run_append, added_cons, OpenElement.fill_append]
    exact holds_writeList (holds_write h n) ns

end

/-- **A node is read back from its HTML.** Whatever the node is, its HTML is a document, and the root
has the name, the attributes and the content of the node: the elements of its children in their order,
and their texts, joined where they stand next to each other and without those that are empty or
layout. -/
theorem parse_htmlOf (label : Label) (id : Option String) (children : List Node) :
    Xml.parse (htmlOf [.branch label id children]) =
      .ok ⟨label.tag, elementAttributes label id, shownContent (Node.asTrees children)⟩ := by
  have hopened : Holds (Reader.start.run (Node.writeStart label id))
      ⟨label.tag, elementAttributes label id, []⟩ [] := by
    rw [run_writeStart rfl]
    exact holds_opened _ _
  have hchildren := holds_writeList hopened children
  have hwritten : (htmlOf [.branch label id children]).toList =
      Node.writeStart label id ++ Node.writeList children ++ Node.writeEnd label := by
    rw [htmlOf, String.toList_ofList, Node.writeList, Node.writeList, Node.write, List.append_nil]
  have hmark : dropByteOrderMark (Node.writeStart label id ++ Node.writeList children ++
      Node.writeEnd label) =
        Node.writeStart label id ++ Node.writeList children ++ Node.writeEnd label := rfl
  rw [Xml.parse, parseChars, hwritten, hmark, run_append, run_append, Node.writeEnd,
    hchildren.run_writtenEnd (isTag_tag label) (OpenElement.name_fill _ _), close_added]
  rfl

/-- Texts that look like markup stay texts; layout is left out. -/
example : Xml.parse (htmlOf [.branch (.link "?a=\"b\"&c") (some "<i>")
    [.text "x<", .text "/a>", .branch (.plain .list) none [.text "\n "], .text ""]]) =
      .ok ⟨"a", [("id", "<i>"), ("href", "?a=\"b\"&c")], [.text "x</a>", .element "ul" [] []]⟩ := by
  rfl

end DocWeave

import DocWeave.Proofs.Description.Headings
import DocWeave.Proofs.Page.Joined
import DocWeave.Proofs.Page.Lossless
import DocWeave.Proofs.Sphinx.History

/-!
# Headings of a page

The start tags of headings can be found in a page. Those in the section of a place are as deep as the
sections around the titles of its descriptions; those of the Markdown have one of six levels. HTML has six
headings, and a page asks for another one only where the author has written its start tag.

To see the latter, the start tag of any other heading is taken for a sign: it does not stand in the
Markdown, so it does not in the HTML of the Markdown, nor does filling the places make one.

- `translated_documentAfter`: whatever was built, the places hold nothing but nodes of trees.
- `headingNames_htmlOf`, `headingNames_section`: the headings in the HTML of a tree, and in the section of a
  place.
- `headingNames_page`: the headings of a page.
- `headings_follow_sections`: how deep the headings are.
-/

namespace DocWeave.Page

open Description Sphinx
open Markdown (IsSign Starts Quiet Clean EndsLine)

/-- The HTML elements of headings. -/
def sixTags : List String :=
  ["h1", "h2", "h3", "h4", "h5", "h6"]

theorem headingTag_mem_sixTags {level : Nat} (h : 1 ≤ level ∧ level ≤ 6) :
    Markdown.headingTag level ∈ sixTags := by
  have hcases : level = 1 ∨ level = 2 ∨ level = 3 ∨ level = 4 ∨ level = 5 ∨ level = 6 := by omega
  rcases hcases with rfl | rfl | rfl | rfl | rfl | rfl <;> decide

/-! ## Nodes of trees in places -/

/-- Some nodes are what trees have become, one node for each tree. -/
def AreNodesOf (ts : List Xml.Tree) (ns : List Node) : Prop :=
  List.Forall₂ (fun t n => nodeOf t = .ok (some n)) ts ns

/-- A place holds nothing but nodes that trees have become. -/
def Pending.Translated (place : Pending) : Prop :=
  ∃ ts, AreNodesOf ts place.children

/-- The places of a source are empty. -/
theorem translated_parse (source : String) : ∀ place ∈ (parse source).1.places, place.Translated := by
  intro place hplace
  rw [← bare_parse, Document.bare, places_mapPlaces] at hplace
  obtain ⟨before, -, rfl⟩ := List.mem_map.mp hplace
  exact ⟨[], .nil⟩

/-- Descriptions become nodes of trees. -/
theorem exists_trees_of_blocks {es : List Xml.Element} {nodes : List Node}
    (h : List.Forall₂ IsBlockOf es nodes) : ∃ ts, AreNodesOf ts nodes := by
  induction h with
  | nil => exact ⟨[], .nil⟩
  | cons hblock _ ih =>
    obtain ⟨ts, hts⟩ := ih
    exact ⟨_ :: ts, .cons hblock.1 hts⟩

/-- A build puts nothing else into places. -/
theorem translated_build (b : Builder) {d : Document} (s : Store)
    (h : ∀ place ∈ d.places, place.Translated) :
    ∀ place ∈ (b.build d s).document.places, place.Translated := by
  rcases Builder.build_cases b d s with ⟨e, hfail⟩ | hplaces | ⟨w, root, s', t, hparsed, hindex⟩
  · rwa [(Builder.result_of_firstFailure hfail).2]
  · rwa [Builder.build_of_no_places hplaces]
  · rw [Builder.build_of_parsed hparsed hindex]
    intro place hplace
    have hplace : place ∈ (fillDocument t d).places := hplace
    rw [fillDocument, places_mapPlaces] at hplace
    obtain ⟨before, hbefore, rfl⟩ := List.mem_map.mp hplace
    -- A place is left alone, or its nodes are blocks of descriptions.
    rcases Builder.fillPlace_cases hindex ⟨before, hbefore, rfl⟩ with
      ⟨-, hsame⟩ | ⟨nodes, -, hfill, hblocks⟩
    · rw [hsame]
      exact h before hbefore
    · rw [hfill]
      exact exists_trees_of_blocks hblocks

theorem translated_documentAfter : ∀ (history : List (Builder × Store)) {d : Document},
    (∀ place ∈ d.places, place.Translated) →
      ∀ place ∈ (Builder.documentAfter d history).places, place.Translated
  | [], _, h => h
  | (b, s) :: rest, _, h => translated_documentAfter rest (translated_build b s h)

/-! ## How deep headings are -/

/-- The depths of titles are within the six that a page has. -/
theorem depth_of_mem_titleDepths {os : List Occurrence} {depth : Nat} (h : depth ∈ titleDepths os) :
    1 ≤ depth ∧ depth ≤ 6 := by
  obtain ⟨o, -, rfl⟩ := List.mem_map.mp h
  omega

/-- The headings of a node of a tree are those of its titles. -/
theorem headings_nodeOf {t : Xml.Tree} {node? : Option Node} (h : nodeOf t = .ok node?) :
    (node?.elim [] Node.headings).map UInt8.toNat = titleDepths (occurrencesIn [] t) :=
  headings_nodeIn rfl counts_zero h

/-- So it is for the nodes of some trees. -/
theorem headingsOfList_nodes {ts : List Xml.Tree} {ns : List Node} (h : AreNodesOf ts ns) :
    (Node.headingsOfList ns).map UInt8.toNat = ts.flatMap fun t => titleDepths (occurrencesIn [] t) := by
  induction h with
  | nil => rfl
  | cons hnode _ ih =>
    rw [Node.headingsOfList, List.map_append, ih, List.flatMap_cons, ← headings_nodeOf hnode]
    rfl

/-- Nodes of trees have no headings but the six. -/
theorem depth_of_mem_headingsOfList {ts : List Xml.Tree} {ns : List Node} (h : AreNodesOf ts ns) :
    ∀ depth ∈ Node.headingsOfList ns, 1 ≤ depth.toNat ∧ depth.toNat ≤ 6 := by
  intro depth hdepth
  have hmem : depth.toNat ∈ (Node.headingsOfList ns).map UInt8.toNat := List.mem_map_of_mem hdepth
  rw [headingsOfList_nodes h] at hmem
  obtain ⟨t, -, hmem⟩ := List.mem_flatMap.mp hmem
  exact depth_of_mem_titleDepths hmem

/-- The start tags of headings in written nodes of trees. -/
theorem headingNames_nodes {ts : List Xml.Tree} {ns : List Node} (h : AreNodesOf ts ns)
    (b : List Char) :
    headingNames (Node.writeList ns ++ b) =
      (ts.flatMap fun t => (titleDepths (occurrencesIn [] t)).map Markdown.headingTag) ++
        headingNames b := by
  have hdepths := congrArg (List.map Markdown.headingTag) (headingsOfList_nodes h)
  rw [List.map_map, List.map_flatMap] at hdepths
  rw [headingNames_writeList, ← hdepths]
  rfl

/-- In the HTML of a tree, the start tags of headings are those of its titles. -/
theorem headingNames_htmlOf {t : Xml.Tree} {node? : Option Node} (h : nodeOf t = .ok node?) :
    headingNames (htmlOf node?.toList).toList =
      (titleDepths (occurrencesIn [] t)).map Markdown.headingTag := by
  rw [htmlOf, String.toList_ofList, ← List.append_nil (Node.writeList _)]
  cases node? with
  | none =>
    -- A tree that is skipped has no titles that are looked at.
    rw [← headings_nodeOf h]
    rfl
  | some n =>
    have hnodes : AreNodesOf [t] [n] := .cons h .nil
    exact (headingNames_nodes hnodes []).trans (by simp [headingNames])

/-- The start tags of headings in the section of a place are those of its documentation. -/
theorem headingNames_section {place : Pending} {ts : List Xml.Tree}
    (h : AreNodesOf ts place.children) :
    headingNames place.write =
      ts.flatMap fun t => (titleDepths (occurrencesIn [] t)).map Markdown.headingTag := by
  have hends {text : List Char} (htext : Markdown.opensTags text) (b : List Char) :
      headingNames (text ++ b) = headingNames b := headingNames_append_of_opensTags htext b
  have hlast : headingNames "</div>".toList = [] := by decide
  show headingNames (_ ++ _ ++ _ ++ _ ++ _) = _
  rw [List.append_assoc, List.append_assoc, List.append_assoc, hends (by decide),
    headingNames_append_of_not_mem (not_mem_escape _), hends (by decide), headingNames_nodes h, hlast,
    List.append_nil]

/-! ## Signs in a page -/

variable {sign : List Char} {source : String} {d : Document}

/-- What the source does not hold, no Markdown of its document does. -/
theorem absent_markdown (hd : d.bare = (parse source).1) (hsource : ¬ sign <:+: source.toList) :
    ∀ value ∈ d.blocks.filterMap Block.markdown?, ¬ sign <:+: value.toList := by
  intro value hvalue hsign
  obtain ⟨block, hblock, hmarkdown⟩ := List.mem_filterMap.mp hvalue
  cases block with
  | autodoc place => cases hmarkdown
  | markdown text =>
    cases hmarkdown
    have hbare : Block.bare (.markdown value) ∈ d.bare.blocks := List.mem_map_of_mem hblock
    rw [hd] at hbare
    exact hsource (hsign.trans (infix_of_markdown hbare))

/-- A sign that the source does not hold does not stand in the HTML of its Markdown, unless it is that
of the comments for places. -/
theorem clean_render (h : IsSign sign) (hd : d.bare = (parse source).1)
    (hsource : ¬ sign <:+: source.toList)
    (hcomments : ∀ i, Text.occurrences sign (placeholder d.nonce i ++ ['\n']) = 0) :
    Clean sign (Markdown.render d.joinedMarkdown) := by
  have hfree : RunsFree sign [] d.blocks :=
    runsFree_of_isChain h (isChain_apart hd) (absent_markdown hd hsource) (Or.inl rfl)
  have hjoined := occurrences_joinBlocks h hcomments d.blocks 0 (Or.inl rfl : EndsLine []) hfree
  rw [occurrences_eq_zero h h.absent_nil, Nat.zero_mul, List.append_nil] at hjoined
  have habsent : ¬ sign <:+: d.joinedMarkdown := absent_of_occurrences hjoined
  have hshown : Markdown.Shown sign false [] (Markdown.render d.joinedMarkdown) :=
    @Markdown.shown_withComments sign h [] d.joinedMarkdown nofun habsent
  cases hshown with
  | nil hlast => exact hlast.1

/-- So it does not stand in the page, if no heading in the places looks like it. -/
theorem clean_page (h : IsSign sign) (hd : d.bare = (parse source).1)
    (hsource : ¬ sign <:+: source.toList)
    (hcomments : ∀ i, Text.occurrences sign (placeholder d.nonce i ++ ['\n']) = 0)
    (hplaces : ∀ place ∈ d.places, place.Translated) : Clean sign d.htmlChars := by
  refine clean_fillFrom h ?_ ?_ _ 0 (clean_render h hd hsource hcomments)
  · intro x hx
    obtain ⟨place, hplace, rfl⟩ := List.mem_map.mp hx
    obtain ⟨ts, hts⟩ := hplaces place hplace
    exact quiet_write h fun depth hdepth => h.allows (depth_of_mem_headingsOfList hts depth hdepth)
  · intro x hx
    obtain ⟨place, -, rfl⟩ := List.mem_map.mp hx
    rfl

/-- The comment for a place looks like no heading. -/
theorem occurrences_heading_placeholder {number : List Char} (h : IsSign ('<' :: 'h' :: number))
    (i : Nat) :
    Text.occurrences ('<' :: 'h' :: number) (placeholder d.nonce i ++ ['\n']) = 0 := by
  obtain ⟨rest, hcomment, hrest⟩ := placeholder_eq_cons (isSign_nonce d) i
  have hmark : '!' :: ("--autodoc-".toList ++ (d.nonce ++ [':'])) <+: rest := by
    have hstart : placeholderPrefix d.nonce <+: placeholder d.nonce i := by
      rw [placeholder, List.append_assoc]
      exact List.prefix_append _ _
    rw [hcomment, placeholderPrefix_eq_cons] at hstart
    exact (List.cons_prefix_cons.mp hstart).2
  obtain ⟨more, rfl⟩ := hmark
  refine occurrences_eq_zero h fun hsign => ?_
  rw [hcomment, List.cons_append] at hsign
  rcases List.infix_cons_iff.mp hsign with hstarts | hinside
  · exact absurd (List.cons_prefix_cons.mp (List.cons_prefix_cons.mp hstarts).2).1 (by decide)
  · refine absent_of_not_mem h (fun hmem => ?_) hinside
    rcases List.mem_append.mp hmem with hmem | hmem
    · exact hrest hmem
    · exact absurd hmem (by decide)

/-- The headings of a page are among the six, but for those whose start tags the author has written. -/
theorem headingNames_page (hd : d.bare = (parse source).1)
    (hplaces : ∀ place ∈ d.places, place.Translated) :
    ∀ name ∈ headingNames d.htmlChars, name ∈ sixTags ∨ '<' :: name.toList <:+: source.toList := by
  intro name hname
  obtain ⟨y, hy, hname⟩ := exists_suffix_of_mem_headingNames hname
  obtain ⟨number, s, rest, hne, hdigits, hs, hnumber, rfl⟩ := exists_tag_of_headingNameAt hname
  rw [hnumber]
  by_contra! hother
  have hsign : IsSign ('<' :: 'h' :: number) := by
    refine .heading hne hdigits fun level hone hsix hlevel => hother.1 ?_
    have htag : name = Markdown.headingTag level := by
      rw [← String.toList_inj, hnumber, hlevel]
      exact (String.toList_append (s := "h")).symm
    rw [htag]
    exact headingTag_mem_sixTags ⟨hone, hsix⟩
  have hstarts : Starts ('<' :: 'h' :: number) ('<' :: 'h' :: (number ++ s :: rest)) :=
    ⟨s, by rcases hs with rfl | rfl <;> decide, rest, by simp⟩
  exact clean_page hsign hd hother.2 (occurrences_heading_placeholder hsign) hplaces _ hy hstarts

/-! ## All headings -/

/-- **Headings are as deep as the sections around their titles.**

- The headings in what becomes of a tree are those of its titles that are looked at, in the same order.
  Each is as deep as there are sections around the title, but at least one deep and at most six. Their
  start tags stand in the HTML of the tree, and no others do.
- Whatever has been built for a page, the start tags of headings in the section of a place are those of
  the trees that are shown there; and in all of the page, each start tag of a heading is one of the six,
  unless the author has written it. -/
theorem headings_follow_sections :
    (∀ t node?, nodeOf t = .ok node? →
      (node?.elim [] Node.headings).map UInt8.toNat = titleDepths (occurrencesIn [] t) ∧
      headingNames (htmlOf node?.toList).toList =
        (titleDepths (occurrencesIn [] t)).map Markdown.headingTag ∧
      ∀ name ∈ headingNames (htmlOf node?.toList).toList, name ∈ sixTags) ∧
    ∀ source history, let d := Builder.documentAfter (parse source).1 history
      (∀ place ∈ d.places, ∃ ts, AreNodesOf ts place.children ∧ headingNames place.write =
        ts.flatMap fun t => (titleDepths (occurrencesIn [] t)).map Markdown.headingTag) ∧
      ∀ name ∈ headingNames d.html.toList,
        name ∈ sixTags ∨ '<' :: name.toList <:+: source.toList := by
  refine ⟨fun t node? h => ⟨headings_nodeOf h, headingNames_htmlOf h, ?_⟩, fun source history => ?_⟩
  · rw [headingNames_htmlOf h]
    intro name hname
    obtain ⟨depth, hdepth, rfl⟩ := List.mem_map.mp hname
    exact headingTag_mem_sixTags (depth_of_mem_titleDepths hdepth)
  · have hplaces := translated_documentAfter history (translated_parse source)
    have hd := (Builder.bare_documentAfter history (parse source).1).trans (bare_parse source)
    refine ⟨fun place hplace => ?_, ?_⟩
    · obtain ⟨ts, hts⟩ := hplaces place hplace
      exact ⟨ts, hts, headingNames_section hts⟩
    · rw [Document.html, String.toList_ofList]
      exact headingNames_page hd hplaces

/-- A tree in some sections, one inside the other. -/
def inSections : Nat → Xml.Tree → Xml.Tree
  | 0, t => t
  | n + 1, t => .element "section" [] [inSections n t]

/-- A title outside of sections with a title of its own, one in two sections and behind it in seven, a
skipped one, and one that a collapsed element passes over. -/
def sampleTitles : Xml.Tree :=
  .element "desc_content" [] [
    .element "title" [] [.text "a", inSections 2 (.element "title" [] [.text "b"])],
    inSections 1 (.element "desc_sig_space" [] [
      inSections 6 (.element "title" [] [.text "c"]), .element "title" [] [.text "d"]]),
    .element "comment" [] [.element "title" [] [.text "e"]]]

/-- The depths are one, two and six, and so they are written. -/
theorem headings_sampleTitles :
    ∃ n, nodeOf sampleTitles = .ok (some n) ∧ n.headings.map UInt8.toNat = [1, 2, 6] ∧
      headingNames (htmlOf [n]).toList = ["h1", "h2", "h6"] := by
  have htitles : titleDepths (occurrencesIn [] sampleTitles) = [1, 2, 6] := by rfl
  obtain ⟨hdepths, hnames, -⟩ := headings_follow_sections.1 sampleTitles _ rfl
  rw [htitles] at hdepths hnames
  exact ⟨_, rfl, hdepths, hnames⟩

/-- Another heading than the six is the author's, who may write it as HTML. -/
example : headingNames (parse "# a\n\n<h7>b</h7>\n").1.html.toList = ["h1", "h7"] := by
  decide +kernel

end DocWeave.Page

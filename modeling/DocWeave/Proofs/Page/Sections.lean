import DocWeave.Proofs.Page.Filling
import DocWeave.Proofs.Page.Places

/-!
# Sections on a page

The documentation of a place is shown on the page if the comment for the place comes out of the
Markdown as it went in. It does so in all places but one: behind an open fence, outside of quotes
and items, the comment is code, and stays on the page as such. A directive can stand there although
directives in fenced code are left alone, since lines of the source and blocks of the Markdown may
take different fences for closed.

- `Document.fenced`: for each place, whether its comment stands behind an open fence.
- `Document.comments`, `Document.sections`: what becomes of the comments, first in the HTML of the
  Markdown, then on the page.
- `exists_parts`: the Markdown with its comments, part by part.
- `Document.ShowsSections`: the page shows the section of each place.
- `sections_of_parse`: what a page shows; in particular, when it shows all sections.
- `section_lost`: a source whose page does not show its section.
-/

namespace DocWeave.Page

open Markdown (IsSign Quiet Clean EndsLine IsPart withComments commentsShown weave weave_cons
  infix_append_cons quiet_of_not_mem)

/-! ## Places behind open fences -/

/-- A text with a line feed at its end, unless it is empty. -/
def endLine (text : List Char) : List Char :=
  if text.isEmpty || text.getLast? = some '\n' then text else text ++ ['\n']

/-- For each place in blocks, whether its comment stands behind an open fence. `read` is the
Markdown so far, `i` the number of places in it. -/
def fencedFrom (tag read : List Char) (i : Nat) : List Block → List Bool
  | [] => []
  | .markdown value :: rest => fencedFrom tag (read ++ value.toList) i rest
  | .autodoc _ :: rest =>
    let before := endLine read ++ ['\n']
    Markdown.fenceAfter before ::
      fencedFrom tag (before ++ (placeholder tag i ++ ['\n', '\n'])) (i + 1) rest

/-- For each place of a document, whether its comment stands behind an open fence. -/
def Document.fenced (d : Document) : List Bool :=
  fencedFrom d.nonce [] 0 d.blocks

/-- The comment of a place in the HTML of the Markdown. -/
def commentShown (tag : List Char) (place : Bool × Nat) : List Char :=
  if place.1 then Markdown.escapeBody (placeholder tag place.2) else placeholder tag place.2

/-- What the page shows for a place: its section, or the comment if this is code. -/
def sectionShown (tag : List Char) (place : Pending × (Bool × Nat)) : List Char :=
  if place.2.1 then Markdown.escapeBody (placeholder tag place.2.2) else place.1.write

/-- The comments of the places in the HTML of the Markdown. -/
def Document.comments (d : Document) : List (List Char) :=
  d.fenced.zipIdx.map (commentShown d.nonce)

/-- What the page shows for the places. -/
def Document.sections (d : Document) : List (List Char) :=
  (d.places.zip d.fenced.zipIdx).map (sectionShown d.nonce)

theorem length_fencedFrom (tag : List Char) : ∀ (blocks : List Block) (read : List Char) (i : Nat),
    (fencedFrom tag read i blocks).length = (blocks.filterMap Block.place?).length
  | [], _, _ => rfl
  | .markdown value :: rest, read, i => length_fencedFrom tag rest (read ++ value.toList) i
  | .autodoc _ :: rest, _, i => congrArg Nat.succ (length_fencedFrom tag rest _ (i + 1))

theorem length_fenced (d : Document) : d.fenced.length = d.places.length :=
  length_fencedFrom d.nonce d.blocks [] 0

/-! ## The Markdown with its comments -/

variable {sign : List Char}

/-- No sign stands in what is between two places. `text` stands before the blocks. -/
def RunsFree (sign text : List Char) : List Block → Prop
  | [] => ¬ sign <:+: text
  | .markdown value :: rest => RunsFree sign (text ++ value.toList) rest
  | .autodoc _ :: rest => ¬ sign <:+: text ∧ RunsFree sign ['\n'] rest

/-- A line feed in front of a text completes no sign. -/
theorem absent_lineFeed (h : IsSign sign) {text : List Char} (htext : ¬ sign <:+: text) :
    ¬ sign <:+: '\n' :: text := by
  rw [← List.nil_append ('\n' :: text), infix_append_cons h (by decide) (by decide)]
  exact not_or.mpr ⟨h.absent_nil, htext⟩

theorem absent_concat_lineFeed (h : IsSign sign) {text : List Char} (htext : ¬ sign <:+: text) :
    ¬ sign <:+: text ++ ['\n'] := by
  rw [infix_append_cons h (by decide) (by decide)]
  exact not_or.mpr ⟨htext, h.absent_nil⟩

/-- What is between two places is one block. -/
theorem runsFree_of_isChain (h : IsSign sign) :
    ∀ {blocks : List Block} {text : List Char}, blocks.IsChain Block.Apart →
      (∀ value ∈ blocks.filterMap Block.markdown?, ¬ sign <:+: value.toList) →
      text = [] ∨ text = ['\n'] → RunsFree sign text blocks
  | [], text, _, _, htext => by
    rcases htext with rfl | rfl
    · exact h.absent_nil
    · exact absent_lineFeed h h.absent_nil
  | .autodoc _ :: rest, text, hchain, hfree, htext => by
    refine ⟨?_, runsFree_of_isChain h hchain.tail hfree (Or.inr rfl)⟩
    rcases htext with rfl | rfl
    · exact h.absent_nil
    · exact absent_lineFeed h h.absent_nil
  | .markdown value :: rest, text, hchain, hfree, htext => by
    have hvalue : ¬ sign <:+: text ++ value.toList := by
      have hvalue := hfree value List.mem_cons_self
      rcases htext with rfl | rfl
      · exact hvalue
      · exact absent_lineFeed h hvalue
    -- No second block of Markdown follows.
    rcases rest with _ | ⟨next | place, rest⟩
    · exact hvalue
    · cases (List.isChain_cons_cons.mp hchain).1 <;> contradiction
    · refine ⟨hvalue, runsFree_of_isChain h hchain.tail.tail (fun value hmem => ?_) (Or.inr rfl)⟩
      exact hfree value (List.mem_cons_of_mem _ hmem)

/-- With the line feed that it lacks, a text ends where a line ends. -/
theorem endsLine_endLine (text : List Char) : EndsLine (endLine text) := by
  unfold endLine
  split
  · rename_i htext
    rw [Bool.or_eq_true, List.isEmpty_iff, decide_eq_true_eq] at htext
    exact htext
  · exact Markdown.endsLine_concat text

/-- Behind a line end, the line feed is that of the text alone. -/
theorem endLine_append {before : List Char} (hbefore : EndsLine before) (text : List Char) :
    endLine (before ++ text) = before ++ endLine text := by
  rcases List.eq_nil_or_concat text with rfl | ⟨front, c, rfl⟩
  · have hends : (before.isEmpty || before.getLast? = some '\n') = true := by
      rwa [Bool.or_eq_true, List.isEmpty_iff, decide_eq_true_eq]
    rw [List.append_nil, endLine, if_pos hends]
    exact (List.append_nil before).symm
  · have hempty (front : List Char) : (front ++ [c]).isEmpty = false := by cases front <;> rfl
    unfold endLine
    rw [List.concat_eq_append, ← List.append_assoc, hempty, hempty, List.getLast?_concat,
      List.getLast?_concat]
    split
    · rw [List.append_assoc]
    · rw [List.append_assoc, List.append_assoc, List.append_assoc]

theorem absent_endLine (h : IsSign sign) {text : List Char} (htext : ¬ sign <:+: text) :
    ¬ sign <:+: endLine text := by
  unfold endLine
  split
  · exact htext
  · exact absent_concat_lineFeed h htext

/-- The Markdown with a comment for each place consists of parts, each with a comment behind it. -/
theorem exists_parts (d : Document) :
    ∀ (blocks : List Block) {before text : List Char} (i : Nat), EndsLine before →
      RunsFree (placeholderPrefix d.nonce) text blocks →
      ∃ parts last, joinBlocks d.nonce (before ++ text) i blocks = before ++ withComments parts last ∧
        (∀ p ∈ parts, IsPart (placeholderPrefix d.nonce) p.1 p.2) ∧
        ¬ placeholderPrefix d.nonce <:+: last ∧
        commentsShown before parts =
          ((fencedFrom d.nonce (before ++ text) i blocks).zipIdx i).map (commentShown d.nonce)
  | [], before, text, i, _, hfree => ⟨[], text, rfl, nofun, hfree, rfl⟩
  | .markdown value :: rest, before, text, i, hbefore, hfree => by
    rw [joinBlocks, fencedFrom, List.append_assoc]
    exact exists_parts d rest i hbefore hfree
  | .autodoc _ :: rest, before, text, i, hbefore, ⟨htext, hrest⟩ => by
    have h := isSign_nonce d
    -- The next part starts with the empty line after the comment.
    have hbefore' : EndsLine
        (before ++ (endLine text ++ ['\n'] ++ (placeholder d.nonce i ++ ['\n']))) := by
      rw [← List.append_assoc, ← List.append_assoc]
      exact Markdown.endsLine_concat _
    obtain ⟨parts, last, hjoin, hparts, hlast, hshown⟩ := exists_parts d rest (i + 1) hbefore' hrest
    -- The text before the comment, ended by an empty line, is the next part.
    have hpart : IsPart (placeholderPrefix d.nonce) (endLine text ++ ['\n']) (placeholder d.nonce i) :=
      ⟨⟨_, rfl, endsLine_endLine text⟩, absent_concat_lineFeed h (absent_endLine h htext),
        isComment_placeholder d i⟩
    have hread : before ++ (endLine text ++ ['\n'] ++ (placeholder d.nonce i ++ ['\n'])) ++ ['\n'] =
        endLine (before ++ text) ++ '\n' :: placeholder d.nonce i ++ ['\n', '\n'] := by
      rw [endLine_append hbefore]
      simp
    refine ⟨(endLine text ++ ['\n'], placeholder d.nonce i) :: parts, last, ?_,
      List.forall_mem_cons.mpr ⟨hpart, hparts⟩, hlast, ?_⟩
    · rw [hread] at hjoin
      show joinBlocks d.nonce
        (endLine (before ++ text) ++ '\n' :: placeholder d.nonce i ++ ['\n', '\n']) (i + 1) rest = _
      rw [hjoin, withComments]
      simp
    · rw [commentsShown, hshown, fencedFrom, List.zipIdx_cons, List.map_cons, hread,
        endLine_append hbefore]
      simp [commentShown]

/-- The HTML of the Markdown shows the comments, each between texts in which no comment starts. -/
theorem exists_texts {source : String} {d : Document} (hd : d.bare = (parse source).1) :
    ∃ texts last, texts.length = d.places.length ∧
      (∀ t ∈ texts, Quiet (placeholderPrefix d.nonce) t) ∧ Clean (placeholderPrefix d.nonce) last ∧
      Markdown.render d.joinedMarkdown = weave texts d.comments last := by
  have h := isSign_nonce d
  have hfree : RunsFree (placeholderPrefix d.nonce) [] d.blocks :=
    runsFree_of_isChain h (isChain_apart hd) (Document.isFree_iff.mp d.isFree_nonce) (Or.inl rfl)
  obtain ⟨parts, last, hjoin, hparts, hlast, hcomments⟩ :=
    exists_parts d d.blocks 0 (show EndsLine [] from Or.inl rfl) hfree
  have hshown := Markdown.shown_withComments h hparts hlast
  rw [List.nil_append, List.nil_append] at hjoin
  rw [List.nil_append] at hcomments
  rw [← hjoin, hcomments] at hshown
  obtain ⟨texts, t, hlength, htexts, ht, hrender⟩ := hshown.exists_texts
  refine ⟨texts, t, ?_, htexts, ht.1, hrender⟩
  rw [hlength, List.length_map, List.length_zipIdx, ← length_fenced]
  rfl

/-! ## Comments and sections between texts -/

section Between

variable {tag last : List Char} (h : IsSign (placeholderPrefix tag))
include h

/-- A comment in code starts no comment, since its angle bracket is escaped. -/
theorem quiet_escaped (i : Nat) :
    Quiet (placeholderPrefix tag) (Markdown.escapeBody (placeholder tag i)) :=
  quiet_of_not_mem h (Markdown.not_mem_escapeBody _)

/-- Filling changes the comments to what the page shows, and nothing else. -/
theorem fillFrom_weave (hlast : Clean (placeholderPrefix tag) last) :
    ∀ {fenced : List Bool} {texts : List (List Char)} {places : List Pending}
      (front : List (List Char)), texts.length = fenced.length → places.length = fenced.length →
      (∀ t ∈ texts, Quiet (placeholderPrefix tag) t) →
      fillFrom tag (front ++ places.map Pending.write) 0
          (weave texts ((fenced.zipIdx front.length).map (commentShown tag)) last) =
        weave texts ((places.zip (fenced.zipIdx front.length)).map (sectionShown tag)) last
  | [], [], [], _, _, _, _ => fillFrom_clean hlast
  | b :: fenced, t :: texts, place :: places, front, htexts, hplaces, hquiet => by
    obtain ⟨ht, hquiet⟩ := List.forall_mem_cons.mp hquiet
    -- The sections that have been put in are in front of the ones that are left.
    have hrest := fillFrom_weave hlast (front ++ [place.write]) (Nat.succ.inj htexts)
      (Nat.succ.inj hplaces) hquiet
    rw [List.append_assoc, List.singleton_append, ← List.map_cons, List.length_append,
      List.length_singleton] at hrest
    show fillFrom tag _ 0 (weave (t :: texts) (commentShown tag (b, front.length) :: _) last) =
      weave (t :: texts) (sectionShown tag (place, (b, front.length)) ::
        (places.zip (fenced.zipIdx (front.length + 1))).map (sectionShown tag)) last
    rw [weave_cons, fillFrom_quiet ht, weave_cons, List.append_cancel_left_eq, ← hrest]
    cases b with
    | true => exact fillFrom_quiet (quiet_escaped h front.length)
    | false =>
      -- The comment has the number of the place, so its section is the one that is put in.
      have hget : (front ++ (place :: places).map Pending.write)[front.length]? = some place.write := by
        simp
      exact fillFrom_placeholder hget

/-- A comment stands once in the text if it has not been escaped, and not at all otherwise. -/
theorem occurrences_weave (hlast : Clean (placeholderPrefix tag) last) (j : Nat) :
    ∀ {fenced : List Bool} {texts : List (List Char)} (i : Nat), texts.length = fenced.length →
      (∀ t ∈ texts, Quiet (placeholderPrefix tag) t) →
      Text.occurrences (placeholder tag j)
          (weave texts ((fenced.zipIdx i).map (commentShown tag)) last) =
        if i ≤ j ∧ fenced[j - i]? = some false then 1 else 0
  | [], [], i, _, _ => by
    have hnone : ¬ (i ≤ j ∧ ([] : List Bool)[j - i]? = some false) := nofun
    rw [if_neg hnone]
    exact occurrences_clean (starts_placeholder tag j) hlast
  | b :: fenced, t :: texts, i, htexts, hquiet => by
    obtain ⟨ht, hquiet⟩ := List.forall_mem_cons.mp hquiet
    have hrest := occurrences_weave hlast j (i + 1) (Nat.succ.inj htexts) hquiet
    rw [List.zipIdx_cons, List.map_cons, weave_cons, occurrences_quiet (starts_placeholder tag j) ht]
    have hfirst : Text.occurrences (placeholder tag j) (commentShown tag (b, i) ++
        weave texts ((fenced.zipIdx (i + 1)).map (commentShown tag)) last) =
          (if i = j ∧ b = false then 1 else 0) +
            if i + 1 ≤ j ∧ fenced[j - (i + 1)]? = some false then 1 else 0 := by
      rw [← hrest]
      cases b with
      | true =>
        rw [if_neg (fun h => nomatch h.2), Nat.zero_add]
        exact occurrences_quiet (starts_placeholder tag j) (quiet_escaped h i)
      | false =>
        simp only [and_true]
        exact occurrences_placeholder h i j
    rw [hfirst]
    -- The comment searched for is a later one, this one or none of these.
    rcases Nat.lt_trichotomy i j with hij | rfl | hij
    · obtain ⟨k, rfl⟩ := Nat.exists_eq_add_of_lt hij
      rw [Nat.add_right_comm i k 1, Nat.add_sub_cancel_left, Nat.add_assoc i 1 k,
        Nat.add_sub_cancel_left, Nat.add_comm 1 k, List.getElem?_cons_succ,
        if_neg (fun h => absurd h.1 (by omega)), Nat.zero_add]
      simp
    · simp
    · rw [if_neg (fun h => absurd h.1 (by omega)), if_neg (fun h => absurd h.1 (by omega)),
        if_neg (fun h => absurd h.1 (by omega))]

omit h in
/-- A comment that stands neither in the texts nor in what is put between them does not stand
anywhere. -/
theorem occurrences_sections (hlast : Clean (placeholderPrefix tag) last) (j : Nat) :
    ∀ {texts sections : List (List Char)}, texts.length = sections.length →
      (∀ t ∈ texts, Quiet (placeholderPrefix tag) t) →
      (∀ x ∈ sections, Quiet (placeholderPrefix tag) x) →
      Text.occurrences (placeholder tag j) (weave texts sections last) = 0
  | [], [], _, _, _ => occurrences_clean (starts_placeholder tag j) hlast
  | t :: texts, x :: sections, hlength, htexts, hsections => by
    obtain ⟨ht, htexts⟩ := List.forall_mem_cons.mp htexts
    obtain ⟨hx, hsections⟩ := List.forall_mem_cons.mp hsections
    rw [weave_cons, occurrences_quiet (starts_placeholder tag j) ht,
      occurrences_quiet (starts_placeholder tag j) hx]
    exact occurrences_sections hlast j (Nat.succ.inj hlength) htexts hsections

end Between

/-! ## What a page shows -/

/-- Every comment comes out of the Markdown once, in order, and the page has the sections in their
place and no comment left. -/
structure Document.ShowsSections (d : Document) : Prop where
  once : ∀ i < d.places.length,
    Text.occurrences (placeholder d.nonce i) (Markdown.render d.joinedMarkdown) = 1
  replaced : ∃ texts last, texts.length = d.places.length ∧
    Markdown.render d.joinedMarkdown =
      weave texts ((List.range d.places.length).map (placeholder d.nonce)) last ∧
    d.htmlChars = weave texts (d.places.map Pending.write) last
  gone : ∀ i, Text.occurrences (placeholder d.nonce i) d.htmlChars = 0

variable {d : Document}

/-- If no place is behind an open fence, the comments come out as they went in. -/
theorem comments_of_unfenced (hd : ∀ fenced ∈ d.fenced, fenced = false) :
    d.comments = (List.range d.places.length).map (placeholder d.nonce) := by
  rw [← length_fenced, List.range_eq_range', ← List.zipIdx_map_snd, List.map_map]
  refine List.map_congr_left fun p hp => ?_
  rw [commentShown, hd p.1 (List.fst_mem_of_mem_zipIdx hp)]
  rfl

theorem sections_of_unfenced (hd : ∀ fenced ∈ d.fenced, fenced = false) :
    d.sections = d.places.map Pending.write := by
  have hlength : d.places.length ≤ d.fenced.zipIdx.length := by
    rw [List.length_zipIdx, length_fenced]
  conv_rhs => rw [← List.map_fst_zip hlength, List.map_map]
  refine List.map_congr_left fun p hp => ?_
  rw [sectionShown, hd p.2.1 (List.fst_mem_of_mem_zipIdx (List.of_mem_zip hp).2)]
  rfl

/-- What the page shows for a place starts no comment. -/
theorem quiet_of_mem_sections : ∀ x ∈ d.sections, Quiet (placeholderPrefix d.nonce) x := by
  intro x hx
  obtain ⟨p, -, rfl⟩ := List.mem_map.mp hx
  unfold sectionShown
  split
  · exact quiet_escaped (isSign_nonce d) p.2.2
  · exact quiet_write (isSign_nonce d) fun depth _ => allows_placeholderPrefix (isSign_nonce d) _

/-- For a source with any number of places, filled in any way: the page is the HTML of the Markdown
in which the comments have been replaced, except for those behind open fences. So it shows all
sections exactly if no place is behind an open fence. -/
theorem sections_of_parse {source : String} {d : Document} (hd : d.bare = (parse source).1) :
    (∃ texts last, texts.length = d.places.length ∧
      (∀ t ∈ last :: texts, ∀ i, Text.occurrences (placeholder d.nonce i) t = 0) ∧
      Markdown.render d.joinedMarkdown = weave texts d.comments last ∧
      d.htmlChars = weave texts d.sections last) ∧
    (∀ i, Text.occurrences (placeholder d.nonce i) (Markdown.render d.joinedMarkdown) =
      if d.fenced[i]? = some false then 1 else 0) ∧
    (∀ i, Text.occurrences (placeholder d.nonce i) d.htmlChars = 0) ∧
    d.fenced.length = d.places.length ∧
    (d.ShowsSections ↔ ∀ fenced ∈ d.fenced, fenced = false) := by
  have h := isSign_nonce d
  obtain ⟨texts, last, hlength, htexts, hlast, hrender⟩ := exists_texts hd
  have hfenced : texts.length = d.fenced.length := hlength.trans (length_fenced d).symm
  -- The same texts stand between the comments and between the sections.
  have hpage : d.htmlChars = weave texts d.sections last := by
    rw [Document.htmlChars, fillPlaceholders, hrender]
    exact fillFrom_weave h hlast [] hfenced (length_fenced d).symm htexts
  have honce (i : Nat) : Text.occurrences (placeholder d.nonce i) (Markdown.render d.joinedMarkdown) =
      if d.fenced[i]? = some false then 1 else 0 := by
    rw [hrender, Document.comments, occurrences_weave h hlast i 0 hfenced htexts]
    simp
  have hgone (i : Nat) : Text.occurrences (placeholder d.nonce i) d.htmlChars = 0 := by
    rw [hpage]
    refine occurrences_sections hlast i ?_ htexts quiet_of_mem_sections
    rw [hfenced, Document.sections, List.length_map, List.length_zip, List.length_zipIdx,
      length_fenced, Nat.min_self]
  refine ⟨⟨texts, last, hlength, ?_, hrender, hpage⟩, honce, hgone, length_fenced d, ?_, ?_⟩
  · refine List.forall_mem_cons.mpr ⟨fun i => occurrences_clean (starts_placeholder _ i) hlast, ?_⟩
    exact fun t ht i => occurrences_clean (starts_placeholder _ i) ((htexts t ht).clean h)
  · -- A comment behind an open fence does not stand in the HTML of the Markdown.
    intro hshows fenced hmem
    obtain ⟨i, hi, hget⟩ := List.mem_iff_getElem.mp hmem
    have hone := hshows.once i (length_fenced d ▸ hi)
    rw [honce i, List.getElem?_eq_getElem hi, hget] at hone
    split at hone
    · rename_i hfalse
      exact Option.some_inj.mp hfalse
    · cases hone
  · intro hunfenced
    refine ⟨fun i hi => ?_, ⟨texts, last, hlength, ?_, ?_⟩, hgone⟩
    · have hi' : i < d.fenced.length := length_fenced d ▸ hi
      rw [honce i, List.getElem?_eq_getElem hi', hunfenced _ (List.getElem_mem hi'), if_pos rfl]
    · rw [hrender, comments_of_unfenced hunfenced]
    · rw [hpage, sections_of_unfenced hunfenced]

/-- The fence of the second source is closed for the lines of the source, but not for the Markdown,
where a fence that is indented by four columns is code. -/
theorem section_lost :
    (parse "text\n::automodule[a]\n").1.ShowsSections ∧
      ¬ (parse "```\n    ```\n::automodule[a]\n").1.ShowsSections := by
  constructor
  · obtain ⟨-, -, -, -, hiff⟩ := sections_of_parse (bare_parse "text\n::automodule[a]\n")
    exact hiff.mpr (by decide +kernel)
  · obtain ⟨-, -, -, -, hiff⟩ := sections_of_parse (bare_parse "```\n    ```\n::automodule[a]\n")
    exact fun hshows => absurd (hiff.mp hshows) (by decide +kernel)

end DocWeave.Page

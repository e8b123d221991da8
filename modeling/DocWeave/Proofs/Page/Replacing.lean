import DocWeave.Page.Comment
import DocWeave.Proofs.Page.Filling

/-!
# Comments and their sections

All comments that look like those for places are taken up, but only the ones with the tag of the
document change. So it makes no difference whether the others are looked at: none of them holds the
start of another comment, and each is put back as it was.

- `readComment_eq_some_iff`: which comment is read from a text.
- `sectionAt_eq`: the comments of a document among all comments.
- `replaceComments_eq`: looking at the other comments makes no difference.
- `fillFrom_absent`: text without the tag stays, up to the next comment.
- `Cut`: a text cut at its comments; `exists_cut`: how to cut it.
- `sections_replace_comments`: the text with the sections in place of its comments.
-/

namespace DocWeave.Page

open Markdown (IsSign Starts isSignChar quiet_of_not_mem)

variable {tag t y text : List Char} {sections : List (List Char)} {comment : Comment}

/-! ## Reading any comment -/

theorem isTagDigit_of_mem_hexDigits (n : Nat) : ∀ c ∈ hexDigits n, isTagDigit c :=
  forall_mem_hexDigits (by decide) n

namespace Comment

theorem ofParts?_eq_some (comment : Comment) : ofParts? comment.tag comment.number = some comment := by
  have htag := And.intro comment.tag_ne_nil (List.all_eq_true.mpr comment.isTagDigit_of_mem)
  have hnumber := And.intro comment.number_ne_nil (List.all_eq_true.mpr comment.isDecimal_of_mem)
  rw [ofParts?, dif_pos htag, dif_pos hnumber]

theorem text_append (comment : Comment) (z : List Char) :
    comment.text ++ z =
      placeholderStart ++ (comment.tag ++ ':' :: (comment.number ++ ("-->".toList ++ z))) := by
  simp [text, placeholderPrefix]

/-- Behind its first character, a comment holds no angle bracket that opens. -/
theorem text_eq_cons (comment : Comment) : ∃ rest, comment.text = '<' :: rest ∧ '<' ∉ rest := by
  refine ⟨"!--autodoc-".toList ++ (comment.tag ++ ':' :: (comment.number ++ "-->".toList)), ?_, ?_⟩
  · have htext := comment.text_append []
    rw [List.append_nil, List.append_nil] at htext
    exact htext
  · have htag : '<' ∉ comment.tag := fun h => absurd (comment.isTagDigit_of_mem _ h) (by decide)
    have hnumber : '<' ∉ comment.number := fun h => absurd (comment.isDecimal_of_mem _ h) (by decide)
    have hfixed : '<' ∉ "!--autodoc-".toList ∧ '<' ∉ "-->".toList := by decide
    simp only [List.mem_append, List.mem_cons, not_or]
    exact ⟨hfixed.1, htag, by decide, hnumber, hfixed.2⟩

end Comment

/-- The comment that is read from a text is the one that stands at its start. -/
theorem readComment_eq_some_iff : readComment text = some comment ↔ comment.text <+: text := by
  constructor
  · intro hread
    have hfilter := (Option.filter_eq_some_iff.mp hread).2
    exact List.isPrefixOf_iff_prefix.mp hfilter
  · rintro ⟨z, rfl⟩
    have htag : (comment.tag ++ ':' :: (comment.number ++ ("-->".toList ++ z))).takeWhile isTagDigit =
        comment.tag := by
      rw [List.takeWhile_append_of_pos comment.isTagDigit_of_mem,
        List.takeWhile_cons_of_neg (by decide), List.append_nil]
    have hnumber : (comment.number ++ ("-->".toList ++ z)).takeWhile Text.isDecimal =
        comment.number := by
      rw [List.takeWhile_append_of_pos comment.isDecimal_of_mem]
      refine (congrArg (comment.number ++ ·) (List.takeWhile_cons_of_neg ?_)).trans
        (List.append_nil _)
      decide
    have hdrop : (comment.tag ++ ':' :: (comment.number ++ ("-->".toList ++ z))).drop
        (comment.tag.length + 1) = comment.number ++ ("-->".toList ++ z) := by
      rw [← List.drop_drop, List.drop_left]
      rfl
    have hbegins : comment.text.isPrefixOf (comment.text ++ z) = true :=
      List.isPrefixOf_iff_prefix.mpr (List.prefix_append _ z)
    unfold readComment
    rw [comment.text_append z, List.drop_left]
    simp only [htag, hdrop, hnumber, comment.ofParts?_eq_some]
    rw [← comment.text_append z]
    exact Option.filter_eq_some_iff.mpr ⟨rfl, hbegins⟩

/-! ## The comments of a document -/

/-- The comments with the tag of a document are among all comments. -/
theorem readPlaceholder_eq_some_iff {n : Nat} {r : Nat × Nat} :
    readPlaceholder (hexDigits n) text = some r ↔
      ∃ comment, readComment text = some comment ∧ comment.tag = hexDigits n ∧
        ∃ i, comment.number? = some i ∧ r = (i, comment.text.length) := by
  constructor
  · intro hread
    -- the digits that are read make a comment with the tag
    obtain ⟨number, z, hne, hdigits, htext⟩ := exists_digits_of_readPlaceholder hread
    let comment : Comment := ⟨hexDigits n, number, Nat.toDigits_ne_nil, isTagDigit_of_mem_hexDigits n,
      hne, fun c hc => Text.isDecimal_of_isDigit (hdigits c hc)⟩
    have hvalue : comment.number? = some _ := if_pos (List.all_eq_true.mpr hdigits)
    refine ⟨comment, readComment_eq_some_iff.mpr ⟨z, htext.symm⟩, rfl, _, hvalue, ?_⟩
    rw [htext, readPlaceholder_digits _ hne hdigits] at hread
    exact (Option.some.inj hread).symm
  · rintro ⟨comment, hcomment, htag, i, hi, rfl⟩
    obtain ⟨z, rfl⟩ := readComment_eq_some_iff.mp hcomment
    obtain ⟨hdigits, rfl⟩ := Option.ite_some_none_eq_some.mp hi
    rw [Comment.text, htag]
    exact readPlaceholder_digits _ comment.number_ne_nil (List.all_eq_true.mp hdigits) z

theorem sectionAt_eq (n : Nat) (sections : List (List Char)) (text : List Char) :
    sectionAt (hexDigits n) sections text = (readComment text).bind fun comment =>
      (comment.section? (hexDigits n) sections).map fun content => (content, comment.text.length) := by
  unfold sectionAt
  rcases hread : readPlaceholder (hexDigits n) text with _ | ⟨i, size⟩
  · -- what is read as a comment has another tag, or no value as its number
    rcases hcomment : readComment text with _ | comment
    · rfl
    · rw [Option.bind_some, Comment.section?]
      by_cases htag : comment.tag = hexDigits n
      · rcases hnumber : comment.number? with _ | i
        · rw [if_pos htag]
          rfl
        · have hsome := readPlaceholder_eq_some_iff.mpr ⟨comment, hcomment, htag, i, hnumber, rfl⟩
          rw [hread] at hsome
          cases hsome
      · rw [if_neg htag]
        rfl
  · obtain ⟨comment, hcomment, htag, j, hnumber, hr⟩ := readPlaceholder_eq_some_iff.mp hread
    cases hr
    rw [hcomment, Option.bind_some, Comment.section?, if_pos htag, hnumber]
    rfl

/-! ## Other comments -/

theorem replaceFrom_skip : ∀ x : List Char,
    replaceFrom tag sections x.length (x ++ y) = replaceFrom tag sections 0 y
  | [] => rfl
  | _ :: x => replaceFrom_skip x

/-- A comment is replaced by its section, if it has one, and stays otherwise. -/
theorem replaceFrom_comment (comment : Comment) (z : List Char) :
    replaceFrom tag sections 0 (comment.text ++ z) =
      comment.replacement tag sections ++ replaceFrom tag sections 0 z := by
  have hread := readComment_eq_some_iff.mpr (List.prefix_append comment.text z)
  obtain ⟨rest, htext, -⟩ := comment.text_eq_cons
  rw [htext] at hread ⊢
  rw [List.cons_append, replaceFrom, ← List.cons_append, hread]
  show comment.replacement tag sections ++
    replaceFrom tag sections (comment.text.length - 1) (rest ++ z) = _
  rw [htext, List.length_cons, Nat.add_sub_cancel, replaceFrom_skip]

/-- So it is for the comments of a document, and the other ones stay as text without comments does. -/
theorem fillFrom_comment (n : Nat) (comment : Comment) (z : List Char) :
    fillFrom (hexDigits n) sections 0 (comment.text ++ z) =
      comment.replacement (hexDigits n) sections ++ fillFrom (hexDigits n) sections 0 z := by
  have hsection := sectionAt_eq n sections (comment.text ++ z)
  rw [readComment_eq_some_iff.mpr (List.prefix_append comment.text z), Option.bind_some] at hsection
  obtain ⟨rest, htext, hrest⟩ := comment.text_eq_cons
  rcases hcontent : comment.section? (hexDigits n) sections with _ | content
  · -- nothing is found at its first character, and its other characters start no comment
    rw [hcontent, htext] at hsection
    rw [Comment.replacement, hcontent, Option.getD_none, htext, List.cons_append, fillFrom,
      ← List.cons_append, hsection]
    show '<' :: fillFrom (hexDigits n) sections 0 (rest ++ z) = _
    rw [fillFrom_quiet (quiet_of_not_mem (isSign_hexDigits n) hrest), List.cons_append]
  · rw [hcontent, htext] at hsection
    rw [Comment.replacement, hcontent, Option.getD_some, htext, List.cons_append, fillFrom,
      ← List.cons_append, hsection]
    show content ++ fillFrom (hexDigits n) sections rest.length (rest ++ z) = _
    rw [fillFrom_skip]

/-- It makes no difference whether comments with other tags are looked at. -/
theorem replaceComments_eq (n : Nat) (sections : List (List Char)) (html : List Char) :
    replaceComments (hexDigits n) sections html = fillPlaceholders (hexDigits n) sections html := by
  unfold replaceComments fillPlaceholders
  -- a comment is passed over as a whole, so the induction is on the length
  induction hlength : html.length using Nat.strongRecOn generalizing html with
  | ind size ih =>
    rcases html with _ | ⟨c, rest⟩
    · rfl
    · rcases hread : readComment (c :: rest) with _ | comment
      · have hnone : sectionAt (hexDigits n) sections (c :: rest) = none := by
          rw [sectionAt_eq, hread]
          rfl
        rw [replaceFrom, fillFrom, hread, hnone]
        show c :: _ = c :: _
        rw [ih rest.length (by rw [← hlength]; exact Nat.lt_succ_self _) rest rfl]
      · obtain ⟨z, hz⟩ := readComment_eq_some_iff.mp hread
        obtain ⟨body, htext, -⟩ := comment.text_eq_cons
        have hz' : z.length < size := by
          rw [← hlength, ← hz, htext, List.length_append, List.length_cons]
          omega
        rw [← hz, replaceFrom_comment, fillFrom_comment, ih z.length hz' z rfl]

/-- The page of a document: its Markdown as HTML, with the comments replaced by its sections. -/
theorem htmlChars_eq (d : Document) :
    d.htmlChars =
      replaceComments d.nonce (d.places.map Pending.write) (Markdown.render d.joinedMarkdown) :=
  (replaceComments_eq d.nonceNumber _ _).symm

/-! ## Text between comments -/

/-- Text without the tag stays, also where it looks like a comment that breaks off. -/
theorem fillFrom_absent (h : IsSign (placeholderPrefix tag)) (ht : ¬ placeholderPrefix tag <:+: t)
    (hy : ∀ c ∈ y.head?, c = '<') :
    fillFrom tag sections 0 (t ++ y) = t ++ fillFrom tag sections 0 y := by
  induction t with
  | nil => rfl
  | cons c t ih =>
    rw [List.infix_cons_iff, not_or] at ht
    have hnone : ¬ Starts (placeholderPrefix tag) (c :: t ++ y) := by
      intro hstarts
      rcases hstarts.cases h (List.cons_ne_nil c t) with ⟨d, -, hd⟩ | ⟨-, d, hd, hsign⟩
      · exact ht.1 ((List.prefix_append _ _).trans hd)
      · -- the tag would go on with an angle bracket
        rw [hy d hd] at hsign
        rcases hsign with hsign | hsign
        · exact absurd hsign (by decide)
        · exact absurd hsign (by decide)
    rw [List.cons_append, fillFrom, ← List.cons_append, sectionAt_eq_none hnone, ih ht.2,
      List.cons_append]

/-- A text cut at the comments with a tag. Their numbers are less than `count`. -/
structure Cut (tag : List Char) (count : Nat) (html : List Char) where
  /-- Texts, each with the number of the comment behind it. -/
  parts : List (List Char × Fin count)
  /-- What is behind the last comment. -/
  last : List Char
  absent_of_mem : ∀ part ∈ parts, ¬ placeholderPrefix tag <:+: part.1
  absent_last : ¬ placeholderPrefix tag <:+: last
  joined : (parts.flatMap fun part => part.1 ++ placeholder tag part.2) ++ last = html

/-- The text with other texts in place of its comments. -/
def Cut.fill {html : List Char} (cut : Cut tag sections.length html) : List Char :=
  (cut.parts.flatMap fun part => part.1 ++ sections[part.2]) ++ cut.last

/-- What occurs in a text has a first place there. -/
theorem exists_first {sign : List Char} : ∀ {html : List Char}, sign ≠ [] → sign <:+: html →
    ∃ front, front ++ sign <+: html ∧ ¬ sign <:+: front
  | [], hne, h => absurd (List.infix_nil.mp h) hne
  | c :: html, hne, h => by
    by_cases hbegins : sign <+: c :: html
    · exact ⟨[], hbegins, mt List.infix_nil.mp hne⟩
    · have hrest := (List.infix_cons_iff.mp h).resolve_left hbegins
      -- the text is cut at the first comment; behind it the same holds of what is left
      obtain ⟨front, hfront, habsent⟩ := exists_first hne hrest
      refine ⟨c :: front, List.cons_prefix_cons.mpr ⟨rfl, hfront⟩, fun hinfix => ?_⟩
      rcases List.infix_cons_iff.mp hinfix with hstarts | hinfix
      · refine hbegins (hstarts.trans ?_)
        exact List.cons_prefix_cons.mpr ⟨rfl, (List.prefix_append front sign).trans hfront⟩
      · exact habsent hinfix

/-- If the tag stands in whole comments only, the text is cut at them, from the first one on. -/
theorem exists_cut (h : IsSign (placeholderPrefix tag)) {count : Nat} {html : List Char}
    (hwhole : ∀ front, front ++ placeholderPrefix tag <+: html →
      ∃ i < count, front ++ placeholder tag i <+: html) : Nonempty (Cut tag count html) := by
  induction hlength : html.length using Nat.strongRecOn generalizing html with
  | ind size ih =>
    by_cases hoccurs : placeholderPrefix tag <:+: html
    · obtain ⟨body, hbody, -⟩ := h.eq_cons
      -- the text is cut at the first comment; behind it the same holds of what is left
      obtain ⟨front, hfront, habsent⟩ := exists_first (by rw [hbody]; exact List.cons_ne_nil _ _) hoccurs
      obtain ⟨i, hi, rest, hrest⟩ := hwhole front hfront
      have hshorter : rest.length < size := by
        obtain ⟨tail, htail, -⟩ := placeholder_eq_cons h i
        rw [← hlength, ← hrest, htail, List.length_append, List.length_append, List.length_cons]
        omega
      have hlater : ∀ later, later ++ placeholderPrefix tag <+: rest →
          ∃ j < count, later ++ placeholder tag j <+: rest := by
        intro later hp
        have hinside : (front ++ placeholder tag i ++ later) ++ placeholderPrefix tag <+: html := by
          rw [← hrest, List.append_assoc _ later, List.prefix_append_right_inj]
          exact hp
        obtain ⟨j, hj, hcomment⟩ := hwhole _ hinside
        rw [← hrest, List.append_assoc _ later, List.prefix_append_right_inj] at hcomment
        exact ⟨j, hj, hcomment⟩
      obtain ⟨cut⟩ := ih rest.length hshorter hlater rfl
      refine ⟨⟨(front, ⟨i, hi⟩) :: cut.parts, cut.last, ?_, cut.absent_last, ?_⟩⟩
      · exact List.forall_mem_cons.mpr ⟨habsent, cut.absent_of_mem⟩
      · rw [List.flatMap_cons, List.append_assoc, cut.joined]
        exact hrest
    · exact ⟨⟨[], html, nofun, hoccurs, rfl⟩⟩

/-- The comments of a text are replaced in one pass, and nothing else is. -/
theorem fillPlaceholders_cut (h : IsSign (placeholderPrefix tag)) {html : List Char}
    (cut : Cut tag sections.length html) : fillPlaceholders tag sections html = cut.fill := by
  obtain ⟨parts, last, hparts, hlast, hjoined⟩ := cut
  subst hjoined
  show fillFrom tag sections 0 _ = (parts.flatMap fun part => part.1 ++ sections[part.2]) ++ last
  induction parts with
  | nil =>
    have hend : fillFrom tag sections 0 (last ++ []) = last ++ fillFrom tag sections 0 [] :=
      fillFrom_absent h hlast nofun
    rw [List.append_nil] at hend
    exact hend.trans (List.append_nil last)
  | cons part parts ih =>
    obtain ⟨hpart, hparts⟩ := List.forall_mem_cons.mp hparts
    obtain ⟨rest, hplaceholder, -⟩ := placeholder_eq_cons h part.2
    have hcontent : sections[part.2.1]? = some sections[part.2] := List.getElem?_eq_getElem part.2.2
    rw [List.flatMap_cons, List.append_assoc, List.append_assoc,
      fillFrom_absent h hpart (by simp [hplaceholder]), fillFrom_placeholder hcontent, ih hparts,
      List.flatMap_cons, List.append_assoc, List.append_assoc]

/-- For a text in which the tag of a document stands in whole comments only: it is cut at them, and
the page is the text with the sections in their place, whatever else looks like a comment. -/
theorem sections_replace_comments (n : Nat) (sections : List (List Char)) {html : List Char}
    (hwhole : ∀ front, front ++ placeholderPrefix (hexDigits n) <+: html →
      ∃ i < sections.length, front ++ placeholder (hexDigits n) i <+: html) :
    Nonempty (Cut (hexDigits n) sections.length html) ∧
    ∀ cut : Cut (hexDigits n) sections.length html,
      replaceComments (hexDigits n) sections html = cut.fill ∧
      fillPlaceholders (hexDigits n) sections html = cut.fill := by
  have h := isSign_hexDigits n
  refine ⟨exists_cut h hwhole, fun cut => ?_⟩
  rw [replaceComments_eq]
  exact ⟨fillPlaceholders_cut h cut, fillPlaceholders_cut h cut⟩

/-- Comments with other tags, and one that breaks off in front of a comment for a place. -/
def mixedComments : List Char :=
  "<!--autodoc-00:1--><!--autodoc-<!--autodoc-0:1--> <!--autodoc-f:0--><!--autodoc-0:0-->".toList

/-- The second section looks like a comment for the first one, and stays so. -/
def mixedSections : List (List Char) :=
  ["a".toList, "<!--autodoc-0:0-->".toList]

/-- `mixedComments`, cut at its two comments with the tag `0`. -/
def mixedCut : Cut (hexDigits 0) mixedSections.length mixedComments where
  parts := [("<!--autodoc-00:1--><!--autodoc-".toList, ⟨1, by decide⟩),
    (" <!--autodoc-f:0-->".toList, ⟨0, by decide⟩)]
  last := []
  absent_of_mem := by decide +kernel
  absent_last := by decide +kernel
  joined := by decide +kernel

theorem sections_replace_mixedComments :
    (∀ front, front ++ placeholderPrefix (hexDigits 0) <+: mixedComments →
      ∃ i < mixedSections.length, front ++ placeholder (hexDigits 0) i <+: mixedComments) ∧
    replaceComments (hexDigits 0) mixedSections mixedComments =
      "<!--autodoc-00:1--><!--autodoc-<!--autodoc-0:0--> <!--autodoc-f:0-->a".toList := by
  have hwhole : ∀ front ∈ mixedComments.inits,
      front ++ placeholderPrefix (hexDigits 0) <+: mixedComments →
      ∃ i < mixedSections.length, front ++ placeholder (hexDigits 0) i <+: mixedComments := by
    decide +kernel
  have hwhole' : ∀ front, front ++ placeholderPrefix (hexDigits 0) <+: mixedComments →
      ∃ i < mixedSections.length, front ++ placeholder (hexDigits 0) i <+: mixedComments :=
    fun front hp => hwhole front ((List.mem_inits _ _).mpr ((List.prefix_append _ _).trans hp)) hp
  refine ⟨hwhole', ?_⟩
  rw [((sections_replace_comments 0 mixedSections hwhole').2 mixedCut).1]
  decide +kernel

end DocWeave.Page

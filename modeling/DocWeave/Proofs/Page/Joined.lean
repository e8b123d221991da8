import DocWeave.Proofs.Page.Sections

/-!
# Comments in the joined Markdown

The tag of a document is the first one that no Markdown of the document uses. Where the Markdown is
joined, comments with this tag stand for the places and nowhere else: what is between two places holds
none, and none is made where two parts meet, since a line feed stands there.

- `occurrences_of_endsLine`: texts that end with a line are searched one after the other.
- `Document.textBefore`: the Markdown in front of the comment for a place.
- `exists_place_of_prefix`, `occurrences_joinBlocks`: where comments start, and how many there are.
- `comments_tell_places`: the tag of a document tells the places from the Markdown.
-/

namespace DocWeave.Page

open Markdown (IsSign EndsLine isSignChar prefix_append_cons)

variable {d : Document}

/-! ## How often a sign stands in a text -/

variable {sign : List Char}

theorem occurrences_eq_zero (h : IsSign sign) {text : List Char} (htext : ¬ sign <:+: text) :
    Text.occurrences sign text = 0 := by
  induction text with
  | nil =>
    obtain ⟨body, rfl, -⟩ := h.eq_cons
    rfl
  | cons c text ih =>
    rw [List.infix_cons_iff, not_or] at htext
    rw [Text.occurrences, if_neg (mt List.isPrefixOf_iff_prefix.mp htext.1), ih htext.2]

theorem absent_of_occurrences {text : List Char} (htext : Text.occurrences sign text = 0) :
    ¬ sign <:+: text := by
  induction text with
  | nil =>
    rw [Text.occurrences] at htext
    rintro hsign
    rw [List.infix_nil.mp hsign] at htext
    cases htext
  | cons c text ih =>
    rw [Text.occurrences, Nat.add_eq_zero_iff] at htext
    rw [List.infix_cons_iff, not_or, ← List.isPrefixOf_iff_prefix]
    refine ⟨fun hbegins => ?_, ih htext.2⟩
    rw [if_pos hbegins] at htext
    cases htext.1

/-- A text is searched up to a character that the sign cannot hold, and from there. -/
theorem occurrences_append_cons (h : IsSign sign) {s : Char} (hs : isSignChar s = false) (hne : s ≠ '<')
    (a b : List Char) :
    Text.occurrences sign (a ++ s :: b) = Text.occurrences sign a + Text.occurrences sign b := by
  have hbegins {x : List Char} : sign <+: x ++ s :: b ↔ sign <+: x := by
    constructor
    · intro hx
      have hfront : [] ++ sign <+: x ++ s :: b := hx
      rcases prefix_append_cons h hs hne hfront with hx | ⟨more, hmore, -⟩
      · exact hx
      · cases List.append_eq_nil_iff.mp hmore.symm |>.2
    · exact fun hx => hx.trans (List.prefix_append x _)
  induction a with
  | nil =>
    -- A sign starts with an angle bracket.
    have hs0 : ¬ sign.isPrefixOf (s :: b) = true := by
      intro hx
      obtain ⟨body, rfl, -⟩ := h.eq_cons
      exact hne (List.cons_prefix_cons.mp (List.isPrefixOf_iff_prefix.mp hx)).1.symm
    rw [occurrences_eq_zero h h.absent_nil, List.nil_append, Text.occurrences, if_neg hs0]
  | cons c a ih =>
    have hc := @hbegins (c :: a)
    rw [List.cons_append] at hc
    rw [List.cons_append, Text.occurrences, Text.occurrences, ih]
    simp only [List.isPrefixOf_iff_prefix, hc]
    omega

/-- What ends with a line is searched apart from what follows. -/
theorem occurrences_of_endsLine (h : IsSign sign) {a : List Char} (ha : EndsLine a) (b : List Char) :
    Text.occurrences sign (a ++ b) = Text.occurrences sign a + Text.occurrences sign b := by
  rcases List.eq_nil_or_concat a with rfl | ⟨front, c, hc⟩
  · rw [List.nil_append, occurrences_eq_zero h h.absent_nil, Nat.zero_add]
  · rw [List.concat_eq_append] at hc
    subst hc
    -- The last character is the line feed at the end.
    have hfeed : c = '\n' := by
      rcases ha with hnil | hlast
      · cases List.append_eq_nil_iff.mp hnil |>.2
      · rw [List.getLast?_concat] at hlast
        exact Option.some.inj hlast
    subst hfeed
    have hsplit := occurrences_append_cons h (s := '\n') (by decide) (by decide) front
    rw [List.append_assoc, List.singleton_append, hsplit, hsplit, occurrences_eq_zero h h.absent_nil]
    omega

/-! ## The comment for a place -/

/-- A text without angle brackets that open holds no sign. -/
theorem absent_of_not_mem (h : IsSign sign) {text : List Char} (htext : '<' ∉ text) :
    ¬ sign <:+: text := by
  intro hsign
  obtain ⟨body, rfl, -⟩ := h.eq_cons
  exact htext (hsign.subset List.mem_cons_self)

/-- In a comment and the line end behind it, its tag stands once. -/
theorem occurrences_placeholder_line {tag : List Char} (h : IsSign (placeholderPrefix tag)) (i : Nat) :
    Text.occurrences (placeholderPrefix tag) (placeholder tag i ++ ['\n']) = 1 := by
  obtain ⟨rest, hcons, hrest⟩ := placeholder_eq_cons h i
  have hbegins : (placeholderPrefix tag).isPrefixOf ('<' :: (rest ++ ['\n'])) = true := by
    rw [List.isPrefixOf_iff_prefix, ← List.cons_append, ← hcons, placeholder, List.append_assoc,
      List.append_assoc]
    exact List.prefix_append _ _
  have habsent : ¬ placeholderPrefix tag <:+: rest ++ ['\n'] := by
    refine absent_of_not_mem h fun hmem => ?_
    rcases List.mem_append.mp hmem with hmem | hmem
    · exact hrest hmem
    · exact absurd hmem (by decide)
  rw [hcons, List.cons_append, Text.occurrences, if_pos hbegins, occurrences_eq_zero h habsent]

/-- Only the start of a comment has its tag. -/
theorem eq_nil_of_prefix_placeholder {tag front : List Char} (h : IsSign (placeholderPrefix tag))
    {i : Nat} (hp : front ++ placeholderPrefix tag <+: placeholder tag i) : front = [] := by
  obtain ⟨rest, hcons, hrest⟩ := placeholder_eq_cons h i
  rw [hcons] at hp
  cases front with
  | nil => rfl
  | cons c front =>
    have hsign := (List.cons_prefix_cons.mp hp).2
    exact absurd ((List.suffix_append front _).isInfix.trans hsign.isInfix) (absent_of_not_mem h hrest)

/-! ## The joined Markdown -/

variable {tag : List Char}

/-- Blocks are joined one after the other. -/
theorem joinBlocks_append (tag : List Char) : ∀ (before after : List Block) (read : List Char) (i : Nat),
    joinBlocks tag read i (before ++ after) =
      joinBlocks tag (joinBlocks tag read i before) (i + (before.filterMap Block.place?).length) after
  | [], _, _, _ => rfl
  | .markdown value :: before, after, read, i => joinBlocks_append tag before after (read ++ value.toList) i
  | .autodoc _ :: before, after, read, i => by
    rw [List.cons_append, joinBlocks, joinBlocks, joinBlocks_append tag before after]
    simp [Block.place?, Nat.add_comm, Nat.add_left_comm]

/-- What has been joined stays in front. -/
theorem prefix_joinBlocks (tag : List Char) : ∀ (blocks : List Block) (read : List Char) (i : Nat),
    read <+: joinBlocks tag read i blocks
  | [], read, _ => List.prefix_rfl
  | .markdown value :: rest, read, i =>
    (List.prefix_append read _).trans (prefix_joinBlocks tag rest (read ++ value.toList) i)
  | .autodoc _ :: rest, read, i => by
    have hended : read <+: endLine read := by
      unfold endLine
      split
      · exact List.prefix_rfl
      · exact List.prefix_append read _
    refine hended.trans (List.IsPrefix.trans ?_ (prefix_joinBlocks tag rest _ (i + 1)))
    show endLine read <+: endLine read ++ '\n' :: placeholder tag i ++ ['\n', '\n']
    rw [List.append_assoc]
    exact List.prefix_append _ _

/-- Behind some text and a place. -/
theorem joinBlocks_place (tag read : List Char) (i : Nat) (place : Pending) (rest : List Block) :
    joinBlocks tag read i (.autodoc place :: rest) =
      joinBlocks tag (endLine read ++ '\n' :: (placeholder tag i ++ ['\n']) ++ ['\n']) (i + 1) rest := by
  have hread : endLine read ++ '\n' :: (placeholder tag i ++ ['\n']) ++ ['\n'] =
      endLine read ++ '\n' :: placeholder tag i ++ ['\n', '\n'] := by
    simp
  rw [hread]
  rfl

/-- The comment for a place ends its line. -/
theorem endsLine_place (tag read : List Char) (i : Nat) :
    EndsLine (endLine read ++ '\n' :: (placeholder tag i ++ ['\n'])) := by
  rw [← List.cons_append, ← List.append_assoc]
  exact Markdown.endsLine_concat _

/-- Where the Markdown of a document holds no sign, the joined Markdown holds as many for each place as
its comment does. -/
theorem occurrences_joinBlocks (h : IsSign sign) {count : Nat}
    (hcount : ∀ i, Text.occurrences sign (placeholder tag i ++ ['\n']) = count) :
    ∀ (blocks : List Block) {done text : List Char} (i : Nat), EndsLine done → RunsFree sign text blocks →
      Text.occurrences sign (joinBlocks tag (done ++ text) i blocks) =
        Text.occurrences sign done + count * (blocks.filterMap Block.place?).length
  | [], done, text, i, hdone, hfree => by
    rw [joinBlocks, occurrences_of_endsLine h hdone, occurrences_eq_zero h hfree]
    rfl
  | .markdown value :: rest, done, text, i, hdone, hfree => by
    rw [joinBlocks, List.append_assoc]
    exact occurrences_joinBlocks h hcount rest i hdone hfree
  | .autodoc place :: rest, done, text, i, hdone, ⟨htext, hrest⟩ => by
    -- In front of the comment, no line that is added makes a sign.
    have hended := absent_concat_lineFeed h (absent_endLine h htext)
    have hends := Markdown.endsLine_concat (endLine text)
    have hsplit : endLine (done ++ text) ++ '\n' :: (placeholder tag i ++ ['\n']) =
        done ++ (endLine text ++ ['\n'] ++ (placeholder tag i ++ ['\n'])) := by
      rw [endLine_append hdone]
      simp
    have hdone' := endsLine_place tag (done ++ text) i
    have hplaces : (Block.autodoc place :: rest).filterMap Block.place? =
        place :: rest.filterMap Block.place? := rfl
    -- The text, the comment and what is behind it are counted apart.
    rw [joinBlocks_place, occurrences_joinBlocks h hcount rest (i + 1) hdone' hrest, hsplit,
      occurrences_of_endsLine h hdone, occurrences_of_endsLine h hends, occurrences_eq_zero h hended,
      hcount, hplaces, List.length_cons, Nat.mul_succ]
    omega

/-- A comment with the tag stands only where a place is. -/
theorem exists_place_of_prefix (h : IsSign (placeholderPrefix tag)) :
    ∀ (blocks : List Block) {done text front : List Char} (i : Nat), EndsLine done →
      RunsFree (placeholderPrefix tag) text blocks → done <+: front →
      front ++ placeholderPrefix tag <+: joinBlocks tag (done ++ text) i blocks →
      ∃ before place after, blocks = before ++ .autodoc place :: after ∧
        front = endLine (joinBlocks tag (done ++ text) i before) ++ ['\n']
  | [], done, text, front, i, _, hfree, ⟨more, hmore⟩, hp => by
    -- the sign would stand in the last text
    rw [joinBlocks, ← hmore, List.append_assoc, List.prefix_append_right_inj] at hp
    exact absurd ((List.suffix_append more _).isInfix.trans hp.isInfix) hfree
  | .markdown value :: rest, done, text, front, i, hdone, hfree, hfront, hp => by
    rw [joinBlocks, List.append_assoc] at hp
    obtain ⟨before, place, after, rfl, hjoined⟩ :=
      exists_place_of_prefix h rest i hdone hfree hfront hp
    refine ⟨.markdown value :: before, place, after, rfl, ?_⟩
    rw [hjoined, joinBlocks, List.append_assoc]
  | .autodoc place :: rest, done, text, front, i, hdone, ⟨htext, hrest⟩, hfront, hp => by
    rw [joinBlocks_place] at hp
    obtain ⟨more, hmore⟩ := prefix_joinBlocks tag rest
      (endLine (done ++ text) ++ '\n' :: (placeholder tag i ++ ['\n']) ++ ['\n']) (i + 1)
    have hlines : front ++ placeholderPrefix tag <+:
        endLine (done ++ text) ++ '\n' :: (placeholder tag i ++ '\n' :: ('\n' :: more)) := by
      rw [← hmore] at hp
      simpa using hp
    -- up to the blank line, in the line of the comment, or behind it
    rcases prefix_append_cons h (by decide) (by decide) hlines with hbefore | ⟨line, hline, hbegins⟩
    · obtain ⟨between, rfl⟩ := hfront
      rw [endLine_append hdone, List.append_assoc, List.prefix_append_right_inj] at hbefore
      have hoccurs := (List.suffix_append between _).isInfix.trans hbefore.isInfix
      exact absurd hoccurs (absent_endLine h htext)
    · rcases prefix_append_cons h (by decide) (by decide) hbegins with hcomment | ⟨later, hlater, -⟩
      · refine ⟨[], place, rest, rfl, ?_⟩
        rw [hline, eq_nil_of_prefix_placeholder h hcomment, joinBlocks]
      · have hdone' := endsLine_place tag (done ++ text) i
        have hfront' : endLine (done ++ text) ++ '\n' :: (placeholder tag i ++ ['\n']) <+: front := by
          rw [hline, hlater]
          exact ⟨later, by simp⟩
        obtain ⟨before, place', after, rfl, hjoined⟩ :=
          exists_place_of_prefix h rest (i + 1) hdone' hrest hfront' hp
        exact ⟨.autodoc place :: before, place', after, rfl, by rw [hjoined, joinBlocks_place]⟩

/-! ## The tag of a document -/

/-- The Markdown of a document in front of the comment for a place, given by the blocks before it. -/
def Document.textBefore (d : Document) (before : List Block) : List Char :=
  endLine (joinBlocks d.nonce [] 0 before) ++ ['\n']

/-- The comment for a place has the number of the places before it. -/
theorem Document.textBefore_prefix {before after : List Block} {place : Pending}
    (hblocks : d.blocks = before ++ .autodoc place :: after) :
    d.textBefore before ++ placeholder d.nonce (before.filterMap Block.place?).length <+:
      d.joinedMarkdown := by
  rw [joinedMarkdown, hblocks, joinBlocks_append, joinBlocks_place, Nat.zero_add]
  refine List.IsPrefix.trans ?_ (prefix_joinBlocks d.nonce after _ _)
  exact ⟨['\n', '\n'], by simp [textBefore]⟩

/-- For a source with its places filled in any way: the tag is the first of the numbers that no
Markdown uses as a tag, it comes among as many numbers as there are starts of comments, and in the
joined Markdown comments with it stand at the places only, numbered in order. -/
theorem comments_tell_places {source : String} {d : Document} (hd : d.bare = (parse source).1) :
    IsLeast {n | ∀ value ∈ d.blocks.filterMap Block.markdown?,
      ¬ placeholderPrefix (hexDigits n) <:+: value.toList} d.nonceNumber ∧
    d.nonce = hexDigits d.nonceNumber ∧
    d.nonceNumber ≤ d.placeholderStarts ∧
    (∀ limit, d.placeholderStarts < limit →
      (List.range limit).find? (fun n => d.isFree (hexDigits n)) = some d.nonceNumber) ∧
    Text.occurrences (placeholderPrefix d.nonce) d.joinedMarkdown = d.places.length ∧
    (∀ before place after, d.blocks = before ++ .autodoc place :: after →
      d.textBefore before ++ placeholder d.nonce (before.filterMap Block.place?).length <+:
        d.joinedMarkdown) ∧
    ∀ front, front ++ placeholderPrefix d.nonce <+: d.joinedMarkdown →
      ∃ before place after, d.blocks = before ++ .autodoc place :: after ∧
        front = d.textBefore before := by
  have h := isSign_nonce d
  have hfree : RunsFree (placeholderPrefix d.nonce) [] d.blocks :=
    runsFree_of_isChain h (isChain_apart hd) (Document.isFree_iff.mp d.isFree_nonce) (Or.inl rfl)
  have hstart : EndsLine [] := Or.inl rfl
  refine ⟨?_, rfl, d.nonceNumber_le, fun _ => d.find?_isFree, ?_, ?_, ?_⟩
  · simpa only [Document.isFree_iff] using d.isLeast_nonceNumber
  · have hcount := occurrences_joinBlocks h (occurrences_placeholder_line h) d.blocks 0 hstart hfree
    rwa [occurrences_eq_zero h h.absent_nil, Nat.zero_add, Nat.one_mul, List.append_nil] at hcount
  · intro before place after
    exact Document.textBefore_prefix
  · intro front hp
    exact exists_place_of_prefix h d.blocks 0 hstart hfree (List.nil_prefix) hp

/-- A comment of the author, and half of one in front of a place whose other half is behind it. -/
def halvedComment : String :=
  "<!--autodoc-0:1-->\n<!--autodoc-0\n::automodule[a]\n:1-->\n::automodule[b]\n"

/-- The tag is `1`: the author uses `0`. Two comments have it, whatever stands around them. -/
theorem comments_tell_places_halvedComment :
    let d := (parse halvedComment).1
    d.nonce = ['1'] ∧ d.placeholderStarts = 2 ∧
    Text.occurrences (placeholderPrefix ['1']) d.joinedMarkdown = 2 ∧
    (∀ n < 1, ∃ value ∈ d.blocks.filterMap Block.markdown?,
      placeholderPrefix (hexDigits n) <:+: value.toList) ∧
    ∀ front, front ++ placeholderPrefix ['1'] <+: d.joinedMarkdown →
      ∃ before place after, d.blocks = before ++ .autodoc place :: after ∧
        front = d.textBefore before := by
  intro d
  obtain ⟨hleast, hnonce, -, -, hcount, -, honly⟩ :=
    comments_tell_places (bare_parse halvedComment)
  have hnumber : d.nonceNumber = 1 := by decide +kernel
  have htag : d.nonce = ['1'] := by
    rw [show d.nonce = hexDigits d.nonceNumber from hnonce, hnumber]
    rfl
  refine ⟨htag, by decide +kernel, ?_, ?_, ?_⟩
  · rw [← htag]
    refine Eq.trans hcount ?_
    decide +kernel
  · intro n hn
    by_contra hnone
    push Not at hnone
    have hle : d.nonceNumber ≤ n := hleast.2 hnone
    omega
  · intro front hp
    rw [← htag] at hp
    exact honly front hp

end DocWeave.Page

import DocWeave.Markdown.Container
import DocWeave.Proofs.Markdown.Sign

/-!
# Laws of lines

- `SourceLine.Ended`: a line with the line feed that ends it, or ends the lines after it.
- `splitLines_append`: a source is split at any of its line feeds.
- `Proper`: the counts of further lines in a list of lines are right; so they are in those of a
  source.
- `SourceLine.Plain`: a line without a sign; the lines of a source without one are plain.
- `settled_verbatim`: what code and HTML take from a plain line.
-/

namespace DocWeave.Markdown

variable {sign : List Char}

/-- A line feed follows a line, perhaps after further lines. -/
def SourceLine.Ended (line : SourceLine) : Prop :=
  line.beyond.getLast? = some '\n'

/-- Each line counts no more further lines than there are, and all of them if no line feed follows.
-/
def Proper : List SourceLine → Prop
  | [] => True
  | line :: rest =>
    line.more ≤ rest.length ∧ (¬ line.Ended → line.more = rest.length) ∧ Proper rest

theorem Proper.append {before after : List SourceLine} (hbefore : Proper before)
    (hended : ∀ line ∈ before, line.Ended) (hafter : Proper after) : Proper (before ++ after) := by
  induction before with
  | nil => exact hafter
  | cons line rest ih =>
    obtain ⟨hmore, -, hrest⟩ := hbefore
    obtain ⟨hline, hended⟩ := List.forall_mem_cons.mp hended
    refine ⟨?_, fun hne => absurd hline hne, ih hrest hended⟩
    exact hmore.trans (List.length_append ▸ Nat.le_add_right _ _)

/-! ## Lines up to a line feed -/

/-- The first of some lines counts the others. -/
theorem more_splitAtReturns (read part : List Char) :
    ∀ line rest, splitAtReturns read part = line :: rest → line.more = rest.length := by
  -- Only a carriage return with more text behind it starts a further line of the part.
  fun_induction splitAtReturns read part with
  | case1 => nofun
  | case2 => rintro _ _ ⟨⟩; rfl
  | case3 => rintro _ _ ⟨⟩; rfl
  | case4 => rintro _ _ ⟨⟩; rfl
  | case5 read rest later more _ _ ih =>
    rintro _ _ ⟨⟩
    rcases hlater : later with _ | ⟨next, others⟩
    · simp only [more, hlater, List.length_nil]
    · simp only [more, hlater, List.length_cons, ih next others hlater]
  | case6 _ _ _ _ _ _ ih => exact ih

/-- The lines of one part count each other. -/
theorem proper_splitAtReturns (read part : List Char) : Proper (splitAtReturns read part) := by
  have hcons (line : SourceLine) (rest : List SourceLine) (hmore : line.more = rest.length)
      (hrest : Proper rest) : Proper (line :: rest) :=
    ⟨hmore.le, fun _ => hmore, hrest⟩
  have hmore := more_splitAtReturns read part
  fun_induction splitAtReturns read part with
  | case1 => trivial
  | case2 => exact hcons _ _ rfl trivial
  | case3 => exact hcons _ _ rfl trivial
  | case4 => exact hcons _ _ rfl trivial
  | case5 read rest later more _ _ ih =>
    exact hcons _ _ (hmore _ _ rfl) (ih (more_splitAtReturns [] rest))
  | case6 _ _ _ _ _ _ ih => exact ih hmore

/-- A line with what follows it stands in the source. -/
theorem infix_of_mem_splitAtReturns (read part : List Char) :
    ∀ line ∈ splitAtReturns read part, line.text ++ line.beyond <:+: read.reverse ++ part := by
  fun_induction splitAtReturns read part with
  | case1 => nofun
  | case2 => exact List.forall_mem_singleton.mpr List.infix_rfl
  | case3 => exact List.forall_mem_singleton.mpr List.infix_rfl
  | case4 => exact List.forall_mem_singleton.mpr List.infix_rfl
  | case5 read rest later more _ _ ih =>
    refine List.forall_mem_cons.mpr ⟨List.infix_rfl, fun line hline => ?_⟩
    exact (ih line hline).trans (List.suffix_append_of_suffix (List.suffix_cons _ rest)).isInfix
  | case6 read c rest _ _ _ ih =>
    intro line hline
    rw [List.append_cons, ← List.reverse_cons]
    exact ih line hline

/-- All lines of a part that ends with a line feed have ended. -/
theorem ended_of_mem_splitAtReturns (read part : List Char) (hpart : part.getLast? = some '\n') :
    ∀ line ∈ splitAtReturns read part, line.Ended := by
  fun_induction splitAtReturns read part with
  | case1 => nofun
  | case2 => cases hpart
  | case3 => exact List.forall_mem_singleton.mpr rfl
  | case4 => exact List.forall_mem_singleton.mpr rfl
  | case5 read rest later more _ _ ih =>
    have hrest : rest.getLast? = some '\n' := by
      cases rest with
      | nil => cases hpart
      | cons d rest => rwa [List.getLast?_cons_cons] at hpart
    exact List.forall_mem_cons.mpr ⟨hpart, ih hrest⟩
  | case6 read c rest h _ _ ih =>
    refine ih ?_
    cases rest with
    | nil =>
      cases hpart
      exact absurd rfl (h rfl)
    | cons d rest => rwa [List.getLast?_cons_cons] at hpart

/-- Nothing follows a line that ends with the source. -/
theorem last_of_mem_splitAtReturns (read part : List Char) :
    ∀ line ∈ splitAtReturns read part, line.ending = .source → line.beyond = [] ∧ line.more = 0 := by
  fun_induction splitAtReturns read part with
  | case1 => nofun
  | case2 => exact List.forall_mem_singleton.mpr fun _ => ⟨rfl, rfl⟩
  | case3 => exact List.forall_mem_singleton.mpr nofun
  | case4 => exact List.forall_mem_singleton.mpr nofun
  | case5 read rest later more _ _ ih => exact List.forall_mem_cons.mpr ⟨nofun, ih⟩
  | case6 _ _ _ _ _ _ ih => exact ih

/-! ## Lines of a source -/

/-- A text ends where a line ends. -/
def EndsLine (text : List Char) : Prop :=
  text = [] ∨ text.getLast? = some '\n'

/-- A line that goes on behind its line end holds no sign. -/
structure SourceLine.Plain (sign : List Char) (line : SourceLine) : Prop where
  signless : ¬ sign <:+: line.text ++ line.beyond
  last : line.ending = .source → line.beyond = [] ∧ line.more = 0

/-- The text of such a line holds no sign. -/
theorem SourceLine.Plain.text {line : SourceLine} (hline : line.Plain sign) : ¬ sign <:+: line.text :=
  fun hsign => hline.signless (hsign.trans (List.prefix_append _ _).isInfix)

/-- No character is lost when the source is cut behind its line feeds. -/
theorem flatten_splitAfterFeeds (read source : List Char) :
    (splitAfterFeeds read source).flatten = read.reverse ++ source := by
  fun_induction splitAfterFeeds read source with
  | case1 read hread => simpa using hread
  | case2 => simp
  | case3 read rest ih => simp [ih]
  | case4 read c rest _ ih => simp [ih]

/-- It is cut behind a line feed in any case. -/
theorem splitAfterFeeds_append {source after : List Char} (read : List Char)
    (hsource : source.getLast? = some '\n') :
    splitAfterFeeds read (source ++ after) =
      splitAfterFeeds read source ++ splitAfterFeeds [] after := by
  induction source generalizing read with
  | nil => cases hsource
  | cons c rest ih =>
    rw [List.cons_append, splitAfterFeeds, splitAfterFeeds]
    -- The last character is the line feed, behind which nothing has been collected.
    cases rest with
    | nil =>
      rw [List.getLast?_singleton, Option.some_inj] at hsource
      rw [if_pos hsource, if_pos hsource]
      rfl
    | cons d rest =>
      rw [List.getLast?_cons_cons] at hsource
      split
      · rw [ih [] hsource, List.cons_append]
      · exact ih (c :: read) hsource

/-- A source is split behind each of its line feeds. -/
theorem splitLines_append {source after : List Char} (hsource : EndsLine source) :
    splitLines (source ++ after) = splitLines source ++ splitLines after := by
  rcases hsource with rfl | hsource
  · rfl
  · rw [splitLines, splitAfterFeeds_append [] hsource, List.flatMap_append]
    rfl

/-- The line that a text without line ends makes with a line feed. -/
def SourceLine.ofText (text : List Char) : SourceLine :=
  ⟨text, .lineFeed, ['\n'], 0⟩

theorem splitAtReturns_ofText {text : List Char} (hreturn : '\r' ∉ text) (hfeed : '\n' ∉ text)
    (read : List Char) :
    splitAtReturns read (text ++ ['\n']) = [.ofText (read.reverse ++ text)] := by
  induction text generalizing read with
  | nil => simp [splitAtReturns, SourceLine.ofText]
  | cons c text ih =>
    rw [List.mem_cons, not_or] at hreturn hfeed
    rw [List.cons_append, splitAtReturns, if_neg (Ne.symm hreturn.1), ih hreturn.2 hfeed.2,
      List.reverse_cons, List.append_assoc]
    · rfl
    · exact fun h => absurd h.symm hfeed.1
    · exact fun h => absurd h.symm hreturn.1

theorem splitAfterFeeds_ofText {text : List Char} (hfeed : '\n' ∉ text) (read : List Char) :
    splitAfterFeeds read (text ++ ['\n']) = [read.reverse ++ text ++ ['\n']] := by
  induction text generalizing read with
  | nil => simp [splitAfterFeeds]
  | cons c text ih =>
    rw [List.mem_cons, not_or] at hfeed
    rw [List.cons_append, splitAfterFeeds, if_neg (Ne.symm hfeed.1), ih hfeed.2, List.reverse_cons]
    simp

/-- So a text with a line feed behind it is one line of the source. -/
theorem splitLines_ofText {text : List Char} (hreturn : '\r' ∉ text) (hfeed : '\n' ∉ text) :
    splitLines (text ++ ['\n']) = [.ofText text] := by
  rw [splitLines, splitAfterFeeds_ofText hfeed, List.flatMap_singleton, List.reverse_nil,
    List.nil_append, splitAtReturns_ofText hreturn hfeed]
  rfl

/-- Lines of a source count further lines of their own part only. -/
theorem proper_splitLines (source : List Char) : Proper (splitLines source) := by
  -- A part that another one follows ends with a line feed, so its lines count none of the others.
  suffices h : ∀ read, Proper ((splitAfterFeeds read source).flatMap (splitAtReturns [])) from h []
  intro read
  fun_induction splitAfterFeeds read source with
  | case1 => trivial
  | case2 read _ =>
    rw [List.flatMap_singleton]
    exact proper_splitAtReturns [] _
  | case3 read rest ih =>
    rw [List.flatMap_cons]
    refine (proper_splitAtReturns [] _).append (ended_of_mem_splitAtReturns [] _ ?_) ih
    rw [List.reverse_cons, List.getLast?_concat]
  | case4 _ _ _ _ ih => exact ih

/-- The lines of a source without a sign are plain. -/
theorem plain_of_mem_splitLines {source : List Char} (hsource : ¬ sign <:+: source) :
    ∀ line ∈ splitLines source, line.Plain sign := by
  intro line hline
  obtain ⟨part, hpart, hline⟩ := List.mem_flatMap.mp hline
  -- Each line stands in a part of the source, and so does a sign that stands in the line.
  have hwithin : part <:+: source := by
    rw [← List.nil_append source, ← List.reverse_nil, ← flatten_splitAfterFeeds]
    exact List.infix_of_mem_flatten hpart
  refine ⟨fun hsign => hsource (hsign.trans ?_), last_of_mem_splitAtReturns [] part line hline⟩
  exact (infix_of_mem_splitAtReturns [] part line hline).trans hwithin

/-- If a source ends with a line feed, all of its lines do. -/
theorem ended_of_mem_splitLines {source : List Char} (hsource : EndsLine source) :
    ∀ line ∈ splitLines source, line.Ended := by
  rcases hsource with rfl | hsource
  · nofun
  · suffices h : ∀ read, ∀ line ∈ (splitAfterFeeds read source).flatMap (splitAtReturns []), line.Ended
      from h []
    intro read
    fun_induction splitAfterFeeds read source with
    | case1 => nofun
    | case2 => cases hsource
    | case3 read rest ih =>
      rw [List.flatMap_cons]
      intro line hline
      rcases List.mem_append.mp hline with hline | hline
      · refine ended_of_mem_splitAtReturns [] _ ?_ line hline
        rw [List.reverse_cons, List.getLast?_concat]
      · cases rest with
        | nil => cases hline
        | cons d rest => exact ih (by rwa [List.getLast?_cons_cons] at hsource) line hline
    | case4 read c rest hc ih =>
      refine ih ?_
      cases rest with
      | nil =>
        rw [List.getLast?_singleton, Option.some_inj] at hsource
        exact absurd hsource hc
      | cons d rest => rwa [List.getLast?_cons_cons] at hsource

/-! ## Verbatim text -/

/-- What code and HTML take from a line holds no sign, not even if a carriage return is dropped: at
most one character follows it, and a sign goes on with a digit. -/
theorem settled_verbatim (h : IsSign sign) {line : SourceLine} {text : List Char}
    (htext : ¬ sign <:+: text ++ line.beyond) {ended : Bool} (hended : ended → line.Ended) :
    Settled sign ended (line.verbatim text).reverse := by
  have hfeed (he : ended) : (text ++ line.beyond).getLast? = some '\n' := by
    rw [List.getLast?_append, hended he, Option.some_or]
  have hsettled {t : List Char} (hclean : Clean sign t)
      (hlast : t.getLast? = (text ++ line.beyond).getLast?) : Settled sign ended t :=
    ⟨hclean, fun he => hclean.quiet h (hlast.trans (hfeed he)) (by decide) (by decide)⟩
  unfold SourceLine.verbatim
  split
  · -- A carriage return is left out: the text before it holds no sign, and one character makes none.
    rename_i c before hall
    have hsplit : text ++ line.beyond = before.reverse ++ ['\r'] ++ [c] := by
      rw [← List.reverse_reverse (text ++ line.beyond), hall, List.reverse_cons, List.reverse_cons]
    rw [List.reverse_cons]
    refine hsettled (clean_concat fun hsign => htext ?_) ?_
    · rw [hsplit, List.append_assoc]
      exact hsign.trans (List.prefix_append _ _).isInfix
    · rw [hsplit, List.getLast?_concat, List.getLast?_concat]
  · rw [List.reverse_reverse]
    exact hsettled (clean_of_absent htext) rfl

/-! ## Places in a line -/

/-- Where columns are passed over, an end of the text is left. -/
theorem suffix_skipColumns : ∀ (text : List Char) (n column : Nat),
    (skipColumns n column text).2.rest <:+ text
  | [], _, _ => List.suffix_rfl
  | c :: rest, n, column => by
    unfold skipColumns
    split
    · exact List.suffix_rfl
    · split
      · exact (suffix_skipColumns rest _ _).trans (List.suffix_cons c rest)
      · split
        · extract_lets width
          split
          · exact (suffix_skipColumns rest _ _).trans (List.suffix_cons c rest)
          · exact List.suffix_cons c rest
        · exact List.suffix_rfl

namespace Cursor

variable {c c' : Cursor}

/-- What follows a place further on also follows the place before. -/
theorem suffix_skip (c : Cursor) (n : Nat) : (c.skip n).2.rest <:+ c.rest := by
  unfold Cursor.skip
  split
  · exact List.suffix_rfl
  · exact suffix_skipColumns c.rest _ _

theorem suffix_skipAll (c : Cursor) : c.skipAll.rest <:+ c.rest :=
  List.dropWhile_suffix _

theorem suffix_skipChar {x : Char} (h : c.skipChar? x = some c') : c'.rest <:+ c.rest := by
  unfold Cursor.skipChar? at h
  split at h
  · rename_i y rest hrest
    split at h
    · cases h
      rw [hrest]
      exact List.suffix_cons y rest
    · cases h
  · cases h

/-- No white space follows a place, and none is left of a tab before it. -/
structure Solid (c : Cursor) : Prop where
  pending : c.pending = 0
  head : ∀ x ∈ c.rest.head?, x ≠ ' ' ∧ x ≠ '\t'

/-- Where no white space follows, none is skipped. -/
theorem Solid.skip_eq (hc : c.Solid) (n : Nat) : c.skip n = (0, c) := by
  obtain ⟨rest, pending, column⟩ := c
  obtain ⟨rfl, hhead⟩ := hc
  unfold Cursor.skip
  split
  · rename_i hn
    cases Nat.le_zero.mp hn
    rfl
  · rename_i hn
    have hskip : skipColumns (n - 0) column rest = (n, ⟨rest, 0, column⟩) := by
      cases rest with
      | nil => rfl
      | cons x rest =>
        obtain ⟨hspace, htab⟩ := hhead x rfl
        unfold skipColumns
        rw [if_neg (by omega), if_neg hspace, if_neg htab, Nat.sub_zero]
    dsimp only
    rw [hskip, Nat.sub_self]

end Cursor

theorem Frame.suffix_advance {f : Frame} {c c' : Cursor} (h : f.advance? c = some c') :
    c'.rest <:+ c.rest := by
  unfold Frame.advance? at h
  split at h
  · obtain ⟨inside, hinside, rfl⟩ := Option.map_eq_some_iff.mp h
    exact ((inside.suffix_skip 1).trans (Cursor.suffix_skipChar hinside)).trans (c.suffix_skip 3)
  · rename_i indent _
    dsimp only at h
    split at h
    · cases h
      exact c.suffix_skip indent
    · cases h
  · cases h
    exact List.suffix_rfl

theorem suffix_advance : ∀ (frames : List Frame) (c : Cursor), (advance c frames).2.rest <:+ c.rest
  | [], _ => List.suffix_rfl
  | f :: inner, c => by
    unfold advance
    split
    · exact List.suffix_rfl
    · rename_i next hnext
      exact (suffix_advance inner next).trans (Frame.suffix_advance hnext)

/-- Neither white space nor the mark of a quote follows a place, so a line goes on with containers
without any characters between. -/
theorem advance_of_solid {c : Cursor} (hc : c.Solid) (hquote : c.rest.head? ≠ some '>') :
    ∀ frames : List Frame, (advance c frames).2 = c
  | [] => rfl
  | f :: inner => by
    have hnext : f.advance? c = none ∨ f.advance? c = some c := by
      unfold Frame.advance?
      cases f with
      | quote done =>
        have hmark : c.skipChar? '>' = none := by
          unfold Cursor.skipChar?
          split
          · rename_i y rest hrest
            refine if_neg fun hy => hquote ?_
            rw [hrest, hy]
            rfl
          · rfl
        left
        rw [hc.skip_eq, hmark]
        rfl
      | item indent done =>
        simp only [hc.skip_eq]
        split
        · exact Or.inr rfl
        · exact Or.inl rfl
      | list marker tight items => exact Or.inr rfl
    unfold advance
    rcases hnext with hnext | hnext
    · rw [hnext]
    · rw [hnext]
      exact advance_of_solid hc hquote inner

end DocWeave.Markdown

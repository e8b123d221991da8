import DocWeave.Markdown.Html
import DocWeave.Proofs.Markdown.Sign

/-!
# Signs in running text

Running text is written as text without angle brackets, as tags, and as HTML that is kept as it is.
Such HTML stands in the source and ends with an angle bracket, so no sign starts in running text
that holds none.

- `Inline.Tame`: a part of running text in which no sign starts.
- `Signless`: glyphs among which there is no sign, with or without the marks of blocks.
- `readInlines_tame`: the parts of such glyphs are tame; `quiet_writeInlines`: so is what is
  written.
-/

namespace DocWeave.Markdown

variable {sign : List Char}

/-! ## Escapes -/

theorem not_mem_flatMap {f : Char → List Char} (hf : ∀ c, '<' ∉ f c) (text : List Char) :
    '<' ∉ text.flatMap f := by
  intro h
  obtain ⟨c, -, hc⟩ := List.mem_flatMap.mp h
  exact hf c hc

/-- An angle bracket in running text is written as a reference. -/
theorem not_mem_escapeBodyChar (c : Char) : '<' ∉ escapeBodyChar c := by
  unfold escapeBodyChar
  split
  · decide
  · split
    · decide
    · split
      · decide
      · rename_i hlt _
        exact fun h => hlt (List.mem_singleton.mp h).symm

/-- No angle bracket is left in a text outside of tags. -/
theorem not_mem_escapeBody (text : List Char) : '<' ∉ escapeBody text :=
  not_mem_flatMap not_mem_escapeBodyChar text

/-- Nor is one left in the value of an attribute. -/
theorem not_mem_escapeQuoted (text : List Char) : '<' ∉ escapeQuoted text := by
  refine not_mem_flatMap (fun c => ?_) text
  split
  · decide
  · split
    · decide
    · exact not_mem_escapeBodyChar c

/-- A byte of an address is written as a percent sign and two hexadecimal digits. -/
theorem not_mem_percentByte (b : UInt8) : '<' ∉ percentByte b := by
  have hdigit : ∀ n < 16, '<' ≠ (Nat.digitChar n).toUpper := by decide
  have hb := b.toNat_lt
  unfold percentByte
  simp only [List.mem_cons, List.not_mem_nil, or_false, not_or]
  exact ⟨by decide, hdigit _ (by omega), hdigit _ (by omega)⟩

/-- The characters of an address that stay as they are do not include angle brackets. -/
theorem not_mem_escapeAddress (text : List Char) : '<' ∉ escapeAddress text := by
  refine not_mem_flatMap (fun c => ?_) text
  unfold escapeAddressChar
  split
  · rename_i hplain
    intro h
    rw [← List.mem_singleton.mp h] at hplain
    exact absurd hplain (by decide)
  · split
    · decide
    · split
      · decide
      · intro h
        obtain ⟨b, -, hb⟩ := List.mem_flatMap.mp h
        exact not_mem_percentByte b hb

/-- The title of a link is quoted, if it has one. -/
theorem not_mem_titleAttribute (title : List Char) : '<' ∉ titleAttribute title := by
  unfold titleAttribute
  split
  · decide
  · rw [List.mem_append, List.mem_append, not_or, not_or]
    exact ⟨⟨by decide, not_mem_escapeQuoted title⟩, by decide⟩

mutual

/-- So is the text that stands for an image, whatever markup there is in it. -/
theorem not_mem_plainInline : ∀ p : Inline, '<' ∉ plainInline p
  | .char c => not_mem_escapeQuoted [c]
  | .code text => not_mem_escapeQuoted text
  | .html text => not_mem_escapeQuoted text
  | .softBreak => by decide
  | .hardBreak => by decide
  | .emphasis children => not_mem_plainInlines children
  | .strong children => not_mem_plainInlines children
  | .strikethrough children => not_mem_plainInlines children
  | .link _ _ children => not_mem_plainInlines children
  | .image _ _ children => not_mem_plainInlines children

theorem not_mem_plainInlines : ∀ ps : List Inline, '<' ∉ plainInlines ps
  | [] => by decide
  | p :: ps => by
    rw [plainInlines, List.mem_append, not_or]
    exact ⟨not_mem_plainInline p, not_mem_plainInlines ps⟩

end

/-! ## Parts of running text -/

/-- A part of running text in which no sign starts, whatever follows. -/
def Inline.Tame (sign : List Char) (p : Inline) : Prop :=
  Quiet sign (writeInline p)

/-- Parts are written one after the other, so tame parts make quiet text. -/
theorem quiet_writeInlines :
    ∀ {ps : List Inline}, (∀ p ∈ ps, p.Tame sign) → Quiet sign (writeInlines ps)
  | [], _ => quiet_nil
  | p :: _, h =>
    (h p List.mem_cons_self).append (quiet_writeInlines fun q hq => h q (List.mem_cons_of_mem p hq))

section Parts

variable (h : IsSign sign)
include h

theorem tame_char (c : Char) : (Inline.char c).Tame sign :=
  quiet_of_not_mem h (not_mem_escapeBodyChar c)

theorem tame_code (text : List Char) : (Inline.code text).Tame sign :=
  ((quiet_of_opensTags h (by decide)).append (quiet_of_not_mem h (not_mem_escapeBody text))).append
    (quiet_of_opensTags h (by decide))

theorem tame_softBreak : Inline.softBreak.Tame sign :=
  quiet_of_opensTags h (by decide)

theorem tame_hardBreak : Inline.hardBreak.Tame sign :=
  quiet_of_opensTags h (by decide)

/-- Parts between two tags are as tame as they are outside. -/
theorem quiet_between {start stop : List Char} {ps : List Inline} (hstart : opensTags start)
    (hstop : opensTags stop) (hps : ∀ p ∈ ps, p.Tame sign) :
    Quiet sign (start ++ writeInlines ps ++ stop) :=
  ((quiet_of_opensTags h hstart).append (quiet_writeInlines hps)).append (quiet_of_opensTags h hstop)

theorem tame_emphasis {ps : List Inline} (hps : ∀ p ∈ ps, p.Tame sign) :
    (Inline.emphasis ps).Tame sign :=
  quiet_between h (by decide) (by decide) hps

theorem tame_strong {ps : List Inline} (hps : ∀ p ∈ ps, p.Tame sign) : (Inline.strong ps).Tame sign :=
  quiet_between h (by decide) (by decide) hps

theorem tame_strikethrough {ps : List Inline} (hps : ∀ p ∈ ps, p.Tame sign) :
    (Inline.strikethrough ps).Tame sign :=
  quiet_between h (by decide) (by decide) hps

/-- The start tag of a link holds the address and the title, both escaped. -/
theorem tame_link {ps : List Inline} (destination title : List Char)
    (hps : ∀ p ∈ ps, p.Tame sign) : (Inline.link destination title ps).Tame sign := by
  have haddress := quiet_of_not_mem h (not_mem_escapeAddress destination)
  have htitle := quiet_of_not_mem h (not_mem_titleAttribute title)
  have htag {t : List Char} (ht : opensTags t) : Quiet sign t := quiet_of_opensTags h ht
  exact ((((((htag (by decide)).append haddress).append (htag (by decide))).append htitle).append
    (htag (by decide))).append (quiet_writeInlines hps)).append (htag (by decide))

/-- An image is one tag, and its text is an attribute of it. -/
theorem tame_image (destination title : List Char) (ps : List Inline) :
    (Inline.image destination title ps).Tame sign := by
  have haddress := quiet_of_not_mem h (not_mem_escapeAddress destination)
  have htitle := quiet_of_not_mem h (not_mem_titleAttribute title)
  have htext := quiet_of_not_mem h (not_mem_plainInlines ps)
  have htag {t : List Char} (ht : opensTags t) : Quiet sign t := quiet_of_opensTags h ht
  exact ((((((htag (by decide)).append haddress).append (htag (by decide))).append htext).append
    (htag (by decide))).append htitle).append (htag (by decide))

/-- HTML of running text is tame if it is complete and holds no sign. -/
theorem tame_html {text : List Char} (htext : ¬ sign <:+: text) (hlast : text.getLast? = some '>') :
    (Inline.html text).Tame sign :=
  (clean_of_absent htext).quiet h hlast (by decide) (by decide)

end Parts

/-! ## Emphasis -/

/-- A token that makes tame parts. -/
def Token.Tame (sign : List Char) : Token → Prop
  | .part p => p.Tame sign
  | .run _ | .escapedEnd => True

/-- Only tame parts have been read. -/
structure EmphasisState.Tame (sign : List Char) (s : EmphasisState) : Prop where
  parts : ∀ p ∈ s.parts, p.Tame sign
  runs : ∀ r ∈ s.openRuns, ∀ p ∈ r.parts, p.Tame sign

section Emphasis

variable (h : IsSign sign)
include h

/-- Delimiters that are no emphasis are written as characters. -/
theorem tame_literalMarks (mark : Char) (count : Nat) :
    ∀ p ∈ literalMarks mark count, p.Tame sign := by
  intro p hp
  rw [List.eq_of_mem_replicate hp]
  exact tame_char h mark

/-- An open run that nothing closes is text, with the parts behind it. -/
theorem tame_writtenRuns {runs : List OpenRun} (hruns : ∀ r ∈ runs, ∀ p ∈ r.parts, p.Tame sign) :
    ∀ p ∈ writtenRuns runs, p.Tame sign := by
  intro p hp
  obtain ⟨r, hr, hp⟩ := List.mem_flatMap.mp hp
  rcases List.mem_append.mp hp with hp | hp
  · exact hruns r hr p hp
  · exact tame_literalMarks h _ _ p hp

/-- Emphasis around tame parts is tame, however many delimiters it has. -/
theorem tame_wrap (mark : Char) :
    ∀ (n : Nat) {ps : List Inline}, (∀ p ∈ ps, p.Tame sign) → ∀ p ∈ wrap mark n ps, p.Tame sign
  | 0, _, hps => hps
  | 1, ps, hps => by
    intro p hp
    rw [List.mem_singleton.mp hp]
    split
    · exact tame_strikethrough h hps
    · exact tame_emphasis h hps
  | n + 2, ps, hps => by
    -- Two delimiters are spent at once, and the others go around them.
    refine tame_wrap mark n fun p hp => ?_
    rw [List.mem_singleton.mp hp]
    split
    · exact tame_strikethrough h hps
    · exact tame_strong h hps

end Emphasis

/-- A run that is found is one of the open ones, as are those around it; the parts after it are
those of the runs inside of it. -/
theorem findOpening_eq_some {closing : Run} {limit : Nat} {openRuns outer : List OpenRun}
    {inner : List Inline} {r : OpenRun}
    (hfind : findOpening closing limit openRuns = some (inner, r, outer)) :
    ∃ i, openRuns.drop i = r :: outer ∧ inner = writtenRuns (openRuns.take i) ++ r.parts := by
  unfold findOpening at hfind
  obtain ⟨i, -, hi⟩ := Option.bind_eq_some_iff.mp hfind
  refine ⟨i, ?_⟩
  split at hi
  · cases hi
  · rename_i hdrop
    cases hi
    exact ⟨hdrop, rfl⟩

namespace EmphasisState

variable {s : EmphasisState}

/-- Parts go behind the innermost open run, or to the top if there is none. -/
theorem Tame.addParts (hs : s.Tame sign) {ps : List Inline} (hps : ∀ p ∈ ps, p.Tame sign) :
    (s.addParts ps).Tame sign := by
  unfold EmphasisState.addParts
  split
  · refine ⟨fun p hp => ?_, hs.runs⟩
    exact (List.mem_append.mp hp).elim (hps p) (hs.parts p)
  · rename_i r outer hruns
    have hold := hs.runs
    rw [hruns] at hold
    obtain ⟨hr, houter⟩ := List.forall_mem_cons.mp hold
    refine ⟨hs.parts, List.forall_mem_cons.mpr ⟨fun p hp => ?_, houter⟩⟩
    exact (List.mem_append.mp hp).elim (hps p) (hr p)

/-- A run closes open ones as long as it has delimiters left. -/
theorem Tame.close (h : IsSign sign) (r : Run) :
    ∀ (fuel count : Nat) {s : EmphasisState}, s.Tame sign → (s.close r count fuel).1.Tame sign
  | 0, _, _, hs => hs
  | fuel + 1, count, s, hs => by
    unfold EmphasisState.close
    split
    · exact hs
    · extract_lets limit
      rcases hfind : findOpening r limit s.openRuns with _ | ⟨inner, opening, outer⟩
      · dsimp only
        split
        · exact ⟨hs.parts, hs.runs⟩
        · exact hs
      · -- The parts between the two runs go into the emphasis, and runs between them are text.
        obtain ⟨i, hdrop, rfl⟩ := findOpening_eq_some hfind
        have hsub : ∀ x ∈ opening :: outer, x ∈ s.openRuns := by
          rw [← hdrop]
          exact fun x hx => List.mem_of_mem_drop hx
        have houter : ∀ x ∈ outer, ∀ p ∈ x.parts, p.Tame sign :=
          fun x hx => hs.runs x (hsub x (List.mem_cons_of_mem _ hx))
        have hinner :
            ∀ p ∈ (writtenRuns (s.openRuns.take i) ++ opening.parts).reverse, p.Tame sign := by
          intro p hp
          rcases List.mem_append.mp (List.mem_reverse.mp hp) with hp | hp
          · exact tame_writtenRuns h (fun x hx => hs.runs x (List.mem_of_mem_take hx)) p hp
          · exact hs.runs opening (hsub opening List.mem_cons_self) p hp
        have hwrapped := tame_wrap h r.mark (min count opening.run.count) hinner
        refine Tame.close h r fuel _ ?_
        split
        · -- The opening run has delimiters left and stays open.
          exact ⟨hs.parts, List.forall_mem_cons.mpr ⟨hwrapped, houter⟩⟩
        · refine Tame.addParts ?_ hwrapped
          exact ⟨hs.parts, houter⟩

theorem Tame.step (h : IsSign sign) (hs : s.Tame sign) {t : Token} (ht : t.Tame sign) :
    (s.step t).Tame sign := by
  have hchars (text : List Char) : ∀ p ∈ (text.map Inline.char).reverse, p.Tame sign := by
    intro p hp
    obtain ⟨c, -, rfl⟩ := List.mem_map.mp (List.mem_reverse.mp hp)
    exact tame_char h c
  cases t with
  | part p => exact hs.addParts fun q hq => List.mem_singleton.mp hq ▸ ht
  | escapedEnd => exact hs.addParts fun q hq => List.mem_singleton.mp hq ▸ tame_hardBreak h
  | run r =>
    -- What is left of the run after it has closed others opens emphasis itself, or is text.
    have hclosed : (if r.canClose then s.close r r.count r.count else (s, r.count)).1.Tame sign := by
      split
      · exact hs.close h r r.count r.count
      · exact hs
    unfold EmphasisState.step
    dsimp only
    generalize (if r.canClose then s.close r r.count r.count else (s, r.count)) = closed at hclosed ⊢
    obtain ⟨s', left⟩ := closed
    dsimp only
    split
    · exact hclosed
    · refine Tame.addParts ?_ (hchars r.tail)
      split
      · refine ⟨hclosed.parts, List.forall_mem_cons.mpr ⟨fun p hp => ?_, hclosed.runs⟩⟩
        cases hp
      · exact hclosed.addParts (tame_literalMarks h _ _)

/-- All tokens, by induction on them. -/
theorem Tame.foldl_step (h : IsSign sign) :
    ∀ {tokens : List Token} {s : EmphasisState}, s.Tame sign → (∀ t ∈ tokens, t.Tame sign) →
      (tokens.foldl EmphasisState.step s).Tame sign
  | [], _, hs, _ => hs
  | t :: _, _, hs, ht =>
    (hs.step h (ht t List.mem_cons_self)).foldl_step h fun u hu => ht u (List.mem_cons_of_mem t hu)

end EmphasisState

/-- Tame tokens make tame parts. -/
theorem resolve_tame (h : IsSign sign) {tokens : List Token} (htokens : ∀ t ∈ tokens, t.Tame sign) :
    ∀ p ∈ resolve tokens, p.Tame sign := by
  have hs := EmphasisState.Tame.foldl_step h (s := {}) ⟨nofun, nofun⟩ htokens
  intro p hp
  rcases List.mem_append.mp (List.mem_reverse.mp hp) with hp | hp
  · exact tame_writtenRuns h hs.runs p hp
  · exact hs.parts p hp

/-! ## HTML in running text -/

/-- Glyphs among which a sign occurs neither with nor without the marks of blocks. -/
structure Signless (sign : List Char) (gs : List Glyph) : Prop where
  raw : ¬ sign <:+: rawText gs
  unmarked : ¬ sign <:+: unmarkedText gs

theorem Signless.mono {gs hs : List Glyph} (hg : Signless sign gs) (hpart : hs <:+: gs) :
    Signless sign hs :=
  ⟨fun hh => hg.raw (hh.trans (hpart.map _)),
    fun hh => hg.unmarked (hh.trans ((hpart.filter _).map _))⟩

theorem suffix_take_of_sizeThrough {stop : List Char} :
    ∀ {text : List Char} {n : Nat}, sizeThrough stop text = some n → stop <:+ text.take n
  | [], n, hsize => by
    unfold sizeThrough at hsize
    split at hsize
    · rename_i hempty
      rw [List.isEmpty_iff.mp hempty]
      exact List.nil_suffix
    · cases hsize
  | c :: rest, n, hsize => by
    unfold sizeThrough at hsize
    split at hsize
    · rename_i hbegins
      cases hsize
      obtain ⟨more, hmore⟩ := List.isPrefixOf_iff_prefix.mp hbegins
      rw [← hmore, List.take_left]
    · obtain ⟨m, hm, rfl⟩ := Option.map_eq_some_iff.mp hsize
      rw [List.take_succ_cons]
      exact (suffix_take_of_sizeThrough hm).trans (List.suffix_cons c _)

/-- A declaration ends with an angle bracket. -/
theorem suffix_take_of_declarationSize {text : List Char} {n : Nat}
    (hsize : declarationSize text = some n) : ['>'] <:+ text.take n := by
  have hthrough (stop front : List Char) {rest : List Char} {m : Nat}
      (hm : sizeThrough (stop ++ ['>']) rest = some m) :
      ['>'] <:+ (front ++ rest).take (m + front.length) := by
    rw [Nat.add_comm, List.take_length_add_append]
    exact (List.suffix_append stop _).trans
      ((suffix_take_of_sizeThrough hm).trans (List.suffix_append front _))
  -- Instructions, comments, character data and declarations have an end of their own each.
  unfold declarationSize at hsize
  split at hsize
  · rename_i rest
    obtain ⟨m, hm, rfl⟩ := Option.map_eq_some_iff.mp hsize
    exact hthrough ['?'] ['?'] hm
  · rename_i rest
    split at hsize
    · cases hsize
      exact ⟨['!', '-', '-'], rfl⟩
    · cases hsize
      exact ⟨['!', '-', '-', '-'], rfl⟩
    · obtain ⟨m, hm, rfl⟩ := Option.map_eq_some_iff.mp hsize
      exact hthrough ['-', '-'] ['!', '-', '-'] hm
  · -- Character data: the angle bracket is looked for behind the closing brackets.
    rename_i rest
    extract_lets opening text after brackets at hsize
    split at hsize
    · split at hsize
      · rename_i hclosed
        cases hsize
        obtain ⟨-, hhead⟩ := Bool.and_eq_true_iff.mp hclosed
        have hlast := of_decide_eq_true hhead
        rw [List.drop_drop, List.head?_drop] at hlast
        rw [List.take_succ_cons, List.take_succ_cons, List.take_add_one, hlast]
        exact List.suffix_append ('!' :: '[' :: _) ['>']
      · cases hsize
    · cases hsize
  · rename_i c rest _ _
    split at hsize
    · obtain ⟨m, hm, rfl⟩ := Option.map_eq_some_iff.mp hsize
      exact hthrough [] ['!', c] hm
    · cases hsize
  · cases hsize

/-- Only an angle bracket completes a tag. -/
theorem eq_of_step_eq_done {s : TagState} {c : Char} (hstep : s.step c = some .done) : c = '>' := by
  -- Whatever the state, any other character leads to no state or to another one.
  unfold TagState.step TagState.close? at hstep
  split at hstep <;> (repeat' split at hstep) <;> first | assumption | cases hstep

/-- A tag ends with an angle bracket. -/
theorem suffix_take_of_tagSizeFrom :
    ∀ {gs : List Glyph} {s : TagState} {k n : Nat}, tagSizeFrom s k gs = some n →
      ∃ m, n = k + m ∧ ['>'] <:+ unmarkedText (gs.take m)
  | [], _, _, _, hsize => by cases hsize
  | g :: rest, s, k, n, hsize => by
    have hnext {s : TagState} (hsize : tagSizeFrom s (k + 1) rest = some n) :
        ∃ m, n = k + m ∧ ['>'] <:+ unmarkedText ((g :: rest).take m) := by
      obtain ⟨m, rfl, hm⟩ := suffix_take_of_tagSizeFrom hsize
      refine ⟨m + 1, by omega, hm.trans ?_⟩
      rw [List.take_succ_cons]
      exact ((List.suffix_cons g _).filter _).map _
    -- Marks of blocks in the middle of a tag are passed over, and do not count for its text.
    unfold tagSizeFrom at hsize
    split at hsize
    · exact hnext hsize
    · rename_i hlayer
      split at hsize
      · cases hsize
      · rename_i hdone
        cases hsize
        refine ⟨1, rfl, ?_⟩
        rw [List.take_succ_cons, List.take_zero, unmarkedText,
          List.filter_cons_of_pos (by simpa using hlayer),
          List.filter_nil, List.map_singleton, eq_of_step_eq_done hdone]
      · exact hnext hsize

/-! ## Reading running text -/

/-- Only tame tokens have been read. -/
structure InlineState.Tame (sign : List Char) (s : InlineState) : Prop where
  tokens : ∀ t ∈ s.tokens, t.Tame sign
  brackets : ∀ b ∈ s.brackets, ∀ t ∈ b.before, t.Tame sign

namespace InlineState

variable {s : InlineState} {ctx : InlineContext} {rest : List Glyph}

theorem Tame.emit (hs : s.Tame sign) {t : Token} (ht : t.Tame sign) (skip : Nat) :
    (s.emit t skip).Tame sign :=
  ⟨List.forall_mem_cons.mpr ⟨ht, hs.tokens⟩, hs.brackets⟩

theorem Tame.emitPart (hs : s.Tame sign) {p : Inline} (hp : p.Tame sign) (skip : Nat) :
    (s.emit (.part p) skip).Tame sign :=
  hs.emit (t := .part p) hp skip

section Sign

variable (h : IsSign sign)
include h

theorem Tame.emitText (hs : s.Tame sign) (text : List Char) (skip : Nat) :
    (s.emitText text skip).Tame sign := by
  refine ⟨fun t ht => ?_, hs.brackets⟩
  rcases List.mem_append.mp ht with ht | ht
  · obtain ⟨c, -, rfl⟩ := List.mem_map.mp (List.mem_reverse.mp ht)
    exact tame_char h c
  · exact hs.tokens t ht

/-- A bracket without a partner is text, before the tokens behind it. -/
theorem tame_release {b : OpenBracket} {tokens : List Token} (hb : ∀ t ∈ b.before, t.Tame sign)
    (htokens : ∀ t ∈ tokens, t.Tame sign) : ∀ t ∈ OpenBracket.release b tokens, t.Tame sign := by
  intro t ht
  rcases List.mem_append.mp ht with ht | ht
  · rcases List.mem_append.mp ht with ht | ht
    · exact htokens t ht
    · split at ht
      · rcases List.mem_cons.mp ht with rfl | ht
        · exact tame_char h _
        · exact List.mem_singleton.mp ht ▸ tame_char h _
      · exact List.mem_singleton.mp ht ▸ tame_char h _
  · exact hb t ht

/-- The last token of a link may turn from a break into a backslash. -/
theorem tame_linkTokens {tokens : List Token} (htokens : ∀ t ∈ tokens, t.Tame sign) :
    ∀ t ∈ linkTokens tokens, t.Tame sign := by
  unfold linkTokens
  split
  · split
    · exact List.forall_mem_cons.mpr ⟨tame_char h _, (List.forall_mem_cons.mp htokens).2⟩
    · exact htokens
  · exact htokens

/-- The tokens behind a bracket become the text of a link or of an image. -/
theorem Tame.makeLink (hs : s.Tame sign) {b : OpenBracket} {outer : List OpenBracket}
    (hbefore : ∀ t ∈ b.before, t.Tame sign) (houter : ∀ o ∈ outer, ∀ t ∈ o.before, t.Tame sign)
    (target : Target) (skip : Nat) : (s.makeLink b outer target skip).Tame sign := by
  have hchildren := @resolve_tame sign h (linkTokens s.tokens).reverse
    fun t ht => tame_linkTokens h hs.tokens t (List.mem_reverse.mp ht)
  refine ⟨List.forall_mem_cons.mpr ⟨?_, hbefore⟩, ?_⟩
  · show Inline.Tame sign (if b.image then _ else _)
    split
    · exact tame_image h _ _ _
    · exact tame_link h _ _ hchildren
  · -- Brackets further out keep their tokens, also if they can open no link any more.
    show ∀ o ∈ (if b.image then outer else _), _
    split
    · exact houter
    · intro o ho
      obtain ⟨o', ho', rfl⟩ := List.mem_map.mp ho
      split
      · exact houter o' ho'
      · exact houter o' ho'

theorem Tame.makeReference (hs : s.Tame sign) {b : OpenBracket} {outer : List OpenBracket}
    (hbefore : ∀ t ∈ b.before, t.Tame sign) (houter : ∀ o ∈ outer, ∀ t ∈ o.before, t.Tame sign)
    {label : List Char} {size : Nat} {s' : InlineState}
    (hmake : makeReference? ctx s b outer label size rest = some s') : s'.Tame sign := by
  unfold makeReference? at hmake
  split at hmake
  · cases hmake
  · obtain ⟨target, -, rfl⟩ := Option.map_eq_some_iff.mp hmake
    refine Tame.makeLink h ?_ hbefore houter target _
    exact ⟨hs.tokens, hs.brackets⟩

/-- A closing bracket ends a link, an image, or nothing. -/
theorem Tame.closeBracket (hs : s.Tame sign) : (s.closeBracket ctx rest).Tame sign := by
  unfold InlineState.closeBracket
  split
  · exact hs.emitText h _ _
  · rename_i b outer hb
    have hbrackets := hs.brackets
    rw [hb] at hbrackets
    obtain ⟨hbefore, houter⟩ := List.forall_mem_cons.mp hbrackets
    extract_lets literal byOwnText lead inner
    have hliteral : literal.Tame sign :=
      ⟨List.forall_mem_cons.mpr ⟨tame_char h _, tame_release h hbefore hs.tokens⟩, houter⟩
    have hreference {label : List Char} {size : Nat} {other : InlineState} (hother : other.Tame sign) :
        ((makeReference? ctx s b outer label size rest).getD other).Tame sign := by
      rcases hmake : makeReference? ctx s b outer label size rest with _ | s'
      · exact hother
      · exact hs.makeReference h hbefore houter hmake
    split
    · exact hliteral
    · split
      · -- The target stands behind the text.
        exact hs.makeLink h hbefore houter _ _
      · -- Otherwise a label names it: one of its own, or the text.
        have hown (size : Nat) : (byOwnText size).Tame sign := by
          dsimp only [byOwnText]
          split
          · exact hliteral
          · split
            · exact hliteral
            · exact hreference hliteral
        split
        · exact hown 0
        · split
          · exact hown _
          · split
            · exact hown 0
            · exact hreference ⟨hliteral.tokens, hliteral.brackets⟩

theorem tame_codeSpan {inTable : Bool} {size n : Nat} {code : Inline}
    (hcode : codeSpan inTable size rest = some (code, n)) : code.Tame sign := by
  unfold codeSpan at hcode
  split at hcode
  · cases hcode
  · obtain ⟨content, -, hcontent⟩ := Option.map_eq_some_iff.mp hcode
    cases hcontent
    exact tame_code h _

theorem Tame.escape (hs : s.Tame sign) : (s.escape ctx rest).Tame sign := by
  unfold InlineState.escape
  split
  · exact hs.emitText h _ _
  · -- Behind a backslash there is a line end, code, a bar in a table, punctuation, or none of these.
    extract_lets ending run
    split
    · exact hs.emit (t := .escapedEnd) trivial _
    · split
      · split
        · rename_i hcode
          exact (hs.emitText h _ _).emitPart (tame_codeSpan h hcode) _
        · exact hs.emitText h _ _
      · split
        · exact hs.emitText h _ _
        · split
          · exact hs.emitText h _ _
          · exact hs.emitText h _ _

theorem Tame.space (hs : s.Tame sign) (c : Char) : (s.space c rest).Tame sign := by
  unfold InlineState.space
  extract_lets more ending
  split
  · exact hs.emitText h _ _
  · refine hs.emitPart ?_ _
    split
    · exact tame_hardBreak h
    · exact tame_softBreak h

/-- HTML that is kept stands in the text with its opening bracket, so it holds no sign if the text
holds none. -/
theorem Tame.angle (hs : s.Tame sign) (hrest : Signless sign (⟨'<', .content⟩ :: rest)) :
    (s.angle rest).Tame sign := by
  have hfront (size : Nat) : Signless sign (⟨'<', .content⟩ :: rest.take size) :=
    hrest.mono (List.cons_prefix_cons.mpr ⟨rfl, List.take_prefix size rest⟩).isInfix
  have hlast {text : List Char} (hsuffix : ['>'] <:+ text) : ('<' :: text).getLast? = some '>' := by
    obtain ⟨front, rfl⟩ := hsuffix
    rw [← List.cons_append, List.getLast?_concat]
  unfold InlineState.angle
  split
  · exact hs.emitText h _ _
  · split
    · rename_i destination shown _
      refine hs.emitPart (tame_link h _ _ fun p hp => ?_) _
      obtain ⟨c, -, rfl⟩ := List.mem_map.mp hp
      exact tame_char h c
    · split
      · -- A declaration is kept with the marks of blocks in it, a tag is kept without them.
        rename_i size hsize
        refine hs.emitPart (tame_html h (hfront size).raw (hlast ?_)) _
        unfold declarationAt at hsize
        split at hsize
        · rw [List.map_take]
          exact suffix_take_of_declarationSize hsize
        · cases hsize
      · split
        · rename_i size hsize
          refine hs.emitPart (tame_html h (hfront size).unmarked (hlast ?_)) _
          obtain ⟨m, hm, hsuffix⟩ := suffix_take_of_tagSizeFrom hsize
          rwa [hm, Nat.zero_add]
        · exact hs.emitText h _ _

/-- A run of delimiters, which waits for the end of the text or is text itself. -/
theorem Tame.delimiters (hs : s.Tame sign) (c : Char) : (s.delimiters c rest).Tame sign := by
  unfold InlineState.delimiters
  extract_lets more size after run
  split
  · exact hs.emit (t := .run _) trivial _
  · exact hs.emitText h _ _

/-- A character reference, which is read as text. -/
theorem Tame.reference (hs : s.Tame sign) : (s.reference rest).Tame sign := by
  unfold InlineState.reference
  split
  · exact hs.emitText h _ _
  · exact hs.emitText h _ _

/-- One character of the content. For all of them but the angle bracket, what stands behind them does
not matter. -/
theorem Tame.readChar (hs : s.Tame sign) {c : Char} (hrest : Signless sign (⟨c, .content⟩ :: rest)) :
    (s.readChar ctx c rest).Tame sign := by
  -- The tokens so far are put aside when a bracket is opened.
  have hopen (tokens : List Token) (htokens : tokens = s.tokens) (b : OpenBracket) (skip : Nat)
      (hb : b.before = tokens) :
      InlineState.Tame sign { s with tokens := [], brackets := b :: s.brackets, skip := skip } := by
    refine ⟨nofun, List.forall_mem_cons.mpr ⟨?_, hs.brackets⟩⟩
    rw [hb, htokens]
    exact hs.tokens
  -- The character decides which of the lemmas above applies.
  unfold InlineState.readChar
  split
  · exact hs.escape h
  · split
    · exact hs.reference h
    · split
      · extract_lets more
        split
        · rename_i hcode
          exact hs.emitPart (tame_codeSpan h hcode) _
        · exact hs.emitText h _ _
      · split
        · rename_i hc
          subst hc
          exact hs.angle h hrest
        · split
          · exact hopen _ rfl _ 1 rfl
          · split
            · exact hopen _ rfl _ s.skip rfl
            · split
              · exact hs.closeBracket h
              · split
                · exact hs.delimiters h c
                · split
                  · exact hs.emitPart (tame_softBreak h) _
                  · split
                    · exact hs.space h c
                    · exact hs.emitText h _ _

/-- One glyph, which may have been read already. -/
theorem Tame.step (hs : s.Tame sign) {g : Glyph} (hrest : Signless sign (g :: rest)) :
    (s.step ctx g rest).Tame sign := by
  unfold InlineState.step
  extract_lets read
  -- Positions and neighbours are noted besides, which changes no token.
  suffices hread : read.Tame sign from ⟨hread.tokens, hread.brackets⟩
  unfold read
  split
  · exact ⟨hs.tokens, hs.brackets⟩
  · split
    · rename_i hcontent
      obtain ⟨c, layer⟩ := g
      cases of_decide_eq_true hcontent
      exact hs.readChar h hrest
    · split
      · exact hs.emitText h _ _
      · exact hs

/-- All glyphs, by induction on them: behind each of them there is no sign either. -/
theorem Tame.run : ∀ {gs : List Glyph} {s : InlineState}, s.Tame sign → Signless sign gs →
    (s.run ctx gs).Tame sign
  | [], _, hs, _ => hs
  | g :: rest, _, hs, hgs =>
    (hs.step h hgs).run (hgs.mono (List.suffix_cons g rest).isInfix)

/-- At the end, brackets that are still open mean themselves. -/
theorem Tame.allTokens (hs : s.Tame sign) : ∀ t ∈ s.allTokens, t.Tame sign := by
  -- From the inside to the outside, each bracket is put in front of what stands behind it.
  have hfold : ∀ {bs : List OpenBracket} {tokens : List Token},
      (∀ b ∈ bs, ∀ t ∈ b.before, t.Tame sign) → (∀ t ∈ tokens, t.Tame sign) →
        ∀ t ∈ bs.foldl (fun tokens b => OpenBracket.release b tokens) tokens, t.Tame sign := by
    intro bs
    induction bs with
    | nil => exact fun _ htokens => htokens
    | cons b bs ih =>
      intro tokens hbs htokens
      obtain ⟨hb, hbs⟩ := List.forall_mem_cons.mp hbs
      exact ih hbs (tame_release h hb htokens)
  exact fun t ht => hfold hs.brackets hs.tokens t (List.mem_reverse.mp ht)

end Sign

end InlineState

/-- The parts of glyphs without a sign are tame. -/
theorem readInlines_tame (h : IsSign sign) (ctx : InlineContext) (allowance : Nat)
    {content : List Glyph} (hcontent : Signless sign content) :
    ∀ p ∈ (readInlines ctx allowance content).1, p.Tame sign :=
  resolve_tame h (InlineState.Tame.allTokens h
    (InlineState.Tame.run h (s := { allowance := allowance }) ⟨nofun, nofun⟩ hcontent))

end DocWeave.Markdown

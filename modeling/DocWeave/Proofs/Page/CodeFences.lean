import DocWeave.Proofs.Page.Directives
import DocWeave.Proofs.Text.UniversalLines

/-!
# Fenced code by the rules of CommonMark

CommonMark asks more of a fence than a run of marks: at most three spaces stand in front of it, no
further backtick follows the backticks that open a block, and nothing but spaces and tabs follows the
fence that closes one. The lines of a page are followed without a look at these rules, so some lines are
misread. Up to the first of them, the lines that are taken as fenced are those of CommonMark.

- `Fence.OpensCode`, `Fence.ClosesCode`: the fences of CommonMark.
- `CodeStep`, `CodeAfter`, `InCode`: the blocks between them.
- `Misread`, `MisreadAt`: the lines that are taken for fences and are none.
- `codeStep_next_iff`: one line is followed as in CommonMark unless it is misread.
- `agree_iff`: so are the lines up to the first one that is misread.
- `misread_opening`, `misread_closing`: what becomes of that one, and of the line behind it.
- `fenced_iff_inCode`: what comes of it for the lines and for the directives of a source.
-/

namespace DocWeave.Page

open Directive (Leaf IsDotted moduleError)

/-! ## Runs of marks -/

/-- A fence stands in a line, with `blank` in front of it and `rest` behind it. -/
structure Fence.RunsIn (fence : Fence) (line blank rest : List Char) : Prop where
  /-- The fence is a run of its mark. -/
  line_eq : line = blank ++ (List.replicate fence.size fence.mark ++ rest)
  /-- The mark is a backtick or a tilde. -/
  mark : fence.mark = '\x60' ∨ fence.mark = '~'
  /-- There are at least three of them. -/
  size : 3 ≤ fence.size
  /-- The run goes as far as it can. -/
  whole : rest.head? ≠ some fence.mark

variable {fence opening : Fence} {line blank rest : List Char}

/-- A run of marks behind white space is a fence. -/
theorem Fence.RunsIn.starts (h : fence.RunsIn line blank rest)
    (hblank : ∀ c ∈ blank, Text.isBlank c = true) : fence.Starts line rest :=
  ⟨⟨blank, hblank, h.line_eq⟩, h.mark, h.size, h.whole⟩

theorem Fence.Starts.exists_runsIn (h : fence.Starts line rest) :
    ∃ blank, (∀ c ∈ blank, Text.isBlank c = true) ∧ fence.RunsIn line blank rest := by
  obtain ⟨⟨blank, hblank, hline⟩, hmark, hsize, hwhole⟩ := h
  exact ⟨blank, hblank, hline, hmark, hsize, hwhole⟩

/-- A line has one fence behind white space. -/
theorem Fence.RunsIn.unique (h : fence.RunsIn line blank rest)
    (hblank : ∀ c ∈ blank, Text.isBlank c = true) {fence' : Fence} {blank' rest' : List Char}
    (h' : fence'.RunsIn line blank' rest') (hblank' : ∀ c ∈ blank', Text.isBlank c = true) :
    fence' = fence ∧ blank' = blank ∧ rest' = rest := by
  have hread := Fence.ofLine_eq_some.mpr (h.starts hblank)
  rw [Fence.ofLine_eq_some.mpr (h'.starts hblank')] at hread
  obtain ⟨rfl, rfl⟩ := Prod.mk.inj (Option.some.inj hread)
  -- the runs and what follows them are the same, so nothing else can be in front
  have hline := h'.line_eq.symm.trans h.line_eq
  exact ⟨rfl, List.append_cancel_right hline, rfl⟩

/-! ## Fences of CommonMark -/

/-- White space that is at most three spaces. -/
def IsIndent (blank : List Char) : Prop :=
  ∃ n ≤ 3, blank = List.replicate n ' '

theorem IsIndent.isBlank (h : IsIndent blank) : ∀ c ∈ blank, Text.isBlank c = true := by
  obtain ⟨n, -, rfl⟩ := h
  intro c hc
  rw [List.eq_of_mem_replicate hc]
  decide

/-- A line opens a block of code with a fence. Behind backticks there is no further backtick, so that
code spans are no fences. -/
def Fence.OpensCode (fence : Fence) (line : List Char) : Prop :=
  ∃ indent info, IsIndent indent ∧ fence.RunsIn line indent info ∧
    (fence.mark = '\x60' → '\x60' ∉ info)

/-- A line closes the block that `opening` has opened. -/
def Fence.ClosesCode (opening : Fence) (line : List Char) : Prop :=
  ∃ fence indent trail, IsIndent indent ∧ Fence.RunsIn fence line indent trail ∧
    fence.mark = opening.mark ∧ opening.size ≤ fence.size ∧ ∀ c ∈ trail, c = ' ' ∨ c = '\t'

/-- What a line does to the fence that is open. -/
inductive CodeStep : FenceState → List Char → FenceState → Prop where
  | opens {fence : Fence} {line : List Char} (h : fence.OpensCode line) :
      CodeStep none line (some fence)
  | plain {line : List Char} (h : ∀ fence : Fence, ¬ fence.OpensCode line) : CodeStep none line none
  | closes {opening : Fence} {line : List Char} (h : opening.ClosesCode line) :
      CodeStep (some opening) line none
  | inside {opening : Fence} {line : List Char} (h : ¬ opening.ClosesCode line) :
      CodeStep (some opening) line (some opening)

/-- The fence that is open after some lines. -/
inductive CodeAfter : List (List Char) → FenceState → Prop where
  | start : CodeAfter [] none
  | step {ls : List (List Char)} {line : List Char} {state next : FenceState}
      (h : CodeAfter ls state) (hstep : CodeStep state line next) : CodeAfter (ls ++ [line]) next

/-- The line with number `n` of a source, with the fence that is open in front of it. Carriage returns
end lines as well. -/
def CodeBefore (source : List Char) (n : Nat) (state : FenceState) (line : List Char) : Prop :=
  ∃ before after, Text.universalLines source = before ++ line :: after ∧ before.length + 1 = n ∧
    CodeAfter before state

/-- A line belongs to a block of code: a fence is open in front of it, or it opens one. -/
def InCode (source : List Char) (n : Nat) : Prop :=
  ∃ state line, CodeBefore source n state line ∧
    (state ≠ none ∨ ∃ fence, CodeStep state line (some fence))

/-! ## Misread lines -/

/-- A line that is taken to open or to close a block and does not. -/
inductive Misread : FenceState → List Char → Prop where
  /-- More than three spaces, or other white space, stands in front of the fence. -/
  | indentedOpening {fence : Fence} {line blank rest : List Char} (hrun : fence.RunsIn line blank rest)
      (hblank : ∀ c ∈ blank, Text.isBlank c = true) (hindent : ¬ IsIndent blank) : Misread none line
  /-- The backticks start a code span. -/
  | codeSpan {fence : Fence} {line blank rest : List Char} (hrun : fence.RunsIn line blank rest)
      (hblank : ∀ c ∈ blank, Text.isBlank c = true) (hmark : fence.mark = '\x60')
      (hrest : '\x60' ∈ rest) : Misread none line
  /-- More than three spaces, or other white space, stands in front of the fence. -/
  | indentedClosing {opening fence : Fence} {line blank rest : List Char}
      (hrun : fence.RunsIn line blank rest) (hblank : ∀ c ∈ blank, Text.isBlank c = true)
      (hcloses : opening.closes fence rest = true) (hindent : ¬ IsIndent blank) :
      Misread (some opening) line
  /-- White space other than spaces and tabs stands behind the fence. -/
  | blankClosing {opening fence : Fence} {line blank rest : List Char}
      (hrun : fence.RunsIn line blank rest) (hblank : ∀ c ∈ blank, Text.isBlank c = true)
      (hcloses : opening.closes fence rest = true) (hrest : ¬ ∀ c ∈ rest, c = ' ' ∨ c = '\t') :
      Misread (some opening) line

/-- The line with number `n` of a source is misread. -/
def MisreadAt (source : List Char) (n : Nat) : Prop :=
  ∃ state line, CodeBefore source n state line ∧ Misread state line

/-! ## One line -/

/-- What opens a block for CommonMark starts like a fence. -/
theorem Fence.OpensCode.starts (h : fence.OpensCode line) : ∃ rest, fence.Starts line rest := by
  obtain ⟨indent, info, hindent, hrun, -⟩ := h
  exact ⟨info, hrun.starts hindent.isBlank⟩

theorem Fence.ClosesCode.starts (h : opening.ClosesCode line) :
    ∃ (fence : Fence) (rest : List Char), fence.Starts line rest := by
  obtain ⟨fence, indent, trail, hindent, hrun, -⟩ := h
  exact ⟨fence, trail, hrun.starts hindent.isBlank⟩

/-- Only a line that starts like a fence is misread. -/
theorem Misread.starts {state : FenceState} (h : Misread state line) :
    ∃ (fence : Fence) (rest : List Char), fence.Starts line rest := by
  cases h with
  | indentedOpening hrun hblank => exact ⟨_, _, hrun.starts hblank⟩
  | codeSpan hrun hblank => exact ⟨_, _, hrun.starts hblank⟩
  | indentedClosing hrun hblank => exact ⟨_, _, hrun.starts hblank⟩
  | blankClosing hrun hblank => exact ⟨_, _, hrun.starts hblank⟩

/-! In a line with a fence, all is said by what is in front of the fence and behind it. -/

section

variable (hrun : fence.RunsIn line blank rest) (hblank : ∀ c ∈ blank, Text.isBlank c = true)
include hrun hblank

/-- The line opens a block with its own fence, if the indentation and what is behind the fence permit.
-/
theorem opensCode_iff {fence' : Fence} : fence'.OpensCode line ↔
    fence' = fence ∧ IsIndent blank ∧ (fence.mark = '\x60' → '\x60' ∉ rest) := by
  constructor
  · rintro ⟨indent, info, hindent, hrun', hinfo⟩
    obtain ⟨rfl, rfl, rfl⟩ := hrun.unique hblank hrun' hindent.isBlank
    exact ⟨rfl, hindent, hinfo⟩
  · rintro ⟨rfl, hindent, hinfo⟩
    exact ⟨blank, rest, hindent, hrun, hinfo⟩

/-- It closes a block if it is taken to do so, with a good indentation and nothing but spaces and tabs
behind. -/
theorem closesCode_iff : opening.ClosesCode line ↔
    opening.closes fence rest = true ∧ IsIndent blank ∧ ∀ c ∈ rest, c = ' ' ∨ c = '\t' := by
  have hcloses : opening.closes fence rest = true ↔
      fence.mark = opening.mark ∧ opening.size ≤ fence.size ∧ ∀ c ∈ rest, Text.isBlank c = true := by
    simp [Fence.closes, Text.isBlankText, and_assoc]
  rw [hcloses]
  constructor
  · rintro ⟨fence', indent, trail, hindent, hrun', hmark, hsize, htrail⟩
    obtain ⟨rfl, rfl, rfl⟩ := hrun.unique hblank hrun' hindent.isBlank
    refine ⟨⟨hmark, hsize, fun c hc => ?_⟩, hindent, htrail⟩
    rcases htrail c hc with rfl | rfl <;> decide
  · rintro ⟨⟨hmark, hsize, -⟩, hindent, htrail⟩
    exact ⟨fence, blank, rest, hindent, hrun, hmark, hsize, htrail⟩

/-- Where no fence is open, a line with a fence is misread exactly if it opens no block. -/
theorem misread_none_iff :
    Misread none line ↔ ¬ (IsIndent blank ∧ (fence.mark = '\x60' → '\x60' ∉ rest)) := by
  constructor
  · rintro h ⟨hindent, hinfo⟩
    cases h with
    | indentedOpening hrun' hblank' hindent' =>
      obtain ⟨-, rfl, -⟩ := hrun.unique hblank hrun' hblank'
      exact hindent' hindent
    | codeSpan hrun' hblank' hmark hrest =>
      obtain ⟨rfl, -, rfl⟩ := hrun.unique hblank hrun' hblank'
      exact hinfo hmark hrest
  · intro h
    by_cases hindent : IsIndent blank
    · have hspan : ¬ (fence.mark = '\x60' → '\x60' ∉ rest) := fun hinfo => h ⟨hindent, hinfo⟩
      obtain ⟨hmark, hrest⟩ := Classical.not_imp.mp hspan
      exact .codeSpan hrun hblank hmark (not_not.mp hrest)
    · exact .indentedOpening hrun hblank hindent

/-- Where one is open, it is misread exactly if it is taken to close the block and does not. -/
theorem misread_some_iff : Misread (some opening) line ↔
    opening.closes fence rest = true ∧ ¬ (IsIndent blank ∧ ∀ c ∈ rest, c = ' ' ∨ c = '\t') := by
  constructor
  · intro h
    cases h with
    | indentedClosing hrun' hblank' hcloses hindent =>
      obtain ⟨rfl, rfl, rfl⟩ := hrun.unique hblank hrun' hblank'
      exact ⟨hcloses, fun h => hindent h.1⟩
    | blankClosing hrun' hblank' hcloses hrest =>
      obtain ⟨rfl, rfl, rfl⟩ := hrun.unique hblank hrun' hblank'
      exact ⟨hcloses, fun h => hrest h.2⟩
  · rintro ⟨hcloses, h⟩
    by_cases hindent : IsIndent blank
    · exact .blankClosing hrun hblank hcloses fun hrest => h ⟨hindent, hrest⟩
    · exact .indentedClosing hrun hblank hcloses hindent

end

/-- A line does one thing. -/
theorem CodeStep.unique {state next next' : FenceState} (h : CodeStep state line next)
    (h' : CodeStep state line next') : next' = next := by
  cases h with
  | opens hopens =>
    cases h' with
    | opens hopens' =>
      obtain ⟨indent, info, hindent, hrun, -⟩ := hopens
      exact congrArg some ((opensCode_iff hrun hindent.isBlank).mp hopens').1
    | plain hplain => exact absurd hopens (hplain _)
  | plain hplain =>
    cases h' with
    | opens hopens => exact absurd hopens (hplain _)
    | plain _ => rfl
  | closes hcloses =>
    cases h' with
    | closes _ => rfl
    | inside hinside => exact absurd hcloses hinside
  | inside hinside =>
    cases h' with
    | closes hcloses => exact absurd hcloses hinside
    | inside _ => rfl

/-- Where no fence is open, the line may open a block. -/
theorem codeStep_opens_iff : CodeStep none line (some fence) ↔ fence.OpensCode line := by
  refine ⟨fun h => ?_, .opens⟩
  cases h with
  | opens h => exact h

theorem codeStep_closes_iff : CodeStep (some opening) line none ↔ opening.ClosesCode line := by
  refine ⟨fun h => ?_, .closes⟩
  cases h with
  | closes h => exact h

/-- A line is followed as in CommonMark exactly if it is not misread. -/
theorem codeStep_next_iff {state : FenceState} :
    CodeStep state line (state.next line) ↔ ¬ Misread state line := by
  rcases hread : Fence.ofLine line with _ | ⟨fence, rest⟩
  · -- without a fence in the line, nothing happens on either side
    have hnone : ¬ ∃ (fence : Fence) (rest : List Char), fence.Starts line rest := by
      rintro ⟨fence, rest, hstarts⟩
      rw [Fence.ofLine_eq_some.mpr hstarts] at hread
      cases hread
    refine iff_of_true ?_ fun h => hnone h.starts
    cases state with
    | none =>
      have hnext : FenceState.next none line = none := by simp only [FenceState.next, hread]
      rw [hnext]
      exact .plain fun fence h => hnone ⟨fence, h.starts⟩
    | some opening =>
      have hnext : FenceState.next (some opening) line = some opening := by
        simp only [FenceState.next, hread]
      rw [hnext]
      exact .inside fun h => hnone h.starts
  · obtain ⟨blank, hblank, hrun⟩ := (Fence.ofLine_eq_some.mp hread).exists_runsIn
    cases state with
    | none =>
      have hnext : FenceState.next none line = some fence := by simp only [FenceState.next, hread]
      rw [hnext, codeStep_opens_iff, opensCode_iff hrun hblank, misread_none_iff hrun hblank, not_not]
      exact and_iff_right rfl
    | some opening =>
      rw [misread_some_iff hrun hblank]
      by_cases hcloses : opening.closes fence rest = true
      · have hnext : FenceState.next (some opening) line = none := by
          simp only [FenceState.next, hread, hcloses, if_true]
        rw [hnext, codeStep_closes_iff, closesCode_iff hrun hblank, not_and_not_right]
        exact ⟨fun h _ => h.2, fun h => ⟨hcloses, h hcloses⟩⟩
      · have hnext : FenceState.next (some opening) line = some opening := by
          simp only [FenceState.next, hread, if_neg hcloses]
        rw [hnext]
        refine iff_of_true (.inside fun h => ?_) fun h => hcloses h.1
        exact hcloses ((closesCode_iff hrun hblank).mp h).1

/-! ## All lines -/

/-- The last line decides, given the fence that the lines before it have left open. -/
theorem codeAfter_concat {ls : List (List Char)} {next : FenceState} :
    CodeAfter (ls ++ [line]) next ↔ ∃ state, CodeAfter ls state ∧ CodeStep state line next := by
  constructor
  · intro h
    -- The list is taken apart at its end.
    generalize hls : ls ++ [line] = all at h
    cases h with
    | start => cases List.append_eq_nil_iff.mp hls |>.2
    | step h hstep =>
      obtain ⟨rfl, hline⟩ := List.append_inj' hls rfl
      obtain rfl := List.singleton_inj.mp hline
      exact ⟨_, h, hstep⟩
  · rintro ⟨state, h, hstep⟩
    exact .step h hstep

/-- There is one fence at most that some lines have left open. -/
theorem CodeAfter.unique {ls : List (List Char)} {state state' : FenceState}
    (h : CodeAfter ls state) (h' : CodeAfter ls state') : state' = state := by
  induction h generalizing state' with
  | start =>
    generalize hls : ([] : List (List Char)) = all at h'
    cases h' with
    | start => rfl
    | step _ _ => cases List.append_eq_nil_iff.mp hls.symm |>.2
  | step _ hstep ih =>
    obtain ⟨before, hbefore, hstep'⟩ := codeAfter_concat.mp h'
    rw [ih hbefore] at hstep'
    exact hstep.unique hstep'

variable {source : List Char} {n : Nat}

/-- Lines are counted from one. -/
theorem getElem?_of_codeBefore {state : FenceState} (h : CodeBefore source (n + 1) state line) :
    (Text.universalLines source)[n]? = some line := by
  obtain ⟨before, after, hlines, hlength, -⟩ := h
  obtain rfl : before.length = n := Nat.succ.inj hlength
  rw [hlines, List.getElem?_append_right le_rfl, Nat.sub_self, List.getElem?_cons_zero]

/-- The fence in front of a line is the one that all lines before it have left open. -/
theorem codeBefore_iff {state : FenceState} {line' : List Char}
    (h : (Text.universalLines source)[n]? = some line) :
    CodeBefore source (n + 1) state line' ↔
      line' = line ∧ CodeAfter ((Text.universalLines source).take n) state := by
  constructor
  · intro hbefore
    have hline := getElem?_of_codeBefore hbefore
    obtain ⟨before, after, hlines, hlength, hstate⟩ := hbefore
    obtain rfl : before.length = n := Nat.succ.inj hlength
    rw [h] at hline
    rw [hlines, List.take_left]
    exact ⟨(Option.some.inj hline).symm, hstate⟩
  · rintro ⟨rfl, hstate⟩
    obtain ⟨hn, hline⟩ := List.getElem?_eq_some_iff.mp h
    refine ⟨_, (Text.universalLines source).drop (n + 1), ?_, ?_, hstate⟩
    · rw [← hline, List.getElem_cons_drop, List.take_append_drop]
    · rw [List.length_take, Nat.min_eq_left (Nat.le_of_lt hn)]

/-- The fence that the lines have left open is the one of CommonMark. -/
def Agrees (source : List Char) (n : Nat) : Prop :=
  CodeAfter ((Text.universalLines source).take n) (openAfter source n)

section

variable (hreturn : Text.ReturnsPaired source)
include hreturn

/-- If carriage returns are paired, lines that end with either are those that end with line feeds. -/
theorem textAt_iff_universalLines {text : List Char} :
    TextAt source (n + 1) text ↔ (Text.universalLines source)[n]? = some text := by
  rw [textAt_iff, Text.universalLines_eq hreturn, List.getElem?_map, Option.map_eq_some_iff]
  exact exists_congr fun raw => and_congr_right fun _ => eq_comm

theorem openAfter_succ_of_line (h : (Text.universalLines source)[n]? = some line) :
    openAfter source (n + 1) = (openAfter source n).next line := by
  rw [Text.universalLines_eq hreturn, List.getElem?_map, Option.map_eq_some_iff] at h
  obtain ⟨raw, hraw, rfl⟩ := h
  exact openAfter_succ hraw

/-- One more line keeps up with CommonMark exactly if it is not misread. -/
theorem agrees_succ_iff (h : (Text.universalLines source)[n]? = some line) (hn : Agrees source n) :
    Agrees source (n + 1) ↔ ¬ MisreadAt source (n + 1) := by
  have hmisread : MisreadAt source (n + 1) ↔ Misread (openAfter source n) line := by
    constructor
    · rintro ⟨state, line', hbefore, hmisread⟩
      obtain ⟨rfl, hstate⟩ := (codeBefore_iff h).mp hbefore
      rwa [hn.unique hstate] at hmisread
    · exact fun hmisread => ⟨_, line, (codeBefore_iff h).mpr ⟨rfl, hn⟩, hmisread⟩
  unfold Agrees
  rw [List.take_add_one, h, Option.toList_some, codeAfter_concat, openAfter_succ_of_line hreturn h,
    hmisread, ← codeStep_next_iff]
  constructor
  · rintro ⟨state, hstate, hstep⟩
    rwa [hn.unique hstate] at hstep
  · exact fun hstep => ⟨_, hn, hstep⟩

omit hreturn in
/-- Lines are counted from one. -/
theorem pos_of_textAt {text : List Char} (h : TextAt source n text) : 0 < n := by
  obtain ⟨_, ⟨_, -, hnumber⟩, -⟩ := h
  omega

omit hreturn in
theorem pos_of_misreadAt (h : MisreadAt source n) : 0 < n := by
  obtain ⟨_, _, ⟨before, _, _, hlength, _⟩, _⟩ := h
  omega

/-- All lines are followed as in CommonMark exactly if none is misread. -/
theorem agree_iff (hn : n ≤ (Text.universalLines source).length) :
    (∀ m ≤ n, Agrees source m) ↔ ∀ m ≤ n, ¬ MisreadAt source m := by
  induction n with
  | zero =>
    refine iff_of_true (fun m hm => ?_) fun m hm hmisread => ?_
    · obtain rfl := Nat.le_zero.mp hm
      exact .start
    · exact absurd hm (Nat.not_le_of_lt (pos_of_misreadAt hmisread))
  | succ n ih =>
    -- both sides say something about the lines before, which agrees, and about one line more
    have hline := List.getElem?_eq_getElem hn
    have ih := ih (Nat.le_of_lt hn)
    simp only [Nat.le_succ_iff, or_imp, forall_and, forall_eq] at ih ⊢
    rw [ih]
    exact and_congr_right fun hbefore =>
      agrees_succ_iff hreturn hline (ih.mpr hbefore n le_rfl)

/-! ## Fenced lines and lines of code -/

/-- A line is fenced if a fence is open in front of it or behind it. -/
theorem fenced_iff_openAfter (h : (Text.universalLines source)[n]? = some line) :
    Fenced source (n + 1) ↔ openAfter source n ≠ none ∨ openAfter source (n + 1) ≠ none := by
  obtain ⟨raw, hraw, rfl⟩ := textAt_iff.mp ((textAt_iff_universalLines hreturn).mpr h)
  rw [← covers_iff hraw, FenceState.covers, ← openAfter_succ hraw, Bool.or_eq_true,
    Option.isSome_iff_ne_none, Option.isSome_iff_ne_none]

omit hreturn in
/-- Whether a line is code depends on the line and on the fence that is open in front of it. -/
theorem inCode_iff (h : (Text.universalLines source)[n]? = some line) {state : FenceState}
    (hstate : CodeAfter ((Text.universalLines source).take n) state) :
    InCode source (n + 1) ↔ state ≠ none ∨ ∃ fence, CodeStep state line (some fence) := by
  constructor
  · rintro ⟨state', line', hbefore, hcode⟩
    obtain ⟨rfl, hstate'⟩ := (codeBefore_iff h).mp hbefore
    rwa [hstate.unique hstate'] at hcode
  · exact fun hcode => ⟨_, line, (codeBefore_iff h).mpr ⟨rfl, hstate⟩, hcode⟩

omit hreturn in
/-- A line is no code if no fence is open and it opens none. -/
theorem not_inCode (h : (Text.universalLines source)[n]? = some line)
    (hnone : CodeAfter ((Text.universalLines source).take n) none)
    (hplain : ∀ fence : Fence, ¬ fence.OpensCode line) : ¬ InCode source (n + 1) := by
  rw [inCode_iff h hnone]
  rintro (hne | ⟨fence, hstep⟩)
  · exact hne rfl
  · exact hplain fence (codeStep_opens_iff.mp hstep)

/-- A line that is not misread, nor any line before it, is fenced exactly if it is code. -/
theorem fenced_iff_of_agrees (h : (Text.universalLines source)[n]? = some line) (hn : Agrees source n)
    (hsucc : Agrees source (n + 1)) : Fenced source (n + 1) ↔ InCode source (n + 1) := by
  have hmisread := (agrees_succ_iff hreturn h hn).mp hsucc
  have hstep : CodeStep (openAfter source n) line (openAfter source (n + 1)) := by
    rw [openAfter_succ_of_line hreturn h, codeStep_next_iff]
    exact fun hline => hmisread ⟨_, line, (codeBefore_iff h).mpr ⟨rfl, hn⟩, hline⟩
  rw [fenced_iff_openAfter hreturn h, inCode_iff h hn]
  -- behind the line, a fence is open exactly if the line opens one or keeps it open
  refine or_congr_right ⟨fun hopen => ?_, ?_⟩
  · obtain ⟨fence, hfence⟩ := Option.ne_none_iff_exists'.mp hopen
    exact ⟨fence, hfence ▸ hstep⟩
  · rintro ⟨fence, hfence⟩
    rw [← hstep.unique hfence]
    nofun

/-- A line that is misread where no fence is open is fenced, and it is no code. -/
theorem misread_opening (h : (Text.universalLines source)[n]? = some line) (hn : Agrees source n)
    (hopen : openAfter source n = none) (hmisread : Misread none line) :
    Fenced source (n + 1) ∧ ¬ InCode source (n + 1) := by
  obtain ⟨fence, rest, hstarts⟩ := hmisread.starts
  obtain ⟨blank, hblank, hrun⟩ := hstarts.exists_runsIn
  have hsome : FenceState.next none line = some fence := by
    simp only [FenceState.next, Fence.ofLine_eq_some.mpr hstarts]
  constructor
  · rw [fenced_iff_openAfter hreturn h, openAfter_succ_of_line hreturn h, hopen, hsome]
    exact Or.inr (Option.some_ne_none fence)
  · refine not_inCode h (hopen ▸ hn) fun fence' hopens => ?_
    exact (misread_none_iff hrun hblank).mp hmisread ((opensCode_iff hrun hblank).mp hopens).2

/-- A line that is misread where a fence is open is fenced, and the code goes on behind it. The next line
is fenced only if it starts with a fence itself. -/
theorem misread_closing (h : (Text.universalLines source)[n]? = some line) (hn : Agrees source n)
    (hopen : openAfter source n = some opening) (hmisread : Misread (some opening) line) :
    Fenced source (n + 1) ∧ ∀ text, TextAt source (n + 2) text →
      InCode source (n + 2) ∧ (Fenced source (n + 2) ↔ ∃ fence, FenceAt source (n + 2) fence) := by
  obtain ⟨fence, rest, hstarts⟩ := hmisread.starts
  obtain ⟨blank, hblank, hrun⟩ := hstarts.exists_runsIn
  obtain ⟨hcloses, hrule⟩ := (misread_some_iff hrun hblank).mp hmisread
  have hnone : openAfter source (n + 1) = none := by
    rw [openAfter_succ_of_line hreturn h, hopen]
    simp only [FenceState.next, Fence.ofLine_eq_some.mpr hstarts, hcloses, if_true]
  have hafter : CodeAfter ((Text.universalLines source).take (n + 1)) (some opening) := by
    rw [List.take_add_one, h, Option.toList_some]
    exact .step (hopen ▸ hn) (.inside fun hline => hrule ((closesCode_iff hrun hblank).mp hline).2)
  have hsome : openAfter source n ≠ none := by
    rw [hopen]
    exact Option.some_ne_none opening
  refine ⟨(fenced_iff_openAfter hreturn h).mpr (Or.inl hsome), fun text htext => ?_⟩
  rw [textAt_iff_universalLines hreturn] at htext
  constructor
  · exact (inCode_iff htext hafter).mpr (Or.inl (Option.some_ne_none opening))
  · rw [fenced_iff_openAfter hreturn htext, hnone, or_iff_right (not_not.mpr rfl),
      Option.ne_none_iff_exists']
    exact exists_congr fun fence => openAfter_succ_eq_some hnone

/-- The first line that is misread is taken as fenced. Either it is no code, or it is taken for the end
of a block that goes on. -/
theorem first_misread (hmisread : MisreadAt source (n + 1)) (hn : Agrees source n) :
    Fenced source (n + 1) ∧ (InCode source (n + 1) → ∀ text, TextAt source (n + 2) text →
      InCode source (n + 2) ∧ (Fenced source (n + 2) ↔ ∃ fence, FenceAt source (n + 2) fence)) := by
  obtain ⟨state, line, hbefore, hline⟩ := hmisread
  have h := getElem?_of_codeBefore hbefore
  obtain ⟨-, hstate⟩ := (codeBefore_iff h).mp hbefore
  obtain rfl := hn.unique hstate
  rcases hopen : openAfter source n with _ | opening
  · rw [hopen] at hline
    obtain ⟨hfenced, hcode⟩ := misread_opening hreturn h hn hopen hline
    exact ⟨hfenced, fun hin => absurd hin hcode⟩
  · rw [hopen] at hline
    obtain ⟨hfenced, hnext⟩ := misread_closing hreturn h hn hopen hline
    exact ⟨hfenced, fun _ => hnext⟩

end

/-! ## Directives -/

/-- A directive in a fenced block is left as it is, without a warning. -/
theorem silent_of_fenced {source : String} {n : Nat} (h : Fenced source.toList n) :
    n ∉ (parse source).1.places.map (·.line) ∧
      (parse source).2.filter (fun w => w.line = n) = [] := by
  have hnone (leaf : Leaf) : ¬ DirectiveAt source.toList n leaf := by
    rintro ⟨_, -, hfenced, -⟩
    exact hfenced h
  refine ⟨fun hmem => ?_, List.filter_eq_nil_iff.mpr fun w hw hline => ?_⟩
  · obtain ⟨leaf, hleaf, -⟩ := mem_lines_iff.mp hmem
    exact hnone leaf hleaf
  · obtain ⟨leaf, hleaf⟩ := directiveAt_of_mem_warnings hw
    rw [decide_eq_true_iff.mp hline] at hleaf
    exact hnone leaf hleaf

/-- **Where the lines of a page are followed as in CommonMark.** Up to any line, the open fence is
the one of CommonMark exactly if no line so far is misread, and then the fenced lines are the lines of
code. The first line that is misread is fenced; it is no code, or the lines behind it are code and not
fenced. A directive outside of code is accounted for if no line up to it is misread; if it is fenced, it
is left as text without a warning. -/
theorem fenced_iff_inCode {source : String} (hreturn : Text.ReturnsPaired source.toList) :
    (∀ n ≤ (Text.universalLines source.toList).length,
      (∀ m ≤ n, CodeAfter ((Text.universalLines source.toList).take m) (openAfter source.toList m)) ↔
        ∀ m ≤ n, ¬ MisreadAt source.toList m) ∧
    (∀ n text, TextAt source.toList n text → (∀ m ≤ n, ¬ MisreadAt source.toList m) →
      (Fenced source.toList n ↔ InCode source.toList n)) ∧
    (∀ n, MisreadAt source.toList n → (∀ m < n, ¬ MisreadAt source.toList m) →
      Fenced source.toList n ∧ (InCode source.toList n → ∀ text, TextAt source.toList (n + 1) text →
        InCode source.toList (n + 1) ∧
          (Fenced source.toList (n + 1) ↔ ∃ fence, FenceAt source.toList (n + 1) fence))) ∧
    (∀ n text leaf, TextAt source.toList n text → Leaf.parse text = some leaf →
      leaf.name = "automodule" → ¬ InCode source.toList n →
      (∀ m ≤ n, ¬ MisreadAt source.toList m) →
        (IsDotted leaf.args.content.toList → n ∈ (parse source).1.places.map (·.line)) ∧
        (¬ IsDotted leaf.args.content.toList → (parse source).2.filter (fun w => w.line = n) =
          [.badModule n (moduleError leaf.args.content)])) ∧
    (∀ n, Fenced source.toList n → n ∉ (parse source).1.places.map (·.line) ∧
      (parse source).2.filter (fun w => w.line = n) = []) := by
  -- up to a line, nothing misread means that the open fences agree before it and behind it
  have hagree {n : Nat} {text : List Char} (htext : TextAt source.toList (n + 1) text)
      (hread : ∀ m ≤ n + 1, ¬ MisreadAt source.toList m) :
      Fenced source.toList (n + 1) ↔ InCode source.toList (n + 1) := by
    have hline := (textAt_iff_universalLines hreturn).mp htext
    have hn := List.getElem?_eq_some_iff.mp hline |>.1
    have hagrees := (agree_iff hreturn hn).mpr hread
    exact fenced_iff_of_agrees hreturn hline (hagrees n (Nat.le_succ n)) (hagrees (n + 1) le_rfl)
  refine ⟨fun n hn => agree_iff hreturn hn, ?_, ?_, ?_, fun n => silent_of_fenced⟩
  · intro n text htext hread
    obtain ⟨n, rfl⟩ := Nat.exists_eq_succ_of_ne_zero (pos_of_textAt htext).ne'
    exact hagree htext hread
  · intro n hmisread hfirst
    obtain ⟨n, rfl⟩ := Nat.exists_eq_succ_of_ne_zero (pos_of_misreadAt hmisread).ne'
    have hn : n ≤ (Text.universalLines source.toList).length := by
      obtain ⟨_, _, ⟨before, after, hlines, hlength, -⟩, -⟩ := hmisread
      rw [hlines, List.length_append]
      omega
    have hagrees := (agree_iff hreturn hn).mpr fun m hm => hfirst m (Nat.lt_succ_of_le hm)
    exact first_misread hreturn hmisread (hagrees n le_rfl)
  · intro n text leaf htext hparse hname hcode hread
    obtain ⟨n, rfl⟩ := Nat.exists_eq_succ_of_ne_zero (pos_of_textAt htext).ne'
    have hdirective : DirectiveAt source.toList (n + 1) leaf :=
      ⟨text, htext, mt (hagree htext hread).mp hcode, hparse, hname⟩
    exact ⟨fun hdotted => mem_lines_iff.mpr ⟨leaf, hdirective, hdotted⟩,
      fun hdotted => (kept_of_not_dotted hdirective hdotted).1⟩

/-- A code span with three backticks, and a directive behind it. -/
def codeSpanPage : String :=
  "\x60\x60\x60x\x60\x60\x60\n::automodule[a]\n"

/-- The code span is taken for a fence, so the directive behind it is lost. -/
theorem directive_lost_behind_codeSpan :
    MisreadAt codeSpanPage.toList 1 ∧
      (∀ n, n = 1 ∨ n = 2 → Fenced codeSpanPage.toList n ∧ ¬ InCode codeSpanPage.toList n) ∧
      (∃ text leaf, TextAt codeSpanPage.toList 2 text ∧ Leaf.parse text = some leaf ∧
        leaf.name = "automodule" ∧ IsDotted leaf.args.content.toList) ∧
      2 ∉ (parse codeSpanPage).1.places.map (·.line) ∧
      (parse codeSpanPage).2.filter (fun w => w.line = 2) = [] := by
  have hreturn : Text.ReturnsPaired codeSpanPage.toList :=
    Text.returnsPaired_of_not_mem (by decide +kernel)
  obtain ⟨-, -, hfirst, -, hsilent⟩ := fenced_iff_inCode hreturn
  have hspan : (Text.universalLines codeSpanPage.toList)[0]? =
      some "\x60\x60\x60x\x60\x60\x60".toList := by decide +kernel
  have hdirective : (Text.universalLines codeSpanPage.toList)[1]? = some "::automodule[a]".toList := by
    decide +kernel
  have hrun : Fence.RunsIn ⟨'\x60', 3⟩ "\x60\x60\x60x\x60\x60\x60".toList []
      "x\x60\x60\x60".toList := ⟨rfl, Or.inl rfl, le_rfl, by decide⟩
  -- neither of the lines opens a block
  have hplain : ∀ fence : Fence, ¬ fence.OpensCode "\x60\x60\x60x\x60\x60\x60".toList := by
    intro fence hopens
    exact ((opensCode_iff hrun nofun).mp hopens).2.2 rfl (by decide)
  have hplain' : ∀ fence : Fence, ¬ fence.OpensCode "::automodule[a]".toList := by
    intro fence hopens
    obtain ⟨rest, hstarts⟩ := hopens.starts
    have hread := Fence.ofLine_eq_some.mpr hstarts
    rw [show Fence.ofLine "::automodule[a]".toList = none by decide +kernel] at hread
    cases hread
  have hmisread : MisreadAt codeSpanPage.toList 1 :=
    ⟨none, _, (codeBefore_iff hspan).mpr ⟨rfl, .start⟩, .codeSpan hrun nofun rfl (by decide)⟩
  have hafter : CodeAfter ((Text.universalLines codeSpanPage.toList).take 1) none := by
    rw [List.take_add_one, hspan]
    exact .step .start (.plain hplain)
  have hfenced : Fenced codeSpanPage.toList 1 :=
    (hfirst 1 hmisread fun m hm h => absurd (pos_of_misreadAt h) (by omega)).1
  have hraw : (Text.lines codeSpanPage.toList)[1]? = some "::automodule[a]\n".toList := by
    decide +kernel
  have hfenced' : Fenced codeSpanPage.toList 2 := (covers_iff hraw).mp (by decide +kernel)
  refine ⟨hmisread, ?_, ?_, hsilent 2 hfenced'⟩
  · rintro n (rfl | rfl)
    · exact ⟨hfenced, not_inCode hspan .start hplain⟩
    · exact ⟨hfenced', not_inCode hdirective hafter hplain'⟩
  · refine ⟨_, ⟨"automodule", ⟨"a", []⟩⟩, (textAt_iff_universalLines hreturn).mpr hdirective,
      by decide +kernel, rfl, ?_⟩
    exact .identifier (Directive.isIdentifier_singleton (by decide))

end DocWeave.Page

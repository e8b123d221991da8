import DocWeave.Proofs.Page.Lossless

/-!
# Reading the Markdown of a document again

A directive is followed only where no fence is open, and it opens none. So what stands between two
directives is read with nothing open at its start, just as it would be if it were a source of its own.

- `readPieces_behind`: lines are read in the same way wherever they stand, up to their numbers.
- `CutInto`: lines cut into runs that hold no place, with the blocks that they become;
  `cutInto_parse`: the lines of a source are cut like this.
- `rereadWarnings`: the warnings about the Markdown of a document, each block read on its own.
- `reread_markdown`: a block of Markdown is read as itself, and with the warnings that it has in the
  source.
-/

namespace DocWeave.Page

/-! ## Lines that stand somewhere else -/

/-- A warning about text with `n` lines in front of it. -/
def Warning.behind (n : Nat) : Warning → Warning
  | .badModule line error => .badModule (n + line) error
  | .unknownOption line key => .unknownOption (n + line) key

/-- Whether a warning is about a directive that names no module, or none that is valid. -/
def Warning.isBadModule : Warning → Bool
  | .badModule _ _ => true
  | .unknownOption _ _ => false

/-- A piece of text with `n` lines in front of it. -/
def Piece.behind (n : Nat) (p : Piece) : Piece :=
  { p with line := n + p.line }

theorem place?_behind_eq_none {n : Nat} {p : Piece} :
    (p.behind n).place? = none ↔ p.place? = none := by
  unfold Piece.place? Piece.behind
  cases p.role <;> simp

theorem warnings_behind (n : Nat) (p : Piece) :
    (p.behind n).warnings = p.warnings.map (·.behind n) := by
  unfold Piece.warnings Piece.behind
  cases p.role <;> simp [Warning.behind, Function.comp_def]

/-- More lines in front of some lines change nothing but the numbers. -/
theorem readPieces_behind (state : FenceState) (n k : Nat) (ls : List (List Char)) :
    readPieces state (n + k) ls = (readPieces state k ls).map (·.behind n) := by
  induction ls generalizing state k with
  | nil => rfl
  | cons raw ls ih =>
    rw [readPieces, readPieces, List.map_cons, Nat.add_assoc, ih]
    rfl

/-! ## Runs without places -/

/-- Some lines hold no place if nothing is open in front of them. -/
def HoldsNoPlace (run : List (List Char)) : Prop :=
  ∀ p ∈ readPieces none 1 run, p.place? = none

/-- What is said about the lines of a run if nothing is open in front of them. -/
def warningsOfRun (run : List (List Char)) : List Warning :=
  (readPieces none 1 run).flatMap Piece.warnings

/-- Lines that are read with nothing open hold no place wherever they stand. -/
theorem holdsNoPlace_of_behind {n : Nat} {run : List (List Char)}
    (h : ∀ p ∈ readPieces none (n + 1) run, p.place? = none) : HoldsNoPlace run := by
  intro p hp
  refine place?_behind_eq_none.mp (h (p.behind n) ?_)
  rw [readPieces_behind]
  exact List.mem_map_of_mem hp

/-- Behind other lines the same is said, with later numbers. -/
theorem warningsOfRun_behind (n : Nat) (run : List (List Char)) :
    (readPieces none (n + 1) run).flatMap Piece.warnings = (warningsOfRun run).map (·.behind n) := by
  rw [readPieces_behind, List.flatMap_map, warningsOfRun, List.map_flatMap]
  exact List.flatMap_congr fun p _ => warnings_behind n p

/-- The block of Markdown that a run of lines becomes, unless it is empty. -/
def markdownOf (run : List (List Char)) : List Block :=
  if run = [] then [] else [.markdown (String.ofList run.flatten)]

/-- A line in front of a block of Markdown belongs to it. -/
theorem consMarkdown_markdownOf (raw : List Char) (run : List (List Char)) {blocks : List Block}
    (h : ∀ block ∈ blocks.head?, block.markdown? = none) :
    consMarkdown raw (markdownOf run ++ blocks) = markdownOf (raw :: run) ++ blocks := by
  by_cases hrun : run = []
  · subst hrun
    rcases blocks with _ | ⟨value | place, blocks⟩
    · simp [markdownOf, consMarkdown]
    · cases h _ rfl
    · simp [markdownOf, consMarkdown]
  · simp [markdownOf, hrun, consMarkdown, String.ofList_append]

/-- A line that holds no place belongs to the Markdown behind it. -/
theorem blocksOfPieces_cons {p : Piece} (h : p.place? = none) (ps : List Piece) :
    blocksOfPieces (p :: ps) = consMarkdown p.raw (blocksOfPieces ps) := by
  rw [blocksOfPieces]
  unfold Piece.place? at h
  cases hrole : p.role with
  | text => rfl
  | rejected error => rfl
  | accepted request unknown => simp [hrole] at h

/-- Lines without places make one block of Markdown. -/
theorem blocksOfPieces_of_no_place {ps : List Piece} (h : ∀ p ∈ ps, p.place? = none) :
    blocksOfPieces ps = markdownOf (ps.map (·.raw)) := by
  induction ps with
  | nil => rfl
  | cons p ps ih =>
    obtain ⟨hp, hps⟩ := List.forall_mem_cons.mp h
    have hcons : consMarkdown p.raw (markdownOf (ps.map (·.raw)) ++ []) =
        markdownOf (p.raw :: ps.map (·.raw)) ++ [] := consMarkdown_markdownOf _ _ nofun
    rw [List.append_nil, List.append_nil] at hcons
    rw [blocksOfPieces_cons hp, ih hps, hcons, List.map_cons]

/-- A run without places, read as a source of its own, is one block of Markdown. -/
theorem parse_run {run : List (List Char)} (hlines : Text.AreLines run) (hne : run ≠ [])
    (hrun : HoldsNoPlace run) : parse (String.ofList run.flatten) =
      (⟨[.markdown (String.ofList run.flatten)]⟩, warningsOfRun run) := by
  unfold parse parseChars
  rw [String.toList_ofList, hlines.lines_flatten]
  dsimp only
  rw [blocksOfPieces_of_no_place hrun, map_raw_readPieces, markdownOf, if_neg hne, warningsOfRun]

/-! ## Cutting lines -/

/-- Lines with `n` others in front of them are cut into blocks: runs that hold no place, and single
lines that do. The warnings are those about the runs. -/
inductive CutInto : Nat → List (List Char) → List Block → List Warning → Prop where
  | nil (n : Nat) : CutInto n [] [] []
  | run {n : Nat} {run rest : List (List Char)} {blocks : List Block} {warnings : List Warning}
      (hne : run ≠ []) (hrun : HoldsNoPlace run) (hrest : CutInto (n + run.length) rest blocks warnings) :
    CutInto n (run ++ rest) (.markdown (String.ofList run.flatten) :: blocks)
      ((warningsOfRun run).map (·.behind n) ++ warnings)
  | place {n : Nat} {raw : List Char} {rest : List (List Char)} {place : Pending}
      {blocks : List Block} {warnings : List Warning} (hrest : CutInto (n + 1) rest blocks warnings) :
    CutInto n (raw :: rest) (.autodoc place :: blocks) warnings

/-- A run in front is a block of its own, or nothing. -/
theorem CutInto.consRun {n : Nat} {run rest : List (List Char)} {blocks : List Block}
    {warnings : List Warning} (h : CutInto (n + run.length) rest blocks warnings)
    (hrun : HoldsNoPlace run) : CutInto n (run ++ rest) (markdownOf run ++ blocks)
      ((warningsOfRun run).map (·.behind n) ++ warnings) := by
  by_cases hne : run = []
  · subst hne
    exact h
  · rw [markdownOf, if_neg hne]
    exact .run hne hrun h

/-- Where a directive is followed, nothing is open before the line and after it. -/
theorem FenceState.of_role_eq_accepted {state : FenceState} {raw : List Char} {request : Request}
    {unknown : List String} (h : state.role raw = .accepted request unknown) :
    state = none ∧ state.next (Text.dropLineEnd raw) = none := by
  obtain ⟨hcovers, -⟩ := (FenceState.role_eq_iff (by nofun)).mp h
  rw [FenceState.covers, Bool.or_eq_false_iff, Option.isSome_eq_false_iff,
    Option.isSome_eq_false_iff, Option.isNone_iff_eq_none, Option.isNone_iff_eq_none] at hcovers
  exact hcovers

/-- All that is said about a line that holds no place is that it names no module. -/
theorem filter_warnings {p : Piece} (h : p.place? = none) :
    p.warnings.filter Warning.isBadModule = p.warnings := by
  unfold Piece.place? at h
  unfold Piece.warnings
  cases hrole : p.role with
  | text => rfl
  | rejected error => rfl
  | accepted request unknown => simp [hrole] at h

theorem filter_warnings_accepted {p : Piece} {request : Request} {unknown : List String}
    (h : p.role = .accepted request unknown) : p.warnings.filter Warning.isBadModule = [] := by
  rw [Piece.warnings, h, List.filter_eq_nil_iff]
  intro w hw
  obtain ⟨key, -, rfl⟩ := List.mem_map.mp hw
  nofun

/-- From any line on, there is first a run without places, and the lines behind it are cut into
blocks. If nothing is open in front of the run, it is a block of its own. -/
theorem exists_cutInto (state : FenceState) (n : Nat) (ls : List (List Char)) :
    ∃ run rest blocks warnings, ls = run ++ rest ∧
      (∀ p ∈ readPieces state (n + 1) run, p.place? = none) ∧
      CutInto (n + run.length) rest blocks warnings ∧
      (∀ block ∈ blocks.head?, block.markdown? = none) ∧
      blocksOfPieces (readPieces state (n + 1) ls) = markdownOf run ++ blocks ∧
      ((readPieces state (n + 1) ls).flatMap Piece.warnings).filter Warning.isBadModule =
        (readPieces state (n + 1) run).flatMap Piece.warnings ++ warnings := by
  induction ls generalizing state n with
  | nil => exact ⟨[], [], [], [], rfl, List.forall_mem_nil _, .nil _, by simp, rfl, rfl⟩
  | cons raw ls ih =>
    obtain ⟨run, rest, blocks, warnings, hls, hrun, hcut, hhead, hblocks, hwarnings⟩ :=
      ih (state.next (Text.dropLineEnd raw)) (n + 1)
    let p : Piece := ⟨raw, n + 1, state.role raw⟩
    -- The first line is read in the state, and the others in the next one.
    have hpieces (ls : List (List Char)) : readPieces state (n + 1) (raw :: ls) =
        p :: readPieces (state.next (Text.dropLineEnd raw)) (n + 1 + 1) ls := rfl
    rw [hpieces, List.flatMap_cons, List.filter_append, hwarnings]
    by_cases hplace : p.place? = none
    · -- The line belongs to the run behind it.
      refine ⟨raw :: run, rest, blocks, warnings, by rw [hls]; rfl, ?_, ?_, hhead, ?_, ?_⟩
      · rw [hpieces]
        exact List.forall_mem_cons.mpr ⟨hplace, hrun⟩
      · rw [List.length_cons, Nat.add_comm run.length, ← Nat.add_assoc]
        exact hcut
      · rw [blocksOfPieces_cons hplace, hblocks, consMarkdown_markdownOf raw run hhead]
      · rw [filter_warnings hplace, hpieces, List.flatMap_cons, List.append_assoc]
    · -- The line is a place, so the run behind it starts with nothing open.
      obtain ⟨place, hsome⟩ := Option.ne_none_iff_exists'.mp hplace
      obtain ⟨request, unknown, hrole, rfl⟩ := Piece.place?_eq_some.mp hsome
      obtain ⟨rfl, hnext⟩ := FenceState.of_role_eq_accepted hrole
      rw [hnext] at hrun hblocks ⊢
      have hholds := holdsNoPlace_of_behind hrun
      refine ⟨[], raw :: ls, .autodoc ⟨request, n + 1, []⟩ :: (markdownOf run ++ blocks), _, rfl,
        List.forall_mem_nil _, .place (hls ▸ hcut.consRun hholds), ?_, ?_, ?_⟩
      · intro block hblock
        rw [← Option.some.inj hblock]
        rfl
      · rw [blocksOfPieces, hblocks, hrole]
        rfl
      · rw [filter_warnings_accepted hrole, warningsOfRun_behind]
        rfl

/-! ## Reading blocks again -/

/-- The number of lines that a block stands for in its source. -/
def Block.lineCount : Block → Nat
  | .markdown value => (Text.lines value.toList).length
  | .autodoc _ => 1

/-- The number of lines that blocks stand for. -/
def lineCount : List Block → Nat
  | [] => 0
  | block :: blocks => block.lineCount + lineCount blocks

/-- The warnings about the Markdown of blocks, each read as a source of its own; the lines are counted
with those in front of the block, `n` of which are in front of all the blocks. -/
def rereadWarnings (n : Nat) : List Block → List Warning
  | [] => []
  | .markdown value :: rest =>
    (parse value).2.map (·.behind n) ++ rereadWarnings (n + Block.lineCount (.markdown value)) rest
  | .autodoc place :: rest => rereadWarnings (n + Block.lineCount (.autodoc place)) rest

theorem lineCount_run {run : List (List Char)} (h : Text.AreLines run) :
    Block.lineCount (.markdown (String.ofList run.flatten)) = run.length := by
  rw [Block.lineCount, String.toList_ofList, h.lines_flatten]

/-- The warnings about the runs are those about the blocks that they become. -/
theorem CutInto.warnings_eq {n : Nat} {ls : List (List Char)} {blocks : List Block}
    {warnings : List Warning} (h : CutInto n ls blocks warnings) (hlines : Text.AreLines ls) :
    warnings = rereadWarnings n blocks := by
  induction h with
  | nil n => rfl
  | run hne hrun _ ih =>
    obtain ⟨hrunLines, hrestLines⟩ := hlines.of_append
    rw [rereadWarnings, parse_run hrunLines hne hrun, lineCount_run hrunLines, ih hrestLines]
  | @place n raw rest _ _ _ _ ih =>
    exact ih hlines.of_cons

/-- A block of Markdown is one of the runs, behind as many lines as the blocks before it stand for. -/
theorem CutInto.exists_run {n : Nat} {ls : List (List Char)} {blocks : List Block}
    {warnings : List Warning} (h : CutInto n ls blocks warnings) (hlines : Text.AreLines ls) :
    ∀ {first : List Block} {value : String} {more : List Block},
      blocks = first ++ .markdown value :: more → ∃ front run back, ls = front ++ (run ++ back) ∧
        front.length = lineCount first ∧ run ≠ [] ∧ HoldsNoPlace run ∧ Text.AreLines run ∧
          value = String.ofList run.flatten := by
  induction h with
  | nil n =>
    intro first value more hsplit
    simp at hsplit
  | @run n run rest blocks warnings hne hrun _ ih =>
    obtain ⟨hrunLines, hrestLines⟩ := hlines.of_append
    rintro (_ | ⟨block, first⟩) value more hsplit
    · obtain ⟨hvalue, -⟩ := List.cons.inj hsplit
      exact ⟨[], run, rest, rfl, rfl, hne, hrun, hrunLines, (Block.markdown.inj hvalue).symm⟩
    · obtain ⟨rfl, hblocks⟩ := List.cons.inj hsplit
      obtain ⟨front, found, back, rfl, hfront, hfound⟩ := ih hrestLines hblocks
      refine ⟨run ++ front, found, back, (List.append_assoc ..).symm, ?_, hfound⟩
      rw [List.length_append, hfront, lineCount, lineCount_run hrunLines]
  | @place n raw rest place blocks warnings _ ih =>
    rintro (_ | ⟨block, first⟩) value more hsplit
    · cases (List.cons.inj hsplit).1
    · obtain ⟨rfl, hblocks⟩ := List.cons.inj hsplit
      obtain ⟨front, found, back, rfl, hfront, hfound⟩ := ih hlines.of_cons hblocks
      refine ⟨raw :: front, found, back, rfl, ?_, hfound⟩
      rw [List.length_cons, hfront, lineCount, Nat.add_comm, Block.lineCount]

/-- The lines of a source are cut into the blocks of its document. -/
theorem cutInto_parse (source : String) :
    CutInto 0 (Text.lines source.toList) (parse source).1.blocks
      ((parse source).2.filter Warning.isBadModule) := by
  obtain ⟨run, rest, blocks, warnings, hls, hrun, hcut, -, hblocks, hwarnings⟩ :=
    exists_cutInto none 0 (Text.lines source.toList)
  -- Nothing is open at the start of a source, so the first run is a block as well.
  have hwhole := hcut.consRun hrun
  have hzero (w : Warning) : w.behind 0 = w := by
    cases w <;> simp [Warning.behind]
  have hdocument : (parse source).1.blocks = markdownOf run ++ blocks := hblocks
  have hreport : (parse source).2.filter Warning.isBadModule = warningsOfRun run ++ warnings :=
    hwarnings
  rw [hls, hdocument, hreport]
  simpa [hzero] using hwhole

/-- **A block of Markdown is read as itself.** It consists of whole lines of the source, and if it is
read as a source of its own there is nothing but this block in the document. The warnings about all
blocks of Markdown, with the lines before each block counted, are the warnings of the source about
directives that name no module. -/
theorem reread_markdown (source : String) :
    (∀ first value rest, (parse source).1.blocks = first ++ .markdown value :: rest →
      (parse value).1 = ⟨[.markdown value]⟩ ∧
      ∃ front back, Text.lines source.toList = front ++ (Text.lines value.toList ++ back) ∧
        front.length = lineCount first) ∧
    rereadWarnings 0 (parse source).1.blocks = (parse source).2.filter Warning.isBadModule := by
  have hcut := cutInto_parse source
  have hlines := Text.areLines_lines source.toList
  refine ⟨fun first value rest hblocks => ?_, (hcut.warnings_eq hlines).symm⟩
  obtain ⟨front, run, back, hsource, hfront, hne, hrun, hrunLines, rfl⟩ :=
    hcut.exists_run hlines hblocks
  refine ⟨by rw [parse_run hrunLines hne hrun], front, back, ?_, hfront⟩
  rw [String.toList_ofList, hrunLines.lines_flatten, hsource]

/-- Behind a directive, a fence and a line that names no module. -/
theorem reread_markdown_behindDirective :
    let source := "::automodule[p]\n~~~\n::automodule[q]\n~~~\n::automodule[1]"
    let value := "~~~\n::automodule[q]\n~~~\n::automodule[1]"
    (parse source).1.blocks.map Block.markdown? = [none, some value] ∧
      (parse value).1 = ⟨[.markdown value]⟩ ∧
      rereadWarnings 0 (parse source).1.blocks = [.badModule 5 (.invalid "1")] := by
  intro source value
  obtain ⟨hblocks, hwarnings⟩ := reread_markdown source
  have hshape : (parse source).1.blocks.map Block.markdown? = [none, some value] := by
    decide +kernel
  have hbad : (parse source).2.filter Warning.isBadModule = [.badModule 5 (.invalid "1")] := by
    decide +kernel
  obtain ⟨first, rest, hcons, -, hrest⟩ := List.map_eq_cons_iff.mp hshape
  obtain ⟨second, more, rfl, hsecond, -⟩ := List.map_eq_cons_iff.mp hrest
  cases second with
  | markdown text =>
    obtain rfl := Option.some.inj hsecond
    exact ⟨hshape, (hblocks [first] _ more hcons).1, hwarnings.trans hbad⟩
  | autodoc place => cases hsecond

end DocWeave.Page

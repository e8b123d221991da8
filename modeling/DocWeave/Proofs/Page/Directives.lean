import DocWeave.Proofs.Directive.Names
import DocWeave.Proofs.Page.Fenced

/-!
# What becomes of directives

A line with a directive becomes a place, or stays Markdown with a warning. Which of the two, and what
is warned about, is a matter of that line and of whether it is fenced; the rest of the source has no
part in it.

- `DirectiveAt`: the lines that hold a directive; `role_eq_accepted`, `role_eq_rejected`: what is made
  of such a line.
- `warnings_of_line`: the warnings about a line are those of its piece.
- `KeptAt`: a line that stays in the Markdown.
- `accounted_parse`: the places and the warnings of a document.
-/

namespace DocWeave.Page

open Directive (Leaf ModuleError IsDotted moduleError)
open Text (LineAt LineAfter)

variable {source : List Char}

/-- A line holds a directive `automodule`, outside of fenced blocks. -/
def DirectiveAt (source : List Char) (n : Nat) (leaf : Leaf) : Prop :=
  ∃ text, TextAt source n text ∧ ¬ Fenced source n ∧ Leaf.parse text = some leaf ∧
    leaf.name = "automodule"

/-! ## Roles of lines -/

/-- The piece with some index is the line with the next number. -/
theorem directiveAt_iff {i : Nat} {p : Piece} (hp : (piecesOf source)[i]? = some p) {leaf : Leaf} :
    DirectiveAt source p.line leaf ↔
      (openAfter source i).covers (Text.dropLineEnd p.raw) = false ∧
        Leaf.parse (Text.dropLineEnd p.raw) = some leaf ∧ leaf.name = Directive.automodule := by
  obtain ⟨hraw, hline, -⟩ := getElem?_piecesOf.mp hp
  unfold DirectiveAt
  rw [hline, ← Bool.not_eq_true, covers_iff hraw]
  simp only [textAt_iff]
  constructor
  · rintro ⟨_, ⟨raw, hraw', rfl⟩, hfenced, hleaf, hname⟩
    rw [hraw] at hraw'
    rw [Option.some.inj hraw']
    exact ⟨hfenced, hleaf, hname⟩
  · rintro ⟨hfenced, hleaf, hname⟩
    exact ⟨_, ⟨p.raw, hraw, rfl⟩, hfenced, hleaf, hname⟩

/-- A line with a directive becomes a place if the directive makes a request. -/
theorem role_eq_accepted {p : Piece} (hp : p ∈ piecesOf source) {request : Request}
    {unknown : List String} : p.role = .accepted request unknown ↔
      ∃ leaf, DirectiveAt source p.line leaf ∧ Directive.requestOf leaf.args = .ok request ∧
        unknown = Directive.unknownKeys leaf.args := by
  obtain ⟨i, hi⟩ := List.mem_iff_getElem?.mp hp
  have hrole := (getElem?_piecesOf.mp hi).2.2
  rw [hrole, FenceState.role_eq_iff, LineRole.ofLine_eq_accepted]
  · simp only [directiveAt_iff hi, ← exists_and_left, and_assoc]
  · nofun

/-- It is rejected if the directive makes none. -/
theorem role_eq_rejected {p : Piece} (hp : p ∈ piecesOf source) {error : ModuleError} :
    p.role = .rejected error ↔
      ∃ leaf, DirectiveAt source p.line leaf ∧ Directive.requestOf leaf.args = .error error := by
  obtain ⟨i, hi⟩ := List.mem_iff_getElem?.mp hp
  have hrole := (getElem?_piecesOf.mp hi).2.2
  rw [hrole, FenceState.role_eq_iff, LineRole.ofLine_eq_rejected]
  · simp only [directiveAt_iff hi, ← exists_and_left, and_assoc]
  · nofun

/-! ## Warnings -/

/-- The line that a warning names. -/
def Warning.line : Warning → Nat
  | .badModule line _ => line
  | .unknownOption line _ => line

/-- The wording of a warning starts with its line. -/
theorem exists_message_eq (w : Warning) :
    ∃ rest, w.message = "line " ++ Nat.repr w.line ++ ": " ++ rest := by
  cases w with
  | badModule line error =>
    cases error with
    | missing =>
      refine ⟨"automodule requires a module name, e.g. ::automodule[pkg.mod]", ?_⟩
      simp only [Warning.message, ModuleError.message, Warning.line, String.append_assoc]
      rfl
    | invalid text =>
      refine ⟨"'" ++ text ++ "' is not a valid module name", ?_⟩
      simp only [Warning.message, ModuleError.message, Warning.line, String.append_assoc]
      rfl
  | unknownOption line key =>
    refine ⟨"unknown automodule option '" ++ key ++ "' ignored", ?_⟩
    simp only [Warning.message, Warning.line, String.append_assoc]
    rfl

theorem line_of_mem_warnings {p : Piece} {w : Warning} (h : w ∈ p.warnings) : w.line = p.line := by
  unfold Piece.warnings at h
  split at h
  · cases h
  · rw [List.mem_singleton.mp h]
    rfl
  · obtain ⟨key, -, rfl⟩ := List.mem_map.mp h
    rfl

/-- The warnings about a line are those of its piece. -/
theorem filter_flatMap_warnings {ps : List Piece} (h : ps.Pairwise fun p q => p.line < q.line)
    {p : Piece} (hp : p ∈ ps) :
    (ps.flatMap Piece.warnings).filter (fun w => w.line = p.line) = p.warnings := by
  -- A piece with another line has no part in it.
  have hother {q : Piece} (hq : q.line ≠ p.line) :
      q.warnings.filter (fun w => w.line = p.line) = [] := by
    refine List.filter_eq_nil_iff.mpr fun w hw => ?_
    rw [line_of_mem_warnings hw, decide_eq_true_iff]
    exact hq
  have hothers {qs : List Piece} (hqs : ∀ q ∈ qs, q.line ≠ p.line) :
      (qs.flatMap Piece.warnings).filter (fun w => w.line = p.line) = [] := by
    rw [List.filter_flatMap]
    exact List.flatMap_eq_nil_iff.mpr fun q hq => hother (hqs q hq)
  -- All warnings of the piece name its line.
  have hown : p.warnings.filter (fun w => w.line = p.line) = p.warnings :=
    List.filter_eq_self.mpr fun w hw => decide_eq_true (line_of_mem_warnings hw)
  induction ps with
  | nil => cases hp
  | cons q ps ih =>
    obtain ⟨hq, hps⟩ := List.pairwise_cons.mp h
    rw [List.flatMap_cons, List.filter_append]
    rcases List.mem_cons.mp hp with rfl | hp
    · rw [hown, hothers fun q hmem => (hq q hmem).ne', List.append_nil]
    · rw [hother (hq p hp).ne, List.nil_append, ih hps hp]

/-- The warnings of a document, line by line. -/
theorem pairwise_warnings (source : String) :
    ((parse source).2.map Warning.line).Pairwise (· ≤ ·) := by
  rw [List.pairwise_map]
  refine List.pairwise_flatMap.mpr ⟨fun p _ => ?_, (pairwise_piecesOf source.toList).imp ?_⟩
  · refine List.pairwise_of_forall_mem_list fun w hw w' hw' => ?_
    rw [line_of_mem_warnings hw, line_of_mem_warnings hw']
  · intro p q hpq w hw w' hw'
    rw [line_of_mem_warnings hw, line_of_mem_warnings hw']
    exact hpq.le

/-! ## Lines that stay -/

/-- A line stands in the Markdown of some blocks, and all in front of it is what the blocks before it
stand for, and the Markdown before it. -/
def KeptAfter (source : List Char) (blocks : List Block) (before raw : List Char) : Prop :=
  ∃ (first : List Block) (value : String) (rest : List Block) (texts : List (List Char))
    (start back : List Char), blocks = first ++ .markdown value :: rest ∧
      List.Forall₂ (Restored source) first texts ∧ value.toList = start ++ (raw ++ back) ∧
      before = texts.flatten ++ start

/-- The line with number `n` of a source stays in the Markdown of a document. -/
def KeptAt (source : List Char) (d : Document) (n : Nat) : Prop :=
  ∃ before raw, LineAfter source before raw ∧ before.count '\n' + 1 = n ∧
    KeptAfter source d.blocks before raw

/-- A line of Markdown is kept where it is put. -/
theorem keptAfter_consMarkdown_self (raw : List Char) (blocks : List Block) :
    KeptAfter source (consMarkdown raw blocks) [] raw := by
  rcases blocks with _ | ⟨value | place, rest⟩
  · exact ⟨[], String.ofList raw, [], [], [], [], rfl, .nil, by simp, rfl⟩
  · exact ⟨[], String.ofList raw ++ value, rest, [], [], value.toList, rfl, .nil, by simp, rfl⟩
  · exact ⟨[], String.ofList raw, _, [], [], [], rfl, .nil, by simp, rfl⟩

/-- It is still there when more Markdown is put in front. -/
theorem KeptAfter.consMarkdown {blocks : List Block} {before raw : List Char}
    (h : KeptAfter source blocks before raw) (more : List Char) :
    KeptAfter source (consMarkdown more blocks) (more ++ before) raw := by
  obtain ⟨first, value, rest, texts, start, back, rfl, hfirst, hvalue, rfl⟩ := h
  cases hfirst with
  | nil =>
    refine ⟨[], String.ofList more ++ value, rest, [], more ++ start, back, rfl, .nil, ?_, rfl⟩
    rw [String.toList_append, String.toList_ofList, hvalue, List.append_assoc]
  | cons hblock hblocks =>
    cases hblock with
    | markdown front =>
      refine ⟨_ :: _, value, rest, _ :: _, start, back, rfl,
        .cons (restored_ofList_append more) hblocks, hvalue, ?_⟩
      simp only [List.flatten_cons, List.append_assoc]
    | autodoc hline =>
      refine ⟨_ :: _ :: _, value, rest, _ :: _ :: _, start, back, rfl,
        .cons (restored_ofList more) (.cons (.autodoc hline) hblocks), hvalue, ?_⟩
      simp only [List.flatten_cons, List.append_assoc]

/-- It is still there behind a place. -/
theorem KeptAfter.consPlace {blocks : List Block} {before raw : List Char}
    (h : KeptAfter source blocks before raw) {place : Pending} {line : List Char}
    (hline : LineAt source place.line line) :
    KeptAfter source (.autodoc place :: blocks) (line ++ before) raw := by
  obtain ⟨first, value, rest, texts, start, back, rfl, hfirst, hvalue, rfl⟩ := h
  exact ⟨_ :: first, value, rest, line :: texts, start, back, rfl, .cons (.autodoc hline) hfirst,
    hvalue, (List.append_assoc ..).symm⟩

/-- A piece that is no place is kept behind the lines in front of it. -/
theorem keptAfter_blocksOfPieces {before : List Piece} {p : Piece} (after : List Piece)
    (h : ∀ q ∈ before, LineAt source q.line q.raw) (hp : p.place? = none) :
    KeptAfter source (blocksOfPieces (before ++ p :: after)) (before.map (·.raw)).flatten p.raw := by
  induction before with
  | nil =>
    rw [List.nil_append, blocksOfPieces]
    cases hrole : p.role with
    | text => exact keptAfter_consMarkdown_self p.raw _
    | rejected error => exact keptAfter_consMarkdown_self p.raw _
    | accepted request unknown => simp [Piece.place?, hrole] at hp
  | cons q before ih =>
    obtain ⟨hq, hbefore⟩ := List.forall_mem_cons.mp h
    have hkept := ih hbefore
    rw [List.cons_append, blocksOfPieces, List.map_cons, List.flatten_cons]
    cases q.role with
    | text => exact hkept.consMarkdown q.raw
    | rejected error => exact hkept.consMarkdown q.raw
    | accepted request unknown => exact hkept.consPlace hq

/-- Lines that become no place stay in the Markdown. -/
theorem keptAt_parse {source : String} {p : Piece} (hp : p ∈ piecesOf source.toList)
    (hplace : p.place? = none) : KeptAt source.toList (parse source).1 p.line := by
  -- The lines in front of this one are those of the pieces in front of this piece.
  obtain ⟨before, after, hsplit⟩ := List.append_of_mem hp
  have hlines : Text.lines source.toList =
      before.map (·.raw) ++ p.raw :: after.map (·.raw) := by
    rw [← map_raw_readPieces (Text.lines source.toList) none 1, ← piecesOf, hsplit, List.map_append,
      List.map_cons]
  obtain ⟨hline, hcount⟩ := Text.lineAfter_of_lines hlines
  have hi : (piecesOf source.toList)[before.length]? = some p := by
    rw [hsplit, List.getElem?_append_right le_rfl, Nat.sub_self, List.getElem?_cons_zero]
  have hnumber := (getElem?_piecesOf.mp hi).2.1
  refine ⟨(before.map (·.raw)).flatten, p.raw, hline, ?_, ?_⟩
  · rw [hcount, List.length_map, hnumber]
  · have hbefore (q : Piece) (hq : q ∈ before) : LineAt source.toList q.line q.raw :=
      lineAt_of_mem_piecesOf (hsplit ▸ List.mem_append_left _ hq)
    have hkept := keptAfter_blocksOfPieces after hbefore hplace
    rwa [← hsplit] at hkept

/-! ## Places and warnings of a document -/

/-- Each line with a directive is read. -/
theorem exists_piece {n : Nat} {leaf : Leaf} (h : DirectiveAt source n leaf) :
    ∃ p ∈ piecesOf source, p.line = n := by
  obtain ⟨_, ⟨raw, ⟨before, hraw, rfl⟩, -⟩, -⟩ := h
  -- The line is one of those that are read, with the fence that is open in front of it.
  have hlines := Text.getElem?_lines_of_lineAfter hraw
  let p : Piece := ⟨raw, before.count '\n' + 1, (openAfter source (before.count '\n')).role raw⟩
  have hp : (piecesOf source)[before.count '\n']? = some p :=
    getElem?_piecesOf.mpr ⟨hlines, rfl, rfl⟩
  exact ⟨p, List.mem_of_getElem? hp, rfl⟩

/-- The warnings about a line, by the role of the line. -/
theorem warnings_of_line {source : String} {p : Piece} (hp : p ∈ piecesOf source.toList) :
    (parse source).2.filter (fun w => w.line = p.line) = p.warnings :=
  filter_flatMap_warnings (pairwise_piecesOf _) hp

/-- The lines of the places are those of the directives that name a module. -/
theorem mem_lines_iff {source : String} {n : Nat} :
    n ∈ (parse source).1.places.map (·.line) ↔
      ∃ leaf, DirectiveAt source.toList n leaf ∧ IsDotted leaf.args.content.toList := by
  rw [places_parse, List.mem_map]
  constructor
  · rintro ⟨place, hplace, rfl⟩
    obtain ⟨p, hp, hplace⟩ := List.mem_filterMap.mp hplace
    obtain ⟨request, unknown, hrole, rfl⟩ := Piece.place?_eq_some.mp hplace
    obtain ⟨leaf, hleaf, hrequest, -⟩ := (role_eq_accepted hp).mp hrole
    exact ⟨leaf, hleaf, Directive.requestOf_isOk_iff.mp ⟨request, hrequest⟩⟩
  · rintro ⟨leaf, hleaf, hdotted⟩
    obtain ⟨p, hp, rfl⟩ := exists_piece hleaf
    obtain ⟨request, hrequest⟩ := Directive.requestOf_isOk_iff.mpr hdotted
    have hrole := (role_eq_accepted hp).mpr ⟨leaf, hleaf, hrequest, rfl⟩
    have hplace := Piece.place?_eq_some.mpr ⟨request, _, hrole, rfl⟩
    exact ⟨_, List.mem_filterMap.mpr ⟨p, hp, hplace⟩, rfl⟩

/-- A directive that names no module is warned about once, and stays as it is. -/
theorem kept_of_not_dotted {source : String} {n : Nat} {leaf : Leaf}
    (h : DirectiveAt source.toList n leaf) (hdotted : ¬ IsDotted leaf.args.content.toList) :
    (parse source).2.filter (fun w => w.line = n) =
        [.badModule n (moduleError leaf.args.content)] ∧
      KeptAt source.toList (parse source).1 n := by
  obtain ⟨p, hp, rfl⟩ := exists_piece h
  have hrequest := Directive.requestOf_eq_error.mpr ⟨hdotted, rfl⟩
  have hrole := (role_eq_rejected hp).mpr ⟨leaf, h, hrequest⟩
  refine ⟨?_, keptAt_parse hp ?_⟩
  · rw [warnings_of_line hp, Piece.warnings, hrole]
  · rw [Piece.place?, hrole]

/-- A directive that names a module is warned about once for each key that is no option. -/
theorem warnings_of_dotted {source : String} {n : Nat} {leaf : Leaf}
    (h : DirectiveAt source.toList n leaf) (hdotted : IsDotted leaf.args.content.toList) :
    (parse source).2.filter (fun w => w.line = n) =
      (Directive.unknownKeys leaf.args).map (.unknownOption n) := by
  obtain ⟨p, hp, rfl⟩ := exists_piece h
  obtain ⟨request, hrequest⟩ := Directive.requestOf_isOk_iff.mpr hdotted
  have hrole := (role_eq_accepted hp).mpr ⟨leaf, h, hrequest, rfl⟩
  rw [warnings_of_line hp, Piece.warnings, hrole]

/-- Only directives are warned about. -/
theorem directiveAt_of_mem_warnings {source : String} {w : Warning} (h : w ∈ (parse source).2) :
    ∃ leaf, DirectiveAt source.toList w.line leaf := by
  obtain ⟨p, hp, hw⟩ := List.mem_flatMap.mp h
  rw [line_of_mem_warnings hw]
  unfold Piece.warnings at hw
  cases hrole : p.role with
  | text => simp [hrole] at hw
  | rejected error =>
    obtain ⟨leaf, hleaf, -⟩ := (role_eq_rejected hp).mp hrole
    exact ⟨leaf, hleaf⟩
  | accepted request unknown =>
    obtain ⟨leaf, hleaf, -⟩ := (role_eq_accepted hp).mp hrole
    exact ⟨leaf, hleaf⟩

/-- **Every directive is accounted for.** Outside of fenced blocks, a directive `automodule` becomes a
place exactly if its content is the dotted path of a module. If it is not, there is one warning about
the line, and the line stays in the Markdown; if it is, there is one warning for each attribute that no
option has as its name, in ascending order. Nothing else is warned about, and the warnings name their
lines, in ascending order. -/
theorem accounted_parse (source : String) :
    (∀ n, n ∈ (parse source).1.places.map (·.line) ↔
      ∃ leaf, DirectiveAt source.toList n leaf ∧ IsDotted leaf.args.content.toList) ∧
    (∀ n leaf, DirectiveAt source.toList n leaf → ¬ IsDotted leaf.args.content.toList →
      (parse source).2.filter (fun w => w.line = n) =
          [.badModule n (moduleError leaf.args.content)] ∧
        KeptAt source.toList (parse source).1 n) ∧
    (∀ n leaf, DirectiveAt source.toList n leaf → IsDotted leaf.args.content.toList →
      ∃ keys : List String, keys.Pairwise (· < ·) ∧
        (∀ key, key ∈ keys ↔ (leaf.args.get? key).isSome ∧ ∀ o : AutodocOption, o.name ≠ key) ∧
        (parse source).2.filter (fun w => w.line = n) = keys.map (.unknownOption n)) ∧
    (∀ w ∈ (parse source).2, (∃ leaf, DirectiveAt source.toList w.line leaf) ∧
      ∃ rest, w.message = "line " ++ Nat.repr w.line ++ ": " ++ rest) ∧
    ((parse source).2.map Warning.line).Pairwise (· ≤ ·) := by
  refine ⟨fun n => mem_lines_iff, fun n leaf h hdotted => kept_of_not_dotted h hdotted, ?_,
    fun w hw => ⟨directiveAt_of_mem_warnings hw, exists_message_eq w⟩, pairwise_warnings source⟩
  intro n leaf h hdotted
  have ⟨_, _, _, hparse, _⟩ := h
  exact ⟨_, Directive.pairwise_unknownKeys (Directive.ascending_of_parse hparse),
    fun key => Directive.mem_unknownKeys, warnings_of_dotted h hdotted⟩

/-- A page with a directive in a fenced block, one that names no module, and one with two attributes
that are no options. -/
def samplePage : String :=
  "~~~\n::automodule[a]\n~~~\n::automodule[1]\n::automodule[b.c]\x7bx=1 members y\x7d\n"

theorem accounted_parse_samplePage :
    (parse samplePage).1.places.map (·.line) = [5] ∧
      (parse samplePage).2 =
        [.badModule 4 (.invalid "1"), .unknownOption 5 "x", .unknownOption 5 "y"] ∧
      KeptAt samplePage.toList (parse samplePage).1 4 := by
  obtain ⟨-, hrejected, haccepted, hwarnings, -⟩ := accounted_parse samplePage
  refine ⟨by decide +kernel, by decide +kernel, ?_⟩
  have hwarned : (parse samplePage).2.filter (fun w => w.line = 4) =
      [.badModule 4 (.invalid "1")] := by decide +kernel
  obtain ⟨⟨leaf, hleaf⟩, -⟩ := hwarnings (.badModule 4 (.invalid "1")) (by decide +kernel)
  by_cases hdotted : IsDotted leaf.args.content.toList
  · -- Then every warning about the line would be about an attribute.
    obtain ⟨keys, -, -, hkeys⟩ := haccepted 4 leaf hleaf hdotted
    have hmem : Warning.badModule 4 (.invalid "1") ∈ keys.map (Warning.unknownOption 4) := by
      rw [← hkeys, hwarned]
      exact List.mem_singleton_self _
    obtain ⟨key, -, heq⟩ := List.mem_map.mp hmem
    cases heq
  · exact (hrejected 4 leaf hleaf hdotted).2

end DocWeave.Page

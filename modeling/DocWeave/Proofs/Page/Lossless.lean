import DocWeave.Proofs.Page.Places
import DocWeave.Proofs.Text.Lines

/-!
# Nothing of a source is lost

A document has all lines of its source: those of the directives that became places, and the others as
they are. Each place remembers the number of its line, so the source can be put together again.

- `getElem?_readPieces`: what is read from a line depends on the fence that is open before it.
- `LineRole.ofLine_eq_accepted`, `LineRole.ofLine_eq_rejected`: the roles of a line.
- `Restored`: what a block stands for in the source.
- `exists_restored`: the blocks of some lines stand for these lines.
- `lossless_parse`: the blocks of a document stand for the source.
-/

namespace DocWeave.Page

open Directive (Leaf ModuleError)
open Text (LineAt)

variable {source : List Char}

/-! ## Pieces -/

/-- The fence that is open after some lines of a source. -/
def FenceState.after (state : FenceState) (ls : List (List Char)) : FenceState :=
  ls.foldl (fun s raw => s.next (Text.dropLineEnd raw)) state

/-- The role of a line of a source, by the fence that is open before it. -/
def FenceState.role (state : FenceState) (raw : List Char) : LineRole :=
  if state.covers (Text.dropLineEnd raw) then .text else .ofLine (Text.dropLineEnd raw)

/-- The fence that is open after the first `n` lines of a source. -/
def openAfter (source : List Char) (n : Nat) : FenceState :=
  FenceState.after none ((Text.lines source).take n)

/-- The pieces of a source. -/
def piecesOf (source : List Char) : List Piece :=
  readPieces none 1 (Text.lines source)

theorem map_raw_readPieces : ∀ (ls : List (List Char)) (state : FenceState) (n : Nat),
    (readPieces state n ls).map (·.raw) = ls
  | [], _, _ => rfl
  | raw :: ls, _, n => congrArg (List.cons raw) (map_raw_readPieces ls _ (n + 1))

theorem map_line_readPieces : ∀ (ls : List (List Char)) (state : FenceState) (n : Nat),
    (readPieces state n ls).map (·.line) = List.range' n ls.length
  | [], _, _ => rfl
  | _ :: ls, _, n => congrArg (List.cons n) (map_line_readPieces ls _ (n + 1))

/-- Each line becomes a piece with its number, by the fence that the lines before it leave open. -/
theorem getElem?_readPieces (ls : List (List Char)) (state : FenceState) (n i : Nat) :
    (readPieces state n ls)[i]? =
      ls[i]?.map fun raw => ⟨raw, n + i, (state.after (ls.take i)).role raw⟩ := by
  induction ls generalizing state n i with
  | nil => rfl
  | cons raw ls ih =>
    cases i with
    | zero => rfl
    | succ i =>
      have hnumber : n + (i + 1) = n + 1 + i := by omega
      rw [readPieces, List.getElem?_cons_succ, List.getElem?_cons_succ, ih, hnumber]
      rfl

theorem getElem?_piecesOf {i : Nat} {p : Piece} :
    (piecesOf source)[i]? = some p ↔
      (Text.lines source)[i]? = some p.raw ∧ p.line = i + 1 ∧
        p.role = (openAfter source i).role p.raw := by
  rw [piecesOf, getElem?_readPieces, Option.map_eq_some_iff, Nat.add_comm 1 i, ← openAfter]
  constructor
  · rintro ⟨raw, hraw, rfl⟩
    exact ⟨hraw, rfl, rfl⟩
  · rintro ⟨hraw, hline, hrole⟩
    exact ⟨p.raw, hraw, by rw [← hline, ← hrole]⟩

/-- The line that a piece has is the line of the source with its number. -/
theorem lineAt_of_mem_piecesOf {p : Piece} (h : p ∈ piecesOf source) : LineAt source p.line p.raw := by
  obtain ⟨i, hi⟩ := List.mem_iff_getElem?.mp h
  obtain ⟨hraw, hline, -⟩ := getElem?_piecesOf.mp hi
  rw [hline]
  exact Text.lineAt_iff.mpr hraw

/-! ## Roles -/

/-- Line ends do not matter for directives. -/
theorem parse_dropLineEnd (raw : List Char) : Leaf.parse (Text.dropLineEnd raw) = Leaf.parse raw := by
  unfold Leaf.parse
  rw [Text.trim_dropLineEnd]

/-- A line is accepted if its directive makes a request. -/
theorem LineRole.ofLine_eq_accepted {text : List Char} {request : Request} {unknown : List String} :
    LineRole.ofLine text = .accepted request unknown ↔
      ∃ leaf, Leaf.parse text = some leaf ∧ leaf.name = Directive.automodule ∧
        Directive.requestOf leaf.args = .ok request ∧ unknown = Directive.unknownKeys leaf.args := by
  unfold LineRole.ofLine
  cases Leaf.parse text with
  | none => exact ⟨nofun, nofun⟩
  | some leaf =>
    by_cases hname : leaf.name = Directive.automodule
    · cases hrequest : Directive.requestOf leaf.args <;> simp [hname, hrequest, eq_comm]
    · simp [hname]

theorem LineRole.ofLine_eq_rejected {text : List Char} {error : ModuleError} :
    LineRole.ofLine text = .rejected error ↔
      ∃ leaf, Leaf.parse text = some leaf ∧ leaf.name = Directive.automodule ∧
        Directive.requestOf leaf.args = .error error := by
  unfold LineRole.ofLine
  cases Leaf.parse text with
  | none => exact ⟨nofun, nofun⟩
  | some leaf =>
    by_cases hname : leaf.name = Directive.automodule
    · cases hrequest : Directive.requestOf leaf.args <;> simp [hname, hrequest]
    · simp [hname]

/-- A line that is no part of a fenced block has the role of its text. -/
theorem FenceState.role_eq_iff {state : FenceState} {raw : List Char} {role : LineRole}
    (h : role ≠ .text) : state.role raw = role ↔
      state.covers (Text.dropLineEnd raw) = false ∧ .ofLine (Text.dropLineEnd raw) = role := by
  unfold FenceState.role
  by_cases hcovers : state.covers (Text.dropLineEnd raw) = true
  · rw [if_pos hcovers, hcovers]
    exact ⟨fun heq => absurd heq.symm h, nofun⟩
  · rw [if_neg hcovers, Bool.eq_false_iff.mpr hcovers]
    exact (and_iff_right rfl).symm

/-! ## Places of pieces -/

/-- The place that a piece becomes, if it is a directive. -/
def Piece.place? (p : Piece) : Option Pending :=
  match p.role with
  | .accepted request _ => some ⟨request, p.line, []⟩
  | .text | .rejected _ => none

theorem Piece.place?_eq_some {p : Piece} {place : Pending} :
    p.place? = some place ↔
      ∃ request unknown, p.role = .accepted request unknown ∧ place = ⟨request, p.line, []⟩ := by
  unfold Piece.place?
  split <;> simp [*, eq_comm]

theorem filterMap_place?_consMarkdown (raw : List Char) (blocks : List Block) :
    (consMarkdown raw blocks).filterMap Block.place? = blocks.filterMap Block.place? := by
  rcases blocks with _ | ⟨_ | _, _⟩ <;> rfl

/-- The places of the blocks are those of the pieces. -/
theorem places_blocksOfPieces (ps : List Piece) :
    (blocksOfPieces ps).filterMap Block.place? = ps.filterMap Piece.place? := by
  induction ps with
  | nil => rfl
  | cons p ps ih =>
    rw [List.filterMap_cons, ← ih, blocksOfPieces, Piece.place?]
    cases p.role with
    | text => exact filterMap_place?_consMarkdown p.raw _
    | rejected error => exact filterMap_place?_consMarkdown p.raw _
    | accepted request unknown => rfl

/-- The places of a document are those of its pieces. -/
theorem places_parse (source : String) :
    (parse source).1.places = (piecesOf source.toList).filterMap Piece.place? :=
  places_blocksOfPieces _

/-- Later pieces have later lines. -/
theorem pairwise_piecesOf (source : List Char) :
    (piecesOf source).Pairwise fun p q => p.line < q.line := by
  rw [← List.pairwise_map, piecesOf, map_line_readPieces]
  exact List.pairwise_lt_range'

/-- Later places have later lines. -/
theorem lines_ascending (source : String) :
    ((parse source).1.places.map (·.line)).Pairwise (· < ·) := by
  rw [places_parse, List.pairwise_map]
  refine (pairwise_piecesOf source.toList).filterMap _ fun p q hpq a ha b hb => ?_
  obtain ⟨_, _, -, rfl⟩ := Piece.place?_eq_some.mp ha
  obtain ⟨_, _, -, rfl⟩ := Piece.place?_eq_some.mp hb
  exact hpq

/-- A place is what the directive on its line asks for. -/
theorem exists_leaf_of_mem_places {source : String} {place : Pending}
    (h : place ∈ (parse source).1.places) :
    place.children = [] ∧ ∃ raw leaf, LineAt source.toList place.line raw ∧
      Leaf.parse (Text.dropLineEnd raw) = some leaf ∧ leaf.name = Directive.automodule ∧
      Directive.requestOf leaf.args = .ok place.request := by
  rw [places_parse] at h
  obtain ⟨p, hp, hplace⟩ := List.mem_filterMap.mp h
  obtain ⟨request, unknown, hrole, rfl⟩ := Piece.place?_eq_some.mp hplace
  obtain ⟨i, hi⟩ := List.mem_iff_getElem?.mp hp
  -- The role tells that the line is outside of code, and what its directive makes.
  have hread := (getElem?_piecesOf.mp hi).2.2.symm.trans hrole
  obtain ⟨-, htext⟩ := (FenceState.role_eq_iff (by nofun)).mp hread
  obtain ⟨leaf, hleaf, hname, hrequest, -⟩ := LineRole.ofLine_eq_accepted.mp htext
  exact ⟨rfl, p.raw, leaf, lineAt_of_mem_piecesOf hp, hleaf, hname, hrequest⟩

/-! ## What blocks stand for -/

/-- What a block stands for in a source: Markdown for itself, a place for the line that it
remembers. -/
inductive Restored (source : List Char) : Block → List Char → Prop where
  | markdown (value : String) : Restored source (.markdown value) value.toList
  | autodoc {place : Pending} {raw : List Char} (h : LineAt source place.line raw) :
    Restored source (.autodoc place) raw

theorem restored_ofList_append {value : String} (raw : List Char) :
    Restored source (.markdown (String.ofList raw ++ value)) (raw ++ value.toList) := by
  have := @Restored.markdown source (String.ofList raw ++ value)
  rwa [String.toList_append, String.toList_ofList] at this

theorem restored_ofList (raw : List Char) :
    Restored source (.markdown (String.ofList raw)) raw := by
  have := @Restored.markdown source (String.ofList raw)
  rwa [String.toList_ofList] at this

/-- Markdown in front of blocks stands in front of what they stand for. -/
theorem exists_restored_consMarkdown (raw : List Char) {blocks : List Block}
    {texts : List (List Char)} (h : List.Forall₂ (Restored source) blocks texts) :
    ∃ texts', List.Forall₂ (Restored source) (consMarkdown raw blocks) texts' ∧
      texts'.flatten = raw ++ texts.flatten := by
  cases h with
  | nil => exact ⟨[raw], .cons (restored_ofList raw) .nil, rfl⟩
  | cons hfirst hrest =>
    -- The text is joined with Markdown behind it, and stands alone in front of a place.
    cases hfirst with
    | markdown value =>
      refine ⟨_, .cons (restored_ofList_append raw) hrest, ?_⟩
      rw [List.flatten_cons, List.flatten_cons, List.append_assoc]
    | autodoc hline =>
      exact ⟨_, .cons (restored_ofList raw) (.cons (.autodoc hline) hrest), rfl⟩

/-- The blocks of some lines of a source stand for these lines. -/
theorem exists_restored {ps : List Piece} (h : ∀ p ∈ ps, LineAt source p.line p.raw) :
    ∃ texts, List.Forall₂ (Restored source) (blocksOfPieces ps) texts ∧
      texts.flatten = (ps.map (·.raw)).flatten := by
  -- Line by line from the last one, as the blocks are put together.
  induction ps with
  | nil => exact ⟨[], .nil, rfl⟩
  | cons p ps ih =>
    obtain ⟨hp, hps⟩ := List.forall_mem_cons.mp h
    obtain ⟨texts, htexts, hjoin⟩ := ih hps
    rw [List.map_cons, List.flatten_cons, ← hjoin, blocksOfPieces]
    cases p.role with
    | text => exact exists_restored_consMarkdown p.raw htexts
    | rejected error => exact exists_restored_consMarkdown p.raw htexts
    | accepted request unknown => exact ⟨p.raw :: texts, .cons (.autodoc hp) htexts, rfl⟩

/-- Each block of Markdown is among what the blocks stand for. -/
theorem mem_of_restored {source : List Char} {blocks : List Block} {texts : List (List Char)}
    (h : List.Forall₂ (Restored source) blocks texts) {value : String}
    (hvalue : .markdown value ∈ blocks) : value.toList ∈ texts := by
  induction h with
  | nil => cases hvalue
  | cons hfirst _ ih =>
    rcases List.mem_cons.mp hvalue with rfl | hvalue
    · cases hfirst
      exact List.mem_cons_self
    · exact List.mem_cons_of_mem _ (ih hvalue)

/-- The Markdown of a document stands in its source. -/
theorem infix_of_markdown {source value : String} (h : .markdown value ∈ (parse source).1.blocks) :
    value.toList <:+: source.toList := by
  have hline (p : Piece) (hp : p ∈ piecesOf source.toList) : LineAt source.toList p.line p.raw :=
    lineAt_of_mem_piecesOf hp
  obtain ⟨texts, htexts, hjoin⟩ := exists_restored hline
  rw [piecesOf, map_raw_readPieces, Text.flatten_lines] at hjoin
  rw [← hjoin]
  exact List.infix_of_mem_flatten (mem_of_restored htexts h)

/-- A line that is put in front of blocks starts a block of Markdown; the others stay. -/
theorem of_mem_consMarkdown {raw : List Char} {blocks : List Block} {value : String}
    (h : .markdown value ∈ consMarkdown raw blocks) :
    (∃ more : String, value = String.ofList raw ++ more) ∨ .markdown value ∈ blocks := by
  have hraw : String.ofList raw = String.ofList raw ++ "" := String.append_empty.symm
  rcases blocks with _ | ⟨first | place, rest⟩
  · exact Or.inl ⟨"", (Block.markdown.inj (List.mem_singleton.mp h)).trans hraw⟩
  · rcases List.mem_cons.mp h with heq | hmem
    · exact Or.inl ⟨first, Block.markdown.inj heq⟩
    · exact Or.inr (List.mem_cons_of_mem _ hmem)
  · rcases List.mem_cons.mp h with heq | hmem
    · exact Or.inl ⟨"", (Block.markdown.inj heq).trans hraw⟩
    · exact Or.inr hmem

/-- There is something in each block of Markdown. -/
theorem markdown_ne_empty {ps : List Piece} (h : ∀ p ∈ ps, p.raw ≠ []) :
    ∀ value, .markdown value ∈ blocksOfPieces ps → value ≠ "" := by
  induction ps with
  | nil => nofun
  | cons p ps ih =>
    obtain ⟨hp, hps⟩ := List.forall_mem_cons.mp h
    -- A block that starts with the line holds the line, and any other one has been there before.
    have hmarkdown (value : String) (hmem : .markdown value ∈ consMarkdown p.raw (blocksOfPieces ps)) :
        value ≠ "" := by
      rcases of_mem_consMarkdown hmem with ⟨more, rfl⟩ | hmem
      · intro hempty
        have hraw := congrArg String.toList (String.append_eq_empty_iff.mp hempty).1
        rw [String.toList_ofList] at hraw
        exact hp hraw
      · exact ih hps value hmem
    intro value hmem
    rw [blocksOfPieces] at hmem
    cases hrole : p.role with
    | text => exact hmarkdown value (by simpa [hrole] using hmem)
    | rejected error => exact hmarkdown value (by simpa [hrole] using hmem)
    | accepted request unknown => exact ih hps value (by simpa [hrole] using hmem)

/-! ## The source of a document -/

/-- **A document is its source, cut into blocks.** If each place is replaced by the line with the
number that it has, the blocks joined are the source. The numbers of the places ascend; no block of
Markdown is empty or stands next to another one; the line of each place holds a directive which asks
for just what the place asks for. -/
theorem lossless_parse (source : String) :
    (∃ texts, List.Forall₂ (Restored source.toList) (parse source).1.blocks texts ∧
      texts.flatten = source.toList) ∧
    ((parse source).1.places.map (·.line)).Pairwise (· < ·) ∧
    (∀ value, .markdown value ∈ (parse source).1.blocks → value ≠ "") ∧
    (parse source).1.blocks.IsChain Block.Apart ∧
    ∀ place ∈ (parse source).1.places, place.children = [] ∧
      ∃ raw leaf, LineAt source.toList place.line raw ∧ Leaf.parse raw = some leaf ∧
        leaf.name = "automodule" ∧ Directive.requestOf leaf.args = .ok place.request := by
  have hline (p : Piece) (hp : p ∈ piecesOf source.toList) : LineAt source.toList p.line p.raw :=
    lineAt_of_mem_piecesOf hp
  refine ⟨?_, lines_ascending source, ?_, isChain_blocksOfPieces _, ?_⟩
  · obtain ⟨texts, htexts, hjoin⟩ := exists_restored hline
    refine ⟨texts, htexts, ?_⟩
    rw [hjoin, piecesOf, map_raw_readPieces, Text.flatten_lines]
  · refine markdown_ne_empty fun p hp => ?_
    obtain ⟨_, h, -⟩ := hline p hp
    exact h.nonempty
  · intro place hplace
    obtain ⟨hchildren, raw, leaf, hraw, hleaf, hname, hrequest⟩ := exists_leaf_of_mem_places hplace
    rw [parse_dropLineEnd] at hleaf
    exact ⟨hchildren, raw, leaf, hraw, hleaf, hname, hrequest⟩

theorem lossless_parse_crlf :
    let source := "a\r\n::automodule[p]\r\nb"
    ∃ place ∈ (parse source).1.places, place.line = 2 ∧ place.children = [] ∧
      ∃ raw leaf, LineAt source.toList 2 raw ∧ Leaf.parse raw = some leaf ∧
        Directive.requestOf leaf.args = .ok place.request := by
  intro source
  have hlines : (parse source).1.places.map (·.line) = [2] := by decide +kernel
  have hmem : 2 ∈ (parse source).1.places.map (·.line) := by
    rw [hlines]
    exact List.mem_singleton_self 2
  obtain ⟨place, hplace, hline⟩ := List.mem_map.mp hmem
  obtain ⟨-, -, -, -, hplaces⟩ := lossless_parse source
  obtain ⟨hchildren, raw, leaf, hraw, hleaf, -, hrequest⟩ := hplaces place hplace
  rw [hline] at hraw
  exact ⟨place, hplace, hline, hchildren, raw, leaf, hraw, hleaf, hrequest⟩

end DocWeave.Page

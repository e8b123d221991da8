import DocWeave.Page.Document
import Mathlib.Data.List.Chain

/-!
# Places of a document

Only the places of a document change once it has been read; the Markdown between them stays. It
stands in one block between two places, since the lines of the source are joined.

- `Document.bare`: a document without documentation in its places; `bare_parse`: it is so when it is
  read.
- `places_mapPlaces`, `mapPlaces_eq_iff`: changing places.
- `Apart`, `isChain_apart`: there are no two blocks of Markdown next to each other.
-/

namespace DocWeave.Page

/-- A block without the documentation that it may hold. -/
def Block.bare (block : Block) : Block :=
  block.mapPlace fun place => { place with children := [] }

/-- A document without documentation in its places. -/
def Document.bare (d : Document) : Document :=
  d.mapPlaces fun place => { place with children := [] }

/-- Markdown holds no documentation, so putting it in front adds none. -/
theorem bare_consMarkdown (raw : List Char) :
    ∀ blocks, (consMarkdown raw blocks).map Block.bare = consMarkdown raw (blocks.map Block.bare)
  | [] => rfl
  | .markdown _ :: _ => rfl
  | .autodoc _ :: _ => rfl

theorem bare_blocksOfPieces : ∀ ps, (blocksOfPieces ps).map Block.bare = blocksOfPieces ps
  | [] => rfl
  | p :: ps => by
    unfold blocksOfPieces
    split
    · rw [List.map_cons, bare_blocksOfPieces ps]
      rfl
    · rw [bare_consMarkdown, bare_blocksOfPieces ps]
    · rw [bare_consMarkdown, bare_blocksOfPieces ps]

/-- A document that has just been read holds no documentation. -/
theorem bare_parse (source : String) : (parse source).1.bare = (parse source).1 :=
  congrArg Document.mk (bare_blocksOfPieces _)

/-- The places after a change are the changed ones. -/
theorem places_mapPlaces (f : Pending → Pending) (d : Document) :
    (d.mapPlaces f).places = d.places.map f := by
  unfold Document.places Document.mapPlaces
  rw [List.filterMap_map, List.map_filterMap]
  refine List.filterMap_congr fun block _ => ?_
  cases block <;> rfl

theorem mem_places_mapPlaces (f : Pending → Pending) {d : Document} {place : Pending}
    (h : place ∈ d.places) : f place ∈ (d.mapPlaces f).places := by
  rw [places_mapPlaces]
  exact List.mem_map_of_mem h

theorem mapPlaces_mapPlaces (f g : Pending → Pending) (d : Document) :
    (d.mapPlaces f).mapPlaces g = d.mapPlaces (g ∘ f) := by
  unfold Document.mapPlaces
  rw [List.map_map]
  congr 2
  funext block
  cases block <;> rfl

/-- Changing the places has the same effect exactly if it has on each of them. -/
theorem mapPlaces_eq_iff {f g : Pending → Pending} {d : Document} :
    d.mapPlaces f = d.mapPlaces g ↔ ∀ place ∈ d.places, f place = g place := by
  constructor
  · intro h place hplace
    have hmap : d.places.map f = d.places.map g := by
      rw [← places_mapPlaces, ← places_mapPlaces, h]
    exact List.map_inj_left.mp hmap place hplace
  · intro h
    refine congrArg Document.mk (List.map_congr_left fun block hblock => ?_)
    cases block with
    | markdown value => rfl
    | autodoc place => exact congrArg Block.autodoc (h place (List.mem_filterMap.mpr ⟨_, hblock, rfl⟩))

/-- Changing the places by a function that leaves each of them as it is. -/
theorem mapPlaces_eq_self {f : Pending → Pending} {d : Document}
    (h : ∀ place ∈ d.places, f place = place) : d.mapPlaces f = d := by
  have hid : d.mapPlaces id = d := by
    refine congrArg Document.mk ((List.map_congr_left fun block _ => ?_).trans (List.map_id _))
    cases block <;> rfl
  exact (mapPlaces_eq_iff.mpr h).trans hid

/-- What is asked for does not depend on what places hold. -/
theorem requests_mapPlaces {f : Pending → Pending} {d : Document}
    (h : ∀ place ∈ d.places, (f place).request = place.request) :
    (d.mapPlaces f).places.map (·.request) = d.places.map (·.request) := by
  rw [places_mapPlaces, List.map_map]
  exact List.map_congr_left h

/-! ## Markdown between places -/

/-- Of two blocks, at most one is Markdown. -/
def Block.Apart (a b : Block) : Prop :=
  a.markdown? = none ∨ b.markdown? = none

/-- Taking documentation away leaves Markdown as it is. -/
theorem markdown?_bare (block : Block) : block.bare.markdown? = block.markdown? := by
  cases block <;> rfl

/-- Markdown in front of blocks joins Markdown at their start, so it stands next to none. -/
theorem isChain_consMarkdown (raw : List Char) {blocks : List Block} (h : blocks.IsChain Block.Apart) :
    (consMarkdown raw blocks).IsChain Block.Apart := by
  rcases blocks with _ | ⟨value | place, rest⟩
  · exact .singleton _
  · rcases rest with _ | ⟨next, rest⟩
    · exact .singleton _
    · obtain ⟨hnext, hrest⟩ := List.isChain_cons_cons.mp h
      exact List.isChain_cons_cons.mpr ⟨Or.inr (hnext.resolve_left nofun), hrest⟩
  · exact List.isChain_cons_cons.mpr ⟨Or.inr rfl, h⟩

/-- In what is read from lines, no two blocks of Markdown stand next to each other. -/
theorem isChain_blocksOfPieces : ∀ ps, (blocksOfPieces ps).IsChain Block.Apart
  | [] => .nil
  | p :: ps => by
    have hps := isChain_blocksOfPieces ps
    unfold blocksOfPieces
    -- A place stands apart from what follows; a line of Markdown joins the block behind it.
    split
    · rcases hblocks : blocksOfPieces ps with _ | ⟨next, rest⟩
      · exact .singleton _
      · rw [hblocks] at hps
        exact List.isChain_cons_cons.mpr ⟨Or.inl rfl, hps⟩
    · exact isChain_consMarkdown p.raw hps
    · exact isChain_consMarkdown p.raw hps

/-- In a document that has been read, and perhaps filled, no two blocks of Markdown stand next to
each other. -/
theorem isChain_apart {source : String} {d : Document} (hd : d.bare = (parse source).1) :
    d.blocks.IsChain Block.Apart := by
  -- Filling changes no block of Markdown, so it is enough to look at the bare document.
  have hbare : d.bare.blocks.IsChain Block.Apart := by
    rw [hd]
    exact isChain_blocksOfPieces _
  refine List.isChain_of_isChain_map Block.bare (fun a b hab => ?_) hbare
  rwa [Block.Apart, markdown?_bare, markdown?_bare] at hab

end DocWeave.Page

import DocWeave.Proofs.Page.Places
import DocWeave.Proofs.Sphinx.Effect

/-!
# Building a document again

A place keeps what an earlier build gave it until a later build finds its module again. So what a
document holds after a build may depend on the builds before it, and this is the only way in which
it does.

- `buildAll`, `documentAfter`: builds one after the other.
- `Unfound`: no build so far has found a module; `empty_iff_unfound`: then its places are empty.
- `document_eq_fresh_iff`: when a document after many builds is the one after the last of them
  alone.
- `stale_place`: a place that keeps the descriptions of a build before the last one.
-/

namespace DocWeave.Sphinx.Builder

open Description Page
open Xml (Element)

/-! ## Builds one after the other -/

/-- Builds of a document one after the other. Each has its own builder and its own files. -/
def buildAll (d : Document) : List (Builder × Store) → List Built
  | [] => []
  | (b, s) :: rest => b.build d s :: buildAll (b.build d s).document rest

/-- The document after some builds. -/
def documentAfter (d : Document) : List (Builder × Store) → Document
  | [] => d
  | (b, s) :: rest => documentAfter (b.build d s).document rest

/-- None of some builds has found a module: those that succeeded report it as missing. -/
def Unfound (builds : List Built) (name : String) : Prop :=
  ∀ built ∈ builds, ∀ report, built.result = .ok report → name ∈ report.missing

theorem unfound_cons {built : Built} {builds : List Built} {name : String} :
    Unfound (built :: builds) name ↔ Unfound [built] name ∧ Unfound builds name := by
  simp [Unfound]

/-- What some builds do to a place: it is empty afterwards exactly if it was so before and none of
them has found its module. -/
structure PlaceKept (builds : List Built) (before after : Pending) : Prop where
  request : after.request = before.request
  line : after.line = before.line
  children : after.children = [] ↔ before.children = [] ∧ Unfound builds before.request.moduleName

/-- What some builds do to a document. -/
def Kept (builds : List Built) (before after : Document) : Prop :=
  ∃ change : Pending → Pending, after = before.mapPlaces change ∧
    ∀ place ∈ before.places, PlaceKept builds place (change place)

variable {b b' : Builder} {d d' : Document} {s s' s₁ : Store} {w : Workdir} {root : Element}
  {t : Findings}

/-- A document that is not changed is kept by builds that find nothing. -/
theorem kept_self {builds : List Built}
    (h : ∀ place ∈ d.places, Unfound builds place.request.moduleName) : Kept builds d d :=
  ⟨id, (mapPlaces_eq_self fun _ _ => rfl).symm, fun place hplace =>
    ⟨rfl, rfl, (and_iff_left (h place hplace)).symm⟩⟩

/-- What filling does to a place. -/
theorem fillPlace_cases (hindex : Findings.ofIndex (indexOf root) (requestedModules d) = .ok t)
    {place : Pending} (hrequest : Requests d place.request.moduleName) :
    (describing root place.request.moduleName = [] ∧ fillPlace t place = place) ∨
      ∃ nodes, describing root place.request.moduleName ≠ [] ∧
        fillPlace t place = { place with children := nodes } ∧
        List.Forall₂ IsBlockOf (describing root place.request.moduleName) nodes := by
  unfold fillPlace
  rcases get?_findings hindex hrequest with ⟨hnone, hget⟩ | ⟨nodes, hsome, hget, hblocks⟩
  · rw [hget]
    exact Or.inl ⟨hnone, rfl⟩
  · rw [hget]
    exact Or.inr ⟨nodes, hsome, rfl, hblocks⟩

/-- One build. -/
theorem kept_build (b : Builder) (d : Document) (s : Store) :
    Kept [b.build d s] d (b.build d s).document := by
  rcases build_cases b d s with ⟨e, hfail⟩ | hplaces | ⟨w, root, s', t, hparsed, hindex⟩
  · -- A build that fails leaves the document as it is, and reports no module.
    obtain ⟨hresult, hdocument⟩ := result_of_firstFailure hfail
    rw [hdocument]
    refine kept_self fun place _ built hbuilt report hok => ?_
    rw [List.mem_singleton.mp hbuilt, hresult] at hok
    cases hok
  · rw [build_of_no_places hplaces]
    refine kept_self fun place hplace => ?_
    rw [hplaces] at hplace
    cases hplace
  · have hbuild := build_of_parsed hparsed hindex
    have hunfound (name : String) : Unfound [b.build d s] name ↔ name ∈ t.missing := by
      simp only [Unfound, List.mem_singleton, forall_eq, hbuild, Except.ok.injEq, forall_eq']
      rfl
    refine ⟨fillPlace t, by rw [hbuild]; rfl, fun place hplace => ?_⟩
    have hrequest : Requests d place.request.moduleName := ⟨place, hplace, rfl⟩
    rcases fillPlace_cases hindex hrequest with ⟨hnone, hfill⟩ | ⟨nodes, hsome, hfill, hblocks⟩
    · rw [hfill]
      refine ⟨rfl, rfl, (and_iff_left ?_).symm⟩
      exact (hunfound _).mpr ((mem_missing hindex).mpr ⟨hrequest, hnone⟩)
    · -- A module that is found has descriptions, so its place is not empty afterwards.
      rw [hfill]
      refine ⟨rfl, rfl, ⟨fun hnodes => ?_, fun h => ?_⟩⟩
      · obtain rfl : nodes = [] := hnodes
        exact absurd (List.forall₂_nil_right_iff.mp hblocks) hsome
      · exact absurd ((mem_missing hindex).mp ((hunfound _).mp h.2)).2 hsome

/-- Builds one after the other. -/
theorem Kept.cons {built : Built} {builds : List Built} {middle : Document}
    (h₁ : Kept [built] d middle) (h₂ : Kept builds middle d') : Kept (built :: builds) d d' := by
  obtain ⟨first, rfl, hfirst⟩ := h₁
  obtain ⟨second, rfl, hsecond⟩ := h₂
  refine ⟨second ∘ first, mapPlaces_mapPlaces first second d, fun place hplace => ?_⟩
  have h₁ := hfirst place hplace
  have h₂ := hsecond (first place) (mem_places_mapPlaces first hplace)
  refine ⟨h₂.request.trans h₁.request, h₂.line.trans h₁.line, h₂.children.trans ?_⟩
  rw [h₁.children, h₁.request, and_assoc, ← unfound_cons]

/-- A whole history. -/
theorem kept_documentAfter : ∀ (history : List (Builder × Store)) (d : Document),
    Kept (buildAll d history) d (documentAfter d history)
  | [], _ => kept_self fun _ _ _ h => nomatch h
  | (b, s) :: rest, d => (kept_build b d s).cons (kept_documentAfter rest _)

/-- Builds change nothing but the documentation in places. -/
theorem bare_documentAfter (history : List (Builder × Store)) (d : Document) :
    (documentAfter d history).bare = d.bare := by
  obtain ⟨change, hafter, hkept⟩ := kept_documentAfter history d
  rw [hafter, Document.bare, mapPlaces_mapPlaces]
  refine mapPlaces_eq_iff.mpr fun place hplace => ?_
  have hplace := hkept place hplace
  show Pending.mk (change place).request (change place).line [] = _
  rw [hplace.request, hplace.line]

/-! ## The last build alone -/

/-- Two runs agree: what the first one writes, the second one writes as well. -/
def SameOutput (b : Builder) (d : Document) (s : Store) (b' : Builder) (d' : Document) (s' : Store) :
    Prop :=
  ∀ w xml s₁, b.Wrote d s w xml s₁ → ∃ w' s₂, b'.Wrote d' s' w' xml s₂

/-- A document that asks for the same is built with the same output, by the same builder in the same
files. -/
theorem sameOutput_of_requests (h : d.places.map (·.request) = d'.places.map (·.request)) :
    SameOutput b d s b d' s := by
  rintro w xml s₁ ⟨⟨outcome, ⟨s₂, ⟨s₃, ⟨hplaces, hcreate⟩, hprepare⟩, hrun⟩, hcode⟩, hread⟩
  have hfile : RequestFile.ofDocument d' = RequestFile.ofDocument d := by
    unfold RequestFile.ofDocument
    rw [h]
  have hplaces' : d'.places ≠ [] := fun hnil => hplaces (by simpa [hnil] using h)
  rw [← hfile] at hprepare
  exact ⟨w, s₁, ⟨outcome, ⟨s₂, ⟨s₃, ⟨hplaces', hcreate⟩, hprepare⟩, hrun⟩, hcode⟩, hread⟩

/-- The modules that are looked up depend on the requests alone. -/
theorem requestedModules_congr (h : d.places.map (·.request) = d'.places.map (·.request)) :
    requestedModules d = requestedModules d' := by
  have hfold (d : Document) : requestedModules d = ((d.places.map (·.request)).foldl
      (fun (t : Table Unit) r => t.put r.moduleName ()) []).names := by
    rw [List.foldl_map]
    rfl
  rw [hfold, hfold, h]

/-- What a place holds after a last build that read an output. -/
structure PlaceAfter (builds : List Built) (root : Element) (place : Pending) : Prop where
  found : describing root place.request.moduleName ≠ [] →
    List.Forall₂ IsBlockOf (describing root place.request.moduleName) place.children
  missing : describing root place.request.moduleName = [] →
    (place.children = [] ↔ Unfound builds place.request.moduleName)

/-- The places after builds of a document without documentation, and a last one that found `t`. -/
theorem placeAfter_fillPlace {builds : List Built}
    (hindex : Findings.ofIndex (indexOf root) (requestedModules d) = .ok t) {before after : Pending}
    (hkept : PlaceKept builds before after) (hbare : before.children = []) (hafter : after ∈ d.places) :
    PlaceAfter builds root (fillPlace t after) := by
  rcases fillPlace_cases hindex ⟨after, hafter, rfl⟩ with
    ⟨hnone, hfill⟩ | ⟨nodes, hsome, hfill, hblocks⟩
  · rw [hfill]
    refine ⟨fun hsome => absurd hnone hsome, fun _ => ?_⟩
    rw [hkept.children, hkept.request]
    exact and_iff_right hbare
  · rw [hfill]
    exact ⟨fun _ => hblocks, fun hnone => absurd hnone hsome⟩

/-- Filling a place that builds have kept gives what filling the empty place gives, exactly if the
module is found or was never found. -/
theorem fillPlace_eq_iff {builds : List Built}
    (hindex : Findings.ofIndex (indexOf root) (requestedModules d) = .ok t) {before after : Pending}
    (hkept : PlaceKept builds before after) (hbare : before.children = []) (hafter : after ∈ d.places) :
    fillPlace t after = fillPlace t before ↔
      (before.request.moduleName ∈ t.missing → Unfound builds before.request.moduleName) := by
  obtain ⟨request, line, children⟩ := before
  obtain ⟨request', line', children'⟩ := after
  obtain ⟨hrequest, hline, hchildren⟩ := hkept
  dsimp only at hrequest hline hchildren hbare ⊢
  subst hrequest hline hbare
  have hasked : Requests d request'.moduleName := ⟨_, hafter, rfl⟩
  rw [mem_missing hindex]
  unfold fillPlace
  rcases get?_findings hindex hasked with ⟨hnone, hget⟩ | ⟨nodes, hsome, hget, -⟩
  · rw [hget]
    simp [hasked, hnone, hchildren]
  · rw [hget]
    simp [hsome]

/-- So it is for a whole document: a last build hides the ones before exactly if none of them has
found a module that it misses. -/
theorem fillDocument_eq_iff {builds : List Built} {fresh : Document} {change : Pending → Pending}
    (hkept : ∀ place ∈ fresh.places, PlaceKept builds place (change place))
    (hempty : ∀ place ∈ fresh.places, place.children = [])
    (hindex : Findings.ofIndex (indexOf root) (requestedModules (fresh.mapPlaces change)) = .ok t)
    (hindex' : Findings.ofIndex (indexOf root) (requestedModules fresh) = .ok t) :
    fillDocument t (fresh.mapPlaces change) = fillDocument t fresh ↔
      ∀ name ∈ t.missing, Unfound builds name := by
  have hiff (place : Pending) (hplace : place ∈ fresh.places) :=
    fillPlace_eq_iff hindex (hkept place hplace) (hempty place hplace)
      (mem_places_mapPlaces change hplace)
  unfold fillDocument
  rw [mapPlaces_mapPlaces, mapPlaces_eq_iff]
  constructor
  · intro h name hname
    obtain ⟨place, hplace, rfl⟩ := ((mem_missing hindex').mp hname).1
    exact (hiff place hplace).mp (h place hplace) hname
  · intro h place hplace
    exact (hiff place hplace).mpr (h _)

/-- **When the history of a document shows.** Whatever builds a document has gone through, a last
build that succeeds leaves the document that this build alone makes of the source, exactly if none
of the earlier builds has found a module that the last one misses. In any case a place holds the
blocks of its module if the last output describes it; otherwise the place is empty exactly if no
earlier build has found the module. -/
theorem document_eq_fresh_iff (source : String) (history : List (Builder × Store)) {b b' : Builder}
    {s s' : Store} {report : Report}
    (hok : (b.build (documentAfter (parse source).1 history) s).result = .ok report)
    (hsame : SameOutput b (documentAfter (parse source).1 history) s b' (parse source).1 s') :
    (∃ alone, (b'.build (parse source).1 s').result = .ok alone) ∧
    ((b.build (documentAfter (parse source).1 history) s).document =
        (b'.build (parse source).1 s').document ↔
      ∀ name ∈ report.missing, Unfound (buildAll (parse source).1 history) name) ∧
    ∀ w root s₁, b.Parsed (documentAfter (parse source).1 history) s w root s₁ →
      ∀ place ∈ (b.build (documentAfter (parse source).1 history) s).document.places,
        PlaceAfter (buildAll (parse source).1 history) root place := by
  obtain ⟨change, hafter, hkept⟩ := kept_documentAfter history (parse source).1
  have hempty (place : Pending) (hplace : place ∈ (parse source).1.places) : place.children = [] := by
    rw [← bare_parse, Document.bare, places_mapPlaces] at hplace
    obtain ⟨_, -, rfl⟩ := List.mem_map.mp hplace
    rfl
  -- Of the earlier builds only what they keep matters from here on.
  generalize documentAfter (parse source).1 history = d at *
  generalize buildAll (parse source).1 history = builds at *
  generalize (parse source).1 = fresh at *
  subst hafter
  have hrequests : (fresh.mapPlaces change).places.map (·.request) = fresh.places.map (·.request) :=
    requests_mapPlaces fun place hplace => (hkept place hplace).request
  by_cases hplaces : fresh.places = []
  · -- Without places nothing is built, and nothing has been built before.
    have hnone : (fresh.mapPlaces change).places = [] := by rw [places_mapPlaces, hplaces]; rfl
    have hself : fresh.mapPlaces change = fresh := mapPlaces_eq_self fun place hplace => by
      rw [hplaces] at hplace
      cases hplace
    rw [build_of_no_places hnone] at hok ⊢
    rw [build_of_no_places hplaces]
    obtain rfl := Except.ok.inj hok
    refine ⟨⟨_, rfl⟩, ⟨fun _ _ h => absurd h List.not_mem_nil, fun _ => hself⟩,
      fun w root s₁ hparsed => ?_⟩
    obtain ⟨_, ⟨⟨_, ⟨_, ⟨_, hcreated, -⟩, -⟩, -⟩, -⟩, -⟩ := hparsed
    exact absurd hnone hcreated.1
  · have hsome : (fresh.mapPlaces change).places ≠ [] := by
      rw [places_mapPlaces]
      simpa using hplaces
    obtain ⟨w, root, s₁, xml, hwrote, hparse⟩ := parsed_of_ok hsome hok
    obtain ⟨t, hindex, rfl, hdocument⟩ := findings_of_ok _ _ _ ⟨xml, hwrote, hparse⟩ hok
    -- The build alone reads the same output, and looks up the same modules in it.
    obtain ⟨w', s₂, hwrote'⟩ := hsame w xml s₁ hwrote
    have hindex' := hindex
    rw [requestedModules_congr hrequests] at hindex'
    have hbuild := build_of_parsed ⟨xml, hwrote', hparse⟩ hindex'
    refine ⟨⟨_, by rw [hbuild]⟩, ?_, ?_⟩
    · rw [hdocument, hbuild]
      exact fillDocument_eq_iff hkept hempty hindex hindex'
    · intro w₁ root₁ s₃ hparsed₁ place hplace
      obtain ⟨t₁, hindex₁, -, hdocument₁⟩ := findings_of_ok _ _ _ hparsed₁ hok
      rw [hdocument₁, fillDocument, mapPlaces_mapPlaces, places_mapPlaces] at hplace
      obtain ⟨before, hbefore, rfl⟩ := List.mem_map.mp hplace
      exact placeAfter_fillPlace hindex₁ (hkept before hbefore) (hempty before hbefore)
        (mem_places_mapPlaces change hbefore)

/-- The first output describes the module and the second one does not: the place keeps what the
first build gave it, and the document is not the one that the second build makes of the source. -/
theorem stale_place :
    let fresh := (parse "::automodule[a]\n").1
    let first := standIn "<d><desc ids=\"module-a\">x</desc></d>"
    let last := standIn "<d/>"
    (last.build (first.build fresh emptyStore).document emptyStore).document ≠
      (last.build fresh emptyStore).document := by
  intro fresh first last hequal
  have hfirst : (first.build fresh emptyStore).result = .ok ⟨1, 1, [], 0, none⟩ := by
    decide +kernel
  have hlast : (last.build (first.build fresh emptyStore).document emptyStore).result =
      .ok ⟨1, 0, ["a"], 0, none⟩ := by
    decide +kernel
  have hrequests : (documentAfter fresh [(first, emptyStore)]).places.map (·.request) =
      fresh.places.map (·.request) := by
    obtain ⟨change, hafter, hkept⟩ := kept_documentAfter [(first, emptyStore)] fresh
    rw [hafter]
    exact requests_mapPlaces fun place hplace => (hkept place hplace).request
  obtain ⟨-, hiff, -⟩ := document_eq_fresh_iff "::automodule[a]\n" [(first, emptyStore)] hlast
    (sameOutput_of_requests hrequests)
  have hmissing := hiff.mp hequal "a" (List.mem_singleton.mpr rfl) _ List.mem_cons_self _ hfirst
  cases hmissing

end DocWeave.Sphinx.Builder

import DocWeave.Proofs.Sphinx.Atomicity
import Mathlib.Data.Finset.Card

/-!
# What a successful build does

A build that succeeds gives every place whose module has descriptions one block for each of them,
leaves everything else as it was, and reports what it did.

- `card_requests`: the request file has every request of the document once.
- `BlockEffect`: what becomes of a block; `blockEffect_build`: and of all blocks.
- `missing_reportOf`, `filled_reportOf`, `filled_add_missing`: what is reported.
- `effect_of_build`: the effect on the document together with the report.
-/

namespace DocWeave.Sphinx

open Description Page
open Xml (Element)

/-! ## Distinct requests -/

namespace RequestFile

/-- The requests of the file are distinct, and those of a list. -/
structure Collects (file : RequestFile) (asked : List Request) : Prop where
  nodup : file.requests.Nodup
  mem : ∀ r, r ∈ file.requests ↔ r ∈ asked

theorem contains_iff {file : RequestFile} {r : Request} :
    file.contains r = true ↔ r ∈ file.requests := by
  simp [contains]

theorem Collects.push {file : RequestFile} {asked : List Request} (h : file.Collects asked)
    (r : Request) : (file.push r).Collects (asked ++ [r]) := by
  unfold RequestFile.push RequestFile.offer
  -- A request that is there already is not entered again.
  by_cases hr : file.contains r = true
  · have hmem : r ∈ asked := (h.mem r).mp (contains_iff.mp hr)
    rw [if_pos hr]
    refine ⟨h.nodup, fun q => ?_⟩
    rw [h.mem, List.mem_append, List.mem_singleton]
    exact ⟨Or.inl, fun hq => hq.elim id (fun hq => hq ▸ hmem)⟩
  · have hnew : r ∉ file.requests := fun hmem => hr (contains_iff.mpr hmem)
    rw [if_neg hr]
    refine ⟨?_, fun q => ?_⟩
    · rw [List.nodup_append]
      exact ⟨h.nodup, List.nodup_singleton r, fun a ha b hb hab =>
        hnew (List.mem_singleton.mp hb ▸ hab ▸ ha)⟩
    · rw [List.mem_append, List.mem_append, h.mem]

theorem Collects.foldl_push {file : RequestFile} {asked : List Request} (h : file.Collects asked) :
    ∀ more : List Request, (more.foldl RequestFile.push file).Collects (asked ++ more)
  | [] => by
    rw [List.append_nil]
    exact h
  | r :: more => by
    have := (h.push r).foldl_push more
    rwa [List.append_assoc] at this

theorem collects_ofDocument (d : Document) :
    (ofDocument d).Collects (d.places.map (·.request)) := by
  have hempty : RequestFile.Collects {} [] := ⟨List.nodup_nil, fun _ => Iff.rfl⟩
  exact hempty.foldl_push _

/-- The file has as many requests as the document has distinct ones. -/
theorem card_requests (d : Document) :
    (ofDocument d).size = (d.places.map (·.request)).toFinset.card := by
  have h := collects_ofDocument d
  rw [size, ← List.toFinset_card_of_nodup h.nodup]
  congr 1
  ext r
  rw [List.mem_toFinset, List.mem_toFinset, h.mem]

end RequestFile

/-! ## The effect on blocks -/

/-- The descriptions of a module in an output, in document order. -/
def describing (root : Element) (name : String) : List Element :=
  ofModule name (outermost root)

/-- What a build with an output makes of a block. -/
inductive BlockEffect (root : Element) : Block → Block → Prop where
  | markdown (value : String) : BlockEffect root (.markdown value) (.markdown value)
  | filled {place : Pending} {nodes : List Node} :
      describing root place.request.moduleName ≠ [] →
      List.Forall₂ IsBlockOf (describing root place.request.moduleName) nodes →
      BlockEffect root (.autodoc place) (.autodoc { place with children := nodes })
  | kept {place : Pending} : describing root place.request.moduleName = [] →
      BlockEffect root (.autodoc place) (.autodoc place)

namespace Builder

variable {b : Builder} {d : Document} {s s' : Store} {w : Workdir} {root : Element} {t : Findings}

theorem get?_indexOf (root : Element) (name : String) :
    (indexOf root).get? name = ModuleIndex.bucket? name (outermost root) := by
  rw [ModuleIndex.get?_ofList, descriptions_eq_outermost]

/-- A requested module with descriptions is found with one block for each of them; any other
requested module is not found. -/
theorem get?_findings (hindex : Findings.ofIndex (indexOf root) (requestedModules d) = .ok t)
    {name : String} (hrequest : Requests d name) :
    (describing root name = [] ∧ t.get? name = none) ∨
      ∃ nodes, describing root name ≠ [] ∧ t.get? name = some nodes ∧
        List.Forall₂ IsBlockOf (describing root name) nodes := by
  have hasked := mem_requestedModules.mpr hrequest
  have hget := @Findings.get?_ofIndex _ name _ _ hindex
  rw [if_pos hasked, get?_indexOf] at hget
  by_cases hnone : describing root name = []
  · rw [ModuleIndex.bucket?_eq_none.mpr hnone] at hget
    exact Or.inl ⟨hnone, hget⟩
  · obtain ⟨nodes, hnodes⟩ := Findings.nodesOf_of_ofIndex hindex hasked
    have hbucket := ModuleIndex.bucket?_eq_some.mpr ⟨rfl, hnone⟩
    rw [get?_indexOf, hbucket, Option.getD_some] at hnodes
    rw [hbucket, Option.bind_some, hnodes] at hget
    have hnames (e : Element) (he : e ∈ describing root name) : e.name = "desc" :=
      name_outermost (mem_ofModule.mp he).1
    exact Or.inr ⟨nodes, hnone, hget, nodesOf_eq_ok hnames hnodes⟩

/-- A module is found exactly if it has descriptions. -/
theorem isSome_get?_findings (hindex : Findings.ofIndex (indexOf root) (requestedModules d) = .ok t)
    {name : String} (hrequest : Requests d name) :
    (t.get? name).isSome = true ↔ describing root name ≠ [] := by
  rcases get?_findings hindex hrequest with ⟨hnone, hget⟩ | ⟨nodes, hsome, hget, -⟩
  · rw [hget, hnone]
    exact ⟨nofun, fun h => absurd rfl h⟩
  · rw [hget]
    exact ⟨fun _ => hsome, fun _ => rfl⟩

/-- The places of a document are those that its blocks hold. -/
theorem requests_of_mem {place : Pending} (h : .autodoc place ∈ d.blocks) :
    Requests d place.request.moduleName :=
  ⟨place, List.mem_filterMap.mpr ⟨_, h, rfl⟩, rfl⟩

/-- What filling a document does to its blocks. -/
theorem blockEffect_fillDocument
    (hindex : Findings.ofIndex (indexOf root) (requestedModules d) = .ok t) :
    List.Forall₂ (BlockEffect root) d.blocks (fillDocument t d).blocks := by
  show List.Forall₂ _ d.blocks (d.blocks.map (Block.mapPlace (fillPlace t)))
  rw [List.forall₂_map_right_iff, List.forall₂_same]
  intro block hblock
  cases block with
  | markdown value => exact .markdown value
  | autodoc place =>
    show BlockEffect root _ (.autodoc (fillPlace t place))
    unfold fillPlace
    rcases get?_findings hindex (requests_of_mem hblock) with
      ⟨hnone, hget⟩ | ⟨nodes, hsome, hget, hblocks⟩
    · rw [hget]
      exact .kept hnone
    · rw [hget]
      exact .filled hsome hblocks

/-! ## The report -/

/-- The modules that are reported as missing are the requested ones without descriptions. -/
theorem mem_missing (hindex : Findings.ofIndex (indexOf root) (requestedModules d) = .ok t)
    {name : String} : name ∈ t.missing ↔ Requests d name ∧ describing root name = [] := by
  rw [Findings.missing_ofIndex hindex, List.mem_filter, mem_requestedModules, get?_indexOf,
    Option.isNone_iff_eq_none, ModuleIndex.bucket?_eq_none]
  rfl

theorem missing_ascending (hindex : Findings.ofIndex (indexOf root) (requestedModules d) = .ok t) :
    t.missing.Pairwise (· < ·) := by
  rw [Findings.missing_ofIndex hindex]
  exact (requestedModules_ascending d).filter _

/-- The places that are filled are those whose modules have descriptions. -/
theorem filled_eq (hindex : Findings.ofIndex (indexOf root) (requestedModules d) = .ok t) :
    (d.places.countP fun place => (t.get? place.request.moduleName).isSome) =
      d.places.countP fun place => describing root place.request.moduleName ≠ [] := by
  refine List.countP_congr fun place hplace => ?_
  rw [isSome_get?_findings hindex ⟨place, hplace, rfl⟩, decide_eq_true_iff]

/-- Every place is either filled or has a module that is missing. -/
theorem filled_add_missing (hindex : Findings.ofIndex (indexOf root) (requestedModules d) = .ok t) :
    (d.places.countP fun place => describing root place.request.moduleName ≠ []) +
      (d.places.countP fun place => place.request.moduleName ∈ t.missing) = d.places.length := by
  rw [List.length_eq_countP_add_countP fun place : Pending =>
    decide (describing root place.request.moduleName ≠ [])]
  congr 1
  refine List.countP_congr fun place hplace => ?_
  have hrequest : Requests d place.request.moduleName := ⟨place, hplace, rfl⟩
  simp [mem_missing hindex, hrequest]

variable (b d s) in
/-- A build that read an output and succeeded has findings about it. -/
theorem findings_of_ok (hparsed : b.Parsed d s w root s') {report : Report}
    (hok : (b.build d s).result = .ok report) :
    ∃ t, Findings.ofIndex (indexOf root) (requestedModules d) = .ok t ∧
      report = b.reportOf d w t (indexOf root).dropped ∧
      (b.build d s).document = fillDocument t d := by
  cases hindex : Findings.ofIndex (indexOf root) (requestedModules d) with
  | error e =>
    have hfail := FirstFailure.translation hparsed (ofIndex_eq_error.mp hindex)
    rw [(result_of_firstFailure hfail).1] at hok
    cases hok
  | ok t =>
    have hbuild := build_of_parsed hparsed hindex
    rw [hbuild] at hok ⊢
    exact ⟨t, rfl, (Except.ok.inj hok).symm, rfl⟩

/-- **The effect of a successful build** whose output is the tree `root`: which blocks change and
how, and what is reported. -/
theorem effect_of_build (hparsed : b.Parsed d s w root s') {report : Report}
    (hok : (b.build d s).result = .ok report) :
    List.Forall₂ (BlockEffect root) d.blocks (b.build d s).document.blocks ∧
    report.requests = (d.places.map (·.request)).toFinset.card ∧
    report.filled =
      (d.places.countP fun place => describing root place.request.moduleName ≠ []) ∧
    report.missing.Pairwise (· < ·) ∧
    (∀ name, name ∈ report.missing ↔ Requests d name ∧ describing root name = []) ∧
    report.filled + (d.places.countP fun place => place.request.moduleName ∈ report.missing) =
      d.places.length ∧
    report.dropped = (outermost root).countP fun e => moduleOf? e = none := by
  obtain ⟨t, hindex, rfl, hdocument⟩ := findings_of_ok b d s hparsed hok
  refine ⟨?_, RequestFile.card_requests d, filled_eq hindex, missing_ascending hindex,
    fun name => mem_missing hindex, ?_, ?_⟩
  · rw [hdocument]
    exact blockEffect_fillDocument hindex
  · show (d.places.countP fun place => (t.get? place.request.moduleName).isSome) + _ = _
    rw [filled_eq hindex]
    exact filled_add_missing hindex
  · show (indexOf root).dropped = _
    rw [ModuleIndex.dropped_ofList, descriptions_eq_outermost]

/-- Three places for two modules, and one module without descriptions; a description inside another
one and one without a module do not count. -/
theorem effect_of_build_three_places :
    let b := standIn ("<d><desc ids=\"module-a\"><desc ids=\"module-b\">y</desc></desc><desc/>" ++
      "<desc ids=\"x module-a\">z</desc></d>")
    let d := (parse "::automodule[a]\n::automodule[b]\n::automodule[a]{members}\n").1
    ∃ root, List.Forall₂ (BlockEffect root) d.blocks (b.build d emptyStore).document.blocks ∧
      2 + (d.places.countP fun place => place.request.moduleName ∈ ["b"]) = d.places.length := by
  intro b d
  have hok : (b.build d emptyStore).result = .ok ⟨3, 2, ["b"], 1, none⟩ := by decide +kernel
  have hplaces : d.places ≠ [] := by
    have hlength : d.places.length = 3 := by decide +kernel
    exact List.ne_nil_of_length_pos (by omega)
  obtain ⟨w, root, s', hparsed⟩ := parsed_of_ok hplaces hok
  obtain ⟨hblocks, -, -, -, -, htotal, -⟩ := effect_of_build hparsed hok
  exact ⟨root, hblocks, htotal⟩

end Builder

end DocWeave.Sphinx

import DocWeave.Proofs.Sphinx.RequestText
import DocWeave.Proofs.Text.UniversalLines
import Mathlib.Algebra.Order.BigOperators.Group.List

/-!
# The lines that Sphinx sees in the request file

The lines of a source are told apart by line feeds alone, while Sphinx also ends a line where a
carriage return stands. A carriage return inside an option value stays where it is, so that what is
behind it starts a line of its own in the request file.

- `universalLines_unlines`: each line that is written is read apart from the others.
- `universalLines_text_iff`: which documents have a request file that Sphinx reads as it is meant.
-/

namespace DocWeave

namespace Sphinx.RequestFile

/-! ## The lines of the request file -/

open Text

variable {rs : List Request}

theorem universalLines_unlines (ls : List (List Char)) :
    universalLines (unlines ls) = ls.flatMap fun line => universalLines (line ++ ['\n']) := by
  induction ls with
  | nil => rfl
  | cons line ls ih =>
    rw [unlines, List.flatMap_cons, List.append_assoc, List.singleton_append,
      universalLines_append_feed, List.flatMap_cons]
    exact congrArg _ ih

/-- Lines with neither carriage returns nor line feeds are read as they are, and no others. -/
theorem universalLines_unlines_eq {ls : List (List Char)} (h : ∀ line ∈ ls, '\n' ∉ line) :
    universalLines (unlines ls) = ls ↔ ∀ line ∈ ls, '\r' ∉ line := by
  refine ⟨fun heq => heq ▸ return_not_mem_universalLines _, fun hreturn => ?_⟩
  have heach : ls.flatMap (fun line => universalLines (line ++ ['\n'])) = ls.flatMap fun line => [line] :=
    List.flatMap_congr fun line hline => universalLines_of_not_mem (hreturn line hline) (h line hline)
  rw [universalLines_unlines, heach, List.flatMap_singleton']

/-- There are no more lines than are meant exactly if carriage returns stand at their ends only. -/
theorem length_universalLines_unlines_eq {ls : List (List Char)} (h : ∀ line ∈ ls, '\n' ∉ line) :
    (universalLines (unlines ls)).length = ls.length ↔ ∀ line ∈ ls, '\r' ∉ line.dropLast := by
  -- Each line counts once, and once more for each carriage return in front of its last character.
  have hlength : (universalLines (unlines ls)).length =
      (ls.map fun line => line.dropLast.count '\r').sum + ls.length := by
    rw [universalLines_unlines, List.length_flatMap,
      List.map_congr_left fun line hline => length_universalLines (h line hline), List.sum_map_add,
      List.map_const', List.sum_replicate_nat, Nat.mul_one]
  rw [hlength, Nat.add_eq_right, List.sum_eq_zero_iff, List.forall_mem_map]
  simp only [List.count_eq_zero]

/-- What holds of a blank line and of lines for modules holds of all lines for requests exactly if it
holds of the lines for their options. -/
theorem forall_mem_linesOf_iff {P : List Char → Prop} (hblank : P [])
    (hmodule : ∀ r ∈ rs, P (".. automodule:: ".toList ++ r.moduleName.toList)) :
    (∀ line ∈ linesOf rs, P line) ↔
      ∀ r ∈ rs, ∀ o v, r.option? o = some v → P (Request.writeOption o v) := by
  rw [forall_mem_linesOf hblank]
  exact forall₂_congr fun r hr =>
    Request.forall_mem_writtenLines.trans (and_iff_right (hmodule r hr))

theorem return_mem_writeOption {o : AutodocOption} {v : String} :
    '\r' ∈ Request.writeOption o v ↔ '\r' ∈ v.toList := by
  obtain ⟨start, -, hstart, hline⟩ := Request.writeOption_eq o v
  rw [hline, List.mem_append, or_iff_right hstart]

theorem return_mem_dropLast_writeOption {o : AutodocOption} {v : String} :
    '\r' ∈ (Request.writeOption o v).dropLast ↔ '\r' ∈ v.toList.dropLast := by
  obtain ⟨start, -, hstart, hline⟩ := Request.writeOption_eq o v
  rw [hline]
  by_cases hv : v.toList = []
  · rw [hv, List.append_nil, List.dropLast_nil]
    exact iff_of_false (fun h => hstart (List.dropLast_subset start h)) nofun
  · rw [List.dropLast_append_of_ne_nil hv, List.mem_append, or_iff_right hstart]

theorem return_not_mem_moduleLine {source : String} {r : Request}
    (h : r ∈ (ofDocument (Page.parse source).1).requests) :
    '\r' ∉ ".. automodule:: ".toList ++ r.moduleName.toList := by
  obtain ⟨place, hplace, rfl⟩ := List.mem_map.mp (mem_ofDocument.mp h)
  obtain ⟨-, _, leaf, -, -, -, hrequest⟩ := Page.exists_leaf_of_mem_places hplace
  rw [List.mem_append, not_or]
  refine ⟨by decide, fun hmem => ?_⟩
  -- A module path has letters, digits, underscores and dots only.
  have hdotted := (Directive.option?_requestOf hrequest).1
  rcases hdotted.isIdentifierChar '\r' hmem with hreturn | hreturn
  · exact absurd hreturn (by decide)
  · exact absurd hreturn (by decide)

/-! ## What Sphinx reads -/

/-- **Where a request file is read as it is meant.** Sphinx reads each line of the file apart from the
others. It reads the lines that ask for the modules, and nothing else, exactly if no option value has a
carriage return; it reads no further lines exactly if none has one in front of its last character. -/
theorem universalLines_text_iff (source : String) (h : (Page.parse source).1.places ≠ []) :
    let rs := (ofDocument (Page.parse source).1).requests
    let seen := universalLines (ofDocument (Page.parse source).1).text.toList
    rs ≠ [] ∧ rs.Nodup ∧
    seen = (linesOf rs).flatMap (fun line => universalLines (line ++ ['\n'])) ∧
    (seen = linesOf rs ↔ ∀ r ∈ rs, ∀ o v, r.option? o = some v → '\r' ∉ v.toList) ∧
    (seen.length = (linesOf rs).length ↔
      ∀ r ∈ rs, ∀ o v, r.option? o = some v → '\r' ∉ v.toList.dropLast) := by
  intro rs seen
  have hne : rs ≠ [] := by
    obtain ⟨place, hplace⟩ := List.exists_mem_of_ne_nil _ h
    exact List.ne_nil_of_mem (mem_ofDocument.mpr (List.mem_map_of_mem hplace))
  have hseen : seen = universalLines (unlines (linesOf rs)) := by
    simp only [seen]
    rw [text, String.toList_ofList, write_eq hne]
  have hunbroken : ∀ line ∈ linesOf rs, '\n' ∉ line :=
    (forall_mem_linesOf List.not_mem_nil).mpr (unbroken_ofDocument source)
  have hmodule (r : Request) (hr : r ∈ rs) := return_not_mem_moduleLine hr
  refine ⟨hne, nodup_ofDocument _, ?_, ?_, ?_⟩
  · rw [hseen, universalLines_unlines]
  · rw [hseen, universalLines_unlines_eq hunbroken, forall_mem_linesOf_iff List.not_mem_nil hmodule]
    simp only [return_mem_writeOption]
  · rw [hseen, length_universalLines_unlines_eq hunbroken, forall_mem_linesOf_iff List.not_mem_nil
      fun r hr hmem => hmodule r hr (List.dropLast_subset _ hmem)]
    simp only [return_mem_dropLast_writeOption]

/-- A carriage return inside a quoted value starts a third line in the request file. -/
theorem universalLines_text_injected :
    let source := "::automodule[a]\x7bmembers=\"x\ry\"\x7d\n"
    let rs := (ofDocument (Page.parse source).1).requests
    let seen := universalLines (ofDocument (Page.parse source).1).text.toList
    rs = [{ moduleName := "a", members := some "x\ry" }] ∧ seen ≠ linesOf rs ∧
      seen = [".. automodule:: a".toList, "   :members: x".toList, "y".toList] := by
  intro source rs seen
  have hrs : rs = [{ moduleName := "a", members := some "x\ry" }] := by
    decide +kernel
  have hplaces : (Page.parse source).1.places ≠ [] := by
    decide +kernel
  obtain ⟨-, -, hseen, hiff, -⟩ := universalLines_text_iff source hplaces
  refine ⟨hrs, fun heq => ?_, ?_⟩
  · have hmem : { moduleName := "a", members := some "x\ry" } ∈ rs := by
      rw [hrs]
      exact List.mem_singleton_self _
    exact hiff.mp heq _ hmem .members "x\ry" rfl (by decide)
  · show universalLines (ofDocument (Page.parse source).1).text.toList = _
    rw [hseen]
    simp only [rs] at hrs
    rw [hrs]
    decide +kernel

end Sphinx.RequestFile

end DocWeave

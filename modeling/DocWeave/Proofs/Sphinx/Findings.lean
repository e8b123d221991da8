import DocWeave.Proofs.Description.Grouping
import DocWeave.Proofs.Description.Reach
import DocWeave.Sphinx.Build

/-!
# What is found about modules

The modules that a document asks for are looked up one after the other, in ascending order. The
first of them with an unsupported element makes the look-up fail.

- `mem_requestedModules`, `requestedModules_ascending`: the modules that are looked up.
- `Findings.failing_ofIndex`: when the look-up fails.
- `Findings.get?_ofIndex`, `Findings.missing_ofIndex`: what it yields otherwise.
- `FirstCulprit`: the failure, without mention of the order of look-ups.
-/

namespace DocWeave.Sphinx

open Description Page
open Xml (Element)

/-- Whether a document asks for a module. -/
def Requests (d : Document) (name : String) : Prop :=
  ∃ place ∈ d.places, place.request.moduleName = name

theorem mem_requestedModules {d : Document} {name : String} :
    name ∈ requestedModules d ↔ Requests d name := by
  unfold requestedModules Requests
  rw [Table.mem_names_foldl_put (fun place : Pending => place.request.moduleName) (fun _ => ())]
  exact or_iff_right List.not_mem_nil

theorem requestedModules_ascending (d : Document) : (requestedModules d).Pairwise (· < ·) :=
  Table.ascending_nil.foldl_put (fun place : Pending => place.request.moduleName) (fun _ => ())
    d.places

/-- In an ascending list the first name with a value is the least one. -/
theorem findSome?_ascending {α : Type} {f : String → Option α} {x : α} :
    ∀ {names : List String}, names.Pairwise (· < ·) →
      (names.findSome? f = some x ↔
        ∃ name ∈ names, f name = some x ∧ ∀ other ∈ names, other < name → f other = none)
  | [], _ => by simp
  | name :: rest, h => by
    obtain ⟨hname, hrest⟩ := List.pairwise_cons.mp h
    rw [List.findSome?_cons]
    cases hf : f name with
    | some y =>
      -- All other names are greater, so none of them can be the least one.
      constructor
      · intro hy
        refine ⟨name, List.mem_cons_self, hf.trans hy, fun other hother hlt => ?_⟩
        rcases List.mem_cons.mp hother with rfl | hother
        · exact absurd hlt (lt_irrefl _)
        · exact absurd hlt (lt_asymm (hname other hother))
      · rintro ⟨found, hfound, hx, hleast⟩
        rcases List.mem_cons.mp hfound with rfl | hfound
        · exact hf.symm.trans hx
        · exact absurd (hleast name List.mem_cons_self (hname found hfound)) (by simp [hf])
    | none =>
      show rest.findSome? f = some x ↔ _
      rw [findSome?_ascending hrest]
      constructor
      · rintro ⟨found, hfound, hx, hleast⟩
        refine ⟨found, List.mem_cons_of_mem _ hfound, hx, fun other hother hlt => ?_⟩
        rcases List.mem_cons.mp hother with rfl | hother
        · exact hf
        · exact hleast other hother hlt
      · rintro ⟨found, hfound, hx, hleast⟩
        rcases List.mem_cons.mp hfound with rfl | hfound
        · rw [hf] at hx
          cases hx
        · exact ⟨found, hfound, hx, fun other hother hlt =>
            hleast other (List.mem_cons_of_mem _ hother) hlt⟩

/-- The first module in ascending order that has an unsupported element among its descriptions, with
the name of its first such element. -/
def FirstCulprit (d : Document) (root : Element) (culprit : String) : Prop :=
  ∃ name, Requests d name ∧
    firstUnsupported (occurrencesOf (ofModule name (outermost root))) = some culprit ∧
    ∀ other, Requests d other → other < name →
      firstUnsupported (occurrencesOf (ofModule other (outermost root))) = none

namespace Findings

/-- A look-up fails at the first module with an unsupported element, and names that element. -/
theorem failing_ofIndex (index : ModuleIndex) : ∀ names,
    failing (ofIndex index names) =
      names.findSome? fun name => firstUnsupported (occurrencesOf ((index.get? name).getD []))
  | [] => rfl
  | name :: rest => by
    have hrest := failing_ofIndex index rest
    rw [List.findSome?_cons]
    unfold ofIndex
    cases hbucket : index.get? name with
    | none =>
      show failing ((ofIndex index rest).bind _) = rest.findSome? _
      rw [← hrest]
      cases ofIndex index rest <;> rfl
    | some bucket =>
      -- The descriptions of this module are read before those of the others are looked up.
      show failing ((nodesOf bucket).bind fun nodes => (ofIndex index rest).bind _) = _
      rw [Option.getD_some, ← failing_nodesOf bucket]
      cases nodesOf bucket with
      | error _ => rfl
      | ok nodes =>
        show failing ((ofIndex index rest).bind _) = rest.findSome? _
        rw [← hrest]
        cases ofIndex index rest <;> rfl

/-- A look-up that succeeds goes on with the other modules, and adds what it has found about the
first one to what it finds there. -/
theorem ofIndex_cons_eq_ok {index : ModuleIndex} {first : String} {rest : List String} {t : Findings}
    (h : ofIndex index (first :: rest) = .ok t) :
    ∃ t', ofIndex index rest = .ok t' ∧
      ((index.get? first = none ∧ t = { t' with missing := first :: t'.missing }) ∨
        ∃ bucket nodes, index.get? first = some bucket ∧ nodesOf bucket = .ok nodes ∧
          t = { t' with found := (first, nodes) :: t'.found }) := by
  unfold ofIndex at h
  cases ht : ofIndex index rest with
  | error _ =>
    simp only [ht] at h
    split at h
    · cases h
    · rename_i bucket _
      cases hnodes : nodesOf bucket <;> (rw [hnodes] at h; cases h)
  | ok t' =>
    simp only [ht] at h
    refine ⟨t', rfl, ?_⟩
    split at h
    · rename_i hbucket
      exact Or.inl ⟨hbucket, (Except.ok.inj h).symm⟩
    · rename_i bucket hbucket
      cases hnodes : nodesOf bucket with
      | error _ =>
        rw [hnodes] at h
        cases h
      | ok nodes =>
        rw [hnodes] at h
        exact Or.inr ⟨bucket, nodes, hbucket, hnodes, (Except.ok.inj h).symm⟩

/-- What is found about a module is what its descriptions become. -/
theorem get?_ofIndex {index : ModuleIndex} {name : String} :
    ∀ {names : List String} {t : Findings}, ofIndex index names = .ok t →
      t.get? name = if name ∈ names then (index.get? name).bind fun bucket => (nodesOf bucket).toOption
        else none
  | [], _, h => by
    obtain rfl := Except.ok.inj h
    rfl
  | first :: rest, _, h => by
    obtain ⟨t', ht, ⟨hbucket, rfl⟩ | ⟨bucket, nodes, hbucket, hnodes, rfl⟩⟩ := ofIndex_cons_eq_ok h
    · show t'.get? name = _
      rw [get?_ofIndex ht]
      by_cases hname : name = first
      · subst hname
        rw [hbucket]
        simp
      · simp [hname]
    · show Table.get? ((first, nodes) :: t'.found) name = _
      rw [Table.get?_cons]
      by_cases hname : name = first
      · subst hname
        rw [if_pos rfl, if_pos List.mem_cons_self, hbucket, Option.bind_some, hnodes]
        rfl
      · rw [if_neg hname]
        show t'.get? name = _
        rw [get?_ofIndex ht]
        simp [hname]

/-- In a look-up that succeeds, the descriptions of every module become nodes. -/
theorem nodesOf_of_ofIndex {index : ModuleIndex} {names : List String} {t : Findings}
    (h : ofIndex index names = .ok t) {name : String} (hname : name ∈ names) :
    ∃ nodes, nodesOf ((index.get? name).getD []) = .ok nodes := by
  -- Otherwise the look-up would have failed at this module or at an earlier one.
  have hnone : failing (ofIndex index names) = none := by
    rw [h]
    rfl
  rw [failing_ofIndex, List.findSome?_eq_none_iff] at hnone
  have hbucket := hnone name hname
  rw [← failing_nodesOf] at hbucket
  cases hnodes : nodesOf ((index.get? name).getD []) with
  | error _ =>
    rw [hnodes] at hbucket
    cases hbucket
  | ok nodes => exact ⟨nodes, rfl⟩

/-- The modules without descriptions are listed as missing, in the order of the look-up. -/
theorem missing_ofIndex {index : ModuleIndex} :
    ∀ {names : List String} {t : Findings}, ofIndex index names = .ok t →
      t.missing = names.filter fun name => (index.get? name).isNone
  | [], _, h => by
    obtain rfl := Except.ok.inj h
    rfl
  | first :: rest, _, h => by
    obtain ⟨t', ht, ⟨hbucket, rfl⟩ | ⟨bucket, nodes, hbucket, -, rfl⟩⟩ := ofIndex_cons_eq_ok h
    · show first :: t'.missing = _
      rw [List.filter_cons, hbucket, missing_ofIndex ht]
      rfl
    · show t'.missing = _
      rw [List.filter_cons, hbucket, missing_ofIndex ht]
      rfl

end Findings

end DocWeave.Sphinx

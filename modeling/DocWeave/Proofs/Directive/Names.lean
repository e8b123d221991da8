import DocWeave.Directive.Automodule
import DocWeave.Proofs.Directive.Grammar
import DocWeave.Proofs.Table

/-!
# Names in directives

A directive names a module by its dotted path, and options by the keys of its attributes.

- `IsIdentifier`, `IsDotted`: the grammar of module paths; `isModulePath_iff`: it is the one that
  directives are checked against.
- `requestOf_isOk_iff`, `requestOf_eq_error`: which directives make a request, and what is wrong with
  the others.
- `mem_unknownKeys`, `pairwise_unknownKeys`: the attributes that are no options.
-/

namespace DocWeave.Directive

/-! ## Module paths -/

/-- A letter or an underscore, followed by letters, digits and underscores, all of them ASCII. -/
def IsIdentifier (text : List Char) : Prop :=
  ∃ c rest, text = c :: rest ∧ isIdentifierStart c = true ∧ ∀ d ∈ rest, isIdentifierChar d = true

/-- Identifiers with a dot between each two of them. -/
inductive IsDotted : List Char → Prop where
  | identifier {name : List Char} (h : IsIdentifier name) : IsDotted name
  | dot {name rest : List Char} (h : IsIdentifier name) (hrest : IsDotted rest) :
    IsDotted (name ++ '.' :: rest)

theorem isIdentifier_singleton {c : Char} (h : isIdentifierStart c = true) : IsIdentifier [c] :=
  ⟨c, [], rfl, h, nofun⟩

/-- An identifier may go on with every character that can stand inside of one. -/
theorem IsIdentifier.append_char {name : List Char} (h : IsIdentifier name) {c : Char}
    (hc : isIdentifierChar c = true) : IsIdentifier (name ++ [c]) := by
  obtain ⟨d, rest, rfl, hd, hrest⟩ := h
  refine ⟨d, rest ++ [c], rfl, hd, fun e he => ?_⟩
  rcases List.mem_append.mp he with he | he
  · exact hrest e he
  · rwa [List.mem_singleton.mp he]

/-- What the check accepts is a dotted path, once the identifier that has been begun is put in front
of it. -/
theorem isDotted_of_isModulePathFrom {text : List Char} :
    (isModulePathFrom true text = true → IsDotted text) ∧
      (isModulePathFrom false text = true → ∀ name, IsIdentifier name → IsDotted (name ++ text)) := by
  -- Both together: a dot leads from inside of an identifier to the start of the next one.
  induction text with
  | nil =>
    refine ⟨nofun, fun _ name hname => ?_⟩
    rw [List.append_nil]
    exact .identifier hname
  | cons c rest ih =>
    obtain ⟨ihstart, ihinside⟩ := ih
    constructor
    · intro h
      rw [isModulePathFrom, if_pos rfl, Bool.and_eq_true] at h
      exact ihinside h.2 [c] (isIdentifier_singleton h.1)
    · intro h name hname
      rw [isModulePathFrom, if_neg Bool.false_ne_true] at h
      split at h
      · rename_i hdot
        rw [hdot]
        exact .dot hname (ihstart h)
      · rw [Bool.and_eq_true] at h
        have hpath := ihinside h.2 (name ++ [c]) (hname.append_char h.1)
        rwa [List.append_assoc] at hpath

/-- Characters inside an identifier are passed over. -/
theorem isModulePathFrom_append {chars : List Char} (h : ∀ c ∈ chars, isIdentifierChar c = true)
    (rest : List Char) :
    isModulePathFrom false (chars ++ rest) = isModulePathFrom false rest := by
  induction chars with
  | nil => rfl
  | cons c chars ih =>
    obtain ⟨hc, hchars⟩ := List.forall_mem_cons.mp h
    have hdot : c ≠ '.' := by
      rintro rfl
      cases hc
    rw [List.cons_append, isModulePathFrom, if_neg Bool.false_ne_true, if_neg hdot, hc, Bool.true_and,
      ih hchars]

theorem isModulePathFrom_identifier {name : List Char} (h : IsIdentifier name) (rest : List Char) :
    isModulePathFrom true (name ++ rest) = isModulePathFrom false rest := by
  obtain ⟨c, chars, rfl, hc, hchars⟩ := h
  rw [List.cons_append, isModulePathFrom, if_pos rfl, hc, Bool.true_and,
    isModulePathFrom_append hchars]

/-- The check accepts just the dotted paths. -/
theorem isModulePath_iff {text : List Char} : isModulePath text = true ↔ IsDotted text := by
  refine ⟨isDotted_of_isModulePathFrom.1, fun h => ?_⟩
  unfold isModulePath
  induction h with
  | @identifier name hname =>
    have hnil := isModulePathFrom_identifier hname []
    rwa [List.append_nil] at hnil
  | dot hname _ ih =>
    rw [isModulePathFrom_identifier hname, isModulePathFrom, if_neg Bool.false_ne_true, if_pos rfl]
    exact ih

theorem IsDotted.ne_nil {text : List Char} (h : IsDotted text) : text ≠ [] := by
  rintro rfl
  cases isModulePath_iff.mpr h

/-! ## Requests -/

/-- What is wrong with a text that names no module. -/
def moduleError (content : String) : ModuleError :=
  if content = "" then .missing else .invalid content

theorem isEmpty_toList {content : String} : content.toList.isEmpty = true ↔ content = "" := by
  rw [List.isEmpty_iff, ← String.toList_eq_nil_iff]

/-- A directive makes a request if its content is a dotted path. -/
theorem requestOf_isOk_iff {args : Arguments} :
    (∃ request, requestOf args = .ok request) ↔ IsDotted args.content.toList := by
  rw [← isModulePath_iff]
  unfold requestOf
  constructor
  · rintro ⟨request, h⟩
    split at h
    · cases h
    · split at h
      · assumption
      · cases h
  · intro h
    have hne : args.content.toList.isEmpty = false :=
      List.isEmpty_eq_false_iff.mpr (isModulePath_iff.mp h).ne_nil
    rw [hne, if_neg Bool.false_ne_true, if_pos h]
    exact ⟨_, rfl⟩

/-- Otherwise there is no content, or a wrong one. -/
theorem requestOf_eq_error {args : Arguments} {error : ModuleError} :
    requestOf args = .error error ↔
      ¬ IsDotted args.content.toList ∧ error = moduleError args.content := by
  rw [← isModulePath_iff]
  unfold requestOf moduleError
  simp only [isEmpty_toList]
  by_cases hempty : args.content = ""
  · rw [if_pos hempty, if_pos hempty, hempty]
    exact ⟨fun h => ⟨nofun, (Except.error.inj h).symm⟩, fun h => congrArg _ h.2.symm⟩
  · rw [if_neg hempty, if_neg hempty]
    by_cases hpath : isModulePath args.content.toList = true
    · rw [if_pos hpath]
      exact ⟨nofun, fun h => absurd hpath h.1⟩
    · rw [if_neg hpath]
      exact ⟨fun h => ⟨hpath, (Except.error.inj h).symm⟩, fun h => congrArg _ h.2.symm⟩

/-! ## Attributes -/

/-- The attributes that were read are listed in order. -/
theorem ascending_of_parse {line : List Char} {leaf : Leaf} (h : Leaf.parse line = some leaf) :
    leaf.args.attributes.Ascending := by
  obtain ⟨w, -, rfl⟩ := parse_eq_some_iff.mp h
  exact Table.Ascending.foldl_put _ _ _ Table.ascending_nil

theorem ofName?_eq_none {key : String} :
    AutodocOption.ofName? key = none ↔ ∀ o : AutodocOption, o.name ≠ key := by
  unfold AutodocOption.ofName?
  simp only [List.find?_eq_none, decide_eq_true_iff]
  refine ⟨fun h o => h o ?_, fun h o _ => h o⟩
  cases o <;> decide

/-- The unknown keys are the attributes that no option has as its name. -/
theorem mem_unknownKeys {args : Arguments} {key : String} :
    key ∈ unknownKeys args ↔ (args.get? key).isSome ∧ ∀ o : AutodocOption, o.name ≠ key := by
  rw [unknownKeys, List.mem_filter, Option.isNone_iff_eq_none, ofName?_eq_none]
  exact and_congr_left' Table.isSome_get?_iff.symm

theorem pairwise_unknownKeys {args : Arguments} (h : args.attributes.Ascending) :
    (unknownKeys args).Pairwise (· < ·) :=
  h.filter _

end DocWeave.Directive

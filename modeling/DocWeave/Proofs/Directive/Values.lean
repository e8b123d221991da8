import DocWeave.Proofs.Directive.Names
import DocWeave.Proofs.Text.Lines

/-!
# What the values of a directive are made of

Apart from the value of a flag, all that a directive gives to its options has been read from its line.
So no option value and no module name has a line feed in it, however it was quoted.

- `value_of_readItem`: what items are made of.
- `value_of_parse`: so are the attributes of the directive on a line.
- `option?_requestOf`: the options of a request are the attributes with their names.
- `value_of_requestOf`: the option values of a request stand in its line.
-/

namespace DocWeave

namespace Text

/-! ## Lines without their ends -/

theorem dropLineEnd_subset (raw : List Char) : dropLineEnd raw ⊆ raw := by
  intro c hc
  exact List.mem_reverse.mp ((List.dropWhile_sublist _).subset (List.mem_reverse.mp hc))

/-- Without its end, a line has no line feed. -/
theorem feed_not_mem_dropLineEnd {raw : List Char} (h : '\n' ∉ raw.dropLast) :
    '\n' ∉ dropLineEnd raw := by
  -- A line feed can only be the last character, and this one is dropped.
  rcases List.eq_nil_or_concat raw with rfl | ⟨init, c, hraw⟩
  · nofun
  · rw [List.concat_eq_append] at hraw
    subst hraw
    rw [List.dropLast_concat] at h
    by_cases hc : c = '\n'
    · have hdrop : dropLineEnd (init ++ [c]) = dropLineEnd init := by
        unfold dropLineEnd
        rw [List.reverse_append, hc]
        rfl
      rw [hdrop]
      exact fun hmem => h (dropLineEnd_subset init hmem)
    · intro hmem
      rcases List.mem_append.mp (dropLineEnd_subset _ hmem) with hinit | hlast
      · exact h hinit
      · exact hc (List.mem_singleton.mp hlast).symm

end Text

namespace Directive

/-! ## Items -/

theorem upToQuote_subset {quote : Char} : ∀ {text v : List Char},
    upToQuote quote text = some v → v ⊆ text
  | [], _, h => nomatch h
  | c :: text, v, h => by
    unfold upToQuote at h
    split at h
    · cases h
      exact List.nil_subset _
    · obtain ⟨w, hw, rfl⟩ := Option.map_eq_some_iff.mp h
      exact List.cons_subset_cons c (upToQuote_subset hw)

/-- The value of an item is that of a flag, or it stands in the text. -/
theorem value_of_readItemAfter {key text : List Char} {item : Item}
    (h : readItemAfter key text = some item) :
    item.value = flagValue.toList ∨ item.value ⊆ text := by
  unfold readItemAfter at h
  split at h
  · cases h
    exact Or.inl rfl
  · rename_i c rest
    split at h
    · refine Or.inr (List.subset_cons_of_subset c ?_)
      split at h
      · obtain ⟨v, hv, rfl⟩ := Option.map_eq_some_iff.mp h
        exact List.subset_cons_of_subset _ (upToQuote_subset hv)
      · obtain ⟨v, hv, rfl⟩ := Option.map_eq_some_iff.mp h
        exact List.subset_cons_of_subset _ (upToQuote_subset hv)
      · cases h
        exact (List.takeWhile_sublist _).subset
    · split at h
      · cases h
        exact Or.inl rfl
      · cases h

theorem value_of_readItem {text : List Char} {item : Item} (h : readItem text = some item) :
    item.value = flagValue.toList ∨ item.value ⊆ text := by
  unfold readItem at h
  dsimp only at h
  split at h
  · cases h
  · refine (value_of_readItemAfter h).imp_right fun hvalue => ?_
    exact List.Subset.trans hvalue (List.dropWhile_sublist _).subset

theorem value_of_mem_itemsFrom {item : Item} : ∀ {text : List Char} {skip : Nat},
    item ∈ itemsFrom skip text → item.value = flagValue.toList ∨ item.value ⊆ text
  | [], _, h => nomatch h
  | c :: text, skip, h => by
    have hrest {skip : Nat} (h : item ∈ itemsFrom skip text) :
        item.value = flagValue.toList ∨ item.value ⊆ c :: text :=
      (value_of_mem_itemsFrom h).imp_right (List.subset_cons_of_subset c)
    unfold itemsFrom at h
    split at h
    · exact hrest h
    · split at h
      · rename_i hitem
        rcases List.mem_cons.mp h with rfl | h
        · exact value_of_readItem hitem
        · exact hrest h
      · exact hrest h

/-! ## Attributes of a directive -/

theorem value_of_readAttributes {text : List Char} {key v : String}
    (h : (readAttributes text).get? key = some v) : v = flagValue ∨ v.toList ⊆ text := by
  unfold readAttributes at h
  rcases Table.get?_foldl_put Table.ascending_nil h with hnil | ⟨item, hitem, rfl⟩
  · cases hnil
  · rcases value_of_mem_itemsFrom hitem with hflag | hvalue
    · left
      rw [hflag, String.ofList_toList]
    · right
      rwa [String.toList_ofList]

/-- What a directive gives to a key is the value of a flag, or it stands in the line. -/
theorem value_of_parse {line : List Char} {leaf : Leaf} {key v : String}
    (h : Leaf.parse line = some leaf) (hv : leaf.args.get? key = some v) :
    v = flagValue ∨ v.toList ⊆ line := by
  obtain ⟨w, ⟨before, after, -, -, rfl⟩, rfl⟩ := parse_eq_some_iff.mp h
  refine (value_of_readAttributes hv).imp_right fun hvalue => ?_
  exact fun c hc => List.mem_append_left _ (List.mem_append_right _ (w.attributes_subset (hvalue hc)))

/-! ## Options of a request -/

/-- Each option is set to the value of the attribute with its name, if there is one. -/
theorem option?_applyOptions (args : Arguments) (r : Request) (o : AutodocOption) :
    (applyOptions args r).option? o = ((args.get? o.name).map normalizeValue).or (r.option? o) := by
  unfold applyOptions
  generalize hset : (fun (r : Request) (o : AutodocOption) => _) = set
  -- Setting one option changes this option only, so of all the settings one matters.
  have hstep (r : Request) (p : AutodocOption) : (set r p).option? o =
      if o = p then ((args.get? p.name).map normalizeValue).or (r.option? o) else r.option? o := by
    subst hset
    dsimp only
    cases args.get? p.name with
    | none => simp
    | some raw => simp
  simp only [AutodocOption.all, List.foldl_cons, List.foldl_nil, hstep]
  cases o <;> simp

theorem moduleName_applyOptions (args : Arguments) (r : Request) :
    (applyOptions args r).moduleName = r.moduleName := by
  have hset (r : Request) (o : AutodocOption) (raw : String) :
      (r.setOption o raw).moduleName = r.moduleName := by
    cases o <;> rfl
  unfold applyOptions
  induction AutodocOption.all generalizing r with
  | nil => rfl
  | cons o os ih =>
    rw [List.foldl_cons, ih]
    split
    · exact hset r o _
    · rfl

/-- A request is made of a dotted path and of the attributes with the names of options. -/
theorem option?_requestOf {args : Arguments} {r : Request} (h : requestOf args = .ok r) :
    IsDotted r.moduleName.toList ∧ ∀ o, r.option? o = (args.get? o.name).map normalizeValue := by
  unfold requestOf at h
  split at h
  · cases h
  · split at h
    · rename_i hpath
      cases h
      refine ⟨?_, fun o => ?_⟩
      · rw [moduleName_applyOptions]
        exact isModulePath_iff.mp hpath
      · have hbare : ({ moduleName := args.content } : Request).option? o = none := by
          cases o <;> rfl
        rw [option?_applyOptions, hbare, Option.or_none]
    · cases h

theorem moduleName_requestOf {args : Arguments} {r : Request} (h : requestOf args = .ok r) :
    r.moduleName = args.content := by
  unfold requestOf at h
  split at h
  · cases h
  · split at h
    · cases h
      exact moduleName_applyOptions args _
    · cases h

/-! ## Requests without line feeds -/

/-- Every character of a dotted path stands in identifiers, or it is a dot. -/
theorem IsDotted.isIdentifierChar {text : List Char} (h : IsDotted text) :
    ∀ c ∈ text, isIdentifierChar c = true ∨ c = '.' := by
  have hidentifier {name : List Char} (hname : IsIdentifier name) :
      ∀ c ∈ name, Directive.isIdentifierChar c = true := by
    obtain ⟨d, rest, rfl, hd, hrest⟩ := hname
    intro c hc
    rcases List.mem_cons.mp hc with rfl | hc
    · unfold isIdentifierStart at hd
      unfold Directive.isIdentifierChar Char.isAlphanum
      rcases Bool.or_eq_true_iff.mp hd with hd | hd <;> simp [hd]
    · exact hrest c hc
  induction h with
  | identifier hname => exact fun c hc => Or.inl (hidentifier hname c hc)
  | dot hname _ ih =>
    intro c hc
    rcases List.mem_append.mp hc with hc | hc
    · exact Or.inl (hidentifier hname c hc)
    · rcases List.mem_cons.mp hc with hdot | hc
      · exact Or.inr hdot
      · exact ih c hc

/-- What a directive on a line asks for has only characters of the line in its option values. -/
theorem value_of_requestOf {line : List Char} {leaf : Leaf} {r : Request} {o : AutodocOption}
    {v : String} (hleaf : Leaf.parse line = some leaf) (hrequest : requestOf leaf.args = .ok r)
    (hv : r.option? o = some v) : v.toList ⊆ line := by
  rw [(option?_requestOf hrequest).2, Option.map_eq_some_iff] at hv
  obtain ⟨raw, hraw, rfl⟩ := hv
  unfold normalizeValue
  split
  · exact List.nil_subset _
  · rename_i hflag
    exact (value_of_parse hleaf hraw).resolve_left hflag

end Directive

end DocWeave

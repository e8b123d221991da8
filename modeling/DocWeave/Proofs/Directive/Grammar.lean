import DocWeave.Proofs.Directive.Groups
import DocWeave.Proofs.Text.Lines

/-!
# The grammar of leaf directives

A line holds a leaf directive if it is written in one way: two colons, a name, a group in brackets and a
group in braces, each of which may be missing, with white space around the whole.

- `exists_trim`, `trim_of_ends`: a text between white space.
- `Written`: the parts of a directive, as they may be written.
- `Written.On`: a directive written on a line.
- `parse_eq_some_iff`: which lines hold which directives.
-/

namespace DocWeave

namespace Text

theorem dropWhile_eq_self {p : Char → Bool} {s : List Char} (h : ∀ c ∈ s.head?, p c = false) :
    s.dropWhile p = s := by
  cases s with
  | nil => rfl
  | cons c s => rw [List.dropWhile_cons, h c rfl, if_neg Bool.false_ne_true]

/-- A text is what is left of it without the white space at its ends, between white space. -/
theorem exists_trim (s : List Char) : ∃ before after, (∀ c ∈ before, isBlank c = true) ∧
    (∀ c ∈ after, isBlank c = true) ∧ s = before ++ trim s ++ after := by
  have hend (t : List Char) : t = trimEnd t ++ (t.reverse.takeWhile isBlank).reverse := by
    rw [trimEnd, ← List.reverse_append, List.takeWhile_append_dropWhile, List.reverse_reverse]
  refine ⟨s.takeWhile isBlank, ((trimStart s).reverse.takeWhile isBlank).reverse,
    fun c hc => List.mem_takeWhile_imp hc,
    fun c hc => List.mem_takeWhile_imp (List.mem_reverse.mp hc), ?_⟩
  rw [trim, List.append_assoc, ← hend (trimStart s)]
  exact List.takeWhile_append_dropWhile.symm

/-- Only the white space around a text is taken away. -/
theorem trim_of_ends {before text after : List Char} (hbefore : ∀ c ∈ before, isBlank c = true)
    (hafter : ∀ c ∈ after, isBlank c = true) (hfirst : ∀ c ∈ text.head?, isBlank c = false)
    (hlast : ∀ c ∈ text.getLast?, isBlank c = false) : trim (before ++ text ++ after) = text := by
  have hend : text.reverse.dropWhile isBlank = text.reverse :=
    dropWhile_eq_self (by rwa [List.head?_reverse])
  rw [trim_append_of_blank hafter, trim, trimStart, List.dropWhile_append_of_pos hbefore,
    dropWhile_eq_self hfirst, trimEnd, hend, List.reverse_reverse]

end Text

namespace Directive

/-! ## Names -/

theorem isNameChar_of_isBlank {c : Char} (h : Text.isBlank c = true) : isNameChar c = false := by
  -- there are few blank characters, and each of them is looked up
  have hall : ∀ r ∈ Text.blankRanges, ∀ k < r.2 - r.1 + 1,
      isNameChar (Char.ofNat (r.1 + k)) = false := by decide +kernel
  obtain ⟨r, hr, hlow, hhigh⟩ := Text.inRanges_iff.mp h
  have hc := hall r hr (c.toNat - r.1) (by omega)
  rwa [Nat.add_sub_cancel' hlow, Char.ofNat_toNat] at hc

theorem isBlank_of_isNameChar {c : Char} (h : isNameChar c = true) : Text.isBlank c = false := by
  by_contra hblank
  rw [isNameChar_of_isBlank ((Bool.not_eq_false _).mp hblank)] at h
  cases h

/-- No character of a name ends it. -/
theorem endsName_of_isNameChar {c : Char} (h : isNameChar c = true) : endsName c = false := by
  have hdelimiters : isNameChar '[' = false ∧ isNameChar '\x7b' = false := by decide
  unfold endsName
  rw [isBlank_of_isNameChar h, Bool.or_false, Bool.or_eq_false_iff, decide_eq_false_iff_not,
    decide_eq_false_iff_not]
  constructor
  · rintro rfl
    cases hdelimiters.1.symm.trans h
  · rintro rfl
    cases hdelimiters.2.symm.trans h

/-! ## Directives as they are written -/

/-- The parts of a leaf directive. -/
@[ext]
structure Written where
  /-- What follows the colons. -/
  name : List Char
  /-- What the brackets hold, if there are any. -/
  content? : Option (List Char)
  /-- What the braces hold, if there are any. -/
  attributes? : Option (List Char)
  name_ne_nil : name ≠ []
  isNameChar_of_mem : ∀ c ∈ name, isNameChar c = true
  content_balanced : ∀ s ∈ content?, Balanced '[' ']' s
  attributes_balanced : ∀ s ∈ attributes?, Balanced '\x7b' '\x7d' s

namespace Written

/-- The brackets and the braces. -/
def groups (w : Written) : List Char :=
  groupText '[' ']' w.content? ++ groupText '\x7b' '\x7d' w.attributes?

/-- How the directive is written. -/
def text (w : Written) : List Char :=
  ':' :: ':' :: (w.name ++ w.groups)

/-- The directive with the arguments that its groups give. A missing group is as good as an empty
one. -/
def leaf (w : Written) : Leaf :=
  ⟨String.ofList w.name, .parse (w.content?.getD []) (w.attributes?.getD [])⟩

/-- The directive stands on a line, with nothing but white space around it. -/
def On (w : Written) (line : List Char) : Prop :=
  ∃ before after, (∀ c ∈ before, Text.isBlank c = true) ∧ (∀ c ∈ after, Text.isBlank c = true) ∧
    line = before ++ w.text ++ after

theorem head?_text (w : Written) : w.text.head? = some ':' := rfl

/-- What the braces hold is written in them. -/
theorem attributes_subset (w : Written) : w.attributes?.getD [] ⊆ w.text := by
  unfold text groups
  cases w.attributes? with
  | none => exact List.nil_subset _
  | some inner =>
    intro c (hc : c ∈ inner)
    simp [groupText, hc]

/-- The name ends where the first group begins. -/
theorem endsName_head? (w : Written) : ∀ c ∈ w.groups.head?, endsName c = true := by
  rw [groups, List.head?_append, head?_groupText, head?_groupText]
  cases w.content? with
  | some _ =>
    rintro c ⟨⟩
    show endsName '[' = true
    decide
  | none =>
    cases w.attributes? with
    | some _ =>
      rintro c ⟨⟩
      show endsName '\x7b' = true
      decide
    | none => nofun

/-- A directive ends with a delimiter or with its name. -/
theorem isBlank_getLast? (w : Written) : ∀ c ∈ w.text.getLast?, Text.isBlank c = false := by
  have hname : w.name.getLast? = some (w.name.getLast w.name_ne_nil) := List.getLast?_eq_some_getLast _
  show ∀ c ∈ ([':', ':'] ++ (w.name ++ w.groups)).getLast?, Text.isBlank c = false
  rw [List.getLast?_append, List.getLast?_append, groups, List.getLast?_append, getLast?_groupText,
    getLast?_groupText, hname]
  cases w.attributes? with
  | some _ =>
    rintro c ⟨⟩
    show Text.isBlank '\x7d' = false
    decide
  | none =>
    cases w.content? with
    | some _ =>
      rintro c ⟨⟩
      show Text.isBlank ']' = false
      decide
    | none =>
      rintro c ⟨⟩
      exact isBlank_of_isNameChar (w.isNameChar_of_mem _ (List.getLast_mem w.name_ne_nil))

/-- What is left of its line without the white space around it. -/
theorem trim_of_on {w : Written} {line : List Char} (h : w.On line) : Text.trim line = w.text := by
  obtain ⟨before, after, hbefore, hafter, rfl⟩ := h
  refine Text.trim_of_ends hbefore hafter ?_ w.isBlank_getLast?
  rw [head?_text]
  rintro c ⟨⟩
  decide

theorem on_iff {w : Written} {line : List Char} : w.On line ↔ Text.trim line = w.text := by
  refine ⟨trim_of_on, fun h => ?_⟩
  obtain ⟨before, after, hbefore, hafter, hline⟩ := Text.exists_trim line
  rw [h] at hline
  exact ⟨before, after, hbefore, hafter, hline⟩

/-! ## Reading what is written -/

theorem takeWhile_name (w : Written) : (w.name ++ w.groups).takeWhile (!endsName ·) = w.name := by
  have hname : ∀ c ∈ w.name, (!endsName c) = true := fun c hc => by
    rw [endsName_of_isNameChar (w.isNameChar_of_mem c hc), Bool.not_false]
  rw [List.takeWhile_append_of_pos hname]
  cases hgroups : w.groups with
  | nil => simp
  | cons c rest =>
    have hc : endsName c = true := w.endsName_head? c (by rw [hgroups]; rfl)
    rw [List.takeWhile_cons, hc, Bool.not_true, if_neg Bool.false_ne_true, List.append_nil]

theorem dropWhile_name (w : Written) : (w.name ++ w.groups).dropWhile (!endsName ·) = w.groups := by
  have happend := List.takeWhile_append_dropWhile (p := (!endsName ·)) (l := w.name ++ w.groups)
  rw [takeWhile_name] at happend
  exact List.append_cancel_left happend

theorem readGroup_content (w : Written) : readGroup '[' ']' w.groups =
    some (w.content?.getD [], groupText '\x7b' '\x7d' w.attributes?) := by
  refine readGroup_groupText (by decide) w.content_balanced ?_
  rw [head?_groupText]
  cases w.attributes? with
  | none => nofun
  | some _ =>
    rintro c ⟨⟩
    show '\x7b' ≠ '['
    decide

theorem readGroup_attributes (w : Written) :
    readGroup '\x7b' '\x7d' (groupText '\x7b' '\x7d' w.attributes?) =
      some (w.attributes?.getD [], []) := by
  have hread := @readGroup_groupText _ _ (by decide) w.attributes? w.attributes_balanced [] nofun
  rwa [List.append_nil] at hread

/-- What is written is read. -/
theorem parseAfterColons_name (w : Written) :
    Leaf.parseAfterColons (w.name ++ w.groups) = some w.leaf := by
  have hname : (w.name.isEmpty || !w.name.all isNameChar) = false := by
    rw [List.isEmpty_eq_false_iff.mpr w.name_ne_nil, List.all_eq_true.mpr w.isNameChar_of_mem]
    rfl
  unfold Leaf.parseAfterColons
  dsimp only
  rw [takeWhile_name, dropWhile_name, hname, readGroup_content]
  dsimp only
  rw [readGroup_attributes]
  rfl

/-- There is one way only to write a text as a directive. -/
theorem text_injective : Function.Injective text := by
  intro w v h
  -- reading the text again gives the name and what the groups hold, and whether a group is there at all
  -- is then seen from its text
  have hafter : w.name ++ w.groups = v.name ++ v.groups := (List.cons.inj (List.cons.inj h).2).2
  have hname : w.name = v.name := by rw [← takeWhile_name w, hafter, takeWhile_name]
  have hgroups : w.groups = v.groups := by rw [← dropWhile_name w, hafter, dropWhile_name]
  have hread := w.readGroup_content
  rw [hgroups, readGroup_content] at hread
  have hattributes : groupText '\x7b' '\x7d' w.attributes? = groupText '\x7b' '\x7d' v.attributes? :=
    (Prod.mk.inj (Option.some.inj hread)).2.symm
  have hcontent : groupText '[' ']' w.content? = groupText '[' ']' v.content? := by
    unfold groups at hgroups
    rw [hattributes] at hgroups
    exact List.append_cancel_right hgroups
  exact Written.ext hname (groupText_injective hcontent) (groupText_injective hattributes)

end Written

/-- What is read after the colons is written there, in front of white space. -/
theorem exists_written {s : List Char} {leaf : Leaf} (h : Leaf.parseAfterColons s = some leaf) :
    ∃ (w : Written) (rest : List Char), (∀ c ∈ rest, Text.isBlank c = true) ∧
      s = w.name ++ w.groups ++ rest ∧ leaf = w.leaf := by
  unfold Leaf.parseAfterColons at h
  dsimp only at h
  split at h
  · cases h
  · rename_i hname
    rw [Bool.not_eq_true, Bool.or_eq_false_iff, Bool.not_eq_false', List.isEmpty_eq_false_iff,
      List.all_eq_true] at hname
    split at h
    · cases h
    · rename_i content afterContent hcontent
      split at h
      · cases h
      · rename_i attributes rest hattributes
        split at h
        · rename_i hrest
          cases h
          obtain ⟨content?, hgroups, rfl, hfirst⟩ := exists_groupText (by decide) hcontent
          obtain ⟨attributes?, rfl, rfl, hsecond⟩ := exists_groupText (by decide) hattributes
          refine ⟨⟨_, content?, attributes?, hname.1, hname.2, hfirst, hsecond⟩, rest,
            List.all_eq_true.mp hrest, ?_, rfl⟩
          rw [Written.groups, List.append_assoc, List.append_assoc, ← hgroups,
            List.takeWhile_append_dropWhile]
        · cases h

/-- A line holds a directive if it is written on it. -/
theorem parse_eq_some_iff {line : List Char} {leaf : Leaf} :
    Leaf.parse line = some leaf ↔ ∃ w : Written, w.On line ∧ leaf = w.leaf := by
  constructor
  · intro h
    unfold Leaf.parse at h
    split at h
    · rename_i s htrim
      obtain ⟨w, rest, hrest, rfl, rfl⟩ := exists_written h
      obtain ⟨before, after, hbefore, hafter, hline⟩ := Text.exists_trim line
      -- nothing is left after the groups of a line without white space at its end; it would do no harm
      refine ⟨w, ⟨before, rest ++ after, hbefore, List.forall_mem_append.mpr ⟨hrest, hafter⟩, ?_⟩, rfl⟩
      rw [hline, htrim, Written.text]
      simp only [List.append_assoc, List.cons_append]
    · cases h
  · rintro ⟨w, hline, rfl⟩
    have htrim : Text.trim line = ':' :: ':' :: (w.name ++ w.groups) := Written.trim_of_on hline
    unfold Leaf.parse
    rw [htrim]
    exact w.parseAfterColons_name

/-- **A line holds a leaf directive exactly if one is written on it.**

- What is left of the line without the white space around it is a directive as it may be written, and
  the arguments are those of its groups.
- The line may as well be said to be the directive between white space.
- There is one way only to take the line apart.
- The scans of brackets and of braces count what is open, never less than none. -/
theorem parse_iff_written (line : List Char) :
    (∀ leaf, Leaf.parse line = some leaf ↔ ∃ w : Written, Text.trim line = w.text ∧ leaf = w.leaf) ∧
    (∀ w : Written, Text.trim line = w.text ↔ w.On line) ∧
    (∀ w v : Written, w.On line → v.On line → w = v) ∧
    Counted '[' ']' ∧ Counted '\x7b' '\x7d' := by
  refine ⟨fun leaf => ?_, fun w => Written.on_iff.symm, fun w v hw hv => ?_, counted (by decide),
    counted (by decide)⟩
  · simp only [parse_eq_some_iff, Written.on_iff]
  · exact Written.text_injective ((Written.trim_of_on hw).symm.trans (Written.trim_of_on hv))

end Directive

end DocWeave

import DocWeave.Proofs.Node.Headings
import DocWeave.Proofs.Page.Nonce
import Mathlib.Data.List.TakeWhile

/-!
# Sections in place of comments

In a text between whose parts there are comments for places, the comments are replaced and nothing
else is. What replaces them does not look like a comment, whatever the documentation says.

- `readPlaceholder_digits`, `readPlaceholder_append`: the number of a place is read from its comment.
- `fillFrom_quiet`, `fillFrom_placeholder`: what becomes of other text, and of a comment.
- `occurrences_quiet`, `occurrences_placeholder`: how often a comment stands in a text.
- `quiet_write`: the section of a place looks like no comment.
-/

namespace DocWeave.Page

open Markdown (IsSign Starts Quiet Clean Allows quiet_cons quiet_nil quiet_tag quiet_of_not_mem clean_cons
  isDigit_of_mem_repr not_mem_headingTag)

variable {sign tag t y : List Char} {sections : List (List Char)} {i : Nat}

/-! ## Reading a comment -/

/-- The number that a comment holds is read from it. -/
theorem foldl_repr (i : Nat) :
    (Nat.repr i).toList.foldl (fun n c => n * 10 + (c.toNat - '0'.toNat)) 0 = i := by
  have hstep : (fun n (c : Char) => n * 10 + (c.toNat - '0'.toNat)) =
      fun n c => 10 * n + (c.toNat - '0'.toNat) := by
    funext n c
    rw [Nat.mul_comm]
  rw [hstep, ← Nat.ofDigitChars_eq_foldl, Nat.toList_repr, Nat.ofDigitChars_ten_toDigits]

/-- A comment is read whatever digits its number is written with, such as zeros in front. -/
theorem readPlaceholder_digits (tag : List Char) {number : List Char} (hne : number ≠ [])
    (hdigits : ∀ c ∈ number, c.isDigit) (z : List Char) :
    readPlaceholder tag (placeholderPrefix tag ++ number ++ "-->".toList ++ z) =
      some (number.foldl (fun n c => n * 10 + (c.toNat - '0'.toNat)) 0,
        (placeholderPrefix tag ++ number ++ "-->".toList).length) := by
  have hrun : (number ++ ("-->".toList ++ z)).takeWhile Char.isDigit = number := by
    rw [List.takeWhile_append_of_pos hdigits]
    exact List.append_nil _
  have hempty : number.isEmpty = false := List.isEmpty_eq_false_iff.mpr hne
  have hstop : "-->".toList.isPrefixOf ("-->".toList ++ z) = true :=
    List.isPrefixOf_iff_prefix.mpr (List.prefix_append _ z)
  unfold readPlaceholder
  rw [List.append_assoc, List.append_assoc,
    if_pos (List.isPrefixOf_iff_prefix.mpr (List.prefix_append _ _))]
  simp only [List.drop_left, hrun, hempty, hstop, List.length_append]
  rfl

theorem readPlaceholder_append (tag : List Char) (i : Nat) (z : List Char) :
    readPlaceholder tag (placeholder tag i ++ z) = some (i, (placeholder tag i).length) := by
  have hne : (Nat.repr i).toList ≠ [] := by
    rw [Nat.toList_repr]
    exact Nat.toDigits_ne_nil
  rw [placeholder, readPlaceholder_digits tag hne (fun c hc => isDigit_of_mem_repr hc), foldl_repr]

/-- What is read as a comment is one that is written with digits. -/
theorem exists_digits_of_readPlaceholder {text : List Char} {r : Nat × Nat}
    (hread : readPlaceholder tag text = some r) :
    ∃ number z, number ≠ [] ∧ (∀ c ∈ number, c.isDigit) ∧
      text = placeholderPrefix tag ++ number ++ "-->".toList ++ z := by
  unfold readPlaceholder at hread
  obtain ⟨hbegins, hread⟩ := Option.ite_none_right_eq_some.mp hread
  obtain ⟨hnumber, -⟩ := Option.ite_none_right_eq_some.mp hread
  obtain ⟨rest, rfl⟩ := List.isPrefixOf_iff_prefix.mp hbegins
  rw [List.drop_left, Bool.and_eq_true, Bool.not_eq_true', List.isEmpty_eq_false_iff] at hnumber
  obtain ⟨z, hz⟩ := List.isPrefixOf_iff_prefix.mp hnumber.2
  refine ⟨rest.takeWhile Char.isDigit, z, hnumber.1, fun c hc => List.mem_takeWhile_imp hc, ?_⟩
  rw [List.append_assoc, List.append_assoc, hz,
    List.prefix_iff_eq_append.mp (List.takeWhile_prefix Char.isDigit)]

/-- What is read as a comment starts with the sign of comments and a digit. -/
theorem starts_of_readPlaceholder {text : List Char} {r : Nat × Nat}
    (hread : readPlaceholder tag text = some r) : Starts (placeholderPrefix tag) text := by
  obtain ⟨number, z, hne, hdigits, rfl⟩ := exists_digits_of_readPlaceholder hread
  obtain ⟨d, number, rfl⟩ := List.exists_cons_of_ne_nil hne
  exact ⟨d, Markdown.isSignEnd_of_isDigit (hdigits d List.mem_cons_self), number ++ "-->".toList ++ z,
    by simp⟩

theorem starts_placeholder (tag : List Char) (i : Nat) :
    Starts (placeholderPrefix tag) (placeholder tag i) := by
  have hread := readPlaceholder_append tag i []
  rw [List.append_nil] at hread
  exact starts_of_readPlaceholder hread

/-- Behind its first character, a comment holds no angle bracket that opens. -/
theorem placeholder_eq_cons (h : IsSign (placeholderPrefix tag)) (i : Nat) :
    ∃ rest, placeholder tag i = '<' :: rest ∧ '<' ∉ rest := by
  obtain ⟨body, hbody, hplain⟩ := h.eq_cons
  refine ⟨body ++ (Nat.repr i).toList ++ "-->".toList, ?_, fun hmem => ?_⟩
  · rw [placeholder, hbody]
    rfl
  · rcases List.mem_append.mp hmem with hmem | hmem
    · rcases List.mem_append.mp hmem with hmem | hmem
      · exact absurd (hplain '<' hmem) (by decide)
      · exact absurd (isDigit_of_mem_repr hmem) (by decide)
    · exact absurd hmem (by decide)

/-- Comments with different numbers do not start alike. -/
theorem placeholder_start_iff {i j : Nat} {z : List Char} :
    placeholder tag j <+: placeholder tag i ++ z ↔ i = j := by
  constructor
  · rintro ⟨rest, hrest⟩
    have hread := readPlaceholder_append tag i z
    rw [← hrest, readPlaceholder_append] at hread
    exact (congrArg Prod.fst (Option.some_inj.mp hread)).symm
  · rintro rfl
    exact List.prefix_append _ z

/-! ## Filling a text -/

theorem sectionAt_eq_none {text : List Char} (h : ¬ Starts (placeholderPrefix tag) text) :
    sectionAt tag sections text = none := by
  unfold sectionAt
  rcases hread : readPlaceholder tag text with _ | r
  · rfl
  · exact absurd (starts_of_readPlaceholder hread) h

theorem mem_of_sectionAt {text content : List Char} {size : Nat}
    (h : sectionAt tag sections text = some (content, size)) : content ∈ sections := by
  unfold sectionAt at h
  split at h
  · cases h
  · obtain ⟨other, hget, hother⟩ := Option.map_eq_some_iff.mp h
    cases hother
    exact List.mem_of_getElem? hget

/-- Quiet text stays. -/
theorem fillFrom_quiet (ht : Quiet (placeholderPrefix tag) t) :
    fillFrom tag sections 0 (t ++ y) = t ++ fillFrom tag sections 0 y := by
  induction t with
  | nil => rfl
  | cons c t ih =>
    obtain ⟨hc, ht⟩ := quiet_cons.mp ht
    rw [List.cons_append, fillFrom, ← List.cons_append, sectionAt_eq_none (hc y), ih ht,
      List.cons_append]

theorem fillFrom_clean (ht : Clean (placeholderPrefix tag) t) : fillFrom tag sections 0 t = t := by
  induction t with
  | nil => rfl
  | cons c t ih =>
    obtain ⟨hc, ht⟩ := clean_cons.mp ht
    rw [fillFrom, sectionAt_eq_none hc, ih ht]

theorem fillFrom_skip : ∀ x : List Char,
    fillFrom tag sections x.length (x ++ y) = fillFrom tag sections 0 y
  | [] => rfl
  | _ :: x => fillFrom_skip x

/-- The comment of a place is replaced by its section. -/
theorem fillFrom_placeholder {content : List Char} (hi : sections[i]? = some content) :
    fillFrom tag sections 0 (placeholder tag i ++ y) = content ++ fillFrom tag sections 0 y := by
  have hsection : sectionAt tag sections (placeholder tag i ++ y) =
      some (content, (placeholder tag i).length) := by
    rw [sectionAt, readPlaceholder_append]
    dsimp only
    rw [hi]
    rfl
  rcases hcons : placeholder tag i with _ | ⟨c, rest⟩
  · cases hcons
  · rw [hcons] at hsection
    rw [List.cons_append, fillFrom, ← List.cons_append, hsection]
    show content ++ fillFrom tag sections rest.length (rest ++ y) = _
    rw [fillFrom_skip]

/-- What holds no angle bracket is in front of the filled text only if it was so before: each section
starts with one. -/
theorem prefix_of_prefix_fillFrom (hsections : ∀ x ∈ sections, x.head? = some '<') :
    ∀ {p html : List Char}, '<' ∉ p → p <+: fillFrom tag sections 0 html → p <+: html
  | [], html, _, _ => html.nil_prefix
  | _ :: _, [], _, hprefix => hprefix
  | x :: p, c :: html, hp, hprefix => by
    rw [List.mem_cons, not_or] at hp
    rw [fillFrom] at hprefix
    rcases hsection : sectionAt tag sections (c :: html) with _ | ⟨content, size⟩
    · rw [hsection] at hprefix
      obtain ⟨rfl, hrest⟩ := List.cons_prefix_cons.mp hprefix
      exact List.cons_prefix_cons.mpr ⟨rfl, prefix_of_prefix_fillFrom hsections hp.2 hrest⟩
    · rw [hsection] at hprefix
      have hhead := hsections content (mem_of_sectionAt hsection)
      obtain ⟨rest, rfl⟩ := List.head?_eq_some_iff.mp hhead
      exact absurd (List.cons_prefix_cons.mp hprefix).1.symm hp.1

/-- Filling makes no sign: neither the sections hold one, nor is one made where they meet other text. -/
theorem clean_fillFrom (h : IsSign sign) (hquiet : ∀ x ∈ sections, Quiet sign x)
    (hsections : ∀ x ∈ sections, x.head? = some '<') :
    ∀ (html : List Char) (skip : Nat), Clean sign (html.drop skip) →
      Clean sign (fillFrom tag sections skip html)
  | [], _, hhtml => by
    rw [List.drop_nil] at hhtml
    exact hhtml
  | _ :: html, skip + 1, hhtml => clean_fillFrom h hquiet hsections html skip hhtml
  | c :: html, 0, hhtml => by
    obtain ⟨hstarts, hrest⟩ := clean_cons.mp hhtml
    rw [fillFrom]
    rcases hsection : sectionAt tag sections (c :: html) with _ | ⟨content, size⟩
    · -- a sign that starts here would go on in what is left as it was
      have hfilled := clean_fillFrom h hquiet hsections html 0 hrest
      refine clean_cons.mpr ⟨fun hstarts' => hstarts ?_, hfilled⟩
      obtain ⟨d, hd, hprefix⟩ := hstarts'
      obtain ⟨body, rfl, hplain⟩ := h.eq_cons
      obtain ⟨rfl, hbody⟩ := List.cons_prefix_cons.mp hprefix
      have hbracket : '<' ∉ body ++ [d] := by
        rw [List.mem_append, List.mem_singleton, not_or]
        refine ⟨fun hmem => absurd (hplain '<' hmem) (by decide), ?_⟩
        rintro rfl
        exact absurd hd (by decide)
      exact ⟨d, hd, List.cons_prefix_cons.mpr
        ⟨rfl, prefix_of_prefix_fillFrom hsections hbracket hbody⟩⟩
    · have hbehind : Clean sign (html.drop (size - 1)) := fun y hy =>
        hrest y (hy.trans (List.drop_suffix _ _))
      have hfilled := clean_fillFrom h hquiet hsections html (size - 1) hbehind
      exact (hquiet content (mem_of_sectionAt hsection)).append_clean hfilled

/-! ## Comments in a text -/

variable {part : List Char}

/-- No comment starts in quiet text. -/
theorem occurrences_quiet (hpart : Starts sign part) (ht : Quiet sign t) :
    Text.occurrences part (t ++ y) = Text.occurrences part y := by
  induction t with
  | nil => rfl
  | cons c t ih =>
    obtain ⟨hc, ht⟩ := quiet_cons.mp ht
    have hbegins : ¬ part.isPrefixOf (c :: (t ++ y)) = true := fun h => by
      obtain ⟨d, hd, hstart⟩ := hpart
      exact hc y ⟨d, hd, hstart.trans (List.isPrefixOf_iff_prefix.mp h)⟩
    rw [List.cons_append, Text.occurrences, if_neg hbegins, Nat.zero_add, ih ht]

theorem occurrences_clean (hpart : Starts sign part) (ht : Clean sign t) :
    Text.occurrences part t = 0 := by
  obtain ⟨d, hd, hstart⟩ := hpart
  induction t with
  | nil =>
    refine if_neg fun hempty => ?_
    rw [List.isEmpty_iff.mp hempty, List.prefix_nil] at hstart
    cases List.append_eq_nil_iff.mp hstart |>.2
  | cons c t ih =>
    obtain ⟨hc, ht⟩ := clean_cons.mp ht
    have hbegins : ¬ part.isPrefixOf (c :: t) = true := fun h =>
      hc ⟨d, hd, hstart.trans (List.isPrefixOf_iff_prefix.mp h)⟩
    rw [Text.occurrences, if_neg hbegins, Nat.zero_add, ih ht]

theorem occurrences_placeholder (h : IsSign (placeholderPrefix tag)) (i j : Nat) :
    Text.occurrences (placeholder tag j) (placeholder tag i ++ y) =
      (if i = j then 1 else 0) + Text.occurrences (placeholder tag j) y := by
  have hstart : placeholder tag j <+: placeholder tag i ++ y ↔ i = j := placeholder_start_iff
  -- The comment itself starts a comment, and nothing in it does.
  obtain ⟨rest, hplaceholder, hrest⟩ := placeholder_eq_cons h i
  rw [hplaceholder] at hstart ⊢
  rw [List.cons_append, Text.occurrences, ← List.cons_append,
    occurrences_quiet (starts_placeholder tag j) (quiet_of_not_mem h hrest)]
  simp only [List.isPrefixOf_iff_prefix, hstart]

/-! ## Sections -/

/-- A start tag is quiet, where the sign allows headings of its depth. -/
theorem quiet_writeStart (h : IsSign sign) {label : Label}
    (hlabel : ∀ depth ∈ label.depth?, Allows sign depth.toNat) (id : Option String) :
    Quiet sign (Node.writeStart label id) := by
  cases hdepth : label.depth? with
  | none =>
    obtain ⟨x, rest, htag, hx, hh, hrest⟩ := Label.tag_eq_cons hdepth
    rw [Node.writeStart, htag, List.cons_append, List.cons_append, List.cons_append, List.cons_append]
    refine quiet_tag h hx hh ?_
    rw [← List.cons_append, ← List.cons_append]
    simp only [List.mem_append, not_or]
    exact ⟨⟨hrest, not_mem_attributes label id⟩, by decide⟩
  | some depth =>
    cases label with
    | heading other =>
      cases hdepth
      obtain ⟨s, rest, hs, hrest, hstart⟩ := Node.writeStart_heading depth id
      rw [hstart]
      exact (hlabel depth rfl s hs).append (quiet_of_not_mem h hrest)
    | _ => cases hdepth

theorem quiet_writeEnd (h : IsSign sign) (label : Label) : Quiet sign (Node.writeEnd label) := by
  rw [Node.writeEnd]
  refine quiet_tag h (by decide) (by decide) ?_
  have htag := label.not_mem_tag
  simp [htag]

mutual

/-- No sign starts in a written node whose headings it allows. -/
theorem quiet_writeNode (h : IsSign sign) : ∀ n : Node,
    (∀ depth ∈ n.headings, Allows sign depth.toNat) → Quiet sign n.write
  | .text value, _ => by
    rw [Node.write]
    exact quiet_of_not_mem h (not_mem_escape value.toList)
  | .branch label id children, hn => by
    rw [Node.headings, List.forall_mem_append] at hn
    rw [Node.write]
    exact ((quiet_writeStart h (fun depth hdepth => hn.1 depth (Option.mem_toList.mpr hdepth))
      id).append (quiet_writeNodes h children hn.2)).append (quiet_writeEnd h label)

theorem quiet_writeNodes (h : IsSign sign) : ∀ ns : List Node,
    (∀ depth ∈ Node.headingsOfList ns, Allows sign depth.toNat) → Quiet sign (Node.writeList ns)
  | [], _ => by
    rw [Node.writeList]
    exact quiet_nil
  | n :: ns, hns => by
    rw [Node.headingsOfList, List.forall_mem_append] at hns
    rw [Node.writeList]
    exact (quiet_writeNode h n hns.1).append (quiet_writeNodes h ns hns.2)

end

/-- No sign starts in the section of a place whose headings it allows. -/
theorem quiet_write (h : IsSign sign) {place : Pending}
    (hplace : ∀ depth ∈ Node.headingsOfList place.children, Allows sign depth.toNat) :
    Quiet sign place.write := by
  have hname : Quiet sign (Html.escape place.request.moduleName.toList) :=
    quiet_of_not_mem h (not_mem_escape _)
  have hends {text : List Char} (htext : Markdown.opensTags text) : Quiet sign text :=
    Markdown.quiet_of_opensTags h htext
  exact ((((hends (by decide)).append hname).append (hends (by decide))).append
    (quiet_writeNodes h place.children hplace)).append (hends (by decide))

end DocWeave.Page

import DocWeave.Node.Html
import DocWeave.Proofs.Markdown.Sign

/-!
# Headings of written nodes

In what is written for a node, angle brackets that open stand in tags only: text and the values of
attributes are escaped. So the start tags can be found again in it, and those of headings say how deep
the headings of the node are.

- `not_mem_escape`, `not_mem_attributes`: what is escaped opens no tag.
- `Node.headings`: the depths of the headings in a node, in document order.
- `headingNames`: the names of the headings whose start tags stand in a text.
- `exists_tag_of_headingNameAt`, `exists_suffix_of_mem_headingNames`: where the names come from.
- `headingNames_write`: in a written node, they are those of the headings of the node.
-/

namespace DocWeave

open Markdown (isDigit_of_mem_repr not_mem_headingTag opensSign opensTags opensSign_of_opensTags)

/-! ## Angle brackets -/

theorem not_mem_escape (text : List Char) : '<' ∉ Html.escape text := by
  intro hmem
  obtain ⟨c, -, hc⟩ := List.mem_flatMap.mp hmem
  unfold Html.escapeChar at hc
  split at hc
  case h_6 hlt _ _ _ => exact hlt (List.mem_singleton.mp hc).symm
  all_goals exact absurd hc (by decide)

theorem not_mem_writeAttribute {name : String} (hname : '<' ∉ name.toList) (value : String) :
    '<' ∉ Html.writeAttribute name value := by
  have hvalue := not_mem_escape value.toList
  simp [Html.writeAttribute, hname, hvalue]

/-- No attribute opens a tag, whatever its value is. -/
theorem not_mem_attributes (label : Label) (id : Option String) :
    '<' ∉ (label.allAttributes id).flatMap fun a => Html.writeAttribute a.1 a.2 := by
  intro hmem
  obtain ⟨⟨name, value⟩, ha, hmem⟩ := List.mem_flatMap.mp hmem
  refine not_mem_writeAttribute ?_ value hmem
  -- The names of attributes are few: the id, and one that the label may add.
  rcases List.mem_append.mp ha with ha | ha
  · obtain ⟨_, -, ha⟩ := List.mem_map.mp ha
    cases ha
    show '<' ∉ "id".toList
    decide
  · cases label with
    | plain kind => cases ha
    | heading depth => cases ha
    | admonition kind =>
      cases List.mem_singleton.mp ha
      show '<' ∉ "class".toList
      decide
    | link url =>
      cases List.mem_singleton.mp ha
      show '<' ∉ "href".toList
      decide

/-! ## Headings -/

/-- The depth of a heading. -/
def Label.depth? : Label → Option UInt8
  | .heading depth => some depth
  | _ => none

namespace Node

mutual

/-- The depths of the headings in a node, in document order. -/
def headings : Node → List UInt8
  | .text _ => []
  | .branch label _ children => label.depth?.toList ++ headingsOfList children

/-- The depths of the headings in some nodes, in document order. -/
def headingsOfList : List Node → List UInt8
  | [] => []
  | n :: ns => n.headings ++ headingsOfList ns

end

theorem headingsOfList_append : ∀ ns ms : List Node,
    headingsOfList (ns ++ ms) = headingsOfList ns ++ headingsOfList ms
  | [], _ => rfl
  | n :: ns, ms => by
    rw [List.cons_append, headingsOfList, headingsOfList_append ns ms, headingsOfList,
      List.append_assoc]

end Node

/-! ## Start tags -/

/-- The name of an element opens no declaration; only that of a heading starts like one. -/
theorem Label.tag_eq_cons {label : Label} (h : label.depth? = none) :
    ∃ x rest, label.tag.toList = x :: rest ∧ x ≠ '!' ∧ x ≠ 'h' ∧ '<' ∉ x :: rest := by
  cases label with
  | plain kind => cases kind <;> exact ⟨_, _, rfl, by decide, by decide, by decide⟩
  | heading depth => cases h
  | admonition kind =>
    have htag : "aside".toList = 'a' :: "side".toList := rfl
    exact ⟨'a', _, htag, by decide, by decide, by decide⟩
  | link url =>
    have htag : "a".toList = ['a'] := rfl
    exact ⟨'a', _, htag, by decide, by decide, by decide⟩

theorem Label.not_mem_tag (label : Label) : '<' ∉ label.tag.toList := by
  cases hdepth : label.depth? with
  | none =>
    obtain ⟨x, rest, htag, -, -, hrest⟩ := Label.tag_eq_cons hdepth
    rwa [htag]
  | some depth =>
    cases label with
    | heading depth =>
      have htag : (Label.heading depth).tag.toList = 'h' :: (Nat.repr depth.toNat).toList :=
        String.toList_append
      rw [htag, List.mem_cons, not_or]
      exact ⟨by decide, fun hmem => absurd (isDigit_of_mem_repr hmem) (by decide)⟩
    | _ => cases hdepth

/-- The start tag of a heading: behind its number comes the end of the tag or a space. -/
theorem Node.writeStart_heading (depth : UInt8) (id : Option String) :
    ∃ s rest, (s = '>' ∨ s = ' ') ∧ '<' ∉ rest ∧ Node.writeStart (.heading depth) id =
      '<' :: 'h' :: (Nat.repr depth.toNat).toList ++ [s] ++ rest := by
  have htag : (Label.heading depth).tag.toList = 'h' :: (Nat.repr depth.toNat).toList :=
    String.toList_append
  have hattributes := not_mem_attributes (.heading depth) id
  rw [Node.writeStart, htag]
  cases id with
  | none => exact ⟨'>', [], Or.inl rfl, List.not_mem_nil, by simp [Label.allAttributes,
      Label.htmlAttributes]⟩
  | some value =>
    refine ⟨' ', "id".toList ++ '=' :: '"' :: Html.escape value.toList ++ ['"'] ++ ['>'], Or.inr rfl,
      ?_, by simp [Label.allAttributes, Label.htmlAttributes, Html.writeAttribute]⟩
    have hvalue := not_mem_escape value.toList
    simp [hvalue]

/-! ## Finding start tags of headings -/

/-- The name of the heading whose start tag begins a text. -/
def headingNameAt : List Char → Option String
  | '<' :: 'h' :: rest =>
    let number := rest.takeWhile Char.isDigit
    let ended := (rest.drop number.length).head?.any fun c => c = '>' || c = ' '
    if number.isEmpty || !ended then none else some ("h" ++ String.ofList number)
  | _ => none

/-- The names of the headings whose start tags stand in a text, in order. -/
def headingNames : List Char → List String
  | [] => []
  | c :: rest => (headingNameAt (c :: rest)).toList ++ headingNames rest

theorem headingNameAt_of_ne {c : Char} (hc : c ≠ '<') (rest : List Char) :
    headingNameAt (c :: rest) = none := by
  unfold headingNameAt
  split
  · rename_i heq
    exact absurd (List.cons_eq_cons.mp heq).1 hc
  · rfl

/-- The name of a heading starts with the letter for it. -/
theorem headingNameAt_other {x : Char} (hx : x ≠ 'h') (rest : List Char) :
    headingNameAt ('<' :: x :: rest) = none := by
  unfold headingNameAt
  split
  · rename_i heq
    exact absurd (List.cons_eq_cons.mp (List.cons_eq_cons.mp heq).2).1 hx
  · rfl

/-- The name of a heading is found at its start tag. -/
theorem headingNameAt_heading (level : Nat) {s : Char} (hs : s = '>' ∨ s = ' ') (rest : List Char) :
    headingNameAt ('<' :: 'h' :: (Nat.repr level).toList ++ [s] ++ rest) =
      some ("h" ++ Nat.repr level) := by
  have hdigit : s.isDigit = false := by rcases hs with rfl | rfl <;> rfl
  have hne : (Nat.repr level).toList.isEmpty = false := by
    rw [List.isEmpty_eq_false_iff, Nat.toList_repr]
    exact Nat.toDigits_ne_nil
  have hnumber : ((Nat.repr level).toList ++ s :: rest).takeWhile Char.isDigit =
      (Nat.repr level).toList := by
    rw [List.takeWhile_append_of_pos fun c hc => isDigit_of_mem_repr hc,
      List.takeWhile_cons_of_neg (by simp [hdigit]), List.append_nil]
  -- Behind the digits, the name has ended.
  have hends : (s = '>' || s = ' ') = true := by rcases hs with rfl | rfl <;> rfl
  rw [List.append_assoc, List.singleton_append, List.cons_append, List.cons_append]
  show (if _ then _ else _) = _
  rw [hnumber, List.drop_left, List.head?_cons, Option.any_some, hends, hne, String.ofList_toList]
  rfl

/-- What is found as the name of a heading stands in a start tag. -/
theorem exists_tag_of_headingNameAt {text : List Char} {name : String}
    (h : headingNameAt text = some name) :
    ∃ number s rest, number ≠ [] ∧ (∀ c ∈ number, c.isDigit) ∧ (s = '>' ∨ s = ' ') ∧
      name.toList = 'h' :: number ∧ text = '<' :: 'h' :: (number ++ s :: rest) := by
  unfold headingNameAt at h
  split at h
  · rename_i rest
    obtain ⟨hfits, hname⟩ := Option.ite_none_left_eq_some.mp h
    rw [Bool.or_eq_true, not_or, Bool.not_eq_true, List.isEmpty_eq_false_iff, Bool.not_eq_true',
      Bool.not_eq_false, Option.any_eq_true] at hfits
    -- behind the digits stands the end of the name
    obtain ⟨hne, s, hs, hends⟩ := hfits
    obtain ⟨after, hafter⟩ := List.head?_eq_some_iff.mp hs
    have hsplit := List.prefix_iff_eq_append.mp (List.takeWhile_prefix Char.isDigit (l := rest))
    rw [hafter] at hsplit
    rw [Bool.or_eq_true, decide_eq_true_eq, decide_eq_true_eq] at hends
    refine ⟨_, s, after, hne, List.all_eq_true.mp List.all_takeWhile, hends, ?_, ?_⟩
    · rw [← Option.some.inj hname, String.toList_append]
      exact congrArg (['h'] ++ ·) String.toList_ofList
    · rw [hsplit]
  · cases h

/-- The names that are found belong to start tags in the text. -/
theorem exists_suffix_of_mem_headingNames {text : List Char} {name : String}
    (h : name ∈ headingNames text) : ∃ y, y <:+ text ∧ headingNameAt y = some name := by
  induction text with
  | nil => cases h
  | cons c text ih =>
    rcases List.mem_append.mp h with hhere | hlater
    · exact ⟨c :: text, List.suffix_rfl, Option.mem_toList.mp hhere⟩
    · obtain ⟨y, hy, hname⟩ := ih hlater
      exact ⟨y, hy.trans (List.suffix_cons c text), hname⟩

/-- Text without angle brackets holds no tag. -/
theorem headingNames_append_of_not_mem : ∀ {a : List Char}, '<' ∉ a → ∀ b : List Char,
    headingNames (a ++ b) = headingNames b
  | [], _, _ => rfl
  | c :: a, ha, b => by
    rw [List.mem_cons, not_or] at ha
    rw [List.cons_append, headingNames, headingNameAt_of_ne (Ne.symm ha.1),
      headingNames_append_of_not_mem ha.2, Option.toList_none, List.nil_append]

/-- What goes on no sign is no tag of a heading. -/
theorem headingNameAt_of_not_opensSign {rest : List Char} (h : opensSign rest = false) :
    headingNameAt ('<' :: rest) = none := by
  -- The letter of headings opens a sign as well, unless no digit follows.
  by_cases hh : ∃ more, rest = 'h' :: more
  · obtain ⟨more, rfl⟩ := hh
    have hnumber : more.takeWhile Char.isDigit = [] := by
      cases more with
      | nil => rfl
      | cons d more => exact List.takeWhile_cons_of_neg (Bool.eq_false_iff.mp h)
    show (if _ then _ else _) = _
    rw [hnumber]
    rfl
  · cases rest with
    | nil => rfl
    | cons x more => exact headingNameAt_other (fun hx => hh ⟨more, by rw [hx]⟩) more

/-- Text that opens tags of other elements holds no tag of a heading. -/
theorem headingNames_append_of_opensTags : ∀ {a : List Char}, opensTags a → ∀ b : List Char,
    headingNames (a ++ b) = headingNames b
  | [], _, _ => rfl
  | c :: a, ha, b => by
    obtain ⟨-, hrest⟩ := Bool.and_eq_true_iff.mp ha
    rw [List.cons_append, headingNames, headingNames_append_of_opensTags hrest]
    by_cases hbracket : c = '<'
    · subst hbracket
      rw [headingNameAt_of_not_opensSign (opensSign_of_opensTags ha b)]
      rfl
    · rw [headingNameAt_of_ne hbracket]
      rfl

/-- In a tag, no other one starts. -/
theorem headingNames_tag {inside : List Char} (hinside : '<' ∉ inside) (b : List Char) :
    headingNames ('<' :: (inside ++ b)) =
      (headingNameAt ('<' :: (inside ++ b))).toList ++ headingNames b := by
  rw [headingNames, headingNames_append_of_not_mem hinside]

/-- In the start tag of a node, its own name is found if it is a heading, and no other one. -/
theorem headingNames_writeStart (label : Label) (id : Option String) (b : List Char) :
    headingNames (Node.writeStart label id ++ b) =
      (label.depth?.toList.map fun depth => (Label.heading depth).tag) ++ headingNames b := by
  cases hdepth : label.depth? with
  | none =>
    obtain ⟨x, rest, htag, -, hx, hrest⟩ := Label.tag_eq_cons hdepth
    have hstart : Node.writeStart label id ++ b = '<' :: (x :: (rest ++
        ((label.allAttributes id).flatMap fun a => Html.writeAttribute a.1 a.2) ++ ['>']) ++ b) := by
      simp [Node.writeStart, htag]
    have hinside : '<' ∉ x :: (rest ++
        ((label.allAttributes id).flatMap fun a => Html.writeAttribute a.1 a.2) ++ ['>']) := by
      rw [← List.cons_append, ← List.cons_append]
      simp only [List.mem_append, not_or]
      exact ⟨⟨hrest, not_mem_attributes label id⟩, by decide⟩
    rw [hstart, headingNames_tag hinside, List.cons_append, headingNameAt_other hx]
    rfl
  | some depth =>
    cases label with
    | heading other =>
      cases hdepth
      obtain ⟨s, rest, hs, hrest, hstart⟩ := Node.writeStart_heading depth id
      have hinside : '<' ∉ 'h' :: ((Nat.repr depth.toNat).toList ++ [s] ++ rest) := by
        rw [← List.cons_append, ← List.cons_append, List.mem_append, not_or]
        exact ⟨not_mem_headingTag hs, hrest⟩
      -- The tag of a heading has its name in front, and nothing in it opens another tag.
      have hname := headingNameAt_heading depth.toNat hs (rest ++ b)
      rw [← List.append_assoc] at hname
      rw [hstart]
      exact (headingNames_tag hinside b).trans
        (congrArg (fun name => Option.toList name ++ headingNames b) hname)
    | _ => cases hdepth

theorem headingNames_writeEnd (label : Label) (b : List Char) :
    headingNames (Node.writeEnd label ++ b) = headingNames b := by
  have hend : Node.writeEnd label ++ b = '<' :: ('/' :: (label.tag.toList ++ ['>']) ++ b) := by
    simp [Node.writeEnd]
  have hinside : '<' ∉ '/' :: (label.tag.toList ++ ['>']) := by
    have htag := label.not_mem_tag
    simp [htag]
  rw [hend, headingNames_tag hinside, List.cons_append, headingNameAt_other (by decide)]
  rfl

mutual

/-- The start tags of headings in a written node are those of its headings, in the same order. -/
theorem headingNames_write : ∀ (n : Node) (b : List Char), headingNames (n.write ++ b) =
    (n.headings.map fun depth => (Label.heading depth).tag) ++ headingNames b
  | .text value, b => by
    rw [Node.write, headingNames_append_of_not_mem (not_mem_escape _), Node.headings]
    rfl
  | .branch label id children, b => by
    rw [Node.write, List.append_assoc, List.append_assoc, headingNames_writeStart,
      headingNames_writeList children, headingNames_writeEnd, Node.headings, List.map_append,
      List.append_assoc]

theorem headingNames_writeList : ∀ (ns : List Node) (b : List Char),
    headingNames (Node.writeList ns ++ b) =
      ((Node.headingsOfList ns).map fun depth => (Label.heading depth).tag) ++ headingNames b
  | [], b => by
    rw [Node.writeList, Node.headingsOfList]
    rfl
  | n :: ns, b => by
    rw [Node.writeList, List.append_assoc, headingNames_write n, headingNames_writeList ns,
      Node.headingsOfList, List.map_append, List.append_assoc]

end

end DocWeave

import DocWeave.Proofs.Markdown.Lines
import DocWeave.Proofs.Markdown.Steps

/-!
# Looking ahead

A line may be read with regard to the lines below it, and some of these may be read with it. Neither
goes beyond an empty line, so what has been read up to an empty line does not depend on what comes
after it.

- `emptyLine`: a line without any characters.
- `Outlook.Stops`: an outlook does not go beyond an empty line.
- `Definition.read_before`: neither does the reader of definitions.
- `BlockState.step_before`, `BlockState.step_emptyLine`: neither does a step.
- `BlockState.run_append`: lines up to an empty one can be read apart from those after it.
-/

namespace DocWeave.Markdown

/-- A line without any characters. -/
def emptyLine : SourceLine :=
  .ofText []

/-! ## The line below -/

/-- Only the next line matters to whether a text starts an item. -/
theorem startsItem_congr (restricted : Bool) (text : List Char) {rest rest' : List SourceLine}
    (hhead : rest.head? = rest'.head?) :
    startsItem restricted text rest = startsItem restricted text rest' := by
  unfold startsItem
  rw [hhead]

namespace BlockState

variable {s : BlockState}

/-- So it is for the header of a table, which the next line underlines. -/
theorem tableAt_congr (text : List Char) {rest rest' : List SourceLine}
    (hhead : rest.head? = rest'.head?) : s.tableAt text rest = s.tableAt text rest' := by
  -- With equal heads, either both lists are empty or both start with the row that underlines.
  cases rest with
  | nil =>
    cases rest' with
    | nil => rfl
    | cons next' more' => cases hhead
  | cons next more =>
    cases rest' with
    | nil => cases hhead
    | cons next' more' =>
      cases hhead
      rfl

/-- Only the next line matters to whether a text ends the running text before it. -/
theorem endsText_congr (whole : Bool) (text beyond : List Char) {rest rest' : List SourceLine}
    (hhead : rest.head? = rest'.head?) :
    s.endsText whole text beyond rest = s.endsText whole text beyond rest' := by
  unfold endsText interrupts
  rw [startsItem_congr whole text hhead, tableAt_congr text hhead]

end BlockState

/-- The line after some lines is the empty one at the latest, whatever comes after that. -/
theorem head?_append_emptyLine (lines after : List SourceLine) :
    (lines ++ emptyLine :: after).head? = (lines ++ [emptyLine]).head? := by
  cases lines <;> rfl

/-! ## Definitions -/

/-- An outlook does not go beyond an empty line, and running text does not go on with one. -/
structure Outlook.Stops (look : Outlook) : Prop where
  ahead : ∀ lines after, look (lines ++ emptyLine :: after) = look (lines ++ [emptyLine])
  next : ∀ after, look.next? (emptyLine :: after) = none
  inside : ∀ after, (look (emptyLine :: after)).bind (·.inside?) = none

theorem solid_emptyLine : (Cursor.ofLine emptyLine.text).Solid :=
  ⟨rfl, nofun⟩

theorem BlockState.look_cons (s : BlockState) (line : SourceLine) (rest : List SourceLine) :
    s.look (line :: rest) =
      let place := advance (.ofLine line.text) s.frames.reverse
      let whole : Bool := place.1 = s.frames.length
      let start := place.2.skip 4
      some {
        goesOn := start.1 = 4 || !(s.endsText whole start.2.rest line.beyond rest ||
          (whole && (underlineLevel start.2.rest).isSome))
        glyphs := s.textGlyphs place.1 place.2 line
        inside? := if whole && !isBlankLine place.2.rest then some place.2.rest else none } := rfl

/-- An outlook shows the same of every empty line: no text goes on with it, and it holds nothing. -/
theorem BlockState.look_emptyLine (s : BlockState) (after : List SourceLine) :
    ∃ next, s.look (emptyLine :: after) = some next ∧ s.look [emptyLine] = some next ∧
      next.goesOn = false ∧ next.inside? = none := by
  have hplace := advance_of_solid solid_emptyLine nofun s.frames.reverse
  simp only [look_cons, hplace, solid_emptyLine.skip_eq]
  refine ⟨_, rfl, rfl, rfl, ?_⟩
  exact if_neg (by rw [Bool.and_eq_true_iff]; nofun)

/-- The outlook from a state does not go beyond an empty line. -/
theorem BlockState.stops_look (s : BlockState) : Outlook.Stops s.look := by
  refine ⟨fun lines after => ?_, fun after => ?_, fun after => ?_⟩
  · cases lines with
    | nil =>
      obtain ⟨next, hlook, hlook', -⟩ := s.look_emptyLine after
      exact hlook.trans hlook'.symm
    | cons line lines =>
      rw [List.cons_append, List.cons_append, look_cons, look_cons]
      dsimp only
      rw [endsText_congr _ _ _ (head?_append_emptyLine lines after)]
  · obtain ⟨next, hlook, -, hgoes, -⟩ := s.look_emptyLine after
    rw [Outlook.next?, hlook, Option.filter_some, hgoes]
    rfl
  · obtain ⟨next, hlook, -, -, hinside⟩ := s.look_emptyLine after
    rw [hlook, Option.bind_some, hinside]

/-- A place in lines that an empty line and others follow. -/
def DefinitionPlace.before (p : DefinitionPlace) (after : List SourceLine) : DefinitionPlace :=
  { p with rest := p.rest ++ emptyLine :: after }

/-- The number of lines that have been passed, or are left. -/
def DefinitionPlace.lines (p : DefinitionPlace) : Nat :=
  p.passed + p.rest.length

/-- What is read, with a place in the lines, does not depend on the lines after the empty one. The
number of lines passed or left is `n`. -/
def ReadsBefore {α : Type} (n : Nat) (f : List SourceLine → Option (α × DefinitionPlace)) : Prop :=
  ∃ o : Option (α × DefinitionPlace), (∀ x ∈ o, x.2.lines = n) ∧
    ∀ after, f after = o.map fun x => (x.1, x.2.before after)

namespace ReadsBefore

variable {α β : Type} {n : Nat} {f : List SourceLine → Option (α × DefinitionPlace)}

theorem none (hf : ∀ after, f after = .none) : ReadsBefore n f :=
  ⟨.none, nofun, hf⟩

theorem some {value : α} {p : DefinitionPlace} (hp : p.lines = n)
    (hf : ∀ after, f after = .some (value, p.before after)) : ReadsBefore n f :=
  ⟨.some (value, p), fun _ hx => (Option.mem_some_iff.mp hx) ▸ hp, hf⟩

theorem of_eq {f' : List SourceLine → Option (α × DefinitionPlace)} (hf : ReadsBefore n f)
    (heq : ∀ after, f' after = f after) : ReadsBefore n f' :=
  (funext heq : f' = f) ▸ hf

/-- What has been read may be changed. -/
theorem map (hf : ReadsBefore n f) (g : α → β) :
    ReadsBefore n fun after => (f after).map fun x => (g x.1, x.2) := by
  obtain ⟨o, hcount, ho⟩ := hf
  refine ⟨o.map fun x => (g x.1, x.2), fun x hx => ?_, fun after => ?_⟩
  · obtain ⟨y, hy, rfl⟩ := Option.map_eq_some_iff.mp hx
    exact hcount y hy
  · dsimp only
    rw [ho, Option.map_map, Option.map_map]
    rfl

/-- It may also be refused, with regard to the text behind it. -/
theorem filter (hf : ReadsBefore n f) (g : α × List Char → Bool) :
    ReadsBefore n fun after => (f after).filter fun x => g (x.1, x.2.text) := by
  obtain ⟨o, hcount, ho⟩ := hf
  refine ⟨o.filter fun x => g (x.1, x.2.text), fun x hx => ?_, fun after => ?_⟩
  · exact hcount x (Option.mem_filter_iff.mp hx).1
  · dsimp only
    rw [ho]
    cases o with
    | none => rfl
    | some x =>
      rw [Option.map_some, Option.filter_some, Option.filter_some]
      split
      · rw [if_pos (by assumption)]
        rfl
      · rw [if_neg (by assumption)]
        rfl

end ReadsBefore

section Definitions

variable {look : Outlook} (h : look.Stops)
include h

/-- Nor does the text of the next line depend on what comes after the empty one. -/
theorem Outlook.Stops.next_append (lines after : List SourceLine) :
    look.next? (lines ++ emptyLine :: after) = look.next? (lines ++ [emptyLine]) := by
  unfold Outlook.next?
  rw [h.ahead]

/-- A label is complete, is none, or goes on with the lines before the empty one. -/
theorem readDefinitionLabel_before (lines : List SourceLine) (passed : Nat) (r : LabelReader)
    (line : List Glyph) :
    ReadsBefore (passed + lines.length) fun after =>
      readDefinitionLabel look passed r line (lines ++ emptyLine :: after) := by
  -- Each line leaves the label open, completes it, or rules it out.
  induction lines generalizing passed r line with
  | nil =>
    -- An open label would go on with the empty line, which it cannot.
    rcases hrun : r.run line with r' | ⟨label, size⟩ | _
    · refine .none fun after => ?_
      rw [List.nil_append, readDefinitionLabel, hrun]
      simp only [h.next after]
    · refine @ReadsBefore.some _ _ _ label ⟨rawText (line.drop (size - r.size + 1)), [], passed⟩ rfl
        fun after => ?_
      rw [readDefinitionLabel, hrun]
      rfl
    · refine .none fun after => ?_
      rw [readDefinitionLabel, hrun]
  | cons first more ih =>
    rcases hrun : r.run line with r' | ⟨label, size⟩ | _
    · have hlook (after : List SourceLine) := h.next_append (first :: more) after
      rcases hnext : look.next? (first :: more ++ [emptyLine]) with _ | next
      · refine .none fun after => ?_
        specialize hlook after
        rw [List.cons_append] at hlook ⊢
        rw [readDefinitionLabel, hrun]
        simp only [hlook, hnext]
      · have hrest := ih (passed + 1) r' (⟨'\n', .content⟩ :: next.glyphs)
        rw [Nat.add_right_comm, Nat.add_assoc] at hrest
        refine hrest.of_eq fun after => ?_
        specialize hlook after
        rw [List.cons_append] at hlook ⊢
        rw [readDefinitionLabel, hrun]
        simp only [hlook, hnext]
    · refine @ReadsBefore.some _ _ _ label
        ⟨rawText (line.drop (size - r.size + 1)), first :: more, passed⟩
        rfl fun after => ?_
      rw [readDefinitionLabel, hrun]
      rfl
    · refine .none fun after => ?_
      rw [readDefinitionLabel, hrun]

/-- White space goes on with the next line, if that is not the empty one. -/
theorem DefinitionPlace.skipSpace_before (p : DefinitionPlace) :
    ∃ o : Option DefinitionPlace, (∀ x ∈ o, x.lines = p.lines) ∧
      ∀ after, (p.before after).skipSpace look = o.map (·.before after) := by
  obtain ⟨text, rest, passed⟩ := p
  by_cases htext : (text.dropWhile isSpaceChar).isEmpty
  · cases rest with
    | nil =>
      refine ⟨none, nofun, fun after => ?_⟩
      unfold DefinitionPlace.skipSpace DefinitionPlace.before
      simp only [htext, List.nil_append, h.next after]
      rfl
    | cons first more =>
      have hlook (after : List SourceLine) := h.next_append (first :: more) after
      rcases hnext : look.next? (first :: more ++ [emptyLine]) with _ | next
      · refine ⟨none, nofun, fun after => ?_⟩
        unfold DefinitionPlace.skipSpace DefinitionPlace.before
        simp only [htext, hlook after, hnext]
        rfl
      · by_cases hnext' : (next.text.dropWhile isSpaceChar).isEmpty
        · refine ⟨none, nofun, fun after => ?_⟩
          unfold DefinitionPlace.skipSpace DefinitionPlace.before
          simp only [htext, hlook after, hnext, hnext']
          rfl
        · refine ⟨some ⟨next.text.dropWhile isSpaceChar, more, passed + 1⟩, ?_, fun after => ?_⟩
          · rintro _ ⟨⟩
            show passed + 1 + more.length = passed + (more.length + 1)
            omega
          · unfold DefinitionPlace.skipSpace DefinitionPlace.before
            simp only [htext, hlook after, hnext, hnext']
            rfl
  · refine ⟨some ⟨text.dropWhile isSpaceChar, rest, passed⟩, ?_, fun after => ?_⟩
    · rintro _ ⟨⟩
      rfl
    · unfold DefinitionPlace.skipSpace DefinitionPlace.before
      simp only [htext]
      rfl

/-- A title is complete, is none, or goes on with the lines before the empty one. -/
theorem readTitleLines_before (closing : Char) (lines : List SourceLine) (passed : Nat)
    (text : List Char) :
    ReadsBefore (passed + lines.length) fun after =>
      readTitleLines look closing passed text (lines ++ emptyLine :: after) := by
  induction lines generalizing passed text with
  | nil =>
    rcases hread : readTitleLine closing 0 text with _ | ⟨title, _ | rest⟩
    · refine .none fun after => ?_
      rw [readTitleLines, hread]
    · refine .none fun after => ?_
      rw [List.nil_append, readTitleLines, hread]
      simp only [h.inside after]
    · refine @ReadsBefore.some _ _ _ title ⟨rest, [], passed⟩ rfl fun after => ?_
      rw [readTitleLines, hread]
      rfl
  | cons first more ih =>
    -- The title may end on this line; otherwise what `look` shows of the next one is the same as if
    -- nothing came after the empty line.
    rcases hread : readTitleLine closing 0 text with _ | ⟨title, _ | rest⟩
    · refine .none fun after => ?_
      rw [readTitleLines, hread]
    · have hlook (after : List SourceLine) := h.ahead (first :: more) after
      rcases hnext : (look (first :: more ++ [emptyLine])).bind (·.inside?) with _ | next
      · refine .none fun after => ?_
        specialize hlook after
        rw [List.cons_append] at hlook ⊢
        rw [readTitleLines, hread]
        simp only [hlook, hnext]
      · have hrest := (ih (passed + 1) next).map (title ++ '\n' :: ·)
        rw [Nat.add_right_comm, Nat.add_assoc] at hrest
        refine hrest.of_eq fun after => ?_
        specialize hlook after
        rw [List.cons_append] at hlook ⊢
        rw [readTitleLines, hread]
        simp only [hlook, hnext]
    · refine @ReadsBefore.some _ _ _ title ⟨rest, first :: more, passed⟩ rfl fun after => ?_
      rw [readTitleLines, hread]
      rfl

/-- So a title of any of the three kinds is read from the lines before the empty one. -/
theorem DefinitionPlace.readTitle_before (p : DefinitionPlace) :
    ReadsBefore p.lines fun after => (p.before after).readTitle look := by
  -- The three kinds of titles differ in the character that closes them.
  have htitled (closing : Char) (text : List Char) :=
    (readTitleLines_before h closing p.rest p.passed text).filter fun x => isBlankLine x.2
  obtain ⟨text, rest, passed⟩ := p
  unfold DefinitionPlace.readTitle DefinitionPlace.before
  rcases text with _ | ⟨c, text⟩
  · exact .none fun _ => rfl
  · by_cases hdouble : c = '"'
    · subst hdouble
      exact htitled '"' text
    · by_cases hsingle : c = '\''
      · subst hsingle
        exact htitled '\'' text
      · by_cases hround : c = '('
        · subst hround
          exact htitled ')' text
        · refine .none fun after => ?_
          dsimp only
          split
          · rename_i heq
            exact absurd (List.cons_eq_cons.mp heq).1 hdouble
          · rename_i heq
            exact absurd (List.cons_eq_cons.mp heq).1 hsingle
          · rename_i heq
            exact absurd (List.cons_eq_cons.mp heq).1 hround
          · rfl

/-- The target with a destination that ends at `place`. What is not white space begins at `start?`, and
`title?` is read there. -/
def targetBehind (destination : List Char) (place : DefinitionPlace) (start? : Option DefinitionPlace)
    (title? : Option (List Char × DefinitionPlace)) : Option (Target × Nat) :=
  match start? with
  | none => some (⟨unescape false destination, []⟩, place.passed)
  | some start =>
    if start.passed = place.passed && start.text.length = place.text.length then none
    else
      match title? with
      | some (title, last) => some (⟨unescape false destination, unescape false title⟩, last.passed)
      | none =>
        if place.passed < start.passed then some (⟨unescape false destination, []⟩, place.passed)
        else none

omit h in
/-- Behind a destination, a target goes on with white space and a title. -/
theorem DefinitionPlace.readTarget_of_destination {p q : DefinitionPlace} {destination : List Char}
    {size : Nat} (hskip : p.skipSpace look = some q)
    (hdestination : readDestination q.text = some (destination, size)) :
    p.readTarget look =
      if size = 0 then none
      else
        let place : DefinitionPlace := { q with text := q.text.drop size }
        targetBehind destination place (place.skipSpace look)
          ((place.skipSpace look).bind (·.readTitle look)) := by
  unfold DefinitionPlace.readTarget
  rw [hskip]
  show Option.bind (readDestination q.text) _ = _
  rw [hdestination]
  dsimp only [Option.bind_some]
  split
  · rfl
  · cases { q with text := q.text.drop size : DefinitionPlace }.skipSpace look <;> rfl

section

variable {place : DefinitionPlace} {start? : Option DefinitionPlace}
  {title? : Option (List Char × DefinitionPlace)}

omit h in
/-- Which target is read does not depend on the lines after the empty one either. -/
theorem targetBehind_before (destination : List Char) (after : List SourceLine) :
    targetBehind destination (place.before after) (start?.map (·.before after))
        (title?.map fun x => (x.1, x.2.before after)) =
      targetBehind destination place start? title? := by
  cases start? with
  | none => rfl
  | some start => cases title? <;> rfl

omit h in
/-- A target takes the lines up to its destination, or up to its title. -/
theorem targetBehind_passed {n : Nat} (hplace : place.passed ≤ n)
    (htitle : ∀ x ∈ title?, x.2.passed ≤ n) (destination : List Char) :
    ∀ x ∈ targetBehind destination place start? title?, x.2 ≤ n := by
  intro x hx
  unfold targetBehind at hx
  split at hx
  · cases hx
    exact hplace
  · split at hx
    · cases hx
    · split at hx
      · cases hx
        exact htitle _ rfl
      · split at hx
        · cases hx
          exact hplace
        · cases hx

end

/-- A title that is read behind white space is read from the lines before the empty one. -/
theorem readTitle_behind_before {n : Nat} {start? : Option DefinitionPlace}
    (hlines : ∀ x ∈ start?, x.lines = n) :
    ReadsBefore n fun after => (start?.map (·.before after)).bind (·.readTitle look) := by
  cases start? with
  | none => exact .none fun _ => rfl
  | some start =>
    obtain rfl := hlines start rfl
    exact start.readTitle_before h

/-- A target is read from the lines before the empty one. -/
theorem DefinitionPlace.readTarget_before (p : DefinitionPlace) :
    ∃ o : Option (Target × Nat), (∀ x ∈ o, x.2 ≤ p.lines) ∧
      ∀ after, (p.before after).readTarget look = o := by
  have hpassed {q : DefinitionPlace} (hq : q.lines = p.lines) : q.passed ≤ p.lines :=
    hq ▸ Nat.le_add_right _ _
  obtain ⟨o, hlines, ho⟩ := p.skipSpace_before h
  rcases o with _ | q
  · refine ⟨none, nofun, fun after => ?_⟩
    unfold DefinitionPlace.readTarget
    rw [ho]
    rfl
  · have hq := hlines q rfl
    have hskip (after : List SourceLine) : (p.before after).skipSpace look = some (q.before after) :=
      ho after
    rcases hdestination : readDestination q.text with _ | ⟨destination, size⟩
    · refine ⟨none, nofun, fun after => ?_⟩
      unfold DefinitionPlace.readTarget
      rw [hskip]
      show Option.bind (readDestination q.text) _ = none
      rw [hdestination]
      rfl
    · let place : DefinitionPlace := { q with text := q.text.drop size }
      obtain ⟨start?, hstarts, hstart⟩ := place.skipSpace_before h
      obtain ⟨title?, htitles, htitle⟩ := readTitle_behind_before h hstarts
      refine ⟨if size = 0 then none else targetBehind destination place start? title?,
        fun x hx => ?_, fun after => ?_⟩
      · have hplace : place.lines = p.lines := hq
        split at hx
        · cases hx
        · exact targetBehind_passed (hpassed hplace)
            (fun y hy => hpassed ((htitles y hy).trans hplace)) destination x hx
      · -- White space and title are read at the same place, with other lines after the empty one.
        have htitle' : ((start?.map (·.before after)).bind (·.readTitle look)) =
            title?.map fun x => (x.1, x.2.before after) := htitle after
        rw [DefinitionPlace.readTarget_of_destination (hskip after) hdestination]
        show (if size = 0 then none else targetBehind destination (place.before after)
          ((place.before after).skipSpace look)
          (((place.before after).skipSpace look).bind (·.readTitle look))) = _
        rw [hstart, htitle', targetBehind_before]

/-- A definition is read from the lines before the empty one. -/
theorem Definition.read_before (text : List Char) (lines : List SourceLine) :
    ∃ o : Option (Definition × Nat), (∀ x ∈ o, x.2 ≤ lines.length) ∧
      ∀ after, Definition.read look text (lines ++ emptyLine :: after) = o := by
  rcases text with _ | ⟨c, inner⟩
  · exact ⟨none, nofun, fun _ => rfl⟩
  · by_cases hc : c = '['
    · subst hc
      unfold Definition.read
      obtain ⟨o, hlines, ho⟩ := readDefinitionLabel_before h lines 0 {} (glyphs .content inner)
      simp only [ho]
      rcases o with _ | ⟨label, place⟩
      · exact ⟨none, nofun, fun _ => rfl⟩
      · have hplace : place.lines = 0 + lines.length := hlines _ rfl
        obtain ⟨text, rest, passed⟩ := place
        rcases text with _ | ⟨d, after⟩
        · exact ⟨none, nofun, fun _ => rfl⟩
        · by_cases hd : d = ':'
          · subst hd
            obtain ⟨o, hcount, htarget⟩ := DefinitionPlace.readTarget_before h ⟨after, rest, passed⟩
            refine ⟨o.map fun x => (⟨normalizeLabel label, x.1⟩, x.2), fun x hx => ?_, fun after' => ?_⟩
            · obtain ⟨y, hy, rfl⟩ := Option.map_eq_some_iff.mp hx
              exact (hcount y hy).trans (hplace.trans (Nat.zero_add _)).le
            · rw [← htarget after']
              rfl
          · refine ⟨none, nofun, fun after => ?_⟩
            dsimp only [Option.map_some, DefinitionPlace.before]
            split
            · rename_i heq
              exact absurd (List.cons_eq_cons.mp heq).1 hd
            · rfl
    · refine ⟨none, nofun, fun after => ?_⟩
      unfold Definition.read
      split
      · rename_i heq
        exact absurd (List.cons_eq_cons.mp heq).1 hc
      · rfl

end Definitions

/-! ## Steps -/

/-- A reading does not depend on the lines after the empty one, and takes no more than `n` lines. -/
def StaysBefore (n : Nat) (f : List SourceLine → BlockState × Nat) : Prop :=
  ∃ r : BlockState × Nat, r.2 ≤ n ∧ ∀ after, f after = r

/-- A reading that looks at no line below. -/
theorem StaysBefore.const {n k : Nat} (hk : k ≤ n) (s : BlockState) : StaysBefore n fun _ => (s, k) :=
  ⟨(s, k), hk, fun _ => rfl⟩

namespace BlockState

/-- An empty line underlines no header of a table. -/
theorem tableAt_emptyLine (s : BlockState) (text : List Char) (after : List SourceLine) :
    s.tableAt text (emptyLine :: after) = none := by
  have hplace := advance_of_solid solid_emptyLine nofun s.frames.reverse
  unfold tableAt advanceAll
  dsimp only
  rw [hplace]
  split
  · show tableColumns text [] = none
    unfold tableColumns
    cases headerWidth text <;> rfl
  · rfl

/-- A paragraph starts with one line, a table with two. -/
theorem startParagraph_before (s : BlockState) (task : Option Bool) (before : List Glyph)
    (text : List Char) (ending : LineEnd) (lines : List SourceLine) :
    StaysBefore lines.length fun after =>
      s.startParagraph task before text ending (lines ++ emptyLine :: after) := by
  have htable (after : List SourceLine) :
      s.tableAt text (lines ++ emptyLine :: after) = s.tableAt text (lines ++ [emptyLine]) :=
    tableAt_congr text (head?_append_emptyLine lines after)
  unfold startParagraph
  simp only [htable]
  split
  · rename_i columns hcolumns
    refine .const ?_ _
    -- The line that underlines the header is read with it, so there has to be one.
    cases lines with
    | nil =>
      rw [List.nil_append, tableAt_emptyLine, ite_self] at hcolumns
      cases hcolumns
    | cons line lines => exact Nat.le_add_left 1 _
  · exact .const (Nat.zero_le _) _

/-- A text starts with a definition, if it is one, and takes its lines with it. -/
theorem startText_before (s : BlockState) (before : List Glyph) (text : List Char) (ending : LineEnd)
    (lines : List SourceLine) :
    StaysBefore lines.length fun after =>
      s.startText before text ending (lines ++ emptyLine :: after) := by
  obtain ⟨o, hcount, ho⟩ := Definition.read_before s.stops_look text lines
  unfold startText
  simp only [ho]
  rcases o with _ | ⟨definition, k⟩
  · exact s.startParagraph_before none before text ending lines
  · exact .const (hcount _ rfl) _

/-- Of the blocks that a line can start, only running text looks at the lines below. -/
theorem startLeaf_before (s : BlockState) (c : Cursor) (line : SourceLine) {lines : List SourceLine}
    (hmore : line.more ≤ lines.length) :
    StaysBefore lines.length fun after => s.startLeaf c line (lines ++ emptyLine :: after) := by
  unfold startLeaf
  split
  · exact .const (Nat.zero_le _) _
  · extract_lets s'
    rcases c.skip 4 with ⟨indent, start⟩
    dsimp only
    split
    · exact .const hmore _
    · split
      · exact .const hmore _
      · split
        · exact .const (Nat.zero_le _) _
        · split
          · exact .const (Nat.zero_le _) _
          · split
            · exact .const hmore _
            · exact startText_before s' [] start.rest line.ending lines

/-- Containers are opened by the line itself, so only the block inside may look further. -/
theorem startLine_before (s : BlockState) (line : SourceLine) {lines : List SourceLine}
    (hmore : line.more ≤ lines.length) :
    StaysBefore lines.length fun after => s.startLine line (lines ++ emptyLine :: after) := by
  unfold startLine
  rcases advance (Cursor.ofLine line.text) s.frames.reverse with ⟨n, c⟩
  dsimp only
  rcases (s.closeFrames (s.frames.length - n)).openContainers line.ending c (line.text.length + 1) with
    ⟨s', _ | c' | ⟨checked, text⟩⟩
  · exact .const (Nat.zero_le _) _
  · exact startLeaf_before s' c' line hmore
  · exact startParagraph_before s' (some checked) [] text line.ending lines

/-- If a line goes on with the open block of text, then whatever comes after the empty line. -/
theorem continueLeaf_before (s : BlockState) (leaf : Leaf) (n : Nat) (c : Cursor) (line : SourceLine)
    {lines : List SourceLine} (hmore : line.more ≤ lines.length) :
    ∃ o : Option (BlockState × Nat), (∀ r ∈ o, r.2 ≤ lines.length) ∧
      ∀ after, s.continueLeaf leaf n c line (lines ++ emptyLine :: after) = o := by
  have hends (whole : Bool) (text : List Char) (after : List SourceLine) :
      s.endsText whole text line.beyond (lines ++ emptyLine :: after) =
        s.endsText whole text line.beyond (lines ++ [emptyLine]) :=
    endsText_congr whole text line.beyond (head?_append_emptyLine lines after)
  obtain ⟨started, hstarted, hstart⟩ := startText_before s
    ((s.textGlyphs n c line).takeWhile (!·.isContent)) c.skipAll.rest line.ending lines
  dsimp only at hstart
  refine ⟨s.continueLeaf leaf n c line (lines ++ [emptyLine]), fun r hr => ?_, fun after => ?_⟩
  · cases continueLeaf_eq_some hr with
    | underline | paragraph | table => exact Nat.zero_le _
    | definition =>
      rw [hstart]
      exact hstarted
    | fenced =>
      rcases s.continueFenced_cases _ _ _ c line with h | ⟨_, h⟩
      · rw [h]
        exact Nat.zero_le _
      · rw [h]
        exact hmore
    | indentedText | indentedBlank | html => exact hmore
  · -- Only running text looks at the lines below, for its end or as it starts.
    cases leaf with
    | paragraph task read before =>
      unfold continueLeaf continueParagraph
      simp only [hends]
    | definition =>
      unfold continueLeaf continueDefinition
      simp only [hends, hstart]
    | fenced fence info read => rfl
    | indented read blank => rfl
    | html stop read => rfl
    | table columns header rows => rfl

/-- A step does not look beyond an empty line, and takes no line with it that is not before it. -/
theorem step_before (s : BlockState) (line : SourceLine) {lines : List SourceLine}
    (hmore : line.more ≤ lines.length) :
    StaysBefore lines.length fun after => s.step line (lines ++ emptyLine :: after) := by
  unfold step
  rcases s.leaf with _ | leaf
  · exact s.startLine_before line hmore
  · rcases advance (Cursor.ofLine line.text) s.frames.reverse with ⟨n, c⟩
    obtain ⟨o, hcount, ho⟩ := s.continueLeaf_before leaf n c line hmore
    dsimp only
    simp only [ho]
    rcases o with _ | r
    · exact s.closeLeaf.startLine_before line hmore
    · exact ⟨r, hcount r rfl, fun _ => rfl⟩

/-- An empty line starts nothing. -/
theorem startLine_emptyLine (s : BlockState) :
    StaysBefore 0 fun after => s.startLine emptyLine after := by
  have hplace := advance_of_solid solid_emptyLine nofun s.frames.reverse
  unfold startLine
  dsimp only
  rw [hplace]
  have hopen (s : BlockState) : s.openContainers emptyLine.ending (Cursor.ofLine emptyLine.text)
      (emptyLine.text.length + 1) = (s, .block (Cursor.ofLine emptyLine.text)) := by
    unfold openContainers
    rw [solid_emptyLine.skip_eq]
    rfl
  rw [hopen]
  exact .const (Nat.le_refl 0) _

/-- If an empty line goes on with the open block of text, it does so by itself. -/
theorem continueLeaf_emptyLine (s : BlockState) (leaf : Leaf) (n : Nat) :
    ∃ o : Option (BlockState × Nat), (∀ r ∈ o, r.2 ≤ 0) ∧
      ∀ after, s.continueLeaf leaf n (Cursor.ofLine emptyLine.text) emptyLine after = o := by
  -- Only running text looks at the lines below, and an empty line ends it anyway.
  have hbefore := s.continueLeaf_before leaf n (Cursor.ofLine emptyLine.text) emptyLine
    (Nat.zero_le ([] : List SourceLine).length)
  cases leaf with
  | paragraph task read before =>
    refine ⟨none, nofun, fun after => ?_⟩
    show Option.map _
      (s.continueParagraph task read before n (Cursor.ofLine emptyLine.text) emptyLine after) = none
    unfold continueParagraph
    rw [solid_emptyLine.skip_eq, Option.map_eq_none_iff]
    dsimp only
    split
    · rename_i hlevel
      split at hlevel <;> cases hlevel
    · rfl
  | definition =>
    refine ⟨none, nofun, fun after => ?_⟩
    show s.continueDefinition n (Cursor.ofLine emptyLine.text) emptyLine after = none
    unfold continueDefinition
    rw [solid_emptyLine.skip_eq]
    rfl
  | fenced fence info read => exact hbefore
  | indented read blank => exact hbefore
  | html stop read => exact hbefore
  | table columns header rows => exact hbefore

/-- An empty line is read by itself. -/
theorem step_emptyLine (s : BlockState) : StaysBefore 0 fun after => s.step emptyLine after := by
  have hplace := advance_of_solid solid_emptyLine nofun s.frames.reverse
  unfold step
  rcases s.leaf with _ | leaf
  · exact s.startLine_emptyLine
  · dsimp only
    rw [hplace]
    obtain ⟨o, hcount, ho⟩ :=
      s.continueLeaf_emptyLine leaf (advance (Cursor.ofLine emptyLine.text) s.frames.reverse).1
    simp only [ho]
    rcases o with _ | r
    · exact s.closeLeaf.startLine_emptyLine
    · exact ⟨r, hcount r rfl, fun _ => rfl⟩

/-- Lines up to an empty one are read apart from the lines after it. -/
theorem run_before (lines : List SourceLine) (s : BlockState) {k : Nat} (hk : k ≤ lines.length)
    (hlines : Proper lines) :
    ∃ s', ∀ after, s.run k (lines ++ emptyLine :: after) = run s' 0 after := by
  induction lines generalizing s k with
  | nil =>
    obtain ⟨⟨s', j⟩, hj, hstep⟩ := s.step_emptyLine
    cases Nat.le_zero.mp hk
    cases Nat.le_zero.mp hj
    refine ⟨s', fun after => ?_⟩
    rw [List.nil_append, run]
    dsimp only at hstep ⊢
    rw [hstep]
  | cons line lines ih =>
    obtain ⟨hmore, -, hlines⟩ := hlines
    rcases k with _ | k
    · -- The step takes `j` more lines, which are still before the empty one.
      obtain ⟨⟨s', j⟩, hj, hstep⟩ := s.step_before line hmore
      obtain ⟨s'', hrun⟩ := ih s' hj hlines
      refine ⟨s'', fun after => ?_⟩
      rw [List.cons_append, run]
      dsimp only at hstep ⊢
      rw [hstep]
      exact hrun after
    · obtain ⟨s', hrun⟩ := ih s (Nat.le_of_succ_le_succ hk) hlines
      exact ⟨s', hrun⟩

/-- Reading lines up to an empty one leads to one state, from which the lines after it are read. -/
theorem run_append {lines : List SourceLine} (hlines : Proper lines) (s : BlockState)
    (after : List SourceLine) :
    s.run 0 (lines ++ emptyLine :: after) = run (s.run 0 (lines ++ [emptyLine])) 0 after := by
  obtain ⟨s', hrun⟩ := run_before lines s (Nat.zero_le _) hlines
  rw [hrun after, hrun [], run]

end BlockState

end DocWeave.Markdown

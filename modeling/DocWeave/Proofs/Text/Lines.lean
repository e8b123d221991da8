import DocWeave.Text.Parts
import Mathlib.Data.List.TakeWhile

/-!
# The lines of a text

A line goes up to its line feed, or to the end of the text if no line feed follows. This is said here
without cutting the text up, so that what is listed by `lines` has something to agree with.

- `LineAfter`: a line of a text, by what stands in front of it.
- `LineAt`: a line of a text, by its number.
- `AreLines`: lines in a row, as they stand in a text; `AreLines.lines_flatten`: joined, they are listed
  again.
- `lineAfter_iff`: in front of a line stand the lines that are listed before it.
- `lineAt_iff`: the lines with numbers are those that `lines` lists.
- `dropLineEnd_append`, `trim_dropLineEnd`: what is dropped at the end of a line is white space.
-/

namespace DocWeave.Text

/-- `raw` is a line of the text, with its line end, and `before` is all that stands in front of it. -/
structure LineAfter (text before raw : List Char) : Prop where
  /-- The line stands behind `before`. -/
  stands : before ++ raw <+: text
  /-- A line starts there. -/
  starts : before = [] ∨ before.getLast? = some '\n'
  /-- There is something in the line. -/
  nonempty : raw ≠ []
  /-- A line feed stands at the end, if anywhere. -/
  unbroken : '\n' ∉ raw.dropLast
  /-- The line goes as far as it can. -/
  ends : raw.getLast? = some '\n' ∨ before ++ raw = text

/-- `raw` is the line with number `n` of the text, counted from one. -/
def LineAt (text : List Char) (n : Nat) (raw : List Char) : Prop :=
  ∃ before, LineAfter text before raw ∧ before.count '\n' + 1 = n

/-! ## One character at a time -/

theorem lines_eq_nil {text : List Char} : lines text = [] ↔ text = [] := by
  constructor
  · intro h
    rw [← flatten_lines text, h]
    rfl
  · rintro rfl
    rfl

/-- A line feed in front of a text is a line of its own. -/
theorem lines_feed (text : List Char) : lines ('\n' :: text) = ['\n'] :: lines text := by
  rw [lines, if_pos rfl]

theorem lines_cons {c : Char} (hc : c ≠ '\n') {text line : List Char} {more : List (List Char)}
    (h : lines text = line :: more) : lines (c :: text) = (c :: line) :: more := by
  rw [lines, if_neg hc, h, consLine]

theorem lines_singleton {c : Char} (hc : c ≠ '\n') : lines [c] = [[c]] := by
  rw [lines, if_neg hc]
  rfl

/-! ## Runs of lines -/

/-- Lines as they stand in a text: each ends with its line feed, except perhaps the last one, and none
is empty. -/
inductive AreLines : List (List Char) → Prop where
  | nil : AreLines []
  | last {line : List Char} (hne : line ≠ []) (hline : '\n' ∉ line) : AreLines [line]
  | cons {line : List Char} {rest : List (List Char)} (hline : '\n' ∉ line) (hrest : AreLines rest) :
    AreLines ((line ++ ['\n']) :: rest)

/-- A character in front belongs to the first line, unless it is a line feed. -/
theorem AreLines.consLine {ls : List (List Char)} (h : AreLines ls) {c : Char} (hc : c ≠ '\n') :
    AreLines (consLine c ls) := by
  have hcons {line : List Char} (hline : '\n' ∉ line) : '\n' ∉ c :: line := by
    rw [List.mem_cons, not_or]
    exact ⟨Ne.symm hc, hline⟩
  cases h with
  | nil => exact .last (List.cons_ne_nil c []) (hcons List.not_mem_nil)
  | last _ hline => exact .last (List.cons_ne_nil c _) (hcons hline)
  | cons hline hrest => exact .cons (hcons hline) hrest

theorem areLines_lines (text : List Char) : AreLines (lines text) := by
  -- As the lines are made, from the end of the text.
  induction text with
  | nil => exact .nil
  | cons c text ih =>
    by_cases hc : c = '\n'
    · subst hc
      rw [lines_feed]
      exact .cons List.not_mem_nil ih
    · rw [lines, if_neg hc]
      exact ih.consLine hc

theorem lines_append_feed {line : List Char} (h : '\n' ∉ line) (rest : List Char) :
    lines (line ++ '\n' :: rest) = (line ++ ['\n']) :: lines rest := by
  induction line with
  | nil => exact lines_feed rest
  | cons c line ih =>
    rw [List.mem_cons, not_or] at h
    exact lines_cons (Ne.symm h.1) (ih h.2)

theorem lines_of_no_feed {line : List Char} (hne : line ≠ []) (h : '\n' ∉ line) :
    lines line = [line] := by
  induction line with
  | nil => exact absurd rfl hne
  | cons c line ih =>
    rw [List.mem_cons, not_or] at h
    rcases line with _ | ⟨d, line⟩
    · exact lines_singleton (Ne.symm h.1)
    · exact lines_cons (Ne.symm h.1) (ih (List.cons_ne_nil d line) h.2)

/-- Behind a line the rest of the text is cut up. -/
theorem lines_append_line {line : List Char} (hne : line ≠ []) (hline : '\n' ∉ line.dropLast)
    {rest : List Char} (hends : line.getLast? = some '\n' ∨ rest = []) :
    lines (line ++ rest) = line :: lines rest := by
  obtain ⟨body, c, rfl⟩ := (List.eq_nil_or_concat line).resolve_left hne
  rw [List.concat_eq_append] at hline hends hne ⊢
  rw [List.dropLast_concat] at hline
  by_cases hc : c = '\n'
  · subst hc
    rw [List.append_assoc, List.singleton_append, lines_append_feed hline]
  · have hrest : rest = [] := hends.resolve_left (by simpa using hc)
    have hnone : '\n' ∉ body ++ [c] := by
      rw [List.mem_append, List.mem_singleton, not_or]
      exact ⟨hline, Ne.symm hc⟩
    rw [hrest, List.append_nil, lines_of_no_feed hne hnone]
    rfl

/-- Behind a line feed a text can be cut. -/
theorem lines_append {front : List Char} (h : front = [] ∨ front.getLast? = some '\n')
    (rest : List Char) : lines (front ++ rest) = lines front ++ lines rest := by
  -- A first character that is no line feed belongs to a line of the front part.
  induction front with
  | nil => rfl
  | cons c front ih =>
    have hlast : (c :: front).getLast? = some '\n' := h.resolve_left nofun
    by_cases hfront : front = []
    · subst hfront
      obtain rfl : c = '\n' := Option.some.inj hlast
      exact lines_feed rest
    · obtain ⟨d, more, hcons⟩ := List.exists_cons_of_ne_nil hfront
      have hinner : front.getLast? = some '\n' := by
        rw [hcons] at hlast ⊢
        rwa [List.getLast?_cons_cons] at hlast
      specialize ih (Or.inr hinner)
      rw [List.cons_append]
      by_cases hc : c = '\n'
      · subst hc
        rw [lines_feed, lines_feed, ih]
        rfl
      · obtain ⟨line, ls, hlines⟩ := List.exists_cons_of_ne_nil (mt lines_eq_nil.mp hfront)
        rw [hlines] at ih
        rw [lines_cons hc ih, lines_cons hc hlines]
        rfl

/-- Joined, they are listed again. -/
theorem AreLines.lines_flatten {ls : List (List Char)} (h : AreLines ls) : lines ls.flatten = ls := by
  induction h with
  | nil => rfl
  | last hne hline =>
    rw [List.flatten_singleton]
    exact lines_of_no_feed hne hline
  | cons hline _ ih =>
    rw [List.flatten_cons, List.append_assoc, List.singleton_append, lines_append_feed hline, ih]

theorem AreLines.of_cons {line : List Char} {ls : List (List Char)} (h : AreLines (line :: ls)) :
    AreLines ls := by
  cases h with
  | last _ _ => exact .nil
  | cons _ hrest => exact hrest

/-- Each part of them is so, too. -/
theorem AreLines.of_append {ls more : List (List Char)} (h : AreLines (ls ++ more)) :
    AreLines ls ∧ AreLines more := by
  induction ls with
  | nil => exact ⟨.nil, h⟩
  | cons line ls ih =>
    rw [List.cons_append] at h
    generalize hrest : ls ++ more = rest at h ih
    cases h with
    | last hne hline =>
      obtain ⟨rfl, rfl⟩ := List.append_eq_nil_iff.mp hrest
      exact ⟨.last hne hline, .nil⟩
    | cons hline hrest =>
      obtain ⟨hls, hmore⟩ := ih hrest
      exact ⟨.cons hline hls, hmore⟩

/-- The first of them has no line feed but at its end, and one there unless it is the only one. -/
theorem AreLines.head {line : List Char} {ls : List (List Char)} (h : AreLines (line :: ls)) :
    line ≠ [] ∧ '\n' ∉ line.dropLast ∧ (line.getLast? = some '\n' ∨ ls = []) := by
  cases h with
  | last hne hline => exact ⟨hne, mt (line.dropLast_subset ·) hline, Or.inr rfl⟩
  | cons hline _ =>
    rw [List.dropLast_concat]
    exact ⟨by simp, hline, Or.inl List.getLast?_concat⟩

/-- Each that has another one behind it ends with its line feed. -/
theorem AreLines.before {ls after : List (List Char)} {line : List Char}
    (h : AreLines (ls ++ line :: after)) :
    ls.flatten.count '\n' = ls.length ∧ (ls.flatten = [] ∨ ls.flatten.getLast? = some '\n') := by
  induction ls with
  | nil => exact ⟨rfl, Or.inl rfl⟩
  | cons first ls ih =>
    rw [List.cons_append] at h
    generalize hrest : ls ++ line :: after = rest at h ih
    cases h with
    | last _ _ => simp at hrest
    | cons hfirst hrest =>
      obtain ⟨hcount, hlast⟩ := ih hrest
      rw [List.flatten_cons]
      refine ⟨?_, Or.inr ?_⟩
      · rw [List.count_append, List.count_append, List.count_eq_zero.mpr hfirst, hcount,
          List.count_singleton_self, List.length_cons]
        omega
      · rw [List.getLast?_append, List.getLast?_concat]
        rcases hlast with hnil | hfeed
        · rw [hnil]
          rfl
        · rw [hfeed]
          rfl

/-! ## The lines with numbers -/

/-- A line is listed, and what stands in front of it is made of the lines that are listed before. -/
theorem lineAfter_iff {text before raw : List Char} : LineAfter text before raw ↔
    ∃ ls after, lines text = ls ++ raw :: after ∧ ls.flatten = before := by
  constructor
  · rintro ⟨⟨rest, rfl⟩, hstarts, hne, hunbroken, hends⟩
    have hrest : raw.getLast? = some '\n' ∨ rest = [] := hends.imp_right fun heq => by simpa using heq
    refine ⟨lines before, lines rest, ?_, flatten_lines before⟩
    rw [List.append_assoc, lines_append hstarts, lines_append_line hne hunbroken hrest]
  · rintro ⟨ls, after, hlines, rfl⟩
    have hrun : AreLines (ls ++ raw :: after) := hlines ▸ areLines_lines text
    obtain ⟨hne, hunbroken, hends⟩ := hrun.of_append.2.head
    have htext : ls.flatten ++ raw ++ after.flatten = text := by
      rw [List.append_assoc, ← List.flatten_cons, ← List.flatten_append, ← hlines, flatten_lines]
    refine ⟨⟨after.flatten, htext⟩, hrun.before.2, hne, hunbroken, hends.imp_right ?_⟩
    rintro rfl
    rwa [List.flatten_nil, List.append_nil] at htext

/-- Each line that is listed stands behind the ones before it, each of which has a line feed. -/
theorem lineAfter_of_lines {text raw : List Char} {before after : List (List Char)}
    (h : lines text = before ++ raw :: after) :
    LineAfter text before.flatten raw ∧ before.flatten.count '\n' = before.length :=
  have hrun : AreLines (before ++ raw :: after) := h ▸ areLines_lines text
  ⟨lineAfter_iff.mpr ⟨before, after, h, rfl⟩, hrun.before.1⟩

/-- A line is listed behind as many others as there are line feeds in front of it. -/
theorem getElem?_lines_of_lineAfter {text before raw : List Char} (h : LineAfter text before raw) :
    (lines text)[before.count '\n']? = some raw := by
  obtain ⟨ls, after, hlines, rfl⟩ := lineAfter_iff.mp h
  have hrun : AreLines (ls ++ raw :: after) := hlines ▸ areLines_lines text
  rw [hrun.before.1, hlines, List.getElem?_append_right (Nat.le_refl _), Nat.sub_self,
    List.getElem?_cons_zero]

/-- The line with a number is the one that is listed there. -/
theorem lineAt_iff {text raw : List Char} {i : Nat} :
    LineAt text (i + 1) raw ↔ (lines text)[i]? = some raw := by
  constructor
  · rintro ⟨before, hline, hcount⟩
    obtain rfl : before.count '\n' = i := Nat.succ.inj hcount
    exact getElem?_lines_of_lineAfter hline
  · intro h
    obtain ⟨hi, rfl⟩ := List.getElem?_eq_some_iff.mp h
    have hsplit : lines text = (lines text).take i ++ (lines text)[i] :: (lines text).drop (i + 1) := by
      rw [List.getElem_cons_drop, List.take_append_drop]
    obtain ⟨hline, hcount⟩ := lineAfter_of_lines hsplit
    refine ⟨_, hline, ?_⟩
    rw [hcount, List.length_take, Nat.min_eq_left (Nat.le_of_lt hi)]

/-! ## Line ends -/

/-- Whether a text is made of line feeds and carriage returns. -/
def IsLineEnd (text : List Char) : Prop :=
  ∀ c ∈ text, c = '\n' ∨ c = '\r'

theorem IsLineEnd.blank {text : List Char} (h : IsLineEnd text) : ∀ c ∈ text, isBlank c = true := by
  intro c hc
  rcases h c hc with rfl | rfl <;> decide

/-- A line is what is kept of it and a line end. -/
theorem dropLineEnd_append (raw : List Char) :
    ∃ ending, IsLineEnd ending ∧ raw = dropLineEnd raw ++ ending := by
  refine ⟨(raw.reverse.takeWhile fun c => c = '\n' || c = '\r').reverse, ?_, ?_⟩
  · intro c hc
    have hend := List.mem_takeWhile_imp (List.mem_reverse.mp hc)
    rwa [Bool.or_eq_true, decide_eq_true_iff, decide_eq_true_iff] at hend
  · rw [dropLineEnd, ← List.reverse_append, List.takeWhile_append_dropWhile, List.reverse_reverse]

theorem dropWhile_blank_append {text ending : List Char} (h : ∀ c ∈ ending, isBlank c = true) :
    trimStart (text ++ ending) = if trimStart text = [] then [] else trimStart text ++ ending := by
  unfold trimStart
  simp only [List.dropWhile_append, List.isEmpty_iff, List.dropWhile_eq_nil_iff.mpr h]

/-- White space at the end of a text does not matter for what is left without any. -/
theorem trim_append_of_blank {text ending : List Char} (h : ∀ c ∈ ending, isBlank c = true) :
    trim (text ++ ending) = trim text := by
  unfold trim
  rw [dropWhile_blank_append h]
  split
  · rename_i hnil
    rw [hnil]
  · unfold trimEnd
    rw [List.reverse_append,
      List.dropWhile_append_of_pos fun c hc => h c (List.mem_reverse.mp hc)]

theorem trim_dropLineEnd (raw : List Char) : trim (dropLineEnd raw) = trim raw := by
  obtain ⟨ending, hending, hraw⟩ := dropLineEnd_append raw
  rw [congrArg trim hraw, trim_append_of_blank hending.blank]

end DocWeave.Text

import DocWeave.Proofs.Text.Lines

/-!
# Lines that end with carriage returns

The lines of a source are told apart by line feeds. Other programs end a line where a carriage return
stands as well, be it alone or with a line feed behind it.

- `universalLines`: the lines of a text if carriage returns end lines as well.
- `universalLines_append_feed`: what ends with a line feed is read apart from what follows.
- `length_universalLines`: a line is read as further lines, one for each carriage return inside.
- `universalLines_eq`: there are no other lines if all carriage returns stand in front of line feeds.
-/

namespace DocWeave.Text

/-- The lines of a text, without their ends: a line ends with a line feed, with a carriage return,
or with a carriage return that has a line feed behind it. -/
def universalLines : List Char → List (List Char)
  | [] => []
  | '\r' :: '\n' :: rest => [] :: universalLines rest
  | c :: rest =>
    if c = '\r' || c = '\n' then [] :: universalLines rest else consLine c (universalLines rest)

variable {c : Char} {line rest : List Char}

@[simp]
theorem universalLines_feed (rest : List Char) :
    universalLines ('\n' :: rest) = [] :: universalLines rest :=
  rfl

@[simp]
theorem universalLines_return_feed (rest : List Char) :
    universalLines ('\r' :: '\n' :: rest) = [] :: universalLines rest :=
  rfl

/-- What stands in front, unless it is a carriage return with a line feed behind it. -/
theorem universalLines_apart (h : c = '\r' → rest.head? ≠ some '\n') : universalLines (c :: rest) =
    if c = '\r' || c = '\n' then [] :: universalLines rest else consLine c (universalLines rest) := by
  rw [universalLines]
  rintro more rfl rfl
  exact h rfl rfl

/-- A carriage return ends a line of its own unless a line feed is behind it. -/
theorem universalLines_return (h : rest.head? ≠ some '\n') :
    universalLines ('\r' :: rest) = [] :: universalLines rest :=
  universalLines_apart fun _ => h

theorem universalLines_cons (hreturn : c ≠ '\r') (hfeed : c ≠ '\n') :
    universalLines (c :: rest) = consLine c (universalLines rest) := by
  rw [universalLines_apart fun hc => absurd hc hreturn]
  simp [hreturn, hfeed]

/-- Only the first line gets longer, so lines behind it do not matter. -/
theorem consLine_append {ls : List (List Char)} (h : ls ≠ []) (more : List (List Char)) :
    consLine c (ls ++ more) = consLine c ls ++ more := by
  cases ls with
  | nil => exact absurd rfl h
  | cons first ls => rfl

/-- A character in front makes no further line, unless there is none. -/
theorem length_consLine {ls : List (List Char)} (h : ls ≠ []) : (consLine c ls).length = ls.length := by
  cases ls with
  | nil => exact absurd rfl h
  | cons first ls => rfl

theorem consLine_ne_nil (c : Char) (ls : List (List Char)) : consLine c ls ≠ [] := by
  cases ls <;> nofun

theorem universalLines_cons_ne_nil (c : Char) (rest : List Char) :
    universalLines (c :: rest) ≠ [] := by
  by_cases hreturn : c = '\r' ∧ rest.head? = some '\n'
  · obtain ⟨rfl, hrest⟩ := hreturn
    obtain ⟨rest, rfl⟩ := List.head?_eq_some_iff.mp hrest
    rw [universalLines_return_feed]
    nofun
  · rw [universalLines_apart fun hc hrest => hreturn ⟨hc, hrest⟩]
    split
    · nofun
    · exact consLine_ne_nil c _

/-- What ends with a line feed is read apart from what follows. -/
theorem universalLines_append_feed (line rest : List Char) :
    universalLines (line ++ '\n' :: rest) = universalLines (line ++ ['\n']) ++ universalLines rest := by
  fun_induction universalLines line with
  | case1 => simp [universalLines]
  | case2 line ih => simp [ih]
  | case3 c line hapart hend ih =>
    rw [Bool.or_eq_true, decide_eq_true_iff, decide_eq_true_iff] at hend
    -- Behind a carriage return the line feed at the end must not be taken for its partner.
    rcases hend with rfl | rfl
    · cases line with
      | nil => simp [universalLines]
      | cons d line =>
        have hd : d ≠ '\n' := fun hd => hapart line rfl (by rw [hd])
        simp only [List.cons_append] at ih ⊢
        rw [universalLines_return (by simpa using hd), universalLines_return (by simpa using hd), ih]
        rfl
    · rw [List.cons_append, List.cons_append, universalLines_feed, universalLines_feed, ih,
        List.cons_append]
  | case4 c line hapart hend ih =>
    rw [Bool.or_eq_true, decide_eq_true_iff, decide_eq_true_iff, not_or] at hend
    have hne : universalLines (line ++ ['\n']) ≠ [] := by
      cases line with
      | nil => exact universalLines_cons_ne_nil '\n' []
      | cons d line => exact universalLines_cons_ne_nil d _
    rw [List.cons_append, List.cons_append, universalLines_cons hend.1 hend.2,
      universalLines_cons hend.1 hend.2, ih, consLine_append hne]

/-- No carriage return is left in the lines that are read. -/
theorem return_not_mem_universalLines (text : List Char) :
    ∀ line ∈ universalLines text, '\r' ∉ line := by
  have hconsLine {c : Char} (hc : c ≠ '\r') {ls : List (List Char)} (h : ∀ line ∈ ls, '\r' ∉ line) :
      ∀ line ∈ consLine c ls, '\r' ∉ line := by
    cases ls with
    | nil => simpa [consLine] using hc.symm
    | cons first ls => simpa [consLine, hc.symm] using h
  fun_induction universalLines text with
  | case1 => exact List.forall_mem_nil _
  | case2 rest ih => exact List.forall_mem_cons.mpr ⟨List.not_mem_nil, ih⟩
  | case3 c rest hapart hend ih => exact List.forall_mem_cons.mpr ⟨List.not_mem_nil, ih⟩
  | case4 c rest hapart hend ih =>
    rw [Bool.or_eq_true, decide_eq_true_iff, decide_eq_true_iff, not_or] at hend
    exact hconsLine hend.1 ih

/-- A line that has neither carriage returns nor line feeds is read as it is. -/
theorem universalLines_of_not_mem (hreturn : '\r' ∉ line) (hfeed : '\n' ∉ line) :
    universalLines (line ++ ['\n']) = [line] := by
  induction line with
  | nil => rfl
  | cons c line ih =>
    rw [List.mem_cons, not_or] at hreturn hfeed
    rw [List.cons_append, universalLines_cons (Ne.symm hreturn.1) (Ne.symm hfeed.1),
      ih hreturn.2 hfeed.2]
    rfl

/-- Each carriage return inside a line makes one more line of it. At the end of the line it does not,
since the line feed is behind it. -/
theorem length_universalLines (h : '\n' ∉ line) :
    (universalLines (line ++ ['\n'])).length = line.dropLast.count '\r' + 1 := by
  induction line with
  | nil => rfl
  | cons c line ih =>
    rw [List.mem_cons, not_or] at h
    have hc : c ≠ '\n' := Ne.symm h.1
    -- What a carriage return does depends on whether the line feed comes next.
    cases line with
    | nil =>
      by_cases hreturn : c = '\r'
      · subst hreturn
        rfl
      · rw [List.cons_append, universalLines_cons hreturn hc]
        rfl
    | cons d line =>
      have hd : d ≠ '\n' := fun hd => h.2 (hd ▸ List.mem_cons_self)
      have hlength := ih h.2
      rw [List.cons_append] at hlength
      rw [List.cons_append, List.cons_append, List.dropLast_cons_cons]
      by_cases hreturn : c = '\r'
      · subst hreturn
        rw [universalLines_return (by simpa using hd), List.length_cons, hlength,
          List.count_cons_self]
      · rw [universalLines_cons hreturn hc, length_consLine (universalLines_cons_ne_nil d _), hlength,
          List.count_cons_of_ne hreturn]

/-! ## Carriage returns in front of line feeds -/

/-- Each carriage return of a text has a line feed behind it. -/
def ReturnsPaired (text : List Char) : Prop :=
  ∀ front rest, text = front ++ '\r' :: rest → rest.head? = some '\n'

/-- Behind a character, carriage returns are paired as before. -/
theorem ReturnsPaired.tail {text : List Char} (h : ReturnsPaired (c :: text)) : ReturnsPaired text :=
  fun front rest htext => h (c :: front) rest (by rw [htext, List.cons_append])

theorem returnsPaired_of_not_mem {text : List Char} (h : '\r' ∉ text) : ReturnsPaired text := by
  rintro front rest rfl
  exact absurd (List.mem_append_right front List.mem_cons_self) h

/-- A character that ends no line stays at the start of one. -/
theorem dropLineEnd_cons (hreturn : c ≠ '\r') (hfeed : c ≠ '\n') :
    dropLineEnd (c :: line) = c :: dropLineEnd line := by
  have hc : (decide (c = '\n') || decide (c = '\r')) = false := by
    rw [decide_eq_false hreturn, decide_eq_false hfeed]
    rfl
  unfold dropLineEnd
  rw [List.reverse_cons, List.dropWhile_append]
  split
  · rename_i hnil
    rw [List.isEmpty_iff.mp hnil, List.dropWhile_cons_of_neg (by rw [hc]; nofun)]
    rfl
  · rw [List.reverse_append]
    rfl

theorem map_dropLineEnd_consLine (hreturn : c ≠ '\r') (hfeed : c ≠ '\n') (ls : List (List Char)) :
    (consLine c ls).map dropLineEnd = consLine c (ls.map dropLineEnd) := by
  cases ls with
  | nil => rw [consLine, List.map_singleton, dropLineEnd_cons hreturn hfeed]; rfl
  | cons first ls => rw [consLine, List.map_cons, dropLineEnd_cons hreturn hfeed]; rfl

/-- If each carriage return has a line feed behind it, the lines are those up to the line feeds. -/
theorem universalLines_eq {text : List Char} (h : ReturnsPaired text) :
    universalLines text = (lines text).map dropLineEnd := by
  fun_induction universalLines text with
  | case1 => rfl
  | case2 rest ih =>
    rw [ih h.tail.tail, lines_cons (by decide) (lines_feed rest)]
    rfl
  | case3 c rest hapart hend ih =>
    rw [Bool.or_eq_true, decide_eq_true_iff, decide_eq_true_iff] at hend
    rcases hend with rfl | rfl
    · -- a carriage return without a line feed
      obtain ⟨more, hmore⟩ := List.head?_eq_some_iff.mp (h [] rest rfl)
      exact absurd hmore (hapart more rfl)
    · rw [ih h.tail, lines_feed]
      rfl
  | case4 c rest hapart hend ih =>
    rw [Bool.or_eq_true, decide_eq_true_iff, decide_eq_true_iff, not_or] at hend
    rw [ih h.tail, lines, if_neg hend.2, map_dropLineEnd_consLine hend.1 hend.2]

end DocWeave.Text

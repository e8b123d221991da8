import DocWeave.Text.Parts

/-!
# The words of a text

A word goes as far as there is no white space. This is said here by what a text is put together of, so
that the words that are collected character by character have something to agree with.

- `Words`: a text and its words.
- `words_iff`: they are the ones that are collected.
-/

namespace DocWeave.Text

/-- A text and its words: they stand in order, and all else is white space. -/
inductive Words : List Char → List (List Char) → Prop where
  | nil : Words [] []
  /-- White space in front makes no difference. -/
  | blank {c : Char} {s : List Char} {ws : List (List Char)} (hc : isBlank c = true) (h : Words s ws) :
    Words (c :: s) ws
  /-- A word in front goes up to white space or to the end of the text. -/
  | word {w s : List Char} {ws : List (List Char)} (hne : w ≠ []) (hw : ∀ c ∈ w, isBlank c = false)
      (hend : ∀ c ∈ s.head?, isBlank c = true) (h : Words s ws) : Words (w ++ s) (w :: ws)

/-- What is collected are the words of the text, the first of which has been begun. -/
theorem words_go {s : List Char} : ∀ {word : List Char}, (∀ c ∈ word, isBlank c = false) →
    Words (word.reverse ++ s) (words.go word s) := by
  induction s with
  | nil =>
    intro word hword
    cases word with
    | nil => exact .nil
    | cons c word =>
      refine .word (by simp) (fun d hd => hword d (List.mem_reverse.mp hd)) nofun .nil
  | cons c rest ih =>
    -- White space completes the word that has been begun; any other character belongs to it.
    intro word hword
    unfold words.go
    split
    · rename_i hc
      have hrest : Words (c :: rest) (words.go [] rest) := .blank hc (@ih [] nofun)
      cases word with
      | nil => exact hrest
      | cons d word =>
        refine .word (by simp) (fun e he => hword e (List.mem_reverse.mp he)) ?_ hrest
        intro e he
        rwa [← Option.some.inj he]
    · rename_i hc
      have hnext : ∀ d ∈ c :: word, isBlank d = false :=
        List.forall_mem_cons.mpr ⟨Bool.eq_false_iff.mpr hc, hword⟩
      have hwords := ih hnext
      rwa [List.reverse_cons, List.append_assoc] at hwords

/-- Characters that are not blank belong to the word that has been begun. -/
theorem go_append {w : List Char} (hw : ∀ c ∈ w, isBlank c = false) (word s : List Char) :
    words.go word (w ++ s) = words.go (w.reverse ++ word) s := by
  induction w generalizing word with
  | nil => rfl
  | cons c w ih =>
    obtain ⟨hc, hrest⟩ := List.forall_mem_cons.mp hw
    rw [List.cons_append, words.go, hc, if_neg Bool.false_ne_true, ih hrest, List.reverse_cons,
      List.append_assoc]
    rfl

/-- A word that has been begun ends with white space, or with the text. -/
theorem go_of_head? {word s : List Char} (hne : word ≠ []) (hend : ∀ c ∈ s.head?, isBlank c = true) :
    words.go word s = word.reverse :: words s := by
  have hword : word.isEmpty = false := List.isEmpty_eq_false_iff.mpr hne
  cases s with
  | nil =>
    rw [words.go, hword, if_neg Bool.false_ne_true]
    rfl
  | cons c rest =>
    have hc : isBlank c = true := hend c rfl
    rw [words.go, if_pos hc, hword, if_neg Bool.false_ne_true, words, words.go, if_pos hc]
    rfl

theorem Words.words_eq {s : List Char} {ws : List (List Char)} (h : Words s ws) : words s = ws := by
  induction h with
  | nil => rfl
  | @blank c s ws hc _ ih =>
    rw [← ih, words, words.go, if_pos hc]
    rfl
  | @word w s ws hne hw hend _ ih =>
    rw [words, go_append hw, List.append_nil, go_of_head? (List.reverse_ne_nil_iff.mpr hne) hend,
      List.reverse_reverse, ih]

/-- The words of a text are those that are collected. -/
theorem words_iff {s : List Char} {ws : List (List Char)} : Words s ws ↔ ws = words s := by
  constructor
  · exact fun h => h.words_eq.symm
  · rintro rfl
    exact @words_go s [] nofun

end DocWeave.Text

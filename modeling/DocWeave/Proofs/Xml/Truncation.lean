import DocWeave.Proofs.Xml.Events

/-!
# Truncated documents

The output of a program that was stopped ends anywhere. What has been read up to there is never taken
for a document, unless the root element was complete already.

- `result_eq_ok`, `result_eq_unexpectedEnd`: what the results of a reader say about it.
- `isMarkup_of_run`: the errors found on the way are about markup.
- `parse_truncated`: a document with something behind it, and one that ends before its root does.
-/

namespace DocWeave.Xml

/-! ## Results -/

/-- A root is found only where it has been closed. -/
theorem result_eq_ok {r : Reader} {root : Element} : r.result = .ok root ↔ r = .finished root := by
  rcases r with ⟨mode, stack⟩ | root' | error
  · cases hend : mode.atEnd <;> cases stack <;> simp [Reader.result, hend]
  · simp [Reader.result]
  · simp [Reader.result]

/-- The end of the input is between pieces of markup only in text. -/
theorem atEnd_eq_none {mode : Mode} : mode.atEnd = none ↔ ∃ read, mode = .text read := by
  cases mode with
  | text read => exact ⟨fun _ => ⟨read, rfl⟩, fun _ => rfl⟩
  | startTag read quote => cases quote <;> simp [Mode.atEnd]
  | endTag read quote => cases quote <;> simp [Mode.atEnd]
  | _ => simp [Mode.atEnd]

/-- An error about markup, not about the document as a whole. -/
def Error.IsMarkup : Error → Prop
  | .malformed _ | .illFormed _ => True
  | .unexpectedEnd _ | .noRoot => False

theorem isMarkup_of_atEnd {mode : Mode} {error : Error} (h : mode.atEnd = some error) :
    error.IsMarkup := by
  cases mode with
  | text read => cases h
  | startTag read quote => cases quote <;> cases h <;> trivial
  | endTag read quote => cases quote <;> cases h <;> trivial
  | _ => cases h; trivial

theorem isMarkup_of_commentStep {read : List Char} {c : Char} {error : Error}
    (h : commentStep read c = .error error) : error.IsMarkup := by
  unfold commentStep at h
  split at h
  · split at h <;> cases h
    trivial
  · cases h

theorem isMarkup_of_characterDataStep {read : List Char} {c : Char} {error : Error}
    (h : characterDataStep read c = .error error) : error.IsMarkup := by
  unfold characterDataStep at h
  split at h
  · dsimp only at h
    split at h <;> cases h
    trivial
  · cases h

theorem isMarkup_of_endDoctype {content : List Char} {error : Error}
    (h : endDoctype content = .error error) : error.IsMarkup := by
  unfold endDoctype at h
  dsimp only at h
  split at h
  · split at h <;> cases h
    trivial
  · cases h
    trivial

/-- Scanning fails at markup only. -/
theorem isMarkup_of_step {mode : Mode} {c : Char} {error : Error} (h : mode.step c = .error error) :
    error.IsMarkup := by
  unfold Mode.step at h
  cases mode with
  | comment read => exact isMarkup_of_commentStep h
  | characterData read => exact isMarkup_of_characterDataStep h
  | doctype read within =>
    dsimp only at h
    split at h
    · exact isMarkup_of_endDoctype h
    · exact isMarkup_of_endDoctype h
    · cases h
  | text | reference | markup | startTag | endTag | instruction | declaration =>
    dsimp only at h
    repeat' split at h
    all_goals cases h
    all_goals trivial

/-- So does an event. -/
theorem isMarkup_of_handle {mode : Mode} {stack : List OpenElement} {event : Event} {error : Error}
    (h : Reader.handle mode stack event = .failed error) : error.IsMarkup := by
  cases event with
  | text | reference | characterData => cases stack <;> cases h
  | startTag => cases h
  | emptyTag => cases stack <;> cases h
  | endTag name =>
    rcases stack with _ | ⟨e, outer⟩
    · cases h
      trivial
    · unfold Reader.handle at h
      dsimp only at h
      split at h
      · cases outer <;> cases h
      · cases h
        trivial

/-- One character makes a reader fail at markup only. -/
theorem isMarkup_of_reader_step {r : Reader} (hr : ∀ error, r = .failed error → error.IsMarkup)
    {c : Char} {error : Error} (h : r.step c = .failed error) : error.IsMarkup := by
  rcases r with ⟨mode, stack⟩ | root | error'
  · unfold Reader.step at h
    dsimp only at h
    split at h
    · rename_i hstep
      obtain rfl := Reader.failed.inj h
      exact isMarkup_of_step hstep
    · cases h
    · exact isMarkup_of_handle h
  · cases h
  · exact hr error h

/-- So do all characters together. -/
theorem isMarkup_of_run {text : List Char} {error : Error} (h : Reader.start.run text = .failed error) :
    error.IsMarkup := by
  -- From the end: the last character fails, or the text in front of it has failed already.
  induction text using List.reverseRecOn generalizing error with
  | nil => cases h
  | append_singleton text c ih =>
    rw [run_append] at h
    exact isMarkup_of_reader_step (fun _ => ih) h

/-- The end is unexpected where the text was scanned to its end, and elements are open. -/
theorem result_eq_unexpectedEnd {text : List Char} {name : String} :
    (Reader.start.run text).result = .error (.unexpectedEnd name) ↔
      ∃ events read outer, Scans (.text []) text events (.text read) ∧
        Unclosed (name :: outer) events := by
  constructor
  · intro h
    -- An error on the way is about markup, so the reader is still in the document.
    cases hrun : Reader.start.run text with
    | finished root =>
      rw [hrun] at h
      cases h
    | failed error =>
      rw [hrun] at h
      have hmarkup := isMarkup_of_run hrun
      rw [Except.error.inj h] at hmarkup
      cases hmarkup
    | reading mode stack =>
      rw [hrun] at h
      obtain ⟨events, hscans, htakes⟩ := run_eq_reading.mp hrun
      cases hend : mode.atEnd with
      | some error =>
        have hmarkup := isMarkup_of_atEnd hend
        simp only [Reader.result, hend] at h
        rw [Except.error.inj h] at hmarkup
        cases hmarkup
      | none =>
        obtain ⟨read, rfl⟩ := atEnd_eq_none.mp hend
        rcases stack with _ | ⟨e, outer⟩
        · cases h
        · obtain rfl : e.name = name := Error.unexpectedEnd.inj (Except.error.inj h)
          exact ⟨events, read, _, hscans, unclosed_iff.mpr ⟨_, htakes, rfl⟩⟩
  · rintro ⟨events, read, outer, hscans, hunclosed⟩
    obtain ⟨stack, htakes, hnames⟩ := unclosed_iff.mp hunclosed
    have hrun : Reader.start.run text = .reading (.text read) stack :=
      run_eq_reading.mpr ⟨events, hscans, htakes⟩
    rw [hrun]
    rcases stack with _ | ⟨e, stack⟩
    · cases hnames
    · rw [← (List.cons.inj hnames).1]
      rfl

/-! ## More text -/

theorem dropByteOrderMark_append {x : List Char} (hx : x ≠ []) (y : List Char) :
    dropByteOrderMark (x ++ y) = dropByteOrderMark x ++ y := by
  obtain ⟨c, x, rfl⟩ := List.exists_cons_of_ne_nil hx
  by_cases hc : c = '\uFEFF'
  · subst hc
    rfl
  · simp [dropByteOrderMark, hc]

/-- A document that is complete stays so, whatever follows. -/
theorem finished_append {x : List Char} {root : Element}
    (h : Reader.start.run (dropByteOrderMark x) = .finished root) (y : List Char) :
    Reader.start.run (dropByteOrderMark (x ++ y)) = .finished root := by
  have hx : x ≠ [] := by
    rintro rfl
    cases h
  rw [dropByteOrderMark_append hx, run_append, h, run_finished]

theorem parse_eq_ok {x : String} {root : Element} :
    parse x = .ok root ↔ Reader.start.run (dropByteOrderMark x.toList) = .finished root :=
  result_eq_ok

/-! ## Truncated input -/

/-- **A truncated document is never read as another one.** What follows a document that is accepted
does not matter, so of an accepted document every front part is rejected or has the same root. The end
of the input is called unexpected exactly if it was reached in text, all markup in front of it having
been read without an error, while elements are open; the element that is named is the one that was
opened last of those that have not been closed. -/
theorem parse_truncated :
    (∀ (x y : String) root, parse x = .ok root → parse (x ++ y) = .ok root) ∧
    (∀ (x y : String) root, parse (x ++ y) = .ok root →
      parse x = .ok root ∨ ∃ error, parse x = .error error) ∧
    ∀ (x : String) name, parse x = .error (.unexpectedEnd name) ↔
      ∃ events read outer, Scans (.text []) (dropByteOrderMark x.toList) events (.text read) ∧
        Unclosed (name :: outer) events := by
  have happend (x y : String) (root : Element) (h : parse x = .ok root) :
      parse (x ++ y) = .ok root := by
    rw [parse_eq_ok] at h ⊢
    rw [String.toList_append]
    exact finished_append h y.toList
  refine ⟨happend, fun x y root h => ?_, fun x name => result_eq_unexpectedEnd⟩
  cases hx : parse x with
  | error error => exact Or.inr ⟨error, rfl⟩
  | ok root' =>
    rw [happend x y root' hx] at h
    exact Or.inl h

/-- A document with a second root behind it, and one that was cut behind a comment. -/
theorem parse_truncated_second_root :
    parse ("<a>1<b/></a>" ++ "<c>") = .ok ⟨"a", [], [.text "1", .element "b" [] []]⟩ ∧
      ∃ events read outer, Scans (.text []) "<a><b>x</b>y<!---->z".toList events (.text read) ∧
        Unclosed ("a" :: outer) events := by
  obtain ⟨happend, -, hend⟩ := parse_truncated
  have hroot : parse "<a>1<b/></a>" = .ok ⟨"a", [], [.text "1", .element "b" [] []]⟩ := by rfl
  have hcut : parse "<a><b>x</b>y<!---->z" = .error (.unexpectedEnd "a") := by rfl
  exact ⟨happend _ _ _ hroot, (hend _ _).mp hcut⟩

/-- In a tag, a comment, a section of character data or a reference. -/
def Mode.inPiece : Mode → Bool
  | .markup | .startTag _ _ | .endTag _ _ | .comment _ | .characterData _ | .reference _ => true
  | .text _ | .instruction _ | .declaration | .doctype _ _ => false

/-- These are not all pieces of markup that have to be complete: a processing instruction has to be,
too. -/
theorem unexpectedEnd_in_instruction :
    ¬ ∀ (x : String) events mode name outer,
      Scans (.text []) (dropByteOrderMark x.toList) events mode → mode.inPiece = false →
        Unclosed (name :: outer) events → parse x = .error (.unexpectedEnd name) := by
  intro h
  have hrun : Reader.start.run "<a><?".toList = .reading (.instruction []) [⟨"a", [], []⟩] := by rfl
  obtain ⟨events, hscans, htakes⟩ := run_eq_reading.mp hrun
  have hunclosed : Unclosed ["a"] events := unclosed_iff.mpr ⟨_, htakes, rfl⟩
  have hresult : parse "<a><?" = .error (.malformed .instruction) := by rfl
  cases hresult.symm.trans (h "<a><?" _ _ "a" [] hscans rfl hunclosed)

end DocWeave.Xml

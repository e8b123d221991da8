import DocWeave.Xml.Reader
import Mathlib.Data.List.Induction

/-!
# The content of elements

What stands in an element is a list of trees: texts, one for each piece of text, and elements. When the
element closes, texts next to each other are joined and layout is dropped.

- `joinTexts`: the trees with texts joined; `contentOf`: with layout dropped as well.
- `shownContent`: with empty texts dropped, too; `contentOf_filter`: they may be dropped first.
- `OpenElement.add`, `OpenElement.fill`: trees that are added to an open element.
- `content_fill`: what an open element holds then; `close_fill`: what it is once it is closed.
-/

namespace DocWeave.Xml

/-! ## Joining texts -/

/-- Puts a tree in front of others, joining it to a text that stands there if it is one itself. -/
def consJoined : Tree → List Tree → List Tree
  | .text before, .text after :: rest => .text (before ++ after) :: rest
  | t, ts => t :: ts

/-- The trees with texts next to each other joined. -/
def joinTexts (ts : List Tree) : List Tree :=
  ts.foldr consJoined []

/-- The children of an element in which some trees have been read. -/
def contentOf (ts : List Tree) : List Tree :=
  (joinTexts ts).filter fun t => !t.isLayout

/-- Puts a tree behind others, joining it to a text that stands there. -/
def snocJoined : List Tree → Tree → List Tree
  | [], t => [t]
  | [last], t => consJoined last [t]
  | first :: next :: rest, t => first :: snocJoined (next :: rest) t

theorem snocJoined_text (ts : List Tree) (before after : String) :
    snocJoined (ts ++ [.text before]) (.text after) = ts ++ [.text (before ++ after)] := by
  induction ts with
  | nil => rfl
  | cons first ts ih =>
    cases ts with
    | nil => rfl
    | cons next ts => exact congrArg (List.cons first) ih

/-- Nothing is joined if one of the two is an element. -/
theorem snocJoined_of_element (ts : List Tree) {last t : Tree}
    (h : consJoined last [t] = [last, t]) : snocJoined (ts ++ [last]) t = ts ++ [last, t] := by
  induction ts with
  | nil => exact h
  | cons first ts ih =>
    cases ts with
    | nil => exact congrArg (List.cons first) ih
    | cons next ts => exact congrArg (List.cons first) ih

/-- Trees are joined at both ends independently. -/
theorem consJoined_snocJoined (first last : Tree) (ts : List Tree) :
    consJoined first (snocJoined ts last) = snocJoined (consJoined first ts) last := by
  rcases ts with _ | ⟨t, _ | ⟨next, ts⟩⟩
  · cases first <;> cases last <;> rfl
  · -- With one tree between them, all three may be joined, in either order.
    cases first <;> cases t <;> cases last <;>
      simp only [snocJoined, consJoined, String.append_assoc]
  · cases first <;> cases t <;> rfl

theorem joinTexts_append_singleton (ts : List Tree) (t : Tree) :
    joinTexts (ts ++ [t]) = snocJoined (joinTexts ts) t := by
  induction ts with
  | nil => cases t <;> rfl
  | cons first ts ih =>
    have hcons (us : List Tree) : joinTexts (first :: us) = consJoined first (joinTexts us) := rfl
    rw [List.cons_append, hcons, ih, consJoined_snocJoined, ← hcons]

/-! ## Empty texts -/

/-- Whether a tree is a text without characters. -/
def Tree.isEmptyText : Tree → Bool
  | .text value => value.toList.isEmpty
  | .element _ _ _ => false

/-- What an element shows of some trees: texts next to each other are joined, and those that are empty
or layout are left out. -/
def shownContent (ts : List Tree) : List Tree :=
  (joinTexts ts).filter fun t => !t.isEmptyText && !t.isLayout

/-- Whether a tree is a text. -/
def Tree.isText : Tree → Bool
  | .text _ => true
  | .element _ _ _ => false

/-- Behind a text that has been joined there is no other one. -/
theorem head?_of_joinTexts {value : String} {rest : List Tree} :
    ∀ {ts : List Tree}, joinTexts ts = .text value :: rest → ∀ t ∈ rest.head?, t.isText = false
  | [], h => nomatch h
  | first :: ts, h => by
    have hcons : consJoined first (joinTexts ts) = .text value :: rest := h
    cases first with
    | element => cases joinTexts ts <;> cases hcons
    | text before =>
      rcases hjoined : joinTexts ts with _ | ⟨_ | _, more⟩
      · rw [hjoined] at hcons
        rw [← (List.cons.inj hcons).2]
        nofun
      · rw [hjoined] at hcons
        rw [← (List.cons.inj hcons).2]
        exact head?_of_joinTexts hjoined
      · rw [hjoined] at hcons
        rw [← (List.cons.inj hcons).2]
        intro t ht
        rw [← Option.some.inj ht]
        rfl

/-- An empty text is the one that is written without characters. -/
theorem isEmptyText_text {value : String} : (Tree.text value).isEmptyText = true ↔ value = "" := by
  rw [Tree.isEmptyText, List.isEmpty_iff, String.toList_eq_nil_iff]

theorem filter_text_empty (ts : List Tree) :
    (.text "" :: ts).filter (!·.isEmptyText) = ts.filter (!·.isEmptyText) := rfl

theorem filter_text {value : String} (h : value ≠ "") (ts : List Tree) :
    (.text value :: ts).filter (!·.isEmptyText) = .text value :: ts.filter (!·.isEmptyText) := by
  rw [List.filter_cons_of_pos]
  rw [Bool.not_eq_true', ← Bool.not_eq_true, isEmptyText_text]
  exact h

/-- It does not matter whether empty texts are left out before texts are joined or after that. -/
theorem joinTexts_filter (ts : List Tree) :
    joinTexts (ts.filter (!·.isEmptyText)) = (joinTexts ts).filter (!·.isEmptyText) := by
  induction ts with
  | nil => rfl
  | cons first ts ih =>
    have hcons (t : Tree) (us : List Tree) : joinTexts (t :: us) = consJoined t (joinTexts us) := rfl
    cases first with
    | element =>
      rw [List.filter_cons_of_pos rfl, hcons, hcons, ih]
      -- Nothing is joined to an element.
      cases joinTexts ts <;> cases (joinTexts ts).filter (!·.isEmptyText) <;> rfl
    | text before =>
      by_cases hbefore : before = ""
      · rw [hbefore, filter_text_empty, hcons, ih]
        rcases joinTexts ts with _ | ⟨after | _, rest⟩
        · rfl
        · rw [consJoined, String.empty_append]
        · rfl
      · rw [filter_text hbefore, hcons, hcons, ih]
        rcases hjoined : joinTexts ts with _ | ⟨after | _, rest⟩
        · exact (filter_text hbefore []).symm
        · have hjoin : before ++ after ≠ "" := fun h => hbefore (String.append_eq_empty_iff.mp h).1
          rw [consJoined, filter_text hjoin]
          by_cases hafter : after = ""
          · rw [hafter, filter_text_empty, String.append_empty]
            -- What stands behind the empty text is no text, so nothing more is joined.
            have hhead := head?_of_joinTexts hjoined
            rcases rest with _ | ⟨value | _, rest⟩
            · rfl
            · cases hhead _ rfl
            · rfl
          · rw [filter_text hafter, consJoined]
        · exact (filter_text hbefore (.element _ _ _ :: rest)).symm

/-- Leaving out empty texts first does not change what is shown. -/
theorem contentOf_filter (ts : List Tree) :
    contentOf (ts.filter (!·.isEmptyText)) = shownContent ts := by
  rw [contentOf, joinTexts_filter, List.filter_filter, shownContent]
  simp only [Bool.and_comm]

/-! ## Open elements -/

/-- Adds a tree at the end of an open element. -/
def OpenElement.add (e : OpenElement) : Tree → OpenElement
  | .text value => e.addText value
  | .element name attributes children => e.push (.element name attributes children)

/-- Adds trees one after the other. -/
def OpenElement.fill (e : OpenElement) (ts : List Tree) : OpenElement :=
  ts.foldl OpenElement.add e

/-- What is added does not change the name of an open element. -/
@[simp]
theorem OpenElement.name_add (e : OpenElement) (t : Tree) : (e.add t).name = e.name := by
  unfold OpenElement.add OpenElement.addText
  split
  · split <;> rfl
  · rfl

@[simp]
theorem OpenElement.attributes_add (e : OpenElement) (t : Tree) :
    (e.add t).attributes = e.attributes := by
  unfold OpenElement.add OpenElement.addText
  split
  · split <;> rfl
  · rfl

/-- What an open element holds, in reading order, after one more tree. -/
theorem OpenElement.content_add (e : OpenElement) (t : Tree) :
    (e.add t).content.reverse = snocJoined e.content.reverse t := by
  obtain ⟨name, attributes, content⟩ := e
  rcases content with _ | ⟨last, content⟩
  · cases t <;> rfl
  · rw [List.reverse_cons]
    cases t with
    | element =>
      rw [snocJoined_of_element _ (by cases last <;> rfl)]
      simp [OpenElement.add, OpenElement.push]
    | text value =>
      cases last with
      | element =>
        rw [snocJoined_of_element _ rfl]
        simp [OpenElement.add, OpenElement.addText, OpenElement.push]
      | text before =>
        rw [snocJoined_text]
        simp [OpenElement.add, OpenElement.addText]

@[simp]
theorem OpenElement.name_fill (ts : List Tree) (e : OpenElement) : (e.fill ts).name = e.name := by
  induction ts generalizing e with
  | nil => rfl
  | cons t ts ih => exact (ih (e.add t)).trans (e.name_add t)

@[simp]
theorem OpenElement.attributes_fill (ts : List Tree) (e : OpenElement) :
    (e.fill ts).attributes = e.attributes := by
  induction ts generalizing e with
  | nil => rfl
  | cons t ts ih => exact (ih (e.add t)).trans (e.attributes_add t)

/-- Trees can be added in two turns. -/
theorem OpenElement.fill_append (e : OpenElement) (ts us : List Tree) :
    e.fill (ts ++ us) = (e.fill ts).fill us :=
  List.foldl_append

/-- An element that has just been opened holds the trees with texts joined. -/
theorem OpenElement.content_fill (name : String) (attributes : Attributes) (ts : List Tree) :
    ((⟨name, attributes, []⟩ : OpenElement).fill ts).content.reverse = joinTexts ts := by
  induction ts using List.reverseRecOn with
  | nil => rfl
  | append_singleton ts t ih =>
    rw [OpenElement.fill_append, joinTexts_append_singleton, ← ih]
    exact OpenElement.content_add _ t

/-- Once it is closed, they are its children. -/
theorem OpenElement.close_fill (name : String) (attributes : Attributes) (ts : List Tree) :
    ((⟨name, attributes, []⟩ : OpenElement).fill ts).close = ⟨name, attributes, contentOf ts⟩ := by
  rw [OpenElement.close, OpenElement.content_fill, OpenElement.name_fill,
    OpenElement.attributes_fill, contentOf]

end DocWeave.Xml

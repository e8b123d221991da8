import DocWeave.Page.Html
import DocWeave.Proofs.Markdown.Comments
import Mathlib.Data.List.Perm.Subperm
import Mathlib.Data.List.Nodup
import Mathlib.Order.Bounds.Basic

/-!
# The tag of a document

A document chooses the tag of its comments such that no Markdown in it holds comments with this tag.
A tag of this kind is among the numbers tried, since a start of a comment has only one tag.

- `hexDigits_injective`: different numbers make different tags.
- `tagsIn`: the tags of all starts of comments in a text.
- `Document.find?_isFree`: the search for the tag of a document ends with a free one.
- `Document.isFree_nonce`, `Document.isLeast_nonceNumber`: the tag is free, and it is the first one.
- `isSign_hexDigits`, `isComment_placeholder`: its comments can be told from all other text.
-/

namespace DocWeave.Text

/-- The test for a part of a text, as a statement about texts. -/
theorem occurs_iff {part : List Char} : ∀ {text : List Char}, occurs part text = true ↔ part <:+: text
  | [] => by rw [occurs, List.isEmpty_iff, List.infix_nil]
  | c :: rest => by
    rw [occurs, Bool.or_eq_true, List.isPrefixOf_iff_prefix, occurs_iff, List.infix_cons_iff]

end DocWeave.Text

namespace DocWeave.Page

open Markdown (IsSign IsComment Allows isSignChar isDigit_of_mem_repr)

/-! ## Digits -/

theorem digitChar_inj : ∀ m < 16, ∀ n < 16, Nat.digitChar m = Nat.digitChar n → m = n := by
  decide

/-- Different numbers have different digits, by induction on the number of digits. -/
theorem hexDigits_injective : Function.Injective hexDigits := by
  intro m
  induction m using Nat.strongRecOn with
  | ind m ih =>
    intro n hmn
    rw [hexDigits, hexDigits, Nat.toDigits_eq_if (n := m) (by decide),
      Nat.toDigits_eq_if (n := n) (by decide)] at hmn
    split at hmn <;> split at hmn
    · rename_i hm hn
      exact digitChar_inj m hm n hn (List.singleton_inj.mp hmn)
    · -- One number has one digit and the other one has more.
      have hnil := (List.append_eq_singleton_iff.mp hmn.symm).resolve_right fun h => nomatch h.2
      exact absurd hnil.1 Nat.toDigits_ne_nil
    · have hnil := (List.append_eq_singleton_iff.mp hmn).resolve_right fun h => nomatch h.2
      exact absurd hnil.1 Nat.toDigits_ne_nil
    · rename_i hm hn
      obtain ⟨hrest, hlast⟩ := List.append_inj' hmn rfl
      have hdiv := ih (m / 16) (Nat.div_lt_self (by omega) (by decide)) hrest
      have hmod := digitChar_inj _ (Nat.mod_lt m (by decide)) _ (Nat.mod_lt n (by decide))
        (List.singleton_inj.mp hlast)
      omega

/-- What holds of the sixteen digits holds of all digits of a tag. -/
theorem forall_mem_hexDigits {P : Char → Prop} (h : ∀ d < 16, P (Nat.digitChar d)) (n : Nat) :
    ∀ c ∈ hexDigits n, P c := by
  induction n using Nat.strongRecOn with
  | ind n ih =>
    rw [hexDigits, Nat.toDigits_eq_if (by decide)]
    split
    · rename_i hn
      exact List.forall_mem_singleton.mpr (h n hn)
    · intro c hc
      rcases List.mem_append.mp hc with hc | hc
      · exact ih (n / 16) (Nat.div_lt_self (by omega) (by decide)) c hc
      · rw [List.mem_singleton.mp hc]
        exact h _ (Nat.mod_lt n (by decide))

theorem isAlphanum_of_mem_hexDigits (n : Nat) : ∀ c ∈ hexDigits n, c.isAlphanum :=
  forall_mem_hexDigits (by decide) n

/-! ## Starts of comments -/

/-- The tags of all starts of comments in a text. -/
def tagsIn : List Char → List (List Char)
  | [] => []
  | c :: rest =>
    if placeholderStart.isPrefixOf (c :: rest) then
      ((c :: rest).drop placeholderStart.length).takeWhile (· ≠ ':') :: tagsIn rest
    else tagsIn rest

theorem length_tagsIn : ∀ text : List Char,
    (tagsIn text).length = Text.occurrences placeholderStart text
  | [] => rfl
  | c :: rest => by
    rw [tagsIn, Text.occurrences]
    split
    · rw [List.length_cons, length_tagsIn rest, Nat.add_comm]
    · rw [length_tagsIn rest, Nat.zero_add]

/-- Comments with a tag add the tag. -/
theorem mem_tagsIn {tag : List Char} (htag : ':' ∉ tag) :
    ∀ {text : List Char}, placeholderPrefix tag <:+: text → tag ∈ tagsIn text
  | [], h => by
    rw [List.infix_nil] at h
    cases h
  | c :: rest, h => by
    rw [tagsIn]
    rcases List.infix_cons_iff.mp h with ⟨z, hz⟩ | hrest
    · have hstart : placeholderStart ++ (tag ++ ':' :: z) = c :: rest := by
        rw [← hz, placeholderPrefix, List.append_assoc, List.append_assoc]
        rfl
      -- The tag ends at the first colon, and holds none itself.
      have hwhile : (tag ++ ':' :: z).takeWhile (· ≠ ':') = tag := by
        rw [List.takeWhile_append_of_pos, List.takeWhile_cons_of_neg (by decide), List.append_nil]
        intro x hx
        refine decide_eq_true fun hcolon => htag ?_
        rwa [← hcolon]
      rw [if_pos (List.isPrefixOf_iff_prefix.mpr ⟨_, hstart⟩), ← hstart, List.drop_left, hwhile]
      exact List.mem_cons_self
    · have hmem := mem_tagsIn htag hrest
      split
      · exact List.mem_cons_of_mem _ hmem
      · exact hmem

/-! ## The tag of a document -/

variable {d : Document}

/-- A tag is free if no Markdown of the document holds what comments with it start with. -/
theorem Document.isFree_iff {tag : List Char} :
    d.isFree tag = true ↔
      ∀ value ∈ d.blocks.filterMap Block.markdown?, ¬ placeholderPrefix tag <:+: value.toList := by
  simp only [isFree, List.all_eq_true, Bool.not_eq_true', ← Bool.not_eq_true, Text.occurs_iff]

/-- The number of tags in the Markdown of a document is the number of starts of comments. -/
theorem Document.length_tags (d : Document) :
    ((d.blocks.filterMap Block.markdown?).flatMap (tagsIn ·.toList)).length = d.placeholderStarts := by
  rw [placeholderStarts]
  induction d.blocks.filterMap Block.markdown? with
  | nil => rfl
  | cons value rest ih =>
    rw [List.flatMap_cons, List.length_append, length_tagsIn, ih]
    rfl

/-- A colon is no digit, so it ends the tag of a comment. -/
theorem colon_not_mem_hexDigits (n : Nat) : ':' ∉ hexDigits n :=
  fun h => absurd (isAlphanum_of_mem_hexDigits n ':' h) (by decide)

/-- One of the numbers tried makes a free tag: otherwise the Markdown would hold more tags than
starts of comments. -/
theorem Document.exists_isFree (d : Document) :
    ∃ n ∈ List.range (d.placeholderStarts + 1), d.isFree (hexDigits n) = true := by
  by_contra hnone
  -- All tags tried are in the Markdown, and they are different.
  have hsubset : (List.range (d.placeholderStarts + 1)).map hexDigits ⊆
      (d.blocks.filterMap Block.markdown?).flatMap (tagsIn ·.toList) := by
    intro tag htag
    obtain ⟨n, hn, rfl⟩ := List.mem_map.mp htag
    have hused : ¬ ∀ value ∈ d.blocks.filterMap Block.markdown?,
        ¬ placeholderPrefix (hexDigits n) <:+: value.toList :=
      fun hfree => hnone ⟨n, hn, isFree_iff.mpr hfree⟩
    simp only [not_forall, not_not] at hused
    obtain ⟨value, hvalue, hoccurs⟩ := hused
    exact List.mem_flatMap.mpr ⟨value, hvalue, mem_tagsIn (colon_not_mem_hexDigits n) hoccurs⟩
  have hnodup := (List.nodup_range (n := d.placeholderStarts + 1)).map hexDigits_injective
  -- So there are no more of them than starts of comments, but one more has been tried.
  have hlength := (hnodup.subperm hsubset).length_le
  rw [List.length_map, List.length_range, d.length_tags] at hlength
  exact Nat.not_succ_le_self _ hlength

/-- A search over more numbers than there are starts of comments ends with the number of the document. -/
theorem Document.find?_isFree (d : Document) {limit : Nat} (h : d.placeholderStarts < limit) :
    (List.range limit).find? (fun n => d.isFree (hexDigits n)) = some d.nonceNumber := by
  obtain ⟨n, hn, hfree⟩ := d.exists_isFree
  rcases hfind : (List.range (d.placeholderStarts + 1)).find? fun n => d.isFree (hexDigits n) with _ | m
  · exact absurd hfree (List.find?_eq_none.mp hfind n hn)
  · have hnumber : d.nonceNumber = m := by rw [nonceNumber, hfind, Option.getD_some]
    obtain ⟨hm, hmem, hleast⟩ := List.find?_range_eq_some.mp hfind
    have hlt := List.mem_range.mp hmem
    rw [hnumber]
    exact List.find?_range_eq_some.mpr ⟨hm, List.mem_range.mpr (by omega), hleast⟩

/-- The tag of a document is free in it. -/
theorem Document.isFree_nonce (d : Document) : d.isFree d.nonce = true := by
  have hfound := List.find?_some (d.find?_isFree (Nat.lt_succ_self _))
  exact hfound

/-- Its number is at most the number of starts of comments. -/
theorem Document.nonceNumber_le (d : Document) : d.nonceNumber ≤ d.placeholderStarts := by
  have hfind := d.find?_isFree (Nat.lt_succ_self _)
  exact Nat.le_of_lt_succ (List.mem_range.mp (List.mem_of_find?_eq_some hfind))

/-- No number below that of the document makes a free tag. -/
theorem Document.isLeast_nonceNumber (d : Document) :
    IsLeast {n | d.isFree (hexDigits n) = true} d.nonceNumber := by
  constructor
  · exact d.isFree_nonce
  · intro n hn
    by_contra hlt
    have hfind := d.find?_isFree (Nat.lt_succ_self _)
    have hnot := (List.find?_range_eq_some.mp hfind).2.2 n (Nat.lt_of_not_le hlt)
    rw [show d.isFree (hexDigits n) = true from hn] at hnot
    cases hnot

/-! ## Comments with a tag -/

/-- What comments start with, whatever their tag is. -/
theorem placeholderPrefix_eq_cons (tag : List Char) :
    placeholderPrefix tag = '<' :: '!' :: '-' :: '-' :: ("autodoc-".toList ++ (tag ++ [':'])) := by
  rw [placeholderPrefix, List.append_assoc]
  rfl

/-- What comments with a number as their tag start with can be told from other text. -/
theorem isSign_hexDigits (n : Nat) : IsSign (placeholderPrefix (hexDigits n)) := by
  rw [placeholderPrefix_eq_cons]
  refine .comment fun c hc => ?_
  rcases List.mem_append.mp hc with hc | hc
  · have hfixed : "autodoc-".toList.all isSignChar = true := by decide +kernel
    exact List.all_eq_true.mp hfixed c hc
  · rcases List.mem_append.mp hc with hc | hc
    · simp [isSignChar, isAlphanum_of_mem_hexDigits _ c hc]
    · rw [List.mem_singleton.mp hc]
      decide

/-- No heading looks like a comment. -/
theorem allows_placeholderPrefix {tag : List Char} (h : IsSign (placeholderPrefix tag)) (level : Nat) :
    Allows (placeholderPrefix tag) level := by
  rw [placeholderPrefix_eq_cons] at h ⊢
  exact h.allows_of_comment level

/-- What the comments of a document start with can be told from other text. -/
theorem isSign_nonce (d : Document) : IsSign (placeholderPrefix d.nonce) :=
  isSign_hexDigits d.nonceNumber

/-- Such a comment is HTML on one line. -/
theorem isComment_placeholder (d : Document) (i : Nat) : IsComment (placeholder d.nonce i) := by
  have hsign := isSign_nonce d
  -- A character that is in none of the three parts is not in the comment.
  have habsent {c : Char} (hc : isSignChar c = false) (hne : c ≠ '<') (hstop : c ∉ "-->".toList) :
      c ∉ placeholder d.nonce i := by
    intro hmem
    rcases List.mem_append.mp hmem with hmem | hmem
    · rcases List.mem_append.mp hmem with hmem | hmem
      · exact hsign.not_mem hc hne hmem
      · have hdigit := Markdown.isSignChar_of_isDigit (isDigit_of_mem_repr hmem)
        rw [hc] at hdigit
        cases hdigit
    · exact hstop hmem
  refine ⟨?_, habsent (by decide) (by decide) (by decide), habsent (by decide) (by decide) (by decide)⟩
  rw [placeholder, List.append_assoc, placeholderPrefix_eq_cons]
  exact ⟨_, rfl⟩

end DocWeave.Page

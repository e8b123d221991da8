import DocWeave.Directive.Leaf
import Mathlib.Data.List.Infix
import Mathlib.Data.List.Count

/-!
# Groups and their nesting

What a group holds is balanced: nothing is closed in it that it has not opened, and nothing is left
open. The delimiters are told apart by counting them.

- `Within`, `Balanced`: the counts of delimiters, in all that a text begins with and in the whole.
- `nextDepth?`, `readGroupFrom_cons`: one step of the scan of a group.
- `readGroupFrom_append`: the steps through a text, at the end of which the depth is what is open.
- `readGroupFrom_eq_some_iff`: a group holds the balanced text in front of its closing delimiter.
- `Counted`: the scan of a group as a whole.
- `groupText`, `readGroup_groupText`, `exists_groupText`: groups that may be missing.
-/

namespace DocWeave.Directive

variable {opening closing : Char}

/-- With some groups open before it, a text at no place has closed more groups than there were. -/
def Within (opening closing : Char) (depth : Nat) (s : List Char) : Prop :=
  ∀ p, p <+: s → p.count closing ≤ p.count opening + depth

/-- At no place more groups have been closed than opened, and at the end as many. -/
structure Balanced (opening closing : Char) (s : List Char) : Prop where
  within : Within opening closing 0 s
  settled : s.count closing = s.count opening

/-! ## One step of the scan -/

/-- The depth after one more character; `none` if the character closes the group that is read. -/
def nextDepth? (opening closing : Char) (depth : Nat) (c : Char) : Option Nat :=
  if c = opening then some (depth + 1)
  else if c = closing then
    match depth with
    | 0 => none
    | d + 1 => some d
  else some depth

/-- The scan of a group goes on at the next depth, or ends where there is none. -/
theorem readGroupFrom_cons (depth : Nat) (read : List Char) (c : Char) (rest : List Char) :
    readGroupFrom opening closing depth read (c :: rest) =
      match nextDepth? opening closing depth c with
      | none => some (read.reverse, rest)
      | some d => readGroupFrom opening closing d (c :: read) rest := by
  unfold nextDepth?
  rw [readGroupFrom.eq_def]
  dsimp only
  split
  · rfl
  · split
    · cases depth <;> rfl
    · rfl

/-- Only the closing delimiter on the lowest level closes the group itself. -/
theorem nextDepth?_eq_none {depth : Nat} {c : Char} :
    nextDepth? opening closing depth c = none ↔ c ≠ opening ∧ c = closing ∧ depth = 0 := by
  unfold nextDepth?
  split
  · rename_i h
    exact ⟨nofun, fun hnot => absurd h hnot.1⟩
  · rename_i hopening
    split
    · rename_i hclosing
      cases depth with
      | zero => exact ⟨fun _ => ⟨hopening, hclosing, rfl⟩, fun _ => rfl⟩
      | succ d => exact ⟨nofun, nofun⟩
    · rename_i hclosing
      exact ⟨nofun, fun h => absurd h.2.1 hclosing⟩

/-- The depth changes by what the character opens and closes. -/
theorem count_nextDepth? (hne : opening ≠ closing) {depth d : Nat} {c : Char}
    (h : nextDepth? opening closing depth c = some d) (s : List Char) :
    (c :: s).count closing + s.count opening + d =
      (c :: s).count opening + s.count closing + depth := by
  unfold nextDepth? at h
  split at h
  · rename_i hc
    obtain rfl := Option.some.inj h
    rw [hc, List.count_cons_self, List.count_cons_of_ne hne]
    omega
  · rename_i hopening
    split at h
    · rename_i hc
      cases depth with
      | zero => cases h
      | succ k =>
        obtain rfl := Option.some.inj h
        rw [hc, List.count_cons_self, List.count_cons_of_ne hne.symm]
        omega
    · rename_i hclosing
      obtain rfl := Option.some.inj h
      rw [List.count_cons_of_ne hopening, List.count_cons_of_ne hclosing]
      omega

/-- The bound on a text is kept by a step, and the group itself is not closed. -/
theorem within_cons (hne : opening ≠ closing) {depth : Nat} {c : Char} {s : List Char} :
    Within opening closing depth (c :: s) ↔
      ∃ d, nextDepth? opening closing depth c = some d ∧ Within opening closing d s := by
  constructor
  · intro h
    cases hnext : nextDepth? opening closing depth c with
    | none =>
      obtain ⟨-, rfl, rfl⟩ := nextDepth?_eq_none.mp hnext
      -- The character alone closes more than there is to be closed.
      have hfirst := h [c] ((List.prefix_cons_inj c).mpr List.nil_prefix)
      rw [List.count_cons_self, List.count_cons_of_ne hne.symm] at hfirst
      exact absurd hfirst (by simp)
    | some d =>
      refine ⟨d, rfl, fun p hp => ?_⟩
      have hcount := count_nextDepth? hne hnext p
      have hbound := h (c :: p) ((List.prefix_cons_inj c).mpr hp)
      omega
  · -- What the text begins with is empty, or begins with the character that the step has read.
    rintro ⟨d, hnext, h⟩ p hp
    rcases List.prefix_cons_iff.mp hp with rfl | ⟨q, rfl, hq⟩
    · exact Nat.zero_le _
    · have hcount := count_nextDepth? hne hnext q
      have hbound := h q hq
      omega

theorem within_nil (depth : Nat) : Within opening closing depth [] := by
  intro p hp
  rw [List.prefix_nil.mp hp]
  exact Nat.zero_le _

/-! ## The scan of a group -/

/-- As long as the group is not closed, the scan goes on. The depth is then what has been opened and
not closed. -/
theorem readGroupFrom_append (hne : opening ≠ closing) {p : List Char} :
    ∀ {depth : Nat}, Within opening closing depth p →
      ∃ d, p.count opening + depth = p.count closing + d ∧ ∀ read rest,
        readGroupFrom opening closing depth read (p ++ rest) =
          readGroupFrom opening closing d (p.reverse ++ read) rest := by
  induction p with
  | nil => exact fun _ => ⟨_, rfl, fun _ _ => rfl⟩
  | cons c p ih =>
    intro depth h
    obtain ⟨d, hnext, hp⟩ := (within_cons hne).mp h
    obtain ⟨last, hlast, hscan⟩ := ih hp
    have hcount := count_nextDepth? hne hnext p
    refine ⟨last, by omega, fun read rest => ?_⟩
    rw [List.cons_append, readGroupFrom_cons, hnext]
    dsimp only
    rw [hscan, List.reverse_cons, List.append_assoc]
    rfl

/-- A text closes a group that is open in front of it, or it stays inside of it. -/
theorem within_or_exists (hne : opening ≠ closing) (s : List Char) : ∀ depth : Nat,
    Within opening closing depth s ∨ ∃ inner rest, s = inner ++ closing :: rest ∧
      Within opening closing depth inner ∧ inner.count closing = inner.count opening + depth := by
  induction s with
  | nil => exact fun depth => .inl (within_nil depth)
  | cons c s ih =>
    intro depth
    cases hnext : nextDepth? opening closing depth c with
    | none =>
      obtain ⟨-, rfl, rfl⟩ := nextDepth?_eq_none.mp hnext
      exact .inr ⟨[], s, rfl, within_nil 0, rfl⟩
    | some d =>
      refine (ih d).imp (fun h => (within_cons hne).mpr ⟨d, hnext, h⟩) ?_
      rintro ⟨inner, rest, rfl, hwithin, hcount⟩
      have hstep := count_nextDepth? hne hnext inner
      exact ⟨c :: inner, rest, rfl, (within_cons hne).mpr ⟨d, hnext, hwithin⟩, by omega⟩

/-- The scan of a group: it counts what is open inside the group, never less than nothing, and ends
where the group is closed. -/
structure Counted (opening closing : Char) : Prop where
  /-- While no more is closed than has been opened, the scan goes on, and the depth is the difference. -/
  depth : ∀ p, Within opening closing 0 p → ∃ d, p.count opening = p.count closing + d ∧
    ∀ rest, readGroupFrom opening closing 0 [] (p ++ rest) =
      readGroupFrom opening closing d p.reverse rest
  /-- The delimiter that would close more ends it. -/
  closed : ∀ inner rest, Balanced opening closing inner →
    readGroupFrom opening closing 0 [] (inner ++ closing :: rest) = some (inner, rest)
  /-- Where there is no such delimiter, the group is not closed at all. -/
  unclosed : ∀ s, Within opening closing 0 s → readGroupFrom opening closing 0 [] s = none
  /-- There are no other texts. -/
  exhaustive : ∀ s, Within opening closing 0 s ∨
    ∃ inner rest, s = inner ++ closing :: rest ∧ Balanced opening closing inner

/-- Delimiters that differ are told apart by counting them. -/
theorem counted (hne : opening ≠ closing) : Counted opening closing where
  depth p hp := by
    obtain ⟨d, hcount, hscan⟩ := readGroupFrom_append hne hp
    refine ⟨d, hcount, fun rest => ?_⟩
    rw [hscan, List.append_nil]
  closed inner rest h := by
    obtain ⟨d, hcount, hscan⟩ := readGroupFrom_append hne h.within
    -- all that was opened is closed again, so the next delimiter belongs to the group itself
    have hd : d = 0 := by have := h.settled; omega
    rw [hscan, readGroupFrom_cons, hd, nextDepth?_eq_none.mpr ⟨hne.symm, rfl, rfl⟩, List.append_nil]
    dsimp only
    rw [List.reverse_reverse]
  unclosed s h := by
    obtain ⟨d, -, hscan⟩ := readGroupFrom_append hne h
    have hend := hscan [] []
    rw [List.append_nil] at hend
    rw [hend, readGroupFrom]
  exhaustive s := by
    refine (within_or_exists hne s 0).imp_right ?_
    rintro ⟨inner, rest, hs, hwithin, hcount⟩
    exact ⟨inner, rest, hs, hwithin, hcount⟩

/-- A group is read if and only if balanced text stands in front of its closing delimiter. -/
theorem readGroupFrom_eq_some_iff (hne : opening ≠ closing) {s inner rest : List Char} :
    readGroupFrom opening closing 0 [] s = some (inner, rest) ↔
      s = inner ++ closing :: rest ∧ Balanced opening closing inner := by
  constructor
  · intro h
    -- The texts that the scan tells apart are all texts, so what it returns says which one was read.
    rcases (counted hne).exhaustive s with hopen | ⟨inner', rest', rfl, hbalanced⟩
    · rw [(counted hne).unclosed s hopen] at h
      cases h
    · rw [(counted hne).closed inner' rest' hbalanced] at h
      cases h
      exact ⟨rfl, hbalanced⟩
  · rintro ⟨rfl, hbalanced⟩
    exact (counted hne).closed inner rest hbalanced

/-! ## Groups that may be missing -/

/-- How a group is written; a missing one is not written at all. -/
def groupText (opening closing : Char) : Option (List Char) → List Char
  | none => []
  | some inner => opening :: (inner ++ [closing])

theorem head?_groupText (group? : Option (List Char)) :
    (groupText opening closing group?).head? = group?.map fun _ => opening := by
  cases group? <;> rfl

theorem getLast?_groupText (group? : Option (List Char)) :
    (groupText opening closing group?).getLast? = group?.map fun _ => closing := by
  cases group? with
  | none => rfl
  | some inner => rw [groupText, ← List.cons_append, List.getLast?_concat, Option.map_some]

/-- Different groups are written differently, and a missing one like none of them. -/
theorem groupText_injective : Function.Injective (groupText opening closing) := by
  intro g h heq
  cases g with
  | none =>
    cases h with
    | none => rfl
    | some _ => cases heq
  | some inner =>
    cases h with
    | none => cases heq
    | some inner' => rw [List.append_cancel_right (List.cons.inj heq).2]

/-- What is written as a group is read as one. -/
theorem readGroup_groupText (hne : opening ≠ closing) {group? : Option (List Char)}
    (hgroup : ∀ s ∈ group?, Balanced opening closing s) {rest : List Char}
    (hrest : ∀ c ∈ rest.head?, c ≠ opening) :
    readGroup opening closing (groupText opening closing group? ++ rest) =
      some (group?.getD [], rest) := by
  cases group? with
  | none =>
    cases rest with
    | nil => rfl
    | cons c rest => exact if_neg (hrest c rfl)
  | some inner =>
    rw [groupText, List.cons_append, List.append_assoc]
    unfold readGroup
    dsimp only
    rw [if_pos rfl]
    exact (counted hne).closed inner rest (hgroup inner rfl)

/-- What is read as a group is written as one. -/
theorem exists_groupText (hne : opening ≠ closing) {s inner rest : List Char}
    (h : readGroup opening closing s = some (inner, rest)) :
    ∃ group? : Option (List Char), s = groupText opening closing group? ++ rest ∧
      inner = group?.getD [] ∧ ∀ t ∈ group?, Balanced opening closing t := by
  unfold readGroup at h
  split at h
  · cases h
    exact ⟨none, rfl, rfl, nofun⟩
  · split at h
    · rename_i hc
      obtain ⟨rfl, hbalanced⟩ := (readGroupFrom_eq_some_iff hne).mp h
      refine ⟨some inner, ?_, rfl, fun t ht => Option.some.inj ht ▸ hbalanced⟩
      rw [hc, groupText, List.cons_append, List.append_assoc]
      rfl
    · cases h
      exact ⟨none, rfl, rfl, nofun⟩

end DocWeave.Directive

import DocWeave.Proofs.Page.Lossless

/-!
# Lines of fenced code

Whether a line of a source is part of a fenced block is said here about the source as a whole, by the
lines that open a block and those that close one. The lines are read one after the other with the open
fence as state; both come to the same.

- `Fence.Starts`: a line that starts with a fence; `ofLine_eq_some` reads it.
- `Opens`, `Closes`: the lines that open and close blocks; `Fenced`: those from one to the other.
- `openAfter_succ_eq_some`, `openAfter_succ_eq_none`: the lines that change the open fence.
- `scanned`: what the open fence says about the lines so far.
- `covers_iff`: the lines that are taken as fenced are those that are.
-/

namespace DocWeave.Page

open Text (LineAt)

/-! ## Fences -/

/-- A line starts with a fence, perhaps after white space; `rest` is what follows the fence. -/
structure Fence.Starts (fence : Fence) (line rest : List Char) : Prop where
  /-- The fence is a run of its mark, and only white space stands in front of it. -/
  run : ∃ blank, (∀ c ∈ blank, Text.isBlank c = true) ∧
    line = blank ++ (List.replicate fence.size fence.mark ++ rest)
  /-- The mark is a backtick or a tilde. -/
  mark : fence.mark = '\x60' ∨ fence.mark = '~'
  /-- There are at least three of them. -/
  size : 3 ≤ fence.size
  /-- The run goes as far as it can. -/
  whole : rest.head? ≠ some fence.mark

theorem isFenceMark_iff {c : Char} : isFenceMark c = true ↔ c = '\x60' ∨ c = '~' := by
  rw [isFenceMark, Bool.or_eq_true, decide_eq_true_iff, decide_eq_true_iff]

theorem not_blank_of_isFenceMark {c : Char} (h : isFenceMark c = true) : Text.isBlank c = false := by
  rcases isFenceMark_iff.mp h with rfl | rfl <;> decide

/-- A run of a character that goes as far as it can is cut off as a whole. -/
theorem takeWhile_replicate_append {c : Char} {rest : List Char} (h : rest.head? ≠ some c) (n : Nat) :
    (List.replicate n c ++ rest).takeWhile (· = c) = List.replicate n c ∧
      (List.replicate n c ++ rest).dropWhile (· = c) = rest := by
  have hrun : ∀ d ∈ List.replicate n c, decide (d = c) = true := fun d hd =>
    decide_eq_true (List.eq_of_mem_replicate hd)
  rw [List.takeWhile_append_of_pos hrun, List.dropWhile_append_of_pos hrun]
  cases rest with
  | nil => exact ⟨List.append_nil _, rfl⟩
  | cons d rest =>
    have hd : d ≠ c := fun heq => h (congrArg some heq)
    rw [List.takeWhile_cons, List.dropWhile_cons, decide_eq_false hd]
    exact ⟨List.append_nil _, rfl⟩

/-- Every text is such a run with what follows it. -/
theorem exists_replicate_append (c : Char) (text : List Char) :
    ∃ n rest, text = List.replicate n c ++ rest ∧ rest.head? ≠ some c := by
  induction text with
  | nil => exact ⟨0, [], rfl, nofun⟩
  | cons d text ih =>
    by_cases hd : d = c
    · obtain ⟨n, rest, rfl, hrest⟩ := ih
      exact ⟨n + 1, rest, by rw [hd, List.replicate_succ, List.cons_append], hrest⟩
    · exact ⟨0, d :: text, rfl, fun heq => hd (Option.some.inj heq)⟩

/-- Reading the fence of a line finds the one that it starts with. -/
theorem Fence.ofLine_eq_some {line rest : List Char} {fence : Fence} :
    Fence.ofLine line = some (fence, rest) ↔ fence.Starts line rest := by
  constructor
  · intro h
    unfold Fence.ofLine at h
    split at h
    · cases h
    · rename_i c text htrim
      obtain ⟨n, after, rfl, hafter⟩ := exists_replicate_append c text
      obtain ⟨htake, hdrop⟩ := takeWhile_replicate_append hafter n
      rw [htake, hdrop, List.length_replicate, Nat.add_comm 1 n] at h
      split at h
      · rename_i hmark
        dsimp only at h
        split at h
        · rename_i hsize
          obtain ⟨rfl, rfl⟩ := Prod.mk.inj (Option.some.inj h)
          refine ⟨⟨line.takeWhile Text.isBlank, fun d hd => List.mem_takeWhile_imp hd, ?_⟩,
            isFenceMark_iff.mp hmark, hsize, hafter⟩
          -- In front of the mark stands what has been trimmed.
          calc line = line.takeWhile Text.isBlank ++ Text.trimStart line :=
                List.takeWhile_append_dropWhile.symm
            _ = _ := by rw [htrim, List.replicate_succ, List.cons_append]
        · cases h
      · cases h
  · rintro ⟨⟨blank, hblank, rfl⟩, hmark, hsize, hwhole⟩
    obtain ⟨mark, size⟩ := fence
    dsimp only at hmark hsize hwhole
    obtain ⟨n, rfl⟩ : ∃ n, size = n + 1 := Nat.exists_eq_succ_of_ne_zero (by omega)
    have hfence := isFenceMark_iff.mpr hmark
    have htrim : Text.trimStart (blank ++ (List.replicate (n + 1) mark ++ rest)) =
        mark :: (List.replicate n mark ++ rest) := by
      rw [Text.trimStart, List.dropWhile_append_of_pos hblank, List.replicate_succ, List.cons_append,
        List.dropWhile_cons, not_blank_of_isFenceMark hfence]
      rfl
    obtain ⟨htake, hdrop⟩ := takeWhile_replicate_append hwhole n
    unfold Fence.ofLine
    rw [htrim]
    dsimp only
    rw [if_pos hfence, htake, hdrop, List.length_replicate, Nat.add_comm 1 n, if_pos hsize]

/-! ## Fenced lines of a source -/

/-- The line with number `n` of a source reads `text`, apart from its line end. -/
def TextAt (source : List Char) (n : Nat) (text : List Char) : Prop :=
  ∃ raw, LineAt source n raw ∧ text = Text.dropLineEnd raw

/-- A line starts with a fence. -/
def FenceAt (source : List Char) (n : Nat) (fence : Fence) : Prop :=
  ∃ (text rest : List Char), TextAt source n text ∧ fence.Starts text rest

/-- A line could close the block that `opening` has opened: it starts with a fence of the same mark
that is at least as long, and nothing but white space follows the fence. -/
def CanClose (source : List Char) (opening : Fence) (n : Nat) : Prop :=
  ∃ (text : List Char) (fence : Fence) (rest : List Char), TextAt source n text ∧
    fence.Starts text rest ∧ fence.mark = opening.mark ∧ opening.size ≤ fence.size ∧
      ∀ c ∈ rest, Text.isBlank c = true

/-- The first line after the opening one that can close the block does so. -/
def Closes (source : List Char) (i : Nat) (opening : Fence) (j : Nat) : Prop :=
  i < j ∧ CanClose source opening j ∧ ∀ m, i < m → m < j → ¬ CanClose source opening m

/-- A line opens a block if it starts with a fence, and is the first such line of the source or the
first one after the end of a block. -/
inductive Opens (source : List Char) : Nat → Fence → Prop where
  | first {k : Nat} {fence : Fence} (hfence : FenceAt source k fence)
      (hfirst : ∀ m < k, ∀ f, ¬ FenceAt source m f) : Opens source k fence
  | next {i j k : Nat} {opening fence : Fence} (hopens : Opens source i opening)
      (hcloses : Closes source i opening j) (hlater : j < k) (hfence : FenceAt source k fence)
      (hfirst : ∀ m, j < m → m < k → ∀ f, ¬ FenceAt source m f) : Opens source k fence

/-- A line belongs to a fenced block: it stands between the line that opens the block and the one
that closes it, or is one of the two. A block without an end goes on to the end of the source. -/
def Fenced (source : List Char) (n : Nat) : Prop :=
  ∃ i opening, Opens source i opening ∧ i ≤ n ∧ ∀ j, Closes source i opening j → n ≤ j

/-! ## The open fence -/

variable {source : List Char} {n : Nat} {opening : Fence}

/-- One more line, and the fence that is open behind it. -/
theorem openAfter_succ {raw : List Char} (h : (Text.lines source)[n]? = some raw) :
    openAfter source (n + 1) = (openAfter source n).next (Text.dropLineEnd raw) := by
  unfold openAfter FenceState.after
  rw [List.take_add_one, h, Option.toList_some, List.foldl_append]
  rfl

/-- Behind the last line nothing changes. -/
theorem openAfter_succ_of_none (h : (Text.lines source)[n]? = none) :
    openAfter source (n + 1) = openAfter source n := by
  unfold openAfter
  rw [List.take_add_one, h, Option.toList_none, List.append_nil]

theorem textAt_iff {text : List Char} : TextAt source (n + 1) text ↔
    ∃ raw, (Text.lines source)[n]? = some raw ∧ text = Text.dropLineEnd raw := by
  unfold TextAt
  simp only [Text.lineAt_iff]

/-- There is no line with number zero. -/
theorem not_fenceAt_zero (fence : Fence) : ¬ FenceAt source 0 fence := by
  rintro ⟨_, _, ⟨_, ⟨_, -, hnumber⟩, -⟩, -⟩
  cases hnumber

/-- Where no fence is open, a line opens the fence that it starts with. -/
theorem openAfter_succ_eq_some (h : openAfter source n = none) {fence : Fence} :
    openAfter source (n + 1) = some fence ↔ FenceAt source (n + 1) fence := by
  unfold FenceAt
  simp only [textAt_iff, ← Fence.ofLine_eq_some]
  cases hraw : (Text.lines source)[n]? with
  | none =>
    rw [openAfter_succ_of_none hraw, h]
    simp
  | some raw =>
    rw [openAfter_succ hraw, h]
    rcases hfence : Fence.ofLine (Text.dropLineEnd raw) with _ | ⟨f, rest⟩ <;>
      simp [FenceState.next, hfence]

/-- Where a fence is open, it stays so up to a line that can close it. -/
theorem openAfter_succ_eq_none (h : openAfter source n = some opening) :
    openAfter source (n + 1) = none ↔ CanClose source opening (n + 1) := by
  unfold CanClose
  simp only [textAt_iff, ← Fence.ofLine_eq_some]
  cases hraw : (Text.lines source)[n]? with
  | none =>
    rw [openAfter_succ_of_none hraw, h]
    simp
  | some raw =>
    rw [openAfter_succ hraw, h]
    rcases hfence : Fence.ofLine (Text.dropLineEnd raw) with _ | ⟨f, rest⟩
    · simp [FenceState.next, hfence]
    · -- The test for closing fences is what it says about the mark, the size and the rest.
      have hcloses : opening.closes f rest = true ↔
          f.mark = opening.mark ∧ opening.size ≤ f.size ∧ ∀ c ∈ rest, Text.isBlank c = true := by
        simp [Fence.closes, Text.isBlankText, and_assoc]
      simp [FenceState.next, hfence, ← hcloses]

theorem openAfter_succ_of_not_canClose (h : openAfter source n = some opening)
    (hcan : ¬ CanClose source opening (n + 1)) : openAfter source (n + 1) = some opening := by
  cases hraw : (Text.lines source)[n]? with
  | none => rw [openAfter_succ_of_none hraw, h]
  | some raw =>
    have hnext := mt (openAfter_succ_eq_none h).mp hcan
    rw [openAfter_succ hraw, h] at hnext ⊢
    rcases hfence : Fence.ofLine (Text.dropLineEnd raw) with _ | ⟨f, rest⟩
    · simp [FenceState.next, hfence]
    · by_cases hcloses : opening.closes f rest = true
      · exact absurd (by simp [FenceState.next, hfence, hcloses]) hnext
      · simp [FenceState.next, hfence, hcloses]

/-! ## Runs of lines -/

/-- No fence is opened by lines that do not start with one. -/
theorem openAfter_idle {k : Nat} (hnk : n ≤ k) (h : openAfter source n = none)
    (hidle : ∀ m, n < m → m ≤ k → ∀ f, ¬ FenceAt source m f) : openAfter source k = none := by
  induction k, hnk using Nat.le_induction with
  | base => exact h
  | succ k hnk ih =>
    have hk := ih fun m hn hm => hidle m hn (Nat.le_succ_of_le hm)
    cases hnext : openAfter source (k + 1) with
    | none => rfl
    | some fence =>
      have hfence := (openAfter_succ_eq_some hk).mp hnext
      exact absurd hfence (hidle (k + 1) (Nat.lt_succ_of_le hnk) le_rfl fence)

/-- A fence is not closed by lines that cannot close it. -/
theorem openAfter_kept {k : Nat} (hnk : n ≤ k) (h : openAfter source n = some opening)
    (hkept : ∀ m, n < m → m ≤ k → ¬ CanClose source opening m) :
    openAfter source k = some opening := by
  induction k, hnk using Nat.le_induction with
  | base => exact h
  | succ k hnk ih =>
    have hk := ih fun m hn hm => hkept m hn (Nat.le_succ_of_le hm)
    exact openAfter_succ_of_not_canClose hk (hkept (k + 1) (Nat.lt_succ_of_le hnk) le_rfl)

/-- A line that opens a block leaves its fence open. -/
theorem openAfter_of_opens {k : Nat} {fence : Fence} (h : Opens source k fence) :
    openAfter source k = some fence := by
  -- It is enough that no fence is open before the line.
  have hopen {k : Nat} {fence : Fence} (hfence : FenceAt source k fence) {n : Nat} (hnk : n < k)
      (hn : openAfter source n = none)
      (hfirst : ∀ m, n < m → m < k → ∀ f, ¬ FenceAt source m f) :
      openAfter source k = some fence := by
    obtain ⟨k, rfl⟩ := Nat.exists_eq_succ_of_ne_zero (Nat.ne_zero_of_lt hnk)
    have hk := openAfter_idle (Nat.le_of_lt_succ hnk) hn fun m hm hmk =>
      hfirst m hm (Nat.lt_succ_of_le hmk)
    exact (openAfter_succ_eq_some hk).mpr hfence
  induction h with
  | @first k fence hfence hfirst =>
    -- The first line has the number one, in front of which no fence is open.
    have hpos : 0 < k := Nat.pos_of_ne_zero fun hzero => by
      rw [hzero] at hfence
      exact not_fenceAt_zero _ hfence
    exact hopen hfence hpos rfl fun m _ hm => hfirst m hm
  | @next i j k opening fence _ hcloses hlater hfence hfirst ih =>
    -- Up to the line that closes it, the block before this one stays open.
    obtain ⟨hij, hcan, hbetween⟩ := hcloses
    obtain ⟨j, rfl⟩ := Nat.exists_eq_succ_of_ne_zero (Nat.ne_zero_of_lt hij)
    have hj := openAfter_kept (Nat.le_of_lt_succ hij) ih fun m hm hmj =>
      hbetween m hm (Nat.lt_succ_of_le hmj)
    exact hopen hfence hlater ((openAfter_succ_eq_none hj).mpr hcan) hfirst

/-! ## What the open fence says -/

/-- The first `n` lines leave no block open: none of them starts with a fence, or none does behind the
end of some block. -/
def Idle (source : List Char) (n : Nat) : Prop :=
  (∀ m ≤ n, ∀ f, ¬ FenceAt source m f) ∨
    ∃ i opening j, Opens source i opening ∧ Closes source i opening j ∧ j ≤ n ∧
      ∀ m, j < m → m ≤ n → ∀ f, ¬ FenceAt source m f

/-- The first `n` lines leave a block open that starts with `opening`. -/
def Unclosed (source : List Char) (n : Nat) (opening : Fence) : Prop :=
  ∃ i, Opens source i opening ∧ i ≤ n ∧ ∀ m, i < m → m ≤ n → ¬ CanClose source opening m

/-- The open fence tells which of the two is the case. -/
def Scanned (source : List Char) (n : Nat) : FenceState → Prop
  | none => Idle source n
  | some opening => Unclosed source n opening

/-- One line that opens no fence where none is open. -/
theorem Idle.succ (h : Idle source n) (hnext : ∀ f, ¬ FenceAt source (n + 1) f) :
    Idle source (n + 1) := by
  rcases h with hnone | ⟨i, opening, j, hopens, hcloses, hj, hnone⟩
  · refine Or.inl fun m hm => ?_
    rcases Nat.le_succ_iff.mp hm with hm | rfl
    · exact hnone m hm
    · exact hnext
  · refine Or.inr ⟨i, opening, j, hopens, hcloses, Nat.le_succ_of_le hj, fun m hjm hm => ?_⟩
    rcases Nat.le_succ_iff.mp hm with hm | rfl
    · exact hnone m hjm hm
    · exact hnext

/-- One line that opens a fence where none is open. -/
theorem Idle.opens (h : Idle source n) {fence : Fence} (hfence : FenceAt source (n + 1) fence) :
    Opens source (n + 1) fence := by
  rcases h with hnone | ⟨i, opening, j, hopens, hcloses, hj, hnone⟩
  · exact .first hfence fun m hm => hnone m (Nat.le_of_lt_succ hm)
  · exact .next hopens hcloses (Nat.lt_succ_of_le hj) hfence fun m hjm hm =>
      hnone m hjm (Nat.le_of_lt_succ hm)

/-- One line where a fence is open. -/
theorem Unclosed.succ (h : Unclosed source n opening) (hcan : ¬ CanClose source opening (n + 1)) :
    Unclosed source (n + 1) opening := by
  obtain ⟨i, hopens, hi, hnone⟩ := h
  refine ⟨i, hopens, Nat.le_succ_of_le hi, fun m him hm => ?_⟩
  rcases Nat.le_succ_iff.mp hm with hm | rfl
  · exact hnone m him hm
  · exact hcan

/-- One line that closes the open fence. -/
theorem Unclosed.idle (h : Unclosed source n opening) (hcan : CanClose source opening (n + 1)) :
    Idle source (n + 1) := by
  obtain ⟨i, hopens, hi, hnone⟩ := h
  refine Or.inr ⟨i, opening, n + 1, hopens, ⟨Nat.lt_succ_of_le hi, hcan, fun m him hm => ?_⟩,
    le_rfl, fun m hm hm' => absurd hm (Nat.not_lt_of_le hm')⟩
  exact hnone m him (Nat.le_of_lt_succ hm)

/-- Reading the lines finds the block that is open after them. -/
theorem scanned (source : List Char) (n : Nat) : Scanned source n (openAfter source n) := by
  induction n with
  | zero =>
    refine Or.inl fun m hm => ?_
    obtain rfl := Nat.le_zero.mp hm
    exact not_fenceAt_zero
  | succ n ih =>
    cases hn : openAfter source n with
    | none =>
      rw [hn] at ih
      cases hnext : openAfter source (n + 1) with
      | none =>
        refine Idle.succ ih fun f hf => ?_
        rw [(openAfter_succ_eq_some hn).mpr hf] at hnext
        cases hnext
      | some fence =>
        have hfence := (openAfter_succ_eq_some hn).mp hnext
        exact ⟨n + 1, Idle.opens ih hfence, le_rfl, fun m hm hm' => absurd hm (Nat.not_lt_of_le hm')⟩
    | some opening =>
      rw [hn] at ih
      by_cases hcan : CanClose source opening (n + 1)
      · rw [(openAfter_succ_eq_none hn).mpr hcan]
        exact Unclosed.idle ih hcan
      · rw [openAfter_succ_of_not_canClose hn hcan]
        exact Unclosed.succ ih hcan

/-- A block that is not closed before a line has no line before it that could close it. -/
theorem not_canClose_of_closes {i : Nat} (h : ∀ j, Closes source i opening j → n ≤ j) :
    ∀ m, i < m → m < n → ¬ CanClose source opening m := by
  intro m
  induction m using Nat.strong_induction_on with
  | _ m ih =>
    intro him hmn hcan
    have hcloses : Closes source i opening m :=
      ⟨him, hcan, fun k hik hkm => ih k hkm hik (hkm.trans hmn)⟩
    exact absurd (h m hcloses) (Nat.not_le_of_lt hmn)

/-- The lines that are taken as fenced are those between the ends of a block. -/
theorem covers_iff {raw : List Char} (h : (Text.lines source)[n]? = some raw) :
    (openAfter source n).covers (Text.dropLineEnd raw) = true ↔ Fenced source (n + 1) := by
  unfold FenceState.covers
  rw [← openAfter_succ h, Bool.or_eq_true]
  constructor
  · rintro (hopen | hopen)
    · obtain ⟨opening, hopen⟩ := Option.isSome_iff_exists.mp hopen
      have hscanned := scanned source n
      rw [hopen] at hscanned
      obtain ⟨i, hopens, hi, hnone⟩ := hscanned
      refine ⟨i, opening, hopens, Nat.le_succ_of_le hi, fun j hj => ?_⟩
      by_contra hlt
      exact hnone j hj.1 (by omega) hj.2.1
    · obtain ⟨opening, hopen⟩ := Option.isSome_iff_exists.mp hopen
      have hscanned := scanned source (n + 1)
      rw [hopen] at hscanned
      obtain ⟨i, hopens, hi, hnone⟩ := hscanned
      refine ⟨i, opening, hopens, hi, fun j hj => ?_⟩
      by_contra hlt
      exact hnone j hj.1 (by omega) hj.2.1
  · rintro ⟨i, opening, hopens, hi, hcloses⟩
    have hopen := openAfter_of_opens hopens
    have hnone := not_canClose_of_closes hcloses
    rcases Nat.le_succ_iff.mp hi with hi | rfl
    · rw [openAfter_kept hi hopen fun m him hm => hnone m him (Nat.lt_succ_of_le hm)]
      exact Or.inl rfl
    · rw [hopen]
      exact Or.inr rfl

end DocWeave.Page

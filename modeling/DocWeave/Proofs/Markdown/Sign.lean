import DocWeave.Text.Parts
import Mathlib.Data.List.Infix

/-!
# Signs in texts

A sign is the start of a tag that can be told from all that is written for a source. The start of a
comment with a tag of its own shows where something is to be put into a text later; the start of a
heading that Markdown does not have shows that somebody else has written it. So it matters that nothing
between two texts looks like a sign, not even together with what stands around.

- `IsSign`: the start of a comment, made of letters, digits, hyphens and colons, or of a heading of
  another level than the six.
- `Starts`: a text starts with the sign and what stands behind a sign.
- `Quiet`: this happens nowhere in a text, whatever follows it; `Clean`: if nothing follows.
- `Allows`: the headings of a level do not look like the sign.
- `prefix_append_cons`, `infix_append_cons`: no sign reaches over a character that it cannot hold.
- `Woven`, `weave`: a text that is made of others with texts put in between.
-/

namespace DocWeave.Markdown

/-- Whether a character may stand in a sign after the angle bracket. -/
def isSignChar (c : Char) : Bool :=
  c.isAlphanum || c = '!' || c = '-' || c = ':'

/-- Whether a character may stand behind a sign: a digit of a comment, or the end of the name of a
heading. -/
def isSignEnd (c : Char) : Bool :=
  c.isDigit || c = '>' || c = ' '

/-- A text that starts like a comment and goes on with letters, digits, hyphens and colons, or the start
of a heading whose number is none of the six levels. -/
inductive IsSign : List Char → Prop
  | comment {body : List Char} (hbody : ∀ c ∈ body, isSignChar c) :
    IsSign ('<' :: '!' :: '-' :: '-' :: body)
  | heading {number : List Char} (hne : number ≠ []) (hdigits : ∀ c ∈ number, c.isDigit)
    (hother : ∀ level, 1 ≤ level → level ≤ 6 → number ≠ (Nat.repr level).toList) :
    IsSign ('<' :: 'h' :: number)

/-- A text starts with a sign and what stands behind it. -/
def Starts (sign x : List Char) : Prop :=
  ∃ d : Char, isSignEnd d ∧ sign ++ [d] <+: x

/-- The sign and its end start nowhere in a text, whatever follows the text. -/
def Quiet (sign t : List Char) : Prop :=
  ∀ y, y <:+ t → y ≠ [] → ∀ z, ¬ Starts sign (y ++ z)

/-- The sign and its end stand nowhere in a text. -/
def Clean (sign t : List Char) : Prop :=
  ∀ y, y <:+ t → ¬ Starts sign y

variable {sign : List Char}

theorem isSignChar_of_isDigit {d : Char} (h : d.isDigit) : isSignChar d := by
  simp [isSignChar, Char.isAlphanum, h]

theorem isSignEnd_of_isDigit {d : Char} (h : d.isDigit) : isSignEnd d := by
  simp [isSignEnd, h]

namespace IsSign

/-- Behind its angle bracket, a sign holds none of the characters that separate texts. -/
theorem eq_cons (h : IsSign sign) : ∃ body, sign = '<' :: body ∧ ∀ c ∈ body, isSignChar c := by
  cases h with
  | @comment body hbody =>
    refine ⟨_, rfl, ?_⟩
    simp only [List.forall_mem_cons]
    exact ⟨by decide, by decide, by decide, hbody⟩
  | @heading number _ hdigits _ =>
    exact ⟨_, rfl, List.forall_mem_cons.mpr ⟨by decide, fun c hc =>
      isSignChar_of_isDigit (hdigits c hc)⟩⟩

/-- A character that no sign can hold. -/
theorem not_mem (h : IsSign sign) {s : Char} (hs : isSignChar s = false) (hne : s ≠ '<') :
    s ∉ sign := by
  obtain ⟨body, rfl, hplain⟩ := h.eq_cons
  intro hmem
  rcases List.mem_cons.mp hmem with rfl | hmem
  · exact hne rfl
  · rw [hplain s hmem] at hs
    cases hs

/-- No sign occurs in the empty text. -/
theorem absent_nil (h : IsSign sign) : ¬ sign <:+: [] := by
  obtain ⟨body, rfl, -⟩ := h.eq_cons
  rw [List.infix_nil]
  nofun

end IsSign

/-- Whether what stands behind an angle bracket can go on a sign: the mark of a declaration, or the name
of a heading. -/
def opensSign : List Char → Bool
  | '!' :: _ => true
  | 'h' :: d :: _ => d.isDigit
  | _ => false

/-- A text that starts with a sign opens a declaration or a heading. -/
theorem Starts.eq_cons (h : IsSign sign) {x : List Char} (hx : Starts sign x) :
    ∃ rest, x = '<' :: rest ∧ opensSign rest = true := by
  obtain ⟨d, -, z, rfl⟩ := hx
  cases h with
  | comment _ => exact ⟨_, rfl, rfl⟩
  | heading hne hdigits _ =>
    obtain ⟨c, number, rfl⟩ := List.exists_cons_of_ne_nil hne
    exact ⟨_, rfl, hdigits c List.mem_cons_self⟩

/-- If a sign starts in a text and goes on behind it, then all of the text belongs to the sign,
apart from its angle bracket. -/
theorem Starts.cases (h : IsSign sign) {y z : List Char} (hy : y ≠ []) (hx : Starts sign (y ++ z)) :
    Starts sign y ∨ ((∀ c ∈ y, c = '<' ∨ isSignChar c) ∧
      ∃ c ∈ z.head?, isSignChar c ∨ isSignEnd c) := by
  obtain ⟨d, hd, hbegins⟩ := hx
  by_cases hlen : (sign ++ [d]).length ≤ y.length
  · -- The sign and its end are inside the text.
    exact Or.inl ⟨d, hd, List.prefix_of_prefix_length_le hbegins (List.prefix_append y z) hlen⟩
  · -- Otherwise the text is a part of them, and what follows goes on with the next character.
    right
    obtain ⟨body, rfl, hplain⟩ := h.eq_cons
    obtain ⟨rest, hrest⟩ :=
      List.prefix_of_prefix_length_le (List.prefix_append y z) hbegins (Nat.le_of_not_le hlen)
    obtain ⟨c, y, rfl⟩ := List.exists_cons_of_ne_nil hy
    rw [List.cons_append, List.cons_append, List.cons.injEq] at hrest
    obtain ⟨rfl, htail⟩ := hrest
    -- What is left of the sign and its end is not empty, so the text is a part of the sign.
    have hne : rest ≠ [] := by
      rintro rfl
      rw [List.append_nil] at htail
      refine absurd (Nat.le_of_eq ?_) hlen
      rw [List.cons_append, ← htail]
    obtain ⟨front, e, rfl⟩ := List.exists_cons_of_ne_nil hne
    have hy : ∀ x ∈ y, isSignChar x := by
      have hbody : y <+: body := by
        rcases List.append_eq_append_iff.mp htail with ⟨more, hmore, -⟩ | ⟨more, hmore, hend⟩
        · exact ⟨more, hmore.symm⟩
        · rw [List.singleton_eq_append_iff] at hend
          rcases hend with ⟨rfl, -⟩ | ⟨-, hnil⟩
          · rw [List.append_nil] at hmore
            exact ⟨[], by rw [hmore, List.append_nil]⟩
          · cases hnil
      exact fun x hx => hplain x (hbody.subset hx)
    refine ⟨fun x hx => ?_, ?_⟩
    · rcases List.mem_cons.mp hx with rfl | hx
      · exact Or.inl rfl
      · exact Or.inr (hy x hx)
    · have hmem : front ∈ body ++ [d] := by
        rw [← htail]
        exact List.mem_append_right _ List.mem_cons_self
      rw [List.cons_append, ← htail] at hbegins
      obtain ⟨after, hz⟩ := hbegins
      rw [← List.cons_append, List.append_assoc, List.append_cancel_left_eq] at hz
      refine ⟨front, hz ▸ rfl, ?_⟩
      rcases List.mem_append.mp hmem with hmem | hmem
      · exact Or.inl (hplain front hmem)
      · rw [List.mem_singleton.mp hmem]
        exact Or.inr hd

/-! ## Quiet texts -/

theorem Quiet.clean {t : List Char} (h : IsSign sign) (ht : Quiet sign t) : Clean sign t := by
  intro y hy hstarts
  obtain ⟨rest, rfl, -⟩ := hstarts.eq_cons h
  exact ht _ hy (List.cons_ne_nil _ _) [] (by rwa [List.append_nil])

theorem quiet_nil : Quiet sign [] := by
  intro y hy hne
  exact absurd (List.suffix_nil.mp hy) hne

theorem clean_cons {c : Char} {t : List Char} :
    Clean sign (c :: t) ↔ ¬ Starts sign (c :: t) ∧ Clean sign t := by
  constructor
  · intro h
    exact ⟨h _ List.suffix_rfl, fun y hy => h y (hy.trans (List.suffix_cons c t))⟩
  · rintro ⟨hc, ht⟩ y hy
    rcases List.suffix_cons_iff.mp hy with rfl | hy
    · exact hc
    · exact ht y hy

theorem quiet_cons {c : Char} {t : List Char} :
    Quiet sign (c :: t) ↔ (∀ z, ¬ Starts sign (c :: t ++ z)) ∧ Quiet sign t := by
  constructor
  · intro h
    exact ⟨h _ List.suffix_rfl (List.cons_ne_nil c t),
      fun y hy => h y (hy.trans (List.suffix_cons c t))⟩
  · rintro ⟨hc, ht⟩ y hy hne
    rcases List.suffix_cons_iff.mp hy with rfl | hy
    · exact hc
    · exact ht y hy hne

theorem Quiet.append {a b : List Char} (ha : Quiet sign a) (hb : Quiet sign b) :
    Quiet sign (a ++ b) := by
  induction a with
  | nil => exact hb
  | cons c a ih =>
    obtain ⟨hc, ha⟩ := quiet_cons.mp ha
    refine quiet_cons.mpr ⟨fun z => ?_, ih ha⟩
    have hz := hc (b ++ z)
    rwa [← List.append_assoc] at hz

/-- Behind a quiet text, a clean one stays clean. -/
theorem Quiet.append_clean {a b : List Char} (ha : Quiet sign a) (hb : Clean sign b) :
    Clean sign (a ++ b) := by
  induction a with
  | nil => exact hb
  | cons c a ih =>
    obtain ⟨hc, ha⟩ := quiet_cons.mp ha
    exact clean_cons.mpr ⟨hc b, ih ha⟩

/-- A text without angle brackets is quiet. -/
theorem quiet_of_not_mem (h : IsSign sign) {t : List Char} (ht : '<' ∉ t) : Quiet sign t := by
  intro y hy hne z hstarts
  obtain ⟨rest, hrest, -⟩ := hstarts.eq_cons h
  obtain ⟨c, y, rfl⟩ := List.exists_cons_of_ne_nil hne
  obtain ⟨rfl, -⟩ := List.cons_eq_cons.mp hrest
  exact ht (hy.subset List.mem_cons_self)

/-- Whether every angle bracket of a text is followed by something that goes on no sign, whatever follows
the text. -/
def opensTags : List Char → Bool
  | [] => true
  | c :: rest => (c ≠ '<' || !rest.isEmpty && rest ≠ ['h'] && !opensSign rest) && opensTags rest

/-- What goes on a sign with something behind it goes on a sign without it, if it is long enough. -/
theorem opensSign_append {rest z : List Char} (hne : rest ≠ []) (hh : rest ≠ ['h'])
    (h : opensSign (rest ++ z) = true) : opensSign rest = true := by
  unfold opensSign at h
  split at h
  · rename_i after heq
    obtain ⟨c, rest, rfl⟩ := List.exists_cons_of_ne_nil hne
    rw [List.cons_append, List.cons.injEq] at heq
    obtain ⟨rfl, -⟩ := heq
    rfl
  · rename_i d after heq
    obtain ⟨c, rest, rfl⟩ := List.exists_cons_of_ne_nil hne
    rw [List.cons_append, List.cons.injEq] at heq
    obtain ⟨rfl, heq⟩ := heq
    cases rest with
    | nil => exact absurd rfl hh
    | cons e rest =>
      obtain ⟨rfl, -⟩ := List.cons_eq_cons.mp heq
      exact h
  · cases h

/-- Where a text opens a tag, no sign goes on, whatever follows the text. -/
theorem opensSign_of_opensTags {rest : List Char} (h : opensTags ('<' :: rest)) (z : List Char) :
    opensSign (rest ++ z) = false := by
  obtain ⟨hbracket, -⟩ := Bool.and_eq_true_iff.mp h
  simp only [ne_eq, not_true_eq_false, decide_false, Bool.false_or, Bool.and_eq_true,
    Bool.not_eq_true', List.isEmpty_eq_false_iff, decide_eq_true_eq] at hbracket
  obtain ⟨⟨hne, hh⟩, hopens⟩ := hbracket
  refine Bool.eq_false_iff.mpr fun hlonger => ?_
  rw [opensSign_append hne hh hlonger] at hopens
  cases hopens

/-- A tag is quiet, unless it is that of a heading. -/
theorem quiet_tag (h : IsSign sign) {x : Char} {rest : List Char} (hx : x ≠ '!') (hh : x ≠ 'h')
    (hrest : '<' ∉ x :: rest) : Quiet sign ('<' :: x :: rest) := by
  refine quiet_cons.mpr ⟨fun z hstarts => ?_, quiet_of_not_mem h hrest⟩
  obtain ⟨more, hmore, hopens⟩ := hstarts.eq_cons h
  cases hmore
  unfold opensSign at hopens
  split at hopens
  · rename_i heq
    exact hx (List.cons_eq_cons.mp heq).1
  · rename_i heq
    exact hh (List.cons_eq_cons.mp heq).1
  · cases hopens

/-- A text of tags is quiet. -/
theorem quiet_of_opensTags (h : IsSign sign) : ∀ {t : List Char}, opensTags t → Quiet sign t
  | [], _ => quiet_nil
  | c :: rest, ht => by
    obtain ⟨-, hrest⟩ := Bool.and_eq_true_iff.mp ht
    refine quiet_cons.mpr ⟨fun z hstarts => ?_, quiet_of_opensTags h hrest⟩
    obtain ⟨more, hmore, hopens⟩ := hstarts.eq_cons h
    rw [List.cons_append, List.cons.injEq] at hmore
    obtain ⟨rfl, rfl⟩ := hmore
    rw [opensSign_of_opensTags ht z] at hopens
    cases hopens

/-! ## Tags of headings -/

/-- The start tag of a heading of some level does not look like the sign. -/
def Allows (sign : List Char) (level : Nat) : Prop :=
  ∀ s, s = '>' ∨ s = ' ' → Quiet sign ('<' :: 'h' :: (Nat.repr level).toList ++ [s])

theorem isDigit_of_mem_repr {n : Nat} {c : Char} (hc : c ∈ (Nat.repr n).toList) : c.isDigit := by
  rw [Nat.toList_repr] at hc
  exact Nat.isDigit_of_mem_toDigits (by decide) (by decide) hc

/-- Behind its angle bracket, the tag of a heading holds none. -/
theorem not_mem_headingTag {level : Nat} {s : Char} (hs : s = '>' ∨ s = ' ') :
    '<' ∉ 'h' :: (Nat.repr level).toList ++ [s] := by
  simp only [List.cons_append, List.mem_cons, List.mem_append, List.not_mem_nil, or_false, not_or]
  refine ⟨by decide, fun hmem => absurd (isDigit_of_mem_repr hmem) (by decide), ?_⟩
  rcases hs with rfl | rfl <;> decide

/-- No heading looks like a comment. -/
theorem IsSign.allows_of_comment {body : List Char} (h : IsSign ('<' :: '!' :: body)) (level : Nat) :
    Allows ('<' :: '!' :: body) level := by
  intro s hs
  refine quiet_cons.mpr ⟨?_, quiet_of_not_mem h (not_mem_headingTag hs)⟩
  rintro z ⟨d, -, hstarts⟩
  exact absurd (List.cons_prefix_cons.mp (List.cons_prefix_cons.mp hstarts).2).1 (by decide)

/-- The headings of the six levels do not look like a sign. -/
theorem IsSign.allows (h : IsSign sign) {level : Nat} (hlevel : 1 ≤ level ∧ level ≤ 6) :
    Allows sign level := by
  cases h with
  | comment hbody => exact (IsSign.comment hbody).allows_of_comment level
  | @heading number hne hdigits hother =>
    intro s hs
    refine quiet_cons.mpr ⟨?_, quiet_of_not_mem (.heading hne hdigits hother) (not_mem_headingTag hs)⟩
    rintro z ⟨d, -, hstarts⟩
    -- The level has one digit, so it is the number of the sign or differs from it at once.
    have hone : ∃ c, (Nat.repr level).toList = [c] := by
      have hcases : level = 1 ∨ level = 2 ∨ level = 3 ∨ level = 4 ∨ level = 5 ∨ level = 6 := by omega
      rcases hcases with rfl | rfl | rfl | rfl | rfl | rfl <;> exact ⟨_, rfl⟩
    obtain ⟨c, hc⟩ := hone
    obtain ⟨e, number, rfl⟩ := List.exists_cons_of_ne_nil hne
    rw [hc] at hstarts
    obtain ⟨hfirst, hbehind⟩ := List.cons_prefix_cons.mp
      (List.cons_prefix_cons.mp (List.cons_prefix_cons.mp hstarts).2).2
    cases number with
    | nil => exact hother level hlevel.1 hlevel.2 (hfirst ▸ hc.symm)
    | cons e' number =>
      obtain ⟨rfl, -⟩ := List.cons_prefix_cons.mp hbehind
      have hdigit := hdigits e' (List.mem_cons_of_mem _ List.mem_cons_self)
      rcases hs with rfl | rfl <;> exact absurd hdigit (by decide)

/-! ## Texts that go on -/

/-- A clean text is quiet if its last character cannot stand in a sign. -/
theorem Clean.quiet {t : List Char} (h : IsSign sign) (ht : Clean sign t) {s : Char}
    (hlast : t.getLast? = some s) (hs : isSignChar s = false) (hne : s ≠ '<') : Quiet sign t := by
  intro y hy hy0 z hstarts
  rcases hstarts.cases h hy0 with hstarts | ⟨hy', -⟩
  · exact ht y hy hstarts
  · obtain ⟨before, rfl⟩ := hy
    obtain ⟨x, hx⟩ := Option.ne_none_iff_exists'.mp (mt List.getLast?_eq_none_iff.mp hy0)
    rw [List.getLast?_append, hx, Option.some_or] at hlast
    cases hlast
    rcases hy' s (List.mem_of_getLast? hx) with rfl | hsign
    · exact hne rfl
    · rw [hs] at hsign
      cases hsign

/-- A clean text is quiet together with one that starts with a tag or a line end. -/
theorem Clean.append_quiet {a b : List Char} (h : IsSign sign) (ha : Clean sign a)
    (hb : Quiet sign b) {s : Char} (hhead : b.head? = some s)
    (hs : (isSignChar s || isSignEnd s) = false) : Quiet sign (a ++ b) := by
  intro y hy hy0 z hstarts
  obtain ⟨before, hbefore⟩ := hy
  rcases List.append_eq_append_iff.mp hbefore with ⟨y', rfl, rfl⟩ | ⟨more, -, rfl⟩
  · rw [List.append_assoc] at hstarts
    by_cases hy' : y' = []
    · subst hy'
      exact hb b List.suffix_rfl hy0 z hstarts
    · rcases hstarts.cases h hy' with hstarts | ⟨-, c, hc, hsign⟩
      · exact ha y' (List.suffix_append _ _) hstarts
      · rw [List.head?_append, hhead] at hc
        cases hc
        rw [← Bool.or_eq_true, hs] at hsign
        cases hsign
  · exact hb y (List.suffix_append _ _) hy0 z hstarts

/-! ## Texts without the sign -/

/-- A text in which the sign does not occur is clean. -/
theorem clean_of_absent {t : List Char} (ht : ¬ sign <:+: t) : Clean sign t := by
  rintro y hy ⟨d, -, hd⟩
  exact ht (((List.prefix_append sign [d]).trans hd).isInfix.trans hy.isInfix)

/-- One character more cannot complete the sign and its end. -/
theorem clean_concat {t : List Char} {c : Char} (ht : ¬ sign <:+: t) : Clean sign (t ++ [c]) := by
  rintro y hy ⟨d, -, hd⟩
  rcases List.infix_concat_iff.mp (hd.isInfix.trans hy.isInfix) with hsuffix | hpart
  · rcases List.suffix_concat_iff.mp hsuffix with hnil | ⟨sign', hsign', hsuffix⟩
    · cases List.append_eq_nil_iff.mp hnil |>.2
    · rw [(List.append_inj_left' hsign' rfl)] at ht
      exact ht hsuffix.isInfix
  · exact ht ((List.prefix_append sign [d]).isInfix.trans hpart)

/-- A sign stands in front of a character that it cannot hold, or behind it. -/
theorem prefix_append_cons (h : IsSign sign) {s : Char} (hs : isSignChar s = false) (hne : s ≠ '<')
    {front a b : List Char} (hp : front ++ sign <+: a ++ s :: b) :
    front ++ sign <+: a ∨ ∃ more, front = a ++ s :: more ∧ more ++ sign <+: b := by
  obtain ⟨z, hz⟩ := hp
  rcases List.append_eq_append_iff.mp hz with ⟨c, ha, -⟩ | ⟨c, hfront, hrest⟩
  · exact Or.inl ⟨c, ha.symm⟩
  · cases c with
    | nil =>
      rw [List.append_nil] at hfront
      exact Or.inl ⟨[], by rw [hfront, List.append_nil]⟩
    | cons x c =>
      obtain ⟨rfl, hb⟩ := List.cons.inj hrest
      -- the character stands in what is before the sign, since it is none of the sign's
      rcases List.append_eq_append_iff.mp hfront with ⟨e, -, hsign⟩ | ⟨e, he, hmore⟩
      · refine absurd ?_ (h.not_mem hs hne)
        rw [hsign]
        exact List.mem_append_right e List.mem_cons_self
      · cases e with
        | nil =>
          obtain ⟨body, rfl, -⟩ := h.eq_cons
          exact absurd (List.cons.inj hmore).1 hne
        | cons y e =>
          obtain ⟨rfl, rfl⟩ := List.cons.inj hmore
          exact Or.inr ⟨e, he, z, hb.symm⟩

/-- The sign occurs in none of two texts with a character between them that it cannot hold. -/
theorem infix_append_cons (h : IsSign sign) {a b : List Char} {s : Char}
    (hs : isSignChar s = false) (hne : s ≠ '<') :
    sign <:+: a ++ s :: b ↔ sign <:+: a ∨ sign <:+: b := by
  constructor
  · rintro ⟨front, back, hsplit⟩
    rcases prefix_append_cons h hs hne ⟨back, hsplit⟩ with ha | ⟨more, -, hb⟩
    · exact Or.inl ((List.suffix_append front sign).isInfix.trans ha.isInfix)
    · exact Or.inr ((List.suffix_append more sign).isInfix.trans hb.isInfix)
  · rintro (ha | hb)
    · exact ha.trans (List.prefix_append a _).isInfix
    · exact hb.trans (List.suffix_append_of_suffix (List.suffix_cons s b)).isInfix

/-- Spaces before a text do not make a sign. -/
theorem infix_replicate_append (h : IsSign sign) {t : List Char} :
    ∀ {n : Nat}, sign <:+: List.replicate n ' ' ++ t → sign <:+: t
  | 0, hn => hn
  | n + 1, hn => by
    rw [List.replicate_succ, List.cons_append] at hn
    rcases List.infix_cons_iff.mp hn with hbegins | hn
    · obtain ⟨body, rfl, -⟩ := h.eq_cons
      exact absurd (List.cons_prefix_cons.mp hbegins).1 (by decide)
    · exact infix_replicate_append h hn

/-! ## Texts put in between -/

/-- A text that is made of others, with the ones listed put in between. Those before the ones put in
are `mid`, the one at the end is `last`. -/
inductive Woven (mid last : List Char → Prop) : List (List Char) → List Char → Prop
  | nil {t : List Char} (ht : last t) : Woven mid last [] t
  | cons {t x : List Char} (c : List Char) {cs : List (List Char)} (ht : mid t)
      (hx : Woven mid last cs x) : Woven mid last (c :: cs) (t ++ (c ++ x))

namespace Woven

variable {mid last : List Char → Prop}

theorem append (hmid : ∀ {a b}, mid a → mid b → mid (a ++ b))
    (hlast : ∀ {a b}, mid a → last b → last (a ++ b)) {cs ds : List (List Char)} {x y : List Char}
    (hx : Woven mid mid cs x) (hy : Woven mid last ds y) : Woven mid last (cs ++ ds) (x ++ y) := by
  induction hx with
  | nil ht =>
    cases hy with
    | nil hu => exact nil (hlast ht hu)
    | cons c hu hy =>
      rw [← List.append_assoc]
      exact cons c (hmid ht hu) hy
  | cons c ht _ ih =>
    rw [List.append_assoc, List.append_assoc]
    exact cons c ht ih

/-- The text at the end may be exchanged, with something that goes behind it. -/
theorem concat {last' : List Char → Prop} {cs : List (List Char)} {x y : List Char}
    (hx : Woven mid last cs x) (hlast : ∀ {t}, last t → last' (t ++ y)) :
    Woven mid last' cs (x ++ y) := by
  induction hx with
  | nil ht => exact nil (hlast ht)
  | cons c ht _ ih =>
    rw [List.append_assoc, List.append_assoc]
    exact cons c ht ih

end Woven

/-- Texts, each with another one behind it, and a last text. -/
def weave (texts others : List (List Char)) (last : List Char) : List Char :=
  (List.zipWith (· ++ ·) texts others).flatten ++ last

theorem weave_cons (t c : List Char) (texts cs : List (List Char)) (last : List Char) :
    weave (t :: texts) (c :: cs) last = t ++ (c ++ weave texts cs last) := by
  rw [weave, weave, List.zipWith_cons_cons, List.flatten_cons, List.append_assoc, List.append_assoc]

theorem Woven.exists_texts {mid last : List Char → Prop} {cs : List (List Char)} {x : List Char}
    (hx : Woven mid last cs x) :
    ∃ texts t, texts.length = cs.length ∧ (∀ u ∈ texts, mid u) ∧ last t ∧ x = weave texts cs t := by
  induction hx with
  | nil ht => exact ⟨[], _, rfl, nofun, ht, rfl⟩
  | cons c ht _ ih =>
    obtain ⟨texts, t, hlength, htexts, hlast, rfl⟩ := ih
    refine ⟨_ :: texts, t, ?_, List.forall_mem_cons.mpr ⟨ht, htexts⟩, hlast,
      (weave_cons _ c texts _ t).symm⟩
    rw [List.length_cons, List.length_cons, hlength]

/-- A text is clean; and it is quiet, if it is known to have ended. -/
def Settled (sign : List Char) (ended : Bool) (t : List Char) : Prop :=
  Clean sign t ∧ (ended → Quiet sign t)

theorem Quiet.settled {t : List Char} {ended : Bool} (h : IsSign sign) (ht : Quiet sign t) :
    Settled sign ended t :=
  ⟨ht.clean h, fun _ => ht⟩

theorem Quiet.append_settled {a b : List Char} {ended : Bool} (ha : Quiet sign a)
    (hb : Settled sign ended b) : Settled sign ended (a ++ b) :=
  ⟨ha.append_clean hb.1, fun hended => ha.append (hb.2 hended)⟩

/-- A text in which the ones listed stand in this order, while no sign starts elsewhere. -/
def Shown (sign : List Char) (ended : Bool) : List (List Char) → List Char → Prop :=
  Woven (Quiet sign) (Settled sign ended)

theorem Quiet.shown {t : List Char} {ended : Bool} (h : IsSign sign) (ht : Quiet sign t) :
    Shown sign ended [] t :=
  .nil (ht.settled h)

namespace Shown

variable {ended : Bool} {cs ds : List (List Char)} {x y : List Char}

theorem mono (h : IsSign sign) (hx : Shown sign true cs x) : Shown sign ended cs x := by
  rw [← List.append_nil x]
  refine hx.concat fun ht => ?_
  rw [List.append_nil]
  exact (ht.2 rfl).settled h

theorem append (hx : Shown sign true cs x) (hy : Shown sign ended ds y) :
    Shown sign ended (cs ++ ds) (x ++ y) := by
  refine Woven.append Quiet.append Quiet.append_settled ?_ hy
  rw [← List.append_nil x]
  refine hx.concat fun ht => ?_
  rw [List.append_nil]
  exact ht.2 rfl

/-- A text has ended if a tag or a line end follows it. -/
theorem append_quiet (h : IsSign sign) (hx : Shown sign ended cs x) (hy : Quiet sign y) {s : Char}
    (hhead : y.head? = some s) (hs : (isSignChar s || isSignEnd s) = false) :
    Shown sign true cs (x ++ y) :=
  hx.concat fun ht => (ht.1.append_quiet h hy hhead hs).settled h

end Shown

end DocWeave.Markdown

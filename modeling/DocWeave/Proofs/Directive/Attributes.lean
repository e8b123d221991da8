import DocWeave.Proofs.Directive.Values

/-!
# Attributes as they are written

A directive holds attributes one after the other, with white space between them. Each is a key, alone or
with a value, and reading takes them apart at just the places where they were put together.

- `Assignment`, `Attribute`: what may be written for a key.
- `Spells`: a text spells a list of attributes.
- `readItem_text`, `itemsFrom_eq`: one attribute is read from its text, and all from theirs.
- `get?_readAttributes`: of several values for a key the last one is found.
- `attributes_read_back`: the request of a directive that has been written.
-/

namespace DocWeave.Directive

/-! ## What is written -/

/-- How an attribute goes on behind its key. -/
inductive Assignment where
  /-- Not at all. -/
  | flag
  /-- With a value between two quotes. -/
  | quoted (quote : Char) (value : List Char)
  /-- With a value that goes on to the next white space. -/
  | plain (value : List Char)

namespace Assignment

/-- A quoted value does not hold its quote. A plain one holds no white space and starts with no quote. -/
def Fits : Assignment → Prop
  | flag => True
  | quoted quote value => (quote = '"' ∨ quote = '\'') ∧ quote ∉ value
  | plain value =>
    (∀ c ∈ value, Text.isBlank c = false) ∧ value.head? ≠ some '"' ∧ value.head? ≠ some '\''

/-- The text behind the key. -/
def text : Assignment → List Char
  | flag => []
  | quoted quote value => '=' :: quote :: (value ++ [quote])
  | plain value => '=' :: value

/-- The value that is read. -/
def value : Assignment → List Char
  | flag => "true".toList
  | quoted _ value => value
  | plain value => value

/-- The value that an option gets: a flag is as good as the value `true`, and both are the empty
text. -/
def optionValue : Assignment → String
  | flag => ""
  | quoted _ value => if value = "true".toList then "" else String.ofList value
  | plain value => if value = "true".toList then "" else String.ofList value

theorem normalizeValue_value (a : Assignment) :
    normalizeValue (String.ofList a.value) = a.optionValue := by
  have hvalue (value : List Char) : normalizeValue (String.ofList value) =
      if value = "true".toList then "" else String.ofList value := by
    have htrue : String.ofList value = flagValue ↔ value = "true".toList := by
      rw [← String.toList_inj, String.toList_ofList]
      rfl
    unfold normalizeValue
    simp only [htrue]
  cases a with
  | flag => exact (hvalue "true".toList).trans (if_pos rfl)
  | quoted _ value => exact hvalue value
  | plain value => exact hvalue value

end Assignment

/-- An attribute as it may be written. -/
structure Attribute where
  /-- The key. -/
  key : List Char
  /-- What stands behind it. -/
  assignment : Assignment
  key_ne_nil : key ≠ []
  isNameChar_of_mem : ∀ c ∈ key, isNameChar c = true
  fits : assignment.Fits

namespace Attribute

/-- The attribute in a directive. -/
def text (a : Attribute) : List Char :=
  a.key ++ a.assignment.text

/-- What is read from it. -/
def item (a : Attribute) : Item :=
  ⟨a.key, a.assignment.value, a.text.length⟩

end Attribute

/-- A text ends, or goes on with white space. -/
def StartsBlank (s : List Char) : Prop :=
  ∀ c ∈ s.head?, Text.isBlank c = true

theorem startsBlank_cons {c : Char} (hc : Text.isBlank c = true) (s : List Char) :
    StartsBlank (c :: s) := by
  rintro d ⟨⟩
  exact hc

/-- A text spells attributes: they stand in it in this order, with white space behind each that has
something behind it, and with any more white space around them. -/
inductive Spells : List Attribute → List Char → Prop where
  | nil : Spells [] []
  | blank {as : List Attribute} {c : Char} {s : List Char} (hc : Text.isBlank c = true)
      (hs : Spells as s) : Spells as (c :: s)
  | cons {as : List Attribute} {s : List Char} (a : Attribute) (hnext : StartsBlank s)
      (hs : Spells as s) : Spells (a :: as) (a.text ++ s)

/-! ## One attribute -/

/-- A value goes up to its quote, which it does not hold. -/
theorem upToQuote_append {quote : Char} {value : List Char} (h : quote ∉ value) (s : List Char) :
    upToQuote quote (value ++ quote :: s) = some value := by
  induction value with
  | nil => exact if_pos rfl
  | cons c value ih =>
    rw [List.mem_cons, not_or] at h
    rw [List.cons_append, upToQuote, if_neg (Ne.symm h.1), ih h.2]
    rfl

/-- A plain value ends where white space begins. -/
theorem takeWhile_plain {value s : List Char} (hvalue : ∀ c ∈ value, Text.isBlank c = false)
    (hs : StartsBlank s) : (value ++ s).takeWhile (!Text.isBlank ·) = value := by
  have hall : ∀ c ∈ value, (!Text.isBlank c) = true := by
    intro c hc
    rw [hvalue c hc, Bool.not_false]
  rw [List.takeWhile_append_of_pos hall]
  cases s with
  | nil => exact List.append_nil value
  | cons c s =>
    rw [List.takeWhile_cons, hs c rfl, Bool.not_true, if_neg Bool.false_ne_true, List.append_nil]

/-- No quote comes first in a plain value, nor in the white space behind an empty one. -/
theorem head?_plain {quote : Char} {value s : List Char} (hblank : Text.isBlank quote = false)
    (hvalue : value.head? ≠ some quote) (hs : StartsBlank s) : (value ++ s).head? ≠ some quote := by
  intro hhead
  cases value with
  | nil =>
    rw [hs quote hhead] at hblank
    cases hblank
  | cons c value => exact hvalue hhead

/-- A key with nothing behind it is a flag. -/
theorem readItemAfter_flag (key : List Char) {s : List Char} (hs : StartsBlank s) :
    readItemAfter key s = some ⟨key, flagValue.toList, key.length⟩ := by
  cases s with
  | nil => rfl
  | cons c s =>
    have hc := hs c rfl
    -- White space is no equals sign.
    have hne : c ≠ '=' := by
      rintro rfl
      revert hc
      decide
    unfold readItemAfter
    dsimp only
    rw [if_neg hne, if_pos hc]

/-- Behind an equals sign and a quote, the value goes up to the same quote. -/
theorem readItemAfter_quoted (key : List Char) {quote : Char} (hquote : quote = '"' ∨ quote = '\'')
    {value : List Char} (hvalue : quote ∉ value) (s : List Char) :
    readItemAfter key ('=' :: quote :: (value ++ quote :: s)) =
      some ⟨key, value, key.length + value.length + 3⟩ := by
  have hread := upToQuote_append hvalue s
  unfold readItemAfter
  dsimp only
  rw [if_pos rfl]
  rcases hquote with rfl | rfl
  · show (upToQuote '"' (value ++ '"' :: s)).map _ = _
    rw [hread]
    rfl
  · show (upToQuote '\'' (value ++ '\'' :: s)).map _ = _
    rw [hread]
    rfl

/-- Behind an equals sign alone, the value goes up to white space. -/
theorem readItemAfter_plain (key : List Char) {value s : List Char}
    (hvalue : ∀ c ∈ value, Text.isBlank c = false) (hdouble : value.head? ≠ some '"')
    (hsingle : value.head? ≠ some '\'') (hs : StartsBlank s) :
    readItemAfter key ('=' :: (value ++ s)) =
      some ⟨key, value, key.length + value.length + 1⟩ := by
  have htake := takeWhile_plain hvalue hs
  have hdouble := head?_plain (by decide) hdouble hs
  have hsingle := head?_plain (by decide) hsingle hs
  unfold readItemAfter
  dsimp only
  rw [if_pos rfl]
  split
  · rename_i hrest
    rw [hrest] at hdouble
    exact absurd rfl hdouble
  · rename_i hrest
    rw [hrest] at hsingle
    exact absurd rfl hsingle
  · rw [htake]

/-- An assignment is read behind its key, as far as it goes. -/
theorem readItemAfter_text (key : List Char) {a : Assignment} (ha : a.Fits) {s : List Char}
    (hs : StartsBlank s) :
    readItemAfter key (a.text ++ s) = some ⟨key, a.value, key.length + a.text.length⟩ := by
  cases a with
  | flag => exact readItemAfter_flag key hs
  | quoted quote value =>
    have hlength : (Assignment.text (.quoted quote value)).length = value.length + 3 := by
      simp [Assignment.text]
    have hread := readItemAfter_quoted key ha.1 ha.2 s
    rw [hlength, ← Nat.add_assoc]
    simpa [Assignment.text, Assignment.value] using hread
  | plain value => exact readItemAfter_plain key ha.1 ha.2.1 ha.2.2 hs

namespace Attribute

/-- The key ends where the assignment or the white space behind it begins. -/
theorem isNameChar_head? (a : Attribute) {s : List Char} (hs : StartsBlank s) :
    ∀ c ∈ (a.assignment.text ++ s).head?, isNameChar c = false := by
  intro c hc
  have hequals : isNameChar '=' = false := by decide
  cases hassignment : a.assignment with
  | flag =>
    rw [hassignment] at hc
    exact isNameChar_of_isBlank (hs c hc)
  | quoted quote value =>
    rw [hassignment] at hc
    cases hc
    exact hequals
  | plain value =>
    rw [hassignment] at hc
    cases hc
    exact hequals

/-- An attribute is read from its text, as far as it goes. -/
theorem readItem_text (a : Attribute) {s : List Char} (hs : StartsBlank s) :
    readItem (a.text ++ s) = some a.item := by
  -- The key is all characters of a name in front, since the next one is none.
  have hbehind := a.isNameChar_head? hs
  have hkey : (a.key ++ (a.assignment.text ++ s)).takeWhile isNameChar = a.key := by
    rw [List.takeWhile_append_of_pos a.isNameChar_of_mem]
    cases hrest : a.assignment.text ++ s with
    | nil => exact List.append_nil _
    | cons c rest =>
      rw [List.takeWhile_cons, hbehind c (by rw [hrest]; rfl), if_neg Bool.false_ne_true,
        List.append_nil]
  have hrest : (a.key ++ (a.assignment.text ++ s)).dropWhile isNameChar = a.assignment.text ++ s := by
    rw [List.dropWhile_append_of_pos a.isNameChar_of_mem]
    exact Text.dropWhile_eq_self hbehind
  unfold readItem
  rw [text, List.append_assoc]
  dsimp only
  rw [hkey, hrest, List.isEmpty_eq_false_iff.mpr a.key_ne_nil, if_neg Bool.false_ne_true,
    readItemAfter_text a.key a.fits hs, item, text, List.length_append]

end Attribute

/-! ## All attributes -/

theorem itemsFrom_skip : ∀ x s : List Char, itemsFrom x.length (x ++ s) = itemsFrom 0 s
  | [], _ => rfl
  | _ :: x, s => itemsFrom_skip x s

/-- White space is passed over. -/
theorem itemsFrom_blank {c : Char} (hc : Text.isBlank c = true) (s : List Char) :
    itemsFrom 0 (c :: s) = itemsFrom 0 s := by
  have hnone : readItem (c :: s) = none := by
    unfold readItem
    rw [List.takeWhile_cons, isNameChar_of_isBlank hc, if_neg Bool.false_ne_true]
    rfl
  rw [itemsFrom, hnone]

/-- An attribute comes first among the items of a text that starts with it. -/
theorem itemsFrom_text (a : Attribute) {s : List Char} (hs : StartsBlank s) :
    itemsFrom 0 (a.text ++ s) = a.item :: itemsFrom 0 s := by
  have hread := a.readItem_text hs
  cases htext : a.text with
  | nil => exact absurd (List.append_eq_nil_iff.mp htext).1 a.key_ne_nil
  | cons c rest =>
    -- All other characters of the attribute are passed over.
    have hsize : a.item.size - 1 = rest.length := by
      rw [Attribute.item, htext, List.length_cons, Nat.add_sub_cancel]
    rw [htext] at hread
    rw [List.cons_append, itemsFrom, ← List.cons_append, hread]
    dsimp only
    rw [hsize, itemsFrom_skip]

/-- The items of a text are the attributes that it spells. -/
theorem itemsFrom_eq {as : List Attribute} {s : List Char} (h : Spells as s) :
    itemsFrom 0 s = as.map Attribute.item := by
  induction h with
  | nil => rfl
  | blank hc _ ih => rw [itemsFrom_blank hc, ih]
  | cons a hnext _ ih => rw [itemsFrom_text a hnext, ih, List.map_cons]

/-- The last of the attributes with a key. -/
def lastWith (key : String) (as : List Attribute) : Option Attribute :=
  (as.filter fun a => String.ofList a.key = key).getLast?

theorem isSome_lastWith {key : String} {as : List Attribute} :
    (lastWith key as).isSome ↔ ∃ a ∈ as, String.ofList a.key = key := by
  rw [lastWith, Option.isSome_iff_ne_none, Ne, List.getLast?_eq_none_iff]
  simp [List.filter_eq_nil_iff]

/-- A key has the value of the last attribute with it. -/
theorem get?_readAttributes {as : List Attribute} {s : List Char} (h : Spells as s) (key : String) :
    (readAttributes s).get? key =
      (lastWith key as).map fun a => String.ofList a.assignment.value := by
  rw [readAttributes, itemsFrom_eq h, List.foldl_map, Table.get?_foldl_put_eq Table.ascending_nil]
  exact Option.or_none

/-! ## Written directives -/

/-- Characters of a dotted path are neither blank nor brackets. -/
theorem IsDotted.plain {path : List Char} (h : IsDotted path) :
    ∀ c ∈ path, Text.isBlank c = false ∧ c ≠ '[' ∧ c ≠ ']' := by
  -- there are few blank characters, and each of them is looked up
  have hall : ∀ r ∈ Text.blankRanges, ∀ k < r.2 - r.1 + 1,
      Directive.isIdentifierChar (Char.ofNat (r.1 + k)) = false ∧ Char.ofNat (r.1 + k) ≠ '.' := by
    decide +kernel
  intro c hc
  have hchar := h.isIdentifierChar c hc
  refine ⟨?_, ?_, ?_⟩
  · by_contra hblank
    obtain ⟨r, hr, hlow, hhigh⟩ := Text.inRanges_iff.mp ((Bool.not_eq_false _).mp hblank)
    have hnot := hall r hr (c.toNat - r.1) (by omega)
    rw [Nat.add_sub_cancel' hlow, Char.ofNat_toNat] at hnot
    rcases hchar with hchar | hdot
    · rw [hnot.1] at hchar
      cases hchar
    · exact hnot.2 hdot
  · rintro rfl
    revert hchar
    decide
  · rintro rfl
    revert hchar
    decide

/-- Without brackets, nothing is opened or closed. -/
theorem IsDotted.balanced {path : List Char} (h : IsDotted path) : Balanced '[' ']' path := by
  have hopening : '[' ∉ path := fun hmem => (h.plain _ hmem).2.1 rfl
  have hclosing : ']' ∉ path := fun hmem => (h.plain _ hmem).2.2 rfl
  constructor
  · intro p hp
    rw [List.count_eq_zero_of_not_mem fun hmem => hclosing (hp.subset hmem)]
    exact Nat.zero_le _
  · rw [List.count_eq_zero_of_not_mem hopening, List.count_eq_zero_of_not_mem hclosing]

theorem IsDotted.trim_eq {path : List Char} (h : IsDotted path) : Text.trim path = path := by
  have hends : Text.trim ([] ++ path ++ []) = path := Text.trim_of_ends nofun nofun
    (fun c hc => (h.plain c (List.mem_of_mem_head? hc)).1)
    (fun c hc => (h.plain c (List.mem_of_getLast? hc)).1)
  rwa [List.nil_append, List.append_nil] at hends

/-- The line of a directive `automodule` for a module, with some text in its braces. -/
def directiveLine (path attributes : List Char) : List Char :=
  "::automodule[".toList ++ path ++ "]\x7b".toList ++ attributes ++ "\x7d".toList

/-- Such a line holds a directive with just these arguments. -/
theorem parse_directiveLine {path attributes : List Char} (hpath : IsDotted path)
    (hattributes : Balanced '\x7b' '\x7d' attributes) :
    Leaf.parse (directiveLine path attributes) =
      some ⟨automodule, ⟨String.ofList path, readAttributes attributes⟩⟩ := by
  have hname : automodule.toList.all isNameChar = true := by decide +kernel
  let w : Written := ⟨automodule.toList, some path, some attributes, by decide, List.all_eq_true.mp hname,
    fun s hs => Option.some.inj hs ▸ hpath.balanced, fun s hs => Option.some.inj hs ▸ hattributes⟩
  have hopening : "::automodule[".toList = ':' :: ':' :: (automodule.toList ++ ['[']) := rfl
  have hmiddle : "]\x7b".toList = [']', '\x7b'] := rfl
  have hclosing : "\x7d".toList = ['\x7d'] := rfl
  have hline : directiveLine path attributes = w.text := by
    unfold directiveLine
    rw [hopening, hmiddle, hclosing]
    simp only [w, Written.text, Written.groups, groupText, List.append_assoc, List.cons_append,
      List.nil_append]
  have hleaf : w.leaf = ⟨automodule, ⟨String.ofList path, readAttributes attributes⟩⟩ := by
    simp only [w, Written.leaf, Arguments.parse, Option.getD_some, hpath.trim_eq, String.ofList_toList]
  have hblank : ∀ c ∈ ([] : List Char), Text.isBlank c = true := List.forall_mem_nil _
  rw [← hleaf]
  refine parse_eq_some_iff.mpr ⟨w, ⟨[], [], hblank, hblank, ?_⟩, rfl⟩
  rw [hline, List.nil_append, List.append_nil]

/-- **Written directives are read back.** A directive `automodule` that is written for a dotted path,
with attributes whose text is balanced in braces, is read as a directive and makes a request for this
path. An option has the value of the last attribute with its name, and none if there is no such
attribute. The unknown keys are those of the attributes that no option has as its name, in ascending
order. -/
theorem attributes_read_back {path text : List Char} {as : List Attribute} (hpath : IsDotted path)
    (has : Spells as text) (htext : Balanced '\x7b' '\x7d' text) :
    ∃ leaf request, Leaf.parse (directiveLine path text) = some leaf ∧ leaf.name = "automodule" ∧
      requestOf leaf.args = .ok request ∧ request.moduleName = String.ofList path ∧
      (∀ o, request.option? o = (lastWith o.name as).map (·.assignment.optionValue)) ∧
      (unknownKeys leaf.args).Pairwise (· < ·) ∧
      ∀ key, key ∈ unknownKeys leaf.args ↔
        (∃ a ∈ as, String.ofList a.key = key) ∧ ∀ o : AutodocOption, o.name ≠ key := by
  have hparse := parse_directiveLine hpath htext
  have hcontent : IsDotted (String.ofList path).toList := by rwa [String.toList_ofList]
  obtain ⟨request, hrequest⟩ :=
    (@requestOf_isOk_iff ⟨String.ofList path, readAttributes text⟩).mpr hcontent
  refine ⟨_, request, hparse, rfl, hrequest, moduleName_requestOf hrequest, fun o => ?_,
    pairwise_unknownKeys (ascending_of_parse hparse), fun key => ?_⟩
  · rw [(option?_requestOf hrequest).2]
    show ((readAttributes text).get? o.name).map normalizeValue = _
    rw [get?_readAttributes has, Option.map_map]
    exact congrArg (Option.map · _) (funext fun a => a.assignment.normalizeValue_value)
  · rw [mem_unknownKeys, ← isSome_lastWith]
    show ((readAttributes text).get? key).isSome ∧ _ ↔ _
    rw [get?_readAttributes has, Option.isSome_map]

/-- An option with a value that looks like another attribute. -/
def sampleValue : Attribute :=
  ⟨"members".toList, .quoted '"' "a b='c".toList, by decide, List.all_eq_true.mp (by decide +kernel),
    Or.inl rfl, by decide⟩

/-- An attribute that is no option, with braces and a quote in its value. -/
def sampleBraces : Attribute :=
  ⟨"x".toList, .quoted '\'' "\x7b\" \x7d".toList, by decide, List.all_eq_true.mp (by decide +kernel),
    Or.inr rfl, by decide⟩

/-- The option once more, now with the value of a flag. -/
def sampleFlag : Attribute :=
  have hvalue : "true".toList.all (fun c => Text.isBlank c = false) = true := by decide +kernel
  ⟨"members".toList, .plain "true".toList, by decide, List.all_eq_true.mp (by decide +kernel),
    fun c hc => of_decide_eq_true (List.all_eq_true.mp hvalue c hc), by decide, by decide⟩

/-- The text `members="a b='c" x='{" }'  members=true`. -/
def sampleText : List Char :=
  sampleValue.text ++ ' ' :: (sampleBraces.text ++ ' ' :: ' ' :: (sampleFlag.text ++ []))

theorem attributes_read_back_sampleText :
    IsDotted "pkg.mod".toList ∧ Spells [sampleValue, sampleBraces, sampleFlag] sampleText ∧
      Balanced '\x7b' '\x7d' sampleText ∧
      ∃ leaf request, Leaf.parse (directiveLine "pkg.mod".toList sampleText) = some leaf ∧
        requestOf leaf.args = .ok request ∧ request.members = some "" ∧
        request.undocMembers = none ∧ "x" ∈ unknownKeys leaf.args := by
  have hpath : IsDotted "pkg.mod".toList := isModulePath_iff.mp (by decide)
  have hspace : Text.isBlank ' ' = true := by decide
  have hspells : Spells [sampleValue, sampleBraces, sampleFlag] sampleText :=
    .cons _ (startsBlank_cons hspace _) (.blank hspace (.cons _ (startsBlank_cons hspace _)
      (.blank hspace (.blank hspace (.cons _ nofun .nil)))))
  have hbalanced : Balanced '\x7b' '\x7d' sampleText := by
    have hread : readGroupFrom '\x7b' '\x7d' 0 [] (sampleText ++ ['\x7d']) = some (sampleText, []) := by
      decide +kernel
    exact ((readGroupFrom_eq_some_iff (by decide)).mp hread).2
  obtain ⟨leaf, request, hparse, -, hrequest, -, hoptions, -, hunknown⟩ :=
    attributes_read_back hpath hspells hbalanced
  refine ⟨hpath, hspells, hbalanced, leaf, request, hparse, hrequest, ?_, ?_, ?_⟩
  · rw [show request.members = request.option? .members from rfl, hoptions]
    decide +kernel
  · rw [show request.undocMembers = request.option? .undocMembers from rfl, hoptions]
    decide +kernel
  · refine (hunknown "x").mpr ⟨⟨sampleBraces, by simp, rfl⟩, fun o => ?_⟩
    cases o <;> decide

end DocWeave.Directive

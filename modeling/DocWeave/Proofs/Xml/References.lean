import DocWeave.Proofs.Xml.Reading
import DocWeave.Proofs.Xml.Truncation

/-!
# References in text and in attribute values

Text and attribute values are decoded apart from each other. Both know the predefined entities and the
numbers of characters; text reads hexadecimal numbers behind `#X` as well as behind `#x`.

- `Numeral`: what a number is; `readNumber_eq_some`: numbers are read as such.
- `Denotes`: the references of XML; `valueReference_eq_some`: attribute values decode just these.
- `Lenient`: numbers with a sign, and the number zero, which only text decodes.
- `textReference_eq`: all else is decoded in text as in attribute values, up to the `X`.
- `references_alike`: what becomes of a reference in either place.
-/

namespace DocWeave.Xml

/-! ## Numbers -/

/-- Digits in a base, with the number that they stand for. -/
inductive Numeral (base : Nat) : List Char → Nat → Prop where
  | digit {c : Char} {d : Nat} (hd : digitValue c = some d) (hlt : d < base) : Numeral base [c] d
  | snoc {digits : List Char} {n d : Nat} {c : Char} (hdigits : Numeral base digits n)
      (hd : digitValue c = some d) (hlt : d < base) : Numeral base (digits ++ [c]) (n * base + d)

theorem Numeral.ne_nil {base n : Nat} {digits : List Char} (h : Numeral base digits n) :
    digits ≠ [] := by
  cases h <;> simp

theorem Numeral.digits {base n : Nat} {digits : List Char} (h : Numeral base digits n) :
    ∀ c ∈ digits, ∃ d, digitValue c = some d ∧ d < base := by
  induction h with
  | digit hd hlt =>
    intro c hc
    rw [List.mem_singleton.mp hc]
    exact ⟨_, hd, hlt⟩
  | snoc _ hd hlt ih =>
    intro c hc
    rcases List.mem_append.mp hc with hc | hc
    · exact ih c hc
    · rw [List.mem_singleton.mp hc]
      exact ⟨_, hd, hlt⟩

theorem continueNumber_append (base n : Nat) (x y : List Char) : continueNumber base n (x ++ y) =
    (continueNumber base n x).bind fun m => continueNumber base m y := by
  induction x generalizing n with
  | nil => rfl
  | cons c x ih =>
    rw [List.cons_append, continueNumber, continueNumber]
    cases digitValue c with
    | none => rfl
    | some d =>
      by_cases hlt : d < base
      · simp only [if_pos hlt, ih]
      · simp only [if_neg hlt, Option.bind_none]

theorem continueNumber_singleton {base n m : Nat} {c : Char} : continueNumber base n [c] = some m ↔
    ∃ d, digitValue c = some d ∧ d < base ∧ m = n * base + d := by
  unfold continueNumber
  cases digitValue c with
  | none => simp
  | some d => by_cases hlt : d < base <;> simp [hlt, continueNumber, eq_comm]

/-- A number is read from zero, but some digit has to be there. -/
theorem readNumber_eq_continueNumber {digits : List Char} (h : digits ≠ []) (base : Nat) :
    readNumber base digits = continueNumber base 0 digits := by
  simp [readNumber, h]

/-- Every number is read as what it stands for, by induction on its digits. -/
theorem Numeral.readNumber_eq {base n : Nat} {digits : List Char} (h : Numeral base digits n) :
    readNumber base digits = some n := by
  induction h with
  | @digit c d hd hlt =>
    rw [readNumber_eq_continueNumber (List.cons_ne_nil c [])]
    exact continueNumber_singleton.mpr ⟨d, hd, hlt, by omega⟩
  | @snoc digits n d c hdigits hd hlt ih =>
    rw [readNumber_eq_continueNumber hdigits.ne_nil] at ih
    rw [readNumber_eq_continueNumber (by simp), continueNumber_append, ih, Option.bind_some]
    exact continueNumber_singleton.mpr ⟨d, hd, hlt, rfl⟩

/-- A number is read exactly if there are digits of the base, and nothing else. -/
theorem readNumber_eq_some {base n : Nat} {digits : List Char} :
    readNumber base digits = some n ↔ Numeral base digits n := by
  refine ⟨fun h => ?_, Numeral.readNumber_eq⟩
  -- From the end, as the last digit is the one that is added last.
  induction digits using List.reverseRecOn generalizing n with
  | nil => cases h
  | append_singleton digits c ih =>
    rw [readNumber_eq_continueNumber (by simp), continueNumber_append] at h
    obtain ⟨m, hm, hc⟩ := Option.bind_eq_some_iff.mp h
    obtain ⟨d, hd, hlt, rfl⟩ := continueNumber_singleton.mp hc
    by_cases hdigits : digits = []
    · subst hdigits
      obtain rfl := Option.some.inj hm
      rw [Nat.zero_mul, Nat.zero_add]
      exact .digit hd hlt
    · rw [← readNumber_eq_continueNumber hdigits] at hm
      exact .snoc (ih hm) hd hlt

/-- A number does not start with a character that is no digit. -/
theorem Numeral.head_ne {base n : Nat} {c : Char} {digits : List Char}
    (h : Numeral base (c :: digits) n) {d : Char} (hd : ∀ v ∈ digitValue d, base ≤ v) : c ≠ d := by
  rintro rfl
  obtain ⟨v, hv, hlt⟩ := h.digits c List.mem_cons_self
  exact absurd hlt (Nat.not_lt_of_le (hd v hv))

/-! ## References of XML -/

/-- The predefined entities. -/
def predefinedEntities : List (List Char × Char) :=
  [("lt".toList, '<'), ("gt".toList, '>'), ("amp".toList, '&'), ("apos".toList, '\''),
    ("quot".toList, '"')]

/-- A name that has a character is one of the five. -/
theorem mem_predefinedEntities {name : List Char} {c : Char} (h : namedEntity name = some c) :
    (name, c) ∈ predefinedEntities := by
  unfold namedEntity at h
  split at h
  all_goals cases h
  all_goals decide

/-- Attribute values decode all five names. -/
theorem valueReference_predefined :
    ∀ entity ∈ predefinedEntities, valueReference entity.1 = some entity.2 := by
  decide

/-- The references of XML, without the ampersand and the semicolon, with the character that each of
them stands for. -/
inductive Denotes : List Char → Char → Prop where
  | named {name : List Char} {c : Char} (h : (name, c) ∈ predefinedEntities) : Denotes name c
  | decimal {digits : List Char} {n : Nat} (hdigits : Numeral 10 digits n) (hpos : n ≠ 0)
      (hchar : n.isValidChar) : Denotes ('#' :: digits) (Char.ofNat n)
  | hexadecimal {digits : List Char} {n : Nat} (hdigits : Numeral 16 digits n) (hpos : n ≠ 0)
      (hchar : n.isValidChar) : Denotes ('#' :: 'x' :: digits) (Char.ofNat n)

/-- A number has a character if it is the code of one and not zero. -/
theorem charOfPositiveCode_eq_some {n : Nat} {c : Char} :
    charOfPositiveCode n = some c ↔ n ≠ 0 ∧ n.isValidChar ∧ Char.ofNat n = c := by
  unfold charOfPositiveCode charOfCode
  by_cases hn : n = 0 <;> by_cases hchar : n.isValidChar <;> simp [hn, hchar]

/-- Digits have a character if the number that they stand for has one. -/
theorem bind_charOfPositiveCode_eq_some {base : Nat} {digits : List Char} {c : Char} :
    (readNumber base digits).bind charOfPositiveCode = some c ↔
      ∃ n, Numeral base digits n ∧ n ≠ 0 ∧ n.isValidChar ∧ Char.ofNat n = c := by
  simp only [Option.bind_eq_some_iff, readNumber_eq_some, charOfPositiveCode_eq_some]

/-- A number without a mark in front is decimal. -/
theorem valueReference_decimal {c : Char} (hc : c ≠ 'x') (digits : List Char) :
    valueReference ('#' :: c :: digits) =
      (readNumber 10 (c :: digits)).bind charOfPositiveCode := by
  unfold valueReference
  split
  · rename_i heq
    cases heq
    exact absurd rfl hc
  · rename_i heq
    cases heq
    rfl
  · rename_i hdecimal
    exact absurd rfl (hdecimal _)

/-- Attribute values decode the references of XML, and no others. -/
theorem valueReference_eq_some {name : List Char} {c : Char} :
    valueReference name = some c ↔ Denotes name c := by
  constructor
  · intro h
    unfold valueReference at h
    split at h
    · obtain ⟨n, hdigits, hpos, hchar, rfl⟩ := bind_charOfPositiveCode_eq_some.mp h
      exact .hexadecimal hdigits hpos hchar
    · obtain ⟨n, hdigits, hpos, hchar, rfl⟩ := bind_charOfPositiveCode_eq_some.mp h
      exact .decimal hdigits hpos hchar
    · exact .named (mem_predefinedEntities h)
  · intro h
    cases h with
    | named h => exact valueReference_predefined _ h
    | @decimal digits n hdigits hpos hchar =>
      obtain ⟨d, digits, rfl⟩ := List.exists_cons_of_ne_nil hdigits.ne_nil
      -- A digit is no `x`, so the digits are not taken for hexadecimal ones.
      have hx : d ≠ 'x' := hdigits.head_ne (by decide)
      rw [valueReference_decimal hx]
      exact bind_charOfPositiveCode_eq_some.mpr ⟨n, hdigits, hpos, hchar, rfl⟩
    | @hexadecimal digits n hdigits hpos hchar =>
      exact bind_charOfPositiveCode_eq_some.mpr ⟨n, hdigits, hpos, hchar, rfl⟩

/-! ## What only text decodes -/

/-- What stands in front of the digits of a number, and the base of the digits. -/
inductive NumberMark : List Char → Nat → Prop where
  | decimal : NumberMark ['#'] 10
  | hexadecimal : NumberMark ['#', 'x'] 16
  | capital : NumberMark ['#', 'X'] 16

/-- Numbers that XML does not know: one with a plus sign that would be the number of a character
without it, and the number zero. -/
inductive Lenient : List Char → Prop where
  | signed {mark digits : List Char} {base n : Nat} (hmark : NumberMark mark base)
      (hdigits : Numeral base digits n) (hchar : n.isValidChar) : Lenient (mark ++ '+' :: digits)
  | zero {mark digits : List Char} {base : Nat} (hmark : NumberMark mark base)
      (hdigits : Numeral base digits 0) : Lenient (mark ++ digits)

/-- A hexadecimal number behind a capital letter, with its character. -/
def CapitalNumber (name : List Char) (c : Char) : Prop :=
  ∃ digits, name = '#' :: 'X' :: digits ∧ Denotes ('#' :: 'x' :: digits) c

/-- A reference with a small letter in front of a hexadecimal number. -/
def withSmallMark : List Char → List Char
  | '#' :: 'X' :: digits => '#' :: 'x' :: digits
  | name => name

/-- Other numbers are read alike. -/
theorem readSignedNumber_alike {mark digits : List Char} {base : Nat} (hmark : NumberMark mark base)
    (h : ¬ Lenient (mark ++ digits)) : (readSignedNumber base digits).bind charOfCode =
      (readNumber base digits).bind charOfPositiveCode := by
  have hzero : readNumber base digits ≠ some 0 := fun hread =>
    h (.zero hmark (readNumber_eq_some.mp hread))
  have hpositive : (readNumber base digits).bind charOfCode =
      (readNumber base digits).bind charOfPositiveCode := by
    cases hread : readNumber base digits with
    | none => rfl
    | some n =>
      have hn : n ≠ 0 := fun heq => hzero (heq ▸ hread)
      simp [charOfPositiveCode, hn]
  rcases digits with _ | ⟨c, digits⟩
  · exact hpositive
  · by_cases hc : c = '+'
    · subst hc
      have hplus : digitValue '+' = none := by decide
      have hsign : readNumber base ('+' :: digits) = none := by
        rw [Option.eq_none_iff_forall_ne_some]
        intro n hread
        obtain ⟨d, hd, -⟩ := (readNumber_eq_some.mp hread).digits '+' List.mem_cons_self
        cases hplus.symm.trans hd
      have hsigned : readSignedNumber base ('+' :: digits) = readNumber base digits := rfl
      rw [hsign, hsigned, Option.bind_none]
      cases hread : readNumber base digits with
      | none => rfl
      | some n =>
        have hchar : ¬ n.isValidChar := fun hchar =>
          h (.signed hmark (readNumber_eq_some.mp hread) hchar)
        simp [charOfCode, hchar]
    · -- Without a plus sign in front, the digits are read as they are.
      have hunsigned : readSignedNumber base (c :: digits) = readNumber base (c :: digits) := by
        unfold readSignedNumber
        split
        · rename_i heq
          cases heq
          exact absurd rfl hc
        · rfl
      rw [hunsigned, hpositive]

theorem textReference_decimal {c : Char} (hx : c ≠ 'x') (hX : c ≠ 'X') (digits : List Char) :
    textReference ('#' :: c :: digits) =
      (readSignedNumber 10 (c :: digits)).bind charOfCode := by
  unfold textReference
  split
  · rename_i heq
    cases heq
    exact absurd rfl hx
  · rename_i heq
    cases heq
    exact absurd rfl hX
  · rename_i heq
    cases heq
    rfl
  · rename_i hdecimal
    exact absurd rfl (hdecimal _)

/-- Text decodes all other references as attribute values do, for either letter of a hexadecimal
number. -/
theorem textReference_eq {name : List Char} (h : ¬ Lenient name) :
    textReference name = valueReference (withSmallMark name) := by
  rcases name with _ | ⟨a, name⟩
  · rfl
  by_cases ha : a = '#'
  · subst ha
    rcases name with _ | ⟨b, digits⟩
    · rfl
    by_cases hx : b = 'x'
    · subst hx
      exact readSignedNumber_alike .hexadecimal h
    by_cases hX : b = 'X'
    · subst hX
      exact readSignedNumber_alike .capital h
    · have hsmall : withSmallMark ('#' :: b :: digits) = '#' :: b :: digits := by
        simp [withSmallMark, hX]
      rw [hsmall, textReference_decimal hx hX, valueReference_decimal hx]
      exact readSignedNumber_alike .decimal h
  · simp [textReference, valueReference, withSmallMark, ha]

/-- Attribute values decode no number behind a capital letter. -/
theorem valueReference_capital (digits : List Char) : valueReference ('#' :: 'X' :: digits) = none := by
  rw [Option.eq_none_iff_forall_ne_some]
  intro c h
  cases valueReference_eq_some.mp h with
  | named h => simp [predefinedEntities] at h
  | decimal hdigits => exact hdigits.head_ne (d := 'X') (by decide) rfl

/-! ## References in a document -/

/-- Nothing in a name ends a reference, or a quoted value. -/
def IsReferenceName (name : String) : Prop :=
  ∀ c ∈ name.toList, c ≠ ';' ∧ c ≠ '&' ∧ c ≠ '<' ∧ c ≠ '"' ∧ c ≠ '\''

/-- A reference as it is written. -/
def written (name : String) : String :=
  "&" ++ name ++ ";"

/-- The text that an element has if it holds a reference only. When the element closes, the text is
dropped if it is layout. -/
def ReadInText (name text : String) : Prop :=
  Reader.start.run ("<a>" ++ written name).toList = .reading (.text []) [⟨"a", [], [.text text]⟩] ∧
    parse ("<a>" ++ written name ++ "</a>") = .ok ⟨"a", [], [.text text].filter (!Tree.isLayout ·)⟩

/-- The value that an attribute has if a reference is written for it. -/
def ReadInValue (name value : String) : Prop :=
  parse ("<a k=\"" ++ written name ++ "\"/>") = .ok ⟨"a", [("k", value)], []⟩

variable {name : String}

theorem toList_written (name : String) : (written name).toList = '&' :: (name.toList ++ [';']) := by
  simp [written]

/-- The text of an element that holds a reference, before the element is closed. -/
theorem run_inText (h : IsReferenceName name) :
    Reader.start.run ("<a>" ++ written name).toList =
      .reading (.text []) [⟨"a", [], [.text (String.ofList (decodeText name.toList))]⟩] := by
  have hopen : Reader.start.run ['<', 'a', '>', '&'] =
      .reading (.reference []) [⟨"a", [], []⟩] := by rfl
  have htext : ("<a>" ++ written name).toList =
      ['<', 'a', '>', '&'] ++ (name.toList ++ [';']) := by
    rw [String.toList_append, toList_written]
    rfl
  have hname (c : Char) (hc : c ∈ name.toList) : c ≠ ';' ∧ c ≠ '<' ∧ c ≠ '&' :=
    ⟨(h c hc).1, (h c hc).2.2.1, (h c hc).2.1⟩
  rw [htext, run_append, hopen, run_append, run_referenceName hname, List.append_nil, run_cons]
  simp [Reader.step, Mode.step_reference, Reader.handle, Reader.addText, OpenElement.addText,
    OpenElement.push, Reader.run]

/-- What an element shows for a reference is what text decodes it to. -/
theorem readInText (h : IsReferenceName name) :
    ReadInText name (String.ofList (decodeText name.toList)) := by
  refine ⟨run_inText h, parse_eq_ok.mpr ?_⟩
  have htext : dropByteOrderMark ("<a>" ++ written name ++ "</a>").toList =
      ("<a>" ++ written name).toList ++ "</a>".toList := by
    rw [String.toList_append, String.toList_append, List.append_assoc]
    rfl
  rw [htext, run_append, run_inText h]
  rfl

/-- An attribute value that consists of a reference is decoded, or stays as written. -/
theorem decodeValue_written (h : IsReferenceName name) : decodeValue (written name).toList =
    match valueReference name.toList with
    | some c => [c]
    | none => (written name).toList := by
  have hname (c : Char) (hc : c ∈ name.toList) : c ≠ ';' ∧ c ≠ '&' := ⟨(h c hc).1, (h c hc).2.1⟩
  have hdecode : decodeReferences none (written name).toList =
      (valueReference name.toList).map fun c => [c] := by
    rw [toList_written, decodeReferences, if_pos rfl, decodeReferences_name hname, decodeReferences,
      if_pos rfl, List.append_nil, List.reverse_reverse]
    cases valueReference name.toList <;> rfl
  rw [decodeValue, hdecode]
  cases valueReference name.toList <;> rfl

/-- No quote stands in a written reference, so that the value is not ended by it. -/
theorem quote_not_mem_written (h : IsReferenceName name) : '"' ∉ (written name).toList := by
  rw [toList_written, List.mem_cons, List.mem_append, not_or, not_or]
  exact ⟨by decide, fun hc => (h _ hc).2.2.2.1 rfl, by decide⟩

/-- A tag with one quoted value has one attribute, and the value is decoded. -/
theorem ofTag_quoted {value : List Char} (h : '"' ∉ value) :
    Attributes.ofTag (" k=\"".toList ++ (value ++ ['"'])) =
      [("k", String.ofList (decodeValue value))] := by
  have hopen : " k=\"".toList.foldl AttributeReader.step {} =
      ⟨.quoted ['k'] '"' [], [['k']], []⟩ := by rfl
  have hclose : AttributeReader.step ⟨.quoted ['k'] '"' (value.reverse ++ []), [['k']], []⟩ '"' =
      ⟨.gap, [['k']], [(['k'], value)]⟩ := by
    simp [AttributeReader.step]
  have hkept : isNamespaceName ['k'] = false := by rfl
  unfold Attributes.ofTag
  rw [List.foldl_append, hopen, List.foldl_append, foldl_quoted h, List.foldl_cons, hclose]
  simp [hkept]

/-- A slash at the end of a tag makes the element empty. -/
theorem tagEvent_slash (content : List Char) : tagEvent (content ++ ['/']) =
    .emptyTag (String.ofList (content.takeWhile (!isSpace ·)))
      (Attributes.ofTag (content.dropWhile (!isSpace ·))) := by
  have hreverse : (content ++ ['/']).reverse = '/' :: content.reverse := by simp
  simp [tagEvent, hreverse]

/-- The tag with a reference as the value of its attribute. -/
theorem tagEvent_written (h : IsReferenceName name) :
    tagEvent ("a k=\"".toList ++ ((written name).toList ++ "\"/".toList)) =
      .emptyTag "a" [("k", String.ofList (decodeValue (written name).toList))] := by
  have hcontent : "a k=\"".toList ++ ((written name).toList ++ "\"/".toList) =
      'a' :: (" k=\"".toList ++ ((written name).toList ++ ['"'])) ++ ['/'] := by
    simp
  rw [hcontent, tagEvent_slash, ← ofTag_quoted (quote_not_mem_written h)]
  rfl

/-- What an attribute has for a reference is what values decode it to. -/
theorem readInValue (h : IsReferenceName name) :
    ReadInValue name (String.ofList (decodeValue (written name).toList)) := by
  have hquote := quote_not_mem_written h
  have htext : dropByteOrderMark ("<a k=\"" ++ written name ++ "\"/>").toList =
      "<a k=\"".toList ++ ((written name).toList ++ "\"/>".toList) := by
    rw [String.toList_append, String.toList_append, List.append_assoc]
    rfl
  have hopen : Reader.start.run "<a k=\"".toList =
      .reading (.startTag "a k=\"".toList.reverse (some '"')) [] := by rfl
  have hclose (read : List Char) :
      (Reader.reading (.startTag read (some '"')) []).run "\"/>".toList =
        Reader.handle (.text []) [] (tagEvent ('/' :: '"' :: read).reverse) := rfl
  rw [ReadInValue, parse_eq_ok, htext, run_append, hopen, run_append, run_quoted hquote, hclose]
  have hcontent : ('/' :: '"' :: ((written name).toList.reverse ++ "a k=\"".toList.reverse)).reverse =
      "a k=\"".toList ++ ((written name).toList ++ "\"/".toList) := by
    simp
  rw [hcontent, tagEvent_written h]
  rfl

/-! ## The same in either place -/

/-- What is read for a reference that may stand for a character. -/
def shown (name : String) : Option Char → String
  | some c => String.singleton c
  | none => written name

/-- In text, a reference is shown as its character, or as it is written. -/
theorem ofList_decodeText (name : String) :
    String.ofList (decodeText name.toList) = shown name (textReference name.toList) := by
  rw [decodeText]
  cases textReference name.toList with
  | none =>
    rw [shown, ← String.toList_inj, toList_written, String.toList_ofList]
    rfl
  | some c => rfl

theorem ofList_decodeValue (h : IsReferenceName name) :
    String.ofList (decodeValue (written name).toList) = shown name (valueReference name.toList) := by
  rw [decodeValue_written h]
  cases valueReference name.toList with
  | none => exact String.ofList_toList
  | some c => rfl

/-- Without a capital letter there is nothing that only text decodes. -/
theorem textReference_of_not_capital (hlenient : ¬ Lenient name.toList)
    (hcapital : ∀ c, ¬ CapitalNumber name.toList c) :
    textReference name.toList = valueReference name.toList := by
  rw [textReference_eq hlenient]
  -- The letter in front of the digits is the only difference that is left.
  by_cases hname : ∃ digits, name.toList = '#' :: 'X' :: digits
  · obtain ⟨digits, hname⟩ := hname
    have hsmall : valueReference (withSmallMark name.toList) = none := by
      rw [Option.eq_none_iff_forall_ne_some]
      intro c hc
      rw [hname] at hc
      exact hcapital c ⟨digits, hname, valueReference_eq_some.mp hc⟩
    rw [hsmall, hname, valueReference_capital]
  · have hsame : withSmallMark name.toList = name.toList := by
      unfold withSmallMark
      split
      · rename_i digits hdigits
        exact absurd ⟨digits, hdigits⟩ hname
      · rfl
    rw [hsame]

/-- **A reference means the same in text and in attribute values**, the character that it denotes or
itself as it is written. Hexadecimal numbers behind a capital letter are decoded in text only. Nothing
is said about numbers with a plus sign and the number zero. -/
theorem references_alike (h : IsReferenceName name) (hlenient : ¬ Lenient name.toList) :
    ∃ text value, ReadInText name text ∧ ReadInValue name value ∧
      (∀ c, CapitalNumber name.toList c → text = String.singleton c ∧ value = written name) ∧
      ((∀ c, ¬ CapitalNumber name.toList c) → text = value ∧
        ((∃ c, Denotes name.toList c ∧ text = String.singleton c) ∨
          (∀ c, ¬ Denotes name.toList c) ∧ text = written name)) := by
  refine ⟨_, _, readInText h, readInValue h, fun c hc => ?_, fun hcapital => ?_⟩
  · obtain ⟨digits, hname, hdenotes⟩ := hc
    have htext : textReference name.toList = some c := by
      rw [textReference_eq hlenient, hname]
      exact valueReference_eq_some.mpr hdenotes
    have hvalue : valueReference name.toList = none := by
      rw [hname]
      exact valueReference_capital digits
    rw [ofList_decodeText, ofList_decodeValue h, htext, hvalue]
    exact ⟨rfl, rfl⟩
  · rw [ofList_decodeText, ofList_decodeValue h, textReference_of_not_capital hlenient hcapital]
    refine ⟨rfl, ?_⟩
    cases hvalue : valueReference name.toList with
    | some c => exact Or.inl ⟨c, valueReference_eq_some.mp hvalue, rfl⟩
    | none =>
      refine Or.inr ⟨fun c hc => ?_, rfl⟩
      cases hvalue.symm.trans (valueReference_eq_some.mpr hc)

/-- An arrow by its hexadecimal number. -/
theorem references_alike_arrow : IsReferenceName "#x2192" ∧ ¬ Lenient "#x2192".toList ∧
    ReadInText "#x2192" "→" ∧ ReadInValue "#x2192" "→" := by
  have hname : IsReferenceName "#x2192" := by simp [IsReferenceName]
  have hlenient : ¬ Lenient "#x2192".toList := by
    generalize hwritten : "#x2192".toList = written
    rintro (⟨hmark, -, -⟩ | ⟨hmark, hdigits⟩)
    · have hplus : '+' ∉ "#x2192".toList := by decide
      exact hplus (hwritten ▸ List.mem_append_right _ List.mem_cons_self)
    · have hread := hdigits.readNumber_eq
      cases hmark <;> cases hwritten <;> revert hread <;> decide
  have hcapital (c : Char) : ¬ CapitalNumber "#x2192".toList c := by
    rintro ⟨digits, hdigits, -⟩
    cases hdigits
  have hdenotes : valueReference "#x2192".toList = some '→' := by decide
  obtain ⟨text, value, htext, hvalue, -, halike⟩ := references_alike hname hlenient
  obtain ⟨rfl, ⟨c, hc, rfl⟩ | ⟨hnone, -⟩⟩ := halike hcapital
  · obtain rfl := Option.some.inj (hdenotes.symm.trans (valueReference_eq_some.mpr hc))
    exact ⟨hname, hlenient, htext, hvalue⟩
  · exact absurd (valueReference_eq_some.mp hdenotes) (hnone '→')

/-- References do not mean the same if the number stands behind a capital letter. -/
theorem capital_decoded_in_text_only :
    ¬ ∀ name, IsReferenceName name →
      ∀ text value, ReadInText name text → ReadInValue name value → text = value := by
  intro h
  have hname : IsReferenceName "#X41" := by simp [IsReferenceName]
  have htext : ReadInText "#X41" "A" := ⟨by rfl, by rfl⟩
  have hvalue : ReadInValue "#X41" "&#X41;" := by rfl
  exact absurd (h "#X41" hname "A" "&#X41;" htext hvalue) (by decide)

end DocWeave.Xml

import DocWeave.Node.Html
import DocWeave.Xml.Event

/-!
# Written text and attributes

What is escaped when it is written is decoded when it is read, both in text and in attribute values.

- `escapeChar_cases`: a character stands for itself, or has a reference that both decoders know.
- `decodeValue_escape`: an attribute value is read as it was before it was escaped.
- `Attributes.Written`: attributes that can be told apart; `ofTag_write`: they are read back.
- `tagEvent_write`, `endTagName_write`: the tags of an element with such attributes.
-/

namespace DocWeave.Xml

open Html (escape escapeChar writeAttribute)

/-! ## References -/

/-- A name refers to a character, in text as well as in attribute values. -/
structure RefersTo (name : List Char) (c : Char) : Prop where
  /-- The reference in text. -/
  inText : textReference name = some c
  /-- The reference in attribute values. -/
  inValue : valueReference name = some c
  /-- There is nothing in the name that could end the reference or the value. -/
  plain : name.all (fun d => d.isAlphanum || d = '#') = true

/-- Characters that markup is made of. -/
def isMarkupChar (c : Char) : Bool :=
  c = '&' || c = '<' || c = '>' || c = '"' || c = '\''

/-- A character of markup is written as a reference, any other one as it is. -/
theorem escapeChar_cases (c : Char) :
    (∃ name, RefersTo name c ∧ escapeChar c = '&' :: (name ++ [';'])) ∨
      isMarkupChar c = false ∧ escapeChar c = [c] := by
  unfold escapeChar
  split
  case h_6 hamp hlt hgt hquot hapos =>
    refine Or.inr ⟨?_, rfl⟩
    rw [isMarkupChar, decide_eq_false hamp, decide_eq_false hlt, decide_eq_false hgt,
      decide_eq_false hquot, decide_eq_false hapos]
    rfl
  · exact Or.inl ⟨['a', 'm', 'p'], ⟨by decide, by decide, by decide⟩, rfl⟩
  · exact Or.inl ⟨['l', 't'], ⟨by decide, by decide, by decide⟩, rfl⟩
  · exact Or.inl ⟨['g', 't'], ⟨by decide, by decide, by decide⟩, rfl⟩
  · exact Or.inl ⟨['q', 'u', 'o', 't'], ⟨by decide, by decide, by decide⟩, rfl⟩
  · exact Or.inl ⟨['#', 'x', '2', '7'], ⟨by decide, by decide, by decide⟩, rfl⟩

theorem RefersTo.ne {name : List Char} {c : Char} (h : RefersTo name c) {d e : Char} (hd : d ∈ name)
    (he : e.isAlphanum = false) (hne : e ≠ '#') : d ≠ e := by
  rintro rfl
  have hplain := List.all_eq_true.mp h.plain d hd
  rw [he, Bool.false_or, decide_eq_true_iff] at hplain
  exact hne hplain

/-- Quotes of attribute values do not occur in what is escaped. -/
theorem quote_not_mem_escape (text : List Char) : '"' ∉ escape text := by
  intro hmem
  obtain ⟨c, -, hc⟩ := List.mem_flatMap.mp hmem
  rcases escapeChar_cases c with ⟨name, hname, hescape⟩ | ⟨hplain, hescape⟩
  · rw [hescape, List.mem_cons, List.mem_append, List.mem_singleton] at hc
    rcases hc with hc | hc | hc
    · cases hc
    · exact hname.ne hc (by decide) (by decide) rfl
    · cases hc
  · rw [hescape] at hc
    rw [← List.mem_singleton.mp hc] at hplain
    cases hplain

/-! ## Attribute values -/

/-- The name of a reference is read up to its end. -/
theorem decodeReferences_name {name : List Char} (h : ∀ d ∈ name, d ≠ ';' ∧ d ≠ '&')
    (read rest : List Char) : decodeReferences (some read) (name ++ rest) =
      decodeReferences (some (name.reverse ++ read)) rest := by
  induction name generalizing read with
  | nil => rfl
  | cons d name ih =>
    obtain ⟨hd, hname⟩ := List.forall_mem_cons.mp h
    rw [List.cons_append, decodeReferences, if_neg hd.1, if_neg hd.2, ih hname, List.reverse_cons,
      List.append_assoc]
    rfl

theorem decodeReferences_escape (value : List Char) :
    decodeReferences none (escape value) = some value := by
  induction value with
  | nil => rfl
  | cons c value ih =>
    have hcons : escape (c :: value) = escapeChar c ++ escape value := List.flatMap_cons
    rw [hcons]
    rcases escapeChar_cases c with ⟨name, hname, hescape⟩ | ⟨hplain, hescape⟩
    · have hchars (d : Char) (hd : d ∈ name) : d ≠ ';' ∧ d ≠ '&' :=
        ⟨hname.ne hd (by decide) (by decide), hname.ne hd (by decide) (by decide)⟩
      rw [hescape, List.cons_append, List.append_assoc, decodeReferences, if_pos rfl,
        decodeReferences_name hchars, List.append_nil, List.singleton_append, decodeReferences,
        if_pos rfl, List.reverse_reverse, hname.inValue, ih]
      rfl
    · have hamp : c ≠ '&' := by
        rintro rfl
        cases hplain
      rw [hescape, List.singleton_append, decodeReferences, if_neg hamp, ih]
      rfl

theorem decodeValue_escape (value : List Char) : decodeValue (escape value) = value := by
  rw [decodeValue, decodeReferences_escape]
  rfl

/-! ## Attributes -/

/-- A name of letters that declares no namespace. -/
def isAttributeName (name : String) : Bool :=
  !name.toList.isEmpty && name.toList.all Char.isAlpha && !isNamespaceName name.toList

/-- Attributes with different names, all of them made of letters. -/
structure Attributes.Written (attributes : Attributes) : Prop where
  /-- No name occurs twice. -/
  distinct : (attributes.map (·.1)).Nodup
  /-- The names are made of letters. -/
  names : ∀ name ∈ attributes.map (·.1), isAttributeName name = true

/-- Letters mean nothing in a tag. -/
theorem ne_of_isAlpha {c d : Char} (hc : c.isAlpha) (hd : d.isAlpha = false) : c ≠ d := by
  rintro rfl
  rw [hd] at hc
  cases hc

theorem isSpace_of_isAlphanum {c : Char} (hc : c.isAlphanum) : isSpace c = false := by
  have hne {d : Char} (hd : d.isAlphanum = false) : c ≠ d := by
    rintro rfl
    rw [hd] at hc
    cases hc
  simp [isSpace, hne]

theorem isAlphanum_of_isAlpha {c : Char} (hc : c.isAlpha) : c.isAlphanum := by
  simp [Char.isAlphanum, hc]

/-- Characters that are collected one by one, last first, are collected as a text. -/
theorem foldl_collect {σ : Type} {step : σ → Char → σ} (state : List Char → σ) {text : List Char}
    (h : ∀ c ∈ text, ∀ read, step (state read) c = state (c :: read)) (read : List Char) :
    text.foldl step (state read) = state (text.reverse ++ read) := by
  induction text generalizing read with
  | nil => rfl
  | cons c text ih =>
    obtain ⟨hc, htext⟩ := List.forall_mem_cons.mp h
    rw [List.foldl_cons, hc, ih htext, List.reverse_cons, List.append_assoc]
    rfl

/-- A name is read up to its end. -/
theorem foldl_name {name : List Char} (h : ∀ c ∈ name, c.isAlpha) (read : List Char)
    (seen : List (List Char)) (got : List (List Char × List Char)) :
    name.foldl AttributeReader.step ⟨.name read, seen, got⟩ =
      ⟨.name (name.reverse ++ read), seen, got⟩ := by
  refine foldl_collect (fun read => AttributeReader.mk (.name read) seen got) (fun c hc read => ?_) read
  have hspace := isSpace_of_isAlphanum (isAlphanum_of_isAlpha (h c hc))
  have hequals : c ≠ '=' := ne_of_isAlpha (h c hc) (by decide)
  simp [AttributeReader.step, hequals, hspace]

/-- A value is read up to its closing quote. -/
theorem foldl_quoted {quote : Char} {text : List Char} (h : quote ∉ text) (read value : List Char)
    (seen : List (List Char)) (got : List (List Char × List Char)) :
    text.foldl AttributeReader.step ⟨.quoted read quote value, seen, got⟩ =
      ⟨.quoted read quote (text.reverse ++ value), seen, got⟩ := by
  refine foldl_collect (fun value => AttributeReader.mk (.quoted read quote value) seen got)
    (fun c hc value => ?_) value
  have hquote : c ≠ quote := ne_of_mem_of_not_mem hc h
  simp [AttributeReader.step, hquote]

/-- An attribute with a new name is read. -/
theorem foldl_writeAttribute {name : String} (hname : isAttributeName name = true) (value : String)
    {seen : List (List Char)} (hnew : name.toList ∉ seen) (got : List (List Char × List Char)) :
    (writeAttribute name value).foldl AttributeReader.step ⟨.gap, seen, got⟩ =
      ⟨.gap, name.toList :: seen, (name.toList, escape value.toList) :: got⟩ := by
  rw [isAttributeName, Bool.and_eq_true, Bool.and_eq_true, Bool.not_eq_true', List.all_eq_true]
    at hname
  obtain ⟨⟨hempty, hletters⟩, -⟩ := hname
  rw [List.isEmpty_eq_false_iff] at hempty
  obtain ⟨c, chars, hcons⟩ := List.exists_cons_of_ne_nil hempty
  rw [hcons] at hletters hnew
  obtain ⟨hc, hchars⟩ := List.forall_mem_cons.mp hletters
  have hspace := isSpace_of_isAlphanum (isAlphanum_of_isAlpha hc)
  have hfirst : AttributeReader.step ⟨.gap, seen, got⟩ c = ⟨.name [c], seen, got⟩ := by
    simp [AttributeReader.step, hspace]
  have hequals : AttributeReader.step ⟨.name (chars.reverse ++ [c]), seen, got⟩ '=' =
      ⟨.value (chars.reverse ++ [c]), (c :: chars) :: seen, got⟩ := by
    simp [AttributeReader.step, AttributeReader.endName, hnew]
  have hclose : AttributeReader.step ⟨.quoted (chars.reverse ++ [c]) '"'
      ((escape value.toList).reverse ++ []), (c :: chars) :: seen, got⟩ '"' =
        ⟨.gap, (c :: chars) :: seen, (c :: chars, escape value.toList) :: got⟩ := by
    simp [AttributeReader.step]
  have hwritten : writeAttribute name value =
      ' ' :: c :: (chars ++ '=' :: '"' :: (escape value.toList ++ ['"'])) := by
    simp [writeAttribute, hcons]
  have hgap : AttributeReader.step ⟨.gap, seen, got⟩ ' ' = ⟨.gap, seen, got⟩ := rfl
  have hquote : AttributeReader.step ⟨.value (chars.reverse ++ [c]), (c :: chars) :: seen, got⟩ '"' =
      ⟨.quoted (chars.reverse ++ [c]) '"' [], (c :: chars) :: seen, got⟩ := rfl
  rw [hwritten, hcons, List.foldl_cons, hgap, List.foldl_cons, hfirst, List.foldl_append,
    foldl_name hchars, List.foldl_cons, hequals, List.foldl_cons, hquote, List.foldl_append,
    foldl_quoted (quote_not_mem_escape _), List.foldl_cons, hclose, List.foldl_nil]

/-- Attributes that can be told apart are read one after the other. -/
theorem foldl_writeAttributes {attributes : Attributes} (h : attributes.Written)
    (seen : List (List Char)) (hnew : ∀ name ∈ attributes.map (·.1), name.toList ∉ seen)
    (got : List (List Char × List Char)) :
    ∃ seen', (attributes.flatMap fun a => writeAttribute a.1 a.2).foldl AttributeReader.step
        ⟨.gap, seen, got⟩ =
      ⟨.gap, seen', (attributes.map fun a => (a.1.toList, escape a.2.toList)).reverse ++ got⟩ := by
  induction attributes generalizing seen got with
  | nil => exact ⟨seen, rfl⟩
  | cons a attributes ih =>
    obtain ⟨hdistinct, hnames⟩ := h
    obtain ⟨ha, hrest⟩ := List.forall_mem_cons.mp hnames
    obtain ⟨hfirst, hlater⟩ := List.forall_mem_cons.mp hnew
    obtain ⟨hother, hdistinct⟩ := List.nodup_cons.mp hdistinct
    have hnew' (name : String) (hname : name ∈ attributes.map (·.1)) :
        name.toList ∉ a.1.toList :: seen := by
      rw [List.mem_cons, not_or]
      refine ⟨fun heq => ?_, hlater name hname⟩
      obtain rfl := String.toList_injective heq
      exact hother hname
    obtain ⟨seen', hread⟩ := ih ⟨hdistinct, hrest⟩ _ hnew' ((a.1.toList, escape a.2.toList) :: got)
    refine ⟨seen', ?_⟩
    rw [List.flatMap_cons, List.foldl_append, foldl_writeAttribute ha a.2 hfirst, hread,
      List.map_cons, List.reverse_cons, List.append_assoc]
    rfl

/-- Attributes are read as they were written. -/
theorem ofTag_write {attributes : Attributes} (h : attributes.Written) :
    Attributes.ofTag (attributes.flatMap fun a => writeAttribute a.1 a.2) = attributes := by
  obtain ⟨seen, hread⟩ := foldl_writeAttributes h [] (fun _ _ => List.not_mem_nil) []
  have hkept : (attributes.map fun a => (a.1.toList, escape a.2.toList)).filter
      (fun a => !isNamespaceName a.1) = attributes.map fun a => (a.1.toList, escape a.2.toList) := by
    refine List.filter_eq_self.mpr fun a ha => ?_
    obtain ⟨b, hb, rfl⟩ := List.mem_map.mp ha
    have hname := h.names b.1 (List.mem_map_of_mem hb)
    rw [isAttributeName, Bool.and_eq_true] at hname
    exact hname.2
  unfold Attributes.ofTag
  rw [hread]
  simp only [List.append_nil, List.reverse_reverse, hkept, List.map_map]
  refine (List.map_congr_left fun a _ => ?_).trans (List.map_id attributes)
  simp [decodeValue_escape]

/-! ## Tags -/

/-- A start tag that is written with a name and attributes is the tag of an element that has them. -/
theorem tagEvent_write {tag : String} (htag : ∀ c ∈ tag.toList, c.isAlphanum)
    {attributes : Attributes} (h : attributes.Written) :
    tagEvent (tag.toList ++ attributes.flatMap fun a => writeAttribute a.1 a.2) =
      .startTag tag attributes := by
  -- The tag ends with its name or with a quote, so it is not empty.
  have hslash (rest : List Char) :
      (tag.toList ++ attributes.flatMap fun a => writeAttribute a.1 a.2).reverse ≠ '/' :: rest := by
    rcases List.eq_nil_or_concat attributes with rfl | ⟨before, last, rfl⟩
    · intro hreverse
      have hmem : '/' ∈ tag.toList.reverse := by
        rw [List.flatMap_nil, List.append_nil] at hreverse
        rw [hreverse]
        exact List.mem_cons_self
      cases htag '/' (List.mem_reverse.mp hmem)
    · simp [writeAttribute]
  have hspace (c : Char) (hc : c ∈ tag.toList) : (!isSpace c) = true := by
    rw [isSpace_of_isAlphanum (htag c hc)]
    rfl
  have hsplit : (attributes.flatMap fun a => writeAttribute a.1 a.2).takeWhile (!isSpace ·) = [] ∧
      (attributes.flatMap fun a => writeAttribute a.1 a.2).dropWhile (!isSpace ·) =
        attributes.flatMap fun a => writeAttribute a.1 a.2 := by
    cases attributes with
    | nil => exact ⟨rfl, rfl⟩
    | cons a attributes => exact ⟨rfl, rfl⟩
  unfold tagEvent
  dsimp only
  split
  · rename_i rest hreverse
    exact absurd hreverse (hslash rest)
  · rw [List.takeWhile_append_of_pos hspace, List.dropWhile_append_of_pos hspace, hsplit.1, hsplit.2,
      List.append_nil, String.ofList_toList, ofTag_write h]

/-- The name of an end tag is all that stands in it. -/
theorem endTagName_write {tag : String} (htag : ∀ c ∈ tag.toList, c.isAlphanum) :
    endTagName tag.toList = tag := by
  have hkept : tag.toList.reverse.dropWhile isSpace = tag.toList.reverse := by
    rcases hreverse : tag.toList.reverse with _ | ⟨c, rest⟩
    · rfl
    · have hmem : c ∈ tag.toList := by
        rw [← List.mem_reverse, hreverse]
        exact List.mem_cons_self
      rw [List.dropWhile_cons, isSpace_of_isAlphanum (htag c hmem), if_neg Bool.false_ne_true]
  rw [endTagName, hkept, List.reverse_reverse, ite_self, String.ofList_toList]

end DocWeave.Xml

import DocWeave.Proofs.Markdown.Running

/-!
# Signs in written blocks

What is written for a block has quiet texts around the texts that stand in the block for something
else: in HTML they stand as they are, in code they are escaped.

- `Output.Adds`: what is written behind an output shows some texts in order.
- `Block.Writes`, `writesAll`, `writesItems`: this holds of a block, of blocks and of items of a
  list wherever they are written.
- `shown_render`: the HTML of a source shows what its blocks show.
-/

namespace DocWeave.Markdown

variable {sign : List Char} {ended : Bool} {cs ds : List (List Char)}

/-! ## Outputs -/

/-- Behind an output a text has been written that shows some texts. -/
def Output.Adds (sign : List Char) (ended : Bool) (cs : List (List Char)) (out out' : Output) : Prop :=
  ∃ x, out'.text = x.reverse ++ out.text ∧ Shown sign ended cs x

namespace Output

variable {out out' out'' : Output}

theorem Adds.mono (h : IsSign sign) (ho : Adds sign true cs out out') :
    Adds sign ended cs out out' := by
  obtain ⟨x, hx, hshown⟩ := ho
  exact ⟨x, hx, hshown.mono h⟩

theorem Adds.trans (ho : Adds sign true cs out out') (ho' : Adds sign ended ds out' out'') :
    Adds sign ended (cs ++ ds) out out'' := by
  obtain ⟨x, hx, hshown⟩ := ho
  obtain ⟨y, hy, hshown'⟩ := ho'
  exact ⟨x ++ y, by rw [hy, hx, List.reverse_append, List.append_assoc], hshown.append hshown'⟩

/-- What every member of a list adds without showing anything, all of them do. -/
theorem Adds.foldl {α : Type} {f : Output → α → Output} {xs : List α}
    (ho : Adds sign true cs out out')
    (hf : ∀ x ∈ xs, ∀ o, Adds sign true cs out o → Adds sign true cs out (f o x)) :
    Adds sign true cs out (xs.foldl f out') := by
  induction xs generalizing out' with
  | nil => exact ho
  | cons x xs ih =>
    exact ih (hf x List.mem_cons_self out' ho) fun y hy => hf y (List.mem_cons_of_mem x hy)

section Sign

variable (h : IsSign sign)
include h

theorem adds_refl : Adds sign ended [] out out :=
  ⟨[], rfl, quiet_nil.shown h⟩

/-- Quiet text adds nothing that is shown. -/
theorem Adds.put (ho : Adds sign true cs out out') {t : List Char} (ht : Quiet sign t) :
    Adds sign true cs out (out'.put t) := by
  have hput : Adds sign true [] out' (out'.put t) := ⟨t, rfl, ht.shown h⟩
  rw [← List.append_nil cs]
  exact ho.trans hput

theorem Adds.puts (ho : Adds sign true cs out out') {t : String} (ht : Quiet sign t.toList) :
    Adds sign true cs out (out'.puts t) :=
  ho.put h ht

theorem Adds.freshLine (ho : Adds sign true cs out out') : Adds sign true cs out out'.freshLine := by
  unfold Output.freshLine
  split
  · exact ho
  · exact ho
  · exact ho.put h (t := ['\n']) (quiet_of_opensTags h (by decide))

/-- A tag behind a text ends it. -/
theorem Adds.close (ho : Adds sign ended cs out out') {t : String} (ht : Quiet sign t.toList)
    (hhead : t.toList.head? = some '<') : Adds sign true cs out (out'.puts t) := by
  obtain ⟨x, hx, hshown⟩ := ho
  refine ⟨x ++ t.toList, ?_, hshown.append_quiet h ht hhead (by decide)⟩
  rw [Output.puts, Output.put, hx, List.reverse_append, List.append_assoc]

/-- Nor does running text that holds no sign. -/
theorem Adds.writeText (ho : Adds sign true cs out out') (ctx : InlineContext) {content : List Glyph}
    (hcontent : Signless sign content) : Adds sign true cs out (writeText ctx out' content) := by
  have hquiet := quiet_writeInlines (readInlines_tame h ctx out'.allowance hcontent)
  exact ho.put h hquiet

end Sign

end Output

/-! ## Tables -/

theorem rawText_glyphs (layer : Layer) (text : List Char) : rawText (glyphs layer text) = text := by
  rw [rawText, glyphs, List.map_map]
  exact List.map_id text

/-- Glyphs of a text, none of which is a mark of a block, stand for the text. -/
theorem unmarkedText_glyphs {layer : Layer} (hlayer : layer ≠ .marker) (text : List Char) :
    unmarkedText (glyphs layer text) = text := by
  have hall : ∀ g ∈ glyphs layer text, decide (g.layer ≠ .marker) = true := by
    intro g hg
    obtain ⟨c, -, rfl⟩ := List.mem_map.mp hg
    exact decide_eq_true hlayer
  rw [unmarkedText, List.filter_eq_self.mpr hall]
  exact rawText_glyphs layer text

/-- So there is no sign among them if there is none in the text. -/
theorem signless_glyphs {layer : Layer} (hlayer : layer ≠ .marker) {text : List Char}
    (htext : ¬ sign <:+: text) : Signless sign (glyphs layer text) :=
  ⟨by rwa [rawText_glyphs], by rwa [unmarkedText_glyphs hlayer]⟩

section Sign

variable (h : IsSign sign) (definitions : List Definition) {out out' : Output}
include h

theorem Output.Adds.writeCells (ho : Adds sign true cs out out') {tag : String}
    (htag : tag = "th" ∨ tag = "td") (columns : List Alignment) {cells : List (List Char)}
    (hcells : ∀ cell ∈ cells, ¬ sign <:+: cell) :
    Adds sign true cs out (writeCells definitions tag columns out' cells) := by
  refine ho.foldl fun pair hpair o ho => ?_
  obtain ⟨alignment, cell⟩ := pair
  have hcell := hcells cell (List.of_mem_zip hpair).2
  -- There are two names and four alignments.
  have hstart : opensTags ("<" ++ tag ++ alignment.attribute ++ ">").toList := by
    rcases htag with rfl | rfl <;> cases alignment <;> decide
  have hstop : opensTags ("</" ++ tag ++ ">").toList := by
    rcases htag with rfl | rfl <;> decide
  exact (((ho.puts h (quiet_of_opensTags h hstart)).writeText h _
    (signless_glyphs (by decide) hcell)).puts h (quiet_of_opensTags h hstop))

theorem Output.Adds.writeTable (ho : Adds sign true cs out out') (columns : List Alignment)
    {header : List (List Char)} {rows : List (List (List Char))}
    (hheader : ∀ cell ∈ header, ¬ sign <:+: cell)
    (hrows : ∀ row ∈ rows, ∀ cell ∈ row, ¬ sign <:+: cell) :
    Adds sign true cs out (writeTable definitions out' columns header rows) := by
  have htag {t : String} (ht : opensTags t.toList) : Quiet sign t.toList := quiet_of_opensTags h ht
  have hhead := (ho.puts h (htag (t := "<table><thead><tr>") (by decide))).writeCells h definitions
    (Or.inl rfl) columns hheader
  refine ((hhead.puts h (htag (by decide))).foldl fun row hrow o ho => ?_).puts h (htag (by decide))
  exact ((ho.puts h (htag (by decide))).writeCells h definitions (Or.inr rfl) columns
    (hrows row hrow)).puts h (htag (by decide))

end Sign

/-! ## Blocks -/

/-- Wherever a block is written, it shows some texts in order. -/
def Block.Writes (sign : List Char) (ended : Bool) (b : Block) (cs : List (List Char)) : Prop :=
  ∀ definitions tight out, Output.Adds sign ended cs out (writeBlock definitions tight out b)

/-- Blocks show some texts in order. -/
def WritesAll (sign : List Char) (ended : Bool) (bs : List Block) (cs : List (List Char)) : Prop :=
  ∀ definitions tight out, Output.Adds sign ended cs out (writeBlocks definitions tight out bs)

/-- The items of a list show some texts in order. -/
def WritesItems (sign : List Char) (items : List (List Block)) (cs : List (List Char)) : Prop :=
  ∀ definitions tight out, Output.Adds sign true cs out (writeItems definitions tight out items)

theorem writeBlocks_append (definitions : List Definition) (tight : Bool) :
    ∀ (bs more : List Block) (out : Output), writeBlocks definitions tight out (bs ++ more) =
      writeBlocks definitions tight (writeBlocks definitions tight out bs) more
  | [], _, _ => by rw [List.nil_append, writeBlocks]
  | b :: bs, more, out => by
    rw [List.cons_append, writeBlocks, writeBlocks, writeBlocks_append definitions tight bs more]

theorem writeItems_append (definitions : List Definition) (tight : Bool) :
    ∀ (items more : List (List Block)) (out : Output),
      writeItems definitions tight out (items ++ more) =
        writeItems definitions tight (writeItems definitions tight out items) more
  | [], _, _ => by rw [List.nil_append, writeItems]
  | item :: items, more, out => by
    rw [List.cons_append, writeItems, writeItems, writeItems_append definitions tight items more]

/-- Blocks and one behind them, which must not go on the last of them. -/
theorem WritesAll.concat {bs : List Block} {b : Block} (hbs : WritesAll sign true bs cs)
    (hb : b.Writes sign ended ds) : WritesAll sign ended (bs ++ [b]) (cs ++ ds) := by
  intro definitions tight out
  rw [writeBlocks_append, writeBlocks, writeBlocks]
  exact (hbs definitions tight out).trans (hb definitions tight _)

/-- HTML is kept, and what stands in it. -/
theorem writes_html {text : List Char} (htext : Shown sign ended cs text) :
    (Block.html text).Writes sign ended cs := by
  intro definitions tight out
  rw [writeBlock]
  exact ⟨text, rfl, htext⟩

section Sign

variable (h : IsSign sign)
include h

theorem WritesAll.mono {bs : List Block} (hbs : WritesAll sign true bs cs) :
    WritesAll sign ended bs cs :=
  fun definitions tight out => (hbs definitions tight out).mono h

theorem writesAll_nil : WritesAll sign ended [] [] := by
  intro definitions tight out
  rw [writeBlocks]
  exact Output.adds_refl h

theorem writesItems_nil : WritesItems sign [] [] := by
  intro definitions tight out
  rw [writeItems]
  exact Output.adds_refl h

/-- Items and one behind them. The tag at its end says that it has ended. -/
theorem WritesItems.concat {items : List (List Block)} {item : List Block}
    (hitems : WritesItems sign items cs) (hitem : WritesAll sign ended item ds) :
    WritesItems sign (items ++ [item]) (cs ++ ds) := by
  intro definitions tight out
  rw [writeItems_append, writeItems, writeItems]
  have hstart := ((hitems definitions tight out).freshLine h).puts h (t := "<li>")
    (quiet_of_opensTags h (by decide))
  exact (hstart.trans (hitem definitions tight _)).close h (quiet_of_opensTags h (by decide))
    (by decide)

theorem quiet_repr (n : Nat) : Quiet sign (Nat.repr n).toList :=
  quiet_of_not_mem h fun hmem => absurd (isDigit_of_mem_repr hmem) (by decide)

theorem quiet_taskTag (task : Option Bool) : Quiet sign (taskTag task) := by
  refine quiet_of_opensTags h ?_
  rcases task with _ | _ | _ <;> decide

/-- A paragraph without a sign shows nothing. -/
theorem writes_paragraph (task : Option Bool) {content : List Glyph}
    (hcontent : Signless sign content) : (Block.paragraph task content).Writes sign ended [] := by
  intro definitions tight out
  refine Output.Adds.mono h ?_
  have hwrite {o : Output} (ho : Output.Adds sign true [] out o) :=
    (ho.put h (quiet_taskTag h task)).writeText h ⟨false, definitions⟩ hcontent
  rw [writeBlock]
  split
  · -- In a tight item there are no tags around the text.
    exact hwrite (Output.adds_refl h)
  · exact (hwrite (((Output.adds_refl h).freshLine h).puts h (quiet_of_opensTags h (by decide)))).puts h
      (quiet_of_opensTags h (by decide))

/-- A heading is written without a sign if the tags of its level do not look like one. -/
theorem writes_heading {level : Nat} (hlevel : Allows sign level) (task : Option Bool)
    {content : List Glyph} (hcontent : Signless sign content) :
    (Block.heading level task content).Writes sign ended [] := by
  intro definitions tight out
  refine Output.Adds.mono h ?_
  have htag {t : List Char} (ht : opensTags t) : Quiet sign t := quiet_of_opensTags h ht
  have hstart : Quiet sign ("<" ++ headingTag level ++ ">").toList := by
    rw [headingTag, String.toList_append, String.toList_append, String.toList_append]
    exact hlevel '>' (Or.inl rfl)
  -- An end tag has a slash behind its bracket, so the level does not matter there.
  have hstop : Quiet sign ("</" ++ headingTag level ++ ">\n").toList := by
    rw [headingTag, String.toList_append, String.toList_append, String.toList_append,
      ← List.append_assoc]
    exact ((htag (t := ['<', '/', 'h']) (by decide)).append (quiet_repr h level)).append
      (htag (by decide))
  rw [writeBlock]
  exact (((((Output.adds_refl h).freshLine h).puts h hstart).put h (quiet_taskTag h task)).writeText h
    _ hcontent).puts h hstop

theorem writes_rule : Block.rule.Writes sign ended [] := by
  intro definitions tight out
  rw [writeBlock]
  exact (((Output.adds_refl h).freshLine h).puts h (quiet_of_opensTags h (by decide))).mono h

theorem writes_checkBox (checked : Bool) : (Block.checkBox checked).Writes sign ended [] := by
  intro definitions tight out
  rw [writeBlock]
  exact ((Output.adds_refl h).puts h (quiet_taskTag h (some checked))).mono h

theorem writes_table (columns : List Alignment) {header : List (List Char)}
    {rows : List (List (List Char))} (hheader : ∀ cell ∈ header, ¬ sign <:+: cell)
    (hrows : ∀ row ∈ rows, ∀ cell ∈ row, ¬ sign <:+: cell) :
    (Block.table columns header rows).Writes sign ended [] := by
  intro definitions tight out
  rw [writeBlock]
  exact ((Output.adds_refl h).writeTable h definitions columns hheader hrows).mono h

/-- What stands in code is shown with its angle brackets escaped. -/
theorem shown_escapeBody {mid last : List Char → Prop} {text : List Char}
    (htext : Woven mid last cs text) : Shown sign true (cs.map escapeBody) (escapeBody text) := by
  have hquiet (t : List Char) : Quiet sign (escapeBody t) := quiet_of_not_mem h (not_mem_escapeBody t)
  -- Between the comments nothing is a sign once the angle brackets are escaped.
  induction htext with
  | nil ht => exact (hquiet _).shown h
  | cons c ht _ ih =>
    rw [escapeBody, List.flatMap_append, List.flatMap_append]
    exact .cons _ (hquiet _) ih

/-- Code shows what stands in it, escaped. -/
theorem writes_code (info : Option (List Char)) {mid last : List Char → Prop} {text : List Char}
    (htext : Woven mid last cs text) :
    (Block.code info text).Writes sign ended (cs.map escapeBody) := by
  intro definitions tight out
  have htag {t : List Char} (ht : opensTags t) : Quiet sign t := quiet_of_opensTags h ht
  have hstart : Quiet sign (codeStart info) := by
    unfold codeStart
    extract_lets language
    split
    · exact htag (by decide)
    · exact ((htag (by decide)).append (quiet_of_not_mem h (not_mem_escapeQuoted language))).append
        (htag (by decide))
  have htext' : Output.Adds sign true (cs.map escapeBody) (out.freshLine.put (codeStart info))
      ((out.freshLine.put (codeStart info)).put (escapeBody text)) :=
    ⟨escapeBody text, rfl, shown_escapeBody h htext⟩
  rw [writeBlock]
  exact (((((Output.adds_refl h).freshLine h).put h hstart).trans htext').puts h
    (htag (by decide))).mono h

/-- A quote shows what the blocks in it show. -/
theorem writes_quote {inner : Bool} {children : List Block}
    (hchildren : WritesAll sign inner children cs) : (Block.quote children).Writes sign ended cs := by
  intro definitions tight out
  have hout : Output.Adds sign true [] out out := Output.adds_refl h
  have hstart := (hout.freshLine h).puts h (t := "<blockquote>\n") (quiet_of_opensTags h (by decide))
  rw [writeBlock]
  exact ((hstart.trans (hchildren definitions false _)).close h
    (quiet_of_opensTags h (by decide)) (by decide)).mono h

/-- A list shows what its items show. -/
theorem writes_list (start : Option Nat) (tight : Bool) {items : List (List Block)}
    (hitems : WritesItems sign items cs) : (Block.list start tight items).Writes sign ended cs := by
  intro definitions tight' out
  have htag {t : List Char} (ht : opensTags t) : Quiet sign t := quiet_of_opensTags h ht
  have hstart : Quiet sign (listStart start).toList := by
    unfold listStart
    split
    · exact htag (by decide)
    · exact htag (by decide)
    · rw [String.toList_append, String.toList_append]
      exact ((htag (by decide)).append (quiet_repr h _)).append (htag (by decide))
  have hstop : Quiet sign (listEnd start).toList := by
    unfold listEnd
    split <;> exact htag (by decide)
  rw [writeBlock]
  exact (((((Output.adds_refl h).freshLine h).puts h hstart).trans
    (hitems definitions tight _)).puts h hstop).mono h

end Sign

/-- The HTML of a source shows what the blocks of the source show. -/
theorem shown_render {source : List Char}
    (hblocks : WritesAll sign ended (Blocks.read source).blocks cs) :
    Shown sign ended cs (render source) := by
  obtain ⟨x, hx, hshown⟩ := hblocks (Blocks.read source).definitions false
    { allowance := max (source.foldl (fun n c => n + c.utf8Size) 0) minAllowance }
  -- The output holds its text backwards.
  show Shown sign ended cs (List.reverse _)
  rw [hx, List.append_nil, List.reverse_reverse]
  exact hshown

end DocWeave.Markdown

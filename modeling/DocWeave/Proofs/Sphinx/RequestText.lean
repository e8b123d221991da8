import DocWeave.Proofs.Directive.Values
import DocWeave.Proofs.Page.Lossless
import DocWeave.Sphinx.RequestFile
import Mathlib.Data.List.Basic

/-!
# Reading requests back from the request file

The request file lists the distinct requests of a document in the order in which they are first made.
Neither module names nor option values have line feeds in them, so that blank lines tell where a
request ends, and the lines between them what it asks for.

- `Request.read?`: the request that some lines ask for; `Request.read?_writtenLines`: it undoes
  writing.
- `RequestFile.read`: the requests in a text; `read_write`: it undoes writing.
- `unbroken_of_mem_places`: no request of a document has a line feed inside a line.
- `pairwise_foldl_push`: requests come in the order of their first occurrence.
- `requests_told_by_text`: what the request file says about a document.
-/

namespace DocWeave

/-! ## Requests as lines -/

namespace Request

/-- What a line gives to an option, if it is the line of that option. -/
def readOption? (o : AutodocOption) (line : List Char) : Option String :=
  match line.dropPrefix? ("   :".toList ++ o.name.toList ++ [':']) with
  | some [] => some ""
  | some (' ' :: value) => some (String.ofList value)
  | _ => none

/-- The request that some lines ask for: the first one names the module, the others are options. -/
def read? : List (List Char) → Option Request
  | [] => none
  | first :: options =>
    (first.dropPrefix? ".. automodule:: ".toList).map fun name =>
      { moduleName := String.ofList name
        members := options.findSome? (readOption? .members)
        undocMembers := options.findSome? (readOption? .undocMembers)
        privateMembers := options.findSome? (readOption? .privateMembers)
        specialMembers := options.findSome? (readOption? .specialMembers) }

/-- What stands behind a start is left when the start is dropped. -/
theorem dropPrefix?_append (start rest : List Char) :
    (start ++ rest).dropPrefix? start = some rest :=
  List.dropPrefix?_eq_some_iff.mpr ⟨start, rfl, beq_self_eq_true start⟩

/-- The line of an option gives its value to that option and to no other. -/
theorem readOption?_writeOption (o p : AutodocOption) (v : String) :
    readOption? p (writeOption o v) = if p = o then some v else none := by
  by_cases hp : p = o
  · subst hp
    -- Behind the name stands nothing, or a space and the value.
    have hline : writeOption p v = "   :".toList ++ p.name.toList ++ [':'] ++
        (if v.toList.isEmpty then [] else ' ' :: v.toList) := by
      unfold writeOption
      simp
    rw [if_pos rfl, readOption?, hline, dropPrefix?_append]
    rcases hv : v.toList with _ | ⟨c, rest⟩
    · rw [String.toList_eq_nil_iff.mp hv]
      rfl
    · show some (String.ofList (c :: rest)) = some v
      rw [← hv, String.ofList_toList]
  · rw [if_neg hp]
    -- no name of an option, with the colon behind it, is the start of another one's line
    cases o <;> cases p <;> simp only [reduceCtorEq, not_true_eq_false, not_false_eq_true] at hp <;> rfl

/-- The options of a request are read from its lines. -/
theorem findSome?_readOption? (r : Request) (p : AutodocOption) : ∀ os : List AutodocOption,
    (os.filterMap fun o => (r.option? o).map (writeOption o)).findSome? (readOption? p) =
      if p ∈ os then r.option? p else none
  | [] => rfl
  | o :: os => by
    have ih := findSome?_readOption? r p os
    cases hvalue : r.option? o with
    | none =>
      rw [List.filterMap_cons_none (by rw [hvalue]; rfl), ih]
      by_cases hp : p = o
      · subst hp
        simp [hvalue]
      · simp [hp]
    | some v =>
      rw [List.filterMap_cons_some (by rw [hvalue]; rfl), List.findSome?_cons,
        readOption?_writeOption, ih]
      by_cases hp : p = o
      · subst hp
        simp [hvalue]
      · simp [hp]

/-- A request is read back from its lines. -/
theorem read?_writtenLines (r : Request) : read? r.writtenLines = some r := by
  have hoption (p : AutodocOption) (hp : p ∈ AutodocOption.all) :=
    (findSome?_readOption? r p AutodocOption.all).trans (if_pos hp)
  unfold writtenLines read?
  dsimp only
  rw [dropPrefix?_append, Option.map_some, hoption _ (by decide), hoption _ (by decide),
    hoption _ (by decide), hoption _ (by decide), String.ofList_toList]
  rfl

/-- The lines of a request are the one for its module and those of the options that it has. -/
theorem forall_mem_writtenLines {P : List Char → Prop} {r : Request} :
    (∀ line ∈ r.writtenLines, P line) ↔ P (".. automodule:: ".toList ++ r.moduleName.toList) ∧
      ∀ o v, r.option? o = some v → P (writeOption o v) := by
  unfold writtenLines
  rw [List.forall_mem_cons]
  refine and_congr_right fun _ => ⟨fun h o v hv => ?_, fun h line hline => ?_⟩
  · -- All four options are written.
    have hall : o ∈ AutodocOption.all := by
      cases o <;> decide
    exact h _ (List.mem_filterMap.mpr ⟨o, hall, by rw [hv, Option.map_some]⟩)
  · obtain ⟨o, -, hline⟩ := List.mem_filterMap.mp hline
    obtain ⟨v, hv, rfl⟩ := Option.map_eq_some_iff.mp hline
    exact h o v hv

/-- The line of an option ends with its value. What is in front of it does not end lines. -/
theorem writeOption_eq (o : AutodocOption) (v : String) :
    ∃ start, '\n' ∉ start ∧ '\r' ∉ start ∧ writeOption o v = start ++ v.toList := by
  by_cases hv : v.toList = []
  · refine ⟨"   :".toList ++ o.name.toList ++ [':'], ?_, ?_, ?_⟩
    · cases o <;> decide
    · cases o <;> decide
    · simp [writeOption, hv]
  · refine ⟨"   :".toList ++ o.name.toList ++ [':', ' '], ?_, ?_, ?_⟩
    · cases o <;> decide
    · cases o <;> decide
    · simp [writeOption, hv]

/-- No line of a request has a line feed in it. -/
def Unbroken (r : Request) : Prop :=
  ∀ line ∈ r.writtenLines, '\n' ∉ line

theorem writtenLines_ne_nil (r : Request) : r.writtenLines ≠ [] :=
  nofun

/-- No line of a request is blank. -/
theorem ne_nil_of_mem_writtenLines (r : Request) : ∀ line ∈ r.writtenLines, line ≠ [] :=
  forall_mem_writtenLines.mpr ⟨nofun, fun _ _ _ => nofun⟩

/-- A request is unbroken if neither its module nor any of its values has a line feed. -/
theorem unbroken_of_values {r : Request} (hname : '\n' ∉ r.moduleName.toList)
    (hvalue : ∀ o v, r.option? o = some v → '\n' ∉ v.toList) : r.Unbroken := by
  refine forall_mem_writtenLines.mpr ⟨?_, fun o v hv => ?_⟩
  · rw [List.mem_append]
    exact fun h => h.elim (by decide) hname
  · obtain ⟨start, hstart, -, hline⟩ := writeOption_eq o v
    rw [hline, List.mem_append, not_or]
    exact ⟨hstart, hvalue o v hv⟩

end Request

/-! ## The lines of the file -/

namespace Sphinx.RequestFile

/-- Lines joined, each with a line feed. -/
def unlines (ls : List (List Char)) : List Char :=
  ls.flatMap (· ++ ['\n'])

/-- The lines for some requests: the lines of each of them, and a blank one between two requests. -/
def linesOf (rs : List Request) : List (List Char) :=
  [[]].intercalate (rs.map Request.writtenLines)

theorem unlines_append (a b : List (List Char)) : unlines (a ++ b) = unlines a ++ unlines b :=
  List.flatMap_append

theorem intercalate_feed : ∀ {ls : List (List Char)}, ls ≠ [] →
    ['\n'].intercalate ls ++ ['\n'] = unlines ls
  | [], h => absurd rfl h
  | [l], _ => by simp [unlines]
  | l :: m :: ls, _ => by
    have hmore := intercalate_feed (List.cons_ne_nil m ls)
    rw [List.intercalate_cons_of_ne_nil (List.cons_ne_nil m ls), List.append_assoc, hmore]
    rfl

theorem linesOf_cons (r : Request) {rs : List Request} (h : rs ≠ []) :
    linesOf (r :: rs) = r.writtenLines ++ [] :: linesOf rs := by
  have hmap : rs.map Request.writtenLines ≠ [] := fun hnil => h (List.map_eq_nil_iff.mp hnil)
  rw [linesOf, List.map_cons, List.intercalate_cons_of_ne_nil hmap, List.append_assoc]
  rfl

/-- The text of a file that has requests is made of its lines. -/
theorem write_eq : ∀ {rs : List Request}, rs ≠ [] → write ⟨rs⟩ = unlines (linesOf rs)
  | [], h => absurd rfl h
  | [r], _ => by
    have hone := intercalate_feed r.writtenLines_ne_nil
    simpa [write, linesOf, Request.write] using hone
  | r :: q :: rs, _ => by
    have hne : (q :: rs).map Request.write ≠ [] := nofun
    have hone : r.write ++ ['\n'] = unlines r.writtenLines :=
      intercalate_feed r.writtenLines_ne_nil
    have hmore : write ⟨q :: rs⟩ = unlines (linesOf (q :: rs)) := write_eq (List.cons_ne_nil q rs)
    calc write ⟨r :: q :: rs⟩
        = r.write ++ ['\n', '\n'] ++ ['\n', '\n'].intercalate ((q :: rs).map Request.write) ++ ['\n'] := by
          rw [write, List.map_cons, List.intercalate_cons_of_ne_nil hne]
      _ = (r.write ++ ['\n']) ++ '\n' :: write ⟨q :: rs⟩ := by simp [write]
      _ = unlines r.writtenLines ++ unlines ([] :: linesOf (q :: rs)) := by
          rw [hone, hmore]
          rfl
      _ = unlines (linesOf (r :: q :: rs)) := by
          rw [linesOf_cons r (List.cons_ne_nil q rs), unlines_append]

/-! ## Reading the file -/

/-- The requests in a text: those of the groups of lines between blank ones. -/
def read (text : List Char) : List Request :=
  ((text.splitOn '\n').dropLast.splitOn []).filterMap Request.read?

theorem splitOn_unlines : ∀ {ls : List (List Char)}, (∀ line ∈ ls, '\n' ∉ line) →
    (unlines ls).splitOn '\n' = ls ++ [[]]
  | [], _ => rfl
  | line :: ls, h => by
    obtain ⟨hline, hls⟩ := List.forall_mem_cons.mp h
    have hcons : unlines (line :: ls) = line ++ '\n' :: unlines ls := by
      simp [unlines]
    rw [hcons, List.splitOn_append_cons_self_of_not_mem hline, splitOn_unlines hls]
    rfl

/-- The lines for requests are grouped by blank lines. -/
theorem splitOn_linesOf {rs : List Request} (h : rs ≠ []) :
    (linesOf rs).splitOn [] = rs.map Request.writtenLines := by
  refine List.splitOn_intercalate [] (fun block hblock hmem => ?_) ?_
  · obtain ⟨r, -, rfl⟩ := List.mem_map.mp hblock
    exact r.ne_nil_of_mem_writtenLines [] hmem rfl
  · exact fun hnil => h (List.map_eq_nil_iff.mp hnil)

/-- The lines for requests are their lines and blank ones. -/
theorem forall_mem_linesOf {P : List Char → Prop} (hblank : P []) : ∀ {rs : List Request},
    (∀ line ∈ linesOf rs, P line) ↔ ∀ r ∈ rs, ∀ line ∈ r.writtenLines, P line
  | [] => iff_of_true nofun nofun
  | [r] => by simp [linesOf]
  | r :: q :: rs => by
    rw [linesOf_cons r (List.cons_ne_nil q rs), List.forall_mem_append, List.forall_mem_cons,
      forall_mem_linesOf hblank, and_iff_right hblank]
    exact (List.forall_mem_cons (p := fun r : Request => ∀ line ∈ r.writtenLines, P line)).symm

/-- The requests of a file are read back from its text. -/
theorem read_write {rs : List Request} (h : ∀ r ∈ rs, r.Unbroken) : read (write ⟨rs⟩) = rs := by
  by_cases hrs : rs = []
  · subst hrs
    rfl
  · have hlines : ∀ line ∈ linesOf rs, '\n' ∉ line := (forall_mem_linesOf nofun).mpr h
    rw [write_eq hrs, read, splitOn_unlines hlines, List.dropLast_concat, splitOn_linesOf hrs,
      List.filterMap_map, List.filterMap_congr fun r _ => r.read?_writtenLines]
    exact List.filterMap_some

/-! ## The order of requests -/

variable {asked : List Request} {file : RequestFile}

/-- A request is new to a file that does not hold it. -/
theorem offer_snd (file : RequestFile) (r : Request) :
    (file.offer r).2 = true ↔ r ∉ file.requests := by
  have hcontains : file.contains r = true ↔ r ∈ file.requests := by
    simp [contains]
  rw [← hcontains, offer]
  split <;> simp [*]

/-- Offering requests one after the other keeps those that come first, in this order. -/
theorem foldl_push_concat (asked : List Request) (r : Request) :
    ((asked ++ [r]).foldl push file).requests =
      if r ∈ (asked.foldl push file).requests then (asked.foldl push file).requests
      else (asked.foldl push file).requests ++ [r] := by
  rw [List.foldl_append, List.foldl_cons, List.foldl_nil, push, offer]
  simp only [contains, List.any_eq_true, decide_eq_true_iff, exists_eq_right]
  split <;> rfl

/-- A file has the requests that have been offered. -/
theorem mem_foldl_push (r : Request) : r ∈ (asked.foldl push {}).requests ↔ r ∈ asked := by
  induction asked using List.reverseRecOn with
  | nil => rfl
  | append_singleton asked q ih =>
    rw [foldl_push_concat, List.mem_append, List.mem_singleton, ← ih]
    split
    · rename_i hq
      refine ⟨Or.inl, fun h => h.elim id ?_⟩
      rintro rfl
      exact hq
    · rw [List.mem_append, List.mem_singleton]

/-- A request comes before another one if it occurs first before the other one does. -/
theorem pairwise_foldl_push (asked : List Request) :
    (asked.foldl push {}).requests.Pairwise fun p q => asked.idxOf p < asked.idxOf q := by
  induction asked using List.reverseRecOn with
  | nil => exact List.Pairwise.nil
  | append_singleton asked r ih =>
    -- What has been asked for before is found at the same places.
    have hold : (asked.foldl push {}).requests.Pairwise
        fun p q => (asked ++ [r]).idxOf p < (asked ++ [r]).idxOf q := by
      refine ih.imp_of_mem fun hp hq hlt => ?_
      rwa [List.idxOf_append_of_mem ((mem_foldl_push _).mp hp),
        List.idxOf_append_of_mem ((mem_foldl_push _).mp hq)]
    rw [foldl_push_concat]
    split
    · exact hold
    · rename_i hr
      rw [mem_foldl_push] at hr
      refine List.pairwise_append.mpr ⟨hold, List.pairwise_singleton _ _, fun p hp q hq => ?_⟩
      obtain rfl := List.mem_singleton.mp hq
      have hmem := (mem_foldl_push p).mp hp
      rw [List.idxOf_append_of_mem hmem, List.idxOf_append_of_notMem hr]
      exact Nat.lt_add_right _ (List.idxOf_lt_length_iff.mpr hmem)

/-! ## The request file of a document -/

/-- No request of a document has a line feed inside a line. -/
theorem unbroken_of_mem_places {source : String} {place : Page.Pending}
    (h : place ∈ (Page.parse source).1.places) : place.request.Unbroken := by
  obtain ⟨-, raw, leaf, ⟨before, hraw, -⟩, hleaf, -, hrequest⟩ := Page.exists_leaf_of_mem_places h
  refine Request.unbroken_of_values (fun hmem => ?_) fun o v hv hmem => ?_
  · have hdotted := (Directive.option?_requestOf hrequest).1
    -- A name consists of identifiers and dots.
    rcases hdotted.isIdentifierChar '\n' hmem with hfeed | hfeed
    · exact absurd hfeed (by decide)
    · exact absurd hfeed (by decide)
  · have hline := Directive.value_of_requestOf hleaf hrequest hv hmem
    exact Text.feed_not_mem_dropLineEnd hraw.unbroken hline

theorem mem_ofDocument {d : Page.Document} {r : Request} :
    r ∈ (ofDocument d).requests ↔ r ∈ d.places.map (·.request) :=
  mem_foldl_push r

theorem nodup_ofDocument (d : Page.Document) : (ofDocument d).requests.Nodup :=
  (pairwise_foldl_push _).imp fun hlt heq => hlt.ne (congrArg (List.idxOf · _) heq)

theorem unbroken_ofDocument (source : String) :
    ∀ r ∈ (ofDocument (Page.parse source).1).requests, r.Unbroken := by
  intro r hr
  obtain ⟨place, hplace, rfl⟩ := List.mem_map.mp (mem_ofDocument.mp hr)
  exact unbroken_of_mem_places hplace

/-- **The request file tells what a document asks for.** It has each request of a place once, where
the first place with this request puts it: offering a request adds it exactly if no earlier place has
it. The requests are read back from the text, so that two documents have the same text exactly if
they ask for the same, option for option. -/
theorem requests_told_by_text (source : String) :
    let asked := (Page.parse source).1.places.map (·.request)
    let file := ofDocument (Page.parse source).1
    (∀ r, file.requests.count r = if r ∈ asked then 1 else 0) ∧
    file.requests.Pairwise (fun p q => asked.idxOf p < asked.idxOf q) ∧
    (∀ before r after, asked = before ++ r :: after →
      (((before.foldl push {}).offer r).2 = true ↔ r ∉ before)) ∧
    read file.text.toList = file.requests ∧
    ∀ other, file.text = (ofDocument (Page.parse other).1).text ↔
      file.requests = (ofDocument (Page.parse other).1).requests := by
  intro asked file
  have hread (source : String) : read (ofDocument (Page.parse source).1).text.toList =
      (ofDocument (Page.parse source).1).requests := by
    rw [text, String.toList_ofList]
    exact read_write (unbroken_ofDocument source)
  refine ⟨fun r => ?_, pairwise_foldl_push asked, fun before r after _ => ?_, hread source,
    fun other => ?_⟩
  · rw [(nodup_ofDocument _).count]
    simp only [mem_ofDocument]
    rfl
  · rw [offer_snd, mem_foldl_push]
  · refine ⟨fun htext => ?_, fun hrequests => ?_⟩
    · -- Reading both files gives the requests of both.
      have hboth := congrArg (fun text => read text.toList) htext
      simpa only [file, hread] using hboth
    · rw [text, text, write, write, hrequests]

/-- Of three places, two ask for the same: the file has two requests, and the third one is not new. -/
theorem requests_told_by_text_repeated :
    let source := "::automodule[a]\x7bmembers\x7d\n::automodule[a]\n::automodule[a]\x7bmembers=\"\"\x7d\n"
    let a : Request := { moduleName := "a" }
    (ofDocument (Page.parse source).1).requests = [{ a with members := some "" }, a] ∧
    (((([{ a with members := some "" }, a] : List Request).foldl push {}).offer
      { a with members := some "" }).2 = true ↔
        { a with members := some "" } ∉ [{ a with members := some "" }, a]) ∧
    (ofDocument (Page.parse source).1).text ≠ (ofDocument (Page.parse "::automodule[a]").1).text := by
  intro source a
  have hasked : (Page.parse source).1.places.map (·.request) =
      [{ a with members := some "" }, a, { a with members := some "" }] := by
    decide +kernel
  have hfile : (ofDocument (Page.parse source).1).requests = [{ a with members := some "" }, a] := by
    decide +kernel
  have hother : (ofDocument (Page.parse "::automodule[a]").1).requests = [a] := by
    decide +kernel
  obtain ⟨-, -, hoffer, -, htext⟩ := requests_told_by_text source
  refine ⟨hfile, hoffer _ _ [] hasked, fun heq => ?_⟩
  have hrequests := (htext _).mp heq
  rw [hfile, hother] at hrequests
  exact absurd hrequests (by decide)

end Sphinx.RequestFile

end DocWeave

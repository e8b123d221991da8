import DocWeave.Proofs.Sphinx.RequestText
import DocWeave.Sphinx.Conf

/-!
# What the configuration file does

Sphinx runs the configuration file as a program. It has few kinds of statements, each on lines of its
own, and the texts in them are literals in single quotes.

- `readLiteral`: the text of a literal; `readLiteral_quote`: no text ends its literal early.
- `Statement`, `readStatements`: the statements in some lines; none if a line makes no sense.
- `Statement.exec`, `execute`: what the statements do to the module path and the extensions.
- `readStatements_lines`: each directory is one statement, and each extension one entry of the list.
- `execute_text`: running the file gives what has been configured.
-/

namespace DocWeave.Sphinx

open Request (dropPrefix?_append)
open RequestFile (unlines unlines_append splitOn_unlines)

/-! ## Literals -/

/-- The text of a literal of which the first quote has been read, and what is behind the literal. It
ends at the first quote without a backslash for it. -/
def readLiteral : List Char → Option (List Char × List Char)
  | [] => none
  | '\'' :: rest => some ([], rest)
  | '\\' :: '\\' :: rest => (readLiteral rest).map fun (text, more) => ('\\' :: text, more)
  | '\\' :: '\'' :: rest => (readLiteral rest).map fun (text, more) => ('\'' :: text, more)
  | '\\' :: 'n' :: rest => (readLiteral rest).map fun (text, more) => ('\n' :: text, more)
  | c :: rest => (readLiteral rest).map fun (text, more) => (c :: text, more)

/-- A literal holds the text for which it was written, whatever follows it. -/
theorem readLiteral_quote (text rest : List Char) :
    readLiteral (text.flatMap quoteChar ++ '\'' :: rest) = some (text, rest) := by
  induction text with
  | nil => simp [readLiteral]
  | cons c text ih =>
    rw [List.flatMap_cons, List.append_assoc]
    -- Only these characters are escaped, and no other one is read as the start of an escape.
    by_cases hbackslash : c = '\\'
    · subst hbackslash
      simp [quoteChar, readLiteral, ih]
    · by_cases hquote : c = '\''
      · subst hquote
        simp [quoteChar, readLiteral, ih]
      · by_cases hfeed : c = '\n'
        · subst hfeed
          simp [quoteChar, readLiteral, ih]
        · simp [quoteChar, readLiteral, hbackslash, hquote, hfeed, ih]

/-- A literal stands on one line. -/
theorem feed_not_mem_quote (text : List Char) : '\n' ∉ quote text := by
  have hchar (c : Char) : '\n' ∉ quoteChar c := by
    unfold quoteChar
    split
    · decide
    · split
      · decide
      · split
        · decide
        · rename_i hfeed
          simpa using Ne.symm hfeed
  unfold quote
  simp [List.mem_flatMap, hchar]

/-- A text in quotes that stands between two marks, and the line is nothing else. -/
def readBetween (before after line : List Char) : Option String := do
  let rest ← line.dropPrefix? (before ++ ['\''])
  let (text, more) ← readLiteral rest
  if more = after then some (String.ofList text) else none

theorem readBetween_quote (before after : List Char) (text : String) :
    readBetween before after (before ++ quote text.toList ++ after) = some text := by
  have hline : before ++ quote text.toList ++ after =
      (before ++ ['\'']) ++ (text.toList.flatMap quoteChar ++ '\'' :: after) := by
    simp [quote]
  unfold readBetween
  simp only [hline, dropPrefix?_append, readLiteral_quote, Option.bind_eq_bind, Option.bind_some,
    String.ofList_toList, if_true]

/-! ## Statements -/

/-- The statements of configuration files. -/
inductive Statement where
  /-- Makes the module path known. -/
  | importSys
  /-- Puts a directory in front of the module path. -/
  | insertPath (directory : String)
  /-- Says which extensions there are. -/
  | setExtensions (names : List String)
deriving Repr, DecidableEq

/-- The statements in some lines. Blank lines and comments do nothing. While a list is being read,
`names?` holds the entries that have been read so far, each of which has a line of its own. -/
def readStatements : Option (List String) → List (List Char) → Option (List Statement)
  | none, [] => some []
  | some _, [] => none
  | some names, line :: rest =>
    if line = [']'] then (readStatements none rest).map (.setExtensions names :: ·)
    else
      (readBetween "    ".toList [','] line).bind fun name =>
        readStatements (some (names ++ [name])) rest
  | none, line :: rest =>
    if line = [] ∨ line.head? = some '#' then readStatements none rest
    else if line = "import sys".toList then (readStatements none rest).map (.importSys :: ·)
    else if line = "extensions = [".toList then readStatements (some []) rest
    else
      (readBetween "sys.path.insert(0, ".toList [')'] line).bind fun directory =>
        (readStatements none rest).map (.insertPath directory :: ·)

/-- What a program knows: whether the module path may be used, the directories of the module path,
and the extensions, if they have been set. -/
structure ProgramState where
  imported : Bool := false
  path : List String
  extensions? : Option (List String) := none
deriving Repr, DecidableEq

/-- What a statement does. The module path may only be used once it is known. -/
def Statement.exec (st : ProgramState) : Statement → Option ProgramState
  | .importSys => some { st with imported := true }
  | .insertPath directory =>
    if st.imported then some { st with path := directory :: st.path } else none
  | .setExtensions names => some { st with extensions? := some names }

/-- The statements of a file. -/
def statementsOf (text : String) : Option (List Statement) :=
  readStatements none (text.toList.splitOn '\n')

/-- What a file leaves if the module path is `path` at first. -/
def execute (text : String) (path : List String) : Option ProgramState :=
  (statementsOf text).bind fun statements => statements.foldlM Statement.exec { path := path }

/-! ## The lines of the file -/

namespace Conf

variable {conf : Conf}

/-- The line that puts a directory in front of the module path, without its end. -/
def pathLine (directory : String) : List Char :=
  "sys.path.insert(0, ".toList ++ quote directory.toList ++ [')']

/-- The line of an extension, without its end. -/
def extensionLine (name : String) : List Char :=
  "    ".toList ++ quote name.toList ++ [',']

/-- The lines of the file. -/
def lines (conf : Conf) : List (List Char) :=
  ["# Generated by autodoc.".toList, "import sys".toList, []] ++
    conf.pythonPath.reverse.map pathLine ++
    (if conf.pythonPath.isEmpty then [] else [[]]) ++
    ["extensions = [".toList] ++ conf.allExtensions.map extensionLine ++ [[']']]

theorem unlines_map {α : Type} (f : α → List Char) (items : List α) :
    unlines (items.map f) = items.flatMap fun item => f item ++ ['\n'] := by
  rw [unlines, List.flatMap_map]

theorem write_eq_unlines (conf : Conf) : conf.write = unlines conf.lines := by
  have hpath : (fun directory => pathLine directory ++ ['\n']) = writePath := by
    funext directory
    unfold pathLine writePath
    rw [List.append_assoc, List.singleton_append]
  have hextension : (fun name => extensionLine name ++ ['\n']) = writeExtension := by
    funext name
    unfold extensionLine writeExtension
    rw [List.append_assoc, List.singleton_append]
  have hblank : unlines (if conf.pythonPath.isEmpty then [] else [[]]) =
      if conf.pythonPath.isEmpty then [] else ['\n'] := by
    split <;> rfl
  have hhead : unlines ["# Generated by autodoc.".toList, "import sys".toList, []] =
      "# Generated by autodoc.\nimport sys\n\n".toList := by
    decide
  have hopen : unlines ["extensions = [".toList] = "extensions = [\n".toList := by
    decide
  have hclose : unlines [[']']] = "]\n".toList := by
    decide
  unfold write lines
  rw [unlines_append, unlines_append, unlines_append, unlines_append, unlines_append, hhead, hblank,
    hopen, hclose, unlines_map, unlines_map, hpath, hextension]

theorem feed_not_mem_lines (conf : Conf) : ∀ line ∈ conf.lines, '\n' ∉ line := by
  have hpath (directory : String) : '\n' ∉ pathLine directory := by
    unfold pathLine
    rw [List.mem_append, List.mem_append, not_or, not_or]
    exact ⟨⟨by decide, feed_not_mem_quote _⟩, by decide⟩
  have hextension (name : String) : '\n' ∉ extensionLine name := by
    unfold extensionLine
    rw [List.mem_append, List.mem_append, not_or, not_or]
    exact ⟨⟨by decide, feed_not_mem_quote _⟩, by decide⟩
  unfold lines
  simp only [List.forall_mem_append, List.forall_mem_cons, List.forall_mem_map]
  refine ⟨⟨⟨⟨⟨⟨by decide, by decide, nofun, nofun⟩, fun directory _ => hpath directory⟩, ?_⟩,
    by decide, nofun⟩, fun name _ => hextension name⟩, by decide, nofun⟩
  split
  · nofun
  · simp

/-! ## The statements of the file -/

/-- Directories are read one by one. -/
theorem readStatements_paths (directories : List String) (rest : List (List Char)) :
    readStatements none (directories.map pathLine ++ rest) =
      (readStatements none rest).map (directories.map .insertPath ++ ·) := by
  induction directories with
  | nil => simp
  | cons directory directories ih =>
    -- The line starts with an `s`, which no line of another kind does that stands here.
    have hstart : pathLine directory =
        's' :: ("ys.path.insert(0, ".toList ++ quote directory.toList ++ [')']) := rfl
    have hblank : ¬ (pathLine directory = [] ∨ (pathLine directory).head? = some '#') := by
      rw [hstart]
      simp
    have himport : pathLine directory ≠ "import sys".toList := by
      rw [hstart]
      intro h
      cases h
    have hlist : pathLine directory ≠ "extensions = [".toList := by
      rw [hstart]
      intro h
      cases h
    have hread : readBetween "sys.path.insert(0, ".toList [')'] (pathLine directory) =
        some directory := readBetween_quote _ _ _
    rw [List.map_cons, List.cons_append, readStatements, if_neg hblank, if_neg himport,
      if_neg hlist, hread, Option.bind_some, ih, Option.map_map]
    rfl

/-- So are the entries of a list of extensions, up to its end. -/
theorem readStatements_extensions (known names : List String) (rest : List (List Char)) :
    readStatements (some known) (names.map extensionLine ++ [']'] :: rest) =
      (readStatements none rest).map (.setExtensions (known ++ names) :: ·) := by
  induction names generalizing known with
  | nil => simp [readStatements]
  | cons name names ih =>
    have hopen : extensionLine name ≠ [']'] := by
      intro h
      cases h
    have hread : readBetween "    ".toList [','] (extensionLine name) = some name :=
      readBetween_quote _ _ _
    -- The name is put behind those that are known, and the rest is read with it.
    rw [List.map_cons, List.cons_append, readStatements, if_neg hopen, hread, Option.bind_some, ih,
      List.append_assoc, List.singleton_append]

/-- What the file says: each directory, the last one first, and the extensions. -/
def statements (conf : Conf) : List Statement :=
  .importSys :: conf.pythonPath.reverse.map .insertPath ++ [.setExtensions conf.allExtensions]

/-- **The statements of the file.** There is one for each directory, one for the list, and no other. -/
theorem statementsOf_text (conf : Conf) : statementsOf conf.text = some conf.statements := by
  have hcomment (rest : List (List Char)) :
      readStatements none ("# Generated by autodoc.".toList :: rest) = readStatements none rest := by
    rw [readStatements, if_pos (Or.inr (by decide))]
  have himport (rest : List (List Char)) : readStatements none ("import sys".toList :: rest) =
      (readStatements none rest).map (.importSys :: ·) := by
    rw [readStatements, if_neg (by decide), if_pos rfl]
  have hblank (rest : List (List Char)) :
      readStatements none ([] :: rest) = readStatements none rest := by
    rw [readStatements, if_pos (Or.inl rfl)]
  have hlist (rest : List (List Char)) :
      readStatements none ("extensions = [".toList :: rest) = readStatements (some []) rest := by
    rw [readStatements, if_neg (by decide), if_neg (by decide), if_pos rfl]
  have hgap (rest : List (List Char)) :
      readStatements none ((if conf.pythonPath.isEmpty then [] else [[]]) ++ rest) =
        readStatements none rest := by
    split
    · rfl
    · exact hblank rest
  -- Splitting leaves an empty line at the end, since the last line of the file is ended too.
  have hlast : readStatements none [[]] = some [] := hblank []
  rw [statementsOf, text, String.toList_ofList, write_eq_unlines,
    splitOn_unlines (feed_not_mem_lines conf), lines]
  simp only [List.append_assoc, List.cons_append, List.nil_append]
  rw [hcomment, himport, hblank, readStatements_paths, hgap, hlist, readStatements_extensions, hlast]
  rfl

/-! ## What the statements do -/

/-- Directories that are put in front one by one end up in the opposite order. -/
theorem foldlM_insertPath (directories : List String) (st : ProgramState) (h : st.imported = true) :
    (directories.map Statement.insertPath).foldlM Statement.exec st =
      some { st with path := directories.reverse ++ st.path } := by
  induction directories generalizing st with
  | nil => rfl
  | cons directory directories ih =>
    -- The first directory is put in front first, so the others come to stand before it.
    have hone : Statement.exec st (.insertPath directory) =
        some { st with path := directory :: st.path } := if_pos h
    rw [List.map_cons, List.foldlM_cons, hone, Option.bind_eq_bind, Option.bind_some,
      ih { st with path := directory :: st.path } h, List.reverse_cons, List.append_assoc,
      List.singleton_append]

/-- **Running the configuration file.** A literal ends where its text does, whatever that text is and
whatever follows. So there is one statement for each directory and one entry for each extension, and
from any module path the file leaves the configured directories in front of it, in their order, and
the extension for directives, once and first, with the other configured ones behind it. -/
theorem execute_text (conf : Conf) (path : List String) :
    (∀ text rest, readLiteral (text.flatMap quoteChar ++ '\'' :: rest) = some (text, rest)) ∧
    statementsOf conf.text = some (.importSys :: conf.pythonPath.reverse.map .insertPath ++
      [.setExtensions (autodocExtension :: conf.extensions.filter (· ≠ autodocExtension))]) ∧
    execute conf.text path = some {
      imported := true
      path := conf.pythonPath ++ path
      extensions? := some (autodocExtension :: conf.extensions.filter (· ≠ autodocExtension)) } ∧
    (autodocExtension :: conf.extensions.filter (· ≠ autodocExtension)).count autodocExtension = 1 := by
  refine ⟨readLiteral_quote, statementsOf_text conf, ?_, ?_⟩
  · have himport : Statement.exec { path := path } .importSys = some { imported := true, path := path } :=
      rfl
    have hpaths := foldlM_insertPath conf.pythonPath.reverse { imported := true, path := path } rfl
    rw [execute, statementsOf_text, Option.bind_some, statements, List.cons_append, List.foldlM_cons,
      himport, Option.bind_eq_bind, Option.bind_some, List.foldlM_append, hpaths,
      List.reverse_reverse]
    rfl
  · rw [List.count_cons_self, List.count_eq_zero.mpr (by simp)]

/-- A directory whose name tries to end the literal and the statement is still one directory. -/
example : execute (Conf.text { pythonPath := ["')\nimport os\\"] }) ["p"] = some {
    imported := true
    path := ["')\nimport os\\", "p"]
    extensions? := some ["sphinx.ext.autodoc"] } := by
  decide +kernel

end Conf

end DocWeave.Sphinx

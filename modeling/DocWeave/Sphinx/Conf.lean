/-!
# The configuration file of Sphinx

Sphinx reads its configuration from a Python program. The one written here puts directories in front of
the module path and lists extensions.

- `quote`: a text as a literal in single quotes.
- `Conf`: what is configured; `Conf.write`: the text of the file.
-/

namespace DocWeave.Sphinx

/-- A character inside a literal in single quotes. -/
def quoteChar (c : Char) : List Char :=
  if c = '\\' then ['\\', '\\']
  else if c = '\'' then ['\\', '\'']
  else if c = '\n' then ['\\', 'n']
  else [c]

/-- A text as a literal in single quotes. -/
def quote (text : List Char) : List Char :=
  '\'' :: text.flatMap quoteChar ++ ['\'']

/-- The extension that understands `automodule`. -/
def autodocExtension : String := "sphinx.ext.autodoc"

/-- What is configured. -/
structure Conf where
  /-- Extensions besides the one for `automodule`. -/
  extensions : List String := []
  /-- Directories in which Python looks for modules first, in this order. -/
  pythonPath : List String := []
deriving Repr, DecidableEq

namespace Conf

/-- The extensions that are listed: the one for `automodule` first, and once. -/
def allExtensions (conf : Conf) : List String :=
  autodocExtension :: conf.extensions.filter (· ≠ autodocExtension)

/-- The line that puts a directory in front of the module path. -/
def writePath (path : String) : List Char :=
  "sys.path.insert(0, ".toList ++ quote path.toList ++ [')', '\n']

/-- The line of an extension. -/
def writeExtension (name : String) : List Char :=
  "    ".toList ++ quote name.toList ++ [',', '\n']

/-- The text of the file. The last directory is put in front first. -/
def write (conf : Conf) : List Char :=
  "# Generated by autodoc.\nimport sys\n\n".toList ++
    conf.pythonPath.reverse.flatMap writePath ++
    (if conf.pythonPath.isEmpty then [] else ['\n']) ++
    "extensions = [\n".toList ++ conf.allExtensions.flatMap writeExtension ++ "]\n".toList

/-- The text of the file. -/
def text (conf : Conf) : String :=
  String.ofList conf.write

end Conf

end DocWeave.Sphinx

import DocWeave.Page.Document

/-!
# The request file

Sphinx is given one source file that asks for all modules of a document. Equal requests are written
once.

- `RequestFile`: distinct requests, in the order in which they were first made.
- `RequestFile.offer`, `RequestFile.push`: adding a request unless it is there.
- `RequestFile.write`: the text of the file.
-/

namespace DocWeave.Sphinx

/-- Distinct requests. -/
structure RequestFile where
  /-- The requests in the order in which they were first made. -/
  requests : List Request := []
deriving Repr

namespace RequestFile

/-- Whether a request is in the file. -/
def contains (file : RequestFile) (r : Request) : Bool :=
  file.requests.any (· = r)

/-- Adds a request unless an equal one is there, and says whether it was added. -/
def offer (file : RequestFile) (r : Request) : RequestFile × Bool :=
  if file.contains r then (file, false) else (⟨file.requests ++ [r]⟩, true)

/-- The file after a request has been offered. -/
def push (file : RequestFile) (r : Request) : RequestFile :=
  (file.offer r).1

/-- The requests of the places of a document. -/
def ofDocument (d : Page.Document) : RequestFile :=
  (d.places.map (·.request)).foldl push {}

/-- The number of requests. -/
def size (file : RequestFile) : Nat :=
  file.requests.length

/-- The text of the file: the directives, with a blank line between them. -/
def write (file : RequestFile) : List Char :=
  ['\n', '\n'].intercalate (file.requests.map Request.write) ++ ['\n']

/-- The text of the file. -/
def text (file : RequestFile) : String :=
  String.ofList file.write

end RequestFile

end DocWeave.Sphinx

import DocWeave.Settings.Basic

/-!
# Where documents are written

- `targetOf`: the path of the written form of a source.
- `targetsOf`: the paths for all sources; no two sources may share one.
-/

namespace DocWeave.CommandLine

/-- The path of the written form of a source: its name without the extension, with that of the
format, in the output directory. -/
def targetOf (dir : Path) (format : Format) (source : Path) : Path :=
  dir.child (source.stem?.getD source.text ++ "." ++ format.name)

/-- Two sources that would be written to one path. -/
structure TargetConflict where
  target : Path
  first : Path
  second : Path
deriving Repr, DecidableEq

/-- The wording of a conflict. -/
def TargetConflict.message (c : TargetConflict) : String :=
  c.first.text ++ " and " ++ c.second.text ++ " would both be written to " ++ c.target.text

/-- The paths for sources, given those of earlier sources. Paths that differ only in spelling are
the same. -/
def targetsAfter (dir : Path) (format : Format) (earlier : List Path) :
    List Path → Except TargetConflict (List Path)
  | [] => .ok []
  | source :: rest =>
    let target := targetOf dir format source
    match earlier.find? fun other => (targetOf dir format other).key = target.key with
    | some first => .error ⟨target, first, source⟩
    | none => do
      let targets ← targetsAfter dir format (earlier ++ [source]) rest
      return target :: targets

/-- The paths for sources, in their order, or the first conflict. -/
def targetsOf (dir : Path) (format : Format) (sources : List Path) :
    Except TargetConflict (List Path) :=
  targetsAfter dir format [] sources

end DocWeave.CommandLine

import MetadataCatalog.Command.Run

/-!
# The program

The arguments are those of the command line. The working directory comes in on standard input: a
JSON object whose names are paths and whose values are the texts of the files. What the command
prints goes to standard output and the report of a fault to standard error.
-/

namespace MetadataCatalog

/-- The tree of the files that the entries of an object are. -/
def FileTree.ofEntries (entries : Json.Entries) : Files :=
  entries.foldl
    (fun tree (path, value) =>
      match value with
      | .text s =>
        let (tree, _) := tree.makeFolders (Path.parent path)
        (tree.write? path (.text s)).getD tree
      | _ => tree)
    .bare

/-- The tree of files that a text describes. -/
def FileTree.ofText (text : String) : Files :=
  match Json.read? text with
  | some (.object entries) => FileTree.ofEntries entries
  | _ => .bare

/-- All lines that a stream has left. -/
partial def readAll (input : IO.FS.Stream) (read : String) : IO String := do
  let line ← input.getLine
  if line.isEmpty then return read else readAll input (read ++ line)

end MetadataCatalog

open MetadataCatalog in
/-- Runs the command that the arguments are. -/
def main (arguments : List String) : IO UInt32 := do
  let input ← readAll (← IO.getStdin) ""
  let (ending, _) := runArguments (FileTree.ofText input) arguments
  match ending.printed? with
  | some printed => (← IO.getStdout).putStr printed
  | none => (← IO.getStderr).putStrLn "usage: chess-meta COMMAND"
  match ending with
  | .ran name _ (some fault) => (← IO.getStderr).putStrLn (Ending.report name fault)
  | _ => pure ()
  return ending.code.toUInt32

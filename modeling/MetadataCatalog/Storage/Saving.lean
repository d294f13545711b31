import MetadataCatalog.Schema.Document
import MetadataCatalog.Storage.Content

/-!
# Saving documents

A document is saved as its text. The folders on the way to the file are made first; they remain also
when the file cannot be written.
-/

namespace MetadataCatalog.FileTree

/-- The tree with the folders on the way to a file, or the path of the folder that cannot be
made. -/
def makeWay (tree : Files) (path : String) : Except Fault Unit × Files :=
  let folder := Path.parent path
  if folder = "" then (.ok (), tree)
  else
    let (tree, made) := tree.makeFolders folder
    (if made then .ok () else .error (.inaccessible folder), tree)

/-- Saves a document in the file that a path leads to: its text, and the tree afterwards. -/
def save (tree : Files) (path : String) (document : Json) : Except Fault String × Files :=
  let text := Schema.render document
  match tree.makeWay path with
  | (.error fault, tree) => (.error fault, tree)
  | (.ok (), tree) =>
    match tree.write? path (.text text) with
    | some tree => (.ok text, tree)
    | none => (.error (.inaccessible path), tree)

end MetadataCatalog.FileTree

import TlsTrust.Command.Run

/-! The program run in a tree of files that stands for the disk. -/

namespace TlsTrust

/-- Files and folders by their paths below a root, which is the folder that relative paths start
from. Nothing else is on the disk. -/
structure FileTree where
  root : String
  entries : List (String × FolderEntry)
deriving DecidableEq, Repr

namespace FileTree

def follow (path : String) : List String :=
  (LogFolder.pathParts path).foldl (fun names n =>
    if n == "." then names else if n == ".." then names.dropLast else names ++ [n]) []

def fromRoot? (t : FileTree) (path : String) : Option String :=
  match path.toList with
  | '/' :: _ | [] => none
  | cs =>
    match Text.stripStart? t.root.toList cs with
    | some rest => some ("/".intercalate (follow (String.ofList rest)))
    | none => some ("/".intercalate (follow path))

def folder (t : FileTree) (path : String) : LogFolder :=
  match t.fromRoot? path with
  | some path => .ofPaths t.entries path
  | none => .absent

def text (t : FileTree) (path : String) : Except DiskError String :=
  match t.folder path with
  | .absent => .error .notFound
  | .belowFile => .error .notADirectory
  | .present _ => .error .isADirectory
  | .isFile =>
    let names := (t.fromRoot? path).map LogFolder.pathParts
    match t.entries.find? fun e => some (LogFolder.pathParts e.1) == names with
    | some (_, .file bytes) =>
      match Text.ofUtf8? bytes with
      | some text => .ok text
      | none => .error .notText
    | _ => .error .notFound

def supply (t : FileTree) : Need → Supply
  | .nothing => .nothing
  | .textFile path => .textFile (t.text path)
  | .logFolder path => .logFolder (t.folder path)

def run (t : FileTree) (env : Environment) (args : List String) (now : Instant) : Progress :=
  match Command.ofArguments args with
  | .error refusal => .ended (Command.refusalOutcome refusal)
  | .ok c =>
    let env := ("HOME", t.root) :: env
    c.run env (t.supply (c.need env)) now

end FileTree

end TlsTrust

import TlsTrust.Audit.Record
import TlsTrust.Text.Utf8
import TlsTrust.Time.Reader

/-!
The folder of the log files: which names are those of log files, in which order the files are
listed, and the records that they hold.
-/

namespace TlsTrust

open Text

inductive DiskError where
  | alreadyExists
  | notFound
  | notADirectory
  | isADirectory
  | notText
  | full
deriving DecidableEq, Repr

def DiskError.message : DiskError → String
  | alreadyExists => "File exists (os error 17)"
  | notFound => "No such file or directory (os error 2)"
  | notADirectory => "Not a directory (os error 20)"
  | isADirectory => "Is a directory (os error 21)"
  | notText => "stream did not contain valid UTF-8"
  | full => "disk full"

inductive FolderEntry where
  | file (bytes : List UInt8)
  | folder
deriving DecidableEq, Repr

/-- The entries of a folder that is there are given by the paths that lead to them from it, those
below its own folders included. -/
inductive LogFolder where
  | absent
  | present (paths : Table FolderEntry)
  /-- A file stands at the path itself. -/
  | isFile
  /-- A file stands where the path needs a folder. -/
  | belowFile
deriving DecidableEq, Repr

namespace LogFile

def defaultBase : String := "security-audit"

def stampLength : Nat := 19

def name (base : String) (time : Instant) (n : Nat) : String :=
  if n = 0 then base ++ "-" ++ time.stamp ++ ".jsonl"
  else base ++ "-" ++ time.stamp ++ "-" ++ Nat.repr n ++ ".jsonl"

def stamp? (base name : String) : Option Instant := do
  let rest ← stripStart? (base ++ "-").toList name.toList
  Instant.ofStamp? (← takeBytes? stampLength rest)

def hasExtension (name : String) : Bool :=
  match splitLast? '.' name.toList with
  | some (before, after) => !before.isEmpty && after == "jsonl".toList
  | none => false

def isName (base name : String) : Bool :=
  !name.toList.contains '/' && hasExtension name && (stamp? base name).isSome

/-- The records on the lines of a file. A line that is no record is passed over, but a line that is
no text spoils the file. -/
def records? (bytes : List UInt8) : Option (List AuditRecord) := do
  let lines ← (byteLines bytes).mapM ofUtf8?
  return lines.filterMap AuditRecord.parse?

end LogFile

namespace LogFolder

def pathParts (path : String) : List String :=
  ((path.toList.splitOn '/').filter fun p => !p.isEmpty).map String.ofList

def showsFolder (parts : List String) (entry : String × FolderEntry) : Bool :=
  let names := pathParts entry.1
  parts.isPrefixOf names && (names != parts || entry.2 == .folder)

def entriesFrom (parts : List String) (entry : String × FolderEntry) :
    List (String × FolderEntry) :=
  let names := pathParts entry.1
  if parts.isPrefixOf names then
    let rest := names.drop parts.length
    (List.range rest.length).map fun n =>
      ("/".intercalate (rest.take (n + 1)), if n + 1 = rest.length then entry.2 else .folder)
  else []

def ofPaths (entries : List (String × FolderEntry)) (path : String) : LogFolder :=
  let parts := pathParts path
  let isFileAt (names : List String) : Bool :=
    entries.any fun e => pathParts e.1 == names && e.2 != .folder
  if parts.isEmpty || entries.any (showsFolder parts) then
    .present (.ofList (entries.flatMap (entriesFrom parts)))
  else if isFileAt parts then .isFile
  else if (List.range parts.length).any fun n => isFileAt (parts.take n) then .belowFile
  else .absent

def logFiles (f : LogFolder) (base : String) : Except DiskError (List String) :=
  match f with
  | absent | belowFile => .ok []
  | isFile => .error .notADirectory
  | present paths => .ok (paths.keys.filter (LogFile.isName base))

def paths : LogFolder → Table FolderEntry
  | present paths => paths
  | _ => .empty

def entries? (f : LogFolder) : Table FolderEntry :=
  f.paths.filter fun path _ => !path.toList.contains '/'

def read (f : LogFolder) (path : String) : Except DiskError (List UInt8) :=
  match f.paths.get? path with
  | some (.file bytes) => .ok bytes
  | some .folder => .error .isADirectory
  | none => .error .notFound

def put (f : LogFolder) (entry : String × FolderEntry) : LogFolder :=
  match entriesFrom [] entry with
  | [] => f
  | new => .present (new.foldl (fun paths e => paths.insert e.1 e.2) f.paths)

def create : LogFolder → Except DiskError LogFolder
  | absent => .ok (present .empty)
  | present paths => .ok (present paths)
  | isFile => .error .alreadyExists
  | belowFile => .error .notADirectory

def created (f : LogFolder) : LogFolder :=
  match f.create with
  | .ok f' => f'
  | .error _ => f

def checkPlace (paths : Table FolderEntry) (path : String) : Except DiskError Unit :=
  match splitLast? '/' path.toList with
  | none => .ok ()
  | some (parent, _) =>
    let names := parent.splitOn '/'
    let isFileAt (n : Nat) : Bool :=
      (paths.get? (String.ofList (['/'].intercalate (names.take n)))).any (· != .folder)
    if paths.get? (String.ofList parent) = some .folder then .ok ()
    else if (List.range (names.length + 1)).any isFileAt then .error .notADirectory
    else .error .notFound

def recordsOf (f : LogFolder) : List String → Except DiskError (List AuditRecord)
  | [] => .ok []
  | name :: names => do
    let bytes ← f.read name
    match LogFile.records? bytes with
    | none => .error .notText
    | some records => return records ++ (← recordsOf f names)

def readRecords (f : LogFolder) : Except DiskError (List AuditRecord) := do
  f.recordsOf (← f.logFiles LogFile.defaultBase)

end LogFolder

end TlsTrust

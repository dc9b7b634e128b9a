import Std.Time.DateTime
import TlsTrust.Command.Run

/-! The program on a real disk, which makes no connections of its own. -/

namespace TlsTrust.Terminal

def variableNames : List String :=
  ["HOME", "XDG_DATA_HOME", EngineConfig.logFolderVariable]

def environment : IO Environment :=
  variableNames.filterMapM fun name => do
    return (← IO.getEnv name).map fun value => (name, value)

def clock : IO Instant := do
  let t ← Std.Time.Timestamp.now
  return .ofNanos 0 t.toNanosecondsSinceUnixEpoch.val

def diskError : IO.Error → DiskError
  | .noFileOrDirectory .. => .notFound
  | .inappropriateType .. => .isADirectory
  | _ => .notADirectory

def readText (path : String) : IO (Except DiskError String) := do
  try
    let bytes ← IO.FS.readBinFile path
    return ((Text.ofUtf8? bytes.toList).map .ok).getD (.error .notText)
  catch e => return .error (diskError e)

def readEntry (e : IO.FS.DirEntry) : IO (String × FolderEntry) := do
  match (← e.path.metadata).type with
  | .dir => return (e.fileName, .folder)
  | _ =>
    if LogFile.isName LogFile.defaultBase e.fileName then
      return (e.fileName, .file (← IO.FS.readBinFile e.path).toList)
    else return (e.fileName, .file [])

def readExisting (entries : IO (Array IO.FS.DirEntry)) : IO LogFolder := do
  try
    return .present (.ofList (← (← entries).toList.mapM readEntry))
  catch _ => return .isFile

def readFolder (path : String) : IO LogFolder := do
  try
    let existing ← IO.FS.realPath path
    readExisting existing.readDir
  catch _ => return .absent

def supply : Need → IO Supply
  | .nothing => return .nothing
  | .textFile path => return .textFile (← readText path)
  | .logFolder path => return .logFolder (← readFolder path)

def present (o : Outcome) : IO UInt32 := do
  IO.print o.output
  IO.eprint o.errors
  return UInt32.ofNat o.exitCode

def run (c : Command) : IO UInt32 := do
  let env ← environment
  match c.run env (← supply (c.need env)) (← clock) with
  | .ended o => present o
  | .connects u => present (.failure s!"no connection to {u.text} can be made")

end TlsTrust.Terminal

def main (args : List String) : IO UInt32 :=
  match TlsTrust.Command.ofArguments args with
  | .ok c => TlsTrust.Terminal.run c
  | .error refusal => TlsTrust.Terminal.present (TlsTrust.Command.refusalOutcome refusal)

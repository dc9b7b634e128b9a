import TlsTrust.Audit.LogFolder

/-!
A log on disk that starts a new file when the current one grows too large or too old, and deletes
files that are past their retention.
-/

namespace TlsTrust

open Text

structure LogConfig where
  base : String := LogFile.defaultBase
  maxFileSize : Nat := 10 * 1024 * 1024
  maxFileAge : Duration := Duration.day
  retention : Duration := Duration.ofSeconds (30 * 86400)
deriving Repr

structure OpenLog where
  path : String
  openedAt : Instant
  written : Nat
deriving DecidableEq, Repr

def OpenLog.name (o : OpenLog) : String :=
  match splitLast? '/' o.path.toList with
  | some (_, name) => String.ofList name
  | none => o.path

structure LogWriter where
  config : LogConfig := {}
  folder : LogFolder := .absent
  now : Instant
  current : Option OpenLog := none
deriving Repr

namespace LogWriter

def needsRotation (w : LogWriter) (o : OpenLog) (incoming : Nat) : Bool :=
  (0 < o.written && w.config.maxFileSize < o.written + incoming)
    || w.config.maxFileAge ≤ w.now.since o.openedAt

def freeName (w : LogWriter) (paths : Table FolderEntry) : String :=
  let candidate := LogFile.name w.config.base w.now
  (((List.range (paths.size + 1)).map candidate).find? fun n => !paths.contains n).getD
    (candidate (paths.size + 1))

def openNew (w : LogWriter) : Except DiskError LogWriter := do
  let folder ← w.folder.create
  LogFolder.checkPlace folder.paths w.config.base
  let name := w.freeName folder.paths
  return { w with
    folder := .present (folder.paths.insert name (.file []))
    current := some ⟨name, w.now, 0⟩ }

def append (w : LogWriter) (o : OpenLog) (bytes : List UInt8) : LogWriter :=
  let before := match w.folder.paths.get? o.path with
    | some (.file old) => old
    | _ => []
  { w with
    folder := .present (w.folder.paths.insert o.path (.file (before ++ bytes)))
    current := some { o with written := o.written + bytes.length } }

def isOutdated (w : LogWriter) (name : String) : Bool :=
  match LogFile.stamp? w.config.base name with
  | some t => w.config.retention < w.now.since t
  | none => false

def isExpired (w : LogWriter) (name : String) (entry : FolderEntry) : Bool :=
  LogFile.isName w.config.base name && !(w.current.any fun o => o.path == name)
    && w.isOutdated name && entry != .folder

def cleanup (w : LogWriter) : Except DiskError (Nat × LogWriter) :=
  match w.folder with
  | .absent | .belowFile => .ok (0, w)
  | .isFile => .error .notADirectory
  | .present paths =>
    let kept := paths.filter fun n e => !w.isExpired n e
    .ok (paths.size - kept.size, { w with folder := .present kept })

def cleaned (w : LogWriter) : LogWriter :=
  match w.cleanup with
  | .ok (_, w') => w'
  | .error _ => w

def rotates (w : LogWriter) (incoming : Nat) : Bool :=
  match w.current with
  | some o => w.needsRotation o incoming
  | none => true

def moved (w : LogWriter) (t : Instant) : LogWriter :=
  { w with now := t }

/-- Writes one line. The clock may have moved on when the call ends with a cleanup. After a failure
to start a file none is open. -/
def log (w : LogWriter) (line : String) (later : Instant := w.now) :
    Option DiskError × LogWriter :=
  let bytes := utf8 line ++ [10]
  if w.rotates bytes.length then
    match ({ w with current := none } : LogWriter).openNew with
    | .error e => (some e, { w with folder := w.folder.created, current := none, now := later })
    | .ok w' =>
      match w'.current with
      | some o => (none, ((w'.append o bytes).moved later).cleaned)
      | none => (none, w'.moved later)
  else
    match w.current with
    | some o => (none, (w.append o bytes).moved later)
    | none => (none, w.moved later)

end LogWriter

end TlsTrust

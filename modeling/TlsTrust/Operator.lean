import TlsTrust.Action
import TlsTrust.Failure
import TlsTrust.Strategy
import TlsTrust.Text.Blank

namespace TlsTrust

open Text

inductive ReadOutcome where
  | line (text : String)
  | timedOut
  | closed
  | failed (reason : String)
deriving DecidableEq, Repr

inductive PromptError where
  | timedOut (after : Duration)
  | unavailable
  | input (reason : String)
deriving DecidableEq, Repr

def PromptError.message : PromptError → String
  | timedOut after => s!"No answer within {after.text}"
  | unavailable => "Prompting is unavailable"
  | input reason => s!"Failed to read answer: {reason}"

inductive PreparedReply where
  | chosen (a : Action)
  | timedOut
  | unavailable
  | unreadable (reason : String)
deriving DecidableEq, Repr

def PreparedReply.result (timeout : Duration) : PreparedReply → Except PromptError Action
  | chosen a => .ok a
  | timedOut => .error (.timedOut timeout)
  | unavailable => .error .unavailable
  | unreadable reason => .error (.input reason)

/-- An answer that is given beforehand. Before answering, the operator may replace the strategy or
have the decisions forgotten. -/
structure PreparedAnswer where
  swap : Option Strategy := none
  forget : Bool := false
  reply : PreparedReply

inductive Prompter where
  | nobody
  | terminal
  | prepared (available : Bool) (answers : List PreparedAnswer)

namespace Prompter

def question (e : ClassifiedFailure) (seconds : Nat) : String :=
  let actions := e.suggestedActions.map fun a => s!"  - {a}\n"
  s!"\nCertificate problem connecting to {e.host}\n  {e.summary}\n" ++ String.join actions
    ++ s!"Accept this certificate for this connection? [y/N] ({seconds}s): "

def isYes (line : String) : Bool :=
  let answer := lower (trim line)
  answer == "y" || answer == "yes"

def answerOf (timeout : Duration) : ReadOutcome → Except PromptError Action
  | .line text => .ok (if isYes text then .accept else .deny)
  | .timedOut => .error (.timedOut timeout)
  | .closed => .error .unavailable
  | .failed reason => .error (.input reason)

end Prompter

end TlsTrust

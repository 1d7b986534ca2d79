import Planbox.CommandLine.Outcome
import Planbox.CommandLine.Presentation
import Planbox.Text.Bytes

/-!
# Sessions as dialogues

In a dialogue every line is a request, apart from a few words that start with a colon. A request
that fails is told about and the dialogue goes on; it ends with a word, with the last line, or with
a line that is not text. Lines are read one after the other, so what comes behind a bad line is
never looked at.
-/

namespace Planbox

namespace Dialogue

/-- What a line of a dialogue asks for. -/
inductive Line where
  | blank
  | quit
  | history
  | revert
  | request (text : String)
deriving DecidableEq, Inhabited, Repr

/-- Reads a line. Blanks around it do not matter. -/
def Line.ofText (text : String) : Line :=
  let text := Text.trim text
  if text = "" then .blank
  else if text = ":quit" || text = ":q" then .quit
  else if text = ":history" then .history
  else if text = ":revert" then .revert
  else .request text

/-- Stands in front of every line. -/
def prompt : String := "planrun> "

def turnText (t : Turn) : String := "[" ++ t.role.name ++ "] " ++ t.text ++ "\n"

/-- Answers a line of a session. -/
def respond {σ : Type} (g : Generator σ) (c : Context) (s : Session σ) :
    Line → Outcome × Session σ
  | .blank => (.printed "", s)
  | .quit => (.printed "", s)
  | .history => (.printed (String.join (s.bench.conversation.turns.map turnText)), s)
  | .revert =>
    match s.revertLast c with
    | (.error failure, s) => (.told failure, s)
    | (.ok done, s) => (.printed (done.message ++ "\n"), s)
  | .request text =>
    match s.handle g c text with
    | (.error failure, s) => (.told failure, s)
    | (.ok handled, s) => (⟨.succeeded, handled.text, "", handled.plans⟩, s)

/-- Answers lines until one of them ends the dialogue. -/
def converse {σ : Type} (g : Generator σ) (c : Context) :
    List (List UInt8) → Session σ → Outcome × Session σ
  | [], s => (.printed prompt, s)
  | bytes :: rest, s =>
    match String.fromUTF8? (Text.ofByteList bytes) with
    | none => ((Outcome.printed prompt).followedBy (.refused (.input "read request" .notUtf8)), s)
    | some text =>
      let line := Line.ofText text
      if line = .quit then (.printed prompt, s)
      else
        let (answer, s) := respond g c s line
        let (later, s) := converse g c rest s
        (((Outcome.printed prompt).followedBy answer).followedBy later, s)

end Dialogue

end Planbox

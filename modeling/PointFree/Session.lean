import PointFree.Function.Call
import PointFree.Machine
import PointFree.Program.Assembly
import PointFree.Program.Listing
import PointFree.Surface.Reading
import PointFree.Tree.Document

/-!
Contract: conversations with the evaluator.

A session reads one line after another. Every line is a program of its own,
which is given the bindings that the lines before it left and leaves its own.
A line that fails leaves the bindings as they were. Lines that begin with a
colon are about the session itself.
-/

namespace PointFree

/-- The value of a source text, compiled against a new standard vocabulary. -/
def evaluate (source : String) : Run Value := do
  let block ← Block.parse source
  let vocabulary ← Vocabulary.standard
  let program ← block.compile vocabulary []
  let machine ← Machine.load program defaultCallLimit
  let ended ← machine.run #[]
  return ended.1

/-- The names of a program's top level that are set in its frame. -/
def Store.bindings (store : Store) (globals : List (String × Nat)) (frame : Nat) :
    List (String × Value) :=
  globals.filterMap fun entry => (store.value? frame entry.2).map (entry.1, ·)

structure Session where
  vocabulary : Vocabulary
  bindings : List (String × Value)
  /-- Whether trees and listings are shown. -/
  showsCode : Bool

namespace Session

def start (vocabulary : Vocabulary) : Session :=
  ⟨vocabulary, [], false⟩

def greeting : String :=
  "Tacit array language\n"
    ++ "Enter expressions like: +´ ↕10\n"
    ++ "Type :help for more commands, or Ctrl+C to exit.\n\n"

def farewell : String :=
  "Goodbye!\n"

def help (vocabulary : Vocabulary) : String :=
  "Commands:\n"
    ++ "  :help  - Show this help message\n"
    ++ "  :env   - Show the names defined so far\n"
    ++ "  :code  - Toggle printing the AST (JSON) and bytecode of each line\n"
    ++ "  :quit  - Exit the interpreter\n"
    ++ "  :exit  - Exit the interpreter\n"
    ++ "\n"
    ++ "Syntax:\n"
    ++ "  1‿2‿3, ⟨1, 'a', \"text\"⟩     lists\n"
    ++ "  a ← 1    define, once per name\n"
    ++ "  a ↩ 2    assign, a +↩ 1 modify\n"
    ++ "  \x7b𝕩 + 𝕨\x7d  function block; 𝕊 is the block itself\n"
    ++ "  \x7b𝕩 > 0 ? 0 ⋄ 𝕩\x7d  guard: zero returns the fallback\n"
    ++ "  Name     capitalised names are functions, lowercase names data\n"
    ++ "\n"
    ++ "Primitives: " ++ String.join (vocabulary.entries.toList.map Prod.fst) ++ "\n"
    ++ "Modifiers:  ˙ ˜ ¨ ⌜ ˘ ´ \x60 ⁼   ∘ ○ ⌾ ⎉ ⊸ ⟜\n"
    ++ "\n"

def bindingLine (binding : String × Value) : Run String := do
  let text ← binding.2.text
  return "  " ++ binding.1 ++ " = " ++ text ++ "\n"

def environment (session : Session) : Run String :=
  if session.bindings.isEmpty then return "No names defined.\n"
  else do
    let lines ← session.bindings.mapM bindingLine
    return "Defined names (" ++ toString session.bindings.length ++ " total):\n"
      ++ String.join lines

/-- What a line led to: the text to show, and the session after it. -/
structure Reply where
  text : String
  session : Session
  ended : Bool

def reply (session : Session) (text : String) : Reply :=
  ⟨text, session, false⟩

/-- Runs a compiled line and keeps the bindings it leaves. -/
def runProgram (session : Session) (program : Program) : Run (Value × Session) := do
  let machine ← Machine.load program defaultCallLimit
  let ended ← machine.run (session.bindings.map Prod.snd).toArray
  let store ← get
  return (ended.1, { session with bindings := Store.bindings store program.globals ended.2 })

/-- Evaluates a line that is not about the session. What was shown before a
failure stays. -/
def evaluateLine (session : Session) (line : String) : Run Reply := do
  let failed (shown : String) (failure : Failure) : Reply :=
    session.reply (shown ++ failure.render line ++ "\n")
  match Block.parse line with
  | .error failure => return failed "" failure
  | .ok block =>
      let tree := if session.showsCode then block.documentText ++ "\n" else ""
      match block.compile session.vocabulary (session.bindings.map Prod.fst) with
      | .error failure => return failed tree failure
      | .ok program =>
          let listing ← if session.showsCode then program.listing else pure ""
          match ← Action.attempt (session.runProgram program) with
          | .error failure => return failed (tree ++ listing) failure
          | .ok (value, next) =>
              let text ← value.text
              return next.reply (tree ++ listing ++ text ++ "\n")

/-- The reply to one line. -/
def answer (session : Session) (input : String) : Run Reply := do
  let line := Text.trim input
  if line = "" then return session.reply ""
  else if line = ":help" then return session.reply (help session.vocabulary)
  else if line = ":env" then
    let text ← session.environment
    return session.reply text
  else if line = ":code" then
    let toggled := { session with showsCode := !session.showsCode }
    let state := if toggled.showsCode then "on" else "off"
    return toggled.reply ("Showing AST and bytecode: " ++ state ++ "\n")
  else if line = ":quit" ∨ line = ":exit" then return ⟨farewell, session, true⟩
  else session.evaluateLine line

/-- Takes one line. -/
def respond (session : Session) (input : String) : StateM Store Reply := fun store =>
  match (session.answer input).perform store with
  | (.ok reply, after) => (reply, after)
  | (.error failure, after) => (session.reply (failure.text ++ "\n"), after)

/-- The texts that answer lines, up to the one that ends the session or the
farewell. -/
def converse (session : Session) : List String → StateM Store (List String)
  | [] => return [farewell]
  | line :: lines => do
      let answer ← session.respond line
      if answer.ended then return [answer.text]
      else
        let rest ← converse answer.session lines
        return answer.text :: rest

end Session

end PointFree

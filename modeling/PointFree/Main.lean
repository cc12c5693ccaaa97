import PointFree.Session

/-!
Contract: the evaluator at a terminal.

Reads lines from standard input and prints what the session answers.
-/

namespace PointFree

def prompt : String := "tacit> "

partial def interact (input output : IO.FS.Stream) (session : Session) (store : Store) :
    IO Unit := do
  output.putStr prompt
  output.flush
  let line ← input.getLine
  if line.isEmpty then output.putStr Session.farewell
  else
    let (answer, after) := session.respond line store
    output.putStr answer.text
    if answer.ended then return ()
    interact input output answer.session after

end PointFree

def main : IO Unit := do
  let input ← IO.getStdin
  let output ← IO.getStdout
  output.putStr PointFree.Session.greeting
  let (vocabulary, store) := PointFree.Vocabulary.standard PointFree.Store.empty
  PointFree.interact input output (PointFree.Session.start vocabulary) store

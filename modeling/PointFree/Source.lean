/-!
Contract: places in a source text.

A span counts bytes of the text's UTF-8 form; lines and columns count from one,
and a column counts characters.
-/

namespace PointFree

/-- The bytes from `start` up to `stop`. -/
structure Span where
  start : Nat
  stop : Nat
deriving DecidableEq, Repr

def Span.shift (offset : Nat) (span : Span) : Span :=
  ⟨span.start + offset, span.stop + offset⟩

/-- Number of bytes the characters take. -/
def byteLength (letters : List Char) : Nat :=
  letters.foldl (fun total letter => total + letter.utf8Size) 0

/-- Line and column reached after passing the characters that begin before
`target`, starting from the given byte, line and column. -/
def lineColumnFrom (target byte line column : Nat) : List Char → Nat × Nat
  | [] => (line, column)
  | letter :: rest =>
      if target ≤ byte then (line, column)
      else if letter = '\n' then lineColumnFrom target (byte + letter.utf8Size) (line + 1) 1 rest
      else lineColumnFrom target (byte + letter.utf8Size) line (column + 1) rest

def Span.lineColumn (span : Span) (source : String) : Nat × Nat :=
  lineColumnFrom span.start 0 1 1 source.toList

/-- Removes a carriage return from the end. -/
def dropReturn (line : List Char) : List Char :=
  if line.getLast? = some '\r' then line.dropLast else line

/-- The characters of the line at `index`, counted from zero, without its line
break. Past the last line there is nothing. -/
def lineAt (index : Nat) (letters : List Char) : List Char :=
  match index, letters.dropWhile (· ≠ '\n') with
  | 0, [] => letters.takeWhile (· ≠ '\n')
  | 0, _ :: _ => dropReturn (letters.takeWhile (· ≠ '\n'))
  | _ + 1, [] => []
  | index + 1, _ :: rest => lineAt index rest

/-- A report with its place: line and column, the source line, and a caret under
the column. -/
def Span.quote (span : Span) (source report : String) : String :=
  let place := span.lineColumn source
  let line := String.ofList (lineAt (place.1 - 1) source.toList)
  let indent := String.ofList (List.replicate (place.2 - 1) ' ')
  s!"{place.1}:{place.2}: {report}\n  | {line}\n  | {indent}^"

end PointFree

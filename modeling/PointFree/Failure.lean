import PointFree.Fault
import PointFree.Source

/-!
Contract: a fault together with the statement it arose in.

A span once attached stays: `Failure.within` adds one only where none is known,
so that a failure that passes through several statements keeps the innermost.
-/

namespace PointFree

structure Failure where
  fault : Fault
  span : Option Span

def Failure.ofFault (fault : Fault) : Failure :=
  ⟨fault, none⟩

def Failure.kind (failure : Failure) : FaultKind :=
  failure.fault.kind

def Failure.message (failure : Failure) : String :=
  failure.fault.message

def Failure.within (span : Option Span) (failure : Failure) : Failure :=
  match failure.span with
  | some _ => failure
  | none => { failure with span := span }

abbrev Outcome := Except Failure

def refuse {α : Type} (fault : Fault) : Outcome α :=
  .error (Failure.ofFault fault)

def refuseAt {α : Type} (span : Span) (fault : Fault) : Outcome α :=
  .error ⟨fault, some span⟩

/-- An outcome whose failure is known to arise within `span`. -/
def Outcome.within {α : Type} (span : Option Span) : Outcome α → Outcome α
  | .ok value => .ok value
  | .error failure => .error (failure.within span)

/-- The kind and the message, as in `Index error: first of an empty array`. -/
def FaultKind.report (kind : FaultKind) (message : String) : String :=
  kind.label ++ " error: " ++ message

def Failure.text (failure : Failure) : String :=
  failure.kind.report failure.message

/-- The report with its place in the source, where that is known. -/
def Failure.render (failure : Failure) (source : String) : String :=
  match failure.span with
  | none => failure.text
  | some span => span.quote source failure.text

end PointFree

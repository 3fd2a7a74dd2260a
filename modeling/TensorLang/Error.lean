import TensorLang.Source
import TensorLang.Text.Ink

/-!
# Errors

Every stage stops at its first error.  An error has a cause and, where one construct is to blame,
its location.  A failure is either such an error or a fault: a request that breaks the promise
under which an operation is defined, such as looking up an entry that was never made.
-/

namespace TensorLang

/-- What went wrong. -/
inductive Cause where
  /-- The text is not a program. -/
  | malformed (message : String)
  /-- A name that nothing declares. -/
  | undeclared (name : String)
  /-- A name that is declared twice. -/
  | redefinition (name : String)
  /-- A call with the wrong number of arguments. -/
  | argumentCount (callee : String) (expected actual : Nat)
  /-- A tensor literal without a proper shape. -/
  | literalShape (reason : String)
  /-- Operands whose shapes do not fit the operation. -/
  | shapeMismatch (operation reason : String)
  /-- An operation whose shape stays unknown. -/
  | unresolvedShape (operation : String)
  /-- A chain of calls that leads back to its start. -/
  | recursion (cycle : List String)
  /-- A module that breaks a rule which earlier stages should have kept. -/
  | brokenInvariant (message : String)
  /-- An operation that cannot go away because its results are used. -/
  | stillUsed (operation : String) (uses : Nat)
  /-- Lowered code that went wrong while running. -/
  | execution (message : String)
  deriving DecidableEq

/-- The message of a cause. -/
def Cause.message : Cause → String
  | .malformed message => message
  | .undeclared name => s!"use of undeclared symbol {quoteName name}"
  | .redefinition name => s!"{quoteName name} is already defined"
  | .argumentCount callee expected actual =>
      s!"expected {expected} argument(s) to {quoteName callee} but found {actual}"
  | .literalShape reason => s!"invalid tensor literal: {reason}"
  | .shapeMismatch operation reason => s!"shape mismatch in {quoteName operation}: {reason}"
  | .unresolvedShape operation => s!"unable to infer the shape of {quoteName operation} operation"
  | .recursion cycle =>
      "recursive calls cannot be inlined: " ++ " -> ".intercalate (cycle.map quoteName)
  | .brokenInvariant message => s!"internal invariant violated: {message}"
  | .stillUsed operation uses =>
      s!"cannot erase {quoteName operation} operation while its results have " ++
        s!"{uses} remaining use(s)"
  | .execution message => s!"execution failed: {message}"

/-- A cause with the location of the construct to blame, if there is one. -/
structure Error where
  /-- What went wrong. -/
  cause : Cause
  /-- Where it went wrong. -/
  location : Option Location
  deriving DecidableEq

/-- The message of an error, followed by its location. -/
def Error.message (error : Error) : String :=
  match error.location with
  | some location => s!"{error.cause.message} (at {location.text})"
  | none => error.cause.message

/-- Why a text is refused. -/
structure Rejection where
  /-- Where the text stops making sense; nowhere if it only ends too early. -/
  position : Option Nat
  /-- What was expected or found there. -/
  message : String
  deriving DecidableEq

/-- Why an operation gives no result. -/
inductive Failure where
  /-- An error that is reported to the user. -/
  | error (error : Error)
  /-- A broken promise of the caller. -/
  | fault
  deriving DecidableEq

/-- The result of an operation that may fail. -/
abbrev Outcome (α : Type) : Type := Except Failure α

namespace Outcome

/-- Fails with an error at a known location. -/
def failAt {α : Type} (location : Location) (cause : Cause) : Outcome α :=
  .error (.error ⟨cause, some location⟩)

/-- Fails with an error that has no location. -/
def fail {α : Type} (cause : Cause) : Outcome α :=
  .error (.error ⟨cause, none⟩)

/-- The promised value; a fault when it is missing. -/
def promised {α : Type} : Option α → Outcome α
  | some value => .ok value
  | none => .error .fault

@[simp]
theorem promised_eq_ok_iff {α : Type} {value? : Option α} {value : α} :
    promised value? = .ok value ↔ value? = some value := by
  cases value? <;> simp [promised]

end Outcome

namespace Source

/-- The location of a span's start. -/
def locate (source : Source) (span : Span) : Outcome Location :=
  .promised (source.location? span.start)

/-- The answer for this source text: a refused text gives an error at the refused place. -/
def accept {α : Type} (source : Source) (answer : Except Rejection α) : Outcome α :=
  match answer with
  | .ok value => .ok value
  | .error rejection => do
      let location ← Outcome.promised
        (source.location? (rejection.position.getD source.length))
      Outcome.failAt location (.malformed rejection.message)

/-- The excerpt under a diagnostic: the line with its number, and a caret below the column.  There
is none when the text has no such line. -/
def excerpt (source : Source) (ink : Ink) (location : Location) : String :=
  match source.line? location.line.toNat with
  | none => ""
  | some line =>
      let gutter := toString location.line.toNat
      let margin := String.ofList (List.replicate gutter.length ' ')
      let padding := String.ofList (List.replicate (location.column.toNat - 1) ' ')
      let bar := ink.paint .blue "|"
      let caret := ink.paint .red "^"
      s!"{margin} {bar}\n{ink.paint .blue gutter} {bar} {line}\n{margin} {bar} {padding}{caret}\n"

end Source

/-- The diagnostic for an error in a source text. -/
def Error.diagnostic (error : Error) (source : Source) (ink : Ink) : String :=
  let heading := ink.paint .red "error"
  match error.location with
  | none => s!"{heading}: {error.cause.message}\n"
  | some location =>
      let place := ink.paint .white s!"(at {location.text})"
      s!"{heading}: {error.cause.message} {place}\n" ++ source.excerpt ink location

end TensorLang

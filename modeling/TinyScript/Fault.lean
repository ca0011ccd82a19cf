import TinyScript.Source.Position

/-!
# Faults

A fault is a cause and, once known, the place in the program where it arose. Causes say what
went wrong; the wording of messages is one function of the cause. Whether more text could still
complete a program is part of the cause, too.
-/

namespace TinyScript

/-- The kinds of fault a message begins with. -/
inductive FaultKind where
  | syntaxError
  | referenceError
  | typeError
  | rangeError
  | hostError
deriving DecidableEq, Inhabited, Repr

/-- How a kind is written. -/
def FaultKind.name : FaultKind → String
  | syntaxError => "SyntaxError"
  | referenceError => "ReferenceError"
  | typeError => "TypeError"
  | rangeError => "RangeError"
  | hostError => "Error"

/-- The types of values that a program can tell apart. -/
inductive ValueType where
  | number
  | string
  | boolean
  | array
  | function
  | classType
  | instanceType
  | unknown
deriving DecidableEq, Inhabited, Repr

/-- How a type is written. -/
def ValueType.name : ValueType → String
  | number => "number"
  | string => "string"
  | boolean => "boolean"
  | array => "array"
  | function => "function"
  | classType => "class"
  | instanceType => "instance"
  | unknown => "unknown"

/-- What an operation wants one of its arguments to be. -/
inductive Wanted where
  | number
  | string
  | array
  | function
  | instanceOfClass
  | arrayOrString
  | numberIndex
deriving DecidableEq, Inhabited, Repr

/-- How a want is written. -/
def Wanted.name : Wanted → String
  | number => "a number"
  | string => "a string"
  | array => "an array"
  | function => "a function"
  | instanceOfClass => "an instance"
  | arrayOrString => "an array or a string"
  | numberIndex => "a number index"

/-- What can go wrong while reading or running a program. -/
inductive Cause where
  | invalidNumber (literal : Text)
  | unexpectedEnd
  | unterminatedString
  | unexpectedSyntax (preview : Text)
  | expectedSeparator (atEnd : Bool)
  | trailingText
  | wrongFormCount (form : Text)
  | wrongBinding (form : Text)
  | missingBody
  | parameterNotWord
  | classTooShort
  | classNameNotWord
  | memberNotMethod
  | constructorNotFunction (got : ValueType)
  | methodNameNotString (got : ValueType)
  | methodNotFunction (method : Text) (got : ValueType)
  | undefinedName (name : Text)
  | unknownFunction (name : Text)
  | unknownMethod (className method : Text)
  | notApplicable
  | wrongArgumentCount (expected got : Nat)
  | tooFewArguments (function : Text) (least got : Nat)
  | tooManyArguments (function : Text) (most got : Nat)
  | wrongType (operation : Text) (wanted : Wanted) (got : ValueType)
  | incomparable (operation : Text) (left right : ValueType)
  | stepBudget (limit : Nat)
  | nestingDepth (limit : Nat)
  | indexNotInteger (operation index : Text)
  | indexOutOfBounds (index : Int) (length : Nat)
  | negativeCount (count : Int)
  | resultTooLong (most : Nat)
  | host (message : Text)
  | outOfRange
deriving DecidableEq, Inhabited

namespace Cause

/-- The kind of fault a cause leads to. -/
def kind : Cause → FaultKind
  | invalidNumber _ | unexpectedEnd | unterminatedString | unexpectedSyntax _
  | expectedSeparator _ | trailingText | wrongFormCount _ | wrongBinding _ | missingBody
  | parameterNotWord | classTooShort | classNameNotWord | memberNotMethod => .syntaxError
  | undefinedName _ | unknownFunction _ | unknownMethod _ _ => .referenceError
  | constructorNotFunction _ | methodNameNotString _ | methodNotFunction _ _ | notApplicable
  | wrongArgumentCount _ _ | tooFewArguments _ _ _ | tooManyArguments _ _ _ | wrongType _ _ _
  | incomparable _ _ _ => .typeError
  | stepBudget _ | nestingDepth _ | indexNotInteger _ _ | indexOutOfBounds _ _ | negativeCount _
  | resultTooLong _ | outOfRange => .rangeError
  | host _ => .hostError

/-- The wording of a cause. -/
def message : Cause → Text
  | invalidNumber literal => "invalid number " ++ literal
  | unexpectedEnd => "unexpected end of input"
  | unterminatedString => "unterminated string"
  | unexpectedSyntax preview => "unexpected syntax: \"" ++ preview ++ "...\""
  | expectedSeparator _ => "expected ',' or ')'"
  | trailingText => "unexpected text after program"
  | wrongFormCount form => "wrong number of args to " ++ form
  | wrongBinding form => "incorrect use of " ++ form
  | missingBody => "functions need a body"
  | parameterNotWord => "parameter names must be words"
  | classTooShort => "class needs a name and a constructor"
  | classNameNotWord => "class name must be a word"
  | memberNotMethod => "class members must be method(name, function)"
  | constructorNotFunction got =>
    "class constructor must be a function, got " ++ Text.ofString got.name
  | methodNameNotString got => "method name must be a string, got " ++ Text.ofString got.name
  | methodNotFunction method got =>
    "method " ++ method ++ " must be a function, got " ++ Text.ofString got.name
  | undefinedName name => "undefined binding: " ++ name
  | unknownFunction name => "function not found: " ++ name
  | unknownMethod className method => "class " ++ className ++ " has no method " ++ method
  | notApplicable => "applying a non-function"
  | wrongArgumentCount expected got =>
    "wrong number of arguments: expected " ++ Text.ofNat expected ++ ", got " ++ Text.ofNat got
  | tooFewArguments function least got =>
    "function " ++ function ++ " expects at least " ++ Text.ofNat least ++ " parameters, got "
      ++ Text.ofNat got
  | tooManyArguments function most got =>
    "function " ++ function ++ " expects at most " ++ Text.ofNat most ++ " parameters, got "
      ++ Text.ofNat got
  | wrongType operation wanted got =>
    operation ++ " expects " ++ Text.ofString wanted.name ++ ", got " ++ Text.ofString got.name
  | incomparable operation left right =>
    operation ++ " cannot compare " ++ Text.ofString left.name ++ " with "
      ++ Text.ofString right.name
  | stepBudget limit => "step budget of " ++ Text.ofNat limit ++ " exceeded"
  | nestingDepth limit => "maximum nesting depth of " ++ Text.ofNat limit ++ " exceeded"
  | indexNotInteger operation index => operation ++ ": index " ++ index ++ " is not an integer"
  | indexOutOfBounds index length =>
    "array index " ++ Text.ofInt index ++ " out of bounds (length " ++ Text.ofNat length ++ ")"
  | negativeCount count => "repeat: invalid count " ++ Text.ofInt count
  | resultTooLong most => "repeat: result longer than " ++ Text.ofNat most ++ " bytes"
  | host message => message
  | outOfRange => "access out of range"

/-- Whether reading failed only because the text ended. -/
def isIncomplete : Cause → Bool
  | unexpectedEnd | unterminatedString | expectedSeparator true => true
  | _ => false

end Cause

/-- A cause and, once known, the place where it arose. -/
structure Fault where
  cause : Cause
  place : Option Position
deriving DecidableEq, Inhabited

namespace Fault

/-- A fault at a place. -/
def placed (cause : Cause) (p : Position) : Fault := ⟨cause, some p⟩

/-- A fault whose place is not known yet. -/
def unplaced (cause : Cause) : Fault := ⟨cause, none⟩

/-- The report of a fault: kind, message and place. -/
def report (f : Fault) : Text :=
  Text.ofString f.cause.kind.name ++ ": " ++ f.cause.message ++
    match f.place with
    | some p => " at " ++ p.toText
    | none => Text.empty

end Fault

end TinyScript

import TinyScript.Text.Basic

/-!
# Builtins and special forms

The functions that every program can use, and the forms that receive their arguments
unevaluated. Only their names live here; what they do is said where values are known.
-/

namespace TinyScript

/-- The functions that are given to every program. -/
inductive Builtin where
  | add | subtract | multiply | divide
  | equal | notEqual | less | greater | lessEqual | greaterEqual
  | conjunction | disjunction | negation
  | abs | floor | ceil | round | min | max | random | typeOf
  | concat | substring | charAt | toLowerCase | toUpperCase | trim | split | replace
  | startsWith | endsWith | repeatText
  | array | length | element | push | pop | slice | join | map | filter | forEach | find | reduce
  | sort | reverse | includes | indexOf
  | get | put | call
  | print | help
  | undeclared
deriving DecidableEq, Inhabited, Repr

namespace Builtin

/-- The word that a builtin is bound to. The undeclared one, which only a host can make, is bound
to none. -/
def name : Builtin → String
  | add => "+" | subtract => "-" | multiply => "*" | divide => "/"
  | equal => "==" | notEqual => "!=" | less => "<" | greater => ">"
  | lessEqual => "<=" | greaterEqual => ">="
  | conjunction => "&&" | disjunction => "||" | negation => "!"
  | abs => "abs" | floor => "floor" | ceil => "ceil" | round => "round"
  | min => "min" | max => "max" | random => "random" | typeOf => "type"
  | concat => "concat" | substring => "substring" | charAt => "charAt"
  | toLowerCase => "toLowerCase" | toUpperCase => "toUpperCase" | trim => "trim"
  | split => "split" | replace => "replace"
  | startsWith => "startsWith" | endsWith => "endsWith" | repeatText => "repeat"
  | array => "array" | length => "length" | element => "element" | push => "push" | pop => "pop"
  | slice => "slice" | join => "join" | map => "map" | filter => "filter" | forEach => "forEach"
  | find => "find" | reduce => "reduce" | sort => "sort" | reverse => "reverse"
  | includes => "includes" | indexOf => "indexOf"
  | get => "get" | put => "put" | call => "call"
  | print => "print" | help => "help"
  | undeclared => "native"

/-- The name as a text. -/
def label (b : Builtin) : Text := Text.ofString b.name

/-- Whether a builtin writes to the output of the scope that binds it. -/
def writes : Builtin → Bool
  | print | help => true
  | _ => false

end Builtin

/-- The special forms. -/
inductive Form where
  | branch
  | loop
  | sequence
  | define
  | assign
  | function
  | classForm
deriving DecidableEq, Inhabited, Repr

namespace Form

/-- The word in operator position that stands for a form. -/
def name : Form → String
  | branch => "if"
  | loop => "while"
  | sequence => "do"
  | define => "define"
  | assign => "set"
  | function => "fun"
  | classForm => "class"

/-- The name as a text. -/
def label (f : Form) : Text := Text.ofString f.name

/-- All forms. -/
def all : List Form := [branch, loop, sequence, define, assign, function, classForm]

/-- All forms with their names. -/
def labelled : List (Text × Form) := all.map fun f => (f.label, f)

/-- The form that a word stands for in operator position. -/
def ofName? (name : Text) : Option Form :=
  (labelled.find? fun entry => entry.1 == name).map Prod.snd

end Form

end TinyScript

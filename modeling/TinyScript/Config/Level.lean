import TinyScript.Text.Case

/-!
# Log levels

How urgent a message is, and below what urgency messages are left out.
-/

namespace TinyScript

/-- A level of urgency. -/
inductive Level where
  | debug
  | info
  | warn
  | error
  | fatal
deriving DecidableEq, Inhabited

namespace Level

/-- The name of a level. -/
def name : Level → String
  | debug => "debug"
  | info => "info"
  | warn => "warn"
  | error => "error"
  | fatal => "fatal"

/-- The mark of a level in front of a message. -/
def mark : Level → Text
  | debug => "DEBU"
  | info => "INFO"
  | warn => "WARN"
  | error => "ERRO"
  | fatal => "FATA"

/-- All levels, from the least urgent one on. -/
def all : List Level := [debug, info, warn, error, fatal]

/-- How urgent a level is. -/
def urgency : Level → Nat
  | debug => 0
  | info => 1
  | warn => 2
  | error => 3
  | fatal => 4

/-- The level with a name, in capital or small letters. -/
def ofText? (t : Text) : Option Level := all.find? fun l => Text.ofString l.name == t.folded

end Level

end TinyScript

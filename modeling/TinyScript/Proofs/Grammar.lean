import TinyScript.Source.Parser
import TinyScript.Proofs.Packing

/-!
# The grammar of programs

The grammar is given by derivations, which say nothing about how a text is read: no token is
longest, and nothing is tried before anything else. Trees have no places.

* program: expression
* expression: atom ( "(" [expression ("," expression)*] ")" )*
* atom: string | number | word

White space and comments may stand in front of every token and behind the last one.
-/

namespace TinyScript

/-- A program tree without places. -/
inductive Tree where
  | number (x : Float)
  | string (s : Text)
  | word (name : Text)
  | apply (operator : Tree) (args : List Tree)

namespace Expr

mutual

/-- An expression without its places. -/
def tree : Expr → Tree
  | number x _ => .number x
  | string s _ => .string s
  | word name _ => .word name
  | apply operator args => .apply operator.tree (trees args)

/-- Expressions without their places. -/
def trees : List Expr → List Tree
  | [] => []
  | e :: rest => e.tree :: trees rest

end

/-- The places are dropped from each expression of a list. -/
@[simp] theorem trees_eq_map (args : List Expr) : trees args = args.map tree := by
  induction args with
  | nil => rfl
  | cons e rest ih => rw [trees, ih, List.map_cons]

end Expr

namespace Grammar

/-- White space and comments. A comment runs up to, not including, the next line feed, or up to the
end of the text, so one without a line feed behind it stands only where the text ends. -/
inductive Gap (atEnd : Bool) : List UInt8 → Prop where
  | nil : Gap atEnd []
  | blank {b : UInt8} {s : List UInt8} (hb : Token.isBlank b = true) (hs : Gap atEnd s) :
      Gap atEnd (b :: s)
  | comment {text s : List UInt8} (htext : 0x0A ∉ text) (hs : Gap atEnd (0x0A :: s)) :
      Gap atEnd (Token.hash :: (text ++ 0x0A :: s))
  | lastComment {text : List UInt8} (hend : atEnd = true) (htext : 0x0A ∉ text) :
      Gap atEnd (Token.hash :: text)

/-- The number that digits in front of a decimal point and behind it stand for. -/
def decimalValue (whole fraction : List UInt8) : ℚ :=
  Nat.ofDigits 10 ((whole ++ fraction).reverse.map fun d => d.toNat - 0x30) / 10 ^ fraction.length

/-- Strings, numbers and words. -/
inductive Atom : List UInt8 → Tree → Prop where
  | string {body : List UInt8} (hbody : Token.quote ∉ body) :
      Atom (Token.quote :: (body ++ [Token.quote])) (.string (Text.ofBytes body))
  | number {whole fraction : List UInt8} (hne : whole ≠ [])
      (hwhole : ∀ d ∈ whole, Token.isDigit d = true)
      (hfraction : ∀ d ∈ fraction, Token.isDigit d = true)
      (hfinite : (Binary64.toDouble (decimalValue whole fraction)).isFinite = true) :
      Atom (Token.numberText whole fraction)
        (.number (Binary64.toDouble (decimalValue whole fraction)))
  | word {name : List UInt8} (hne : name ≠ []) (hname : ∀ b ∈ name, Token.isWord b = true)
      (hfirst : ∀ b, name.head? = some b → Token.isDigit b = false) :
      Atom name (.word (Text.ofBytes name))

mutual

/-- An expression, from what stands in front of its first token to its last token. -/
inductive Expression : List UInt8 → Tree → Prop where
  | atom {gap s : List UInt8} {t : Tree} (hgap : Gap false gap) (hs : Atom s t) :
      Expression (gap ++ s) t
  | call {s gap rest : List UInt8} {t : Tree} {ts : List Tree} (hs : Expression s t)
      (hgap : Gap false gap) (hrest : Arguments rest ts) :
      Expression (s ++ (gap ++ Token.opening :: rest)) (.apply t ts)

/-- What follows an opening parenthesis, up to and with the closing one. -/
inductive Arguments : List UInt8 → List Tree → Prop where
  | none {gap : List UInt8} (hgap : Gap false gap) : Arguments (gap ++ [Token.closing]) []
  | some {s rest : List UInt8} {t : Tree} {ts : List Tree} (hs : Expression s t)
      (hrest : More rest ts) : Arguments (s ++ rest) (t :: ts)

/-- What follows an argument, up to and with the closing parenthesis. -/
inductive More : List UInt8 → List Tree → Prop where
  | close {gap : List UInt8} (hgap : Gap false gap) : More (gap ++ [Token.closing]) []
  | comma {gap s rest : List UInt8} {t : Tree} {ts : List Tree} (hgap : Gap false gap)
      (hs : Expression s t) (hrest : More rest ts) :
      More (gap ++ Token.comma :: (s ++ rest)) (t :: ts)

end

/-- A program: an expression and white space and comments behind it. -/
inductive Program : List UInt8 → Tree → Prop where
  | expression {s gap : List UInt8} {t : Tree} (hs : Expression s t) (hgap : Gap true gap) :
      Program (s ++ gap) t

end Grammar

end TinyScript

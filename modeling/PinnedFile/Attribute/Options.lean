/-
  PinnedFile.Attribute.Options

  The options of the test attribute: `name = integer` separated by commas, a comma
  behind the last one allowed.  The names are `worker_threads`, which must not be zero,
  and `timeout_ms`; where one is given twice the last wins.
-/

import PinnedFile.Attribute.Token

namespace PinnedFile.Attribute

/-- The options of the test attribute. -/
structure TestOptions where
  workerThreads : Option Nat := none
  timeoutMs : Option Nat := none
deriving DecidableEq, Repr

/-- What is wrong with the options of the test attribute. -/
inductive OptionError where
  /-- Something else stands where a name belongs. -/
  | notAName (found : Token)
  /-- No equals sign follows the name. -/
  | noEquals (name : String)
  /-- No literal follows the equals sign. -/
  | noValue (name : String)
  /-- The literal is no integer in range. -/
  | notAnInteger (name literal : String)
  /-- A pool without workers. -/
  | noWorkers
  /-- No option has this name. -/
  | unknown (name : String)
  /-- Something else stands where a comma belongs. -/
  | noComma (found : Token)
deriving Repr

/-- The text of an option error. -/
def OptionError.message : OptionError → String
  | .notAName found => "expected an option name, found `" ++ found.text ++ "`"
  | .noEquals name => "expected `=` after `" ++ name ++ "`"
  | .noValue name => "expected an integer after `" ++ name ++ " =`"
  | .notAnInteger name literal =>
    "`" ++ name ++ "` takes an integer, found `" ++ literal ++ "`"
  | .noWorkers => "worker_threads must be at least 1"
  | .unknown name =>
    "unknown option `" ++ name ++ "`, expected `worker_threads` or `timeout_ms`"
  | .noComma found => "expected `,` between options, found `" ++ found.text ++ "`"

/-- The value of decimal digits, the most significant first, behind the value `n`. -/
def digitsValue? (n : Nat) : List Char → Option Nat
  | [] => some n
  | c :: rest =>
    if '0' ≤ c ∧ c ≤ '9' then digitsValue? (10 * n + (c.toNat - '0'.toNat)) rest else none

/-- The numbers of an option are below this. -/
def numberLimit : Nat := 0x10000000000000000

/-- The number that characters stand for: one or more decimal digits, after a plus sign
    or without one, of a value below the limit. -/
def unsigned? (text : List Char) : Option Nat :=
  let digits := match text with
    | '+' :: rest => rest
    | all => all
  if digits.isEmpty then none
  else match digitsValue? 0 digits with
    | some n => if n < numberLimit then some n else none
    | none => none

/-- The number that a literal stands for, its underscores left out. -/
def integer? (literal : String) : Option Nat :=
  unsigned? (literal.toList.filter (· ≠ '_'))

namespace TestOptions

/-- The options with one of them set from a literal. -/
def set (o : TestOptions) (name literal : String) : Except OptionError TestOptions :=
  if name = "worker_threads" then
    match integer? literal with
    | none => .error (.notAnInteger name literal)
    | some 0 => .error .noWorkers
    | some n => .ok { o with workerThreads := some n }
  else if name = "timeout_ms" then
    match integer? literal with
    | none => .error (.notAnInteger name literal)
    | some n => .ok { o with timeoutMs := some n }
  else .error (.unknown name)

/-- Whether a token is the given punctuation character. -/
def isPunct (char : Char) : Token → Bool
  | .punct c _ => c = char
  | _ => false

/-- Reads options behind those in `o`.  The value is looked at before the comma after it,
    and an unknown name is reported only once its value is there. -/
def parseFrom (o : TestOptions) : List Token → Except OptionError TestOptions
  | [] => .ok o
  | .ident name :: [] => .error (.noEquals name)
  | .ident name :: equals :: [] =>
    if isPunct '=' equals then .error (.noValue name) else .error (.noEquals name)
  | .ident name :: equals :: .literal text :: rest =>
    if isPunct '=' equals then
      match o.set name text with
      | .error e => .error e
      | .ok o =>
        match rest with
        | [] => .ok o
        -- a comma may be the last token, for then nothing is left to read
        | comma :: rest =>
          if isPunct ',' comma then parseFrom o rest else .error (.noComma comma)
    else .error (.noEquals name)
  | .ident name :: equals :: _ :: _ =>
    if isPunct '=' equals then .error (.noValue name) else .error (.noEquals name)
  | found :: _ => .error (.notAName found)

/-- The options that the tokens of an attribute stand for. -/
def parse (tokens : List Token) : Except OptionError TestOptions := parseFrom {} tokens

end TestOptions

end PinnedFile.Attribute

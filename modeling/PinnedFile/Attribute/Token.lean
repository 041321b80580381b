/-
  PinnedFile.Attribute.Token

  Token trees of program text: names, literals, punctuation and delimited groups, and
  the text a diagnostic shows for them.
-/

namespace PinnedFile.Attribute

/-- The brackets around a group.  Groups that nothing is written around are left out: no program
    text has them, they come of other macros only. -/
inductive Delimiter where
  | parenthesis | brace | bracket
deriving DecidableEq, Repr

/-- A token tree. -/
inductive Token where
  /-- A name or a keyword. -/
  | ident (name : String)
  /-- A literal, as it is written. -/
  | literal (text : String)
  /-- One character of punctuation; `joint` when it clings to the token after it. -/
  | punct (char : Char) (joint : Bool)
  /-- Tokens between brackets. -/
  | group (delimiter : Delimiter) (tokens : List Token)
deriving Repr, Inhabited

namespace Token

/-- Whether a token is the given name. -/
def isIdent (name : String) : Token → Bool
  | .ident n => n = name
  | _ => false

/-- Whether a token is a group between the given brackets. -/
def isGroup (delimiter : Delimiter) : Token → Bool
  | .group d _ => d = delimiter
  | _ => false

/-- Whether a token clings to the one after it. -/
def isJoint : Token → Bool
  | .punct _ joint => joint
  | _ => false

/-- The tokens inside a group; none for any other token. -/
def inner : Token → List Token
  | .group _ tokens => tokens
  | _ => []

mutual

/-- The text of a token.  Braces keep a blank on their inner side. -/
def text : Token → String
  | .ident name => name
  | .literal written => written
  | .punct char _ => String.ofList [char]
  | .group .parenthesis tokens => "(" ++ textOf true tokens ++ ")"
  | .group .bracket tokens => "[" ++ textOf true tokens ++ "]"
  | .group .brace tokens =>
    "\x7b " ++ textOf true tokens ++ (if tokens.isEmpty then "\x7d" else " \x7d")

/-- The text of several tokens, with a blank before each but where it clings to the one
    before it; `close` tells that the first needs none. -/
def textOf (close : Bool) : List Token → String
  | [] => ""
  | token :: rest =>
    (if close then "" else " ") ++ token.text ++ textOf token.isJoint rest

end

end Token

end PinnedFile.Attribute

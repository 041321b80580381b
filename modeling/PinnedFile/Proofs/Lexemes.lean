/-
  PinnedFile.Proofs.Lexemes

  Program text, written out and read.

  A token tree is written as a sequence of lexemes: each name, literal and sign for itself, a group
  as its opening bracket, what is in it, and its closing bracket.  Tokens are known by the lexemes
  they are written with, so the program that an expansion makes can be told by its text.  A text
  without literals is read into lexemes here too.
-/

import PinnedFile.Attribute.Token

namespace PinnedFile.Attribute

/-- What program text is a sequence of. -/
inductive Lexeme where
  | opens (delimiter : Delimiter)
  | closes (delimiter : Delimiter)
  | name (name : String)
  | literal (text : String)
  | sign (char : Char) (joint : Bool)
deriving DecidableEq, Repr

/-! ## Writing -/

mutual

/-- The lexemes a token is written with. -/
def Token.lexemes : Token → List Lexeme
  | .ident name => [.name name]
  | .literal text => [.literal text]
  | .punct char joint => [.sign char joint]
  | .group delimiter tokens => .opens delimiter :: (Token.lexemesOf tokens ++ [.closes delimiter])

/-- The lexemes that tokens are written with. -/
def Token.lexemesOf : List Token → List Lexeme
  | [] => []
  | token :: rest => token.lexemes ++ Token.lexemesOf rest

end

namespace Token

theorem lexemesOf_append (tokens others : List Token) :
    lexemesOf (tokens ++ others) = lexemesOf tokens ++ lexemesOf others := by
  induction tokens with
  | nil => rfl
  | cons token rest ih => simp only [List.cons_append, lexemesOf, ih, List.append_assoc]

/-- Nothing is left of the group that is being read: the text is at its end, or a bracket closes. -/
def AtEnd (text : List Lexeme) : Prop :=
  ∀ l ∈ text.head?, ∃ delimiter, l = .closes delimiter

theorem atEnd_nil : AtEnd [] := fun _ first => nomatch first

theorem atEnd_closes {delimiter : Delimiter} {rest : List Lexeme} :
    AtEnd (.closes delimiter :: rest) :=
  fun _ first => ⟨delimiter, (Option.some.inj first).symm⟩

theorem not_atEnd (token : Token) (rest : List Lexeme) : ¬ AtEnd (token.lexemes ++ rest) := by
  intro stop
  cases token <;> simp [AtEnd, lexemes] at stop

mutual

theorem eq_of_lexemes_append {left right : List Lexeme} (t u : Token)
    (same : t.lexemes ++ left = u.lexemes ++ right) : t = u ∧ left = right := by
  match t, u with
  | .ident _, .ident _ | .literal _, .literal _ => simpa [lexemes] using same
  | .punct .., .punct .. => simpa [lexemes, and_assoc] using same
  | .group _ tokens, .group _ others =>
    simp only [lexemes, List.cons_append, List.append_assoc, List.cons.injEq,
      Lexeme.opens.injEq] at same
    obtain ⟨rfl, inner⟩ := same
    obtain ⟨rfl, outer⟩ := eq_of_lexemesOf_append tokens others atEnd_closes atEnd_closes inner
    exact ⟨rfl, List.cons.inj outer |>.2⟩
  -- the first lexeme tells the kinds apart
  | .ident _, .literal _ | .ident _, .punct .. | .ident _, .group ..
  | .literal _, .ident _ | .literal _, .punct .. | .literal _, .group ..
  | .punct .., .ident _ | .punct .., .literal _ | .punct .., .group ..
  | .group .., .ident _ | .group .., .literal _ | .group .., .punct .. =>
    simp [lexemes] at same

theorem eq_of_lexemesOf_append {left right : List Lexeme} (ts us : List Token)
    (stop : AtEnd left) (stop' : AtEnd right)
    (same : lexemesOf ts ++ left = lexemesOf us ++ right) : ts = us ∧ left = right := by
  match ts, us with
  | [], [] => exact ⟨rfl, same⟩
  | [], u :: us =>
    rw [lexemesOf, lexemesOf, List.nil_append, List.append_assoc] at same
    exact absurd (same ▸ stop) (not_atEnd u _)
  | t :: ts, [] =>
    rw [lexemesOf, lexemesOf, List.nil_append, List.append_assoc] at same
    exact absurd (same ▸ stop') (not_atEnd t _)
  | t :: ts, u :: us =>
    rw [lexemesOf, lexemesOf, List.append_assoc, List.append_assoc] at same
    obtain ⟨rfl, behind⟩ := eq_of_lexemes_append t u same
    obtain ⟨rfl, rest⟩ := eq_of_lexemesOf_append ts us stop stop' behind
    exact ⟨rfl, rest⟩

end

/-- Tokens are known by the lexemes they are written with. -/
theorem eq_of_lexemesOf {ts us : List Token} (same : lexemesOf ts = lexemesOf us) : ts = us :=
  (eq_of_lexemesOf_append ts us atEnd_nil atEnd_nil (congrArg (· ++ []) same)).1

end Token

/-! ## Reading -/

namespace Lexeme

/-- A word that has been read, as a name; there may have been none. -/
def ofWord (word : List Char) : List Lexeme :=
  if word.isEmpty then [] else [.name (String.ofList word)]

/-- Whether a character is one of a word. -/
def isOfWord (char : Char) : Bool := char.isAlpha || char = '_'

/-- Whether a character is a sign: it belongs to no word, and is no blank and no bracket. -/
def isSign : Char → Bool
  | ' ' | '\n' | '(' | ')' | '\x7b' | '\x7d' | '[' | ']' => false
  | char => !isOfWord char

/-- A character that belongs to no word: a blank, a bracket or a sign, which clings to the character
    behind it if that is a sign too. -/
def ofChar (behind : Option Char) : Char → List Lexeme
  | ' ' | '\n' => []
  | '(' => [.opens .parenthesis]
  | ')' => [.closes .parenthesis]
  | '\x7b' => [.opens .brace]
  | '\x7d' => [.closes .brace]
  | '[' => [.opens .bracket]
  | ']' => [.closes .bracket]
  | char => [.sign char (behind.any isSign)]

/-- The lexemes of characters, behind the beginning of a word. -/
def scanFrom (word : List Char) : List Char → List Lexeme
  | [] => ofWord word
  | char :: rest =>
    if isOfWord char then scanFrom (word ++ [char]) rest
    else ofWord word ++ ofChar rest.head? char ++ scanFrom [] rest

/-- The lexemes of a text without literals. -/
def scan (text : String) : List Lexeme := scanFrom [] text.toList

end Lexeme

end PinnedFile.Attribute

/-
  PinnedFile.Attribute.Expansion

  What the test attribute makes of a function: the same function, marked as a test and
  without parameters, whose body starts a runtime, runs the body it had on a fresh
  context, and waits for completion.  The parameters it had become those of the closure
  that holds its body; a function that had none completes when its body returns.
-/

import PinnedFile.Attribute.Options
import PinnedFile.Text.Quoted

namespace PinnedFile.Attribute

/-- Why an attribute cannot be expanded. -/
inductive ExpansionError where
  | options (error : OptionError)
  /-- The function is asynchronous. -/
  | isAsync
  /-- The item is no function. -/
  | notAFunction
  /-- No parameter list follows `fn`. -/
  | noParameters
deriving Repr

/-- The text of an expansion error. -/
def ExpansionError.message : ExpansionError → String
  | .options error => error.message
  | .isAsync => "#[asyncfile::test] functions must not be async"
  | .notAFunction => "#[asyncfile::test] must be used on a function"
  | .noParameters => "#[asyncfile::test] could not find the parameter list"

namespace Expansion

/-! ## Writing tokens -/

/-- Characters of punctuation, each clinging to the one behind it. -/
def signs : List Char → List Token
  | [] => []
  | [last] => [.punct last false]
  | char :: rest => .punct char true :: signs rest

/-- Punctuation, one token a character. -/
def puncts (text : String) : List Token := signs text.toList

/-- A path of names, from the root. -/
def rootPath (names : List String) : List Token :=
  names.flatMap fun name => puncts "::" ++ [.ident name]

/-- A group in parentheses. -/
def parens (tokens : List Token) : Token := .group .parenthesis tokens

/-- A group in braces. -/
def braces (tokens : List Token) : Token := .group .brace tokens

/-- A number as a literal. -/
def number (n : Nat) : Token := .literal (toString n)

/-- A method call behind whatever stands before it. -/
def call (method : String) (arguments : List Token) : List Token :=
  puncts "." ++ [.ident method, parens arguments]

/-- An error for the reader of the program: `::core::compile_error!("…");`. -/
def compileError (message : String) : List Token :=
  rootPath ["core", "compile_error"] ++ puncts "!"
    ++ [parens [.literal (Text.quoteString message)]] ++ puncts ";"

/-! ## The generated body -/

/-- The name of the completion handle in a function that did not ask for it. -/
def hiddenDone : Token := .ident "__asyncfile_done"

/-- The expression that builds the runtime. -/
def builder (o : TestOptions) : List Token :=
  rootPath ["asyncfile", "RuntimeBuilder", "new"] ++ [parens []]
    ++ (match o.workerThreads with
        | some n => call "worker_threads" [number n]
        | none => [])
    ++ call "build" []

/-- The expression for the time to wait. -/
def timeout (o : TestOptions) : List Token :=
  match o.timeoutMs with
  | some ms => rootPath ["std", "time", "Duration", "from_millis"] ++ [parens [number ms]]
  | none => rootPath ["asyncfile", "runtime", "DEFAULT_COMPLETION_TIMEOUT"]

/-- The parameters and the body of the closure: those of the function if it has
    parameters, else its body in braces followed by completion. -/
def closure (params body : List Token) : List Token × List Token :=
  if params.isEmpty then
    ([hiddenDone], [braces body] ++ [hiddenDone] ++ call "complete" [] ++ puncts ";")
  else (params, body)

/-- The statements that start the runtime and wait for the closure to complete. -/
def statements (o : TestOptions) (params body : List Token) : List Token :=
  let (closureParams, closureBody) := closure params body
  [.ident "let", .ident "runtime"] ++ puncts "=" ++ builder o ++ puncts ";"
    ++ [.ident "runtime"]
    ++ call "run_until_complete_timeout"
        (timeout o ++ puncts "," ++ [.ident "move"] ++ puncts "|" ++ closureParams
          ++ puncts "|" ++ [braces closureBody])
    ++ puncts ";"

/-- The generated body: the statements, in a block of their own inside the braces of the
    function. -/
def block (o : TestOptions) (params body : List Token) : Token :=
  braces [braces (statements o params body)]

/-! ## Finding the parts of the item -/

/-- The index of the first parameter list behind the first `fn`. -/
def paramsIndex? (tokens : List Token) : Except ExpansionError Nat :=
  match tokens.findIdx? (Token.isIdent "fn") with
  | none => .error .notAFunction
  | some start =>
    match (tokens.drop start).findIdx? (Token.isGroup .parenthesis) with
    | none => .error .noParameters
    | some offset => .ok (start + offset)

/-- The index of the last group in braces. -/
def bodyIndex? (tokens : List Token) : Option Nat :=
  (tokens.reverse.findIdx? (Token.isGroup .brace)).map fun i => tokens.length - 1 - i

/-- `#[test]`. -/
def testMark : List Token := puncts "#" ++ [.group .bracket [.ident "test"]]

/-- The expansion of an item under given options; an item without a body has none. -/
def ofItem (o : TestOptions) (item : List Token) : Except ExpansionError (List Token) :=
  if item.any (Token.isIdent "async") then .error .isAsync
  else match paramsIndex? item with
    | .error e => .error e
    | .ok paramsAt =>
      match bodyIndex? item with
      | none => .ok []
      | some bodyAt =>
        -- both replacements are one token for one, so the indices hold for both
        let params := ((item[paramsAt]?).map Token.inner).getD []
        let body := ((item[bodyAt]?).map Token.inner).getD []
        .ok (testMark
          ++ (item.set bodyAt (block o params body)).set paramsAt (parens []))

end Expansion

/-- What the attribute, with the tokens `settings` between its parentheses, makes of
    `item`. -/
def expand (settings item : List Token) : List Token :=
  match TestOptions.parse settings with
  | .error e => Expansion.compileError (ExpansionError.options e).message
  | .ok o =>
    match Expansion.ofItem o item with
    | .error e => Expansion.compileError e.message
    | .ok tokens => tokens

end PinnedFile.Attribute

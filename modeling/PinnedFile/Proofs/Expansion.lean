/-
  PinnedFile.Proofs.Expansion

  A test is the function it was written as.

  The tokens of the function stay, in their order, all but two: the first parameter list behind the
  first `fn` is emptied, and the last group in braces gives way to a generated body.  The generated
  body is told by its text, into which the parameters and the body of the function go once each, as
  they stand; since tokens are known by their text, that says which tokens it has.  The options go
  in as decimal numbers, which read as they were given.
-/

import PinnedFile.Attribute.Expansion
import PinnedFile.Proofs.Lexemes

namespace PinnedFile.Attribute

/-! ## The numbers of the options -/

/-- The value of digits is the one they are written for. -/
theorem digitsValue?_of_isDigit {text : List Char} (digits : ∀ c ∈ text, c.isDigit) (n : Nat) :
    digitsValue? n text = some (Nat.ofDigitChars 10 text n) := by
  induction text generalizing n with
  | nil => rw [digitsValue?, Nat.ofDigitChars_nil]
  | cons c rest ih =>
    have digit : '0' ≤ c ∧ c ≤ '9' := by
      simpa [Char.isDigit, Char.le_def] using digits c List.mem_cons_self
    rw [digitsValue?, if_pos digit, Nat.ofDigitChars_cons]
    exact ih (fun d there => digits d (List.mem_cons_of_mem c there)) _

theorem unsigned?_toDigits {n : Nat} (below : n < numberLimit) :
    unsigned? (Nat.toDigits 10 n) = some n := by
  have digits : ∀ c ∈ Nat.toDigits 10 n, c.isDigit := fun c there =>
    Nat.isDigit_of_mem_toDigits (by decide) (by decide) there
  have value := digitsValue?_of_isDigit digits 0
  rw [Nat.ofDigitChars_ten_toDigits] at value
  rcases written : Nat.toDigits 10 n with _ | ⟨c, rest⟩
  · exact absurd written Nat.toDigits_ne_nil
  · -- a plus sign would be left out, but the first digit is none
    have noSign : c ≠ '+' := by
      rintro rfl
      exact absurd (digits '+' (written ▸ List.mem_cons_self)) (by decide)
    rw [written] at value
    simp [unsigned?, noSign, value, below]

/-- A number below the limit is written so that it is read again. -/
theorem integer?_toString {n : Nat} (below : n < numberLimit) :
    integer? (toString n) = some n := by
  have kept : (Nat.toDigits 10 n).filter (· ≠ '_') = Nat.toDigits 10 n :=
    List.filter_eq_self.mpr fun c there =>
      decide_eq_true fun same => Nat.underscore_not_in_toDigits (same ▸ there)
  rw [integer?, Nat.toString_eq_repr, Nat.toList_repr, kept, unsigned?_toDigits below]

theorem lt_of_unsigned? {text : List Char} {n : Nat} (read : unsigned? text = some n) :
    n < numberLimit := by
  unfold unsigned? at read
  extract_lets digits at read
  rcases value : digitsValue? 0 digits with _ | m
  · simp [value] at read
  · simp only [value, Option.ite_none_left_eq_some, Option.ite_none_right_eq_some,
      Option.some.injEq] at read
    obtain ⟨-, below, rfl⟩ := read
    exact below

namespace TestOptions

/-- The numbers that are given are written so that they are read again. -/
structure Readable (o : TestOptions) : Prop where
  workerThreads : ∀ n, o.workerThreads = some n → integer? (toString n) = some n
  timeoutMs : ∀ ms, o.timeoutMs = some ms → integer? (toString ms) = some ms

variable {o after : TestOptions} {name literal : String} {settings : List Token}

theorem Readable.set (good : o.Readable) (ok : o.set name literal = .ok after) :
    after.Readable := by
  have again : ∀ {n}, integer? literal = some n → integer? (toString n) = some n :=
    fun read => integer?_toString (lt_of_unsigned? read)
  rw [TestOptions.set] at ok
  split at ok
  · split at ok
    · cases ok
    · cases ok
    next n _ read =>
      cases ok
      exact ⟨fun _ given => Option.some.inj given ▸ again read, good.timeoutMs⟩
  · split at ok
    · split at ok
      · cases ok
      next n read =>
        cases ok
        exact ⟨good.workerThreads, fun _ given => Option.some.inj given ▸ again read⟩
    · cases ok

/-- What one option keeps, all of them keep. -/
theorem Readable.parseFrom (good : o.Readable) (ok : o.parseFrom settings = .ok after) :
    after.Readable := by
  fun_induction TestOptions.parseFrom o settings with
  | case1 o => exact Except.ok.inj ok ▸ good
  | case6 o name equals text isEquals o' one => exact Except.ok.inj ok ▸ good.set one
  | case7 o name equals text isEquals o' one comma rest isComma ih => exact ih (good.set one) ok
  | case2 | case3 | case4 | case5 | case8 | case9 | case10 | case11 | case12 => cases ok

theorem readable_of_parse (ok : TestOptions.parse settings = .ok o) : o.Readable :=
  Readable.parseFrom (o := {}) ⟨nofun, nofun⟩ ok

end TestOptions

namespace Expansion

open Token Lexeme

/-! ## The text of the generated body -/

/-- The text that builds the runtime. -/
def builderText (o : TestOptions) : List Lexeme :=
  scan "::asyncfile::RuntimeBuilder::new()"
    ++ (match o.workerThreads with
        | some n => scan ".worker_threads(" ++ [.literal (toString n)] ++ scan ")"
        | none => [])
    ++ scan ".build()"

/-- The text of the time to wait. -/
def timeoutText (o : TestOptions) : List Lexeme :=
  match o.timeoutMs with
  | some ms => scan "::std::time::Duration::from_millis(" ++ [.literal (toString ms)] ++ scan ")"
  | none => scan "::asyncfile::runtime::DEFAULT_COMPLETION_TIMEOUT"

/-- The text of the closure, with the parameters and the body of the function. -/
def closureText (params body : List Token) : List Lexeme :=
  match params with
  | [] => scan "|__asyncfile_done| \x7b \x7b" ++ lexemesOf body
      ++ scan "\x7d __asyncfile_done.complete(); \x7d"
  | _ => scan "|" ++ lexemesOf params ++ scan "| \x7b" ++ lexemesOf body ++ scan "\x7d"

/-- The text of what stands between the braces of the function. -/
def bodyText (o : TestOptions) (params body : List Token) : List Lexeme :=
  scan "\x7b let runtime =" ++ builderText o ++ scan "; runtime.run_until_complete_timeout("
    ++ timeoutText o ++ scan ", move" ++ closureText params body ++ scan "); \x7d"

theorem lexemes_parens (tokens : List Token) :
    (parens tokens).lexemes =
      .opens .parenthesis :: (lexemesOf tokens ++ [.closes .parenthesis]) := by
  rw [parens, lexemes]

theorem lexemes_braces (tokens : List Token) :
    (braces tokens).lexemes = .opens .brace :: (lexemesOf tokens ++ [.closes .brace]) := by
  rw [braces, lexemes]

theorem lexemesOf_builder (o : TestOptions) : lexemesOf (builder o) = builderText o := by
  rcases o with ⟨_ | n, _⟩ <;> rfl

theorem lexemesOf_timeout (o : TestOptions) : lexemesOf (timeout o) = timeoutText o := by
  rcases o with ⟨_, _ | ms⟩ <;> rfl

theorem lexemesOf_closure (params body : List Token) :
    lexemesOf (puncts "|" ++ (closure params body).1 ++ puncts "|"
      ++ [braces (closure params body).2]) = closureText params body := by
  rcases params with _ | ⟨t, rest⟩
  · simp only [closure, List.isEmpty_nil, if_true, closureText, lexemesOf_append, lexemesOf,
      lexemes_braces, List.cons_append, List.append_assoc, List.nil_append, List.append_nil]
    rfl
  · simp only [closure, List.isEmpty_cons, Bool.false_eq_true, if_false, closureText,
      lexemesOf_append, lexemesOf, lexemes_braces, List.cons_append, List.append_assoc,
      List.nil_append, List.append_nil]
    rfl

theorem lexemesOf_statements (o : TestOptions) (params body : List Token) :
    lexemesOf [braces (statements o params body)] = bodyText o params body := by
  rw [bodyText, ← lexemesOf_builder, ← lexemesOf_timeout, ← lexemesOf_closure, statements]
  -- both sides have the same parts now; between them stand fixed words and signs
  simp only [call, lexemesOf_append, lexemesOf, lexemes_braces, lexemes_parens, List.cons_append,
    List.append_assoc, List.nil_append, List.append_nil]
  rfl

end Expansion

/-! ## The parts of a function -/

namespace Token

variable {t : Token} {name : String} {delimiter : Delimiter}

theorem isIdent_iff : t.isIdent name = true ↔ t = .ident name := by
  cases t <;> simp [isIdent]

theorem isGroup_iff : t.isGroup delimiter = true ↔ ∃ tokens, t = .group delimiter tokens := by
  cases t <;> simp [isGroup, eq_comm]

end Token

namespace Expansion

open Token Lexeme

/-- An item with the parts of a function: a name `fn`, a parameter list behind it, and a body. -/
structure IsFunction (item : List Token) : Prop where
  head : ∃ (fnAt paramsAt : Nat) (params : List Token), fnAt < paramsAt ∧
    item[fnAt]? = some (.ident "fn") ∧ item[paramsAt]? = some (parens params)
  body : ∃ body, braces body ∈ item

/-- The head of a function: the first parameter list behind the first `fn`. -/
structure Head (item : List Token) where
  fnAt : Nat
  paramsAt : Nat
  params : List Token
  isFn : item[fnAt]? = some (.ident "fn")
  isFirstFn : ∀ i, i < fnAt → item[i]? ≠ some (.ident "fn")
  isBehindFn : fnAt < paramsAt
  isParams : item[paramsAt]? = some (parens params)
  isFirstParams : ∀ i tokens, fnAt < i → i < paramsAt → item[i]? ≠ some (parens tokens)

/-- The parts of a function that an expansion is made of: its head, and its body, the last group in
    braces. -/
structure Parts (item : List Token) extends Head item where
  bodyAt : Nat
  body : List Token
  isBody : item[bodyAt]? = some (braces body)
  isLastBody : ∀ i tokens, bodyAt < i → item[i]? ≠ some (braces tokens)

variable {item : List Token} {p : Token → Bool} {t : Token} {i : Nat}

/-- A search that succeeds finds the first token of its kind. -/
theorem first_of_findIdx? (found : item.findIdx? p = some i) :
    (∃ t, item[i]? = some t ∧ p t = true) ∧
      ∀ j t, j < i → item[j]? = some t → ¬ p t = true := by
  obtain ⟨inside, holds, before⟩ := List.findIdx?_eq_some_iff_getElem.mp found
  refine ⟨⟨item[i], List.getElem?_eq_getElem inside, holds⟩, fun j t earlier there => ?_⟩
  obtain ⟨_, rfl⟩ := List.getElem?_eq_some_iff.mp there
  exact before j earlier

theorem exists_findIdx? (there : item[i]? = some t) (holds : p t = true) :
    ∃ first, first ≤ i ∧ item.findIdx? p = some first := by
  rcases found : item.findIdx? p with _ | first
  · have never := List.findIdx?_eq_none_iff.mp found t (List.mem_of_getElem? there)
    exact absurd (holds.symm.trans never) Bool.noConfusion
  · refine ⟨first, Nat.le_of_not_lt fun later => ?_, rfl⟩
    exact (first_of_findIdx? found).2 i t later there holds

/-- The parameter list that is found is the first behind the first `fn`. -/
theorem exists_head {fnAt paramsAt : Nat} {params : List Token} (behind : fnAt < paramsAt)
    (isFn : item[fnAt]? = some (.ident "fn")) (isParams : item[paramsAt]? = some (parens params)) :
    ∃ head : Head item, paramsIndex? item = .ok head.paramsAt := by
  obtain ⟨start, le, foundFn⟩ := exists_findIdx? isFn (Token.isIdent_iff.mpr rfl)
  have inRest : (item.drop start)[paramsAt - start]? = some (parens params) := by
    rw [List.getElem?_drop, Nat.add_sub_cancel' (by omega), isParams]
  obtain ⟨offset, -, foundParams⟩ :=
    exists_findIdx? inRest (Token.isGroup_iff.mpr ⟨params, rfl⟩)
  obtain ⟨⟨_, isStart, found⟩, firstFn⟩ := first_of_findIdx? foundFn
  obtain rfl := Token.isIdent_iff.mp found
  obtain ⟨⟨_, isOffset, found'⟩, firstParams⟩ := first_of_findIdx? foundParams
  obtain ⟨tokens, rfl⟩ := Token.isGroup_iff.mp found'
  rw [List.getElem?_drop] at isOffset
  let head : Head item :=
    { fnAt := start
      paramsAt := start + offset
      params := tokens
      isFn := isStart
      isFirstFn := fun i earlier isFn => firstFn i _ earlier isFn (Token.isIdent_iff.mpr rfl)
      isBehindFn := by
        -- the name `fn` is no parameter list
        refine Nat.lt_add_of_pos_right (Nat.pos_of_ne_zero fun none => ?_)
        rw [none, Nat.add_zero, isStart] at isOffset
        cases isOffset
      isParams := isOffset
      isFirstParams := by
        intro i tokens later earlier isParams
        refine firstParams (i - start) _ (by omega) ?_ (Token.isGroup_iff.mpr ⟨tokens, rfl⟩)
        rw [List.getElem?_drop, Nat.add_sub_cancel' (by omega)]
        exact isParams }
  refine ⟨head, ?_⟩
  rw [paramsIndex?, foundFn]
  dsimp only
  rw [foundParams]

/-- The body that is found is the last group in braces. -/
theorem exists_bodyIndex? {body : List Token} (isBody : braces body ∈ item) :
    ∃ bodyAt body, bodyIndex? item = some bodyAt ∧ item[bodyAt]? = some (braces body) ∧
      ∀ i tokens, bodyAt < i → item[i]? ≠ some (braces tokens) := by
  -- seen from the back, the last group is the first one
  obtain ⟨_, there⟩ := List.mem_iff_getElem?.mp (List.mem_reverse.mpr isBody)
  obtain ⟨back, -, found⟩ := exists_findIdx? there (Token.isGroup_iff.mpr ⟨body, rfl⟩)
  obtain ⟨⟨_, there, isBraces⟩, last⟩ := first_of_findIdx? found
  obtain ⟨tokens, rfl⟩ := Token.isGroup_iff.mp isBraces
  have inside : back < item.length := by
    have := (List.getElem?_eq_some_iff.mp there).1
    rwa [List.length_reverse] at this
  rw [List.getElem?_reverse inside] at there
  refine ⟨item.length - 1 - back, tokens, ?_, there, ?_⟩
  · rw [bodyIndex?, found]
    rfl
  · intro i tokens later isBraces
    have within : i < item.length := (List.getElem?_eq_some_iff.mp isBraces).1
    refine last (item.length - 1 - i) _ (by omega) ?_ (Token.isGroup_iff.mpr ⟨tokens, rfl⟩)
    rw [List.getElem?_reverse (by omega), show item.length - 1 - (item.length - 1 - i) = i by omega]
    exact isBraces

/-- The parts of a function are found. -/
theorem exists_parts (function : IsFunction item) :
    ∃ parts : Parts item, paramsIndex? item = .ok parts.paramsAt ∧
      bodyIndex? item = some parts.bodyAt := by
  obtain ⟨_, _, _, behind, isFn, isParams⟩ := function.head
  obtain ⟨body, isBody⟩ := function.body
  obtain ⟨head, found⟩ := exists_head behind isFn isParams
  obtain ⟨bodyAt, body, found', isBody, isLastBody⟩ := exists_bodyIndex? isBody
  exact ⟨{ head with bodyAt, body, isBody, isLastBody }, found, found'⟩

/-- The parameters and the body are different tokens. -/
theorem Parts.paramsAt_ne_bodyAt (parts : Parts item) : parts.paramsAt ≠ parts.bodyAt := by
  intro same
  have : parens parts.params = braces parts.body :=
    Option.some.inj (parts.isParams.symm.trans (same ▸ parts.isBody))
  cases this

/-- A function that is not asynchronous expands to itself, its parameter list emptied and its body
    replaced. -/
theorem ofItem_of_parts {o : TestOptions} (sync : .ident "async" ∉ item) (parts : Parts item)
    (found : paramsIndex? item = .ok parts.paramsAt)
    (found' : bodyIndex? item = some parts.bodyAt) :
    ofItem o item = .ok (testMark ++
      (item.set parts.bodyAt (block o parts.params parts.body)).set parts.paramsAt
        (parens [])) := by
  have plain : ¬ item.any (Token.isIdent "async") = true := by
    rw [List.any_eq_true]
    rintro ⟨t, there, isAsync⟩
    exact sync (Token.isIdent_iff.mp isAsync ▸ there)
  rw [ofItem, if_neg plain, found]
  dsimp only
  rw [found']
  dsimp only
  rw [parts.isParams, parts.isBody]
  rfl

/-- The expansion of a function under options that are accepted: `#[test]` and the tokens of the
    function, but for an empty parameter list and a generated body.  The generated body is the one
    with the text that holds the parameters and the body of the function, and the options as they
    were read. -/
theorem expansion_keeps_function {settings item : List Token} {o : TestOptions}
    (accepted : TestOptions.parse settings = .ok o) (sync : .ident "async" ∉ item)
    (function : IsFunction item) :
    ∃ (parts : Parts item) (kept inside : List Token),
      expand settings item = testMark ++ kept ∧ lexemesOf testMark = scan "#[test]" ∧
      kept.length = item.length ∧
      kept[parts.paramsAt]? = some (parens []) ∧
      kept[parts.bodyAt]? = some (braces inside) ∧
      (∀ i, i ≠ parts.paramsAt → i ≠ parts.bodyAt → kept[i]? = item[i]?) ∧
      (∀ tokens, lexemesOf tokens = bodyText o parts.params parts.body ↔ tokens = inside) ∧
      o.Readable := by
  obtain ⟨parts, foundParams, foundBody⟩ := exists_parts function
  have apart := parts.paramsAt_ne_bodyAt
  have hasParams : parts.paramsAt < item.length :=
    (List.getElem?_eq_some_iff.mp parts.isParams).1
  have hasBody : parts.bodyAt < item.length := (List.getElem?_eq_some_iff.mp parts.isBody).1
  let inside := [braces (statements o parts.params parts.body)]
  -- one token goes for one token, so no replacement moves what the other is about
  refine ⟨parts, (item.set parts.bodyAt (braces inside)).set parts.paramsAt (parens []), inside,
    ?_, rfl, ?_, ?_, ?_, ?_, ?_, TestOptions.readable_of_parse accepted⟩
  · rw [expand, accepted]
    dsimp only
    rw [ofItem_of_parts sync parts foundParams foundBody]
    rfl
  · rw [List.length_set, List.length_set]
  · exact List.getElem?_set_self (by rwa [List.length_set])
  · rw [List.getElem?_set_ne apart, List.getElem?_set_self hasBody]
  · intro i other other'
    rw [List.getElem?_set_ne (Ne.symm other), List.getElem?_set_ne (Ne.symm other')]
  · intro tokens
    rw [← lexemesOf_statements]
    exact ⟨eq_of_lexemesOf, congrArg lexemesOf⟩

/-- The parameters of a test that is given its completion handle. -/
def readsParams : List Token := [.ident "done", .punct ':' false, .ident "Done"]

/-- The body of a test that completes at once. -/
def readsBody : List Token :=
  [.ident "done", .punct '.' false, .ident "complete", parens [], .punct ';' false]

/-- A test that is given its completion handle and completes at once. -/
def readsTest : List Token :=
  [.ident "fn", .ident "reads", parens readsParams, braces readsBody]

example : lexemesOf (expand [] readsTest) = scan "#[test] fn reads() \x7b \x7b"
    ++ scan "let runtime = ::asyncfile::RuntimeBuilder::new().build();"
    ++ scan "runtime.run_until_complete_timeout("
    ++ scan "::asyncfile::runtime::DEFAULT_COMPLETION_TIMEOUT,"
    ++ scan "move |done: Done| \x7b done.complete(); \x7d); \x7d \x7d" := by
  decide +kernel

theorem parens_of_readsTest {i : Nat} {tokens : List Token}
    (there : readsTest[i]? = some (parens tokens)) : i = 2 ∧ tokens = readsParams := by
  rcases i with _ | _ | _ | _ | i <;> simp [readsTest, parens, braces] at there ⊢
  exact there.symm

theorem braces_of_readsTest {i : Nat} {tokens : List Token}
    (there : readsTest[i]? = some (braces tokens)) : i = 3 ∧ tokens = readsBody := by
  rcases i with _ | _ | _ | _ | i <;> simp [readsTest, parens, braces] at there ⊢
  exact there.symm

/-- Two workers are asked for: the parameter list is emptied, and the body gives way to one with
    two workers, the parameters and the body. -/
theorem reads_test_runs_on_two_workers :
    let settings : List Token := [.ident "worker_threads", .punct '=' false, .literal "2"]
    TestOptions.parse settings = .ok { workerThreads := some 2 } ∧
    .ident "async" ∉ readsTest ∧ IsFunction readsTest ∧
    ∃ inside,
      expand settings readsTest =
        testMark ++ [.ident "fn", .ident "reads", parens [], braces inside] ∧
      lexemesOf inside = bodyText { workerThreads := some 2 } readsParams readsBody := by
  intro settings
  have accepted : TestOptions.parse settings = .ok { workerThreads := some 2 } := rfl
  have sync : .ident "async" ∉ readsTest := by simp [readsTest, parens, braces]
  have function : IsFunction readsTest :=
    ⟨⟨0, 2, _, by decide, rfl, rfl⟩, ⟨_, List.mem_of_getElem? (i := 3) rfl⟩⟩
  obtain ⟨parts, kept, inside, expands, -, -, emptied, replaced, others, text, -⟩ :=
    expansion_keeps_function accepted sync function
  obtain ⟨paramsAt, params⟩ := parens_of_readsTest parts.isParams
  obtain ⟨bodyAt, body⟩ := braces_of_readsTest parts.isBody
  rw [paramsAt] at emptied others
  rw [bodyAt] at replaced others
  refine ⟨accepted, sync, function, inside, ?_, ?_⟩
  · rw [expands, List.append_cancel_left_eq]
    refine List.ext_getElem? fun i => ?_
    rcases i with _ | _ | _ | _ | i
    · exact others 0 (by decide) (by decide)
    · exact others 1 (by decide) (by decide)
    · exact emptied
    · exact replaced
    · exact others (i + 4) (by omega) (by omega)
  · rw [(text inside).mpr rfl, params, body]

end Expansion

end PinnedFile.Attribute

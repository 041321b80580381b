/-
  PinnedFile.Proofs.OptionList

  The options of a test are a list of assignments.

  An assignment is a name, an equals sign and a literal.  Assignments are written with commas
  between them, and one more comma may stand behind the last.  Tokens that are written so are read
  by making the assignments one after the other, and whatever is read was written so.  Hence the
  tokens are accepted exactly if they are such a list and every assignment can be made, and each
  option has the value of the last assignment to it.  All else expands to the error alone.
-/

import Mathlib.Algebra.Group.Nat.Defs
import Mathlib.Data.List.Induction
import Mathlib.Data.Option.Defs
import PinnedFile.Proofs.Expansion

namespace PinnedFile.Attribute

/-! ## Numbers -/

/-- Decimal digits, one or more, and the number that they are written for. -/
structure IsDecimal (digits : List Char) (n : Nat) : Prop where
  nonempty : digits ≠ []
  areDigits : ∀ c ∈ digits, c.isDigit
  value : n = Nat.ofDigitChars 10 digits 0

/-- The number below 2 ^ 64 that a literal stands for: without its underscores it is written in
    decimal digits, after a plus sign or without one. -/
def StandsFor (literal : String) (n : Nat) : Prop :=
  let text := literal.toList.filter (· ≠ '_')
  (∃ digits, IsDecimal digits n ∧ (text = digits ∨ text = '+' :: digits)) ∧ n < 2 ^ 64

theorem isDigit_of_digitsValue? {text : List Char} {n value : Nat}
    (read : digitsValue? n text = some value) : ∀ c ∈ text, c.isDigit := by
  induction text generalizing n with
  | nil => exact fun _ none => absurd none List.not_mem_nil
  | cons c rest ih =>
    rw [digitsValue?] at read
    split at read
    next digit =>
      intro d there
      rcases List.mem_cons.mp there with rfl | behind
      · simpa [Char.isDigit, Char.le_def] using digit
      · exact ih read d behind
    · cases read

/-- Characters that are read as digits are digits, and are read as the number they stand for. -/
theorem digitsValue?_eq_some_iff {digits : List Char} {n : Nat} :
    digitsValue? 0 digits = some n ↔
      (∀ c ∈ digits, c.isDigit) ∧ n = Nat.ofDigitChars 10 digits 0 := by
  constructor
  · intro read
    have areDigits := isDigit_of_digitsValue? read
    rw [digitsValue?_of_isDigit areDigits] at read
    exact ⟨areDigits, (Option.some.inj read).symm⟩
  · rintro ⟨areDigits, rfl⟩
    exact digitsValue?_of_isDigit areDigits 0

/-- No digit is a plus sign, so it is known whether a sign was left out. -/
theorem IsDecimal.stripped_iff {text digits : List Char} {n : Nat} (decimal : IsDecimal digits n) :
    (match text with
      | '+' :: rest => rest
      | all => all) = digits ↔ text = digits ∨ text = '+' :: digits := by
  have noSign : ∀ rest, digits ≠ '+' :: rest := by
    rintro rest rfl
    exact absurd (decimal.areDigits '+' List.mem_cons_self) (by decide)
  split
  next rest => simp [(noSign rest).symm]
  next plain => exact (or_iff_left (plain digits)).symm

theorem unsigned?_eq_some_iff {text : List Char} {n : Nat} :
    unsigned? text = some n ↔
      (∃ digits, IsDecimal digits n ∧ (text = digits ∨ text = '+' :: digits)) ∧ n < 2 ^ 64 := by
  have limit : numberLimit = 2 ^ 64 := rfl
  unfold unsigned?
  extract_lets digits
  constructor
  · intro read
    rcases value : digitsValue? 0 digits with _ | m
    · simp [value] at read
    · simp only [value, Option.ite_none_left_eq_some, Option.ite_none_right_eq_some,
        Option.some.injEq, List.isEmpty_iff] at read
      obtain ⟨nonempty, below, rfl⟩ := read
      obtain ⟨areDigits, isValue⟩ := digitsValue?_eq_some_iff.mp value
      have decimal : IsDecimal digits m := ⟨nonempty, areDigits, isValue⟩
      exact ⟨⟨digits, decimal, decimal.stripped_iff.mp rfl⟩, limit ▸ below⟩
  · rintro ⟨⟨written, decimal, stands⟩, below⟩
    have same : digits = written := decimal.stripped_iff.mpr stands
    have value := digitsValue?_eq_some_iff.mpr ⟨decimal.areDigits, decimal.value⟩
    have nonempty : ¬ written.isEmpty = true := fun none =>
      decimal.nonempty (List.isEmpty_iff.mp none)
    have small : n < numberLimit := by rw [limit]; exact below
    rw [same, value, if_neg nonempty]
    exact if_pos small

/-- A literal is read as the number that it stands for. -/
theorem integer?_eq_some_iff {literal : String} {n : Nat} :
    integer? literal = some n ↔ StandsFor literal n := unsigned?_eq_some_iff

/-! ## Assignments -/

/-- An assignment to an option: its name, an equals sign, and a literal. -/
structure Assignment where
  name : String
  literal : String
deriving DecidableEq, Repr

namespace Assignment

/-- The tokens of an assignment. -/
def tokens (a : Assignment) : List Token := [.ident a.name, .punct '=' false, .literal a.literal]

/-- An assignment that can be made: a number to an option that there is, and not zero if it is the
    number of workers. -/
def IsValid (a : Assignment) : Prop :=
  ∃ n, StandsFor a.literal n ∧ (a.name = "worker_threads" ∧ n ≠ 0 ∨ a.name = "timeout_ms")

end Assignment

/-- A comma. -/
def comma : Token := .punct ',' false

/-- A token by itself; it is left out whether it clings to the one after it. -/
def Token.apart : Token → Token
  | .punct char _ => .punct char false
  | token => token

/-- Tokens are a list of assignments: commas stand between them, and one more may stand behind the
    last. -/
def Lists (assignments : List Assignment) (tokens : List Token) : Prop :=
  ∃ behind, tokens.map Token.apart =
      [comma].intercalate (assignments.map Assignment.tokens) ++ behind ∧
    (behind = [] ∨ behind = [comma] ∧ assignments ≠ [])

/-- Tokens are a list of assignments that can be made. -/
def IsOptionList (tokens : List Token) : Prop :=
  ∃ assignments, Lists assignments tokens ∧ ∀ a ∈ assignments, a.IsValid

/-- The last assignment to the option `name`. -/
def last? (name : String) (assignments : List Assignment) : Option Assignment :=
  assignments.reverse.find? (·.name = name)

/-- Options have the values that assignments come to: each has that of the last assignment to it,
    and none if there is no assignment to it. -/
structure TestOptions.Holds (o : TestOptions) (assignments : List Assignment) : Prop where
  workerThreads : Option.Rel (fun a n => StandsFor a.literal n)
    (last? "worker_threads" assignments) o.workerThreads
  timeoutMs : Option.Rel (fun a n => StandsFor a.literal n)
    (last? "timeout_ms" assignments) o.timeoutMs

variable {assignments : List Assignment} {a : Assignment} {tokens rest : List Token}
  {o after : TestOptions} {name literal : String} {value : Option Nat} {n : Nat}

/-! ## Lists of assignments -/

namespace Token

variable {t : Token} {char : Char}

theorem apart_eq_ident_iff : t.apart = .ident name ↔ t = .ident name := by
  cases t <;> simp [apart]

theorem apart_eq_literal_iff : t.apart = .literal literal ↔ t = .literal literal := by
  cases t <;> simp [apart]

theorem apart_eq_punct_iff :
    t.apart = .punct char false ↔ TestOptions.isPunct char t = true := by
  cases t <;> simp [apart, TestOptions.isPunct]

end Token

theorem lists_nil_iff : Lists [] tokens ↔ tokens = [] := by
  simp [Lists]

/-- The tokens of an assignment are known but for what its equals sign clings to. -/
theorem map_apart_eq_assignment_iff {text : List Token} :
    tokens.map Token.apart = a.tokens ++ text ↔
      ∃ equals rest, tokens = .ident a.name :: equals :: .literal a.literal :: rest ∧
        TestOptions.isPunct '=' equals = true ∧ rest.map Token.apart = text := by
  simp only [Assignment.tokens, List.cons_append, List.nil_append, List.map_eq_cons_iff,
    Token.apart_eq_ident_iff, Token.apart_eq_literal_iff, Token.apart_eq_punct_iff]
  constructor
  · rintro ⟨_, _, rfl, rfl, equals, _, rfl, isEquals, _, rest, rfl, rfl, behind⟩
    exact ⟨equals, rest, rfl, isEquals, behind⟩
  · rintro ⟨equals, rest, rfl, isEquals, behind⟩
    exact ⟨_, _, rfl, rfl, equals, _, rfl, isEquals, _, rest, rfl, rfl, behind⟩

theorem map_apart_eq_comma_iff {text : List Token} :
    rest.map Token.apart = comma :: text ↔ ∃ separator others, rest = separator :: others ∧
      TestOptions.isPunct ',' separator = true ∧ others.map Token.apart = text := by
  simp only [comma, List.map_eq_cons_iff, Token.apart_eq_punct_iff]

/-- A list begins with its first assignment.  Behind that it is at its end, or there is a comma and
    the list of the others. -/
theorem lists_cons_iff : Lists (a :: assignments) tokens ↔
    ∃ equals rest, tokens = .ident a.name :: equals :: .literal a.literal :: rest ∧
      TestOptions.isPunct '=' equals = true ∧
      (rest = [] ∧ assignments = [] ∨ ∃ separator others, rest = separator :: others ∧
        TestOptions.isPunct ',' separator = true ∧ Lists assignments others) := by
  rcases assignments with _ | ⟨b, more⟩
  · -- the comma behind the only assignment is one behind the last
    simp only [Lists, List.map_cons, List.map_nil, List.intercalate_singleton,
      map_apart_eq_assignment_iff]
    constructor
    · rintro ⟨behind, ⟨equals, rest, rfl, isEquals, rfl⟩, none | ⟨one, -⟩⟩
      · exact ⟨equals, rest, rfl, isEquals, .inl ⟨List.map_eq_nil_iff.mp none, trivial⟩⟩
      · obtain ⟨separator, others, rfl, isComma, none⟩ := map_apart_eq_comma_iff.mp one
        exact ⟨equals, _, rfl, isEquals, .inr ⟨separator, others, rfl, isComma,
          [], by simpa using none, .inl rfl⟩⟩
    · rintro ⟨equals, rest, rfl, isEquals, ⟨rfl, -⟩ | ⟨separator, others, rfl, isComma, listed⟩⟩
      · exact ⟨[], ⟨equals, [], rfl, isEquals, rfl⟩, .inl rfl⟩
      · obtain rfl := lists_nil_iff.mp listed
        refine ⟨[comma], ⟨equals, _, rfl, isEquals, ?_⟩, .inr ⟨rfl, List.cons_ne_nil _ _⟩⟩
        exact map_apart_eq_comma_iff.mpr ⟨separator, [], rfl, isComma, rfl⟩
  · have text (behind : List Token) :
        [comma].intercalate ((a :: b :: more).map Assignment.tokens) ++ behind =
          a.tokens ++ comma ::
            ([comma].intercalate ((b :: more).map Assignment.tokens) ++ behind) := by
      simp [List.intercalate_cons_cons]
    simp only [Lists, text, map_apart_eq_assignment_iff, map_apart_eq_comma_iff]
    constructor
    · rintro ⟨behind, ⟨equals, rest, rfl, isEquals, separator, others, rfl, isComma, same⟩, ends⟩
      refine ⟨equals, _, rfl, isEquals, .inr ⟨separator, others, rfl, isComma, behind, same, ?_⟩⟩
      exact ends.imp_right fun one => ⟨one.1, List.cons_ne_nil b more⟩
    · rintro ⟨equals, rest, rfl, isEquals,
        ⟨-, none⟩ | ⟨separator, others, rfl, isComma, behind, same, ends⟩⟩
      · cases none
      · exact ⟨behind, ⟨equals, _, rfl, isEquals, separator, others, rfl, isComma, same⟩,
          ends.imp_right fun one => ⟨one.1, List.cons_ne_nil a _⟩⟩

/-! ## Reading -/

/-- Options with assignments made one after the other. -/
def TestOptions.assign (o : TestOptions) (assignments : List Assignment) :
    Except OptionError TestOptions :=
  assignments.foldlM (fun o a => o.set a.name a.literal) o

/-- Tokens that are a list of assignments are read by making the assignments. -/
theorem Lists.parseFrom_eq (listed : Lists assignments tokens) (o : TestOptions) :
    o.parseFrom tokens = o.assign assignments := by
  induction assignments generalizing o tokens with
  | nil =>
    obtain rfl := lists_nil_iff.mp listed
    rfl
  | cons a assignments ih =>
    obtain ⟨equals, rest, rfl, isEquals, behind⟩ := lists_cons_iff.mp listed
    rw [TestOptions.parseFrom, if_pos isEquals, TestOptions.assign, List.foldlM_cons]
    rcases set : o.set a.name a.literal with e | next
    · rfl
    · dsimp only
      rcases behind with ⟨rfl, rfl⟩ | ⟨separator, others, rfl, isComma, listed⟩
      · rfl
      · dsimp only
        rw [if_pos isComma]
        exact ih listed next

/-- Tokens that are read are a list of assignments. -/
theorem exists_lists_of_parseFrom (ok : o.parseFrom tokens = .ok after) :
    ∃ assignments, Lists assignments tokens := by
  fun_induction TestOptions.parseFrom o tokens with
  | case1 o => exact ⟨[], lists_nil_iff.mpr rfl⟩
  | case6 o name equals text isEquals next set =>
    exact ⟨[⟨name, text⟩], lists_cons_iff.mpr ⟨equals, [], rfl, isEquals, .inl ⟨rfl, rfl⟩⟩⟩
  | case7 o name equals text isEquals next set separator others isComma ih =>
    obtain ⟨assignments, listed⟩ := ih ok
    exact ⟨⟨name, text⟩ :: assignments, lists_cons_iff.mpr
      ⟨equals, _, rfl, isEquals, .inr ⟨separator, others, rfl, isComma, listed⟩⟩⟩
  | case2 | case3 | case4 | case5 | case8 | case9 | case10 | case11 | case12 => cases ok

/-! ## Making assignments -/

/-- An assignment that is made sets one option to the number of its literal. -/
theorem TestOptions.set_eq_ok_iff : o.set name literal = .ok after ↔
    ∃ n, StandsFor literal n ∧
      (name = "worker_threads" ∧ n ≠ 0 ∧ after = { o with workerThreads := some n } ∨
        name = "timeout_ms" ∧ after = { o with timeoutMs := some n }) := by
  simp only [← integer?_eq_some_iff, TestOptions.set]
  by_cases workers : name = "worker_threads"
  · subst workers
    rcases integer? literal with _ | _ | n <;> simp [eq_comm]
  · by_cases timeout : name = "timeout_ms"
    · subst timeout
      rcases integer? literal with _ | n <;> simp [eq_comm]
    · simp [workers, timeout]

/-- The last assignment of a list is the last to its option, and makes no difference to others. -/
theorem last?_append : last? name (assignments ++ [a]) =
    if a.name = name then some a else last? name assignments := by
  by_cases named : a.name = name <;> simp [last?, named]

theorem TestOptions.assign_append_eq_ok_iff : o.assign (assignments ++ [a]) = .ok after ↔
    ∃ middle, o.assign assignments = .ok middle ∧ middle.set a.name a.literal = .ok after := by
  rw [TestOptions.assign, List.foldlM_append, ← TestOptions.assign]
  simp only [List.foldlM_cons, List.foldlM_nil, bind_pure]
  rcases o.assign assignments with e | middle <;> simp [bind, Except.bind]

/-- Assignments that are made can be made, and the last to each option tells. -/
theorem holds_of_assign (ok : TestOptions.assign {} assignments = .ok o) :
    (∀ a ∈ assignments, a.IsValid) ∧ o.Holds assignments := by
  induction assignments using List.reverseRecOn generalizing o with
  | nil =>
    obtain rfl := Except.ok.inj ok
    exact ⟨fun _ none => absurd none List.not_mem_nil, .none, .none⟩
  | append_singleton assignments a ih =>
    obtain ⟨middle, before, set⟩ := TestOptions.assign_append_eq_ok_iff.mp ok
    obtain ⟨valid, workers, timeout⟩ := ih before
    obtain ⟨n, stands, made⟩ := TestOptions.set_eq_ok_iff.mp set
    refine ⟨fun b there => ?_, ?_⟩
    · rcases List.mem_append.mp there with earlier | one
      · exact valid b earlier
      · rw [List.mem_singleton.mp one]
        exact ⟨n, stands, made.imp (fun made => ⟨made.1, made.2.1⟩) And.left⟩
    · -- the option that is set has this value, and the other one has what it had
      rcases made with ⟨named, -, rfl⟩ | ⟨named, rfl⟩
      · constructor
        · rw [last?_append, if_pos named]
          exact .some stands
        · rwa [last?_append, if_neg (by simp [named])]
      · constructor
        · rwa [last?_append, if_neg (by simp [named])]
        · rw [last?_append, if_pos named]
          exact .some stands

/-- Assignments that can be made are made. -/
theorem exists_assign (valid : ∀ a ∈ assignments, a.IsValid) (o : TestOptions) :
    ∃ after, o.assign assignments = .ok after := by
  induction assignments generalizing o with
  | nil => exact ⟨o, rfl⟩
  | cons a rest ih =>
    obtain ⟨n, stands, named⟩ := valid a List.mem_cons_self
    have set : ∃ next, o.set a.name a.literal = .ok next := by
      rcases named with ⟨workers, positive⟩ | timeout
      · exact ⟨_, TestOptions.set_eq_ok_iff.mpr ⟨n, stands, .inl ⟨workers, positive, rfl⟩⟩⟩
      · exact ⟨_, TestOptions.set_eq_ok_iff.mpr ⟨n, stands, .inr ⟨timeout, rfl⟩⟩⟩
    obtain ⟨next, set⟩ := set
    obtain ⟨after, made⟩ := ih (fun b there => valid b (List.mem_cons_of_mem a there)) next
    exact ⟨after, by rw [TestOptions.assign, List.foldlM_cons, set]; exact made⟩

/-! ## Options -/

open Token Lexeme in
/-- The options of a test are read exactly from lists of assignments that can be made, and each has
    the value of the last assignment to it.  All other tokens are refused with an error, and whatever
    the item is, the expansion then is that error and nothing else. -/
theorem options_are_lists_of_assignments (tokens : List Token) :
    ((∃ o, TestOptions.parse tokens = .ok o) ↔ IsOptionList tokens) ∧
    (∀ o assignments, TestOptions.parse tokens = .ok o → Lists assignments tokens →
      o.Holds assignments) ∧
    (¬ IsOptionList tokens → ∃ error : OptionError, TestOptions.parse tokens = .error error ∧
      ∀ item, lexemesOf (expand tokens item) = scan "::core::compile_error!("
        ++ [.literal (Text.quoteString error.message)] ++ scan ");") := by
  have reads : (∃ o, TestOptions.parse tokens = .ok o) ↔ IsOptionList tokens := by
    constructor
    · rintro ⟨o, ok⟩
      obtain ⟨assignments, listed⟩ := exists_lists_of_parseFrom ok
      exact ⟨assignments, listed, (holds_of_assign ((listed.parseFrom_eq {}).symm.trans ok)).1⟩
    · rintro ⟨assignments, listed, valid⟩
      obtain ⟨o, made⟩ := exists_assign valid {}
      exact ⟨o, (listed.parseFrom_eq {}).trans made⟩
  refine ⟨reads, fun o assignments ok listed => ?_, fun others => ?_⟩
  · exact (holds_of_assign ((listed.parseFrom_eq {}).symm.trans ok)).2
  · rcases parsed : TestOptions.parse tokens with error | o
    · refine ⟨error, rfl, fun item => ?_⟩
      rw [expand, parsed]
      rfl
    · exact absurd (reads.mp ⟨o, parsed⟩) others

open Token Lexeme in
/-- Of two assignments to one option the last counts, and a comma may stand behind it.  A second one
    may not: then the expansion is the error. -/
theorem last_assignment_counts :
    let assignments : List Assignment :=
      [⟨"worker_threads", "2"⟩, ⟨"timeout_ms", "1_000"⟩, ⟨"worker_threads", "3"⟩]
    let tokens := [comma].intercalate (assignments.map Assignment.tokens) ++ [comma]
    let o : TestOptions := { workerThreads := some 3, timeoutMs := some 1000 }
    TestOptions.parse tokens = .ok o ∧ Lists assignments tokens ∧ o.Holds assignments ∧
    ¬ IsOptionList (tokens ++ [comma]) ∧
    ∀ item, lexemesOf (expand (tokens ++ [comma]) item) = scan "::core::compile_error!("
      ++ [.literal (Text.quoteString "expected an option name, found `,`")] ++ scan ");" := by
  intro assignments tokens o
  have ok : TestOptions.parse tokens = .ok o := rfl
  have listed : Lists assignments tokens := ⟨[comma], rfl, .inr ⟨rfl, List.cons_ne_nil _ _⟩⟩
  obtain ⟨-, values, -⟩ := options_are_lists_of_assignments tokens
  obtain ⟨reads, -, refuses⟩ := options_are_lists_of_assignments (tokens ++ [comma])
  have refused : TestOptions.parse (tokens ++ [comma]) = .error (.notAName comma) := rfl
  have others : ¬ IsOptionList (tokens ++ [comma]) := fun list => by
    obtain ⟨_, read⟩ := reads.mpr list
    rw [refused] at read
    cases read
  obtain ⟨error, parsed, expands⟩ := refuses others
  obtain rfl : .notAName comma = error := Except.error.inj (refused.symm.trans parsed)
  have shown : (OptionError.notAName comma).message = "expected an option name, found `,`" := by
    decide +kernel
  refine ⟨ok, listed, values o assignments ok listed, others, fun item => ?_⟩
  rw [expands item, shown]

end PinnedFile.Attribute

/-
  PinnedFile.Text.Span

  The text of a span of time given in milliseconds: in seconds from one second on, with
  as many decimals as it needs, in milliseconds below, and `0ns` for no time at all.
-/

namespace PinnedFile.Text

/-- The decimals of `thousandths`, three digits without the zeros at their end. -/
def decimals (thousandths : Nat) : List Char :=
  -- the thousand keeps the zeros at the front
  let digits := (Nat.toDigits 10 (1000 + thousandths)).drop 1
  (digits.reverse.dropWhile (· = '0')).reverse

/-- The text of a span of `ms` milliseconds. -/
def span (ms : Nat) : String :=
  let seconds := ms / 1000
  let rest := ms % 1000
  if seconds = 0 then
    if rest = 0 then "0ns" else toString rest ++ "ms"
  else if rest = 0 then toString seconds ++ "s"
  else toString seconds ++ "." ++ String.ofList (decimals rest) ++ "s"

end PinnedFile.Text

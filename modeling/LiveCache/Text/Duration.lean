/-!
# Durations

A duration of whole milliseconds. From one second on it is written in seconds, with as many places
as it needs; a shorter one in milliseconds; no time at all in nanoseconds.
-/

namespace LiveCache.Text

/-- Thousandths after a decimal point: three digits at most, without trailing zeros. -/
def thousandths (n : Nat) : String :=
  if n = 0 then ""
  else if n % 100 = 0 then "." ++ toString (n / 100)
  else
    let tenths := toString (n / 100)
    if n % 10 = 0 then "." ++ tenths ++ toString (n / 10 % 10)
    else "." ++ tenths ++ toString (n / 10 % 10) ++ toString (n % 10)

def duration (milliseconds : Nat) : String :=
  if milliseconds = 0 then "0ns"
  else if milliseconds < 1000 then toString milliseconds ++ "ms"
  else toString (milliseconds / 1000) ++ thousandths (milliseconds % 1000) ++ "s"

example : duration 1500 = "1.5s" ∧ duration 1234567 = "1234.567s" := by decide +kernel
example : duration 12 = "12ms" ∧ duration 60000 = "60s" ∧ duration 1001 = "1.001s" := by
  decide +kernel

end LiveCache.Text

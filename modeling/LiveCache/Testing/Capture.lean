import LiveCache.Activity
import LiveCache.Text.Lines
import LiveCache.Text.Terminal

/-!
# Captured logs

A capture keeps what was logged while it was on, and checks what it contains. Each message stands
behind the time at which it was logged, in a form that a terminal can show.
-/

namespace LiveCache.Testing

structure LogLine where
  level : Level
  text : String
  number : Int64
deriving DecidableEq, Repr

namespace LogLine

/-- The line without its time. -/
def body (l : LogLine) : String :=
  l.level.label ++ " app: " ++ Text.forTerminal l.text ++ " n=" ++ toString l.number

end LogLine

structure Capture where
  lines : List LogLine := []
deriving DecidableEq, Repr

namespace Capture

/-- Captures are read on a clock that stands still, at a moment that no message is about. -/
def time : String := "2026-02-17T13:58:46.709325Z"

def add (c : Capture) (l : LogLine) : Capture := { c with lines := c.lines ++ [l] }

/-- All that was captured. -/
def text (c : Capture) : String :=
  String.join (c.lines.map fun l => time ++ " " ++ l.body ++ "\n")

/-- The lines without their times. -/
def output (c : Capture) : List String := c.lines.flatMap fun l => Text.lines l.body

/-- A text occurs in another where that one starts with it, now or after its first character. -/
def occursIn (part : List Char) : List Char → Bool
  | [] => part.isEmpty
  | c :: rest => part.isPrefixOf (c :: rest) || occursIn part rest

theorem occursIn_iff (part s : List Char) : occursIn part s = true ↔ part <:+: s := by
  induction s with
  | nil => simp [occursIn]
  | cons c rest ih => simp [occursIn, ih, List.infix_cons_iff]

def contains (c : Capture) (part : String) : Bool := occursIn part.toList c.text.toList

/-- What an assertion says when it fails, as far as its first line goes. -/
def firstLine (s : String) : String := (Text.lines s).headD ""

def assertContains (c : Capture) (part : String) : Except String Unit :=
  if c.contains part then .ok ()
  else .error (firstLine ("log output does not contain '" ++ part ++ "', got:"))

def assertLacks (c : Capture) (part : String) : Except String Unit :=
  if c.contains part then
    .error (firstLine ("log output unexpectedly contains '" ++ part ++ "', got:"))
  else .ok ()

end Capture

end LiveCache.Testing

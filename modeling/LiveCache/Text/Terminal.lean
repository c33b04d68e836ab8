import LiveCache.Text.Quoted

/-!
# Text for a terminal

A terminal acts on some characters instead of showing them: the bell, the backspace, the form feed,
the escape and the delete character, and the control characters above ASCII. Where text goes to a
terminal these are written by their code points, and all else as it is, so that no text can give
the terminal an order.
-/

namespace LiveCache.Text

def isTerminalControl (c : Char) : Bool :=
  c = '\x07' || c = '\x08' || c = '\x0c' || c = '\x1b' || (0x7f ≤ c.toNat && c.toNat ≤ 0x9f)

/-- Two digits are enough within ASCII; a code point above it stands between braces. -/
def shownCode (c : Char) : String :=
  if c.toNat < 0x10 then "\\x0" ++ hex c.toNat
  else if c.toNat < 0x80 then "\\x" ++ hex c.toNat
  else "\\u\x7b" ++ hex c.toNat ++ "\x7d"

def terminalChar (c : Char) : String := if isTerminalControl c then shownCode c else c.toString

def forTerminal (s : String) : String := String.join (s.toList.map terminalChar)

example : forTerminal "\x1b[31mred\x1b[0m\x07" = "\\x1b[31mred\\x1b[0m\\x07" := by decide +kernel
example : forTerminal "a\tb\x0b\x7f" = "a\tb\x0b\\x7f" := by decide +kernel

theorem toNat_lt_of_isTerminalControl {c : Char} (h : isTerminalControl c = true) :
    c.toNat < 160 := by
  simp only [isTerminalControl, Bool.or_eq_true, Bool.and_eq_true, decide_eq_true_eq] at h
  rcases h with (((rfl | rfl) | rfl) | rfl) | ⟨_, h⟩
  iterate 4 decide
  omega

/-- A code point is written without the characters that a terminal acts on. -/
theorem shownCode_isShown {n : Nat} (h : n < 160) :
    ∀ d ∈ (shownCode (Char.ofNat n)).toList, isTerminalControl d = false := by
  have shown : (List.range 160).all (fun n =>
      (shownCode (Char.ofNat n)).toList.all fun d => !isTerminalControl d) = true := by
    decide +kernel
  simpa using List.all_eq_true.1 shown n (List.mem_range.2 h)

theorem terminalChar_isShown (c : Char) :
    ∀ d ∈ (terminalChar c).toList, isTerminalControl d = false := by
  unfold terminalChar
  split
  next h =>
    have shown := shownCode_isShown (toNat_lt_of_isTerminalControl h)
    rwa [Char.ofNat_toNat] at shown
  next h => simpa [Char.toString_eq_singleton] using h

/-- A terminal acts on nothing in the text. -/
theorem forTerminal_isShown (s : String) :
    ∀ d ∈ (forTerminal s).toList, isTerminalControl d = false := by
  intro d found
  simp only [forTerminal, String.toList_join, List.mem_flatMap, List.mem_map] at found
  obtain ⟨_, ⟨c, _, rfl⟩, among⟩ := found
  exact terminalChar_isShown c d among

/-- Text on which a terminal does not act is shown as it is. -/
theorem forTerminal_eq_self {s : String} (h : ∀ c ∈ s.toList, isTerminalControl c = false) :
    forTerminal s = s := by
  have same : s.toList.map terminalChar = s.toList.map Char.toString :=
    List.map_congr_left fun c found => by simp [terminalChar, h c found]
  apply String.toList_injective
  simp [forTerminal, same, String.toList_join, List.flatMap_map, Char.toString_eq_singleton]

end LiveCache.Text

/-!
# Lines

A line ends with a newline or with a carriage return and a newline, neither of which belongs to it.
The last line of a text may lack its end; a carriage return at its end is a part of it.
-/

namespace LiveCache.Text

/-- Puts a character in front of the first line. -/
def consLine (c : Char) : List (List Char) → List (List Char)
  | [] => [[c]]
  | line :: rest => (c :: line) :: rest

def linesOf : List Char → List (List Char)
  | [] => []
  | '\n' :: rest => [] :: linesOf rest
  | '\r' :: '\n' :: rest => [] :: linesOf rest
  | c :: rest => consLine c (linesOf rest)

def lines (s : String) : List String := (linesOf s.toList).map String.ofList

theorem newline_not_mem_consLine {c : Char} {l : List (List Char)} (hc : c ≠ '\n')
    (h : ∀ line ∈ l, '\n' ∉ line) : ∀ line ∈ consLine c l, '\n' ∉ line := by
  cases l with
  | nil => simp [consLine, hc.symm]
  | cons first rest => simpa [consLine, hc.symm] using h

theorem newline_not_mem_linesOf (s : List Char) : ∀ line ∈ linesOf s, '\n' ∉ line := by
  fun_induction linesOf s with
  | case1 => simp
  | case2 rest ih => simpa using ih
  | case3 rest ih => simpa using ih
  | case4 c rest hc _ ih => exact newline_not_mem_consLine hc ih

/-- No line holds a newline. -/
theorem newline_not_mem_lines (s : String) : ∀ line ∈ lines s, '\n' ∉ line.toList := by
  intro line found
  obtain ⟨chars, among, rfl⟩ := List.mem_map.1 found
  simpa using newline_not_mem_linesOf s.toList chars among

example : lines "a\r\nb\n\n" = ["a", "b", ""] ∧ lines "a\rb\r" = ["a\rb\r"] := by decide +kernel

end LiveCache.Text

/-! Blanks are the code points with the Unicode property White_Space. One list serves the lexer,
the script reader and every trim, so that they agree on where a word ends. -/

namespace Dataflow.Text

/-- Blank characters other than the space. -/
def rareBlanks : List Char :=
  ['\t', '\n', '\x0b', '\x0c', '\r', '\u0085', '\u00a0', '\u1680', '\u2000', '\u2001', '\u2002',
    '\u2003', '\u2004', '\u2005', '\u2006', '\u2007', '\u2008', '\u2009', '\u200a', '\u2028',
    '\u2029', '\u202f', '\u205f', '\u3000']

def isBlank (c : Char) : Bool := c == ' ' || rareBlanks.contains c

theorem isBlank_of_isWhitespace {c : Char} (h : c.isWhitespace = true) : isBlank c = true := by
  simp only [Char.isWhitespace, Bool.or_eq_true, decide_eq_true_eq] at h
  rcases h with ((rfl | rfl) | rfl) | rfl <;> decide

end Dataflow.Text

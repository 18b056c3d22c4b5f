/-!
# White space

The Unicode property White_Space as a table of ranges, and what the library does with it: trimming
the ends of a text and squeezing it out altogether. The table holds U+0085, U+00A0, U+2028 and
U+3000; it does not hold U+200B, U+FEFF, U+180E or the separators U+001C to U+001F. The laws say
that a squeezed text has no white space left and that squeezing such a text changes nothing.
-/

namespace BuildMatrix.Text

/-- Inclusive code point ranges of the Unicode property White_Space. -/
def whiteSpaceRanges : List (Nat × Nat) :=
  [(0x09, 0x0D), (0x20, 0x20), (0x85, 0x85), (0xA0, 0xA0), (0x1680, 0x1680), (0x2000, 0x200A),
    (0x2028, 0x2029), (0x202F, 0x202F), (0x205F, 0x205F), (0x3000, 0x3000)]

/-- Membership of one character in the property White_Space. -/
def isWhiteSpace (c : Char) : Bool :=
  whiteSpaceRanges.any fun range => range.1 ≤ c.toNat && c.toNat ≤ range.2

/-- The text after its leading white space. -/
def trimStart (text : List Char) : List Char :=
  text.dropWhile isWhiteSpace

/-- The text before its trailing white space. -/
def trimEnd (text : List Char) : List Char :=
  (text.reverse.dropWhile isWhiteSpace).reverse

/-- The text without the white space at its two ends. -/
def trim (text : List Char) : List Char :=
  trimEnd (trimStart text)

/-- The text with every white space character deleted. -/
def squeeze (text : List Char) : List Char :=
  text.filter fun c => !isWhiteSpace c

/-- The class of a text that squeezing leaves alone. -/
def isSolid (text : List Char) : Bool :=
  text.all fun c => !isWhiteSpace c

/-- No white space is left when white space is dropped. -/
theorem isSolid_squeeze (text : List Char) : isSolid (squeeze text) = true := by
  simp [isSolid, squeeze]

/-- A text without white space loses nothing when white space is dropped. -/
theorem squeeze_eq_self {text : List Char} (solid : isSolid text = true) : squeeze text = text := by
  simpa [isSolid, squeeze, List.filter_eq_self] using solid

/-- A text without white space loses nothing at its start. -/
theorem trimStart_eq_self {text : List Char} (solid : isSolid text = true) :
    trimStart text = text := by
  cases text with
  | nil => rfl
  | cons c rest =>
    have head : isWhiteSpace c = false := by
      simp only [isSolid, List.all_cons, Bool.and_eq_true, Bool.not_eq_true'] at solid
      exact solid.1
    simp [trimStart, head]

/-- A text without white space loses nothing at its ends. -/
theorem trim_eq_self {text : List Char} (solid : isSolid text = true) : trim text = text := by
  have backward : isSolid text.reverse = true := by simpa [isSolid] using solid
  have last : text.reverse.dropWhile isWhiteSpace = text.reverse := trimStart_eq_self backward
  rw [trim, trimStart_eq_self solid, trimEnd, last, List.reverse_reverse]

/-- Every character that the core library calls white space is in the table. -/
theorem isWhiteSpace_of_isWhitespace {c : Char} (white : c.isWhitespace = true) :
    isWhiteSpace c = true := by
  simp only [Char.isWhitespace, Bool.or_eq_true, decide_eq_true_eq] at white
  rcases white with ((rfl | rfl) | rfl) | rfl <;> decide

end BuildMatrix.Text

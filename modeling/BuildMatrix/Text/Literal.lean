/-!
# Literals

Reading a fixed text at the start of another one: `after? literal text` is what follows, and it
exists exactly when the text is the literal and something after it.
-/

namespace BuildMatrix.Text

/-- What follows `literal` in a text that starts with it. -/
def after? : (literal text : List Char) → Option (List Char)
  | [], text => some text
  | _ :: _, [] => none
  | expected :: literal, c :: text => if c = expected then after? literal text else none

/-- Something follows a literal exactly when the text is the literal and that. -/
theorem after?_eq_some_iff {literal text rest : List Char} :
    after? literal text = some rest ↔ text = literal ++ rest := by
  induction literal generalizing text with
  | nil => simp [after?]
  | cons expected literal ih =>
    cases text with
    | nil => simp [after?]
    | cons c text =>
      rw [after?]
      split
      · next same => simp [ih, same]
      · next different => simp [different]

/-- What is put behind a literal follows it. -/
@[simp]
theorem after?_append (literal rest : List Char) : after? literal (literal ++ rest) = some rest :=
  after?_eq_some_iff.2 rfl

end BuildMatrix.Text

import BuildMatrix.Proofs.Json.Grammar

/-!
# The reader of JSON texts

The reader reads exactly the texts of the grammar, each as the value that it spells. A number has to
end where its spelling does, which what may follow a value in a text makes sure of; so no text
spells two values.
-/

namespace BuildMatrix.Json

/-! ## White space -/

/-- Space is a blank, a tab, a line feed or a carriage return. -/
theorem isSpace_iff {byte : UInt8} :
    isSpace byte = true ↔ byte = 0x20 ∨ byte = 0x09 ∨ byte = 0x0A ∨ byte = 0x0D := by
  simp [isSpace, or_assoc]

/-- Reading goes on behind white space. -/
theorem Spaced.skipSpace_congr {bytes rest : Bytes} (spaced : Spaced bytes rest) :
    skipSpace bytes = skipSpace rest := by
  obtain ⟨gap, rfl, blank⟩ := spaced
  exact List.dropWhile_append_of_pos fun byte member => isSpace_iff.2 (blank byte member)

/-- White space is skipped up to the token after it. -/
theorem Spaced.skipSpace_eq {bytes more : Bytes} {first : UInt8}
    (spaced : Spaced bytes (first :: more)) (solid : isSpace first = false) :
    skipSpace bytes = first :: more := by
  rw [spaced.skipSpace_congr, skipSpace, List.dropWhile_cons_of_neg (by simp [solid])]

/-- What is skipped is white space. -/
theorem spaced_skipSpace (bytes : Bytes) : Spaced bytes (skipSpace bytes) := by
  refine ⟨bytes.takeWhile isSpace, (List.takeWhile_append_dropWhile).symm, ?_⟩
  intro byte member
  exact isSpace_iff.1 (List.all_eq_true.1 List.all_takeWhile byte member)

/-! ## Numbers are read -/

/-- No number goes on with these bytes. -/
def EndsNumber (rest : Bytes) : Prop :=
  ∀ byte, rest.head? = some byte →
    isDigit byte = false ∧ byte ≠ 0x2E ∧ byte ≠ 0x65 ∧ byte ≠ 0x45

/-- The end of a text ends a number. -/
theorem endsNumber_nil : EndsNumber [] :=
  fun _ first => nomatch first

/-- A token other than a number ends a number. -/
theorem endsNumber_cons {token : UInt8} {rest : Bytes}
    (ends : isDigit token = false ∧ token ≠ 0x2E ∧ token ≠ 0x65 ∧ token ≠ 0x45) :
    EndsNumber (token :: rest) := by
  intro byte first
  obtain rfl : token = byte := Option.some.inj first
  exact ends

/-- White space ends a number. -/
theorem Spaced.endsNumber {after rest : Bytes} (spaced : Spaced after rest)
    (ends : EndsNumber rest) : EndsNumber after := by
  obtain ⟨gap, rfl, blank⟩ := spaced
  cases gap with
  | nil => exact ends
  | cons space gap =>
    refine endsNumber_cons ?_
    rcases blank space (by simp) with rfl | rfl | rfl | rfl <;> decide

/-- A digit is a byte between those of zero and nine. -/
theorem isDigit_iff {byte : UInt8} :
    isDigit byte = true ↔ 0x30 ≤ byte.toNat ∧ byte.toNat ≤ 0x39 := by
  simp only [isDigit, Bool.and_eq_true, decide_eq_true_eq, UInt8.le_iff_toNat_le]
  rfl

/-- Digits are read up to the first byte that is none. -/
theorem digits?_append {run rest : Bytes} (digits : IsDigits run)
    (ends : ∀ byte, rest.head? = some byte → isDigit byte = false) :
    digits? (run ++ rest) = some (run, rest) := by
  have all : ∀ digit ∈ run, isDigit digit = true :=
    fun digit member => isDigit_iff.2 (digits.2 digit member)
  have taken : rest.takeWhile isDigit = [] := by
    cases rest with
    | nil => rfl
    | cons byte rest => exact List.takeWhile_cons_of_neg (by simp [ends byte rfl])
  have dropped : rest.dropWhile isDigit = rest := by
    cases rest with
    | nil => rfl
    | cons byte rest => exact List.dropWhile_cons_of_neg (by simp [ends byte rfl])
  have nonempty : run.isEmpty = false := by simpa using digits.1
  rw [digits?, List.takeWhile_append_of_pos all, List.dropWhile_append_of_pos all, taken, dropped,
    List.append_nil]
  simp [nonempty]

/-- A whole part is read up to what is no digit. -/
theorem whole?_append {whole rest : Bytes} (proper : IsWhole whole)
    (ends : ∀ byte, rest.head? = some byte → isDigit byte = false) :
    whole? (whole ++ rest) = some (whole, rest) := by
  rcases proper with rfl | ⟨digits, positive⟩
  · rfl
  · rw [whole?]
    · exact digits?_append digits ends
    · intro more same
      cases whole with
      | nil => exact digits.1 rfl
      | cons first whole =>
        obtain ⟨rfl, -⟩ := List.cons.inj same
        exact positive rfl

/-- A fraction is read up to what is no digit and no point. -/
theorem fraction?_append {fraction rest : Bytes} (proper : IsFraction fraction)
    (ends : ∀ byte, rest.head? = some byte → isDigit byte = false ∧ byte ≠ 0x2E) :
    fraction? (fraction ++ rest) = some (fraction, rest) := by
  rcases proper with rfl | ⟨run, rfl, digits⟩
  · rw [List.nil_append, fraction?]
    rintro more rfl
    exact (ends 0x2E rfl).2 rfl
  · show (digits? (run ++ rest)).map _ = _
    rw [digits?_append digits fun byte first => (ends byte first).1]
    rfl

/-- The digits of an exponent are read with their sign. -/
theorem signedDigits?_append {sign run rest : Bytes}
    (signed : sign = [] ∨ sign = [0x2B] ∨ sign = [0x2D]) (digits : IsDigits run)
    (ends : ∀ byte, rest.head? = some byte → isDigit byte = false) :
    signedDigits? (sign ++ run ++ rest) = some (sign ++ run, rest) := by
  have read := digits?_append digits ends
  rcases signed with rfl | rfl | rfl
  · have first : ∀ byte more, run ++ rest = byte :: more →
        byte.toNat ≠ 0x2B ∧ byte.toNat ≠ 0x2D := by
      intro byte more same
      cases run with
      | nil => exact absurd rfl digits.1
      | cons digit run =>
        obtain ⟨rfl, -⟩ := List.cons.inj same
        have range := digits.2 digit (by simp)
        omega
    rw [List.nil_append, signedDigits?]
    · exact read
    · exact fun more same => (first 0x2B more same).1 rfl
    · exact fun more same => (first 0x2D more same).2 rfl
  · show (digits? (run ++ rest)).map _ = _
    rw [read]
    rfl
  · show (digits? (run ++ rest)).map _ = _
    rw [read]
    rfl

/-- An exponent is read up to what is no digit and no exponent mark. -/
theorem exponent?_append {exponent rest : Bytes} (proper : IsExponent exponent)
    (ends : ∀ byte, rest.head? = some byte →
      isDigit byte = false ∧ byte ≠ 0x65 ∧ byte ≠ 0x45) :
    exponent? (exponent ++ rest) = some (exponent, rest) := by
  rcases proper with rfl | ⟨letter, sign, run, rfl, known, signed, digits⟩
  · rw [List.nil_append, exponent?]
    · rintro more rfl
      exact (ends 0x65 rfl).2.1 rfl
    · rintro more rfl
      exact (ends 0x45 rfl).2.2 rfl
  · have read := signedDigits?_append signed digits fun byte first => (ends byte first).1
    rcases known with rfl | rfl
    · show (signedDigits? (sign ++ run ++ rest)).map _ = _
      rw [read]
      rfl
    · show (signedDigits? (sign ++ run ++ rest)).map _ = _
      rw [read]
      rfl

/-- What follows a whole part starts a fraction or an exponent, or ends the number. -/
theorem head_of_fraction {fraction exponent rest : Bytes} (first : IsFraction fraction)
    (second : IsExponent exponent) (ends : EndsNumber rest) {byte : UInt8}
    (head : (fraction ++ (exponent ++ rest)).head? = some byte) : isDigit byte = false := by
  rcases first with rfl | ⟨run, rfl, -⟩
  · rcases second with rfl | ⟨letter, sign, run, rfl, known, -⟩
    · exact (ends byte head).1
    · obtain rfl : letter = byte := Option.some.inj head
      rcases known with rfl | rfl <;> decide
  · obtain rfl : 0x2E = byte := Option.some.inj head
    decide

/-- A number without a sign is read up to what may end it. -/
theorem unsigned?_append {spelling rest : Bytes} (proper : IsUnsigned spelling)
    (ends : EndsNumber rest) : unsigned? (spelling ++ rest) = some (spelling, rest) := by
  obtain ⟨whole, fraction, exponent, rfl, first, second, third⟩ := proper
  have afterFraction : ∀ byte, (exponent ++ rest).head? = some byte →
      isDigit byte = false ∧ byte ≠ 0x2E := by
    intro byte head
    rcases third with rfl | ⟨letter, sign, run, rfl, known, -⟩
    · exact ⟨(ends byte head).1, (ends byte head).2.1⟩
    · obtain rfl : letter = byte := Option.some.inj head
      rcases known with rfl | rfl <;> decide
  have wholeRead := whole?_append first fun byte head => head_of_fraction second third ends head
  have fractionRead := fraction?_append second afterFraction
  have exponentRead := exponent?_append third fun byte head =>
    ⟨(ends byte head).1, (ends byte head).2.2⟩
  rw [List.append_assoc, List.append_assoc, unsigned?, wholeRead]
  simp only [bind, Option.bind_some, fractionRead, exponentRead]

/-- A number is read up to its end. -/
theorem number?_append {spelling rest : Bytes} (proper : IsNumber spelling)
    (ends : EndsNumber rest) : number? (spelling ++ rest) = some (spelling, rest) := by
  rcases proper with unsigned | ⟨spelling, rfl, unsigned⟩
  · obtain ⟨first, more, rfl, range⟩ := unsigned.head
    rw [number?]
    · exact unsigned?_append unsigned ends
    · intro after same
      obtain ⟨rfl, -⟩ := List.cons.inj same
      exact absurd range.1 (by decide)
  · show (unsigned? (spelling ++ rest)).map _ = _
    rw [unsigned?_append unsigned ends]
    rfl

/-! ## Texts are read -/

/-- A value begins with a byte that is neither white space nor a closing bracket. -/
theorem Spells.head {bytes rest : Bytes} {tree : Tree} (spelled : Spells bytes tree rest) :
    ∃ first more, bytes = first :: more ∧ isSpace first = false ∧ first ≠ 0x5D := by
  cases spelled with
  | number proper =>
    obtain unsigned | ⟨spelling, rfl, -⟩ := proper
    · obtain ⟨first, more, rfl, low, high⟩ := unsigned.head
      refine ⟨first, more ++ rest, rfl, ?_, ?_⟩
      · rw [Bool.eq_false_iff, Ne, isSpace_iff]
        rintro (rfl | rfl | rfl | rfl) <;> exact absurd low (by decide)
      · rintro rfl
        exact absurd high (by decide)
    · exact ⟨0x2D, spelling ++ rest, rfl, by decide, by decide⟩
  | _ => exact ⟨_, _, rfl, by decide, by decide⟩

/-- White space in front of a value is skipped up to the value. -/
theorem Spells.skipSpace_eq {bytes value rest : Bytes} {tree : Tree}
    (spelled : Spells value tree rest) (before : Spaced bytes value) : skipSpace bytes = value := by
  obtain ⟨first, more, rfl, solid, -⟩ := spelled.head
  exact before.skipSpace_eq solid

/-- White space in front of a member is skipped up to its name. -/
theorem SpellsMember.skipSpace_eq {bytes rest : Bytes} {member : Bytes × Tree}
    (spelled : SpellsMember bytes member rest) :
    ∃ more, skipSpace bytes = 0x22 :: more := by
  obtain ⟨before, -, -, -, -⟩ := spelled
  exact ⟨_, before.skipSpace_eq (by decide)⟩

/-- A number is read as the value that it is. -/
theorem value?_number {spelling rest : Bytes} (proper : IsNumber spelling) (ends : EndsNumber rest)
    (depth : Nat) : value? (depth + 1) (spelling ++ rest) = some (.number spelling, rest) := by
  have head : ∃ first more, spelling = first :: more ∧ first.toNat ≤ 0x39 ∧ first ≠ 0x22 := by
    obtain unsigned | ⟨unsigned, rfl, -⟩ := proper
    · obtain ⟨first, more, rfl, low, high⟩ := unsigned.head
      refine ⟨first, more, rfl, high, ?_⟩
      rintro rfl
      exact absurd low (by decide)
    · exact ⟨0x2D, unsigned, rfl, by decide, by decide⟩
  obtain ⟨first, more, rfl, high, unquoted⟩ := head
  have other : ∀ byte after, first :: more ++ rest = byte :: after → 0x39 < byte.toNat → False := by
    intro byte after same above
    obtain ⟨rfl, -⟩ := List.cons.inj same
    omega
  rw [value?, number?_append proper ends]
  · rfl
  · exact fun _ same => other _ _ same (by decide)
  · exact fun _ same => other _ _ same (by decide)
  · exact fun _ same => other _ _ same (by decide)
  · exact fun _ same => unquoted (List.cons.inj same).1
  · exact fun _ same => other _ _ same (by decide)
  · exact fun _ same => other _ _ same (by decide)

/-- A string is read up to its closing quote. -/
theorem stringBody?_append {body : Bytes} (proper : IsBody body) (rest : Bytes) :
    stringBody? (body ++ 0x22 :: rest) = some (body, rest) := by
  induction proper with
  | nil => rfl
  | @plain byte body visible unquoted unescaped _ ih =>
    have kept : (0x20 ≤ byte && byte ≠ 0x5C) = true := by
      simp only [Bool.and_eq_true, decide_eq_true_eq, UInt8.le_iff_toNat_le]
      exact ⟨visible, unescaped⟩
    rw [List.cons_append, stringBody?, ih, kept]
    · rfl
    · exact unquoted
    · exact fun _ _ _ _ _ same => absurd same unescaped
    · exact fun _ _ same => absurd same unescaped
  | @letter letter c body known _ ih =>
    have read := (escapedByte?_of_known known).2
    rw [List.cons_append, List.cons_append, stringBody?, ih, read]
    · rfl
    · intro _ _ _ _ _ same
      rw [same] at read
      exact nomatch read
  | unit spelled _ ih =>
    simp only [List.cons_append]
    rw [stringBody?, ih, codeUnit?_eq_some_iff.2 spelled]
    rfl

/-- An array whose first token does not close it is read item by item. -/
theorem value?_array {inner rest : Bytes} {items : List Tree} {depth : Nat}
    (spelled : SpellsItems inner items rest) (read : items? depth inner = some (items, rest)) :
    value? (depth + 1) (0x5B :: inner) = some (.array items, rest) := by
  have opened : ∃ first more, skipSpace inner = first :: more ∧ first ≠ 0x5D := by
    cases spelled with
    | last before spelled _ | more before spelled _ _ =>
      rw [spelled.skipSpace_eq before]
      obtain ⟨first, more, rfl, -, other⟩ := spelled.head
      exact ⟨first, more, rfl, other⟩
  obtain ⟨first, more, skipped, other⟩ := opened
  rw [value?]
  split
  · next after same =>
    rw [skipped] at same
    exact absurd (List.cons.inj same).1 other
  · rw [read]
    rfl

/-- An object whose first token does not close it is read member by member. -/
theorem value?_object {inner rest : Bytes} {members : List (Bytes × Tree)} {depth : Nat}
    (spelled : SpellsMembers inner members rest)
    (read : members? depth inner = some (members, rest)) :
    value? (depth + 1) (0x7B :: inner) = some (.object members, rest) := by
  have opened : ∃ more, skipSpace inner = 0x22 :: more := by
    cases spelled with
    | last spelled _ | more spelled _ _ => exact spelled.skipSpace_eq
  obtain ⟨more, skipped⟩ := opened
  rw [value?, skipped, read]
  rfl

/-- What is read once a member has been: the token after it ends the object or asks for more. -/
def afterMember? (depth : Nat) (member : Bytes × Tree) (rest : Bytes) :
    Option (List (Bytes × Tree) × Bytes) :=
  match skipSpace rest with
  | 0x7D :: after => some ([member], after)
  | 0x2C :: more => (members? depth more).map fun (members, after) => (member :: members, after)
  | _ => none

/-- A member is read as its name and its value, and then the token after it decides. -/
theorem members?_member {bytes name afterName beforeValue value rest : Bytes} {item : Tree}
    {depth : Nat} (before : Spaced bytes (0x22 :: (name ++ 0x22 :: afterName)))
    (proper : IsBody name) (colon : Spaced afterName (0x3A :: beforeValue))
    (gap : Spaced beforeValue value) (spelled : Spells value item rest)
    (read : value? depth value = some (item, rest)) :
    members? (depth + 1) bytes = afterMember? depth (name, item) rest := by
  rw [members?, before.skipSpace_eq (by decide)]
  simp only [stringBody?_append proper, colon.skipSpace_eq (by decide), spelled.skipSpace_eq gap,
    read]
  rfl

/-- A value in an object is shorter than what its member begins. -/
theorem length_le_of_member {bytes name afterName beforeValue value : Bytes}
    (before : Spaced bytes (0x22 :: (name ++ 0x22 :: afterName)))
    (colon : Spaced afterName (0x3A :: beforeValue)) (gap : Spaced beforeValue value) :
    value.length < bytes.length := by
  have start := before.length_le
  have separator := colon.length_le
  have space := gap.length_le
  simp only [List.length_cons, List.length_append] at start separator
  omega

mutual

/-- A spelled value is read, with a depth of two for every byte: one for the value and one for the
list that it stands in. -/
theorem value?_of_spells (depth : Nat) {bytes rest : Bytes} {tree : Tree} :
    Spells bytes tree rest → 2 * bytes.length ≤ depth → EndsNumber rest →
      value? depth bytes = some (tree, rest) := by
  intro spelled deep ends
  -- The recursion is on the derivation; every part of it is shorter than the whole.
  obtain ⟨depth, rfl⟩ : ∃ less, depth = less + 1 := by
    have long := spelled.length_lt
    exact ⟨depth - 1, by omega⟩
  cases spelled with
  | null => rfl
  | yes => rfl
  | no => rfl
  | number proper => exact value?_number proper ends depth
  | @string body rest proper =>
    show (stringBody? (body ++ 0x22 :: rest)).map _ = _
    rw [stringBody?_append proper]
    rfl
  | emptyArray close =>
    rw [value?, close.skipSpace_eq (by decide)]
    rfl
  | array spelled =>
    rw [List.length_cons] at deep
    exact value?_array spelled (items?_of_spells depth spelled (by omega))
  | emptyObject close =>
    rw [value?, close.skipSpace_eq (by decide)]
    rfl
  | object spelled =>
    rw [List.length_cons] at deep
    exact value?_object spelled (members?_of_spells depth spelled (by omega))

/-- The items that a text spells are read, when there is depth for its length. -/
theorem items?_of_spells (depth : Nat) {bytes rest : Bytes} {items : List Tree} :
    SpellsItems bytes items rest → 2 * bytes.length + 1 ≤ depth →
      items? depth bytes = some (items, rest) := by
  intro spelled deep
  obtain ⟨depth, rfl⟩ : ∃ less, depth = less + 1 := ⟨depth - 1, by omega⟩
  cases spelled with
  | last before spelled close =>
    have start := before.length_le
    have read := value?_of_spells depth spelled (by omega)
      (close.endsNumber (endsNumber_cons (by decide)))
    rw [items?, spelled.skipSpace_eq before, read]
    simp only [close.skipSpace_eq (by decide)]
  | more before spelled comma others =>
    have start := before.length_le
    have value := spelled.length_lt
    have separator := comma.length_le
    rw [List.length_cons] at separator
    have read := value?_of_spells depth spelled (by omega)
      (comma.endsNumber (endsNumber_cons (by decide)))
    have remaining := items?_of_spells depth others (by omega)
    rw [items?, spelled.skipSpace_eq before, read]
    simp only [comma.skipSpace_eq (by decide), remaining, Option.map_some]

/-- The members that a text spells are read, when there is depth for its length. -/
theorem members?_of_spells (depth : Nat) {bytes rest : Bytes} {members : List (Bytes × Tree)} :
    SpellsMembers bytes members rest → 2 * bytes.length + 1 ≤ depth →
      members? depth bytes = some (members, rest) := by
  intro spelled deep
  obtain ⟨depth, rfl⟩ : ∃ less, depth = less + 1 := ⟨depth - 1, by omega⟩
  cases spelled with
  | last spelled close =>
    obtain ⟨before, proper, colon, gap, spelled⟩ := spelled
    have shorter := length_le_of_member before colon gap
    have read := value?_of_spells depth spelled (by omega)
      (close.endsNumber (endsNumber_cons (by decide)))
    rw [members?_member before proper colon gap spelled read, afterMember?,
      close.skipSpace_eq (by decide)]
    rfl
  | more spelled comma others =>
    obtain ⟨before, proper, colon, gap, spelled⟩ := spelled
    have shorter := length_le_of_member before colon gap
    have value := spelled.length_lt
    have separator := comma.length_le
    rw [List.length_cons] at separator
    have read := value?_of_spells depth spelled (by omega)
      (comma.endsNumber (endsNumber_cons (by decide)))
    have remaining := members?_of_spells depth others (by omega)
    rw [members?_member before proper colon gap spelled read, afterMember?,
      comma.skipSpace_eq (by decide)]
    show (members? depth _).map _ = _
    rw [remaining]
    rfl

end

/-- Every JSON text is read as the value that it spells. -/
theorem read?_of_isText {bytes : Bytes} {tree : Tree} (text : IsText bytes tree) :
    read? bytes = some tree := by
  obtain ⟨value, rest, before, spelled, after⟩ := text
  have shorter := before.length_le
  have read := value?_of_spells (2 * bytes.length + 2) spelled (by omega)
    (after.endsNumber endsNumber_nil)
  rw [read?, spelled.skipSpace_eq before, read]
  have ended : skipSpace rest = [] := after.skipSpace_congr
  simp only [ended, List.isEmpty_nil, if_true]

/-! ## Nothing else is read -/

/-- What is made of a part that was read is read up to the same place. -/
theorem map_eq_some_iff {α β : Type} {read : Option (α × Bytes)} {make : α → β} {result : β}
    {rest : Bytes} :
    (read.map fun (part, after) => (make part, after)) = some (result, rest) ↔
      ∃ part, result = make part ∧ read = some (part, rest) := by
  rw [Option.map_eq_some_iff]
  constructor
  · rintro ⟨⟨part, after⟩, rfl, same⟩
    obtain ⟨rfl, rfl⟩ := Prod.mk.inj same
    exact ⟨part, rfl, rfl⟩
  · rintro ⟨part, rfl, rfl⟩
    exact ⟨(part, rest), rfl, rfl⟩

/-- What is read as digits are digits. -/
theorem isDigits_of_digits? {bytes run rest : Bytes} (read : digits? bytes = some (run, rest)) :
    bytes = run ++ rest ∧ IsDigits run := by
  simp only [digits?, Option.ite_none_left_eq_some, Option.some.injEq, Prod.mk.injEq] at read
  obtain ⟨nonempty, rfl, rfl⟩ := read
  refine ⟨List.takeWhile_append_dropWhile.symm, by simpa using nonempty, ?_⟩
  intro digit member
  exact isDigit_iff.1 (List.all_eq_true.1 List.all_takeWhile digit member)

/-- What is read as a whole part is one. -/
theorem isWhole_of_whole? {bytes whole rest : Bytes} (read : whole? bytes = some (whole, rest)) :
    bytes = whole ++ rest ∧ IsWhole whole := by
  unfold whole? at read
  split at read
  · simp only [Option.some.injEq, Prod.mk.injEq] at read
    obtain ⟨rfl, rfl⟩ := read
    exact ⟨rfl, .inl rfl⟩
  · next positive =>
    obtain ⟨rfl, digits⟩ := isDigits_of_digits? read
    refine ⟨rfl, .inr ⟨digits, fun zero => ?_⟩⟩
    obtain ⟨more, rfl⟩ := List.head?_eq_some_iff.1 zero
    exact positive (more ++ rest) rfl

/-- What is read as a fraction is one, or nothing. -/
theorem isFraction_of_fraction? {bytes fraction rest : Bytes}
    (read : fraction? bytes = some (fraction, rest)) :
    bytes = fraction ++ rest ∧ IsFraction fraction := by
  unfold fraction? at read
  split at read
  · obtain ⟨run, rfl, digits⟩ := map_eq_some_iff.1 read
    obtain ⟨rfl, isDigits⟩ := isDigits_of_digits? digits
    exact ⟨rfl, .inr ⟨run, rfl, isDigits⟩⟩
  · simp only [Option.some.injEq, Prod.mk.injEq] at read
    obtain ⟨rfl, rfl⟩ := read
    exact ⟨rfl, .inl rfl⟩

/-- What is read as digits with a sign is a run of digits, with one sign in front at most. -/
theorem signed_of_signedDigits? {bytes signed rest : Bytes}
    (read : signedDigits? bytes = some (signed, rest)) :
    bytes = signed ++ rest ∧ ∃ sign run, signed = sign ++ run ∧
      (sign = [] ∨ sign = [0x2B] ∨ sign = [0x2D]) ∧ IsDigits run := by
  unfold signedDigits? at read
  split at read
  · obtain ⟨run, rfl, digits⟩ := map_eq_some_iff.1 read
    obtain ⟨rfl, isDigits⟩ := isDigits_of_digits? digits
    exact ⟨rfl, [0x2B], run, rfl, .inr (.inl rfl), isDigits⟩
  · obtain ⟨run, rfl, digits⟩ := map_eq_some_iff.1 read
    obtain ⟨rfl, isDigits⟩ := isDigits_of_digits? digits
    exact ⟨rfl, [0x2D], run, rfl, .inr (.inr rfl), isDigits⟩
  · obtain ⟨rfl, isDigits⟩ := isDigits_of_digits? read
    exact ⟨rfl, [], signed, rfl, .inl rfl, isDigits⟩

/-- What is read as an exponent is one, or nothing. -/
theorem isExponent_of_exponent? {bytes exponent rest : Bytes}
    (read : exponent? bytes = some (exponent, rest)) :
    bytes = exponent ++ rest ∧ IsExponent exponent := by
  unfold exponent? at read
  split at read
  · obtain ⟨signed, rfl, digits⟩ := map_eq_some_iff.1 read
    obtain ⟨rfl, sign, run, rfl, known, isDigits⟩ := signed_of_signedDigits? digits
    exact ⟨rfl, .inr ⟨0x65, sign, run, rfl, .inl rfl, known, isDigits⟩⟩
  · obtain ⟨signed, rfl, digits⟩ := map_eq_some_iff.1 read
    obtain ⟨rfl, sign, run, rfl, known, isDigits⟩ := signed_of_signedDigits? digits
    exact ⟨rfl, .inr ⟨0x45, sign, run, rfl, .inr rfl, known, isDigits⟩⟩
  · simp only [Option.some.injEq, Prod.mk.injEq] at read
    obtain ⟨rfl, rfl⟩ := read
    exact ⟨rfl, .inl rfl⟩

/-- What is read as a number without a sign is one. -/
theorem isUnsigned_of_unsigned? {bytes spelling rest : Bytes}
    (read : unsigned? bytes = some (spelling, rest)) :
    bytes = spelling ++ rest ∧ IsUnsigned spelling := by
  obtain ⟨⟨whole, afterWhole⟩, first, read⟩ := Option.bind_eq_some_iff.1 read
  obtain ⟨⟨fraction, afterFraction⟩, second, read⟩ := Option.bind_eq_some_iff.1 read
  obtain ⟨⟨exponent, after⟩, third, read⟩ := Option.bind_eq_some_iff.1 read
  simp only [Option.some.injEq, Prod.mk.injEq] at read
  obtain ⟨rfl, rfl⟩ := read
  obtain ⟨rfl, isWhole⟩ := isWhole_of_whole? first
  obtain ⟨rfl, isFraction⟩ := isFraction_of_fraction? second
  obtain ⟨rfl, isExponent⟩ := isExponent_of_exponent? third
  exact ⟨by simp only [List.append_assoc],
    whole, fraction, exponent, rfl, isWhole, isFraction, isExponent⟩

/-- What is read as a number is a number. -/
theorem isNumber_of_number? {bytes spelling rest : Bytes}
    (read : number? bytes = some (spelling, rest)) :
    bytes = spelling ++ rest ∧ IsNumber spelling := by
  unfold number? at read
  split at read
  · obtain ⟨unsigned, rfl, digits⟩ := map_eq_some_iff.1 read
    obtain ⟨rfl, isUnsigned⟩ := isUnsigned_of_unsigned? digits
    exact ⟨rfl, .inr ⟨unsigned, rfl, isUnsigned⟩⟩
  · obtain ⟨rfl, isUnsigned⟩ := isUnsigned_of_unsigned? read
    exact ⟨rfl, .inl isUnsigned⟩

/-- What is read as a string may stand between quotes. -/
theorem isBody_of_stringBody? {bytes body rest : Bytes}
    (read : stringBody? bytes = some (body, rest)) :
    bytes = body ++ 0x22 :: rest ∧ IsBody body := by
  fun_induction stringBody? bytes generalizing body rest with
  | case1 => exact nomatch read
  | case2 more =>
    obtain ⟨rfl, rfl⟩ := Prod.mk.inj (Option.some.inj read)
    exact ⟨rfl, .nil⟩
  | case3 first second third fourth more ih =>
    obtain ⟨unit, spelled, read⟩ := Option.bind_eq_some_iff.1 read
    obtain ⟨⟨inner, after⟩, inside, same⟩ := Option.bind_eq_some_iff.1 read
    obtain ⟨rfl, rfl⟩ := Prod.mk.inj (Option.some.inj same)
    obtain ⟨rfl, proper⟩ := ih inside
    exact ⟨rfl, .unit (codeUnit?_eq_some_iff.1 spelled) proper⟩
  | case4 letter more _ ih =>
    obtain ⟨byte, known, read⟩ := Option.bind_eq_some_iff.1 read
    obtain ⟨⟨inner, after⟩, inside, same⟩ := Option.bind_eq_some_iff.1 read
    obtain ⟨rfl, rfl⟩ := Prod.mk.inj (Option.some.inj same)
    obtain ⟨rfl, proper⟩ := ih inside
    obtain ⟨c, escapes⟩ := known_of_escapedByte? known
    exact ⟨rfl, .letter escapes proper⟩
  | case5 byte more unquoted _ _ ih =>
    obtain ⟨_, kept, read⟩ := Option.bind_eq_some_iff.1 read
    obtain ⟨⟨inner, after⟩, inside, same⟩ := Option.bind_eq_some_iff.1 read
    obtain ⟨rfl, rfl⟩ := Prod.mk.inj (Option.some.inj same)
    obtain ⟨rfl, proper⟩ := ih inside
    have plain : (0x20 ≤ byte && byte ≠ 0x5C) = true := by
      by_contra other
      rw [guard, if_neg other] at kept
      exact nomatch kept
    simp only [Bool.and_eq_true, decide_eq_true_eq, UInt8.le_iff_toNat_le] at plain
    exact ⟨rfl, .plain plain.1 unquoted plain.2 proper⟩

section

variable {depth : Nat} {bytes rest : Bytes}
  (values : ∀ {bytes tree rest}, value? depth bytes = some (tree, rest) → Spells bytes tree rest)
  (lists : ∀ {bytes items rest}, items? depth bytes = some (items, rest) →
    SpellsItems bytes items rest)
  (objects : ∀ {bytes members rest}, members? depth bytes = some (members, rest) →
    SpellsMembers bytes members rest)

include lists objects in
/-- One step deeper, a value is still spelled. -/
theorem spells_of_value?_succ {tree : Tree} (read : value? (depth + 1) bytes = some (tree, rest)) :
    Spells bytes tree rest := by
  unfold value? at read
  split at read
  · obtain ⟨rfl, rfl⟩ := Prod.mk.inj (Option.some.inj read)
    exact .null
  · obtain ⟨rfl, rfl⟩ := Prod.mk.inj (Option.some.inj read)
    exact .yes
  · obtain ⟨rfl, rfl⟩ := Prod.mk.inj (Option.some.inj read)
    exact .no
  · obtain ⟨body, rfl, inside⟩ := map_eq_some_iff.1 read
    obtain ⟨rfl, proper⟩ := isBody_of_stringBody? inside
    exact .string proper
  · next inner =>
    have spaced := spaced_skipSpace inner
    split at read
    · next after close =>
      obtain ⟨rfl, rfl⟩ := Prod.mk.inj (Option.some.inj read)
      rw [close] at spaced
      exact .emptyArray spaced
    · obtain ⟨items, rfl, inside⟩ := map_eq_some_iff.1 read
      exact .array (lists inside)
  · next inner =>
    have spaced := spaced_skipSpace inner
    split at read
    · next after close =>
      obtain ⟨rfl, rfl⟩ := Prod.mk.inj (Option.some.inj read)
      rw [close] at spaced
      exact .emptyObject spaced
    · obtain ⟨members, rfl, inside⟩ := map_eq_some_iff.1 read
      exact .object (objects inside)
  · obtain ⟨spelling, rfl, inside⟩ := map_eq_some_iff.1 read
    obtain ⟨rfl, number⟩ := isNumber_of_number? inside
    exact .number number

include values lists in
/-- What is read as the items of an array spells them, if that is so one level deeper. -/
theorem spellsItems_of_items?_succ {items : List Tree}
    (read : items? (depth + 1) bytes = some (items, rest)) : SpellsItems bytes items rest := by
  have before := spaced_skipSpace bytes
  unfold items? at read
  split at read
  · exact nomatch read
  · next item after found =>
    have spaced := spaced_skipSpace after
    split at read
    · next more close =>
      obtain ⟨rfl, rfl⟩ := Prod.mk.inj (Option.some.inj read)
      rw [close] at spaced
      exact .last before (values found) spaced
    · next more comma =>
      obtain ⟨others, rfl, inside⟩ := map_eq_some_iff.1 read
      rw [comma] at spaced
      exact .more before (values found) spaced (lists inside)
    · exact nomatch read

include values objects in
/-- What is read as the members of an object spells them, if that is so one level deeper. -/
theorem spellsMembers_of_members?_succ {members : List (Bytes × Tree)}
    (read : members? (depth + 1) bytes = some (members, rest)) :
    SpellsMembers bytes members rest := by
  have before := spaced_skipSpace bytes
  unfold members? at read
  split at read
  · next quoted opened =>
    rw [opened] at before
    split at read
    · exact nomatch read
    · next name afterName named =>
      obtain ⟨rfl, proper⟩ := isBody_of_stringBody? named
      have colon := spaced_skipSpace afterName
      split at read
      · next beforeValue separated =>
        rw [separated] at colon
        split at read
        · exact nomatch read
        · next item after found =>
          have member : SpellsMember bytes (name, item) after :=
            .mk before proper colon (spaced_skipSpace beforeValue) (values found)
          have spaced := spaced_skipSpace after
          split at read
          · next more close =>
            obtain ⟨rfl, rfl⟩ := Prod.mk.inj (Option.some.inj read)
            rw [close] at spaced
            exact .last member spaced
          · next more comma =>
            obtain ⟨others, rfl, inside⟩ := map_eq_some_iff.1 read
            rw [comma] at spaced
            exact .more member spaced (objects inside)
          · exact nomatch read
      · exact nomatch read
  · exact nomatch read

end

/-- What is read at any depth is spelled. -/
theorem spells_of_value? (depth : Nat) :
    (∀ {bytes tree rest}, value? depth bytes = some (tree, rest) → Spells bytes tree rest) ∧
      (∀ {bytes items rest}, items? depth bytes = some (items, rest) →
        SpellsItems bytes items rest) ∧
      ∀ {bytes members rest}, members? depth bytes = some (members, rest) →
        SpellsMembers bytes members rest := by
  induction depth with
  | zero =>
    refine ⟨fun read => ?_, fun read => ?_, fun read => ?_⟩
    · exact nomatch read
    · exact nomatch read
    · exact nomatch read
  | succ depth ih =>
    obtain ⟨values, lists, objects⟩ := ih
    exact ⟨spells_of_value?_succ lists objects, spellsItems_of_items?_succ values lists,
      spellsMembers_of_members?_succ values objects⟩

/-- The reader reads exactly the JSON texts, each as the value that it spells. -/
theorem read?_eq_some_iff {bytes : Bytes} {tree : Tree} :
    read? bytes = some tree ↔ IsText bytes tree := by
  refine ⟨fun read => ?_, read?_of_isText⟩
  have before := spaced_skipSpace bytes
  rw [read?] at read
  split at read
  · exact nomatch read
  · next found rest value =>
    simp only [Option.ite_none_right_eq_some, List.isEmpty_iff, Option.some.injEq] at read
    obtain ⟨ended, rfl⟩ := read
    have after := spaced_skipSpace rest
    rw [ended] at after
    exact ⟨skipSpace bytes, rest, before, (spells_of_value? _).1 value, after⟩

/-- A JSON text spells one value. -/
theorem IsText.unique {bytes : Bytes} {first second : Tree} (one : IsText bytes first)
    (other : IsText bytes second) : first = second := by
  have read := read?_eq_some_iff.2 one
  rw [read?_eq_some_iff.2 other] at read
  exact (Option.some.inj read).symm

end BuildMatrix.Json

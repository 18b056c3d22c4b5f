import BuildMatrix.Proofs.Json.Strings

/-!
# The grammar of JSON texts

Which bytes spell a JSON value, stated without the reader: a relation between bytes, the value at
their start and the bytes after it. White space may stand around every token.
-/

namespace BuildMatrix.Json

/-! ## Tokens -/

/-- The bytes are white space and then the rest. -/
def Spaced (bytes rest : Bytes) : Prop :=
  ∃ gap, bytes = gap ++ rest ∧
    ∀ byte ∈ gap, byte = 0x20 ∨ byte = 0x09 ∨ byte = 0x0A ∨ byte = 0x0D

/-- A run of decimal digits. -/
def IsDigits (run : Bytes) : Prop :=
  run ≠ [] ∧ ∀ digit ∈ run, 0x30 ≤ digit.toNat ∧ digit.toNat ≤ 0x39

/-- The digits before the point: zero alone, or digits that start with another one. -/
def IsWhole (run : Bytes) : Prop :=
  run = [0x30] ∨ (IsDigits run ∧ run.head? ≠ some 0x30)

/-- Nothing, or a point and digits. -/
def IsFraction (bytes : Bytes) : Prop :=
  bytes = [] ∨ ∃ run, bytes = 0x2E :: run ∧ IsDigits run

/-- Nothing, or the letter of an exponent, a sign or none, and digits. -/
def IsExponent (bytes : Bytes) : Prop :=
  bytes = [] ∨ ∃ letter sign run, bytes = letter :: (sign ++ run) ∧
    (letter = 0x65 ∨ letter = 0x45) ∧ (sign = [] ∨ sign = [0x2B] ∨ sign = [0x2D]) ∧ IsDigits run

/-- A number without its sign. -/
def IsUnsigned (bytes : Bytes) : Prop :=
  ∃ whole fraction exponent, bytes = whole ++ fraction ++ exponent ∧
    IsWhole whole ∧ IsFraction fraction ∧ IsExponent exponent

/-- A number with a minus sign or none. -/
def IsNumber (bytes : Bytes) : Prop :=
  IsUnsigned bytes ∨ ∃ unsigned, bytes = 0x2D :: unsigned ∧ IsUnsigned unsigned

/-! ## Values -/

mutual

/-- The bytes begin with a value, and the rest follows it. -/
inductive Spells : Bytes → Tree → Bytes → Prop where
  /-- The literal for nothing. -/
  | null {rest : Bytes} : Spells (0x6E :: 0x75 :: 0x6C :: 0x6C :: rest) .null rest
  /-- The literal for truth. -/
  | yes {rest : Bytes} : Spells (0x74 :: 0x72 :: 0x75 :: 0x65 :: rest) (.boolean true) rest
  /-- The literal for falsehood. -/
  | no {rest : Bytes} :
      Spells (0x66 :: 0x61 :: 0x6C :: 0x73 :: 0x65 :: rest) (.boolean false) rest
  /-- A number as it is spelled. -/
  | number {spelling rest : Bytes} (proper : IsNumber spelling) :
      Spells (spelling ++ rest) (.number spelling) rest
  /-- A string between its quotes. -/
  | string {body rest : Bytes} (proper : IsBody body) :
      Spells (0x22 :: (body ++ 0x22 :: rest)) (.string body) rest
  /-- Brackets with nothing but space between them. -/
  | emptyArray {inner rest : Bytes} (close : Spaced inner (0x5D :: rest)) :
      Spells (0x5B :: inner) (.array []) rest
  /-- An opening bracket, items and the closing one. -/
  | array {inner rest : Bytes} {items : List Tree} (spelled : SpellsItems inner items rest) :
      Spells (0x5B :: inner) (.array items) rest
  /-- Braces with nothing but space between them. -/
  | emptyObject {inner rest : Bytes} (close : Spaced inner (0x7D :: rest)) :
      Spells (0x7B :: inner) (.object []) rest
  /-- An opening brace, members and the closing one. -/
  | object {inner rest : Bytes} {members : List (Bytes × Tree)}
      (spelled : SpellsMembers inner members rest) : Spells (0x7B :: inner) (.object members) rest

/-- The bytes begin with the items of an array and its closing bracket. -/
inductive SpellsItems : Bytes → List Tree → Bytes → Prop where
  /-- The last item, with the bracket behind it. -/
  | last {bytes value after rest : Bytes} {item : Tree} (before : Spaced bytes value)
      (spelled : Spells value item after) (close : Spaced after (0x5D :: rest)) :
      SpellsItems bytes [item] rest
  /-- An item, with a comma and further ones behind it. -/
  | more {bytes value after next rest : Bytes} {item : Tree} {items : List Tree}
      (before : Spaced bytes value) (spelled : Spells value item after)
      (comma : Spaced after (0x2C :: next)) (others : SpellsItems next items rest) :
      SpellsItems bytes (item :: items) rest

/-- The bytes begin with a member of an object, which is its name, a colon and its value. -/
inductive SpellsMember : Bytes → Bytes × Tree → Bytes → Prop where
  /-- Space may stand before the name and around the colon. -/
  | mk {bytes name afterName beforeValue value rest : Bytes} {item : Tree}
      (before : Spaced bytes (0x22 :: (name ++ 0x22 :: afterName))) (proper : IsBody name)
      (colon : Spaced afterName (0x3A :: beforeValue)) (gap : Spaced beforeValue value)
      (spelled : Spells value item rest) : SpellsMember bytes (name, item) rest

/-- The bytes begin with the members of an object and its closing brace. -/
inductive SpellsMembers : Bytes → List (Bytes × Tree) → Bytes → Prop where
  /-- The last member, with the brace behind it. -/
  | last {bytes after rest : Bytes} {member : Bytes × Tree}
      (spelled : SpellsMember bytes member after) (close : Spaced after (0x7D :: rest)) :
      SpellsMembers bytes [member] rest
  /-- A member, with a comma and further ones behind it. -/
  | more {bytes after next rest : Bytes} {member : Bytes × Tree} {members : List (Bytes × Tree)}
      (spelled : SpellsMember bytes member after) (comma : Spaced after (0x2C :: next))
      (others : SpellsMembers next members rest) : SpellsMembers bytes (member :: members) rest

end

/-- Every string and every name in a value may stand between quotes. -/
inductive Tree.Proper : Tree → Prop where
  /-- The literal holds no string. -/
  | null : Proper .null
  /-- A truth value holds none. -/
  | boolean (value : Bool) : Proper (.boolean value)
  /-- A number holds none. -/
  | number (spelling : Bytes) : Proper (.number spelling)
  /-- A string may stand between quotes. -/
  | string {body : Bytes} (proper : IsBody body) : Proper (.string body)
  /-- The items are proper. -/
  | array {items : List Tree} (all : ∀ item ∈ items, Proper item) : Proper (.array items)
  /-- The names may stand between quotes, and the values are proper. -/
  | object {members : List (Bytes × Tree)} (names : ∀ member ∈ members, IsBody member.1)
      (all : ∀ member ∈ members, Proper member.2) : Proper (.object members)

/-- The bytes are a JSON text: one value with nothing but white space around it. -/
def IsText (bytes : Bytes) (tree : Tree) : Prop :=
  ∃ value rest, Spaced bytes value ∧ Spells value tree rest ∧ Spaced rest []

/-! ## Sizes and strings -/

/-- There may be no space at all. -/
theorem Spaced.refl (bytes : Bytes) : Spaced bytes bytes :=
  ⟨[], rfl, by simp⟩

/-- Space before space is space. -/
theorem Spaced.trans {first second third : Bytes} (one : Spaced first second)
    (other : Spaced second third) : Spaced first third := by
  obtain ⟨gap, rfl, blank⟩ := one
  obtain ⟨more, rfl, alsoBlank⟩ := other
  refine ⟨gap ++ more, by rw [List.append_assoc], ?_⟩
  exact List.forall_mem_append.2 ⟨blank, alsoBlank⟩

/-- Skipping space lengthens nothing. -/
theorem Spaced.length_le {bytes rest : Bytes} (spaced : Spaced bytes rest) :
    rest.length ≤ bytes.length := by
  obtain ⟨gap, rfl, -⟩ := spaced
  rw [List.length_append]
  omega

/-- A number without its sign begins with a digit. -/
theorem IsUnsigned.head {spelling : Bytes} (proper : IsUnsigned spelling) :
    ∃ first more, spelling = first :: more ∧ 0x30 ≤ first.toNat ∧ first.toNat ≤ 0x39 := by
  obtain ⟨whole, fraction, exponent, rfl, first, -⟩ := proper
  rcases first with rfl | ⟨⟨nonempty, digits⟩, -⟩
  · exact ⟨0x30, fraction ++ exponent, by simp, by decide, by decide⟩
  · cases whole with
    | nil => exact absurd rfl nonempty
    | cons digit whole =>
      exact ⟨digit, whole ++ fraction ++ exponent, by simp, digits digit (by simp)⟩

mutual

/-- Some bytes are a value's own. -/
theorem Spells.length_lt {bytes rest : Bytes} {tree : Tree} :
    Spells bytes tree rest → rest.length < bytes.length
  | .null | .yes | .no => by
    simp only [List.length_cons]
    omega
  | .number proper => by
    obtain unsigned | ⟨spelling, rfl, -⟩ := proper
    · obtain ⟨first, more, rfl, -⟩ := unsigned.head
      simp only [List.length_append, List.length_cons]
      omega
    · simp only [List.length_append, List.length_cons]
      omega
  | .string _ => by
    simp only [List.length_append, List.length_cons]
    omega
  | .emptyArray close | .emptyObject close => by
    have shorter := close.length_le
    simp only [List.length_cons] at shorter ⊢
    omega
  | .array spelled => by
    have shorter := spelled.length_lt
    simp only [List.length_cons]
    omega
  | .object spelled => by
    have shorter := spelled.length_lt
    simp only [List.length_cons]
    omega

/-- The items of an array take up characters. -/
theorem SpellsItems.length_lt {bytes rest : Bytes} {items : List Tree} :
    SpellsItems bytes items rest → rest.length < bytes.length
  | .last before spelled close => by
    have start := before.length_le
    have value := spelled.length_lt
    have bracket := close.length_le
    rw [List.length_cons] at bracket
    omega
  | .more before spelled comma others => by
    have start := before.length_le
    have value := spelled.length_lt
    have separator := comma.length_le
    have remaining := others.length_lt
    rw [List.length_cons] at separator
    omega

/-- A member of an object takes up characters. -/
theorem SpellsMember.length_lt {bytes rest : Bytes} {member : Bytes × Tree} :
    SpellsMember bytes member rest → rest.length < bytes.length
  | .mk before _ colon gap spelled => by
    have start := before.length_le
    have separator := colon.length_le
    have space := gap.length_le
    have value := spelled.length_lt
    simp only [List.length_cons, List.length_append] at start separator
    omega

/-- The members of an object take up characters. -/
theorem SpellsMembers.length_lt {bytes rest : Bytes} {members : List (Bytes × Tree)} :
    SpellsMembers bytes members rest → rest.length < bytes.length
  | .last spelled close => by
    have member := spelled.length_lt
    have brace := close.length_le
    rw [List.length_cons] at brace
    omega
  | .more spelled comma others => by
    have member := spelled.length_lt
    have separator := comma.length_le
    have remaining := others.length_lt
    rw [List.length_cons] at separator
    omega

end

mutual

/-- Only strings that may stand between quotes are spelled. -/
theorem Spells.proper {bytes rest : Bytes} {tree : Tree} : Spells bytes tree rest → tree.Proper
  | .null => .null
  | .yes => .boolean true
  | .no => .boolean false
  | .number _ => .number _
  | .string proper => .string proper
  | .emptyArray _ => .array fun _ member => nomatch member
  | .array spelled => .array spelled.proper
  | .emptyObject _ => .object (fun _ member => nomatch member) fun _ member => nomatch member
  | .object spelled => .object (fun member within => (spelled.proper member within).1)
      fun member within => (spelled.proper member within).2

/-- The items that are spelled are proper values. -/
theorem SpellsItems.proper {bytes rest : Bytes} {items : List Tree} :
    SpellsItems bytes items rest → ∀ item ∈ items, item.Proper
  | .last _ spelled _ => List.forall_mem_singleton.2 spelled.proper
  | .more _ spelled _ others => List.forall_mem_cons.2 ⟨spelled.proper, others.proper⟩

/-- A member that is spelled has a proper name and value. -/
theorem SpellsMember.proper {bytes rest : Bytes} {member : Bytes × Tree} :
    SpellsMember bytes member rest → IsBody member.1 ∧ member.2.Proper
  | .mk _ proper _ _ spelled => ⟨proper, spelled.proper⟩

/-- The members that are spelled have proper names and values. -/
theorem SpellsMembers.proper {bytes rest : Bytes} {members : List (Bytes × Tree)} :
    SpellsMembers bytes members rest → ∀ member ∈ members, IsBody member.1 ∧ member.2.Proper
  | .last spelled _ => List.forall_mem_singleton.2 spelled.proper
  | .more spelled _ others => List.forall_mem_cons.2 ⟨spelled.proper, others.proper⟩

end

/-- The value of a text is a proper one. -/
theorem IsText.proper {bytes : Bytes} {tree : Tree} (text : IsText bytes tree) : tree.Proper := by
  obtain ⟨value, rest, -, spelled, -⟩ := text
  exact spelled.proper

end BuildMatrix.Json

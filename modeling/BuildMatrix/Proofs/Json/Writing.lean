import BuildMatrix.Proofs.Json.Reading

/-!
# Written documents

What the writer lays out is a JSON text, whatever it writes: parts between brackets spell an array
when they spell its items, and an object when they spell its members, however white space is put
around the commas. Reading a text gives a document with every string and every name decoded, and no
text is read as two documents, so a written document is read as itself and as nothing else.
-/

namespace BuildMatrix.Json

open Text (encodeChars encodeUtf8)

/-! ## Parts -/

/-- The characters are white space between tokens. -/
def IsBlank (gap : List Char) : Prop :=
  ∀ c ∈ gap, c = ' ' ∨ c = '\n'

/-- The characters spell a value in front of everything. -/
def Written (part : List Char) (tree : Tree) : Prop :=
  ∀ rest, Spells (encodeChars part ++ rest) tree rest

/-- The characters spell a member of an object in front of everything. -/
def WrittenMember (part : List Char) (member : Bytes × Tree) : Prop :=
  ∀ rest, SpellsMember (encodeChars part ++ rest) member rest

/-- An empty text is blank. -/
theorem isBlank_nil : IsBlank [] :=
  fun _ member => nomatch member

/-- A line break with its indentation is blank. -/
theorem isBlank_lineBreak (indent : Nat) : IsBlank (lineBreak indent) := by
  intro c member
  rcases List.mem_cons.1 member with rfl | space
  · exact .inr rfl
  · exact .inl (List.eq_of_mem_replicate space)

/-- Written white space is skipped by every reader. -/
theorem IsBlank.spaced {gap : List Char} (blank : IsBlank gap) (rest : Bytes) :
    Spaced (encodeChars gap ++ rest) rest := by
  refine ⟨encodeChars gap, rfl, ?_⟩
  induction gap with
  | nil => simp
  | cons c gap ih =>
    obtain ⟨head, blank⟩ := List.forall_mem_cons.1 blank
    have here : String.utf8EncodeChar c = [0x20] ∨ String.utf8EncodeChar c = [0x0A] := by
      rcases head with rfl | rfl
      · exact .inl (by decide)
      · exact .inr (by decide)
    rw [Text.encodeChars_cons, List.forall_mem_append]
    refine ⟨?_, ih blank⟩
    rcases here with space | newline
    · simp [space]
    · simp [newline]

/-- White space may stand in front of a member. -/
theorem SpellsMember.of_spaced {bytes start rest : Bytes} {member : Bytes × Tree}
    (gap : Spaced bytes start) (spelled : SpellsMember start member rest) :
    SpellsMember bytes member rest := by
  obtain ⟨before, proper, colon, space, value⟩ := spelled
  exact .mk (gap.trans before) proper colon space value

/-- A quoted text is its escaped bytes between two quotes. -/
theorem encodeChars_quote (text : List Char) :
    encodeChars (quote text) = 0x22 :: (escaped text ++ [0x22]) := by
  rw [quote, Text.encodeChars_cons, Text.encodeChars_append]
  rfl

/-- A quoted text spells a string. -/
theorem written_quote (text : List Char) : Written (quote text) (.string (escaped text)) := by
  intro rest
  have spelled : Spells (0x22 :: (escaped text ++ 0x22 :: rest)) (.string (escaped text)) rest :=
    .string (standsFor_escaped text).isBody
  rw [encodeChars_quote]
  simpa only [List.cons_append, List.append_assoc, List.nil_append] using spelled

/-- A quoted name, a colon and a value spell a member. -/
theorem written_member (name : List Char) {part : List Char} {tree : Tree}
    (written : Written part tree) :
    WrittenMember (quote name ++ ':' :: ' ' :: part) (escaped name, tree) := by
  intro rest
  have colon : String.utf8EncodeChar ':' = [0x3A] := by decide
  have space : String.utf8EncodeChar ' ' = [0x20] := by decide
  have gap : Spaced (0x20 :: (encodeChars part ++ rest)) (encodeChars part ++ rest) :=
    ⟨[0x20], rfl, by simp⟩
  have spelled := SpellsMember.mk (.refl _) (standsFor_escaped name).isBody (.refl _) gap
    (written rest)
  rw [Text.encodeChars_append, encodeChars_quote, Text.encodeChars_cons, Text.encodeChars_cons,
    colon, space]
  simpa only [List.cons_append, List.append_assoc, List.nil_append] using spelled

/-! ## Parts between brackets -/

/-- Parts with commas between them, as bytes: the first part, and the others after a comma. -/
theorem encodeChars_intercalate_cons (gap part next : List Char) (parts : List (List Char)) :
    encodeChars ((',' :: gap).intercalate (part :: next :: parts)) =
      encodeChars part ++ 0x2C :: (encodeChars gap ++
        encodeChars ((',' :: gap).intercalate (next :: parts))) := by
  rw [List.intercalate_cons_cons, Text.encodeChars_append, Text.encodeChars_append,
    Text.encodeChars_cons, List.append_assoc, List.append_assoc]
  rfl

/-- Written values with commas between them are the items of an array. -/
theorem spellsItems_intercalate {gap last : List Char} (blankGap : IsBlank gap)
    (blankLast : IsBlank last) {part : List Char} {tree : Tree} {parts : List (List Char)}
    {trees : List Tree} (written : List.Forall₂ Written (part :: parts) (tree :: trees))
    (rest : Bytes) :
    SpellsItems (encodeChars gap ++ (encodeChars ((',' :: gap).intercalate (part :: parts)) ++
      (encodeChars last ++ 0x5D :: rest))) (tree :: trees) rest := by
  -- A comma stands before every part but the first, so the induction is on the other ones.
  induction parts generalizing part tree trees with
  | nil =>
    obtain ⟨head, tail⟩ := List.forall₂_cons.1 written
    cases tail
    rw [List.intercalate_singleton]
    exact .last (blankGap.spaced _) (head _) (blankLast.spaced _)
  | cons next parts ih =>
    obtain ⟨head, tail⟩ := List.forall₂_cons.1 written
    cases tail with
    | cons nextWritten others =>
      have remaining := ih (.cons nextWritten others)
      rw [encodeChars_intercalate_cons, List.append_assoc, List.cons_append, List.append_assoc]
      exact .more (blankGap.spaced _) (head _) (.refl _) remaining

/-- Written members with commas between them are the members of an object. -/
theorem spellsMembers_intercalate {gap last : List Char} (blankGap : IsBlank gap)
    (blankLast : IsBlank last) {part : List Char} {member : Bytes × Tree}
    {parts : List (List Char)} {members : List (Bytes × Tree)}
    (written : List.Forall₂ WrittenMember (part :: parts) (member :: members)) (rest : Bytes) :
    SpellsMembers (encodeChars gap ++ (encodeChars ((',' :: gap).intercalate (part :: parts)) ++
      (encodeChars last ++ 0x7D :: rest))) (member :: members) rest := by
  induction parts generalizing part member members with
  | nil =>
    obtain ⟨head, tail⟩ := List.forall₂_cons.1 written
    cases tail
    rw [List.intercalate_singleton]
    exact .last (.of_spaced (blankGap.spaced _) (head _)) (blankLast.spaced _)
  | cons next parts ih =>
    obtain ⟨head, tail⟩ := List.forall₂_cons.1 written
    cases tail with
    | cons nextWritten others =>
      have remaining := ih (.cons nextWritten others)
      rw [encodeChars_intercalate_cons, List.append_assoc, List.cons_append, List.append_assoc]
      exact .more (.of_spaced (blankGap.spaced _) (head _)) (.refl _) remaining

/-- Written values between square brackets are an array, whatever white space stands around them. -/
theorem written_array {gap last : List Char} (blankGap : IsBlank gap) (blankLast : IsBlank last)
    {parts : List (List Char)} {trees : List Tree} (written : List.Forall₂ Written parts trees) :
    Written ('[' :: (gap ++ (',' :: gap).intercalate parts ++ last ++ [']'])) (.array trees) := by
  intro rest
  have opening : String.utf8EncodeChar '[' = [0x5B] := by decide
  have closing : encodeChars [']'] = [0x5D] := by decide
  simp only [Text.encodeChars_cons, Text.encodeChars_append, opening, closing, List.cons_append,
    List.append_assoc, List.nil_append]
  cases written with
  | nil => exact .emptyArray ((blankGap.spaced _).trans (blankLast.spaced _))
  | cons head tail => exact .array (spellsItems_intercalate blankGap blankLast (.cons head tail) rest)

/-- Written members between braces are an object, whatever white space stands around them. -/
theorem written_object {gap last : List Char} (blankGap : IsBlank gap) (blankLast : IsBlank last)
    {parts : List (List Char)} {members : List (Bytes × Tree)}
    (written : List.Forall₂ WrittenMember parts members) :
    Written ('\x7b' :: (gap ++ (',' :: gap).intercalate parts ++ last ++ ['\x7d']))
      (.object members) := by
  intro rest
  have opening : String.utf8EncodeChar '\x7b' = [0x7B] := by decide
  have closing : encodeChars ['\x7d'] = [0x7D] := by decide
  simp only [Text.encodeChars_cons, Text.encodeChars_append, opening, closing, List.cons_append,
    List.append_assoc, List.nil_append]
  cases written with
  | nil => exact .emptyObject ((blankGap.spaced _).trans (blankLast.spaced _))
  | cons head tail =>
    exact .object (spellsMembers_intercalate blankGap blankLast (.cons head tail) rest)

/-- Written values on lines of their own are an array. -/
theorem written_arrayBlock (indent : Nat) {parts : List (List Char)} {trees : List Tree}
    (written : List.Forall₂ Written parts trees) :
    Written (block '[' ']' indent parts) (.array trees) := by
  cases written with
  | nil => exact written_array isBlank_nil isBlank_nil .nil
  | cons head tail =>
    exact written_array (isBlank_lineBreak (indent + 2)) (isBlank_lineBreak indent)
      (.cons head tail)

/-- Written members on lines of their own are an object. -/
theorem written_objectBlock (indent : Nat) {parts : List (List Char)}
    {members : List (Bytes × Tree)} (written : List.Forall₂ WrittenMember parts members) :
    Written (block '\x7b' '\x7d' indent parts) (.object members) := by
  cases written with
  | nil => exact written_object isBlank_nil isBlank_nil .nil
  | cons head tail =>
    exact written_object (isBlank_lineBreak (indent + 2)) (isBlank_lineBreak indent)
      (.cons head tail)

/-- A written value with nothing but white space after it is a JSON text. -/
theorem Written.isText {part after : List Char} {tree : Tree} (written : Written part tree)
    (blank : IsBlank after) : IsText (encodeChars (part ++ after)) tree := by
  refine ⟨encodeChars (part ++ after), encodeChars after, .refl _, ?_, ?_⟩
  · rw [Text.encodeChars_append]
    exact written (encodeChars after)
  · have spaced := blank.spaced []
    rwa [List.append_nil] at spaced

/-! ## Documents as values -/

mutual

/-- The value that the written form of a document spells. -/
def Document.tree : Document → Tree
  | .string text => .string (escaped text.toList)
  | .array items => .array (itemTrees items)
  | .object members => .object (memberTrees members)

/-- The values of an array's items. -/
def itemTrees : List Document → List Tree
  | [] => []
  | item :: items => item.tree :: itemTrees items

/-- The names and values of an object's members. -/
def memberTrees : List (String × Document) → List (Bytes × Tree)
  | [] => []
  | (name, item) :: members => (escaped name.toList, item.tree) :: memberTrees members

end

/-- The values of items are those of each in turn. -/
theorem itemTrees_eq_map (items : List Document) : itemTrees items = items.map Document.tree := by
  induction items with
  | nil => rfl
  | cons item items ih => rw [itemTrees, ih, List.map_cons]

mutual

/-- The laid-out form of a document spells its value. -/
theorem Document.written (indent : Nat) :
    (document : Document) → Written (document.chars indent) document.tree
  | .string text => written_quote text.toList
  | .array items => written_arrayBlock indent (items_written (indent + 2) items)
  | .object members => written_objectBlock indent (members_written (indent + 2) members)

/-- The characters of items are written for their values. -/
theorem items_written (indent : Nat) :
    (items : List Document) → List.Forall₂ Written (itemChars indent items) (itemTrees items)
  | [] => .nil
  | item :: items => .cons (item.written indent) (items_written indent items)

/-- The characters of members are written for their names and values. -/
theorem members_written (indent : Nat) : (members : List (String × Document)) →
    List.Forall₂ WrittenMember (memberChars indent members) (memberTrees members)
  | [] => .nil
  | (name, item) :: members =>
    .cons (written_member name.toList (item.written indent)) (members_written indent members)

end

/-! ## What a text is read as -/

mutual

/-- A value is this document, with its strings and names decoded. -/
inductive Holds : Tree → Document → Prop where
  /-- A string with this text. -/
  | string {body : Bytes} {text : String} (stands : StandsFor body text.toList) :
      Holds (.string body) (.string text)
  /-- An array of these items. -/
  | array {trees : List Tree} {items : List Document} (held : HoldItems trees items) :
      Holds (.array trees) (.array items)
  /-- An object of these members. -/
  | object {trees : List (Bytes × Tree)} {members : List (String × Document)}
      (held : HoldMembers trees members) : Holds (.object trees) (.object members)

/-- Values are these documents, one by one. -/
inductive HoldItems : List Tree → List Document → Prop where
  /-- No values and no documents. -/
  | nil : HoldItems [] []
  /-- A value of the first document, and values of the others. -/
  | cons {tree : Tree} {item : Document} {trees : List Tree} {items : List Document}
      (head : Holds tree item) (tail : HoldItems trees items) :
      HoldItems (tree :: trees) (item :: items)

/-- Members are these, one by one. -/
inductive HoldMembers : List (Bytes × Tree) → List (String × Document) → Prop where
  /-- No members on either side. -/
  | nil : HoldMembers [] []
  /-- A member with the first name and value, and members for the others. -/
  | cons {body : Bytes} {name : String} {tree : Tree} {item : Document}
      {trees : List (Bytes × Tree)} {members : List (String × Document)}
      (stands : StandsFor body name.toList) (head : Holds tree item)
      (tail : HoldMembers trees members) :
      HoldMembers ((body, tree) :: trees) ((name, item) :: members)

end

mutual

/-- A value is one document at most. -/
theorem Holds.unique {tree : Tree} {first second : Document} :
    Holds tree first → Holds tree second → first = second
  | .string one, .string other => congrArg Document.string (String.toList_inj.1 (one.unique other))
  | .array one, .array other => congrArg Document.array (one.unique other)
  | .object one, .object other => congrArg Document.object (one.unique other)

/-- Values are those of one list of documents only. -/
theorem HoldItems.unique {trees : List Tree} {first second : List Document} :
    HoldItems trees first → HoldItems trees second → first = second
  | .nil, .nil => rfl
  | .cons head tail, .cons otherHead otherTail => by
    rw [head.unique otherHead, tail.unique otherTail]

/-- Members are those of one list of named documents only. -/
theorem HoldMembers.unique {trees : List (Bytes × Tree)}
    {first second : List (String × Document)} :
    HoldMembers trees first → HoldMembers trees second → first = second
  | .nil, .nil => rfl
  | .cons stands head tail, .cons otherStands otherHead otherTail => by
    rw [String.toList_inj.1 (stands.unique otherStands), head.unique otherHead,
      tail.unique otherTail]

end

mutual

/-- The value of a document is that document. -/
theorem Document.holds_tree : (document : Document) → Holds document.tree document
  | .string text => .string (standsFor_escaped text.toList)
  | .array items => .array (holdItems_trees items)
  | .object members => .object (holdMembers_trees members)

/-- The values of items are those items. -/
theorem holdItems_trees : (items : List Document) → HoldItems (itemTrees items) items
  | [] => .nil
  | item :: items => .cons item.holds_tree (holdItems_trees items)

/-- The names and values of members are those members. -/
theorem holdMembers_trees :
    (members : List (String × Document)) → HoldMembers (memberTrees members) members
  | [] => .nil
  | (name, item) :: members =>
    .cons (standsFor_escaped name.toList) item.holds_tree (holdMembers_trees members)

end

/-! ## Members by name -/

variable {α : Type} {name other : String} {value item : α} {members : List (String × α)}

/-- Exactly one member has this name, and this is its value. -/
def Once (name : String) (value : α) (members : List (String × α)) : Prop :=
  ∃ before after, members = before ++ (name, value) :: after ∧
    ∀ member ∈ before ++ after, member.1 ≠ name

/-- No member has this name. -/
def Never (name : String) (members : List (String × α)) : Prop :=
  ∀ member ∈ members, member.1 ≠ name

/-- No name stands once among no members. -/
@[simp]
theorem not_once_nil : ¬ Once name value [] := by
  rintro ⟨before, after, split, -⟩
  simp at split

/-- A name stands once when it is the first member's and no later one's, or stands once behind
another first member. -/
@[simp]
theorem once_cons : Once name value ((other, item) :: members) ↔
    (other = name ∧ item = value ∧ Never name members) ∨
      (other ≠ name ∧ Once name value members) := by
  constructor
  · rintro ⟨before, after, split, others⟩
    cases before with
    | nil =>
      obtain ⟨same, rfl⟩ := List.cons.inj split
      obtain ⟨rfl, rfl⟩ := Prod.mk.inj same
      exact .inl ⟨rfl, rfl, others⟩
    | cons first before =>
      obtain ⟨rfl, rfl⟩ := List.cons.inj split
      obtain ⟨head, tail⟩ := List.forall_mem_cons.1 others
      exact .inr ⟨head, before, after, rfl, tail⟩
  · rintro (⟨rfl, rfl, absent⟩ | ⟨different, before, after, rfl, others⟩)
    · exact ⟨[], members, rfl, absent⟩
    · exact ⟨(other, item) :: before, after, rfl, List.forall_mem_cons.2 ⟨different, others⟩⟩

/-- No name stands among no members. -/
@[simp]
theorem never_nil : Never name ([] : List (String × α)) :=
  fun _ member => nomatch member

/-- A name never stands when it is neither the first member's nor a later one's. -/
@[simp]
theorem never_cons :
    Never name ((other, item) :: members) ↔ other ≠ name ∧ Never name members :=
  List.forall_mem_cons

/-- A name that occurs once has one value. -/
theorem Once.unique {second : α} (one : Once name value members)
    (again : Once name second members) : value = second := by
  induction members with
  | nil => exact absurd one not_once_nil
  | cons entry members ih =>
    obtain ⟨key, item⟩ := entry
    rcases once_cons.1 one with ⟨here, rfl, -⟩ | ⟨elsewhere, one⟩
    · rcases once_cons.1 again with ⟨-, same, -⟩ | ⟨other, -⟩
      · exact same
      · exact absurd here other
    · rcases once_cons.1 again with ⟨here, -, -⟩ | ⟨-, again⟩
      · exact absurd here elsewhere
      · exact ih one again

/-- A name that occurs once does not never occur. -/
theorem Once.not_never (one : Once name value members) : ¬ Never name members := by
  intro never
  obtain ⟨before, after, rfl, -⟩ := one
  exact never (name, value) (by simp) rfl

/-! ## Texts as documents -/

/-- A text is read as a document: it is a JSON text, and its value is the document. -/
def Reads (text : String) (document : Document) : Prop :=
  ∃ tree, IsText (encodeUtf8 text) tree ∧ Holds tree document

/-- A text is read as one document at most. -/
theorem Reads.unique {text : String} {first second : Document} (one : Reads text first)
    (other : Reads text second) : first = second := by
  obtain ⟨tree, spelled, held⟩ := one
  obtain ⟨same, spelledToo, heldToo⟩ := other
  obtain rfl : tree = same := spelled.unique spelledToo
  exact held.unique heldToo

/-- A written value that is a document is read as this document alone. -/
theorem reads_iff_of_written {part after : List Char} {document : Document}
    (written : Written part document.tree) (blank : IsBlank after) (other : Document) :
    Reads (String.ofList (part ++ after)) other ↔ other = document := by
  have reads : Reads (String.ofList (part ++ after)) document := by
    refine ⟨document.tree, ?_, document.holds_tree⟩
    rw [Text.encodeUtf8_ofList]
    exact written.isText blank
  constructor
  · intro readsOther
    exact readsOther.unique reads
  · rintro rfl
    exact reads

end BuildMatrix.Json

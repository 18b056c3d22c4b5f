import BuildMatrix.Proofs.Calendar.Reading
import BuildMatrix.Proofs.Json.Writing
import BuildMatrix.Proofs.Registry.Retry

/-!
# What a payload says

A record of a payload is an object of a JSON text, however its members are ordered, laid out and
escaped. It describes a release cycle when it names one cycle and makes at most one statement about
its end. A payload of such records is read as the cycles they describe, in their order, and one
record that describes none makes the whole payload unreadable. Written cycles are read back.
-/

namespace BuildMatrix.Registry

open Json (Tree Once Never Written WrittenMember)
open Text (encodeChars)

/-! ## Records -/

/-- The members of an object with their names as texts. -/
def Named (members : List (Bytes × Tree)) (named : List (String × Tree)) : Prop :=
  List.Forall₂ (fun member entry =>
    Json.StandsFor member.1 entry.1.toList ∧ member.2 = entry.2) members named

/-- What a statement about the end of support says. -/
inductive States : Tree → Lifecycle → Prop where
  /-- Nothing is scheduled. -/
  | null : States .null .unscheduled
  /-- Support has not ended. -/
  | no : States (.boolean false) .unscheduled
  /-- Support has ended. -/
  | yes : States (.boolean true) .ended
  /-- A text that is a date. -/
  | date {body : Bytes} {text : List Char} {date : Date} (stands : Json.StandsFor body text)
      (dated : Date.ofChars? text = some date) : States (.string body) (.scheduled date)

/-- The members of a record describe a release cycle: one of them is a text with its identifier, and
one or none of them states its lifecycle. Other members say nothing. -/
def Describes (members : List (Bytes × Tree)) (cycle : ReleaseCycle) : Prop :=
  ∃ named, Named members named ∧
    (∃ body, Once cycleName (.string body) named ∧ Json.StandsFor body cycle.cycle.toList) ∧
    ((Never endName named ∧ cycle.lifecycle = .unscheduled) ∨
      ∃ statement, Once endName statement named ∧ States statement cycle.lifecycle)

/-! ## Reading records -/

variable {members : List (Bytes × Tree)} {named : List (String × Tree)}

/-- Names that may stand between quotes are read as the texts that they stand for. -/
theorem named?_eq_some_iff (names : ∀ member ∈ members, Json.IsBody member.1) :
    named? members = some named ↔ Named members named := by
  refine Traversal.mapM_eq_some_iff ?_
  rintro ⟨body, item⟩ within ⟨name, value⟩
  have decoded : Json.decode? body = some name ↔ Json.StandsFor body name.toList :=
    Json.decode?_eq_some_iff (names (body, item) within)
  simp only [Option.map_eq_some_iff, Prod.mk.injEq, ← decoded]
  constructor
  · rintro ⟨text, known, rfl, rfl⟩
    exact ⟨known, rfl⟩
  · rintro ⟨known, rfl⟩
    exact ⟨name, known, rfl, rfl⟩

/-- The items with a name are none when no member has it. -/
theorem itemsNamed_eq_nil_iff {name : String} : itemsNamed name named = [] ↔ Never name named := by
  simp only [itemsNamed, List.map_eq_nil_iff, List.filter_eq_nil_iff, decide_eq_true_eq, Never, Ne]

/-- A first member adds its item when it has the name. -/
theorem itemsNamed_cons (name other : String) (item : Tree) (named : List (String × Tree)) :
    itemsNamed name ((other, item) :: named) =
      if other = name then item :: itemsNamed name named else itemsNamed name named := by
  by_cases same : other = name <;> simp [itemsNamed, same]

/-- The items with a name are a single one when exactly one member has it. -/
theorem itemsNamed_eq_singleton_iff {name : String} {value : Tree} :
    itemsNamed name named = [value] ↔ Once name value named := by
  induction named with
  | nil => simp [itemsNamed]
  | cons entry named ih =>
    obtain ⟨other, item⟩ := entry
    rw [itemsNamed_cons, Json.once_cons]
    by_cases same : other = name
    · rw [if_pos same, List.cons.injEq, itemsNamed_eq_nil_iff]
      simp [same]
    · rw [if_neg same, ih]
      simp [same]

/-- A statement is read as what it says. -/
theorem lifecycle?_eq_some_iff {statement : Tree} (proper : statement.Proper)
    {lifecycle : Lifecycle} : lifecycle? statement = some lifecycle ↔ States statement lifecycle := by
  constructor
  · intro read
    cases proper with
    | null =>
      obtain rfl := Option.some.inj read
      exact .null
    | boolean value =>
      cases value with
      | false =>
        obtain rfl := Option.some.inj read
        exact .no
      | true =>
        obtain rfl := Option.some.inj read
        exact .yes
    | string body =>
      obtain ⟨date, dated, rfl⟩ := Option.map_eq_some_iff.1 read
      obtain ⟨text, decoded, dated⟩ := Option.bind_eq_some_iff.1 dated
      exact .date ((Json.decode?_eq_some_iff body).1 decoded) dated
    | number => exact nomatch read
    | array => exact nomatch read
    | object => exact nomatch read
  · intro states
    cases states with
    | null => rfl
    | no => rfl
    | yes => rfl
    | @date body text date stands dated =>
      have decoded : Json.decode? body = some (String.ofList text) := by
        rw [Json.decode?_eq_some_iff stands.isBody, String.toList_ofList]
        exact stands
      have parsed : Date.parse? (String.ofList text) = some date := by
        rw [Date.parse?, String.toList_ofList]
        exact dated
      rw [lifecycle?, decoded, Option.bind_some, parsed, Option.map_some]

/-- An identifier is read when it is a text. -/
theorem text?_eq_some_iff {identifier : Tree} (proper : identifier.Proper) {cycle : String} :
    text? identifier = some cycle ↔
      ∃ body, identifier = .string body ∧ Json.StandsFor body cycle.toList := by
  cases proper with
  | string body =>
    rw [text?, Json.decode?_eq_some_iff body]
    simp
  | _ => simp [text?]

/-- An identifier and an optional statement are read as what they say. -/
theorem cycleOf?_eq_some_iff {identifier : Tree} {statement : Option Tree} {cycle : ReleaseCycle} :
    cycleOf? identifier statement = some cycle ↔
      text? identifier = some cycle.cycle ∧ statedLifecycle? statement = some cycle.lifecycle := by
  obtain ⟨name, lifecycle⟩ := cycle
  simp only [cycleOf?, bind, Option.bind_eq_some_iff, Option.some.injEq, ReleaseCycle.mk.injEq]
  constructor
  · rintro ⟨text, known, stated, read, rfl, rfl⟩
    exact ⟨known, read⟩
  · rintro ⟨known, read⟩
    exact ⟨name, known, lifecycle, read, rfl, rfl⟩

/-- The item of a name is one of the members' values. -/
theorem Named.proper_of_once (decoded : Named members named)
    (all : ∀ member ∈ members, member.2.Proper) {name : String} {value : Tree}
    (once : Once name value named) : value.Proper := by
  obtain ⟨before, after, rfl, -⟩ := once
  have all : ∀ entry ∈ before ++ (name, value) :: after, entry.2.Proper := by
    generalize before ++ (name, value) :: after = entries at decoded
    induction decoded with
    | nil => simp
    | cons head tail ih =>
      obtain ⟨first, all⟩ := List.forall_mem_cons.1 all
      exact List.forall_mem_cons.2 ⟨head.2 ▸ first, ih all⟩
  exact all (name, value) (by simp)

/-- A record is read as the cycle that it describes. -/
theorem cycle?_eq_some_iff (proper : (Tree.object members).Proper) {cycle : ReleaseCycle} :
    cycle? (.object members) = some cycle ↔ Describes members cycle := by
  obtain ⟨names, all⟩ : (∀ member ∈ members, Json.IsBody member.1) ∧
      ∀ member ∈ members, member.2.Proper := by
    cases proper with
    | object names all => exact ⟨names, all⟩
  simp only [cycle?, bind, Option.bind_eq_some_iff, named?_eq_some_iff names, Describes]
  refine exists_congr fun named => and_congr_right fun decoded => ?_
  constructor
  · intro read
    -- How many members have each of the two names decides which branch was taken.
    split at read
    · next identifier identified unstated =>
      have once := itemsNamed_eq_singleton_iff.1 identified
      obtain ⟨known, said⟩ := cycleOf?_eq_some_iff.1 read
      obtain ⟨body, rfl, stands⟩ := (text?_eq_some_iff (decoded.proper_of_once all once)).1 known
      refine ⟨⟨body, once, stands⟩, .inl ⟨itemsNamed_eq_nil_iff.1 unstated, ?_⟩⟩
      exact (Option.some.inj said).symm
    · next identifier statement identified stated =>
      have once := itemsNamed_eq_singleton_iff.1 identified
      have statedOnce := itemsNamed_eq_singleton_iff.1 stated
      obtain ⟨known, said⟩ := cycleOf?_eq_some_iff.1 read
      obtain ⟨body, rfl, stands⟩ := (text?_eq_some_iff (decoded.proper_of_once all once)).1 known
      have states := (lifecycle?_eq_some_iff (decoded.proper_of_once all statedOnce)).1 said
      exact ⟨⟨body, once, stands⟩, .inr ⟨statement, statedOnce, states⟩⟩
    · exact nomatch read
  · rintro ⟨⟨body, once, stands⟩, stated⟩
    have known := (text?_eq_some_iff (decoded.proper_of_once all once)).2 ⟨body, rfl, stands⟩
    rw [itemsNamed_eq_singleton_iff.2 once]
    rcases stated with ⟨unstated, unscheduled⟩ | ⟨statement, statedOnce, states⟩
    · rw [itemsNamed_eq_nil_iff.2 unstated]
      refine cycleOf?_eq_some_iff.2 ⟨known, ?_⟩
      rw [unscheduled]
      rfl
    · rw [itemsNamed_eq_singleton_iff.2 statedOnce]
      have said := (lifecycle?_eq_some_iff (decoded.proper_of_once all statedOnce)).2 states
      exact cycleOf?_eq_some_iff.2 ⟨known, said⟩

/-- A payload of records is read as the cycles that they describe, one by one. -/
theorem cycles?_eq_some_iff {body : Bytes} {records : List (List (Bytes × Tree))}
    (spelled : Json.IsText body (.array (records.map .object))) {cycles : List ReleaseCycle} :
    cycles? body = some cycles ↔ List.Forall₂ Describes records cycles := by
  have all : ∀ record ∈ records, (Tree.object record).Proper := by
    have proper := spelled.proper
    cases proper with
    | array all => exact fun record member => all _ (List.mem_map_of_mem member)
  rw [cycles?, Json.read?_eq_some_iff.2 spelled]
  show (records.map Tree.object).mapM cycle? = some cycles ↔ _
  rw [List.mapM_map]
  exact Traversal.mapM_eq_some_iff fun record member cycle => cycle?_eq_some_iff (all record member)

/-! ## Writing records -/

/-- The characters of a member of a record. -/
def recordMember (name : String) (value : List Char) : List Char :=
  Json.quote name.toList ++ ':' :: ' ' :: value

/-- The characters of a statement about the end of support. -/
def statementChars : Lifecycle → List Char
  | .scheduled date => Json.quote date.chars
  | .unscheduled => ['f', 'a', 'l', 's', 'e']
  | .ended => ['t', 'r', 'u', 'e']

/-- The characters of the record of a release cycle. -/
def recordChars (cycle : ReleaseCycle) : List Char :=
  Json.block '\x7b' '\x7d' 2
    [recordMember cycleName (Json.quote cycle.cycle.toList),
      recordMember endName (statementChars cycle.lifecycle)]

/-- The payload of release cycles. -/
def payload (cycles : List ReleaseCycle) : Bytes :=
  encodeChars (Json.block '[' ']' 0 (cycles.map recordChars))

/-- A written statement says what it was written for. -/
theorem exists_written_statement (lifecycle : Lifecycle) :
    ∃ statement, Written (statementChars lifecycle) statement ∧ States statement lifecycle := by
  cases lifecycle with
  | scheduled date =>
    exact ⟨_, Json.written_quote date.chars,
      .date (Json.standsFor_escaped date.chars) (Date.ofChars?_chars date)⟩
  | unscheduled => exact ⟨.boolean false, fun rest => .no, .no⟩
  | ended => exact ⟨.boolean true, fun rest => .yes, .yes⟩

/-- A written record describes the cycle that it was written for. -/
theorem exists_written_record (cycle : ReleaseCycle) :
    ∃ members, Written (recordChars cycle) (.object members) ∧ Describes members cycle := by
  obtain ⟨statement, writtenStatement, states⟩ := exists_written_statement cycle.lifecycle
  have identifier := Json.written_member cycleName.toList (Json.written_quote cycle.cycle.toList)
  have stated := Json.written_member endName.toList writtenStatement
  have written : Written (recordChars cycle) (.object _) :=
    Json.written_objectBlock 2 (.cons identifier (.cons stated .nil))
  have named : Named
      [(Json.escaped cycleName.toList, .string (Json.escaped cycle.cycle.toList)),
        (Json.escaped endName.toList, statement)]
      [(cycleName, .string (Json.escaped cycle.cycle.toList)), (endName, statement)] :=
    .cons ⟨Json.standsFor_escaped cycleName.toList, rfl⟩
      (.cons ⟨Json.standsFor_escaped endName.toList, rfl⟩ .nil)
  have apart : cycleName ≠ endName := by decide
  refine ⟨_, written, _, named, ⟨_, ?_, Json.standsFor_escaped cycle.cycle.toList⟩,
    .inr ⟨statement, ?_, states⟩⟩
  · simp [apart.symm]
  · simp [apart]

/-- A written payload holds one record for each cycle, which describes it. -/
theorem exists_records_payload (cycles : List ReleaseCycle) :
    ∃ records, Json.IsText (payload cycles) (.array (records.map .object)) ∧
      List.Forall₂ Describes records cycles := by
  have each : ∀ cycle ∈ cycles, ∃ members,
      Written (recordChars cycle) (.object members) ∧ Describes members cycle :=
    fun cycle _ => exists_written_record cycle
  obtain ⟨records, related⟩ := Traversal.exists_forall₂_iff.2 each
  have written : List.Forall₂ Written (cycles.map recordChars) (records.map .object) := by
    rw [List.forall₂_map_left_iff, List.forall₂_map_right_iff]
    exact related.imp fun cycle members both => both.1
  have text := (Json.written_arrayBlock 0 written).isText Json.isBlank_nil
  rw [List.append_nil] at text
  exact ⟨records, text, (related.imp fun cycle members both => both.2).flip⟩

/-! ## Payloads -/

/-- A registry's payload of records, in whatever layout and spelling, is delivered whole and in its
order when every record describes a cycle, and is an invalid response when one describes none.
Whatever cycles are written as a payload are delivered again. -/
theorem payload_read_whole {url : Url} (web : url.isWeb = true) (replies : Nat → Reply)
    (retries : Nat) :
    (∀ body records, Brings replies retries (some body) →
      Json.IsText body (.array (records.map .object)) →
        (∀ cycles, (consult (some url) retries replies).answer = .ok cycles ↔
          List.Forall₂ Describes records cycles) ∧
        ((∀ record ∈ records, ∃ cycle, Describes record cycle) →
          ∃ cycles, (consult (some url) retries replies).answer = .ok cycles) ∧
        ((∃ record ∈ records, ∀ cycle, ¬ Describes record cycle) →
          ∃ detail,
            (consult (some url) retries replies).answer = .error (.invalidResponse detail))) ∧
      ∀ cycles, Brings replies retries (some (payload cycles)) →
        (consult (some url) retries replies).answer = .ok cycles := by
  have answered (body : Bytes) (brought : Brings replies retries (some body)) :
      (consult (some url) retries replies).answer = read url (some body) :=
    consult_answer_of_delivered web (attempt_eq_ok_iff.2 brought)
  refine ⟨fun body records brought spelled => ?_, fun cycles brought => ?_⟩
  · have reads (cycles : List ReleaseCycle) :
        read url (some body) = .ok cycles ↔ List.Forall₂ Describes records cycles :=
      read_some_eq_ok_iff.trans (cycles?_eq_some_iff spelled)
    rw [answered body brought]
    refine ⟨reads, fun each => ?_, fun ⟨record, member, describesNone⟩ => ?_⟩
    · obtain ⟨cycles, described⟩ := Traversal.exists_forall₂_iff.2 each
      exact ⟨cycles, (reads cycles).2 described⟩
    · apply read_of_unreadable url
      rw [Option.eq_none_iff_forall_ne_some]
      intro cycles readable
      have described := (cycles?_eq_some_iff spelled).1 readable
      obtain ⟨cycle, describes⟩ := Traversal.exists_forall₂_iff.1 ⟨cycles, described⟩ record member
      exact describesNone cycle describes
  · obtain ⟨records, spelled, described⟩ := exists_records_payload cycles
    rw [answered (payload cycles) brought]
    exact read_some_eq_ok_iff.2 ((cycles?_eq_some_iff spelled).2 described)

/-- A registry that writes a dated cycle and an ended one delivers both; a record without any member
makes its payload an invalid response. -/
theorem payload_read_whole_of_two_payloads :
    let url : Url := ⟨"http".toList, some "[::1]:8080".toList, "/cycles".toList, none, none⟩
    let cycles : List ReleaseCycle :=
      [⟨"3.13", .scheduled ⟨2029, 10, 31, by decide⟩⟩, ⟨"3.9", .ended⟩]
    url.isWeb = true ∧
      (consult (some url) 3 fun _ => .answered 200 (some (payload cycles))).answer = .ok cycles ∧
      ∃ detail,
        (consult (some url) 3 fun _ => .answered 200 (some [0x5B, 0x7B, 0x7D, 0x5D])).answer =
          .error (.invalidResponse detail) := by
  intro url cycles
  have web : url.isWeb = true := by decide
  have brings (body : Option Bytes) : Brings (fun _ => .answered 200 body) 3 body :=
    ⟨0, by decide, fun before lower => absurd lower (Nat.not_lt_zero before),
      200, rfl, by decide, by decide⟩
  have spelled : Json.IsText [0x5B, 0x7B, 0x7D, 0x5D] (.array ([[]].map .object)) := by
    have record : Json.Spells [0x7B, 0x7D, 0x5D] (.object []) [0x5D] := .emptyObject (.refl _)
    exact ⟨_, [], .refl _, .array (.last (.refl _) record (.refl _)), .refl _⟩
  have describesNone (cycle : ReleaseCycle) : ¬ Describes [] cycle := by
    rintro ⟨named, decoded, ⟨body, once, -⟩, -⟩
    cases decoded
    exact Json.not_once_nil once
  refine ⟨web, ?_, ?_⟩
  · exact (payload_read_whole web _ 3).2 _ (brings _)
  · have voided := ((payload_read_whole web _ 3).1 _ _ (brings _) spelled).2.2
    exact voided ⟨[], List.mem_singleton_self [], describesNone⟩

end BuildMatrix.Registry

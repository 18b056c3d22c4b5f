import BuildMatrix.Proofs.Text.Fields
import BuildMatrix.Proofs.Text.Utf8
import BuildMatrix.Proofs.Traversal
import BuildMatrix.Registry.Host
import Mathlib.Tactic.IntervalCases

/-!
# Hosts in their one form

An address that a host denotes is in range, and it is read back from what is written for it. The
host that is read from a text is therefore read from itself as well: reading it again changes
nothing.
-/

namespace BuildMatrix.Registry.Host

/-! ## Numbers in digits -/

/-- A digit has the value that it is written for. -/
theorem digitValue?_digitChar {value : Nat} (small : value < 16) :
    digitValue? (Nat.digitChar value) = some value := by
  interval_cases value <;> rfl

/-- A number is read back from its digits. -/
theorem numberIn?_toDigits {base : Nat} (proper : 1 < base) (known : base ≤ 16) (number : Nat) :
    numberIn? base (Nat.toDigits base number) = some number := by
  induction number using Nat.strongRecOn with
  | ind number ih =>
    by_cases single : number < base
    · have value := digitValue?_digitChar (show number < 16 by omega)
      rw [Nat.toDigits_of_lt_base single]
      simp [numberIn?, value, single]
    · have fewer : number / base < number := Nat.div_lt_self (by omega) proper
      have last : number % base < base := Nat.mod_lt number (by omega)
      have value := digitValue?_digitChar (show number % base < 16 by omega)
      have front := ih (number / base) fewer
      have whole : base * (number / base) + number % base = number := Nat.div_add_mod number base
      rw [Nat.toDigits_of_base_le proper (by omega), numberIn?, List.foldlM_append]
      rw [numberIn?] at front
      simp [front, value, last, whole]

/-- A number leaves its next digit less than one place more of room. -/
theorem place_le {base digit : Nat} (small : digit < base) (value places : Nat) :
    (base * value + digit + 1) * Nat.pow base places ≤
      (value + 1) * Nat.pow base (places + 1) := by
  have room : Nat.pow base (places + 1) = Nat.pow base places * base := rfl
  calc (base * value + digit + 1) * Nat.pow base places
      ≤ ((value + 1) * base) * Nat.pow base places := by
        refine Nat.mul_le_mul_right _ ?_
        rw [Nat.add_mul, Nat.one_mul, Nat.mul_comm value]
        omega
    _ = (value + 1) * Nat.pow base (places + 1) := by
        rw [room, Nat.mul_assoc, Nat.mul_comm base]

/-- Digits in a row denote less than there is room for in them. -/
theorem numberIn?_lt {base number : Nat} {digits : List Char}
    (read : numberIn? base digits = some number) : number < Nat.pow base digits.length := by
  suffices general : ∀ value, digits.foldlM (fun value c =>
      (digitValue? c).bind fun digit =>
        if digit < base then some (base * value + digit) else none) value = some number →
      number < (value + 1) * Nat.pow base digits.length by
    simpa using general 0 read
  clear read
  induction digits with
  | nil =>
    intro value read
    obtain rfl := Option.some.inj read
    simp
  | cons c rest ih =>
    intro value read
    rw [List.foldlM_cons] at read
    obtain ⟨next, step, read⟩ := Option.bind_eq_some_iff.1 read
    obtain ⟨digit, -, step⟩ := Option.bind_eq_some_iff.1 step
    split at step
    · next small =>
      obtain rfl := Option.some.inj step
      exact Nat.lt_of_lt_of_le (ih _ read) (place_le small value rest.length)
    · exact nomatch step

/-- What is written for a number are digits of the base. -/
theorem exists_of_mem_toDigits {base number : Nat} {c : Char} (proper : 1 < base)
    (member : c ∈ Nat.toDigits base number) : ∃ value, value < base ∧ c = Nat.digitChar value := by
  induction number using Nat.strongRecOn with
  | ind number ih =>
    by_cases single : number < base
    · rw [Nat.toDigits_of_lt_base single, List.mem_singleton] at member
      exact ⟨number, single, member⟩
    · have fewer : number / base < number := Nat.div_lt_self (by omega) proper
      rw [Nat.toDigits_of_base_le proper (by omega), List.mem_append,
        List.mem_singleton] at member
      rcases member with front | last
      · exact ih (number / base) fewer front
      · exact ⟨number % base, Nat.mod_lt number (by omega), last⟩

/-! ## Addresses of four numbers -/

/-- So many addresses of four bytes are there. -/
theorem pow_four : Nat.pow 256 4 = 4294967296 := rfl

/-- No dot is written in a number, so that an address has the parts it is written with. -/
theorem parts_intercalate {numbers : List Nat} {last : Nat} :
    parts (List.intercalate ['.'] ((numbers ++ [last]).map Text.numeral)) =
      (numbers ++ [last]).map Text.numeral := by
  have dotless : ∀ part ∈ (numbers ++ [last]).map Text.numeral, '.' ∉ part :=
    List.forall_mem_map.2 fun number _ => Text.dot_not_mem_numeral number
  have split := List.splitOn_intercalate '.' dotless (by simp)
  have some : Text.numeral last ≠ [] := Nat.toDigits_ne_nil
  unfold parts
  rw [split, List.map_append, List.map_singleton, List.reverse_append, List.reverse_singleton,
    List.singleton_append]
  split
  · next empty => exact absurd (List.cons.inj empty).1 some
  · rfl

/-- A byte is read back from its numeral. -/
theorem part?_numeral {byte : Nat} (small : byte < 256) :
    part? (Text.numeral byte) = some byte := by
  have all : ∀ value : Fin 256, part? (Text.numeral value) = some value.val := by decide +kernel
  exact all ⟨byte, small⟩

/-- The parts of an address are its four decimal numbers. -/
theorem parts_dotted (address : Nat) :
    parts (dotted address) =
      [address / 16777216 % 256, address / 65536 % 256, address / 256 % 256,
        address % 256].map Text.numeral := by
  have written : dotted address =
      List.intercalate ['.'] (([address / 16777216 % 256, address / 65536 % 256,
        address / 256 % 256] ++ [address % 256]).map Text.numeral) := by
    simp [dotted, Nat.pow_succ]
  rw [written, parts_intercalate]
  rfl

/-- An address is read back from its four decimal numbers. -/
theorem address?_dotted {address : Nat} (small : address < Nat.pow 256 4) :
    address? (dotted address) = some address := by
  have read : (parts (dotted address)).mapM part? =
      some [address / 16777216 % 256, address / 65536 % 256, address / 256 % 256,
        address % 256] := by
    rw [parts_dotted]
    simp [part?_numeral (Nat.mod_lt _ (show 0 < 256 by decide))]
  rw [pow_four] at small
  rw [address?, read]
  simp
  omega

/-- An address ends in a number. -/
theorem endsInNumber_dotted (address : Nat) : endsInNumber (dotted address) = true := by
  have numeral := Text.isNumeral_numeral (address % 256)
  rw [Text.isNumeral] at numeral
  rw [endsInNumber, parts_dotted]
  simp only [List.map_cons, List.map_nil, List.getLast?_cons_cons, List.getLast?_singleton, numeral,
    Bool.true_or]

/-- An address holds digits and dots only. -/
theorem exists_of_mem_dotted {address : Nat} {c : Char} (member : c ∈ dotted address) :
    c = '.' ∨ ∃ value, value < 10 ∧ c = Nat.digitChar value := by
  rcases Text.mem_intercalate member with dot | ⟨part, within, holds⟩
  · exact .inl dot
  · have written : ∃ number, part = Text.numeral number := by
      simp only [List.mem_cons, List.not_mem_nil, or_false] at within
      rcases within with same | same | same | same <;> exact ⟨_, same⟩
    obtain ⟨number, rfl⟩ := written
    exact .inr (exists_of_mem_toDigits (by decide) holds)

/-- Nothing in an address is forbidden in a host. -/
theorem any_isForbidden_dotted (address : Nat) : (dotted address).any isForbidden = false := by
  rw [List.any_eq_false]
  intro c member
  rcases exists_of_mem_dotted member with rfl | ⟨value, small, rfl⟩
  · decide
  · have all : ∀ digit : Fin 10, ¬ isForbidden (Nat.digitChar digit) = true := by decide
    exact all ⟨value, small⟩

/-- Bytes in a row denote less than there is room for in them. -/
theorem foldl_bytes_lt {front : List Nat} (bytes : ∀ byte ∈ front, byte ≤ 255) (value : Nat) :
    front.foldl (fun value byte => 256 * value + byte) value <
      (value + 1) * Nat.pow 256 front.length := by
  induction front generalizing value with
  | nil => simp
  | cons byte rest ih =>
    obtain ⟨small, others⟩ := List.forall_mem_cons.1 bytes
    exact Nat.lt_of_lt_of_le (ih others (256 * value + byte))
      (place_le (Nat.lt_succ_of_le small) value rest.length)

/-- An address that a name denotes fits in four bytes. -/
theorem address?_lt {name : List Char} {address : Nat} (read : address? name = some address) :
    address < Nat.pow 256 4 := by
  obtain ⟨numbers, -, read⟩ := Option.bind_eq_some_iff.1 read
  obtain ⟨last, -, read⟩ := Option.bind_eq_some_iff.1 read
  dsimp only at read
  split at read
  · exact nomatch read
  · next allowed =>
    simp only [List.any_eq_true, decide_eq_true_eq, not_or, not_exists, not_and, Nat.not_lt,
      Nat.not_le] at allowed
    obtain ⟨few, bytes, fits⟩ := allowed
    have front := foldl_bytes_lt bytes 0
    have shorter : numbers.dropLast.length ≤ 4 := by
      rw [List.length_dropLast]
      omega
    have room : Nat.pow 256 numbers.dropLast.length *
        Nat.pow 256 (4 - numbers.dropLast.length) = Nat.pow 256 4 := by
      have sum : numbers.dropLast.length + (4 - numbers.dropLast.length) = 4 := by omega
      exact (Nat.pow_add 256 _ _).symm.trans (congrArg (Nat.pow 256) sum)
    rw [← Option.some.inj read, ← room]
    rw [Nat.zero_add, Nat.one_mul] at front
    calc numbers.dropLast.foldl (fun value byte => 256 * value + byte) 0 *
          Nat.pow 256 (4 - numbers.dropLast.length) + last
        < (numbers.dropLast.foldl (fun value byte => 256 * value + byte) 0 + 1) *
          Nat.pow 256 (4 - numbers.dropLast.length) := by
          rw [Nat.add_mul, Nat.one_mul]
          omega
      _ ≤ _ := Nat.mul_le_mul_right _ front

/-! ## Addresses of eight groups -/

/-- No colon is written in a group. -/
theorem colon_not_mem_toDigits (number : Nat) : ':' ∉ Nat.toDigits 16 number := by
  intro member
  obtain ⟨value, small, same⟩ := exists_of_mem_toDigits (by decide) member
  have all : ∀ value : Fin 16, ':' ≠ Nat.digitChar value := by decide
  exact all ⟨value, small⟩ same

/-- A group is read back from its digits. -/
theorem group?_toDigits {group : Nat} (small : group < 65536) :
    group? (Nat.toDigits 16 group) = some group := by
  have some : Nat.toDigits 16 group ≠ [] := Nat.toDigits_ne_nil
  have few : (Nat.toDigits 16 group).length ≤ 4 :=
    (Nat.length_toDigits_le_iff (by decide) (by decide)).2 small
  rw [group?, if_neg (by simpa [some] using few)]
  exact numberIn?_toDigits (by decide) (by decide) group

/-- Groups are read back one by one. -/
theorem mapM_group?_toDigits {groups : List Nat} (small : ∀ group ∈ groups, group < 65536) :
    (groups.map (Nat.toDigits 16)).mapM group? = some groups := by
  induction groups with
  | nil => rfl
  | cons group groups ih =>
    obtain ⟨first, others⟩ := List.forall_mem_cons.1 small
    simp [group?_toDigits first, ih others]

/-- Groups are read back as the pieces of an address. -/
theorem groups?_toDigits {groups : List Nat} (small : ∀ group ∈ groups, group < 65536) :
    groups? (groups.map (Nat.toDigits 16)) = some groups := by
  induction groups with
  | nil => rfl
  | cons group groups ih =>
    obtain ⟨first, others⟩ := List.forall_mem_cons.1 small
    cases groups with
    | nil => simp [groups?, group?_toDigits first]
    | cons next more =>
      have rest := ih others
      rw [List.map_cons] at rest
      rw [List.map_cons, List.map_cons, groups?, group?_toDigits first, rest]
      · rfl
      · simp

/-- Groups with colons between them have their digits as pieces. -/
theorem pieces_colonSeparated (groups : List Nat) :
    pieces (colonSeparated groups) = groups.map (Nat.toDigits 16) := by
  cases groups with
  | nil => rfl
  | cons group groups =>
    have plain : ∀ piece ∈ (group :: groups).map (Nat.toDigits 16), ':' ∉ piece :=
      List.forall_mem_map.2 fun number _ => colon_not_mem_toDigits number
    have split := List.splitOn_intercalate ':' plain (by simp)
    have inhabited : colonSeparated (group :: groups) ≠ [] := by
      intro empty
      have none : Nat.toDigits 16 group = [] := by
        rw [colonSeparated] at empty
        rw [empty] at split
        exact (List.cons.inj split).1.symm
      exact Nat.toDigits_ne_nil none
    rw [pieces, if_neg (by simpa using inhabited)]
    exact split

/-- Characters other than colons are passed over in the search for a gap. -/
theorem aroundGap?_append {digits : List Char} (plain : ':' ∉ digits) (rest : List Char) :
    aroundGap? (digits ++ rest) =
      (aroundGap? rest).map fun around => (digits ++ around.1, around.2) := by
  induction digits with
  | nil => simp
  | cons c digits ih =>
    have different : c ≠ ':' := fun same => plain (by simp [same])
    have others : ':' ∉ digits := fun member => plain (List.mem_cons_of_mem c member)
    have step : aroundGap? (c :: (digits ++ rest)) =
        (aroundGap? (digits ++ rest)).map fun around => (c :: around.1, around.2) := by
      rw [aroundGap?]
      exact fun after same _ => different same
    rw [List.cons_append, step, ih others, Option.map_map]
    rfl

/-- A single colon is passed over in the search for a gap. -/
theorem aroundGap?_colon {c : Char} (different : c ≠ ':') (rest : List Char) :
    aroundGap? (':' :: c :: rest) =
      (aroundGap? (c :: rest)).map fun around => (':' :: around.1, around.2) := by
  rw [aroundGap?]
  exact fun after _ same => different (List.cons.inj same).1

/-- What is written for groups begins with a digit. -/
theorem exists_colonSeparated_cons (group : Nat) (groups : List Nat) :
    ∃ c rest, colonSeparated (group :: groups) = c :: rest ∧ c ≠ ':' := by
  obtain ⟨c, rest, shape⟩ := List.exists_cons_of_ne_nil (@Nat.toDigits_ne_nil group 16)
  have different : c ≠ ':' := by
    intro same
    exact colon_not_mem_toDigits group (by simp [shape, same])
  cases groups with
  | nil => exact ⟨c, rest, by simp [colonSeparated, shape], different⟩
  | cons next more =>
    refine ⟨c, rest ++ ':' :: colonSeparated (next :: more), ?_, different⟩
    simp [colonSeparated, shape]

/-- The search for a gap passes over groups with single colons between them. -/
theorem aroundGap?_colonSeparated (groups : List Nat) (rest : List Char) :
    aroundGap? (colonSeparated groups ++ rest) =
      (aroundGap? rest).map fun around => (colonSeparated groups ++ around.1, around.2) := by
  induction groups with
  | nil => simp [colonSeparated]
  | cons group groups ih =>
    have plain := colon_not_mem_toDigits group
    cases groups with
    | nil => simpa [colonSeparated] using aroundGap?_append plain rest
    | cons next more =>
      obtain ⟨c, tail, shape, different⟩ := exists_colonSeparated_cons next more
      have parts : colonSeparated (group :: next :: more) =
          Nat.toDigits 16 group ++ ':' :: colonSeparated (next :: more) := by
        simp [colonSeparated]
      have single : aroundGap? (':' :: (colonSeparated (next :: more) ++ rest)) =
          (aroundGap? (colonSeparated (next :: more) ++ rest)).map fun around =>
            (':' :: around.1, around.2) := by
        rw [shape, List.cons_append]
        exact aroundGap?_colon different (tail ++ rest)
      rw [parts, List.append_assoc, List.cons_append, aroundGap?_append plain, single, ih,
        Option.map_map, Option.map_map]
      congr 1
      funext around
      simp

/-- Groups with single colons between them hold no gap. -/
theorem aroundGap?_of_single (groups : List Nat) : aroundGap? (colonSeparated groups) = none := by
  have search := aroundGap?_colonSeparated groups []
  rw [List.append_nil] at search
  rw [search]
  rfl

/-- A gap is found between the groups around it. -/
theorem aroundGap?_of_gap (front back : List Nat) :
    aroundGap? (colonSeparated front ++ ':' :: ':' :: colonSeparated back) =
      some (colonSeparated front, colonSeparated back) := by
  rw [aroundGap?_colonSeparated, aroundGap?]
  simp

/-- A run of zeros among groups: where it begins, and its length. -/
def IsGap (groups : List Nat) (gap : Nat × Nat) : Prop :=
  gap.1 + gap.2 ≤ groups.length ∧ (groups.drop gap.1).take gap.2 = List.replicate gap.2 0

/-- The zeros from a place on are a run of zeros. -/
theorem isGap_takeWhile {groups : List Nat} {start : Nat} (within : start < groups.length) :
    IsGap groups (start, ((groups.drop start).takeWhile (· = 0)).length) := by
  have zeros : (groups.drop start).takeWhile (· = 0) =
      List.replicate ((groups.drop start).takeWhile (· = 0)).length 0 := by
    refine List.eq_replicate_iff.2 ⟨rfl, fun group member => ?_⟩
    have passed := List.all_eq_true.1 List.all_takeWhile group member
    simpa using passed
  have front : (groups.drop start).takeWhile (· = 0) <+: groups.drop start :=
    List.takeWhile_prefix _
  have shorter := front.length_le
  rw [List.length_drop] at shorter
  constructor
  · dsimp only
    omega
  · dsimp only
    rw [← List.prefix_iff_eq_take.1 front]
    exact zeros

/-- The longest run of zeros is a run of zeros. -/
theorem isGap_longestGap (groups : List Nat) : IsGap groups (longestGap groups) := by
  unfold longestGap
  refine List.foldlRecOn _ _ ⟨Nat.zero_le _, rfl⟩ fun gap known next within => ?_
  dsimp only
  split
  · exact isGap_takeWhile (List.mem_range.1 within)
  · exact known

/-- Groups are those before a run of zeros, the zeros and those after it. -/
theorem IsGap.split {groups : List Nat} {start length : Nat} (gap : IsGap groups (start, length)) :
    groups.take start ++ List.replicate length 0 ++ groups.drop (start + length) = groups := by
  have zeros : (groups.drop start).take length = List.replicate length 0 := gap.2
  rw [← zeros, ← List.drop_drop, List.append_assoc, List.take_append_drop, List.take_append_drop]

/-- An address of eight groups is read back from what is written for it. -/
theorem eightGroups?_compressed {groups : List Nat} (eight : groups.length = 8)
    (small : ∀ group ∈ groups, group < 65536) :
    eightGroups? (compressed groups) = some groups := by
  have gap := isGap_longestGap groups
  unfold compressed
  generalize longestGap groups = found at gap
  obtain ⟨start, length⟩ := found
  dsimp only
  split
  · rw [eightGroups?, aroundGap?_of_single]
    simp [pieces_colonSeparated, groups?_toDigits small, eight]
  · next long =>
    have bound : start + length ≤ groups.length := gap.1
    have front : ∀ group ∈ groups.take start, group < 65536 :=
      fun group member => small group (List.mem_of_mem_take member)
    have back : ∀ group ∈ groups.drop (start + length), group < 65536 :=
      fun group member => small group (List.mem_of_mem_drop member)
    have present : (groups.take start).length + (groups.drop (start + length)).length =
        8 - length := by
      rw [List.length_take, List.length_drop]
      omega
    rw [eightGroups?, aroundGap?_of_gap]
    simp only [pieces_colonSeparated, mapM_group?_toDigits front, groups?_toDigits back, bind,
      Option.bind, present]
    rw [if_pos (by omega), show 8 - (8 - length) = length by omega, gap.split]

/-- A group that is read has four digits at most. -/
theorem group?_lt {digits : List Char} {group : Nat} (read : group? digits = some group) :
    group < 65536 := by
  rw [group?] at read
  split at read
  · exact nomatch read
  · next proper =>
    have few : digits.length ≤ 4 := by
      simp only [not_or, Nat.not_lt] at proper
      exact proper.2
    have bound := numberIn?_lt read
    have most : Nat.pow 16 digits.length ≤ Nat.pow 16 4 := Nat.pow_le_pow_right (by decide) few
    exact Nat.lt_of_lt_of_le bound most

/-- A byte that is read is one. -/
theorem byte?_le {digits : List Char} {byte : Nat} (read : byte? digits = some byte) :
    byte ≤ 255 := by
  obtain ⟨value, -, read⟩ := Option.bind_eq_some_iff.1 read
  split at read
  · next small =>
    obtain rfl := Option.some.inj read
    exact small.1
  · exact nomatch read

/-- The two groups that four bytes stand for have four digits at most. -/
theorem twoGroups?_lt {text : List Char} {groups : List Nat}
    (read : twoGroups? text = some groups) : ∀ group ∈ groups, group < 65536 := by
  unfold twoGroups? at read
  split at read
  · next first second third fourth found =>
    have bytes := Traversal.forall_mem_of_mapM (fun _ _ known => byte?_le known) found
    simp only [List.forall_mem_cons] at bytes
    obtain ⟨firstByte, secondByte, thirdByte, fourthByte, -⟩ := bytes
    obtain rfl := Option.some.inj read
    intro group member
    rcases List.mem_cons.1 member with rfl | later
    · omega
    · rw [List.mem_singleton.1 later]
      omega
  · exact nomatch read

/-- The groups that are read from pieces have four digits at most. -/
theorem groups?_lt {pieces : List (List Char)} {groups : List Nat}
    (read : groups? pieces = some groups) : ∀ group ∈ groups, group < 65536 := by
  induction pieces generalizing groups with
  | nil =>
    obtain rfl := Option.some.inj read
    simp
  | cons piece pieces ih =>
    cases pieces with
    | nil =>
      rcases Option.or_eq_some_iff.1 read with single | ⟨-, two⟩
      · obtain ⟨group, found, rfl⟩ := Option.map_eq_some_iff.1 single
        exact List.forall_mem_singleton.2 (group?_lt found)
      · exact twoGroups?_lt two
    | cons next more =>
      obtain ⟨group, first, read⟩ := Option.bind_eq_some_iff.1 read
      obtain ⟨others, rest, read⟩ := Option.bind_eq_some_iff.1 read
      obtain rfl := Option.some.inj read
      exact List.forall_mem_cons.2 ⟨group?_lt first, ih rest⟩

/-- An address of eight groups that is read has eight groups of four digits at most. -/
theorem eightGroups?_proper {text : List Char} {groups : List Nat}
    (read : eightGroups? text = some groups) :
    groups.length = 8 ∧ ∀ group ∈ groups, group < 65536 := by
  unfold eightGroups? at read
  split at read
  · obtain ⟨found, whole, read⟩ := Option.bind_eq_some_iff.1 read
    split at read
    · next eight =>
      obtain rfl := Option.some.inj read
      exact ⟨eight, groups?_lt whole⟩
    · exact nomatch read
  · obtain ⟨first, front, read⟩ := Option.bind_eq_some_iff.1 read
    obtain ⟨last, back, read⟩ := Option.bind_eq_some_iff.1 read
    dsimp only at read
    split at read
    · next few =>
      obtain rfl := Option.some.inj read
      refine ⟨by simp; omega, fun group member => ?_⟩
      rcases List.mem_append.1 member with member | member
      · rcases List.mem_append.1 member with member | member
        · exact Traversal.forall_mem_of_mapM (fun _ _ known => group?_lt known) front group member
        · rw [(List.mem_replicate.1 member).2]
          decide
      · exact groups?_lt back group member
    · exact nomatch read

/-! ## Hosts -/

/-- A text without percent signs has no percent forms, so that its bytes are those of its
characters. -/
theorem percentDecoded_of_plain {text : List Char} (plain : '%' ∉ text) :
    percentDecoded text = Text.encodeChars text := by
  induction text with
  | nil => rfl
  | cons c rest ih =>
    have different : c ≠ '%' := fun same => plain (by simp [same])
    have others : '%' ∉ rest := fun member => plain (List.mem_cons_of_mem c member)
    rw [percentDecoded, ih others, Text.encodeChars_cons]
    exact fun _ _ _ same _ => different same

variable {asciiName? : List Char → Option (List Char)} {special : Bool} {text host : List Char}

/-- A name that is its own ASCII form and may be a host is read as the address that it denotes or
as itself. -/
theorem name?_of_own (own : asciiName? host = some host) (inhabited : host ≠ [])
    (allowed : host.any isForbidden = false) :
    name? asciiName? host =
      if endsInNumber host then (address? host).map dotted else some host := by
  have plain : '%' ∉ host := by
    intro member
    have clear := List.any_eq_false.1 allowed '%' member
    exact absurd clear (by decide)
  have decoded : Text.decodeUtf8? (percentDecoded host) = some (String.ofList host) := by
    rw [Text.decodeUtf8?_eq_some_iff, percentDecoded_of_plain plain, Text.encodeUtf8_ofList]
  have passes : ¬ (host.isEmpty = true ∨ host.any isForbidden = true) := by
    rw [allowed]
    simpa using inhabited
  rw [name?, decoded]
  simp only [bind, Option.bind, String.toList_ofList, own]
  rw [if_neg passes]

/-- A text that does not begin with a bracket is read as a name or as an opaque host. -/
theorem read?_of_no_bracket (opening : text.head? ≠ some '[') :
    read? asciiName? special text =
      if special then name? asciiName? text
      else if text.any isForbiddenInOpaque then none
      else some (encode isControl text) := by
  unfold read?
  split
  · next bracket _ => exact absurd bracket opening
  · next bracket _ => exact absurd bracket opening
  · rfl

/-- No host begins with a bracket where a bracket is forbidden. -/
theorem head?_ne_bracket {forbidden : Char → Bool} (bracket : forbidden '[' = true)
    (allowed : text.any forbidden = false) : text.head? ≠ some '[' := by
  intro first
  have clear := List.any_eq_false.1 allowed '[' (List.mem_of_head? first)
  exact clear bracket

/-- An address of eight groups is read back as a host. -/
theorem read?_bracketed {groups : List Nat} (eight : groups.length = 8)
    (small : ∀ group ∈ groups, group < 65536) :
    read? asciiName? special (bracketed groups) = some (bracketed groups) := by
  have last : (bracketed groups).getLast? = some ']' := by
    rw [bracketed, ← List.cons_append, List.getLast?_append]
    rfl
  have inside : ((bracketed groups).drop 1).dropLast = compressed groups := by
    simp [bracketed]
  unfold read?
  rw [last, inside, eightGroups?_compressed eight small]
  rfl

/-- What a name is read as is its own ASCII form or an address. -/
theorem name?_cases (read : name? asciiName? text = some host) :
    (host ≠ [] ∧ host.any isForbidden = false ∧ endsInNumber host = false) ∨
      ∃ address, address < Nat.pow 256 4 ∧ host = dotted address := by
  obtain ⟨decoded, -, read⟩ := Option.bind_eq_some_iff.1 read
  obtain ⟨name, -, read⟩ := Option.bind_eq_some_iff.1 read
  split at read
  · exact nomatch read
  · next allowed =>
    rw [not_or, Bool.not_eq_true, Bool.not_eq_true] at allowed
    split at read
    · obtain ⟨address, denoted, rfl⟩ := Option.map_eq_some_iff.1 read
      exact .inr ⟨address, address?_lt denoted, rfl⟩
    · next named =>
      obtain rfl := Option.some.inj read
      exact .inl ⟨by simpa using allowed.1, allowed.2, by simpa using named⟩

/-- A name that was read is read as itself. -/
theorem name?_of_name? (read : name? asciiName? text = some host)
    (own : asciiName? host = some host) : read? asciiName? true host = some host := by
  rcases name?_cases read with ⟨inhabited, allowed, named⟩ | ⟨address, small, rfl⟩
  · rw [read?_of_no_bracket (head?_ne_bracket (by decide) allowed), if_pos rfl,
      name?_of_own own inhabited allowed, named]
    rfl
  · have allowed := any_isForbidden_dotted address
    have inhabited : dotted address ≠ [] := by
      intro empty
      have parts := parts_dotted address
      rw [empty] at parts
      simp [Host.parts] at parts
    rw [read?_of_no_bracket (head?_ne_bracket (by decide) allowed), if_pos rfl,
      name?_of_own own inhabited allowed, endsInNumber_dotted, address?_dotted small]
    rfl

/-- An encoded text holds characters of its own that are not encoded, percent signs and digits. -/
theorem exists_of_mem_encode {inSet : Char → Bool} {c : Char} (member : c ∈ encode inSet text) :
    (c ∈ text ∧ inSet c = false) ∨ c = '%' ∨
      ∃ value, value < 16 ∧ c = (Nat.digitChar value).toUpper := by
  obtain ⟨own, within, holds⟩ := List.mem_flatMap.1 member
  split at holds
  · obtain ⟨byte, -, form⟩ := List.mem_flatMap.1 holds
    have bound : byte.toNat < 256 := byte.toNat_lt
    simp only [percentForm, List.mem_cons, List.not_mem_nil, or_false] at form
    rcases form with sign | high | low
    · exact .inr (.inl sign)
    · exact .inr (.inr ⟨byte.toNat / 16, by omega, high⟩)
    · exact .inr (.inr ⟨byte.toNat % 16, by omega, low⟩)
  · next plain =>
    rw [List.mem_singleton.1 holds]
    exact .inl ⟨within, by simpa using plain⟩

/-- A text without characters of the set is encoded as itself. -/
theorem encode_of_plain {inSet : Char → Bool} (plain : ∀ c ∈ text, inSet c = false) :
    encode inSet text = text := by
  induction text with
  | nil => rfl
  | cons c rest ih =>
    obtain ⟨first, others⟩ := List.forall_mem_cons.1 plain
    have encoded := ih others
    rw [encode] at encoded
    rw [encode, List.flatMap_cons, encoded, first]
    rfl

/-- An opaque host that was read is read as itself. -/
theorem read?_encode (allowed : text.any isForbiddenInOpaque = false) :
    read? asciiName? false (encode isControl text) = some (encode isControl text) := by
  have clear : ∀ c ∈ encode isControl text,
      isForbiddenInOpaque c = false ∧ isControl c = false := by
    intro c member
    rcases exists_of_mem_encode member with ⟨within, plain⟩ | rfl | ⟨value, small, rfl⟩
    · have own := List.any_eq_false.1 allowed c within
      exact ⟨by simpa using own, plain⟩
    · decide
    · have all : ∀ digit : Fin 16, isForbiddenInOpaque (Nat.digitChar digit).toUpper = false ∧
          isControl (Nat.digitChar digit).toUpper = false := by decide
      exact all ⟨value, small⟩
  have still : (encode isControl text).any isForbiddenInOpaque = false := by
    rw [List.any_eq_false]
    intro c member
    simpa using (clear c member).1
  rw [read?_of_no_bracket (head?_ne_bracket (by decide) still), still,
    encode_of_plain fun c member => (clear c member).2]
  rfl

/-- A host is in its one form: it is read as itself, as long as the name of a special scheme's host
is its own ASCII form. -/
theorem read?_of_read? (read : read? asciiName? special text = some host)
    (own : special = true → asciiName? host = some host) :
    read? asciiName? special host = some host := by
  unfold read? at read
  split at read
  · obtain ⟨groups, denoted, rfl⟩ := Option.map_eq_some_iff.1 read
    obtain ⟨eight, small⟩ := eightGroups?_proper denoted
    exact read?_bracketed eight small
  · exact nomatch read
  · cases special with
    | true => exact name?_of_name? read (own rfl)
    | false =>
      by_cases allowed : text.any isForbiddenInOpaque = true
      · rw [if_neg (by decide), if_pos allowed] at read
        exact nomatch read
      · rw [if_neg (by decide), if_neg allowed] at read
        obtain rfl := Option.some.inj read
        exact read?_encode (by simpa using allowed)

/-- The loopback address of eight groups is read in any spelling, and in its one form again. -/
example : read? some true "[0:0:0:0:0:0:0:1]".toList = some "[::1]".toList := by decide

end BuildMatrix.Registry.Host

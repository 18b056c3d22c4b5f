import Mathlib.Data.Prod.Lex
import BuildMatrix.Constraint.Shorthand
import BuildMatrix.Proofs.Version.Spelling

/-!
# The grammar of constraint tokens

Which texts are tokens, and which versions a token accepts. Both are stated without clauses: a
token is an operator, caret, tilde or wildcard around the components of a release, and what it
accepts is said about the two components of a version. The reader of shorthands finds exactly the
tokens of the grammar that are not plain clauses, and the clauses that a shorthand stands for accept
exactly the versions that it does.
-/

namespace BuildMatrix

/-- A version's place in the lexicographic order of pairs of numbers. -/
def Version.place (version : Version) : ℕ ×ₗ ℕ :=
  toLex (version.major.toNat, version.minor.toNat)

/-- A version stands in the relation that an operator names to a bound. -/
def Comparator.Relates (comparator : Comparator) (version bound : Version) : Prop :=
  match comparator with
  | greaterOrEqual => bound.place ≤ version.place
  | greater => bound.place < version.place
  | lessOrEqual => version.place ≤ bound.place
  | less => version.place < bound.place
  | equal => version.place = bound.place
  | notEqual => version.place ≠ bound.place

namespace Shorthand

/-- The versions that a token accepts. -/
def Accepts : Shorthand → Version → Prop
  | comparison comparator bound, version => comparator.Relates version bound
  | caret bound, version => version.major = bound.major ∧ bound.minor ≤ version.minor
  | release bound, version => version = bound
  | series major, version => version.major = major

/-- The component that a token's upper bound adds one to is not the highest word. -/
def Fits : Shorthand → Prop
  | comparison _ _ => True
  | caret bound => bound.major.toNat < UInt32.size - 1
  | release bound => bound.minor.toNat < UInt32.size - 1
  | series major => major.toNat < UInt32.size - 1

/-- The texts of tokens, without white space and commas. -/
inductive Spelled : List Char → Shorthand → Prop
  /-- An operator and a release, whose patch does not count. -/
  | comparison (comparator : Comparator) {operand : List Char} {found : Release}
      (spelled : found.Spelled operand) :
      Spelled (comparator.symbol ++ operand) (.comparison comparator found.version)
  /-- A caret and a release. -/
  | caret {operand : List Char} {found : Release} (spelled : found.Spelled operand) :
      Spelled ('^' :: operand) (.caret found.version)
  /-- A tilde, an equals sign and a release. -/
  | compatible {operand : List Char} {found : Release} (spelled : found.Spelled operand) :
      Spelled ('~' :: '=' :: operand) (.release found.version)
  /-- A tilde and a release. -/
  | tilde {operand : List Char} {found : Release} (spelled : found.Spelled operand) :
      Spelled ('~' :: operand) (.release found.version)
  /-- Two equals signs and a version with an asterisk in place of the patch. -/
  | releaseWildcard {operand : List Char} {version : Version} (spelled : version.Spelled operand) :
      Spelled ('=' :: '=' :: (operand ++ ['.', '*'])) (.release version)
  /-- Two equals signs and a series with an asterisk in place of the release. -/
  | seriesWildcard {operand : List Char} {major : UInt32} (spelled : WordSpelled operand major) :
      Spelled ('=' :: '=' :: (operand ++ ['.', '*'])) (.series major)

end Shorthand

/-! ## Upper bounds -/

/-- Below the last series, the next one begins at its release zero. -/
theorem Version.nextMajor?_of_room (version : Version)
    (room : version.major.toNat < UInt32.size - 1) :
    ∃ next, version.nextMajor? = some next ∧
      next.major.toNat = version.major.toNat + 1 ∧ next.minor.toNat = 0 := by
  have fits : version.major.toNat + 1 < UInt32.size := by omega
  refine ⟨⟨version.major + 1, 0⟩, if_pos fits, ?_, rfl⟩
  rw [UInt32.toNat_add]
  exact Nat.mod_eq_of_lt fits

/-- Below the last release of a series, the next one is in the same series. -/
theorem Version.nextMinor?_of_room (version : Version)
    (room : version.minor.toNat < UInt32.size - 1) :
    ∃ next, version.nextMinor? = some next ∧
      next.major.toNat = version.major.toNat ∧ next.minor.toNat = version.minor.toNat + 1 := by
  have fits : version.minor.toNat + 1 < UInt32.size := by omega
  refine ⟨⟨version.major, version.minor + 1⟩, if_pos fits, rfl, ?_⟩
  rw [UInt32.toNat_add]
  exact Nat.mod_eq_of_lt fits

/-- A version with a next series is not of the last one. -/
theorem Version.room_of_nextMajor? {version next : Version}
    (found : version.nextMajor? = some next) : version.major.toNat < UInt32.size - 1 := by
  have room : version.major.toNat + 1 < UInt32.size := (Option.ite_none_right_eq_some.1 found).1
  omega

/-- A version with a next release in its series is not the last one of it. -/
theorem Version.room_of_nextMinor? {version next : Version}
    (found : version.nextMinor? = some next) : version.minor.toNat < UInt32.size - 1 := by
  have room : version.minor.toNat + 1 < UInt32.size := (Option.ite_none_right_eq_some.1 found).1
  omega

/-! ## What clauses accept -/

/-- The earlier of two versions has the lower place. -/
theorem Version.place_lt_iff {left right : Version} : left.place < right.place ↔ left < right := by
  rw [Version.place, Version.place, Prod.Lex.toLex_lt_toLex, Version.lt_iff]

/-- A version that comes no later has no higher place. -/
theorem Version.place_le_iff {left right : Version} : left.place ≤ right.place ↔ left ≤ right := by
  rw [Version.place, Version.place, Prod.Lex.toLex_le_toLex, Version.le_iff]

/-- No two versions have one place. -/
theorem Version.place_inj {left right : Version} : left.place = right.place ↔ left = right := by
  rw [Version.ext_iff_toNat]
  simp [Version.place]

/-- The comparison of two versions is that of their places in the lexicographic order. -/
theorem Comparator.holds_iff {comparator : Comparator} {version bound : Version} :
    comparator.holds version bound = true ↔ comparator.Relates version bound := by
  cases comparator <;>
    simp [Comparator.holds, Comparator.Relates, Version.place_lt_iff, Version.place_le_iff,
      Version.place_inj]

/-- Whether a comparison holds between two versions can be computed. -/
instance (comparator : Comparator) (version bound : Version) :
    Decidable (comparator.Relates version bound) :=
  decidable_of_iff _ Comparator.holds_iff

/-- Whether a shorthand accepts a version can be computed. -/
instance (shorthand : Shorthand) (version : Version) : Decidable (shorthand.Accepts version) :=
  match shorthand with
  | .comparison comparator bound => inferInstanceAs (Decidable (comparator.Relates version bound))
  | .caret bound =>
    inferInstanceAs (Decidable (version.major = bound.major ∧ bound.minor ≤ version.minor))
  | .release bound => inferInstanceAs (Decidable (version = bound))
  | .series major => inferInstanceAs (Decidable (version.major = major))

/-- Whether the upper bound of a shorthand fits in a version can be computed. -/
instance (shorthand : Shorthand) : Decidable shorthand.Fits :=
  match shorthand with
  | .comparison _ _ => inferInstanceAs (Decidable True)
  | .caret bound => inferInstanceAs (Decidable (bound.major.toNat < UInt32.size - 1))
  | .release bound => inferInstanceAs (Decidable (bound.minor.toNat < UInt32.size - 1))
  | .series major => inferInstanceAs (Decidable (major.toNat < UInt32.size - 1))

namespace Shorthand

/-- The clauses of a range accept the versions from its lower bound up to its upper one. -/
theorem range_holds {lower upper version : Version} :
    (∀ clause ∈ range lower upper, clause.holds version = true) ↔
      lower ≤ version ∧ version < upper := by
  simp [range, Clause.holds, Comparator.holds]

/-- A token that fits stands for clauses, which accept exactly what the token does. -/
theorem clauses?_of_fits {shorthand : Shorthand} (fits : shorthand.Fits) :
    ∃ clauses, shorthand.clauses? = some clauses ∧ clauses ≠ [] ∧
      ∀ version, (∀ clause ∈ clauses, clause.holds version = true) ↔ shorthand.Accepts version := by
  cases shorthand with
  | comparison comparator bound =>
    refine ⟨[⟨comparator, bound⟩], rfl, by simp, fun version => ?_⟩
    simp [Clause.holds, Accepts, Comparator.holds_iff]
  | caret bound =>
    obtain ⟨next, found, series, release⟩ := Version.nextMajor?_of_room bound fits
    refine ⟨range bound next, by simp [clauses?, found], by simp [range], fun version => ?_⟩
    rw [range_holds, Version.le_iff, Version.lt_iff, Accepts, ← UInt32.toNat_inj,
      UInt32.le_iff_toNat_le]
    omega
  | release bound =>
    obtain ⟨next, found, series, release⟩ := Version.nextMinor?_of_room bound fits
    refine ⟨range bound next, by simp [clauses?, found], by simp [range], fun version => ?_⟩
    rw [range_holds, Version.le_iff, Version.lt_iff, Accepts, Version.ext_iff_toNat]
    omega
  | series major =>
    obtain ⟨next, found, series, release⟩ := Version.nextMajor?_of_room ⟨major, 0⟩ fits
    refine ⟨range ⟨major, 0⟩ next, by simp [clauses?, found], by simp [range], fun version => ?_⟩
    have zero : (0 : UInt32).toNat = 0 := rfl
    rw [range_holds, Version.le_iff, Version.lt_iff, Accepts, ← UInt32.toNat_inj]
    dsimp only at series ⊢
    omega

/-- Only a token that fits stands for clauses. -/
theorem fits_of_clauses? {shorthand : Shorthand} {clauses : List Clause}
    (found : shorthand.clauses? = some clauses) : shorthand.Fits := by
  cases shorthand with
  | comparison comparator bound => trivial
  | caret bound =>
    obtain ⟨next, room, -⟩ := Option.map_eq_some_iff.1 found
    exact Version.room_of_nextMajor? room
  | release bound =>
    obtain ⟨next, room, -⟩ := Option.map_eq_some_iff.1 found
    exact Version.room_of_nextMinor? room
  | series major =>
    obtain ⟨next, room, -⟩ := Option.map_eq_some_iff.1 found
    exact Version.room_of_nextMajor? room

end Shorthand

/-! ## Readers -/

/-- An operator that is found stands at the start of the text. -/
theorem Comparator.eq_append_of_split? {text operand : List Char} {comparator : Comparator}
    (found : Comparator.split? text = some (comparator, operand)) :
    text = comparator.symbol ++ operand := by
  unfold Comparator.split? at found
  split at found <;> cases found <;> rfl

/-- An operator is found in front of every decimal digit. -/
theorem Comparator.split?_symbol_of_decimal (comparator : Comparator) {c : Char}
    (decimal : Text.isDecimalDigit c = true) (rest : List Char) :
    Comparator.split? (comparator.symbol ++ c :: rest) = some (comparator, c :: rest) := by
  apply Comparator.split?_symbol
  simpa using (decimal_ne decimal).2.1

namespace Shorthand

/-- What a comparison or wildcard is read from is its operator and the text after it. -/
theorem spelled_of_ofComparison? {comparator : Comparator} {operand : List Char}
    {shorthand : Shorthand} (read : ofComparison? comparator operand = some shorthand) :
    Spelled (comparator.symbol ++ operand) shorthand := by
  unfold ofComparison? at read
  split at read
  · next major parts =>
    obtain ⟨word, spelled, rfl⟩ := Option.map_eq_some_iff.1 read
    obtain ⟨rfl, -⟩ := Text.splitOn_eq_pair_iff.1 parts
    exact .seriesWildcard (readWord?_eq_some_iff.1 spelled)
  · next major minor parts =>
    obtain ⟨version, both, rfl⟩ := Option.map_eq_some_iff.1 read
    obtain ⟨rfl, -⟩ := Text.splitOn_eq_triple_iff.1 parts
    exact .releaseWildcard ⟨major, minor, rfl, Version.ofComponents?_eq_some_iff.1 both⟩
  · obtain ⟨found, release, rfl⟩ := Option.map_eq_some_iff.1 read
    exact .comparison .notEqual (Release.ofChars?_eq_some_iff.1 release)
  · obtain ⟨found, release, patched⟩ := Option.bind_eq_some_iff.1 read
    obtain ⟨patch, -, rfl⟩ := Option.map_eq_some_iff.1 patched
    exact .comparison _ (Release.ofChars?_eq_some_iff.1 release)

/-- Only the texts of tokens are read as shorthands. -/
theorem spelled_of_ofChars? {token : List Char} {shorthand : Shorthand}
    (read : ofChars? token = some shorthand) : Spelled token shorthand := by
  unfold ofChars? at read
  split at read
  · obtain ⟨found, release, rfl⟩ := Option.map_eq_some_iff.1 read
    exact .caret (Release.ofChars?_eq_some_iff.1 release)
  · obtain ⟨found, release, rfl⟩ := Option.map_eq_some_iff.1 read
    exact .compatible (Release.ofChars?_eq_some_iff.1 release)
  · obtain ⟨found, release, rfl⟩ := Option.map_eq_some_iff.1 read
    exact .tilde (Release.ofChars?_eq_some_iff.1 release)
  · obtain ⟨⟨comparator, operand⟩, operator, rest⟩ := Option.bind_eq_some_iff.1 read
    rw [Comparator.eq_append_of_split? operator]
    exact spelled_of_ofComparison? rest

/-- In front of a digit, an operator decides alone how a token is read. -/
theorem ofChars?_symbol (comparator : Comparator) {c : Char}
    (decimal : Text.isDecimalDigit c = true) (rest : List Char) :
    ofChars? (comparator.symbol ++ c :: rest) = ofComparison? comparator (c :: rest) := by
  have operator := Comparator.split?_symbol_of_decimal comparator decimal rest
  cases comparator <;>
    simp only [Comparator.symbol, List.cons_append, List.nil_append] at operator ⊢ <;>
    simp [ofChars?, operator]

/-- No component of a release is an asterisk, so no wildcard is a release. -/
theorem asterisk_not_mem_splitOn {operand : List Char} {found : Release}
    (spelled : found.Spelled operand) : ['*'] ∉ List.splitOn '.' operand := by
  intro member
  have inside : '*' ∈ operand := Text.subset_of_mem_splitOn member (by simp)
  rcases spelled.chars '*' inside with dot | decimal
  · exact absurd dot (by decide)
  · exact (decimal_ne decimal).2.2 rfl

/-- A release after an operator is a shorthand if it has a patch or is excluded. -/
theorem ofComparison?_release (comparator : Comparator) {operand : List Char} {found : Release}
    (spelled : found.Spelled operand) :
    ofComparison? comparator operand =
      if comparator = .notEqual ∨ found.patch.isSome then
        some (.comparison comparator found.version)
      else none := by
  have release := Release.ofChars?_eq_some_iff.2 spelled
  have plain := asterisk_not_mem_splitOn spelled
  unfold ofComparison?
  split
  · next parts => exact absurd (by simp [parts]) plain
  · next parts => exact absurd (by simp [parts]) plain
  · simp [release]
  · next included _ _ =>
    rw [release]
    cases patch : found.patch with
    | none => simpa [patch] using included
    | some digits => simp [patch]

/-- A wildcard is read as what it spells. -/
theorem ofComparison?_releaseWildcard {operand : List Char} {version : Version}
    (spelled : version.Spelled operand) :
    ofComparison? .equal (operand ++ ['.', '*']) = some (.release version) := by
  obtain ⟨major, minor, rfl, series, release⟩ := spelled
  unfold ofComparison?
  rw [Text.splitOn_eq_triple_iff.2 ⟨rfl, series.dot_not_mem, release.dot_not_mem, by decide⟩]
  simp [Version.ofComponents?_eq_some_iff.2 ⟨series, release⟩]

/-- A wildcard behind a series is read as that series. -/
theorem ofComparison?_seriesWildcard {operand : List Char} {major : UInt32}
    (spelled : WordSpelled operand major) :
    ofComparison? .equal (operand ++ ['.', '*']) = some (.series major) := by
  unfold ofComparison?
  rw [Text.splitOn_eq_pair_iff.2 ⟨rfl, spelled.dot_not_mem, by decide⟩]
  simp [readWord?_eq_some_iff.2 spelled]

end Shorthand

/-! ## Plain clauses -/

/-- The text is an operator with a version directly after it. -/
def Clause.Spelled (text : List Char) (clause : Clause) : Prop :=
  ∃ operand, text = clause.comparator.symbol ++ operand ∧ clause.version.Spelled operand

/-- The reader of clauses accepts exactly an operator with a version after it. -/
theorem Clause.ofChars_eq_ok_iff {text : List Char} {clause : Clause} :
    Clause.ofChars text = .ok clause ↔ clause.Spelled text := by
  constructor
  · intro read
    unfold Clause.ofChars at read
    split at read
    · exact nomatch read
    · next comparator operand operator =>
      split at read
      · split at read
        · next version found =>
          cases read
          exact ⟨operand, Comparator.eq_append_of_split? operator,
            Version.ofChars?_eq_some_iff.1 found⟩
        · exact nomatch read
      · exact nomatch read
  · rintro ⟨operand, rfl, spelled⟩
    have read := Version.ofChars?_eq_some_iff.2 spelled
    have solid := spelled.solid
    obtain ⟨c, rest, rfl, digit⟩ := spelled.head
    have decimal := Text.isDecimalDigit_of_isDigit digit
    have operand : Clause.isOperand (c :: rest) = true := by
      simp only [Text.isSolid, List.all_cons, Bool.and_eq_true] at solid
      simpa [Clause.isOperand, decimal, Text.isSolid] using solid.2
    simp [Clause.ofChars, Comparator.split?_symbol_of_decimal _ decimal, operand, read]

namespace Shorthand

/-- A token of the grammar is read as its shorthand, unless it is a plain clause. -/
theorem ofChars?_of_spelled {token : List Char} {shorthand : Shorthand}
    (spelled : Spelled token shorthand) :
    ofChars? token = some shorthand ∨
      ∃ clause, shorthand = .comparison clause.comparator clause.version ∧
        ofChars? token = none ∧ Clause.ofChars token = .ok clause := by
  cases spelled with
  | @comparison comparator operand found release =>
    obtain ⟨c, rest, rfl, digit⟩ := release.head
    rw [ofChars?_symbol comparator (Text.isDecimalDigit_of_isDigit digit),
      ofComparison?_release comparator release]
    split
    · exact .inl rfl
    · next plain =>
      have unpatched : found.patch = none := by
        simpa using fun patched => plain (.inr patched)
      exact .inr ⟨⟨comparator, found.version⟩, rfl, rfl,
        Clause.ofChars_eq_ok_iff.2 ⟨_, rfl, release.version unpatched⟩⟩
  | caret release =>
    left
    simp [ofChars?, Release.ofChars?_eq_some_iff.2 release]
  | compatible release =>
    left
    simp [ofChars?, Release.ofChars?_eq_some_iff.2 release]
  | @tilde operand found release =>
    left
    have read := Release.ofChars?_eq_some_iff.2 release
    obtain ⟨c, rest, rfl, digit⟩ := release.head
    have different : c ≠ '=' := (decimal_ne (Text.isDecimalDigit_of_isDigit digit)).2.1
    simp [ofChars?, different, read]
  | @releaseWildcard operand version spelled =>
    left
    have read := ofComparison?_releaseWildcard spelled
    obtain ⟨c, rest, rfl, digit⟩ := spelled.head
    have found := ofChars?_symbol .equal (Text.isDecimalDigit_of_isDigit digit)
      (rest ++ ['.', '*'])
    exact found.trans read
  | @seriesWildcard operand major spelled =>
    left
    have read := ofComparison?_seriesWildcard spelled
    cases operand with
    | nil => exact absurd rfl spelled.nonempty
    | cons c rest =>
      have decimal := spelled.decimal c (by simp)
      have found := ofChars?_symbol .equal decimal (rest ++ ['.', '*'])
      exact found.trans read

/-- A token has one reading only. -/
theorem Spelled.unique {token : List Char} {left right : Shorthand} (first : Spelled token left)
    (second : Spelled token right) : left = right := by
  rcases ofChars?_of_spelled first with read | ⟨clause, rfl, unread, parsed⟩
  · rcases ofChars?_of_spelled second with again | ⟨clause, -, unread, -⟩
    · exact Option.some.inj (read.symm.trans again)
    · exact nomatch read.symm.trans unread
  · rcases ofChars?_of_spelled second with read | ⟨other, rfl, -, again⟩
    · exact nomatch read.symm.trans unread
    · cases parsed.symm.trans again
      rfl

end Shorthand

end BuildMatrix

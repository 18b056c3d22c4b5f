/-!
# Interpreter versions

A version is a pair of 32-bit words, a major series and a minor release in it, ordered by the major
word first. The order is total, and the next series or release is refused exactly when its word
would not fit.
-/

namespace BuildMatrix

/-- An interpreter version such as 3.12; patch releases are not distinguished. -/
structure Version where
  /-- The series. -/
  major : UInt32
  /-- The release within the series. -/
  minor : UInt32
deriving DecidableEq, Inhabited

/-- Causes for which version text or a set of versions yields no version. -/
inductive VersionError where
  /-- The trimmed text is not two dot-separated numbers that fit. -/
  | malformed (text : String)
  /-- The highest version of an empty set was asked for. -/
  | emptySet
deriving DecidableEq

namespace Version

/-- Order by series, then by release. -/
instance : LT Version where
  lt left right := left.major < right.major ∨ (left.major = right.major ∧ left.minor < right.minor)

/-- Order by series, then by release, equal versions included. -/
instance : LE Version where
  le left right := left.major < right.major ∨ (left.major = right.major ∧ left.minor ≤ right.minor)

/-- Which of two versions comes first can be computed. -/
instance (left right : Version) : Decidable (left < right) :=
  inferInstanceAs (Decidable (_ ∨ _))

/-- Whether a version comes no later than another can be computed. -/
instance (left right : Version) : Decidable (left ≤ right) :=
  inferInstanceAs (Decidable (_ ∨ _))

/-- Three-way comparison in the same order. -/
instance : Ord Version where
  compare left right := if left < right then .lt else if left = right then .eq else .gt

/-- The first version of the next series, unless the series is the last one. -/
def nextMajor? (version : Version) : Option Version :=
  if version.major.toNat + 1 < UInt32.size then some ⟨version.major + 1, 0⟩ else none

/-- The next release of the same series, unless the release is the last one. -/
def nextMinor? (version : Version) : Option Version :=
  if version.minor.toNat + 1 < UInt32.size then some ⟨version.major, version.minor + 1⟩ else none

/-- The order of versions is that of their numbers, series first. -/
theorem lt_iff {left right : Version} :
    left < right ↔ left.major.toNat < right.major.toNat ∨
      (left.major.toNat = right.major.toNat ∧ left.minor.toNat < right.minor.toNat) := by
  show (_ ∨ _) ↔ _
  rw [UInt32.lt_iff_toNat_lt, UInt32.lt_iff_toNat_lt, UInt32.toNat_inj]

/-- The weak order of versions is that of their numbers as well. -/
theorem le_iff {left right : Version} :
    left ≤ right ↔ left.major.toNat < right.major.toNat ∨
      (left.major.toNat = right.major.toNat ∧ left.minor.toNat ≤ right.minor.toNat) := by
  show (_ ∨ _) ↔ _
  rw [UInt32.lt_iff_toNat_lt, UInt32.le_iff_toNat_le, UInt32.toNat_inj]

/-- Versions with the same numbers are the same. -/
theorem ext_iff_toNat {left right : Version} :
    left = right ↔ left.major.toNat = right.major.toNat ∧ left.minor.toNat = right.minor.toNat := by
  cases left
  cases right
  simp [UInt32.toNat_inj]

/-- No version comes before itself. -/
theorem lt_irrefl (version : Version) : ¬ version < version := by
  rw [lt_iff]
  omega

/-- What comes before an earlier version comes before a later one. -/
theorem lt_trans {first second third : Version} (left : first < second) (right : second < third) :
    first < third := by
  rw [lt_iff] at *
  omega

/-- Versions of which one comes first are distinct. -/
theorem ne_of_lt {left right : Version} (less : left < right) : left ≠ right := by
  rintro rfl
  exact lt_irrefl _ less

/-- Of two distinct versions, one comes first. -/
theorem lt_trichotomy (left right : Version) : left < right ∨ left = right ∨ right < left := by
  rw [lt_iff, lt_iff, ext_iff_toNat]
  omega

/-- A version that does not come first comes no earlier than the other. -/
theorem not_lt {left right : Version} : ¬ left < right ↔ right ≤ left := by
  rw [lt_iff, le_iff]
  omega

/-- Coming no later is coming first or being the same. -/
theorem le_iff_lt_or_eq {left right : Version} : left ≤ right ↔ left < right ∨ left = right := by
  rw [le_iff, lt_iff, ext_iff_toNat]
  omega

/-- A next series exists for every series but the last one. -/
theorem nextMajor?_eq_none_iff {version : Version} :
    version.nextMajor? = none ↔ version.major.toNat = UInt32.size - 1 := by
  have bound := version.major.toNat_lt
  simp only [nextMajor?, ite_eq_right_iff, reduceCtorEq, imp_false, UInt32.size]
  omega

/-- A next release exists for every release but the last one. -/
theorem nextMinor?_eq_none_iff {version : Version} :
    version.nextMinor? = none ↔ version.minor.toNat = UInt32.size - 1 := by
  have bound := version.minor.toNat_lt
  simp only [nextMinor?, ite_eq_right_iff, reduceCtorEq, imp_false, UInt32.size]
  omega

end Version

end BuildMatrix

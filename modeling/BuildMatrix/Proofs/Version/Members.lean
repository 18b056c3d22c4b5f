import Mathlib.Data.Set.Card
import BuildMatrix.Proofs.Constraint.Grammar
import BuildMatrix.Proofs.Version.Collection

/-!
# The members of a set of versions

Seen from outside, a set of versions is the mathematical set of its members. Every operation on the
one is an operation on the other, and everything that can be asked of a set of versions is settled by
its members alone: its order of iteration, the other way round as well, a search, its size, whether it
is empty and its highest member.
-/

namespace BuildMatrix.VersionSet

variable {versions : VersionSet} {version : Version}

/-- The mathematical set of the members. -/
def members (versions : VersionSet) : Set Version :=
  {version | version ∈ versions}

/-- The members of a set as a mathematical one are its members. -/
@[simp]
theorem mem_members : version ∈ versions.members ↔ version ∈ versions := Iff.rfl

/-! ## Operations -/

/-- The empty set has no members. -/
@[simp]
theorem members_empty : empty.members = ∅ :=
  Set.eq_empty_of_forall_notMem not_mem_empty

/-- Inserting a version adds it to the members. -/
@[simp]
theorem members_insert : (versions.insert version).members = {version} ∪ versions.members :=
  Set.ext fun _ => mem_insert

/-- Erasing a version takes it from the members. -/
@[simp]
theorem members_erase : (versions.erase version).members = versions.members \ {version} :=
  Set.ext fun _ => mem_erase

/-- The members of a union are those of both sets together. -/
@[simp]
theorem members_union (left right : VersionSet) :
    (left.union right).members = left.members ∪ right.members :=
  Set.ext fun _ => mem_union

/-- Filtering keeps the members that pass. -/
@[simp]
theorem members_filter (keep : Version → Bool) :
    (versions.filter keep).members = {version ∈ versions.members | keep version = true} :=
  Set.ext fun _ => mem_filter

/-! ## Questions -/

/-- A set of versions answers every question as a mathematical set does, in the lexicographic order
of the components of versions. -/
structure Represents (versions : VersionSet) (members : Set Version) : Prop where
  /-- Iteration ascends strictly. -/
  ascending : versions.toList.Pairwise fun lower higher => lower.place < higher.place
  /-- Iteration meets the members and nothing else. -/
  yields : ∀ version, version ∈ versions.toList ↔ version ∈ members
  /-- Iteration from the far end is the mirror of iteration. -/
  mirrored : versions.descending = versions.toList.reverse
  /-- A search finds the members and nothing else. -/
  contains : ∀ version, versions.contains version = true ↔ version ∈ members
  /-- The size is the number of the members. -/
  size : members.encard = versions.size
  /-- The test for the empty set holds of it alone. -/
  isEmpty : versions.isEmpty = true ↔ members = ∅
  /-- The highest member is the greatest one. -/
  greatest : ∀ version, versions.max = .ok version ↔
    version ∈ members ∧ ∀ other ∈ members, other.place ≤ version.place
  /-- There is no highest member exactly when there is none at all. -/
  emptySet : ∀ cause, versions.max = .error cause ↔ cause = .emptySet ∧ members = ∅

/-- The size of a set of versions is the number of its members, because its list holds none twice. -/
theorem encard_members (versions : VersionSet) : versions.members.encard = versions.size := by
  have once : versions.toList.Nodup := versions.ascending.imp Version.ne_of_lt
  have listed : versions.members = (versions.toList.toFinset : Set Version) := by
    ext version
    simp
  rw [listed, Set.encard_coe_eq_coe_finsetCard, List.toFinset_card_of_nodup once, size]

/-- A set without members is one of which no version is a member. -/
theorem members_eq_empty_iff : versions.members = ∅ ↔ ∀ version, version ∉ versions :=
  Set.eq_empty_iff_forall_notMem

/-- A set of versions answers as the mathematical set of its members. -/
theorem represents_members (versions : VersionSet) : versions.Represents versions.members where
  ascending := versions.ascending.imp Version.place_lt_iff.2
  yields _ := Iff.rfl
  mirrored := versions.descending_eq_reverse
  contains _ := contains_iff
  size := versions.encard_members
  isEmpty := isEmpty_iff.trans members_eq_empty_iff.symm
  greatest version := by
    simp only [max_eq_ok_iff, Version.place_le_iff, mem_members]
  emptySet cause := by
    rw [max_eq_error_iff, members_eq_empty_iff]

end BuildMatrix.VersionSet

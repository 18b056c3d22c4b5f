import BuildMatrix.Version.Reading

/-!
# Sets of versions

A set of versions is its ascending list, which a search leaves as soon as what is behind is too high.
Every operation is described by one membership law, and two sets with the same members are equal.
-/

namespace BuildMatrix

/-- A finite set of versions, kept as its strictly ascending list. -/
structure VersionSet where
  /-- The members, lowest first. -/
  toList : List Version
  /-- The list ascends strictly, so it holds no version twice. -/
  ascending : toList.Pairwise (· < ·)
deriving DecidableEq

namespace VersionSet

/-- Versions are members of the sets that list them. -/
instance : Membership Version VersionSet where
  mem versions version := version ∈ versions.toList

/-- Whether a version is a member can be computed. -/
instance (version : Version) (versions : VersionSet) : Decidable (version ∈ versions) :=
  inferInstanceAs (Decidable (version ∈ versions.toList))

/-- The set without members. -/
def empty : VersionSet where
  toList := []
  ascending := .nil

/-- The empty set of versions. -/
instance : EmptyCollection VersionSet := ⟨empty⟩

/-- Put a version at its place in an ascending list, or leave the list alone if it is there. -/
def insertAscending (version : Version) : List Version → List Version
  | [] => [version]
  | first :: rest =>
    if version < first then version :: first :: rest
    else if version = first then first :: rest
    else first :: insertAscending version rest

/-- Inserting a version adds it and no other one. -/
@[simp]
theorem mem_insertAscending {version other : Version} {versions : List Version} :
    other ∈ insertAscending version versions ↔ other = version ∨ other ∈ versions := by
  induction versions with
  | nil => simp [insertAscending]
  | cons first rest ih =>
    rw [insertAscending]
    split
    · simp
    · split
      · next same => subst same; simp
      · simp only [List.mem_cons, ih]
        grind

/-- Inserting a version in its place keeps a list ascending. -/
theorem ascending_insertAscending (version : Version) {versions : List Version}
    (ascending : versions.Pairwise (· < ·)) :
    (insertAscending version versions).Pairwise (· < ·) := by
  induction versions with
  | nil => simp [insertAscending]
  | cons first rest ih =>
    obtain ⟨above, tail⟩ := List.pairwise_cons.1 ascending
    rw [insertAscending]
    split
    · next lower =>
      refine List.pairwise_cons.2 ⟨fun other member => ?_, ascending⟩
      rcases List.mem_cons.1 member with rfl | later
      · exact lower
      · exact Version.lt_trans lower (above other later)
    · split
      · exact ascending
      · next notLower different =>
        refine List.pairwise_cons.2 ⟨fun other member => ?_, ih tail⟩
        rcases mem_insertAscending.1 member with rfl | later
        · rcases Version.lt_trichotomy other first with lower | same | higher
          · exact absurd lower notLower
          · exact absurd same different
          · exact higher
        · exact above other later

/-- The set with one more member. -/
def insert (versions : VersionSet) (version : Version) : VersionSet where
  toList := insertAscending version versions.toList
  ascending := ascending_insertAscending version versions.ascending

/-- Look for a version in an ascending list, no further than to the first one that is not lower. -/
def searchAscending (version : Version) : List Version → Bool
  | [] => false
  | first :: rest =>
    if version < first then false
    else if version = first then true
    else searchAscending version rest

/-- A search that stops early misses nothing, because what is behind is higher still. -/
theorem searchAscending_iff {version : Version} {versions : List Version}
    (ascending : versions.Pairwise (· < ·)) :
    searchAscending version versions = true ↔ version ∈ versions := by
  induction versions with
  | nil => simp [searchAscending]
  | cons first rest ih =>
    obtain ⟨above, tail⟩ := List.pairwise_cons.1 ascending
    rw [searchAscending]
    split
    · next lower =>
      have behind : version ∉ rest := fun member =>
        Version.lt_irrefl first (Version.lt_trans (above version member) lower)
      simp [Version.ne_of_lt lower, behind]
    · split
      · next same => simp [same]
      · next different => rw [ih tail, List.mem_cons, or_iff_right different]

/-- The test for a member. -/
def contains (versions : VersionSet) (version : Version) : Bool :=
  searchAscending version versions.toList

/-- The members that pass a test. -/
def filter (versions : VersionSet) (keep : Version → Bool) : VersionSet where
  toList := versions.toList.filter keep
  ascending := versions.ascending.filter keep

/-- The set without one version. -/
def erase (versions : VersionSet) (version : Version) : VersionSet :=
  versions.filter fun other => other ≠ version

/-- The set of the versions in a list. -/
def ofList (versions : List Version) : VersionSet :=
  versions.foldl insert empty

/-- The members of either set. -/
def union (left right : VersionSet) : VersionSet :=
  right.toList.foldl insert left

/-- A list from its far end: the last version, then those before it likewise. -/
def fromEnd : List Version → List Version
  | [] => []
  | first :: rest =>
    (first :: rest).getLast (List.cons_ne_nil first rest) :: fromEnd (first :: rest).dropLast
termination_by versions => versions.length
decreasing_by simp

/-- The members, highest first. -/
def descending (versions : VersionSet) : List Version :=
  fromEnd versions.toList

/-- Test for the set without members. -/
def isEmpty (versions : VersionSet) : Bool :=
  versions.toList.isEmpty

/-- The number of members. -/
def size (versions : VersionSet) : Nat :=
  versions.toList.length

/-- The highest member; an empty set has none. -/
def max (versions : VersionSet) : Except VersionError Version :=
  match versions.toList.getLast? with
  | some version => .ok version
  | none => .error .emptySet

/-- Read every text as a version and collect them; the first text that is none is the error. -/
def parse (texts : List String) : Except VersionError VersionSet :=
  (texts.mapM Version.parse).map ofList

/-- The members' texts, lowest first. -/
def texts (versions : VersionSet) : List String :=
  versions.toList.map Version.render

/-- The members' texts, lowest first, with one space between neighbours. -/
def render (versions : VersionSet) : String :=
  String.ofList (List.intercalate [' '] (versions.toList.map Version.chars))

/-- The members of a set are those of its list. -/
@[simp]
theorem mem_toList {versions : VersionSet} {version : Version} :
    version ∈ versions.toList ↔ version ∈ versions := Iff.rfl

/-- Nothing is a member of the empty set. -/
@[simp]
theorem not_mem_empty (version : Version) : version ∉ empty := by
  show version ∉ []
  simp

/-- The members after an insertion are the inserted version and those before. -/
@[simp]
theorem mem_insert {versions : VersionSet} {version other : Version} :
    other ∈ versions.insert version ↔ other = version ∨ other ∈ versions :=
  mem_insertAscending

/-- Searching a set finds exactly its members. -/
@[simp]
theorem contains_iff {versions : VersionSet} {version : Version} :
    versions.contains version = true ↔ version ∈ versions :=
  searchAscending_iff versions.ascending

/-- The members of a filtered set are those that pass. -/
@[simp]
theorem mem_filter {versions : VersionSet} {keep : Version → Bool} {version : Version} :
    version ∈ versions.filter keep ↔ version ∈ versions ∧ keep version = true :=
  List.mem_filter

/-- The members after an erasure are those before but the erased version. -/
@[simp]
theorem mem_erase {versions : VersionSet} {version other : Version} :
    other ∈ versions.erase version ↔ other ∈ versions ∧ other ≠ version := by
  simp [erase]

/-- Inserting versions one by one adds all of them and no other one. -/
theorem mem_foldl_insert {versions : List Version} {start : VersionSet} {version : Version} :
    version ∈ versions.foldl insert start ↔ version ∈ start ∨ version ∈ versions := by
  induction versions generalizing start with
  | nil => simp
  | cons first rest ih =>
    rw [List.foldl_cons, ih, mem_insert, List.mem_cons]
    grind

/-- The members of a set made from a list are those of the list. -/
@[simp]
theorem mem_ofList {versions : List Version} {version : Version} :
    version ∈ ofList versions ↔ version ∈ versions := by
  simp [ofList, mem_foldl_insert]

/-- The members of a union are those of either set. -/
@[simp]
theorem mem_union {left right : VersionSet} {version : Version} :
    version ∈ left.union right ↔ version ∈ left ∨ version ∈ right := by
  simp [union, mem_foldl_insert]

/-- Sets with the same members are equal. -/
theorem ext {left right : VersionSet} (same : ∀ version, version ∈ left ↔ version ∈ right) :
    left = right := by
  obtain ⟨leftList, leftAscending⟩ := left
  obtain ⟨rightList, rightAscending⟩ := right
  have lists : leftList = rightList := by
    refine List.Perm.eq_of_pairwise (fun first second _ _ less more => ?_) leftAscending
      rightAscending ?_
    · exact absurd (Version.lt_trans less more) (Version.lt_irrefl first)
    · exact (List.perm_ext_iff_of_nodup (leftAscending.imp Version.ne_of_lt)
        (rightAscending.imp Version.ne_of_lt)).2 same
  subst lists
  rfl

end VersionSet

end BuildMatrix

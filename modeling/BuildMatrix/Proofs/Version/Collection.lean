import BuildMatrix.Proofs.Traversal
import BuildMatrix.Proofs.Version.Spelling
import BuildMatrix.Version.Collection

/-!
# Empty sets, greatest members and texts

A set of versions has a highest member unless it has none at all, and that member is the one that no
other exceeds. A list of texts is collected as the versions that its texts name, whatever their order
and number, or fails with its first text that names none. The texts of a set's members are read back
as the members, and collected as the set.
-/

namespace BuildMatrix.VersionSet

variable {versions : VersionSet}

/-- A set is its ascending list. -/
theorem toList_inj {left right : VersionSet} : left.toList = right.toList ↔ left = right := by
  cases left
  cases right
  simp

/-- A set is empty exactly when it has no member. -/
theorem isEmpty_iff : versions.isEmpty = true ↔ ∀ version, version ∉ versions := by
  rw [isEmpty, List.isEmpty_iff, List.eq_nil_iff_forall_not_mem]
  rfl

/-- A set without members is the only one without a highest. -/
theorem max_eq_error_iff {cause : VersionError} :
    versions.max = .error cause ↔ cause = .emptySet ∧ ∀ version, version ∉ versions := by
  rw [← isEmpty_iff, isEmpty, List.isEmpty_iff, max]
  cases last : versions.toList.getLast? with
  | none =>
    have empty := List.getLast?_eq_none_iff.1 last
    simp [empty, eq_comm]
  | some version =>
    have inhabited : versions.toList ≠ [] := by
      intro empty
      simp [empty] at last
    simp [inhabited]

/-- The highest member is the member that no other exceeds. -/
theorem max_eq_ok_iff {greatest : Version} :
    versions.max = .ok greatest ↔
      greatest ∈ versions ∧ ∀ version ∈ versions, version ≤ greatest := by
  have opened : versions.max = .ok greatest ↔ versions.toList.getLast? = some greatest := by
    rw [max]
    cases versions.toList.getLast? <;> simp
  rw [opened]
  obtain ⟨list, ascending⟩ := versions
  show list.getLast? = some greatest ↔ greatest ∈ list ∧ ∀ version ∈ list, version ≤ greatest
  rcases List.eq_nil_or_concat' list with rfl | ⟨lower, last, rfl⟩
  · simp
  · have below : ∀ version ∈ lower, version < last := fun version member =>
      (List.pairwise_append.1 ascending).2.2 version member last (by simp)
    rw [List.getLast?_concat]
    simp only [Option.some.injEq, List.mem_append, List.mem_singleton]
    constructor
    · rintro rfl
      refine ⟨.inr rfl, ?_⟩
      rintro version (member | rfl)
      · exact Version.le_iff_lt_or_eq.2 (.inl (below version member))
      · exact Version.le_iff_lt_or_eq.2 (.inr rfl)
    · rintro ⟨member | rfl, greatest⟩
      · have higher := greatest last (.inr rfl)
        exact absurd (below _ member) (Version.not_lt.2 higher)
      · rfl

/-- A list from its far end is the list reversed. -/
theorem fromEnd_eq_reverse (list : List Version) : fromEnd list = list.reverse := by
  -- Every further version is taken from the end, so the induction is on the length.
  induction size : list.length generalizing list with
  | zero =>
    obtain rfl := List.length_eq_zero_iff.1 size
    simp [fromEnd]
  | succ n ih =>
    obtain ⟨first, rest, rfl⟩ := List.exists_cons_of_length_eq_add_one size
    have shorter : (first :: rest).dropLast.length = n := by simpa using size
    rw [fromEnd, ih _ shorter, ← List.reverse_concat, List.dropLast_concat_getLast]

/-- Iteration from the far end is the mirror of iteration. -/
theorem descending_eq_reverse (versions : VersionSet) :
    versions.descending = versions.toList.reverse :=
  fromEnd_eq_reverse versions.toList

/-! ## Lists of texts -/

/-- Every text of the list is a version, white space around it left out. -/
def Readable (texts : List String) : Prop :=
  ∀ text ∈ texts, ∃ version : Version, version.Spelled (Text.trim text.toList)

/-- A text of the list is the version, white space around it left out. -/
def Named (texts : List String) (version : Version) : Prop :=
  ∃ text ∈ texts, version.Spelled (Text.trim text.toList)

/-- A list is collected when all its texts can be read, and then as the versions that they name. -/
theorem parse_decided (texts : List String) :
    Traversal.Decided (parse texts) (Readable texts) fun versions =>
      ∀ version, version ∈ versions ↔ Named texts version := by
  by_cases readable : Readable texts
  · obtain ⟨list, spelled⟩ := Traversal.exists_forall₂_iff.2 readable
    have read : texts.mapM Version.parse = .ok list :=
      Traversal.mapM_eq_ok_iff.2 (spelled.imp fun _ _ => Version.parse_eq_ok_iff.2)
    refine .inl ⟨readable, ofList list, by rw [parse, read]; rfl, fun version => ?_⟩
    rw [mem_ofList]
    exact Traversal.mem_iff_of_forall₂ spelled fun _ _ _ first second => first.unique second
  · cases read : texts.mapM Version.parse with
    | error failure => exact .inr ⟨readable, failure, by rw [parse, read]; rfl⟩
    | ok list =>
      have spelled := (Traversal.mapM_eq_ok_iff.1 read).imp fun _ _ => Version.parse_eq_ok_iff.1
      exact absurd (Traversal.exists_forall₂_iff.1 ⟨list, spelled⟩) readable

/-- What a list is collected as depends on which versions its texts name, and on nothing else. -/
theorem parse_eq_ok_iff {texts : List String} {versions : VersionSet} :
    parse texts = .ok versions ↔
      Readable texts ∧ ∀ version, version ∈ versions ↔ Named texts version := by
  rcases parse_decided texts with ⟨readable, made, read, named⟩ | ⟨unreadable, failure, failed⟩
  · rw [read, Except.ok.injEq, and_iff_right readable]
    constructor
    · rintro rfl
      exact named
    · intro same
      exact ext fun version => (named version).trans (same version).symm
  · simp [failed, unreadable]

/-- A list fails with the failure of its first text that cannot be read. -/
theorem parse_eq_error_iff {texts : List String} {cause : VersionError} :
    parse texts = .error cause ↔
      ∃ before text after, texts = before ++ text :: after ∧ Readable before ∧
        Version.parse text = .error cause := by
  have opened : parse texts = .error cause ↔ texts.mapM Version.parse = .error cause := by
    rw [parse]
    cases texts.mapM Version.parse <;> simp [Except.map]
  rw [opened, Traversal.mapM_eq_error_iff]
  simp only [Version.parse_eq_ok_iff, Readable]

/-- The order of a list and the repetitions in it do not count. -/
theorem parse_congr {texts others : List String} (same : ∀ text, text ∈ texts ↔ text ∈ others)
    {versions : VersionSet} : parse texts = .ok versions ↔ parse others = .ok versions := by
  simp only [parse_eq_ok_iff, Readable, Named, same]

/-- The texts of versions are read back in their order. -/
theorem mapM_parse_render (list : List Version) :
    (list.map Version.render).mapM Version.parse = .ok list := by
  rw [Traversal.mapM_eq_ok_iff, List.forall₂_map_left_iff, List.forall₂_same]
  exact fun version member => version.parse_render

/-- The texts of versions are collected as the versions are. -/
theorem parse_render (list : List Version) :
    parse (list.map Version.render) = .ok (ofList list) := by
  rw [parse, mapM_parse_render]
  rfl

/-- The texts of a set are read back as its ascending list. -/
theorem mapM_parse_texts (versions : VersionSet) :
    versions.texts.mapM Version.parse = .ok versions.toList :=
  mapM_parse_render versions.toList

/-- The members of a set make up the set. -/
theorem ofList_toList (versions : VersionSet) : ofList versions.toList = versions :=
  ext fun _ => mem_ofList

/-- A set is collected again from its texts. -/
theorem parse_texts (versions : VersionSet) : parse versions.texts = .ok versions := by
  rw [texts, parse_render, ofList_toList]

/-- Sets are known by their texts. -/
theorem texts_inj {left right : VersionSet} : left.texts = right.texts ↔ left = right := by
  constructor
  · intro same
    have read := congrArg parse same
    rw [parse_texts, parse_texts] at read
    exact Except.ok.inj read
  · rintro rfl
    rfl

end BuildMatrix.VersionSet

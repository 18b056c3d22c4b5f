import BuildMatrix.Proofs.Json.Writing
import BuildMatrix.Proofs.Version.Collection
import BuildMatrix.Report

/-!
# The document form

The document form of a resolution is one JSON value and a line break. What is read from it is an
object with the resolution's values, each under a name of its own, and nothing else, so resolutions
that differ in one of these values have different documents.
-/

namespace BuildMatrix.Report

open Json (Document Once Never Reads Spells)

/-- The members of an object are a resolution's values, each under its own name. -/
structure Carries (members : List (String × Document)) (resolution : Resolution) : Prop where
  /-- The versions, lowest first. -/
  versions : Once "versions" (.array (resolution.versions.texts.map .string)) members
  /-- The version to build with. -/
  buildVersion : Once "build_version" (.string resolution.buildVersion.render) members
  /-- The same versions once more, as the only member of a matrix. -/
  matrix : Once "matrix"
    (.object [("python-version", .array (resolution.versions.texts.map .string))]) members
  /-- The key or the word for what selected the versions. -/
  declaredBy : Once "declared_by" (.string (selectorName resolution.declaredBy)) members
  /-- A declared expression is there as it was declared. -/
  constraint : ∀ declared, resolution.declaredBy = .constraint declared →
    Once "constraint" (.string declared.expression) members
  /-- Classifiers have no expression. -/
  unconstrained : resolution.declaredBy = .classifiers → Never "constraint" members
  /-- Where the candidates came from. -/
  origin : Once "candidate_source" (.string resolution.origin.name) members
  /-- Warnings are there in their order. -/
  warnings : resolution.warnings ≠ [] → Once "warnings"
    (.array ((resolution.warnings.map EndOfLifeWarning.text).map .string)) members
  /-- Without warnings there is no list of them. -/
  unwarned : resolution.warnings = [] → Never "warnings" members
  /-- There are no other members. -/
  known : ∀ member ∈ members, member.1 ∈ ["versions", "build_version", "matrix", "declared_by",
    "constraint", "candidate_source", "warnings"]

/-- The document of a resolution carries its values. -/
theorem exists_carried (resolution : Resolution) :
    ∃ members, document resolution = .object members ∧ Carries members resolution := by
  refine ⟨_, rfl, ?_⟩
  obtain ⟨versions, buildVersion, declaredBy, origin, warnings, path⟩ := resolution
  cases declaredBy with
  | constraint declared =>
    cases warnings with
    | nil => constructor <;> simp [expression?, texts, matrixKey]
    | cons warning warnings => constructor <;> simp [expression?, texts, matrixKey]
  | classifiers =>
    cases warnings with
    | nil => constructor <;> simp [expression?, texts, matrixKey]
    | cons warning warnings => constructor <;> simp [expression?, texts, matrixKey]

/-! ## What a document tells apart -/

variable {members : List (String × Document)} {first second : Resolution}

/-- A list of texts is known by its document. -/
theorem texts_inj {left right : List String} :
    Document.array (left.map .string) = .array (right.map .string) ↔ left = right := by
  have apart : Function.Injective Document.string := fun _ _ => Document.string.inj
  rw [Document.array.injEq, apart.list_map.eq_iff]

/-- Distinct keys have distinct paths. -/
theorem path_inj {key other : ConstraintKey} (same : key.path = other.path) : key = other := by
  cases key <;> cases other <;> simp [ConstraintKey.path] at same ⊢

/-- Distinct origins have distinct names. -/
theorem name_inj {origin other : CandidateOrigin} (same : origin.name = other.name) :
    origin = other := by
  cases origin <;> cases other <;> simp [CandidateOrigin.name] at same ⊢

/-- The key and the expression tell what selected the versions. -/
theorem Carries.declaredBy_eq (one : Carries members first) (other : Carries members second) :
    first.declaredBy = second.declaredBy := by
  have named := Document.string.inj (one.declaredBy.unique other.declaredBy)
  cases left : first.declaredBy with
  | classifiers =>
    cases right : second.declaredBy with
    | classifiers => rfl
    | constraint again =>
      exact absurd (one.unconstrained left) (other.constraint again right).not_never
  | constraint declared =>
    cases right : second.declaredBy with
    | classifiers => exact absurd (other.unconstrained right) (one.constraint declared left).not_never
    | constraint again =>
      rw [left, right] at named
      have keys : declared.key = again.key := path_inj named
      have expressions : declared.expression = again.expression :=
        Document.string.inj ((one.constraint declared left).unique (other.constraint again right))
      cases declared
      cases again
      congr

/-- The list of warnings tells their texts, and its absence that there are none. -/
theorem Carries.warnings_eq (one : Carries members first) (other : Carries members second) :
    first.warnings.map EndOfLifeWarning.text = second.warnings.map EndOfLifeWarning.text := by
  by_cases left : first.warnings = []
  · by_cases right : second.warnings = []
    · rw [left, right]
    · exact absurd (one.unwarned left) (other.warnings right).not_never
  · by_cases right : second.warnings = []
    · exact absurd (other.unwarned right) (one.warnings left).not_never
    · exact texts_inj.1 ((one.warnings left).unique (other.warnings right))

/-- Two resolutions have the same document when their values are the same. -/
theorem document_eq_iff : document first = document second ↔
    first.versions = second.versions ∧ first.buildVersion = second.buildVersion ∧
      first.declaredBy = second.declaredBy ∧ first.origin = second.origin ∧
      first.warnings.map EndOfLifeWarning.text = second.warnings.map EndOfLifeWarning.text := by
  constructor
  · intro same
    obtain ⟨members, shape, one⟩ := exists_carried first
    obtain ⟨others, otherShape, other⟩ := exists_carried second
    rw [shape, otherShape, Document.object.injEq] at same
    subst same
    have versions := texts_inj.1 (one.versions.unique other.versions)
    have buildVersions := Document.string.inj (one.buildVersion.unique other.buildVersion)
    have origins := Document.string.inj (one.origin.unique other.origin)
    exact ⟨VersionSet.texts_inj.1 versions, Version.render_inj.1 buildVersions,
      one.declaredBy_eq other, name_inj origins, one.warnings_eq other⟩
  · rintro ⟨versions, buildVersions, declarations, origins, warnings⟩
    have empty : first.warnings.isEmpty = second.warnings.isEmpty := by
      have lengths := congrArg List.isEmpty warnings
      rwa [List.isEmpty_map, List.isEmpty_map] at lengths
    rw [document, document, versions, buildVersions, declarations, origins, warnings, empty]

/-! ## The whole document -/

/-- The document form is read as the document. -/
theorem reads_json_iff (resolution : Resolution) (read : Document) :
    Reads (json resolution) read ↔ read = document resolution := by
  have shape : json resolution = String.ofList ((document resolution).chars 0 ++ ['\n']) := by
    rw [json, Document.render, String.ofList_append]
  have blank : Json.IsBlank ['\n'] := List.forall_mem_singleton.2 (.inr rfl)
  rw [shape]
  exact Json.reads_iff_of_written ((document resolution).written 0) blank read

/-- The document form of a resolution is one JSON value and one line break. It is read as an object
that carries the resolution's values, with the versions ascending, and as nothing else; and two
resolutions have the same document form exactly when these values are the same. -/
theorem json_reads_back (resolution : Resolution) :
    (∃ layout tree, json resolution = layout ++ "\n" ∧ Spells (Text.encodeUtf8 layout) tree []) ∧
      (∃ members, (∀ read, Reads (json resolution) read ↔ read = .object members) ∧
        Carries members resolution) ∧
      resolution.versions.toList.Pairwise (· < ·) ∧
      ∀ other, json resolution = json other ↔
        resolution.versions = other.versions ∧ resolution.buildVersion = other.buildVersion ∧
          resolution.declaredBy = other.declaredBy ∧ resolution.origin = other.origin ∧
          resolution.warnings.map EndOfLifeWarning.text =
            other.warnings.map EndOfLifeWarning.text := by
  refine ⟨⟨(document resolution).render, (document resolution).tree, rfl, ?_⟩, ?_,
    resolution.versions.ascending, fun other => ?_⟩
  · have spelled := (document resolution).written 0 []
    rw [List.append_nil] at spelled
    rw [Document.render, Text.encodeUtf8_ofList]
    exact spelled
  · obtain ⟨members, shape, carries⟩ := exists_carried resolution
    refine ⟨members, fun read => ?_, carries⟩
    rw [reads_json_iff, shape]
  · rw [← document_eq_iff]
    constructor
    · intro same
      have reads := (reads_json_iff other _).2 rfl
      rw [← same, reads_json_iff] at reads
      exact reads.symm
    · intro same
      rw [json, json, same]

end BuildMatrix.Report

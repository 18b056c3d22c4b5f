import BuildMatrix.Proofs.Report.Document

/-!
# The text form

The text form of a resolution is three lines, each a name, an equals sign and a value, and no value
breaks its line. The versions between spaces, those of the matrix and those of the document form are
the same list, which is read back as the set; so different sets have different text forms.
-/

namespace BuildMatrix.Report

open Json (Document Once Reads Written)

variable {versions : VersionSet}

/-! ## The list of versions -/

/-- No separator is among the characters of a version. -/
theorem not_mem_chars {c : Char} (other : c ≠ '.' ∧ c.isDigit = false) (version : Version) :
    c ∉ version.chars := by
  intro member
  rcases version.spelled_chars.chars c member with dot | digit
  · exact other.1 dot
  · rw [other.2] at digit
    exact nomatch digit

/-- A set with members is written as their texts with spaces between them. -/
theorem splitOn_render (inhabited : versions.toList ≠ []) :
    List.splitOn ' ' versions.render.toList = versions.texts.map String.toList := by
  have parts : versions.texts.map String.toList = versions.toList.map Version.chars := by
    simp [VersionSet.texts, Version.render]
  have absent : ∀ part ∈ versions.toList.map Version.chars, ' ' ∉ part :=
    List.forall_mem_map.2 fun version _ => not_mem_chars (by decide) version
  rw [parts, VersionSet.render, String.toList_ofList]
  exact List.splitOn_intercalate ' ' absent (by simpa using inhabited)

/-- Nothing is written for a set exactly when it has no member. -/
theorem render_eq_nil_iff : versions.render.toList = [] ↔ versions.toList = [] := by
  constructor
  · intro nothing
    by_contra inhabited
    have parts := splitOn_render inhabited
    rw [nothing, VersionSet.texts, List.map_map] at parts
    obtain ⟨version, others, shape⟩ := List.exists_cons_of_ne_nil inhabited
    rw [shape, List.map_cons] at parts
    have bare : [] = version.render.toList := (List.cons.inj parts).1
    have read := version.ofChars?_chars
    rw [Version.render, String.toList_ofList] at bare
    rw [← bare] at read
    simp [Version.ofChars?, List.splitOn] at read
  · intro empty
    simp [VersionSet.render, empty]

/-- The list of versions stands on one line. -/
theorem newline_not_mem_render (versions : VersionSet) : '\n' ∉ versions.render.toList := by
  intro member
  rw [VersionSet.render, String.toList_ofList] at member
  rcases Text.mem_intercalate member with space | ⟨part, within, holds⟩
  · exact absurd space (by decide)
  · obtain ⟨version, -, rfl⟩ := List.mem_map.1 within
    exact not_mem_chars (by decide) version holds

/-! ## The matrix -/

/-- A matrix is read as an object with the list of versions under its only key. -/
theorem reads_matrix_iff (versions : VersionSet) (read : Document) :
    Reads (matrix versions) read ↔
      read = .object [("python-version", .array (versions.texts.map .string))] := by
  have items : List.Forall₂ Written (versions.toList.map fun version => Json.quote version.chars)
      (Json.itemTrees (versions.texts.map .string)) := by
    rw [Json.itemTrees_eq_map, VersionSet.texts, List.map_map, List.map_map,
      List.forall₂_map_left_iff, List.forall₂_map_right_iff, List.forall₂_same]
    intro version member
    have text : version.render.toList = version.chars := String.toList_ofList
    show Written (Json.quote version.chars) (.string (Json.escaped version.render.toList))
    rw [text]
    exact Json.written_quote version.chars
  have list := Json.written_array Json.isBlank_nil Json.isBlank_nil items
  have member := Json.written_member matrixKey.toList list
  have whole : Written _
      (Document.object [("python-version", .array (versions.texts.map .string))]).tree :=
    Json.written_object Json.isBlank_nil Json.isBlank_nil (.cons member .nil)
  have shape : matrix versions = String.ofList (matrixChars versions ++ []) := by
    rw [matrix, List.append_nil]
  rw [shape]
  refine Json.reads_iff_of_written ?_ Json.isBlank_nil read
  simpa [matrixChars, List.intercalate] using whole

/-- A matrix stands on one line. -/
theorem newline_not_mem_matrix (versions : VersionSet) : '\n' ∉ (matrix versions).toList := by
  have items : '\n' ∉ List.intercalate [','] (versions.toList.map fun version =>
      Json.quote version.chars) := by
    intro member
    rcases Text.mem_intercalate member with comma | ⟨part, within, holds⟩
    · exact absurd comma (by decide)
    · obtain ⟨version, -, rfl⟩ := List.mem_map.1 within
      exact Json.newline_not_mem_quote version.chars holds
  have key := Json.newline_not_mem_quote matrixKey.toList
  rw [matrix, String.toList_ofList, matrixChars]
  simp [items, key]

/-! ## Lines -/

/-- A line whose value does not break it is one field of the text. -/
theorem splitOn_line {name value : String} (named : '\n' ∉ name.toList)
    (valued : '\n' ∉ value.toList) (rest : List Char) :
    List.splitOn '\n' ((line name value).toList ++ rest) =
      (name ++ "=" ++ value).toList :: List.splitOn '\n' rest := by
  have whole : '\n' ∉ (name ++ "=" ++ value).toList := by simp [named, valued]
  have ended : (line name value).toList ++ rest =
      (name ++ "=" ++ value).toList ++ '\n' :: rest := by simp [line]
  rw [ended, List.splitOn_append_cons_self_of_not_mem whole]

/-- The text form is three lines, and nothing follows the last one. -/
theorem splitOn_text (resolution : Resolution) :
    List.splitOn '\n' (text resolution).toList =
      [("python-versions=" ++ resolution.versions.render).toList,
        ("build-version=" ++ resolution.buildVersion.render).toList,
        ("matrix=" ++ matrix resolution.versions).toList, []] := by
  have build : '\n' ∉ resolution.buildVersion.render.toList := by
    rw [Version.render, String.toList_ofList]
    exact not_mem_chars (by decide) resolution.buildVersion
  have lines : (text resolution).toList =
      (line "python-versions" resolution.versions.render).toList ++
        ((line "build-version" resolution.buildVersion.render).toList ++
          ((line "matrix" (matrix resolution.versions)).toList ++ [])) := by
    rw [text, String.toList_append, String.toList_append, List.append_assoc, List.append_nil]
  rw [lines, splitOn_line (by decide) (newline_not_mem_render resolution.versions),
    splitOn_line (by decide) build,
    splitOn_line (by decide) (newline_not_mem_matrix resolution.versions)]
  simp [List.splitOn]

/-- The text form of a resolution is three lines. The first value holds the texts of the versions
with spaces between them, ascending and each once, and nothing when there are none; they are read
back as the versions and collected as the set. The second value is the version to build with. The
third value is read as an object whose only member is the list of the same texts, and the document
form holds the same list twice. So resolutions of different sets have different text forms. -/
theorem text_reads_back (resolution : Resolution) :
    ∃ (first second third : String) (entries : List String),
      List.splitOn '\n' (text resolution).toList =
        [("python-versions=" ++ first).toList, ("build-version=" ++ second).toList,
          ("matrix=" ++ third).toList, []] ∧
      (first = "" ↔ ∀ version, version ∉ resolution.versions) ∧
      (first = "" → entries = []) ∧
      (first ≠ "" → List.splitOn ' ' first.toList = entries.map String.toList) ∧
      entries.mapM Version.parse = .ok resolution.versions.toList ∧
      resolution.versions.toList.Pairwise (· < ·) ∧
      VersionSet.parse entries = .ok resolution.versions ∧
      Version.parse second = .ok resolution.buildVersion ∧
      (∀ read, Reads third read ↔
        read = .object [("python-version", .array (entries.map .string))]) ∧
      (∃ members, (∀ read, Reads (json resolution) read ↔ read = .object members) ∧
        Once "versions" (.array (entries.map .string)) members ∧
        Once "matrix" (.object [("python-version", .array (entries.map .string))]) members) ∧
      ∀ other, text resolution = text other → resolution.versions = other.versions := by
  have nothing : resolution.versions.render = "" ↔ resolution.versions.toList = [] := by
    rw [← render_eq_nil_iff, String.toList_eq_nil_iff]
  refine ⟨resolution.versions.render, resolution.buildVersion.render, matrix resolution.versions,
    resolution.versions.texts, splitOn_text resolution, ?_, ?_, ?_,
    resolution.versions.mapM_parse_texts, resolution.versions.ascending,
    resolution.versions.parse_texts, resolution.buildVersion.parse_render,
    reads_matrix_iff resolution.versions, ?_, ?_⟩
  · rw [nothing, List.eq_nil_iff_forall_not_mem]
    rfl
  · intro blank
    rw [VersionSet.texts, nothing.1 blank, List.map_nil]
  · intro filled
    exact splitOn_render fun empty => filled (nothing.2 empty)
  · obtain ⟨members, shape, carries⟩ := exists_carried resolution
    refine ⟨members, fun read => ?_, carries.versions, carries.matrix⟩
    rw [reads_json_iff, shape]
  · intro other same
    have fields := splitOn_text resolution
    rw [same, splitOn_text other] at fields
    have thirds := (List.cons.inj (List.cons.inj (List.cons.inj fields).2).2).1
    rw [String.toList_append, String.toList_append] at thirds
    have matrices : matrix other.versions = matrix resolution.versions :=
      String.toList_inj.1 (List.append_cancel_left thirds)
    have reads := (reads_matrix_iff other.versions _).2 rfl
    rw [matrices, reads_matrix_iff, Document.object.injEq, List.cons.injEq, Prod.mk.injEq,
      texts_inj, VersionSet.texts_inj] at reads
    exact reads.1.2.symm

end BuildMatrix.Report

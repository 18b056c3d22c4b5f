import BuildMatrix.Proofs.FirstOccurrences
import BuildMatrix.Proofs.Manifest.Layout
import BuildMatrix.Proofs.Manifest.Search

/-!
# What a manifest text lists

The versions of a manifest text are those that a search of its active lines finds, each once, in the
order of the places where they are found first. What stands on a line without shared quotes is
found, so in a text of such lines it is the order of the places where versions occur first. A text
behind another one adds the versions that the first one does not list.
-/

namespace BuildMatrix.Manifest

/-- A place on the active lines of a text. -/
structure Place where
  /-- The number of lines above. -/
  line : Nat
  /-- The number of characters in front, on the same line. -/
  column : Nat

/-- One place comes before another in the text. -/
def Place.Before (first second : Place) : Prop :=
  first.line < second.line ∨ first.line = second.line ∧ first.column < second.column

/-- A classifier with this version stands at a place: its two runs of digits are ASCII and denote
words. -/
def OccursAt (content : String) (version : Version) (place : Place) : Prop :=
  ∃ line, ∃ classifier : Classifier, (activeLines content.toList)[place.line]? = some line ∧
    classifier.StandsAt line place.column ∧ version.Spelled classifier.number

/-- A search of an active line finds a classifier with this version at a place. -/
def FoundAt (content : String) (version : Version) (place : Place) : Prop :=
  ∃ line finds number, (activeLines content.toList)[place.line]? = some line ∧
    Search 0 line finds ∧ (place.column, number) ∈ finds ∧ version.Spelled number

/-- The first place of one version is before every place of another. -/
def Precedes (located : Version → Place → Prop) (first second : Version) : Prop :=
  ∃ place, located first place ∧ ∀ other, located second other → place.Before other

variable {content : String} {version : Version} {place : Place}

/-- No place is before itself. -/
theorem Place.not_before_self (place : Place) : ¬ place.Before place := by
  intro before
  rcases before with line | ⟨-, column⟩
  · exact Nat.lt_irrefl _ line
  · exact Nat.lt_irrefl _ column

/-- What is before an earlier place is before a later one. -/
theorem Place.Before.trans {first second third : Place} (before : first.Before second)
    (later : second.Before third) : first.Before third := by
  unfold Place.Before at *
  omega

/-- Of two versions at most one precedes the other. -/
theorem Precedes.asymm {located : Version → Place → Prop} {first second : Version}
    (ahead : Precedes located first second) : ¬ Precedes located second first := by
  intro behind
  obtain ⟨place, here, before⟩ := ahead
  obtain ⟨other, there, after⟩ := behind
  have round : place.Before place := (before other there).trans (after place here)
  exact place.not_before_self round

/-! ## Reading at a place -/

/-- The version that is read at a place. -/
def versionAt? (content : String) (place : Place) : Option Version :=
  (activeLines content.toList)[place.line]?.bind fun line =>
    (classifierAt? (line.drop place.column)).bind fun found => Version.ofChars? found.1

/-- A version stands at a place exactly when it is read there. -/
theorem occursAt_iff : OccursAt content version place ↔ versionAt? content place = some version := by
  simp only [versionAt?, Option.bind_eq_some_iff, Version.ofChars?_eq_some_iff]
  constructor
  · rintro ⟨line, classifier, active, stands, spelled⟩
    have read := Classifier.classifierAt?_drop_eq_some_iff.2 ⟨classifier, stands, rfl, rfl⟩
    exact ⟨line, active, _, read, spelled⟩
  · rintro ⟨line, active, found, read, spelled⟩
    obtain ⟨classifier, stands, same, -⟩ := Classifier.classifierAt?_drop_eq_some_iff.1 read
    exact ⟨line, classifier, active, stands, same ▸ spelled⟩

/-- Whether a version stands at a place can be computed. -/
instance : Decidable (OccursAt content version place) :=
  decidable_of_iff _ occursAt_iff.symm

/-! ## Found and there -/

/-- What is found is there. -/
theorem FoundAt.occursAt (found : FoundAt content version place) :
    OccursAt content version place := by
  obtain ⟨line, finds, number, active, search, member, spelled⟩ := found
  obtain ⟨classifier, offset, stands, column, rfl⟩ := search.standsAt member
  rw [Nat.zero_add] at column
  exact ⟨line, classifier, active, column ▸ stands, spelled⟩

/-- A version that stands at a place stands on an active line. -/
theorem OccursAt.exists_line (occurs : OccursAt content version place) :
    ∃ line, (activeLines content.toList)[place.line]? = some line := by
  obtain ⟨line, -, active, -⟩ := occurs
  exact ⟨line, active⟩

/-- What is there on a line without shared quotes is found. -/
theorem OccursAt.foundAt {line : List Char} (occurs : OccursAt content version place)
    (active : (activeLines content.toList)[place.line]? = some line)
    (unshared : Unshared line) : FoundAt content version place := by
  obtain ⟨same, classifier, also, stands, spelled⟩ := occurs
  obtain rfl := Option.some.inj (active.symm.trans also)
  obtain ⟨finds, search⟩ := exists_search 0 line
  have member := search.complete unshared stands
  rw [Nat.zero_add] at member
  exact ⟨line, finds, classifier.number, active, search, member, spelled⟩

/-! ## The versions of one line -/

/-- The versions among what is found on a line, each with its place. -/
def located (line : Nat) (finds : List (Nat × List Char)) : List (Place × Version) :=
  finds.filterMap fun find =>
    (Version.ofChars? find.2).map fun version => (⟨line, find.1⟩, version)

section Located

variable {line : Nat} {finds : List (Nat × List Char)}

/-- The versions located on a line are those that its numbers spell. -/
theorem map_snd_located (line : Nat) (finds : List (Nat × List Char)) :
    (located line finds).map Prod.snd = (finds.map Prod.snd).filterMap Version.ofChars? := by
  rw [located, List.map_filterMap, List.filterMap_map]
  congr 1
  funext find
  simp only [Option.map_map, Function.comp_def, Option.map_id']

/-- A version is located where a number of the line spells it. -/
theorem mem_located :
    (place, version) ∈ located line finds ↔
      place.line = line ∧ ∃ number, (place.column, number) ∈ finds ∧ version.Spelled number := by
  simp only [located, List.mem_filterMap, Option.map_eq_some_iff, Version.ofChars?_eq_some_iff]
  constructor
  · rintro ⟨⟨column, number⟩, member, read, spelled, here⟩
    obtain ⟨rfl, rfl⟩ := Prod.mk.inj here
    exact ⟨rfl, number, member, spelled⟩
  · rintro ⟨rfl, number, member, spelled⟩
    exact ⟨(place.column, number), member, version, spelled, rfl⟩

/-- Versions are located in the order of the columns of their numbers. -/
theorem pairwise_located (ascending : finds.Pairwise fun earlier later => earlier.1 < later.1)
    (line : Nat) :
    (located line finds).Pairwise fun first second => first.1.Before second.1 := by
  rw [located, List.pairwise_filterMap]
  refine ascending.imp fun {earlier later} columns first one second other => ?_
  obtain ⟨version, -, rfl⟩ := Option.map_eq_some_iff.1 one
  obtain ⟨version, -, rfl⟩ := Option.map_eq_some_iff.1 other
  exact .inr ⟨rfl, columns⟩

end Located

/-! ## The versions of a text -/

/-- What is found on the lines of a text, in order, and its versions without repetition. -/
theorem exists_found (content : String) :
    ∃ found : List (Place × Version),
      classifiers content = (found.map Prod.snd).eraseDups ∧
      found.Pairwise (fun first second => first.1.Before second.1) ∧
      ∀ place version, (place, version) ∈ found ↔ FoundAt content version place := by
  choose finds search using exists_search 0
  let lines := (activeLines content.toList).zipIdx
  refine ⟨lines.flatMap fun line => located line.2 (finds line.1), ?_, ?_, fun place version => ?_⟩
  · have versions : ∀ line : List Char × Nat, (located line.2 (finds line.1)).map Prod.snd =
        (classifierTexts 0 line.1).filterMap Version.ofChars? := by
      intro line
      rw [map_snd_located, (search line.1).classifierTexts_eq]
    have unnumbered : activeLines content.toList = lines.map Prod.fst :=
      (List.zipIdx_map_fst 0 _).symm
    rw [classifiers, List.map_flatMap, unnumbered, List.flatMap_map]
    simp only [versions]
  · have ascending : lines.Pairwise fun upper lower => upper.2 < lower.2 := by
      have numbers : (lines.map Prod.snd).Pairwise (· < ·) := by
        rw [List.zipIdx_map_snd]
        exact List.pairwise_lt_range' 1
      exact List.pairwise_map.1 numbers
    rw [List.pairwise_flatMap]
    refine ⟨fun line _ => pairwise_located (search line.1).ascending line.2,
      ascending.imp fun {upper lower} above first one second other => ?_⟩
    have upperLine := (mem_located.1 one).1
    have lowerLine := (mem_located.1 other).1
    refine .inl ?_
    rwa [upperLine, lowerLine]
  · rw [List.mem_flatMap]
    constructor
    · rintro ⟨⟨line, index⟩, member, here⟩
      obtain ⟨rfl, number, found, spelled⟩ := mem_located.1 here
      have active := List.mk_mem_zipIdx_iff_getElem?.1 member
      exact ⟨line, finds line, number, active, search line, found, spelled⟩
    · rintro ⟨line, others, number, active, again, found, spelled⟩
      rw [again.unique (search line)] at found
      exact ⟨(line, place.line), List.mk_mem_zipIdx_iff_getElem?.2 active,
        mem_located.2 ⟨rfl, number, found, spelled⟩⟩

/-- A text lists what is found on its lines. -/
theorem mem_classifiers_iff :
    version ∈ classifiers content ↔ ∃ place, FoundAt content version place := by
  obtain ⟨found, listed, -, places⟩ := exists_found content
  rw [listed, List.mem_eraseDups, List.mem_map]
  constructor
  · rintro ⟨⟨place, same⟩, member, rfl⟩
    exact ⟨place, (places place same).1 member⟩
  · rintro ⟨place, there⟩
    exact ⟨(place, version), (places place version).2 there, rfl⟩

/-- The versions stand in the order of the places where they are found first. -/
theorem pairwise_classifiers (content : String) :
    (classifiers content).Pairwise (Precedes (FoundAt content)) := by
  obtain ⟨found, listed, ascending, places⟩ := exists_found content
  rw [listed]
  refine (FirstOccurrences.pairwise_eraseDups found ascending).imp fun {first second} ordered => ?_
  obtain ⟨place, member, ahead⟩ := ordered
  exact ⟨place, (places _ _).1 member, fun other there => ahead other ((places _ _).2 there)⟩

/-- No version is before itself, so none is listed twice. -/
theorem nodup_classifiers (content : String) : (classifiers content).Nodup := by
  refine (pairwise_classifiers content).imp fun {first second} ordered same => ?_
  obtain ⟨place, found, ahead⟩ := ordered
  exact place.not_before_self (ahead place (same ▸ found))

/-- A text behind another one adds the versions that the first one does not list. -/
theorem classifiers_append (content other : String) :
    classifiers (content ++ "\n" ++ other) =
      classifiers content ++
        (classifiers other).filter fun version => version ∉ classifiers content := by
  have split : (content ++ "\n" ++ other).toList = content.toList ++ '\n' :: other.toList := by
    simp
  unfold classifiers
  rw [split, activeLines_append, List.flatMap_append, FirstOccurrences.eraseDups_append_filter]

/-- Nothing is listed that is not there. What is there on a line without shared quotes is listed.
The versions stand in the order of the places where they are found first, in a text without shared
quotes where they occur first, and none twice. A text behind another one adds the versions that the
first one does not list. -/
theorem classifiers_in_order (content : String) :
    (∀ version ∈ classifiers content, ∃ place, OccursAt content version place) ∧
    (∀ version place line, (activeLines content.toList)[place.line]? = some line →
      Unshared line → OccursAt content version place → version ∈ classifiers content) ∧
    (classifiers content).Nodup ∧
    (classifiers content).Pairwise (Precedes (FoundAt content)) ∧
    ((∀ line ∈ activeLines content.toList, Unshared line) →
      (classifiers content).Pairwise (Precedes (OccursAt content))) ∧
    ∀ other : String, classifiers (content ++ "\n" ++ other) =
      classifiers content ++
        (classifiers other).filter fun version => version ∉ classifiers content := by
  refine ⟨fun version member => ?_, fun version place line active unshared occurs => ?_,
    nodup_classifiers content, pairwise_classifiers content, fun unshared => ?_,
    classifiers_append content⟩
  · obtain ⟨place, found⟩ := mem_classifiers_iff.1 member
    exact ⟨place, found.occursAt⟩
  · exact mem_classifiers_iff.2 ⟨place, occurs.foundAt active unshared⟩
  · refine (pairwise_classifiers content).imp fun {first second} ordered => ?_
    obtain ⟨place, found, ahead⟩ := ordered
    refine ⟨place, found.occursAt, fun other occurs => ahead other ?_⟩
    obtain ⟨line, active⟩ := occurs.exists_line
    exact occurs.foundAt active (unshared line (List.mem_of_getElem? active))

/-- Two lines with three classifiers, of which the last one repeats the version of the first. -/
def repeatedVersion : String :=
  "['Programming Language::Python :: 3.9', \"Programming Language::Python::3.8\",\n" ++
    "'Programming Language :: Python :: 03.9']"

/-- A version that is named again keeps the place of its first name. -/
theorem classifiers_in_order_of_repeated_version :
    (∀ line ∈ activeLines repeatedVersion.toList, Unshared line) ∧
    classifiers repeatedVersion = [⟨3, 9⟩, ⟨3, 8⟩] ∧
    (classifiers repeatedVersion).Pairwise (Precedes (OccursAt repeatedVersion)) := by
  have apart : (activeLines repeatedVersion.toList).all readsApart = true := by decide +kernel
  have unshared : ∀ line ∈ activeLines repeatedVersion.toList, Unshared line :=
    fun line active => readsApart_iff.1 (List.all_eq_true.1 apart line active)
  exact ⟨unshared, by decide +kernel, (classifiers_in_order repeatedVersion).2.2.2.2.1 unshared⟩

/-- A classifier that begins with the closing quote of another one, above two others. -/
def sharedQuote : String :=
  "'Programming Language::Python::1.0'Programming Language::Python::2.0'\n" ++
    "'Programming Language::Python::3.0'\n'Programming Language::Python::2.0'"

/-- What begins with a shared quote is passed over, so its version is listed where it is found. -/
theorem classifiers_not_in_order_of_shared_quote :
    classifiers sharedQuote = [⟨1, 0⟩, ⟨3, 0⟩, ⟨2, 0⟩] ∧
    ¬ (classifiers sharedQuote).Pairwise (Precedes (OccursAt sharedQuote)) := by
  have listed : classifiers sharedQuote = [⟨1, 0⟩, ⟨3, 0⟩, ⟨2, 0⟩] := by decide +kernel
  have shared : OccursAt sharedQuote ⟨2, 0⟩ ⟨0, 34⟩ := by decide +kernel
  have others : ((List.range 35).all fun column =>
      versionAt? sharedQuote ⟨0, column⟩ != some ⟨3, 0⟩) = true := by decide +kernel
  have absent : ∀ column < 35, ¬ OccursAt sharedQuote ⟨3, 0⟩ ⟨0, column⟩ := by
    intro column within occurs
    have other := List.all_eq_true.1 others column (List.mem_range.2 within)
    rw [occursAt_iff.1 occurs] at other
    exact nomatch other
  have ahead : Precedes (OccursAt sharedQuote) ⟨2, 0⟩ ⟨3, 0⟩ := by
    refine ⟨⟨0, 34⟩, shared, fun other occurs => ?_⟩
    obtain ⟨line, column⟩ := other
    rcases Nat.eq_zero_or_pos line with rfl | below
    · have further : 34 < column := by
        by_contra close
        exact absent column (by omega) occurs
      exact .inr ⟨rfl, further⟩
    · exact .inl below
  refine ⟨listed, fun ordered => ?_⟩
  rw [listed] at ordered
  simp only [List.pairwise_cons, List.mem_cons] at ordered
  exact ahead.asymm (ordered.2.1 _ (.inl rfl))

end BuildMatrix.Manifest

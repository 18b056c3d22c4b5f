import BuildMatrix.Proofs.Manifest.Occurrence
import Mathlib.Data.Nat.Find

/-!
# Searching for classifiers

A line is searched from left to right, and behind each classifier that is found the search goes on
behind its closing quote. So a classifier that begins with the closing quote of one that was found
is passed over, and nothing else is: on a line without shared quotes the search finds everything
that stands there. The scanner reads what a search finds.
-/

namespace BuildMatrix.Manifest

/-! ## One line -/

/-- What a search of a text finds, with columns counted from `column` on: the leftmost classifier,
and then what a search of the text behind its closing quote finds. -/
inductive Search : (column : Nat) → (text : List Char) → List (Nat × List Char) → Prop
  /-- There is no classifier. -/
  | nothing {column : Nat} {text : List Char}
      (absent : ∀ (classifier : Classifier) place, ¬ classifier.StandsAt text place) :
      Search column text []
  /-- The leftmost classifier is found. -/
  | leftmost {column : Nat} {text before after : List Char} {classifier : Classifier}
      {finds : List (Nat × List Char)} (split : text = before ++ (classifier.chars ++ after))
      (first : ∀ (other : Classifier) place, other.StandsAt text place → before.length ≤ place)
      (behind : Search (column + before.length + classifier.chars.length) after finds) :
      Search column text ((column + before.length, classifier.number) :: finds)

/-- No classifier on the line begins with the quote that ends another one. Classifiers have nothing
else in common. -/
def Unshared (line : List Char) : Prop :=
  ∀ (first second : Classifier) (column other : Nat), first.StandsAt line column →
    second.StandsAt line other → column + first.chars.length ≠ other + 1

variable {column offset : Nat} {text front rest : List Char} {finds : List (Nat × List Char)}
  {classifier : Classifier}

/-- The end of a line shares no quote when the line shares none. -/
theorem Unshared.of_append (unshared : Unshared (front ++ rest)) : Unshared rest := by
  intro first second column other earlier later
  have apart := unshared first second _ _ (earlier.append front) (later.append front)
  omega

/-- No classifier is read at the closing quote of another one. -/
def readsApart (line : List Char) : Bool :=
  (List.range line.length).all fun column =>
    (classifierAt? (line.drop column)).all fun found =>
      (classifierAt? (line.drop (line.length - (found.2.length + 1)))).isNone

/-- The test for shared quotes passes exactly the lines that share none. -/
theorem readsApart_iff {line : List Char} : readsApart line = true ↔ Unshared line := by
  have behind : ∀ {first : Classifier} {column : Nat}, first.StandsAt line column →
      column + first.chars.length + (line.drop (column + first.chars.length)).length =
        line.length := by
    rintro first column ⟨before, after, rfl, rfl⟩
    simp only [List.length_append, List.length_drop]
    omega
  simp only [readsApart, List.all_eq_true, List.mem_range, Option.all_eq_true,
    Option.isNone_iff_eq_none]
  constructor
  · intro apart first second column other earlier later joined
    have total := behind earlier
    have length := first.length_chars
    have read := Classifier.classifierAt?_drop_eq_some_iff.2 ⟨first, earlier, rfl, rfl⟩
    have place : line.length - ((line.drop (column + first.chars.length)).length + 1) = other := by
      omega
    have passed := apart column (by omega) _ read
    rw [place, Classifier.classifierAt?_drop_eq_some_iff.2 ⟨second, later, rfl, rfl⟩] at passed
    exact nomatch passed
  · intro unshared column within found read
    obtain ⟨first, earlier, -, rest⟩ := Classifier.classifierAt?_drop_eq_some_iff.1 read
    have total := behind earlier
    have length := first.length_chars
    rw [rest] at total
    rw [Option.eq_none_iff_forall_ne_some]
    intro other also
    obtain ⟨second, later, -⟩ := Classifier.classifierAt?_drop_eq_some_iff.1 also
    exact unshared first second _ _ earlier later (by omega)

/-- Whether classifiers share a quote on a line can be computed. -/
instance (line : List Char) : Decidable (Unshared line) :=
  decidable_of_iff _ readsApart_iff

/-- A text with a classifier has a leftmost one. -/
theorem exists_leftmost (present : ∃ (classifier : Classifier) (place : Nat),
    classifier.StandsAt text place) :
    ∃ (before : List Char) (classifier : Classifier) (after : List Char),
      text = before ++ (classifier.chars ++ after) ∧
      ∀ (other : Classifier) place, other.StandsAt text place → before.length ≤ place := by
  classical
  have located : ∃ place, ∃ classifier : Classifier, classifier.StandsAt text place := by
    obtain ⟨classifier, place, stands⟩ := present
    exact ⟨place, classifier, stands⟩
  obtain ⟨classifier, before, after, split, place⟩ := Nat.find_spec located
  refine ⟨before, classifier, after, split, fun other offset stands => ?_⟩
  rw [place]
  exact Nat.find_min' located ⟨other, stands⟩

/-- Every text can be searched. -/
theorem exists_search (column : Nat) (text : List Char) : ∃ finds, Search column text finds := by
  -- What stands behind a classifier is shorter than the text.
  induction size : text.length using Nat.strongRecOn generalizing column text with
  | ind n ih =>
    by_cases present : ∃ (classifier : Classifier) (place : Nat), classifier.StandsAt text place
    · obtain ⟨before, classifier, after, split, first⟩ := exists_leftmost present
      have shorter : after.length < n := by
        have length := classifier.length_chars
        rw [← size, split, List.length_append, List.length_append]
        omega
      obtain ⟨finds, behind⟩ :=
        ih after.length shorter (column + before.length + classifier.chars.length) after rfl
      exact ⟨_, .leftmost split first behind⟩
    · refine ⟨[], .nothing fun classifier place stands => present ⟨classifier, place, stands⟩⟩

/-- A search finds one thing only. -/
theorem Search.unique {others : List (Nat × List Char)} (found : Search column text finds)
    (again : Search column text others) : finds = others := by
  induction found generalizing others with
  | nothing absent =>
    cases again with
    | nothing => rfl
    | leftmost split => exact absurd ⟨_, _, split, rfl⟩ (absent _ _)
  | @leftmost column text before after classifier finds split first behind ih =>
    cases again with
    | nothing absent => exact absurd ⟨_, _, split, rfl⟩ (absent _ _)
    | @leftmost _ _ front rest other others same least further =>
      have forward := first other _ ⟨front, rest, same, rfl⟩
      have backward := least classifier _ ⟨before, after, split, rfl⟩
      have lengths : before.length = front.length := Nat.le_antisymm forward backward
      obtain ⟨rfl, parts⟩ := List.append_inj (split.symm.trans same) lengths
      obtain ⟨number, rfl⟩ := Classifier.unique parts
      have width : classifier.chars.length = other.chars.length := by
        have total := congrArg List.length parts
        simp only [List.length_append] at total
        omega
      rw [← width] at further
      rw [number, ih further]

/-- What a search finds stands on the text. -/
theorem Search.standsAt {place : Nat} {number : List Char} (found : Search column text finds)
    (member : (place, number) ∈ finds) :
    ∃ (classifier : Classifier) (offset : Nat), classifier.StandsAt text offset ∧
      place = column + offset ∧ classifier.number = number := by
  induction found with
  | nothing => exact nomatch member
  | @leftmost column text before after classifier finds split first behind ih =>
    rcases List.mem_cons.1 member with here | later
    · obtain ⟨rfl, rfl⟩ := Prod.mk.inj here
      exact ⟨classifier, before.length, ⟨before, after, split, rfl⟩, rfl, rfl⟩
    · obtain ⟨other, offset, stands, rfl, same⟩ := ih later
      have shifted := stands.append (before ++ classifier.chars)
      rw [List.append_assoc, ← split, List.length_append] at shifted
      exact ⟨other, _, shifted, by omega, same⟩

/-- The columns of what a search finds ascend. -/
theorem Search.ascending (found : Search column text finds) :
    finds.Pairwise fun earlier later => earlier.1 < later.1 := by
  induction found with
  | nothing => exact .nil
  | @leftmost column text before after classifier finds split first behind ih =>
    refine List.pairwise_cons.2 ⟨fun later member => ?_, ih⟩
    obtain ⟨other, offset, -, place, -⟩ := behind.standsAt member
    have length := classifier.length_chars
    rw [place]
    dsimp only
    omega

/-- On a text without shared quotes a search finds everything that stands there. -/
theorem Search.complete (found : Search column text finds) (unshared : Unshared text)
    (stands : classifier.StandsAt text offset) :
    (column + offset, classifier.number) ∈ finds := by
  induction found generalizing offset with
  | nothing absent => exact absurd stands (absent _ _)
  | @leftmost column text before after other finds split first behind ih =>
    have leads : other.StandsAt text before.length := ⟨before, after, split, rfl⟩
    rcases Nat.eq_or_lt_of_le (first classifier offset stands) with same | further
    · obtain ⟨front, rest, again, length⟩ := stands
      obtain ⟨-, parts⟩ := List.append_inj (split.symm.trans again) (same.trans length.symm)
      rw [(Classifier.unique parts).1, ← same]
      exact List.mem_cons_self
    · have apart := leads.apart stands further
      have distinct := unshared other classifier _ _ leads stands
      let width := (before ++ other.chars).length
      have length : width = before.length + other.chars.length := List.length_append
      have whole : text = (before ++ other.chars) ++ after := by rw [split, List.append_assoc]
      have place : offset = width + (offset - width) := by omega
      rw [whole] at unshared
      rw [whole, place] at stands
      have member := ih unshared.of_append stands.of_append
      have columns : column + before.length + other.chars.length + (offset - width) =
          column + offset := by omega
      rw [columns] at member
      exact List.mem_cons_of_mem _ member

/-! ## The scanner -/

/-- Searching a line behind what is covered is searching the rest of it. -/
theorem classifierTexts_covered (covered : Nat) (line : List Char) :
    classifierTexts covered line = classifierTexts 0 (line.drop covered) := by
  induction line generalizing covered with
  | nil => simp [classifierTexts]
  | cons c rest ih =>
    cases covered with
    | zero => rfl
    | succ covered => rw [classifierTexts, ih, List.drop_succ_cons]

/-- Behind a classifier the scanner goes on. -/
theorem classifierTexts_chars (classifier : Classifier) (after : List Char) :
    classifierTexts 0 (classifier.chars ++ after) =
      classifier.number :: classifierTexts 0 after := by
  have read := classifier.classifierAt?_chars after
  rw [classifier.chars_eq, List.cons_append] at read ⊢
  have length : (classifier.interior ++ [classifier.closing] ++ after).length - after.length =
      (classifier.interior ++ [classifier.closing]).length := by
    rw [List.length_append, Nat.add_sub_cancel]
  rw [classifierTexts, read]
  dsimp only
  rw [classifierTexts_covered, length, List.drop_left]

/-- Where no classifier begins the scanner passes on. -/
theorem classifierTexts_append (before : List Char)
    (first : ∀ (other : Classifier) place, other.StandsAt (before ++ text) place →
      before.length ≤ place) :
    classifierTexts 0 (before ++ text) = classifierTexts 0 text := by
  induction before with
  | nil => rfl
  | cons c before ih =>
    have none : classifierAt? (c :: (before ++ text)) = none := by
      rw [Option.eq_none_iff_forall_ne_some]
      rintro ⟨number, after⟩ read
      obtain ⟨classifier, split, -⟩ := exists_of_classifierAt? read
      have begins := first classifier 0 ⟨[], after, split, rfl⟩
      exact absurd begins (Nat.not_succ_le_zero _)
    have later : ∀ (other : Classifier) place, other.StandsAt (before ++ text) place →
        before.length ≤ place := by
      intro other place stands
      have bound := first other _ (stands.append [c])
      rw [List.length_cons, List.length_singleton] at bound
      omega
    rw [List.cons_append, classifierTexts, none]
    exact ih later

/-- The scanner reads what a search finds. -/
theorem Search.classifierTexts_eq (found : Search column text finds) :
    classifierTexts 0 text = finds.map Prod.snd := by
  induction found with
  | @nothing _ text absent =>
    have passed : classifierTexts 0 (text ++ []) = classifierTexts 0 [] := by
      refine classifierTexts_append text fun other place stands => ?_
      rw [List.append_nil] at stands
      exact absurd stands (absent other place)
    rw [List.append_nil] at passed
    exact passed
  | leftmost split first behind ih =>
    subst split
    rw [classifierTexts_append _ first, classifierTexts_chars, ih]
    rfl

end BuildMatrix.Manifest

import BuildMatrix.Proofs.Candidates.Cycles

/-!
# Identifiers with margins

A release cycle is taken when its identifier is a version once it is trimmed, so white space around
a version does not keep a cycle from counting. Leaving out the cycles whose trimmed identifier has
another shape changes nothing. Leaving out those whose identifier as a whole has another shape
changes nothing exactly when the cycles with margins say nothing of their own.
-/

namespace BuildMatrix

/-- The whole text is two runs of decimal digits of any script with a dot between them. -/
def Version.isShaped (text : List Char) : Bool :=
  match List.splitOn '.' text with
  | [major, minor] => Text.isDigitRun major && Text.isDigitRun minor
  | _ => false

/-- A text has the shape of a version when it is two runs of digits around a dot. -/
theorem Version.isShaped_iff {text : List Char} :
    Version.isShaped text = true ↔
      ∃ major minor, text = major ++ '.' :: minor ∧ Text.isDigitRun major = true ∧
        Text.isDigitRun minor = true := by
  constructor
  · intro shaped
    unfold isShaped at shaped
    split at shaped
    · next major minor parts =>
      have runs := Bool.and_eq_true_iff.1 shaped
      exact ⟨major, minor, (Text.splitOn_eq_pair_iff.1 parts).1, runs.1, runs.2⟩
    · exact nomatch shaped
  · rintro ⟨major, minor, rfl, first, second⟩
    have dotless {run : List Char} (digits : Text.isDigitRun run = true) : '.' ∉ run := by
      intro member
      have decimal := (isDigitRun_iff.1 digits).2 '.' member
      exact (decimal_ne decimal).1 rfl
    rw [isShaped, Text.splitOn_eq_pair_iff.2 ⟨rfl, dotless first, dotless second⟩]
    exact Bool.and_eq_true_iff.2 ⟨first, second⟩

/-- Every spelling of a version has the shape. -/
theorem Version.Spelled.isShaped {text : List Char} {version : Version}
    (spelled : version.Spelled text) : Version.isShaped text = true := by
  obtain ⟨major, minor, split, series, release⟩ := spelled
  apply Version.isShaped_iff.2
  have first := isDigitRun_iff.2 ⟨series.nonempty, series.decimal⟩
  have second := isDigitRun_iff.2 ⟨release.nonempty, release.decimal⟩
  exact ⟨major, minor, split, first, second⟩

namespace ReleaseCycle

/-- The cycles whose identifier as a whole has the shape of a version. -/
def shaped (cycles : List ReleaseCycle) : List ReleaseCycle :=
  cycles.filter fun cycle => Version.isShaped cycle.cycle.toList

/-- The cycles whose identifier has the shape of a version once it is trimmed. -/
def shapedWithin (cycles : List ReleaseCycle) : List ReleaseCycle :=
  cycles.filter fun cycle => Version.isShaped (Text.trim cycle.cycle.toList)

/-- A cycle that names a version has its shape between its margins. -/
theorem naming_shapedWithin (version : Version) (cycles : List ReleaseCycle) :
    naming version (shapedWithin cycles) = naming version cycles := by
  rw [naming, naming, shapedWithin, List.filter_filter]
  apply List.filter_congr
  intro cycle _
  by_cases names : Version.parse cycle.cycle = .ok version
  · have shaped := (Version.parse_eq_ok_iff.1 names).isShaped
    simp [shaped]
  · simp [names]

/-- Without margins there is nothing to trim. -/
theorem shaped_eq_shapedWithin {cycles : List ReleaseCycle}
    (bare : ∀ cycle ∈ cycles, Text.trim cycle.cycle.toList = cycle.cycle.toList) :
    shaped cycles = shapedWithin cycles := by
  apply List.filter_congr
  intro cycle member
  rw [bare cycle member]

end ReleaseCycle

namespace Candidates

open ReleaseCycle (naming shaped shapedWithin)

/-- Fewer cycles say the same about a version at their end exactly when there is a last one among
them that repeats the last one of all. -/
theorem map_getLast?_eq_iff {fewer all : List ReleaseCycle} (sublist : fewer.Sublist all) :
    fewer.getLast?.map ReleaseCycle.lifecycle = all.getLast?.map ReleaseCycle.lifecycle ↔
      ∀ last ∈ all.getLast?, ∃ cycle ∈ fewer.getLast?, cycle.lifecycle = last.lifecycle := by
  cases whole : all.getLast? with
  | none =>
    have empty : all = [] := List.getLast?_eq_none_iff.1 whole
    have nothing : fewer = [] := List.sublist_nil.1 (empty ▸ sublist)
    simp [nothing]
  | some last => simp

/-- White space around a version does not keep a cycle from counting: only the shape between the
margins matters. The cycles whose whole identifier has the shape are enough exactly when, for every
version above the floor that a cycle names, there is such a cycle too and the last one of them says
what the last cycle of the version says; so they are enough when no identifier has margins. -/
theorem ofCycles_shaped_iff (cycles : List ReleaseCycle) (floor : Version) :
    ofCycles (shapedWithin cycles) floor = ofCycles cycles floor ∧
    (ofCycles (shaped cycles) floor = ofCycles cycles floor ↔
      ∀ version, floor ≤ version → ∀ last ∈ (naming version cycles).getLast?,
        ∃ cycle ∈ (naming version (shaped cycles)).getLast?,
          cycle.lifecycle = last.lifecycle) ∧
    ((∀ cycle ∈ cycles, Text.trim cycle.cycle.toList = cycle.cycle.toList) →
      ofCycles (shaped cycles) floor = ofCycles cycles floor) := by
  have within : ofCycles (shapedWithin cycles) floor = ofCycles cycles floor := by
    apply ofCycles_congr
    intro version _
    exact ReleaseCycle.naming_shapedWithin version cycles
  refine ⟨within, ?exact, ?bare⟩
  case exact =>
    rw [ofCycles_eq_iff]
    refine forall_congr' fun version => imp_congr_right fun _ => map_getLast?_eq_iff ?_
    exact List.filter_sublist.filter _
  case bare =>
    intro bare
    rw [ReleaseCycle.shaped_eq_shapedWithin bare]
    exact within

/-- A release, the same release with a space in front of it, and another one with a space behind. -/
def cyclesWithMargins : List ReleaseCycle :=
  [⟨"3.15", .scheduled ⟨2031, 10, 31, by decide⟩⟩, ⟨" 3.15", .ended⟩, ⟨"3.16 ", .unscheduled⟩]

/-- A cycle with margins overrides what is said about its version, and another one adds a version;
without the two there is one version, and its support goes on. -/
theorem ofCycles_takes_margins :
    (ofCycles cyclesWithMargins defaultFloor).entries =
      [(⟨3, 15⟩, .ended), (⟨3, 16⟩, .unscheduled)] ∧
    (ofCycles (shaped cyclesWithMargins) defaultFloor).entries =
      [(⟨3, 15⟩, .scheduled ⟨2031, 10, 31, by decide⟩)] ∧
    ¬ ∀ (cycles : List ReleaseCycle) (floor : Version),
      ofCycles (shaped cycles) floor = ofCycles cycles floor := by
  have taken : (ofCycles cyclesWithMargins defaultFloor).entries =
      [(⟨3, 15⟩, .ended), (⟨3, 16⟩, .unscheduled)] := by decide
  have without : (ofCycles (shaped cyclesWithMargins) defaultFloor).entries =
      [(⟨3, 15⟩, .scheduled ⟨2031, 10, 31, by decide⟩)] := by decide
  refine ⟨taken, without, ?_⟩
  intro claimed
  have same := congrArg Candidates.entries (claimed cyclesWithMargins defaultFloor)
  rw [taken, without] at same
  exact absurd same (by decide)

end Candidates

end BuildMatrix

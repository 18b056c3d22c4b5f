import BuildMatrix.Proofs.Candidates.Acquisition
import BuildMatrix.Proofs.Manifest.Classifier
import BuildMatrix.Proofs.Manifest.Location
import BuildMatrix.Proofs.Policy
import BuildMatrix.Proofs.Resolution.Declaration

/-!
# What runs guarantee

A run that succeeds publishes versions it can answer for: they are candidates that the manifest asks
for, none of them past its end unless that is warned about, and the build version is the highest of
them. A registry that has nothing to offer leaves no trace in a run, which ends as it would offline.
-/

namespace BuildMatrix.Resolution

variable {options : Options} {files : Storage.Files} {source : Option Registry.Source}
  {candidates : Candidates} {content path : String} {today : Date}

/-! ## From the manifest to a resolution -/

/-- A resolution is what the declaration selects and the policy leaves of that, with the highest
version of it. -/
theorem ofManifest_eq_ok_iff {resolution : Resolution} :
    ofManifest options path content candidates today = .ok resolution ↔
      ∃ selected,
        ofDeclaration content path candidates.versions = .ok (selected, resolution.declaredBy) ∧
        Policy.apply options.endOfLifeMode selected candidates today =
          .ok ⟨resolution.versions, resolution.warnings⟩ ∧
        resolution.versions.max = .ok resolution.buildVersion ∧
        resolution.origin = candidates.origin ∧ resolution.manifestPath = path := by
  simp only [ofManifest, Traversal.bind_eq_ok_iff, Traversal.mapError_eq_ok_iff]
  constructor
  · rintro ⟨⟨selected, declaredBy⟩, declared, outcome, applied, buildVersion, greatest, built⟩
    cases built
    exact ⟨selected, declared, applied, greatest, rfl, rfl⟩
  · rintro ⟨selected, declared, applied, greatest, origin, located⟩
    refine ⟨_, declared, _, applied, _, greatest, ?_⟩
    rw [← origin, ← located]
    rfl

/-- There is always a highest version left, so a resolution fails for the declaration or the policy
only. -/
theorem ofManifest_error {failure : Failure}
    (failed : ofManifest options path content candidates today = .error failure) :
    failure.OfDeclaration := by
  simp only [ofManifest, Traversal.bind_eq_error_iff, Traversal.mapError_eq_error_iff,
    Traversal.mapError_eq_ok_iff] at failed
  rcases failed with undeclared | ⟨⟨selected, declaredBy⟩, declared, rejected⟩
  · exact ofDeclaration_error undeclared
  · rcases rejected with ⟨cause, -, rfl⟩ | ⟨outcome, applied, topless⟩
    · trivial
    · obtain ⟨some, -⟩ := ofDeclaration_selects declared
      obtain ⟨version, left⟩ := (Policy.apply_keeps applied).2 some
      rcases topless with ⟨cause, empty, -⟩ | ⟨buildVersion, -, returned⟩
      · exact absurd left ((VersionSet.max_eq_error_iff.1 empty).2 version)
      · exact nomatch returned

/-! ## Runs -/

/-- The candidates that a run resolves against. -/
def acquired (options : Options) (source : Option Registry.Source) : Candidates :=
  (Candidates.acquire options.offline options.minVersion source).1

/-- A run without a manifest fails with what kept it from the manifest, and sends nothing. -/
theorem run_of_manifest_error {failure : Failure}
    (failed : manifest files options.workingDirectory = .error failure) :
    run options files source today = (.error failure, []) := by
  rw [run, failed]

/-- A run with a manifest is the resolution of that against the candidates acquired, and sends what
acquiring them takes. -/
theorem run_of_manifest (found : manifest files options.workingDirectory = .ok (path, content)) :
    run options files source today =
      (ofManifest options path content (acquired options source) today,
        (Candidates.acquire options.offline options.minVersion source).2) := by
  rw [run, found]
  rfl

/-- A failure of a run is about its manifest, its constraint, its versions or its configuration. -/
theorem run_error {failure : Failure}
    (failed : (run options files source today).1 = .error failure) :
    (∃ cause, failure = .manifest cause) ∨ (∃ cause, failure = .constraint cause) ∨
      (∃ cause, failure = .resolve cause) ∨ ∃ cause, failure = .config cause := by
  cases found : manifest files options.workingDirectory with
  | error cause =>
    rw [run_of_manifest_error found] at failed
    obtain rfl : cause = failure := Except.error.inj failed
    rcases manifest_error found with unread | misplaced
    · exact .inl unread
    · exact .inr (.inr (.inr misplaced))
  | ok located =>
    obtain ⟨path, content⟩ := located
    rw [run_of_manifest found] at failed
    have about : failure.OfDeclaration := ofManifest_error failed
    cases failure with
    | manifest cause => exact .inl ⟨cause, rfl⟩
    | constraint cause => exact .inr (.inl ⟨cause, rfl⟩)
    | resolve cause => exact .inr (.inr (.inl ⟨cause, rfl⟩))
    | config cause => exact about.elim
    | version cause => exact about.elim

/-- A run that succeeds resolves the text of its manifest against the candidates it acquires. -/
theorem run_eq_ok_iff {resolution : Resolution} :
    (run options files source today).1 = .ok resolution ↔
      ∃ path content, manifest files options.workingDirectory = .ok (path, content) ∧
        ofManifest options path content (acquired options source) today = .ok resolution := by
  cases found : manifest files options.workingDirectory with
  | error failure =>
    rw [run_of_manifest_error found]
    simp
  | ok located =>
    obtain ⟨path, content⟩ := located
    rw [run_of_manifest found]
    simp

/-- What is known of a resolution: it follows from a manifest text, the candidates it was resolved
against, the mode and the day. -/
structure Guaranteed (content : String) (candidates : Candidates) (mode : EndOfLifeMode)
    (today : Date) (resolution : Resolution) : Prop where
  /-- There is a version. -/
  inhabited : resolution.versions.toList ≠ []
  /-- The versions ascend strictly. -/
  ascending : resolution.versions.toList.Pairwise (· < ·)
  /-- The build version is one of them, and none exceeds it. -/
  greatest : resolution.buildVersion ∈ resolution.versions ∧
    ∀ version ∈ resolution.versions, version ≤ resolution.buildVersion
  /-- Every version is a candidate. -/
  candidate : ∀ version ∈ resolution.versions, version ∈ candidates.versions
  /-- A constraint in charge is the one the manifest declares, and every version satisfies it. -/
  declared : ∀ declared, resolution.declaredBy = .constraint declared →
    Manifest.constraint? content = some declared ∧ Constraint.WellFormed declared.expression ∧
      ∀ version ∈ resolution.versions, Constraint.Admits declared.expression version
  /-- With the classifiers in charge, one of them lists each version. -/
  listed : resolution.declaredBy = .classifiers →
    ∀ version ∈ resolution.versions, Manifest.Lists content version
  /-- Only a mode that warns lets versions past their end through. -/
  supported : mode ≠ .warn →
    ∀ version ∈ resolution.versions, ¬ candidates.PastEnd today version
  /-- Warnings about kept versions name those past their end, each once and lowest first. -/
  warned : mode = .warn →
    (resolution.warnings.map fun warning => warning.version).Pairwise (· < ·) ∧
      ∀ version, version ∈ resolution.warnings.map (fun warning => warning.version) ↔
        version ∈ resolution.versions ∧ candidates.PastEnd today version

/-- Resolving a manifest text guarantees as much. -/
theorem guaranteed_of_ofManifest {resolution : Resolution}
    (resolved : ofManifest options path content candidates today = .ok resolution) :
    Guaranteed content candidates options.endOfLifeMode today resolution := by
  obtain ⟨selected, declared, applied, greatest, -⟩ := ofManifest_eq_ok_iff.1 resolved
  obtain ⟨some, among⟩ := ofDeclaration_selects declared
  obtain ⟨kept, inhabited⟩ := Policy.apply_keeps applied
  constructor
  case inhabited =>
    obtain ⟨version, member⟩ := inhabited some
    exact List.ne_nil_of_mem member
  case ascending => exact resolution.versions.ascending
  case greatest => exact VersionSet.max_eq_ok_iff.1 greatest
  case candidate => exact fun version member => among version (kept version member)
  case declared =>
    intro chosen inCharge
    rw [inCharge] at declared
    rcases ofDeclaration_eq_ok_iff.1 declared with ⟨_, found, selects, same⟩ | ⟨-, other, -⟩
    · cases same
      obtain ⟨wellFormed, -, members⟩ := Constraint.resolve_eq_ok_iff.1 selects
      refine ⟨found, wellFormed, fun version member => ?_⟩
      exact ((members version).1 (kept version member)).2
    · exact nomatch other
  case listed =>
    intro inCharge version member
    rw [inCharge] at declared
    rcases ofDeclaration_eq_ok_iff.1 declared with ⟨_, -, -, other⟩ | ⟨-, -, rfl, -⟩
    · exact nomatch other
    · exact Manifest.lists_of_mem_classifiers (mem_classified.1 (kept version member)).1
  case supported => exact fun strict => Policy.apply_rejects strict applied
  case warned =>
    intro lenient
    rw [lenient] at applied
    exact Policy.apply_warn_reports applied

/-- A run that succeeds does so on the text of its manifest file, with all that is guaranteed of a
resolution; and a run never fails for want of a highest version. -/
theorem run_guarantees (options : Options) (files : Storage.Files)
    (source : Option Registry.Source) (today : Date) :
    (∀ resolution, (run options files source today).1 = .ok resolution →
      ∃ content,
        files (Storage.join options.workingDirectory Manifest.fileName) =
          .file (Text.encodeUtf8 content) ∧
        Guaranteed content (acquired options source) options.endOfLifeMode today resolution) ∧
    ∀ cause, (run options files source today).1 ≠ .error (.version cause) := by
  constructor
  · intro resolution published
    obtain ⟨path, content, found, resolved⟩ := run_eq_ok_iff.1 published
    obtain ⟨-, rfl, text⟩ := manifest_eq_ok_iff.1 found
    exact ⟨content, text, guaranteed_of_ofManifest resolved⟩
  · intro cause failed
    rcases run_error failed with ⟨_, other⟩ | ⟨_, other⟩ | ⟨_, other⟩ | ⟨_, other⟩ <;>
      exact nomatch other

/-- A tree whose only regular file is the manifest of the current directory. -/
def onlyManifest (content : String) : Storage.Files := fun path =>
  if path = "./pyproject.toml" then .file (Text.encodeUtf8 content) else .directory

/-- Stripping leaves the candidates that are neither below the floor nor past their end. -/
theorem run_guarantees_of_listing :
    ∃ resolution content,
      (run { endOfLifeMode := .strip } (onlyManifest "requires-python = \">=3.9\"\n")
        (some (.listing [⟨"3.12", .unscheduled⟩, ⟨"3.11", .ended⟩, ⟨"3.7", .ended⟩]))
        ⟨2026, 1, 1, by decide⟩).1 = .ok resolution ∧
      resolution.versions.toList = [⟨3, 12⟩] ∧
      Guaranteed content
        (acquired { endOfLifeMode := .strip }
          (some (.listing [⟨"3.12", .unscheduled⟩, ⟨"3.11", .ended⟩, ⟨"3.7", .ended⟩])))
        .strip ⟨2026, 1, 1, by decide⟩ resolution := by
  have published : (run { endOfLifeMode := .strip }
      (onlyManifest "requires-python = \">=3.9\"\n")
      (some (.listing [⟨"3.12", .unscheduled⟩, ⟨"3.11", .ended⟩, ⟨"3.7", .ended⟩]))
      ⟨2026, 1, 1, by decide⟩).1 =
        .ok { versions := ⟨[⟨3, 12⟩], by decide⟩, buildVersion := ⟨3, 12⟩
              declaredBy := .constraint ⟨">=3.9", .requiresPython⟩, origin := .live
              warnings := [⟨⟨3, 11⟩, none, .removed⟩], manifestPath := "./pyproject.toml" } := by
    decide
  obtain ⟨content, -, guaranteed⟩ := (run_guarantees _ _ _ _).1 _ published
  exact ⟨_, content, published, rfl, guaranteed⟩

/-! ## Registry trouble -/

/-- A run hears of the source through the candidates only. -/
theorem run_congr {others : Options} {other : Option Registry.Source}
    (directory : others.workingDirectory = options.workingDirectory)
    (mode : others.endOfLifeMode = options.endOfLifeMode)
    (same : acquired others other = acquired options source) :
    (run others files other today).1 = (run options files source today).1 := by
  cases found : manifest files options.workingDirectory with
  | error failure =>
    rw [run_of_manifest_error found, run_of_manifest_error (by rw [directory, found])]
  | ok located =>
    obtain ⟨path, content⟩ := located
    rw [run_of_manifest found, run_of_manifest (by rw [directory, found])]
    show ofManifest others path content _ today = ofManifest options path content _ today
    rw [same]
    simp only [ofManifest, mode]

/-- Without a version on offer a run ends as it would offline, and no failure tells of a registry.
With one, the candidates are live and exactly the versions on offer. There are always candidates,
each with its lifecycle. Offline, and without a manifest that can be had, nothing is sent. -/
theorem run_hides_registry_trouble (options : Options) (files : Storage.Files)
    (source : Option Registry.Source) (today : Date) :
    ((∀ version, ¬ Candidates.Offers options.minVersion source version) →
      (run options files source today).1 =
        (run { options with offline := true } files source today).1) ∧
    (∀ failure, (run options files source today).1 = .error failure →
      (∃ cause, failure = .manifest cause) ∨ (∃ cause, failure = .constraint cause) ∨
        (∃ cause, failure = .resolve cause) ∨ ∃ cause, failure = .config cause) ∧
    (options.offline = false →
      (∃ version, Candidates.Offers options.minVersion source version) →
        (acquired options source).origin = .live ∧
        (∀ version, version ∈ (acquired options source).versions ↔
          Candidates.Offers options.minVersion source version) ∧
        ∀ version ∈ (acquired options source).versions, options.minVersion ≤ version) ∧
    (acquired options source).versions.toList ≠ [] ∧
    (∀ version, version ∈ (acquired options source).versions ↔
      ∃ lifecycle, (acquired options source).lifecycle? version = some lifecycle) ∧
    (options.offline = true → (run options files source today).2 = []) ∧
    (∀ failure, manifest files options.workingDirectory = .error failure →
      run options files source today = (.error failure, [])) := by
  refine ⟨fun none => ?_, fun failure failed => run_error failed, fun online offer => ?_, ?_,
    fun version => Candidates.mem_versions_iff, fun offline => ?_,
    fun failure failed => run_of_manifest_error failed⟩
  · have fallback : acquired options source = Candidates.builtIn :=
      Candidates.acquire_of_no_offer none options.offline
    have offline : acquired { options with offline := true } source = Candidates.builtIn := by
      rw [acquired, Candidates.acquire_offline]
    exact run_congr rfl rfl (fallback.trans offline.symm)
  · obtain ⟨offered, offer⟩ := offer
    obtain ⟨live, members⟩ := Candidates.acquire_of_offer offer
    rw [acquired, online]
    exact ⟨live, members, fun version member => ((members version).1 member).floor_le⟩
  · obtain ⟨version, member⟩ :=
      Candidates.exists_mem_acquire options.offline options.minVersion source
    exact List.ne_nil_of_mem member
  · cases found : manifest files options.workingDirectory with
    | error failure => rw [run_of_manifest_error found]
    | ok located =>
      obtain ⟨path, content⟩ := located
      rw [run_of_manifest found, offline, Candidates.acquire_offline]

/-- A registry that is always at fault offers nothing, so the run that asks it ends as offline. -/
theorem run_hides_registry_trouble_of_outage :
    let url : Registry.Url :=
      ⟨"https".toList, some "endoflife.date".toList, "/api/python.json".toList, none, none⟩
    let outage : Registry.Source := .web (some url) 3 fun _ => .answered 503 none
    let files := onlyManifest "requires-python = \">=3.9\"\n"
    let day : Date := ⟨2026, 1, 1, by decide⟩
    (∀ version, ¬ Candidates.Offers Candidates.defaultFloor (some outage) version) ∧
    (run {} files (some outage) day).1 = (run { offline := true } files (some outage) day).1 := by
  intro url outage files day
  have none : ∀ version, ¬ Candidates.Offers Candidates.defaultFloor (some outage) version := by
    rintro version ⟨asked, cycles, same, delivered, -⟩
    rw [← Option.some.inj same] at delivered
    obtain ⟨_, _, -, -, ⟨skipped, -, -, success⟩, -⟩ :=
      Registry.Source.delivers_web_iff.1 delivered
    have faulty : (Registry.Reply.answered 503 none).Transient := .inr ⟨by decide, by decide⟩
    exact success.not_transient faulty
  exact ⟨none, (run_hides_registry_trouble {} _ _ _).1 none⟩

end BuildMatrix.Resolution

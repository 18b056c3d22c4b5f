import BuildMatrix.Proofs.Resolution.Run
import BuildMatrix.Proofs.Storage.Walk

/-!
# Runs that cannot have their manifest

What keeps a run from its manifest is told by the disk and the working directory alone, and it is
told before anything is asked of a registry. There are three such causes, of which at most one
applies: the working directory is something else, there is no regular file at the manifest's path,
or the file there is no text. Without them the text of the file is what gets resolved, and whatever
fails then is about what the text says.
-/

namespace BuildMatrix

open Storage

/-! ## Failures of access -/

/-- The failure is that a manifest cannot be had, whatever it says. -/
def Failure.OfAccess : Failure → Prop
  | .manifest (.notFound _) => True
  | .manifest (.unreadable _ _) => True
  | .manifest (.noVersionInfo _) => False
  | .constraint _ => False
  | .resolve _ => False
  | .config _ => True
  | .version _ => False

/-- What is about a manifest text is not about having it. -/
theorem Failure.OfDeclaration.not_ofAccess {failure : Failure} (about : failure.OfDeclaration) :
    ¬ failure.OfAccess := by
  intro access
  cases failure with
  | manifest cause =>
    cases cause with
    | notFound path => exact about
    | unreadable path reason => exact about
    | noVersionInfo path => exact access
  | constraint cause => exact access
  | resolve cause => exact access
  | config cause => exact about
  | version cause => exact about

namespace Resolution

/-- The path of a directory's manifest. -/
abbrev manifestIn (directory : String) : String :=
  join directory Manifest.fileName

/-- The file at a path is a text's encoding. -/
def HoldsText (disk : Disk) (path text : String) : Prop :=
  disk.Reaches path (.file (Text.encodeUtf8 text))

/-- What keeps a run from the manifest of a directory, and the failure that reports it. -/
inductive Denied (disk : Disk) (directory : String) : Failure → Prop
  /-- Something other than a directory is in its place. -/
  | misplaced (there : disk.IsPresent directory) (other : ¬ disk.IsDirectory directory) :
      Denied disk directory (.config (.notDirectory directory))
  /-- There is no regular file at the manifest's path. -/
  | absent (placed : disk.IsPresent directory → disk.IsDirectory directory)
      (none : ¬ disk.IsFile (manifestIn directory)) :
      Denied disk directory (.manifest (.notFound (manifestIn directory)))
  /-- The file at the manifest's path is no text. -/
  | undecodable (placed : disk.IsPresent directory → disk.IsDirectory directory)
      (some : disk.IsFile (manifestIn directory))
      (garbled : ∀ text, ¬ HoldsText disk (manifestIn directory) text) :
      Denied disk directory (.manifest (.unreadable (manifestIn directory) .notUtf8))

variable {disk : Disk} {directory path content : String} {failure : Failure} {options : Options}
  {source : Option Registry.Source} {today : Date}

/-! ## The manifest of a directory -/

/-- No file is looked up where nothing but a directory is. -/
theorem files_ne_file_of_placed (placed : disk.IsPresent path → disk.IsDirectory path)
    (bytes : Bytes) : disk.files path ≠ .file bytes := by
  intro found
  have file : disk.IsFile path := ⟨bytes, Disk.files_eq_file_iff.1 found⟩
  obtain ⟨there, other⟩ := Disk.isFile_iff.1 file
  exact other (placed there)

/-- What keeps a run from a manifest is reported. -/
theorem Denied.manifest_eq (denied : Denied disk directory failure) :
    manifest disk.files directory = .error failure := by
  cases denied with
  | misplaced there other =>
    obtain ⟨bytes, reaches⟩ := Disk.isFile_iff.2 ⟨there, other⟩
    exact manifest_of_misplaced (Disk.files_eq_file_iff.2 reaches)
  | absent placed none =>
    apply manifest_of_absent (files_ne_file_of_placed placed)
    intro bytes found
    exact none ⟨bytes, Disk.files_eq_file_iff.1 found⟩
  | undecodable placed some garbled =>
    obtain ⟨bytes, reaches⟩ := some
    apply manifest_of_undecodable (files_ne_file_of_placed placed)
      (Disk.files_eq_file_iff.2 reaches)
    intro text encoded
    apply garbled text
    rw [HoldsText, ← encoded]
    exact reaches

/-- The manifest of a directory is the text of the file at its path. -/
theorem manifest_of_text (placed : disk.IsPresent directory → disk.IsDirectory directory)
    (holds : HoldsText disk (manifestIn directory) content) :
    manifest disk.files directory = .ok (manifestIn directory, content) := by
  apply manifest_eq_ok_iff.2
  exact ⟨files_ne_file_of_placed placed, rfl, Disk.files_eq_file_iff.2 holds⟩

/-- A manifest is denied, or it is a text in its place. -/
theorem denied_or_text (disk : Disk) (directory : String) :
    (∃ failure, Denied disk directory failure) ∨
      (disk.IsPresent directory → disk.IsDirectory directory) ∧
        ∃ text, HoldsText disk (manifestIn directory) text := by
  by_cases placed : disk.IsPresent directory → disk.IsDirectory directory
  · by_cases some : disk.IsFile (manifestIn directory)
    · by_cases text : ∃ text, HoldsText disk (manifestIn directory) text
      · exact .inr ⟨placed, text⟩
      · exact .inl ⟨_, .undecodable placed some (not_exists.1 text)⟩
    · exact .inl ⟨_, .absent placed some⟩
  · obtain ⟨there, other⟩ := Classical.not_imp.1 placed
    exact .inl ⟨_, .misplaced there other⟩

/-- A directory's manifest is not there when the directory is not, when it has nothing of that name,
or when it has a directory of that name. -/
theorem not_isFile_manifestIn_iff (inhabited : directory ≠ "") :
    ¬ disk.IsFile (manifestIn directory) ↔
      ¬ disk.IsDirectory directory ∨
        ∃ entries, disk.Reaches directory (.directory entries) ∧
          (entries.lookup Manifest.fileName = none ∨
            ∃ inner, entries.lookup Manifest.fileName = some (.directory inner)) := by
  have named : IsName Manifest.fileName := by decide
  have plain : '/' ∉ Manifest.fileName.toList := by decide
  simp only [Disk.IsFile, Disk.reaches_join_iff inhabited named plain]
  constructor
  · intro none
    by_cases place : disk.IsDirectory directory
    · obtain ⟨entries, reaches⟩ := place
      refine .inr ⟨entries, reaches, ?_⟩
      cases entry : entries.lookup Manifest.fileName with
      | none => exact .inl rfl
      | some node =>
        cases node with
        | file bytes => exact absurd ⟨bytes, entries, reaches, entry⟩ none
        | directory inner => exact .inr ⟨inner, rfl⟩
    · exact .inl place
  · rintro (nowhere | ⟨entries, reaches, fileless⟩) ⟨bytes, others, again, entry⟩
    · exact nowhere ⟨others, again⟩
    · obtain rfl := Node.directory.inj (reaches.unique again)
      rcases fileless with none | ⟨inner, directory⟩
      · exact nomatch none.symm.trans entry
      · exact nomatch directory.symm.trans entry

/-! ## Runs -/

/-- A run without a manifest ends there, and sends nothing. -/
theorem Denied.run_eq (denied : Denied disk options.workingDirectory failure) :
    run options disk.files source today = (.error failure, []) :=
  run_of_manifest_error denied.manifest_eq

/-- A run with a manifest fails for what the manifest says. -/
theorem run_of_manifest_not_ofAccess {files : Files}
    (found : manifest files options.workingDirectory = .ok (path, content))
    (failed : (run options files source today).1 = .error failure) : ¬ failure.OfAccess := by
  rw [run_of_manifest found] at failed
  exact (ofManifest_error failed).not_ofAccess

/-- A run fails to have its manifest exactly when it is kept from it. -/
theorem run_eq_error_iff_denied (failure : Failure) (access : failure.OfAccess) :
    (run options disk.files source today).1 = .error failure ↔
      Denied disk options.workingDirectory failure := by
  constructor
  · intro failed
    rcases denied_or_text disk options.workingDirectory with
      ⟨reported, denied⟩ | ⟨placed, text, holds⟩
    · rw [denied.run_eq] at failed
      obtain rfl : reported = failure := Except.error.inj failed
      exact denied
    · exact absurd access (run_of_manifest_not_ofAccess (manifest_of_text placed holds) failed)
  · intro denied
    rw [denied.run_eq]

/-- A run reports a working directory that is something else, then a manifest that is not there, for
its directory or the file is missing or a directory has its name, and then one that is no text. It
reports no other failure of access, and the same one with any other options, source and day, before
a request is sent. Otherwise the text in the file is what it resolves, and it does not fail for want
of access. -/
theorem run_reports_access_first (options : Options) (disk : Disk)
    (source : Option Registry.Source) (today : Date) :
    ((run options disk.files source today).1 =
        .error (.config (.notDirectory options.workingDirectory)) ↔
      disk.IsPresent options.workingDirectory ∧ ¬ disk.IsDirectory options.workingDirectory) ∧
    ((disk.IsPresent options.workingDirectory → disk.IsDirectory options.workingDirectory) →
      ((run options disk.files source today).1 =
          .error (.manifest (.notFound (manifestIn options.workingDirectory))) ↔
        ¬ disk.IsFile (manifestIn options.workingDirectory)) ∧
      (disk.IsFile (manifestIn options.workingDirectory) →
        ((run options disk.files source today).1 =
            .error (.manifest (.unreadable (manifestIn options.workingDirectory) .notUtf8)) ↔
          ∀ text, ¬ HoldsText disk (manifestIn options.workingDirectory) text)) ∧
      ∀ text, HoldsText disk (manifestIn options.workingDirectory) text →
        (run options disk.files source today).1 =
          ofManifest options (manifestIn options.workingDirectory) text (acquired options source)
            today ∧
        ∀ failure, (run options disk.files source today).1 = .error failure →
          ¬ failure.OfAccess) ∧
    (options.workingDirectory ≠ "" →
      (¬ disk.IsFile (manifestIn options.workingDirectory) ↔
        ¬ disk.IsDirectory options.workingDirectory ∨
          ∃ entries, disk.Reaches options.workingDirectory (.directory entries) ∧
            (entries.lookup Manifest.fileName = none ∨
              ∃ inner, entries.lookup Manifest.fileName = some (.directory inner)))) ∧
    (∀ failure, (run options disk.files source today).1 = .error failure → failure.OfAccess →
      (failure = .config (.notDirectory options.workingDirectory) ∨
        failure = .manifest (.notFound (manifestIn options.workingDirectory)) ∨
        failure = .manifest (.unreadable (manifestIn options.workingDirectory) .notUtf8)) ∧
      ∀ (others : Options) (other : Option Registry.Source) (day : Date),
        others.workingDirectory = options.workingDirectory →
          run others disk.files other day = (.error failure, [])) := by
  refine ⟨?misplaced, fun placed => ⟨?absent, fun some => ?undecodable, fun text holds => ?text⟩,
    not_isFile_manifestIn_iff, fun failure failed access => ?access⟩
  case misplaced =>
    rw [run_eq_error_iff_denied (.config _) trivial]
    constructor
    · rintro ⟨there, other⟩
      exact ⟨there, other⟩
    · intro misplaced
      exact .misplaced misplaced.1 misplaced.2
  case absent =>
    rw [run_eq_error_iff_denied (.manifest (.notFound _)) trivial]
    constructor
    · rintro (_ | ⟨-, none⟩)
      exact none
    · exact .absent placed
  case undecodable =>
    rw [run_eq_error_iff_denied (.manifest (.unreadable _ _)) trivial]
    constructor
    · rintro (_ | _ | ⟨-, -, garbled⟩)
      exact garbled
    · exact .undecodable placed some
  case text =>
    have found := manifest_of_text placed holds
    constructor
    · rw [run_of_manifest found]
    · intro failure failed
      exact run_of_manifest_not_ofAccess found failed
  case access =>
    have denied := (run_eq_error_iff_denied failure access).1 failed
    constructor
    · cases denied with
      | misplaced _ _ => exact .inl rfl
      | absent _ _ => exact .inr (.inl rfl)
      | undecodable _ _ _ => exact .inr (.inr rfl)
    · intro others other day same
      rw [← same] at denied
      exact denied.run_eq

end Resolution

end BuildMatrix

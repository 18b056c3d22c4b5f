import BuildMatrix.Resolution.Run

/-!
# Where a manifest comes from

The manifest of a directory is the text of one file in it. It can be had exactly when a regular file
of that name is there, its bytes encode a text, and nothing but a directory is in the directory's
own place.
-/

namespace BuildMatrix

variable {files : Storage.Files} {directory path content : String}

namespace Manifest

/-- The manifest is located when there is a file of its name in the directory. -/
theorem locate_eq_ok_iff :
    locate files directory = .ok path ↔
      path = Storage.join directory fileName ∧ ∃ bytes, files path = .file bytes := by
  unfold locate
  dsimp only
  constructor
  · intro located
    split at located
    · next bytes there =>
      obtain rfl := Except.ok.inj located
      exact ⟨rfl, bytes, there⟩
    · exact nomatch located
  · rintro ⟨rfl, bytes, there⟩
    rw [there]

/-- Without a file of its name, the manifest is not found, and the path where it should be is named.
-/
theorem locate_of_absent (absent : ∀ bytes, files (Storage.join directory fileName) ≠ .file bytes) :
    locate files directory = .error (.notFound (Storage.join directory fileName)) := by
  unfold locate
  dsimp only
  split
  · next bytes there => exact absurd there (absent bytes)
  · rfl

/-- A file is read as the text that its bytes encode. -/
theorem read_eq_ok_iff :
    read files path = .ok content ↔ files path = .file (Text.encodeUtf8 content) := by
  unfold read
  cases files path with
  | file bytes =>
    rw [Storage.Found.file.injEq, ← Text.decodeUtf8?_eq_some_iff]
    dsimp only
    cases Text.decodeUtf8? bytes <;> simp
  | directory => simp
  | missing => simp
  | blocked => simp

/-- Bytes that encode no text are not read. -/
theorem read_of_undecodable {bytes : Bytes} (there : files path = .file bytes)
    (undecodable : ∀ text, bytes ≠ Text.encodeUtf8 text) :
    read files path = .error (.unreadable path .notUtf8) := by
  have garbled : Text.decodeUtf8? bytes = none := by
    apply Option.eq_none_iff_forall_ne_some.2
    intro text decoded
    exact undecodable text (Text.decodeUtf8?_eq_some_iff.1 decoded)
  rw [read, there]
  dsimp only
  rw [garbled]

end Manifest

namespace Resolution

/-- The manifest of a directory is the text of the file of its name, and no regular file stands in
the directory's place. -/
theorem manifest_eq_ok_iff :
    manifest files directory = .ok (path, content) ↔
      (∀ bytes, files directory ≠ .file bytes) ∧
        path = Storage.join directory Manifest.fileName ∧
          files path = .file (Text.encodeUtf8 content) := by
  rw [← Manifest.read_eq_ok_iff]
  unfold manifest
  constructor
  · intro found
    split at found
    · exact nomatch found
    · next regular =>
      split at found
      · exact nomatch found
      · next place located =>
        split at found
        · exact nomatch found
        · next text readable =>
          cases found
          exact ⟨regular, (Manifest.locate_eq_ok_iff.1 located).1, readable⟩
  · rintro ⟨regular, rfl, readable⟩
    have located := Manifest.locate_eq_ok_iff.2 ⟨rfl, _, Manifest.read_eq_ok_iff.1 readable⟩
    split
    · next bytes irregular => exact absurd irregular (regular bytes)
    · rw [located]
      dsimp only
      rw [readable]

/-- A regular file in the directory's place is reported before anything else is looked at. -/
theorem manifest_of_misplaced {bytes : Bytes} (misplaced : files directory = .file bytes) :
    manifest files directory = .error (.config (.notDirectory directory)) := by
  rw [manifest, misplaced]

/-- Without a regular file at its path, a manifest is not found. -/
theorem manifest_of_absent (placed : ∀ bytes, files directory ≠ .file bytes)
    (absent : ∀ bytes, files (Storage.join directory Manifest.fileName) ≠ .file bytes) :
    manifest files directory =
      .error (.manifest (.notFound (Storage.join directory Manifest.fileName))) := by
  unfold manifest
  split
  · next bytes misplaced => exact absurd misplaced (placed bytes)
  · rw [Manifest.locate_of_absent absent]

/-- A file that is no text cannot be read. -/
theorem manifest_of_undecodable {bytes : Bytes} (placed : ∀ bytes, files directory ≠ .file bytes)
    (there : files (Storage.join directory Manifest.fileName) = .file bytes)
    (undecodable : ∀ text, bytes ≠ Text.encodeUtf8 text) :
    manifest files directory = .error
      (.manifest (.unreadable (Storage.join directory Manifest.fileName) .notUtf8)) := by
  have located := Manifest.locate_eq_ok_iff.2 ⟨rfl, bytes, there⟩
  unfold manifest
  split
  · next bytes misplaced => exact absurd misplaced (placed bytes)
  · rw [located]
    dsimp only
    rw [Manifest.read_of_undecodable there undecodable]

/-- A manifest that cannot be had is a matter of the manifest or of the configuration. -/
theorem manifest_error {failure : Failure} (failed : manifest files directory = .error failure) :
    (∃ cause, failure = .manifest cause) ∨ ∃ cause, failure = .config cause := by
  unfold manifest at failed
  split at failed
  · cases failed
    exact .inr ⟨_, rfl⟩
  · split at failed
    · cases failed
      exact .inl ⟨_, rfl⟩
    · split at failed
      · cases failed
        exact .inl ⟨_, rfl⟩
      · exact nomatch failed

end Resolution

end BuildMatrix

import BuildMatrix.Command.Session
import BuildMatrix.Proofs.Command.Line
import BuildMatrix.Proofs.Resolution.Run

/-!
# All or nothing

A session succeeds exactly when its run does, and then standard output is the report and nothing
else. A run that fails, for whatever cause, leaves standard output empty. How much is said on the
error stream decides neither, and the form of the report does not decide between success and
failure.
-/

namespace BuildMatrix.Command

/-- What a session finds on the network. -/
structure Network where
  /-- The ASCII form of a host name, if it has one. -/
  asciiName? : List Char → Option (List Char)
  /-- The reply to each request. -/
  replies : Nat → Registry.Reply

/-- The source of a run, if there is a network to ask the registry over. -/
def registry (network? : Option Network) (options : Options) : Option Registry.Source :=
  network?.map fun network =>
    Resolution.webSource network.asciiName? options network.replies

/-- What the run with some options comes to on a day. -/
def outcome (options : Options) (files : Storage.Files) (network? : Option Network) (day : Date) :
    Except Failure Resolution :=
  (Resolution.run options files (registry network? options) day).1

/-- The session of a command line. -/
def shown (arguments : List String) (environment : String → Option String)
    (files : Storage.Files) (network? : Option Network) (today : Date) : Session :=
  (session arguments environment files (registry network?) today).1

/-- A report in the form that a flag asks for. -/
def report (json : Bool) (resolution : Resolution) : String :=
  if json then Report.json resolution else Report.text resolution

/-- Two runs differ in how much they say, if at all. -/
def DifferInVerbosity (first second : Options) : Prop :=
  second = { first with verbose := second.verbose, quiet := second.quiet }

/-- Two runs differ in the form of the report, if at all. -/
def DifferInForm (first second : Options) : Prop :=
  second = { first with json := second.json }

variable {arguments : List String} {environment : String → Option String}
  {files : Storage.Files} {network? : Option Network} {today : Date}
  {options more : Options} {result : Except Failure Resolution}

/-! ## What is shown -/

/-- The session of an accepted command line is that of its run. -/
theorem shown_of_accepted (accepted : parse arguments environment = .ok options) :
    shown arguments environment files network? today =
      .ofResult options (outcome options files network? (options.today.getD today)) := by
  rw [shown, session, accepted]
  rfl

namespace Session

/-- The exit code is zero exactly for a resolution. -/
theorem exitCode_eq_zero_iff :
    (ofResult options result).exitCode = 0 ↔ ∃ resolution, result = .ok resolution := by
  cases result with
  | ok resolution => simp [ofResult]
  | error failure => simp [ofResult]

/-- The output for a resolution is the report on it. -/
theorem output_of_ok (resolution : Resolution) :
    (ofResult options (.ok resolution)).output = report options.json resolution := by
  cases format : options.json <;> simp [ofResult, format, report, OutputFormat.ofFlag, Report.render]

/-- The exit code is that of the result. -/
theorem exitCode_congr (options more : Options) (result : Except Failure Resolution) :
    (ofResult more result).exitCode = (ofResult options result).exitCode := by
  cases result <;> rfl

/-- The output is that of the result in the same form. -/
theorem output_congr (form : more.json = options.json) (result : Except Failure Resolution) :
    (ofResult more result).output = (ofResult options result).output := by
  cases result with
  | ok resolution => rw [output_of_ok, output_of_ok, form]
  | error failure => rfl

end Session

/-! ## Runs that differ in how they report -/

/-- Two runs differ in what they report and how, if at all. -/
def DifferInReporting (first second : Options) : Prop :=
  second = { first with json := second.json, verbose := second.verbose, quiet := second.quiet }

/-- A difference in how much is said is one in reporting. -/
theorem DifferInVerbosity.inReporting (differ : DifferInVerbosity options more) :
    DifferInReporting options more := by
  unfold DifferInReporting
  rw [differ]

/-- A difference in the form of the report is one in reporting. -/
theorem DifferInForm.inReporting (differ : DifferInForm options more) :
    DifferInReporting options more := by
  unfold DifferInReporting
  rw [differ]

/-- A run comes to the same however it reports. -/
theorem outcome_of_differInReporting (differ : DifferInReporting options more) (day : Date) :
    outcome more files network? day = outcome options files network? day := by
  rw [differ]
  exact Resolution.run_congr rfl rfl rfl

/-- Sessions that differ in how they report have the same exit code, and in the same form the same
output. -/
theorem shown_of_differInReporting {others : List String} {elsewhere : String → Option String}
    (differ : DifferInReporting options more)
    (accepted : parse arguments environment = .ok options)
    (also : parse others elsewhere = .ok more) :
    (shown others elsewhere files network? today).exitCode =
        (shown arguments environment files network? today).exitCode ∧
      (more.json = options.json →
        (shown others elsewhere files network? today).output =
          (shown arguments environment files network? today).output) := by
  have day : more.today = options.today := by rw [differ]
  rw [shown_of_accepted accepted, shown_of_accepted also, day, outcome_of_differInReporting differ]
  exact ⟨Session.exitCode_congr _ _ _, fun form => Session.output_congr form _⟩

/-! ## Command lines that differ in how they report -/

/-- Command lines that give the same but for how much is said differ in nothing else. -/
theorem differInVerbosity_of_parse {others : List String}
    (same : SameApartFrom [.verbose, .quiet] arguments others)
    (accepted : parse arguments environment = .ok options)
    (also : parse others environment = .ok more) : DifferInVerbosity options more := by
  have unnamed : ∀ hidden ∈ [Setting.verbose, .quiet], hidden.environmentName? = none := by
    simp [Setting.environmentName?]
  obtain ⟨chosen, other, rfl, rfl, copied⟩ :=
    exists_choices_of_sameApartFrom same unnamed accepted also
  unfold DifferInVerbosity
  conv_lhs => rw [← copied]
  rfl

/-- Command lines that give the same but for the form of the report differ in nothing else. -/
theorem differInForm_of_parse {others : List String}
    (same : SameApartFrom [.json] arguments others)
    (accepted : parse arguments environment = .ok options)
    (also : parse others environment = .ok more) : DifferInForm options more := by
  have unnamed : ∀ hidden ∈ [Setting.json], hidden.environmentName? = none := by
    simp [Setting.environmentName?]
  obtain ⟨chosen, other, rfl, rfl, copied⟩ :=
    exists_choices_of_sameApartFrom same unnamed accepted also
  unfold DifferInForm
  conv_lhs => rw [← copied]
  rfl

/-! ## Sessions -/

/-- The session of an accepted command line with a given day succeeds exactly when the run comes to
a resolution, and then its output is the report on that. With any failure the exit code is one and
there is no output. Sessions that differ in how much they say have the same exit code and output,
and those that differ in the form of the report the same exit code: so do sessions of command lines
that give the same but for these settings. -/
theorem session_all_or_nothing (arguments : List String) (environment : String → Option String)
    (files : Storage.Files) (network? : Option Network) (today : Date)
    (options : Options) (day : Date) (accepted : parse arguments environment = .ok options)
    (pinned : options.today = some day) :
    ((shown arguments environment files network? today).exitCode = 0 ↔
      ∃ resolution, outcome options files network? day = .ok resolution) ∧
    (∀ resolution, outcome options files network? day = .ok resolution →
      (shown arguments environment files network? today).output =
        report options.json resolution) ∧
    (∀ failure, outcome options files network? day = .error failure →
      (shown arguments environment files network? today).exitCode = 1 ∧
      (shown arguments environment files network? today).output = "" ∧
      ((∃ cause, failure = .manifest cause) ∨ (∃ cause, failure = .constraint cause) ∨
        (∃ cause, failure = .resolve cause) ∨ ∃ cause, failure = .config cause)) ∧
    (∀ others elsewhere more, parse others elsewhere = .ok more →
      DifferInVerbosity options more ∨
        elsewhere = environment ∧ SameApartFrom [.verbose, .quiet] arguments others →
      (shown others elsewhere files network? today).exitCode =
          (shown arguments environment files network? today).exitCode ∧
        (shown others elsewhere files network? today).output =
          (shown arguments environment files network? today).output) ∧
    ∀ others elsewhere more, parse others elsewhere = .ok more →
      DifferInForm options more ∨
        elsewhere = environment ∧ SameApartFrom [.json] arguments others →
      (shown others elsewhere files network? today).exitCode =
        (shown arguments environment files network? today).exitCode := by
  have view : shown arguments environment files network? today =
      .ofResult options (outcome options files network? day) := by
    rw [shown_of_accepted accepted, pinned, Option.getD_some]
  refine ⟨?_, fun resolution succeeded => ?_, fun failure failed => ?_,
    fun others elsewhere more also differ => ?_, fun others elsewhere more also differ => ?_⟩
  · rw [view]
    exact Session.exitCode_eq_zero_iff
  · rw [view, succeeded]
    exact Session.output_of_ok resolution
  · rw [view, failed]
    exact ⟨rfl, rfl, Resolution.run_error failed⟩
  · have verbosity : DifferInVerbosity options more := by
      rcases differ with differ | ⟨rfl, same⟩
      · exact differ
      · exact differInVerbosity_of_parse same accepted also
    have form : more.json = options.json := by rw [verbosity]
    obtain ⟨exitCode, output⟩ := shown_of_differInReporting verbosity.inReporting accepted also
    exact ⟨exitCode, output form⟩
  · have form : DifferInForm options more := by
      rcases differ with differ | ⟨rfl, same⟩
      · exact differ
      · exact differInForm_of_parse same accepted also
    exact (shown_of_differInReporting form.inReporting accepted also).1

/-- Offline, on a given day, with some switches in front. -/
def offlineOn (switches : List String) : List String :=
  switches ++ ["--offline", "--today", "2026-01-01"]

/-- A quiet session has the output of one that is not, and one that reports a document succeeds as
well. -/
theorem session_all_or_nothing_of_offline :
    let environment : String → Option String := fun _ => none
    let files := Resolution.onlyManifest "requires-python = \">=3.9\"\n"
    let network? : Option Network := some ⟨some, fun _ => .answered 200 (some [])⟩
    let day : Date := ⟨2026, 1, 1, by decide⟩
    let today : Date := ⟨2025, 7, 1, by decide⟩
    let options : Options := { offline := true, today := some day }
    parse (offlineOn []) environment = .ok options ∧ options.today = some day ∧
      (shown (offlineOn []) environment files network? today).exitCode = 0 ∧
      (shown (offlineOn ["-q"]) environment files network? today).output =
        (shown (offlineOn []) environment files network? today).output ∧
      (shown (offlineOn ["--json"]) environment files network? today).exitCode = 0 := by
  intro environment files network? day today options
  have accepted : parse (offlineOn []) environment = .ok options := by decide +kernel
  have quiet : parse (offlineOn ["-q"]) environment = .ok { options with quiet := true } := by
    decide +kernel
  have document : parse (offlineOn ["--json"]) environment = .ok { options with json := true } := by
    decide +kernel
  have sameButQuiet : SameApartFrom [.verbose, .quiet] (offlineOn []) (offlineOn ["-q"]) := by
    unfold SameApartFrom
    decide +kernel
  have published : (outcome options files network? day).isOk = true := by decide +kernel
  obtain ⟨succeeds, -, -, verbosity, form⟩ := session_all_or_nothing (offlineOn []) environment
    files network? today options day accepted rfl
  have resolved : (shown (offlineOn []) environment files network? today).exitCode = 0 := by
    refine succeeds.2 ?_
    cases result : outcome options files network? day with
    | ok resolution => exact ⟨resolution, rfl⟩
    | error failure =>
      rw [result] at published
      exact nomatch published
  have sameOutput := (verbosity _ _ _ quiet (.inr ⟨rfl, sameButQuiet⟩)).2
  have sameCode := form _ _ _ document (.inl rfl)
  exact ⟨accepted, rfl, resolved, sameOutput, sameCode.trans resolved⟩

end BuildMatrix.Command

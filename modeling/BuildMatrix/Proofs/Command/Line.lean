import BuildMatrix.Command.Line
import BuildMatrix.Proofs.Traversal

/-!
# What command lines have in common

Giving a value to one setting leaves all others as they are, and whether it can be given depends on
that setting alone. So what is chosen for a setting depends on what the command line and the
environment give for it, and command lines that give the same apart from some settings come to
choices that agree on all others.
-/

namespace BuildMatrix.Command

/-! ## Agreement -/

/-- The same has been chosen for a setting. -/
def Choices.AgreeOn (first second : Choices) : Setting → Prop
  | .workingDirectory => first.workingDirectory = second.workingDirectory
  | .timeout => first.timeout = second.timeout
  | .maxRetries => first.maxRetries = second.maxRetries
  | .offline => first.offline = second.offline
  | .minVersion => first.minVersion = second.minVersion
  | .lifecycleUrl => first.lifecycleUrl = second.lifecycleUrl
  | .endOfLifeMode => first.endOfLifeMode = second.endOfLifeMode
  | .today => first.today = second.today
  | .json => first.json = second.json
  | .verbose => first.verbose = second.verbose
  | .quiet => first.quiet = second.quiet

/-- The same has been chosen for every setting but some. -/
def Choices.AgreeApartFrom (ignored : List Setting) (first second : Choices) : Prop :=
  ∀ setting, setting ∉ ignored → first.AgreeOn second setting

/-- What is given concerns one of some settings. -/
def Given.concerns (settings : List Setting) : Given → Bool
  | .attached setting _ => setting ∈ settings
  | .separate setting _ => setting ∈ settings
  | .notice _ => false
  | .refused _ => false

/-- What is given, less what concerns some settings. -/
def apartFrom (ignored : List Setting) (given : List Given) : List Given :=
  given.filter fun each => !each.concerns ignored

/-- Two command lines give the same in the same order, apart from some settings. -/
def SameApartFrom (ignored : List Setting) (arguments others : List String) : Prop :=
  apartFrom ignored (givenBy none (arguments.map String.toList)) =
    apartFrom ignored (givenBy none (others.map String.toList))

namespace Choices

variable {first second third chosen other : Choices} {setting : Setting} {text : String}
  {text? : Option String} {ignored : List Setting}

/-- Choices agree with themselves on every setting. -/
theorem AgreeOn.refl (choices : Choices) (setting : Setting) : choices.AgreeOn choices setting := by
  cases setting <;> rfl

/-- Agreement on a setting holds in both directions. -/
theorem AgreeOn.symm (agree : first.AgreeOn second setting) : second.AgreeOn first setting := by
  cases setting <;> exact Eq.symm agree

/-- Agreement on a setting is passed on. -/
theorem AgreeOn.trans (agree : first.AgreeOn second setting)
    (further : second.AgreeOn third setting) : first.AgreeOn third setting := by
  cases setting <;> exact Eq.trans agree further

/-- Choices that agree on a setting are both given it, or neither is. -/
theorem AgreeOn.isGiven_eq (agree : first.AgreeOn second setting) :
    first.isGiven setting = second.isGiven setting := by
  cases setting <;> exact congrArg Option.isSome agree

/-- Choices agree with themselves whatever is ignored. -/
theorem AgreeApartFrom.refl (ignored : List Setting) (choices : Choices) :
    choices.AgreeApartFrom ignored choices :=
  fun setting _ => .refl choices setting

/-! ## One setting -/

/-- The choices with what another one has for a setting. -/
def copy (choices source : Choices) : Setting → Choices
  | .workingDirectory => { choices with workingDirectory := source.workingDirectory }
  | .timeout => { choices with timeout := source.timeout }
  | .maxRetries => { choices with maxRetries := source.maxRetries }
  | .offline => { choices with offline := source.offline }
  | .minVersion => { choices with minVersion := source.minVersion }
  | .lifecycleUrl => { choices with lifecycleUrl := source.lifecycleUrl }
  | .endOfLifeMode => { choices with endOfLifeMode := source.endOfLifeMode }
  | .today => { choices with today := source.today }
  | .json => { choices with json := source.json }
  | .verbose => { choices with verbose := source.verbose }
  | .quiet => { choices with quiet := source.quiet }

/-- A copied setting is that of the source. -/
theorem copy_agreeOn (choices source : Choices) (setting : Setting) :
    source.AgreeOn (choices.copy source setting) setting := by
  cases setting <;> rfl

/-- Copying one setting leaves the other ones alone. -/
theorem agreeOn_copy_of_ne (choices source : Choices) {kept : Setting}
    (different : kept ≠ setting) : choices.AgreeOn (choices.copy source setting) kept := by
  cases setting <;> cases kept <;> first | rfl | exact absurd rfl different

/-- Choices that agree on every setting are the same. -/
theorem eq_of_agreeOn (agree : ∀ setting, first.AgreeOn second setting) : first = second := by
  have workingDirectory := agree .workingDirectory
  have timeout := agree .timeout
  have maxRetries := agree .maxRetries
  have offline := agree .offline
  have minVersion := agree .minVersion
  have lifecycleUrl := agree .lifecycleUrl
  have endOfLifeMode := agree .endOfLifeMode
  have today := agree .today
  have json := agree .json
  have verbose := agree .verbose
  have quiet := agree .quiet
  cases first
  cases second
  simp only [AgreeOn] at *
  simp [*]

/-- Choices that agree apart from some settings are the same once those are copied. -/
theorem foldl_copy_of_agreeApartFrom (agree : first.AgreeApartFrom ignored second) :
    ignored.foldl (fun choices setting => choices.copy second setting) first = second := by
  induction ignored generalizing first with
  | nil => exact eq_of_agreeOn fun setting => agree setting List.not_mem_nil
  | cons hidden ignored ih =>
    refine ih fun kept observed => ?_
    by_cases same : kept = hidden
    · rw [same]
      exact (copy_agreeOn first second hidden).symm
    · have among : kept ∉ hidden :: ignored := List.not_mem_cons_of_ne_of_not_mem same observed
      exact (agreeOn_copy_of_ne first second same).symm.trans (agree kept among)

/-- A value is read without regard to what else was chosen, and changes nothing else. -/
theorem assign?_copy (assigned : first.assign? setting text = some chosen) (second : Choices) :
    second.assign? setting text = some (second.copy chosen setting) := by
  cases setting with
  | workingDirectory =>
    simp only [assign?, Option.ite_none_left_eq_some, Option.some.injEq] at assigned ⊢
    obtain ⟨named, rfl⟩ := assigned
    exact ⟨named, rfl⟩
  | lifecycleUrl =>
    obtain rfl := Option.some.inj assigned
    rfl
  | timeout | maxRetries | offline | minVersion | endOfLifeMode | today | json | verbose | quiet =>
    obtain ⟨value, read, rfl⟩ := Option.map_eq_some_iff.1 assigned
    exact Option.map_eq_some_iff.2 ⟨value, read, rfl⟩

/-- A setting is assigned when its text can be read. -/
theorem assign_eq_ok_iff :
    first.assign setting text = .ok chosen ↔ first.assign? setting text = some chosen := by
  unfold assign
  cases first.assign? setting text <;> simp

/-- A setting is given when it was not given before and its text is there and can be read. -/
theorem give_eq_ok_iff :
    first.give setting text? = .ok chosen ↔
      first.isGiven setting = false ∧
        ∃ text, text? = some text ∧ first.assign? setting text = some chosen := by
  cases text? with
  | none => simp [give]
  | some text => cases given : first.isGiven setting <;> simp [give, given, assign_eq_ok_iff]

/-- A value for one setting leaves the others as they are. -/
theorem assign?_frame (assigned : first.assign? setting text = some chosen) {kept : Setting}
    (different : kept ≠ setting) : first.AgreeOn chosen kept := by
  have changed := assign?_copy assigned first
  rw [assigned, Option.some.injEq] at changed
  rw [changed]
  exact agreeOn_copy_of_ne first chosen different

/-- Choices that agree on all settings but some still do when they have taken the same value. -/
theorem AgreeApartFrom.copy (agree : first.AgreeApartFrom ignored second)
    (assigned : first.assign? setting text = some chosen) :
    chosen.AgreeApartFrom ignored (second.copy chosen setting) := by
  intro kept observed
  by_cases same : kept = setting
  · rw [same]
    exact copy_agreeOn second chosen setting
  · have frame : first.AgreeOn chosen kept := assign?_frame assigned same
    have other : second.AgreeOn (second.copy chosen setting) kept :=
      agreeOn_copy_of_ne second chosen same
    exact frame.symm.trans ((agree kept observed).trans other)

/-- What is given for an ignored setting changes nothing else. -/
theorem AgreeApartFrom.of_give (agree : first.AgreeApartFrom ignored second)
    (given : first.give setting text? = .ok chosen) (hidden : setting ∈ ignored) :
    chosen.AgreeApartFrom ignored second := by
  obtain ⟨-, text, -, assigned⟩ := give_eq_ok_iff.1 given
  intro kept observed
  have different : kept ≠ setting := fun same => observed (same ▸ hidden)
  exact (assign?_frame assigned different).symm.trans (agree kept observed)

/-- What can be given for a setting that agrees can be given to both. -/
theorem AgreeApartFrom.exists_give (agree : first.AgreeApartFrom ignored second)
    (given : first.give setting text? = .ok chosen) (observed : setting ∉ ignored) :
    ∃ other, second.give setting text? = .ok other ∧ chosen.AgreeApartFrom ignored other := by
  obtain ⟨fresh, text, rfl, assigned⟩ := give_eq_ok_iff.1 given
  have free : second.isGiven setting = false := (agree setting observed).isGiven_eq ▸ fresh
  exact ⟨_, give_eq_ok_iff.2 ⟨free, text, rfl, assign?_copy assigned second⟩, agree.copy assigned⟩

end Choices

/-! ## Command lines -/

variable {first second chosen other : Choices} {ignored : List Setting} {given : List Given}
  {environment : String → Option String} {setting : Setting}

/-- The setting that something gives, and its value. -/
def Given.setting? : Given → Option (Setting × Option String)
  | .attached setting value => some (setting, some value)
  | .separate setting value? => some (setting, value?)
  | .notice _ => none
  | .refused _ => none

/-- A command line is settled by giving one setting after another. -/
theorem settle_cons_eq_ok_iff {item : Given} :
    settle first (item :: given) = .ok chosen ↔
      ∃ setting value? next, item.setting? = some (setting, value?) ∧
        first.give setting value? = .ok next ∧ settle next given = .ok chosen := by
  cases item with
  | notice notice => simp [settle, Given.setting?]
  | refused error => simp [settle, Given.setting?]
  | attached setting value =>
    cases step : first.give setting (some value) <;> simp [settle, Given.setting?, step]
  | separate setting value? =>
    -- An argument that is refused behind the value is reported first, so the equation for the
    -- value has a condition on what follows.
    by_cases refusal : ∃ error rest, given = .refused error :: rest
    · obtain ⟨error, rest, rfl⟩ := refusal
      simp [settle, Given.setting?]
    · have unrefused : ∀ error rest, given = .refused error :: rest → False :=
        fun error rest same => refusal ⟨error, rest, same⟩
      cases step : first.give setting value? <;> simp [settle, Given.setting?, step]

/-- What gives a setting concerns it and no other. -/
theorem Given.concerns_of_setting? {item : Given} {value? : Option String}
    (gives : item.setting? = some (setting, value?)) (settings : List Setting) :
    item.concerns settings = decide (setting ∈ settings) := by
  cases item with
  | attached _ value | separate _ value =>
    cases gives
    rfl
  | notice _ | refused _ => exact nomatch gives

/-- Without what it gives for some settings, a command line that can be settled still can be, and
the choices agree on the others. -/
theorem exists_settle_apartFrom (agree : first.AgreeApartFrom ignored second)
    (settled : settle first given = .ok chosen) :
    ∃ other, settle second (apartFrom ignored given) = .ok other ∧
      chosen.AgreeApartFrom ignored other := by
  induction given generalizing first second with
  | nil =>
    obtain rfl := Except.ok.inj settled
    exact ⟨second, rfl, agree⟩
  | cons item given ih =>
    obtain ⟨setting, value?, next, gives, step, rest⟩ := settle_cons_eq_ok_iff.1 settled
    have concerns := Given.concerns_of_setting? gives ignored
    by_cases hidden : setting ∈ ignored
    · have dropped : apartFrom ignored (item :: given) = apartFrom ignored given := by
        simp [apartFrom, concerns, hidden]
      rw [dropped]
      exact ih (agree.of_give step hidden) rest
    · have kept : apartFrom ignored (item :: given) = item :: apartFrom ignored given := by
        simp [apartFrom, concerns, hidden]
      obtain ⟨after, also, agree⟩ := agree.exists_give step hidden
      obtain ⟨other, settled, agree⟩ := ih agree rest
      rw [kept]
      exact ⟨other, settle_cons_eq_ok_iff.2 ⟨setting, value?, after, gives, also, settled⟩, agree⟩

/-- Command lines that give the same apart from some settings settle on the same for the others. -/
theorem agreeApartFrom_of_settle {others : List Given}
    (same : apartFrom ignored given = apartFrom ignored others)
    (settled : settle first given = .ok chosen) (again : settle first others = .ok other) :
    chosen.AgreeApartFrom ignored other := by
  obtain ⟨shared, less, agree⟩ := exists_settle_apartFrom (.refl ignored first) settled
  obtain ⟨too, alsoLess, agrees⟩ := exists_settle_apartFrom (.refl ignored first) again
  rw [same, alsoLess, Except.ok.injEq] at less
  rw [less] at agrees
  exact fun kept observed => (agree kept observed).trans (agrees kept observed).symm

/-! ## The environment -/

/-- The environment does not set what is ignored, so choices agree on the same settings once one of
them has been looked up. -/
theorem agreeApartFrom_of_inherit (agree : first.AgreeApartFrom ignored second)
    (unnamed : ∀ hidden ∈ ignored, hidden.environmentName? = none)
    (inherited : inherit environment first setting = .ok chosen)
    (also : inherit environment second setting = .ok other) :
    chosen.AgreeApartFrom ignored other := by
  unfold inherit at inherited also
  cases named : setting.environmentName?.bind environment with
  | none =>
    simp only [named, Except.ok.injEq] at inherited also
    rw [← inherited, ← also]
    exact agree
  | some value =>
    have observed : setting ∉ ignored := by
      intro hidden
      rw [unnamed setting hidden] at named
      exact nomatch named
    simp only [named, ← (agree setting observed).isGiven_eq] at inherited also
    by_cases given : first.isGiven setting = true
    · simp only [given, if_true, Except.ok.injEq] at inherited also
      rw [← inherited, ← also]
      exact agree
    · simp only [given, Bool.false_eq_true, if_false, Choices.assign_eq_ok_iff] at inherited also
      rw [Choices.assign?_copy inherited second, Option.some.injEq] at also
      rw [← also]
      exact agree.copy inherited

/-- Choices that agree apart from hidden settings still do after both have inherited from one
environment. -/
theorem agreeApartFrom_of_foldlM {settings : List Setting}
    (agree : first.AgreeApartFrom ignored second)
    (unnamed : ∀ hidden ∈ ignored, hidden.environmentName? = none)
    (inherited : settings.foldlM (inherit environment) first = .ok chosen)
    (also : settings.foldlM (inherit environment) second = .ok other) :
    chosen.AgreeApartFrom ignored other := by
  induction settings generalizing first second with
  | nil =>
    obtain rfl := Except.ok.inj inherited
    obtain rfl := Except.ok.inj also
    exact agree
  | cons setting settings ih =>
    rw [List.foldlM_cons, Traversal.bind_eq_ok_iff] at inherited also
    obtain ⟨next, step, rest⟩ := inherited
    obtain ⟨after, alsoStep, alsoRest⟩ := also
    exact ih (agreeApartFrom_of_inherit agree unnamed step alsoStep) rest alsoRest

/-! ## Options -/

/-- Accepted command lines are settled, completed from the environment and consistent. -/
theorem parse_eq_ok_iff {arguments : List String} {options : Options} :
    parse arguments environment = .ok options ↔
      ∃ settled chosen, settle {} (givenBy none (arguments.map String.toList)) = .ok settled ∧
        Setting.all.foldlM (inherit environment) settled = .ok chosen ∧
        (chosen.isGiven .verbose && chosen.isGiven .quiet) = false ∧
        chosen.options = options := by
  have consistent_iff : ∀ {choices other : Choices}, consistent choices = .ok other ↔
      (choices.isGiven .verbose && choices.isGiven .quiet) = false ∧ choices = other := by
    intro choices other
    cases both : choices.isGiven .verbose && choices.isGiven .quiet <;> simp [consistent, both]
  simp only [parse, Traversal.bind_eq_ok_iff, Traversal.mapError_eq_ok_iff, consistent_iff]
  constructor
  · rintro ⟨settled, first, chosen, second, _, ⟨both, rfl⟩, same⟩
    exact ⟨settled, chosen, first, second, both, Except.ok.inj same⟩
  · rintro ⟨settled, chosen, first, second, both, rfl⟩
    exact ⟨settled, first, chosen, second, chosen, ⟨both, rfl⟩, rfl⟩

/-- Command lines that give the same apart from some settings, in an environment that does not set
those, come to options that are the same once those settings are copied. -/
theorem exists_choices_of_sameApartFrom {arguments others : List String} {options more : Options}
    (same : SameApartFrom ignored arguments others)
    (unnamed : ∀ hidden ∈ ignored, hidden.environmentName? = none)
    (accepted : parse arguments environment = .ok options)
    (also : parse others environment = .ok more) :
    ∃ chosen other : Choices, chosen.options = options ∧ other.options = more ∧
      ignored.foldl (fun choices setting => choices.copy other setting) chosen = other := by
  obtain ⟨settled, chosen, first, inherited, -, named⟩ := parse_eq_ok_iff.1 accepted
  obtain ⟨alsoSettled, other, second, alsoInherited, -, alsoNamed⟩ := parse_eq_ok_iff.1 also
  have agree : settled.AgreeApartFrom ignored alsoSettled :=
    agreeApartFrom_of_settle same first second
  have completed : chosen.AgreeApartFrom ignored other :=
    agreeApartFrom_of_foldlM agree unnamed inherited alsoInherited
  exact ⟨chosen, other, named, alsoNamed, Choices.foldl_copy_of_agreeApartFrom completed⟩

end BuildMatrix.Command

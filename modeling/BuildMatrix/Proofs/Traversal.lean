import Mathlib.Data.List.Forall2

/-!
# Steps that may fail

Steps follow each other until one of them fails, and the failure of the whole is that step's. A list
is read by reading its items from left to right: reading succeeds exactly when every item can be
read, with the results in order, and otherwise its failure is that of the first item that cannot be
read. Nothing after that item is looked at.
-/

namespace BuildMatrix.Traversal

variable {α β γ ε : Type}

/-! ## Two steps -/

/-- Two steps succeed when the first one does and the second one does on its result. -/
theorem bind_eq_ok_iff {first : Except ε α} {next : α → Except ε β} {result : β} :
    (first >>= next) = .ok result ↔ ∃ value, first = .ok value ∧ next value = .ok result := by
  cases first <;> simp [bind, Except.bind]

/-- Two steps fail when the first one does, or when it succeeds and the second one fails on its
result. -/
theorem bind_eq_error_iff {first : Except ε α} {next : α → Except ε β} {failure : ε} :
    (first >>= next) = .error failure ↔
      first = .error failure ∨ ∃ value, first = .ok value ∧ next value = .error failure := by
  cases first <;> simp [bind, Except.bind]

/-- Renaming the failures of a step leaves its successes alone. -/
theorem mapError_eq_ok_iff {step : Except ε α} {rename : ε → γ} {result : α} :
    step.mapError rename = .ok result ↔ step = .ok result := by
  cases step <;> simp [Except.mapError]

/-- The failures of a step with renamed failures are its own, renamed. -/
theorem mapError_eq_error_iff {step : Except ε α} {rename : ε → γ} {failure : γ} :
    step.mapError rename = .error failure ↔
      ∃ cause, step = .error cause ∧ rename cause = failure := by
  cases step <;> simp [Except.mapError]

/-- A step succeeds under a condition, with a result that is as wanted, and fails without it. -/
def Decided (step : Except ε α) (condition : Prop) (wanted : α → Prop) : Prop :=
  (condition ∧ ∃ result, step = .ok result ∧ wanted result) ∨
    (¬ condition ∧ ∃ failure, step = .error failure)

namespace Decided

variable {step : Except ε α} {condition : Prop} {wanted : α → Prop}

/-- A decided step has a result exactly on its condition. -/
theorem ok_iff (decided : Decided step condition wanted) :
    (∃ result, step = .ok result) ↔ condition := by
  rcases decided with ⟨met, result, made, -⟩ | ⟨unmet, failure, failed⟩
  · exact iff_of_true ⟨result, made⟩ met
  · exact iff_of_false (by simp [failed]) unmet

/-- A decided step is decided for whatever its results imply. -/
theorem imp (decided : Decided step condition wanted) {desired : α → Prop}
    (kept : ∀ result, wanted result → desired result) : Decided step condition desired := by
  rcases decided with ⟨met, result, made, asWanted⟩ | failed
  · exact .inl ⟨met, result, made, kept result asWanted⟩
  · exact .inr failed

/-- Changing the results of a decided step leaves its condition alone. -/
theorem map (decided : Decided step condition wanted) {change : α → β} {desired : β → Prop}
    (kept : ∀ result, wanted result → desired (change result)) :
    Decided (step.map change) condition desired := by
  rcases decided with ⟨met, result, rfl, asWanted⟩ | ⟨unmet, failure, rfl⟩
  · exact .inl ⟨met, change result, rfl, kept result asWanted⟩
  · exact .inr ⟨unmet, failure, rfl⟩

/-- Renaming the failures of a decided step leaves it decided. -/
theorem mapError (decided : Decided step condition wanted) (rename : ε → γ) :
    Decided (step.mapError rename) condition wanted := by
  rcases decided with ⟨met, result, rfl, asWanted⟩ | ⟨unmet, failure, rfl⟩
  · exact .inl ⟨met, result, rfl, asWanted⟩
  · exact .inr ⟨unmet, rename failure, rfl⟩

end Decided

/-! ## Lists -/

/-- A list with a member that fails a property has a first one. -/
theorem exists_first_failing {holds : α → Prop} {list : List α}
    (fails : ∃ item ∈ list, ¬ holds item) :
    ∃ before item after, list = before ++ item :: after ∧ (∀ other ∈ before, holds other) ∧
      ¬ holds item := by
  induction list with
  | nil => simp at fails
  | cons first others ih =>
    by_cases head : holds first
    · obtain ⟨item, member, failing⟩ := fails
      rcases List.mem_cons.1 member with rfl | later
      · exact absurd head failing
      · obtain ⟨before, found, after, rfl, earlier, outside⟩ := ih ⟨item, later, failing⟩
        refine ⟨first :: before, found, after, rfl, ?_, outside⟩
        exact List.forall_mem_cons.2 ⟨head, earlier⟩
    · exact ⟨[], first, others, rfl, by simp, head⟩

/-- A list is read exactly when its items are, each with the result at its place. -/
theorem mapM_eq_ok_iff {read : α → Except ε β} {items : List α} {results : List β} :
    items.mapM read = .ok results ↔
      List.Forall₂ (fun item result => read item = .ok result) items results := by
  induction items generalizing results with
  | nil => cases results <;> simp [pure, Except.pure]
  | cons item items ih =>
    rw [List.mapM_cons]
    cases first : read item with
    | error failure => cases results <;> simp [bind, Except.bind, first]
    | ok result =>
      cases others : items.mapM read with
      | error failure =>
        cases results <;> simp [bind, Except.bind, ← ih, first, others]
      | ok more =>
        cases results <;> simp [bind, Except.bind, pure, Except.pure, ← ih, first, others]

/-- The failure of a list is that of the first item that cannot be read. -/
theorem mapM_eq_error_iff {read : α → Except ε β} {items : List α} {failure : ε} :
    items.mapM read = .error failure ↔
      ∃ before item after, items = before ++ item :: after ∧
        (∀ earlier ∈ before, ∃ result, read earlier = .ok result) ∧
          read item = .error failure := by
  induction items with
  | nil => simp [pure, Except.pure]
  | cons first items ih =>
    rw [List.mapM_cons, bind_eq_error_iff]
    cases head : read first with
    | error cause =>
      simp only [Except.error.injEq, reduceCtorEq, false_and, exists_false, or_false]
      constructor
      · rintro rfl
        exact ⟨[], first, items, rfl, by simp, head⟩
      · rintro ⟨before, item, after, split, earlier, failed⟩
        cases before with
        | nil =>
          obtain ⟨rfl, rfl⟩ := List.cons.inj split
          rw [head] at failed
          exact Except.error.inj failed
        | cons next before =>
          obtain ⟨rfl, rfl⟩ := List.cons.inj split
          obtain ⟨result, read⟩ := earlier first (by simp)
          rw [head] at read
          exact nomatch read
    | ok result =>
      simp only [reduceCtorEq, Except.ok.injEq, exists_eq_left', false_or, bind_eq_error_iff,
        pure, Except.pure, and_false, exists_false, or_false, ih]
      constructor
      · rintro ⟨before, item, after, rfl, earlier, failed⟩
        refine ⟨first :: before, item, after, rfl, ?_, failed⟩
        intro other member
        rcases List.mem_cons.1 member with rfl | later
        · exact ⟨result, head⟩
        · exact earlier other later
      · rintro ⟨before, item, after, split, earlier, failed⟩
        cases before with
        | nil =>
          obtain ⟨rfl, rfl⟩ := List.cons.inj split
          rw [head] at failed
          exact nomatch failed
        | cons next before =>
          obtain ⟨rfl, rfl⟩ := List.cons.inj split
          exact ⟨before, item, after, rfl, fun other member => earlier other (by simp [member]),
            failed⟩

/-- A reader that gives no reasons reads a list exactly when it reads its items. -/
theorem mapM_eq_some_iff {read : α → Option β} {relates : α → β → Prop} {items : List α}
    (known : ∀ item ∈ items, ∀ result, read item = some result ↔ relates item result)
    {results : List β} : items.mapM read = some results ↔ List.Forall₂ relates items results := by
  induction items generalizing results with
  | nil => cases results <;> simp
  | cons item items ih =>
    obtain ⟨head, tail⟩ := List.forall_mem_cons.1 known
    rw [List.mapM_cons]
    cases results with
    | nil =>
      have never : ¬ List.Forall₂ relates (item :: items) [] := fun related => nomatch related
      simp [never, Option.bind_eq_some_iff]
    | cons result results =>
      rw [List.forall₂_cons, ← head, ← ih tail]
      simp [Option.bind_eq_some_iff]

/-- Items are related to a list of results, one by one, when each is related to some result. -/
theorem exists_forall₂_iff {relates : α → β → Prop} {items : List α} :
    (∃ results, List.Forall₂ relates items results) ↔
      ∀ item ∈ items, ∃ result, relates item result := by
  induction items with
  | nil => simp
  | cons item items ih =>
    rw [List.forall_mem_cons, ← ih]
    constructor
    · rintro ⟨results, related⟩
      cases related with
      | @cons _ result _ results head tail => exact ⟨⟨result, head⟩, results, tail⟩
    · rintro ⟨⟨result, head⟩, results, tail⟩
      exact ⟨result :: results, .cons head tail⟩

/-- Where an item is related to one result only, the results are what the items are related to. -/
theorem mem_iff_of_forall₂ {relates : α → β → Prop} {items : List α} {results : List β}
    (related : List.Forall₂ relates items results)
    (unique : ∀ item first second, relates item first → relates item second → first = second)
    {result : β} : result ∈ results ↔ ∃ item ∈ items, relates item result := by
  induction related with
  | nil => simp
  | @cons item other _ _ head tail ih =>
    have same : result = other ↔ relates item result :=
      ⟨fun equal => equal ▸ head, fun alike => unique item result other alike head⟩
    rw [List.mem_cons, ih, same]
    simp

/-- What holds of results exactly when something holds of the items that they are related to holds of
all results exactly when it holds of all items. -/
theorem forall_mem_iff_of_forall₂ {relates : α → β → Prop} {accepts : α → Prop} {holds : β → Prop}
    {items : List α} {results : List β} (related : List.Forall₂ relates items results)
    (alike : ∀ item result, relates item result → (holds result ↔ accepts item)) :
    (∀ result ∈ results, holds result) ↔ ∀ item ∈ items, accepts item := by
  induction related with
  | nil => simp
  | cons head tail ih => rw [List.forall_mem_cons, List.forall_mem_cons, alike _ _ head, ih]

/-- What holds of whatever is read from an item holds of all that is read from a list. -/
theorem forall_mem_of_mapM {read : α → Option β} {holds : β → Prop} {items : List α}
    {results : List β} (each : ∀ item result, read item = some result → holds result)
    (success : items.mapM read = some results) : ∀ result ∈ results, holds result := by
  have related : List.Forall₂ (fun item result => read item = some result) items results :=
    (mapM_eq_some_iff fun _ _ _ => Iff.rfl).1 success
  have alike := forall_mem_iff_of_forall₂ related fun item result known =>
    iff_true_intro (each item result known)
  exact alike.2 fun _ _ => trivial

/-- A list made of parts is read part by part. -/
theorem mapM_flatMap (read : β → Except ε γ) (parts : α → List β) (items : List α) :
    (items.flatMap parts).mapM read =
      (items.mapM fun item => (parts item).mapM read).map List.flatten := by
  induction items with
  | nil => rfl
  | cons item items ih =>
    rw [List.flatMap_cons, List.mapM_append, ih, List.mapM_cons]
    cases (parts item).mapM read with
    | error failure => rfl
    | ok results =>
      cases items.mapM fun item => (parts item).mapM read with
      | error failure => rfl
      | ok more => rfl

end BuildMatrix.Traversal

import BuildMatrix.Constraint.Shorthand

/-!
# Evaluation

A constraint is evaluated clause by clause, each one narrowing what the ones before it left, until
nothing is left. A text with a piece that is no clause is malformed whatever the candidates, and a
selection is never empty. Narrowing comes to one selection by all clauses at once
(`narrow_eq_some_iff`).
-/

namespace BuildMatrix.Constraint

/-- The non-empty trimmed pieces between the commas of a text. -/
def pieces (text : List Char) : List (List Char) :=
  ((List.splitOn ',' text).map Text.trim).filter fun piece => !piece.isEmpty

/-- The members of a pool that satisfy a clause. A pool holds no version twice, so the first member
that is equal to a version is the only one. -/
def select (clause : Clause) (pool : VersionSet) : VersionSet :=
  match clause.comparator with
  | .equal => VersionSet.ofList (pool.toList.find? clause.holds).toList
  | _ => pool.filter clause.holds

/-- Narrow a pool by clause after clause. Once nothing is left there is no selection, and the
clauses behind are not applied. -/
def narrow : List Clause → VersionSet → Option VersionSet
  | [], pool => some pool
  | clause :: rest, pool =>
    let left := select clause pool
    if left.isEmpty then none else narrow rest left

/-- The candidates that satisfy every clause of a text, or the first thing wrong with it. -/
def evaluate (text : String) (candidates : VersionSet) : Except ConstraintError VersionSet :=
  match (pieces text.toList).mapM Clause.ofChars with
  | .error failure => .error failure
  | .ok [] => .error (.malformedClause text)
  | .ok clauses =>
    match narrow clauses candidates with
    | some selected => .ok selected
    | none => .error (.noMatch text)

/-- Normalize an expression, then evaluate it. -/
def resolve (expression : String) (candidates : VersionSet) : Except ConstraintError VersionSet :=
  evaluate (normalize expression) candidates

/-- The candidates that satisfy all clauses, selected at once. -/
def satisfying (clauses : List Clause) (candidates : VersionSet) : VersionSet :=
  candidates.filter fun version => clauses.all fun clause => clause.holds version

/-- Clauses select the candidates for which all of them hold. -/
@[simp]
theorem mem_satisfying {clauses : List Clause} {candidates : VersionSet} {version : Version} :
    version ∈ satisfying clauses candidates ↔
      version ∈ candidates ∧ ∀ clause ∈ clauses, clause.holds version = true := by
  simp [satisfying]

/-- The first member that is equal to a version is what the version selects. -/
theorem select_eq_filter (clause : Clause) (pool : VersionSet) :
    select clause pool = pool.filter clause.holds := by
  unfold select
  split
  · next equality =>
    have only : ∀ version, clause.holds version = true ↔ version = clause.version := by
      simp [Clause.holds, Comparator.holds, equality]
    refine VersionSet.ext fun version => ?_
    rw [VersionSet.mem_ofList, VersionSet.mem_filter, Option.mem_toList, only]
    constructor
    · intro first
      exact ⟨List.mem_of_find?_eq_some first, (only version).1 (List.find?_some first)⟩
    · rintro ⟨member, rfl⟩
      cases found : pool.toList.find? clause.holds with
      | none => exact absurd ((only _).2 rfl) (List.find?_eq_none.1 found _ member)
      | some other =>
        have same : other = clause.version := (only other).1 (List.find?_some found)
        rw [same]
  · rfl

/-- Narrowing by one clause more selects from what the clause leaves. -/
theorem satisfying_cons (first : Clause) (rest : List Clause) (pool : VersionSet) :
    satisfying (first :: rest) pool = satisfying rest (select first pool) := by
  refine VersionSet.ext fun version => ?_
  rw [mem_satisfying, mem_satisfying, select_eq_filter, VersionSet.mem_filter,
    List.forall_mem_cons, and_assoc]

/-- Nothing is selected from an empty pool. -/
theorem isEmpty_satisfying (clauses : List Clause) {pool : VersionSet}
    (exhausted : pool.isEmpty = true) : (satisfying clauses pool).isEmpty = true := by
  have none : pool.toList = [] := List.isEmpty_iff.1 exhausted
  show (pool.toList.filter _).isEmpty = true
  rw [none]
  rfl

/-- Narrowing by clauses one after another comes to a selection by all of them at once, and fails
exactly when that is empty. -/
theorem narrow_eq_some_iff {clauses : List Clause} {pool selected : VersionSet}
    (inhabited : clauses = [] → pool.isEmpty = false) :
    narrow clauses pool = some selected ↔
      satisfying clauses pool = selected ∧ selected.isEmpty = false := by
  -- Before every further clause the pool is inhabited, because narrowing stops when it is not.
  induction clauses generalizing pool with
  | nil =>
    have all : satisfying [] pool = pool := VersionSet.ext fun version => by simp
    rw [narrow, all, Option.some.injEq]
    constructor
    · rintro rfl
      exact ⟨rfl, inhabited rfl⟩
    · exact And.left
  | cons first rest ih =>
    rw [narrow, satisfying_cons]
    by_cases exhausted : (select first pool).isEmpty = true
    · have nothing := isEmpty_satisfying rest exhausted
      rw [if_pos exhausted]
      constructor
      · intro stopped
        exact nomatch stopped
      · rintro ⟨rfl, some⟩
        exact nomatch nothing.symm.trans some
    · rw [if_neg exhausted]
      exact ih fun _ => by simpa using exhausted

end BuildMatrix.Constraint

import Mathlib.Data.List.Basic

/-!
# First occurrences

Erasing duplicates keeps the first occurrence of every value. So values stand in the order of the
places where they are met first, and a longer list adds those values of its rest that were not met
before.
-/

namespace BuildMatrix.FirstOccurrences

variable {α Place : Type} [BEq α] [LawfulBEq α]

/-- Erasing duplicates commutes with a selection of values. -/
theorem eraseDups_filter (keep : α → Bool) (values : List α) :
    (values.filter keep).eraseDups = values.eraseDups.filter keep := by
  -- All further occurrences of the first value go, so the induction is on the length.
  induction size : values.length using Nat.strongRecOn generalizing values with
  | ind n ih =>
    cases values with
    | nil => rfl
    | cons first rest =>
      have shorter : (rest.filter fun value => !value == first).length < n := by
        have bound := List.length_filter_le (fun value => !value == first) rest
        rw [List.length_cons] at size
        omega
      have others := ih _ shorter (rest.filter fun value => !value == first) rfl
      rw [List.filter_filter] at others
      rw [List.eraseDups_cons, List.filter_cons, List.filter_cons]
      by_cases kept : keep first = true
      · rw [if_pos kept, if_pos kept, List.eraseDups_cons, List.filter_filter, ← others]
        simp only [Bool.and_comm]
      · rw [if_neg kept, if_neg kept, ← others]
        congr 1
        refine List.filter_congr fun value _ => ?_
        by_cases same : value = first
        · simp [same, kept]
        · simp [same]

/-- A longer list adds the values of its rest that were not met before. -/
theorem eraseDups_append_filter (front rest : List α) :
    (front ++ rest).eraseDups =
      front.eraseDups ++ rest.eraseDups.filter fun value => value ∉ front.eraseDups := by
  have same : rest.removeAll front = rest.filter fun value => value ∉ front.eraseDups := by
    rw [List.removeAll]
    refine List.filter_congr fun value _ => ?_
    simp [List.mem_eraseDups]
  rw [List.eraseDups_append, same, eraseDups_filter]

/-- Values that are met at ascending places stand in the order of the places where they are met
first: some place of each is before all places of the values behind it. -/
theorem pairwise_eraseDups {before : Place → Place → Prop} (met : List (Place × α))
    (ascending : met.Pairwise fun first second => before first.1 second.1) :
    (met.map Prod.snd).eraseDups.Pairwise fun value later =>
      ∃ place, (place, value) ∈ met ∧ ∀ other, (other, later) ∈ met → before place other := by
  induction size : met.length using Nat.strongRecOn generalizing met with
  | ind n ih =>
    cases met with
    | nil => exact .nil
    | cons first rest =>
      obtain ⟨place, value⟩ := first
      obtain ⟨above, tail⟩ := List.pairwise_cons.1 ascending
      let others := rest.filter fun found => !found.2 == value
      have shorter : others.length < n := by
        have bound : others.length ≤ rest.length := List.length_filter_le _ rest
        rw [List.length_cons] at size
        omega
      have shape : ((place, value) :: rest).map Prod.snd =
          value :: rest.map Prod.snd := rfl
      have behind : (rest.map Prod.snd).filter (fun found => !found == value) =
          others.map Prod.snd := List.filter_map
      have different : ∀ {found : α}, found ∈ (others.map Prod.snd).eraseDups →
          ¬ found = value := by
        intro found member
        rw [List.mem_eraseDups, ← behind, List.mem_filter] at member
        simpa using member.2
      have kept : ∀ {found : α} {other : Place}, ¬ found = value →
          ((other, found) ∈ (place, value) :: rest ↔ (other, found) ∈ others) := by
        intro found other distinct
        simp [others, distinct]
      rw [shape, List.eraseDups_cons, behind, List.pairwise_cons]
      constructor
      · intro later member
        refine ⟨place, List.mem_cons_self, fun other found => ?_⟩
        have within := (kept (different member)).1 found
        exact above _ (List.mem_filter.1 within).1
      · have pairs := ih _ shorter others (tail.filter _) rfl
        refine pairs.imp_of_mem fun {first second} memberFirst memberSecond ordered => ?_
        obtain ⟨sooner, found, ahead⟩ := ordered
        refine ⟨sooner, (kept (different memberFirst)).2 found, fun other later => ?_⟩
        exact ahead other ((kept (different memberSecond)).1 later)

end BuildMatrix.FirstOccurrences

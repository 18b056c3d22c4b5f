import BuildMatrix.Proofs.Text.Fields
import BuildMatrix.Storage.Tree

/-!
# Where paths lead

A path leads from one place in a tree to another, component by component: nothing is looked up in a
file, and a directory has an entry, a parent and itself to lead to. The walk finds the one place
that a path leads to, or tells that there is none. An entry of a directory is where the directory's
path with the entry's name after it leads, with a slash between them or the path's own.
-/

namespace BuildMatrix.Storage

/-- Somewhere in a tree: a node, and the directories that it is in, nearest first. -/
structure Place where
  /-- What is there. -/
  node : Node
  /-- The directories above it. -/
  above : List Node

/-- The name of an entry may be anything but what leads to a directory itself or to its parent. -/
def IsName (component : String) : Prop :=
  component ≠ "" ∧ component ≠ "." ∧ component ≠ ".."

/-- Whether a component is a name can be computed. -/
instance (component : String) : Decidable (IsName component) :=
  inferInstanceAs (Decidable (_ ∧ _ ∧ _))

/-- One component leads from a directory to another place. -/
inductive Step : Place → String → Place → Prop
  /-- Nothing and a dot stay. -/
  | stay {entries : List (String × Node)} {above : List Node} {component : String}
      (idle : component = "" ∨ component = ".") :
      Step ⟨.directory entries, above⟩ component ⟨.directory entries, above⟩
  /-- Two dots go up. -/
  | up {entries : List (String × Node)} {parent : Node} {above : List Node} :
      Step ⟨.directory entries, parent :: above⟩ ".." ⟨parent, above⟩
  /-- The root is its own parent. -/
  | top {entries : List (String × Node)} :
      Step ⟨.directory entries, []⟩ ".." ⟨.directory entries, []⟩
  /-- A name goes down to the entry of that name. -/
  | down {entries : List (String × Node)} {above : List Node} {component : String} {child : Node}
      (name : IsName component) (entry : entries.lookup component = some child) :
      Step ⟨.directory entries, above⟩ component ⟨child, .directory entries :: above⟩

/-- Components lead to a place one after another. -/
inductive Leads : Place → List String → Place → Prop
  /-- Without components nothing changes. -/
  | here {place : Place} : Leads place [] place
  /-- The first component leads to where the others start. -/
  | next {place middle last : Place} {component : String} {rest : List String}
      (step : Step place component middle) (more : Leads middle rest last) :
      Leads place (component :: rest) last

/-! ## Steps -/

variable {place middle last other : Place} {component name : String} {rest : List String}

/-- Nothing and a dot lead back to where they start. -/
theorem Step.eq_of_idle (step : Step place component last)
    (idle : component = "" ∨ component = ".") : last = place := by
  cases step with
  | stay _ => rfl
  | up => exact absurd idle (by decide)
  | top => rfl
  | down name _ => exact absurd idle (not_or.2 ⟨name.1, name.2.1⟩)

/-- A name leads to the entry of that name, in the directory where it starts. -/
theorem Step.entry_of_isName (step : Step place component last) (named : IsName component) :
    ∃ entries, place.node = .directory entries ∧ entries.lookup component = some last.node ∧
      last.above = place.node :: place.above := by
  cases step with
  | stay idle => exact absurd idle (not_or.2 ⟨named.1, named.2.1⟩)
  | up => exact absurd rfl named.2.2
  | top => exact absurd rfl named.2.2
  | down _ entry => exact ⟨_, rfl, entry, rfl⟩

/-- A component leads to one place at most. -/
theorem Step.unique (step : Step place component last) (again : Step place component other) :
    last = other := by
  cases step with
  | stay idle => exact (again.eq_of_idle idle).symm
  | up =>
    cases again with
    | stay idle => exact absurd idle (by decide)
    | up => rfl
    | down name _ => exact absurd rfl name.2.2
  | top =>
    cases again with
    | stay _ => rfl
    | top => rfl
    | down name _ => exact absurd rfl name.2.2
  | down name entry =>
    obtain ⟨entries, here, found, above⟩ := again.entry_of_isName name
    cases here
    rw [entry] at found
    cases other
    cases found
    cases above
    rfl

/-- Components lead to one place at most. -/
theorem Leads.unique (leads : Leads place rest last) (again : Leads place rest other) :
    last = other := by
  induction leads with
  | here =>
    cases again
    rfl
  | next step _ ih =>
    cases again with
    | next stepAgain more =>
      have same := step.unique stepAgain
      subst same
      exact ih more

/-- Components are followed in two parts. -/
theorem leads_append_iff {first : List String} :
    Leads place (first ++ rest) last ↔ ∃ middle, Leads place first middle ∧ Leads middle rest last := by
  induction first generalizing place with
  | nil =>
    constructor
    · intro leads
      exact ⟨place, .here, leads⟩
    · rintro ⟨_, ⟨⟩, leads⟩
      exact leads
  | cons component first ih =>
    constructor
    · rintro (_ | ⟨step, more⟩)
      obtain ⟨middle, front, back⟩ := ih.1 more
      exact ⟨middle, .next step front, back⟩
    · rintro ⟨middle, _ | ⟨step, front⟩, back⟩
      exact .next step (ih.2 ⟨middle, front, back⟩)

/-- A last component is a step. -/
theorem leads_concat_iff {first : List String} :
    Leads place (first ++ [component]) last ↔
      ∃ middle, Leads place first middle ∧ Step middle component last := by
  rw [leads_append_iff]
  refine exists_congr fun middle => and_congr_right fun _ => ?_
  constructor
  · rintro (_ | ⟨step, _ | _⟩)
    exact step
  · intro step
    exact .next step .here

/-! ## The walk -/

/-- The walk goes on from where a component leads. -/
theorem walk_of_step (step : Step place component last) (rest : List String) :
    walk place.above place.node (component :: rest) = walk last.above last.node rest := by
  cases step with
  | stay idle => simp [walk, idle]
  | up => simp [walk]
  | top => simp [walk]
  | down name entry => simp [walk, name.1, name.2.1, name.2.2, entry]

/-- The walk ends nowhere when a component leads nowhere. -/
theorem walk_of_stuck (stuck : ∀ last, ¬ Step place component last) (rest : List String) :
    walk place.above place.node (component :: rest) = .missing ∨
      walk place.above place.node (component :: rest) = .blocked := by
  obtain ⟨node, above⟩ := place
  cases node with
  | file content => exact .inr rfl
  | directory entries =>
    have moving : ¬ (component = "" ∨ component = ".") := fun idle => stuck _ (.stay idle)
    have sideways : component ≠ ".." := by
      rintro rfl
      cases above with
      | nil => exact stuck _ .top
      | cons parent above => exact stuck _ .up
    have name : IsName component := ⟨(not_or.1 moving).1, (not_or.1 moving).2, sideways⟩
    have absent : entries.lookup component = none := by
      cases entry : entries.lookup component with
      | none => rfl
      | some child => exact absurd (.down name entry) (stuck _)
    left
    simp [walk, moving, sideways, absent]

/-- The walk finds what the components lead to, and tells when they lead nowhere. -/
theorem walk_cases (components : List String) (place : Place) :
    (∃ last, Leads place components last ∧
      walk place.above place.node components = last.node.found) ∨
    (∀ last, ¬ Leads place components last) ∧
      (walk place.above place.node components = .missing ∨
        walk place.above place.node components = .blocked) := by
  induction components generalizing place with
  | nil => exact .inl ⟨place, .here, by rw [walk]⟩
  | cons component rest ih =>
    by_cases moves : ∃ middle, Step place component middle
    · obtain ⟨middle, step⟩ := moves
      rw [walk_of_step step]
      rcases ih middle with ⟨last, leads, found⟩ | ⟨nowhere, lost⟩
      · exact .inl ⟨last, .next step leads, found⟩
      · refine .inr ⟨?_, lost⟩
        rintro last (_ | ⟨stepAgain, more⟩)
        rw [← step.unique stepAgain] at more
        exact nowhere last more
    · have stuck := not_exists.1 moves
      refine .inr ⟨?_, walk_of_stuck stuck rest⟩
      rintro last (_ | ⟨step, -⟩)
      exact stuck _ step

/-- The walk finds a file when the components lead to it. -/
theorem walk_eq_file_iff {above : List Node} {node : Node} {components : List String}
    {content : Bytes} :
    walk above node components = .file content ↔
      ∃ higher, Leads ⟨node, above⟩ components ⟨.file content, higher⟩ := by
  rcases walk_cases components ⟨node, above⟩ with ⟨last, leads, found⟩ | ⟨nowhere, lost⟩
  · rw [found]
    constructor
    · intro same
      obtain ⟨reached, higher⟩ := last
      cases reached with
      | file bytes =>
        obtain rfl := Found.file.inj same
        exact ⟨higher, leads⟩
      | directory entries => exact nomatch same
    · rintro ⟨higher, again⟩
      cases leads.unique again
      rfl
  · constructor
    · intro same
      rcases lost with missing | blocked
      · exact nomatch missing.symm.trans same
      · exact nomatch blocked.symm.trans same
    · rintro ⟨higher, leads⟩
      exact absurd leads (nowhere _)

/-! ## Paths -/

/-- The components that are followed from the root, those of the current directory first unless the
path is absolute. -/
def Disk.route (disk : Disk) (path : String) : List String :=
  if isAbsolute path then components path else components disk.current ++ components path

/-- A path leads to a node of the tree; the empty path leads nowhere. -/
def Disk.Reaches (disk : Disk) (path : String) (node : Node) : Prop :=
  path ≠ "" ∧ ∃ above, Leads ⟨disk.root, []⟩ (disk.route path) ⟨node, above⟩

variable {disk : Disk} {directory path : String} {node : Node}

/-- A path leads to one node at most. -/
theorem Disk.Reaches.unique {another : Node} (reaches : disk.Reaches path node)
    (again : disk.Reaches path another) : node = another := by
  obtain ⟨-, above, leads⟩ := reaches
  obtain ⟨-, others, leadsAgain⟩ := again
  exact congrArg Place.node (leads.unique leadsAgain)

/-- A path leads somewhere. -/
def Disk.IsPresent (disk : Disk) (path : String) : Prop :=
  ∃ node, disk.Reaches path node

/-- A path leads to a directory. -/
def Disk.IsDirectory (disk : Disk) (path : String) : Prop :=
  ∃ entries, disk.Reaches path (.directory entries)

/-- A path leads to a regular file. -/
def Disk.IsFile (disk : Disk) (path : String) : Prop :=
  ∃ content, disk.Reaches path (.file content)

/-- What is present and no directory is a regular file. -/
theorem Disk.isFile_iff :
    disk.IsFile path ↔ disk.IsPresent path ∧ ¬ disk.IsDirectory path := by
  constructor
  · rintro ⟨content, reaches⟩
    refine ⟨⟨.file content, reaches⟩, ?_⟩
    rintro ⟨entries, again⟩
    exact nomatch reaches.unique again
  · rintro ⟨⟨node, reaches⟩, other⟩
    cases node with
    | file content => exact ⟨content, reaches⟩
    | directory entries => exact absurd ⟨entries, reaches⟩ other

/-- What is looked up at a path is a file when the path leads to it. -/
theorem Disk.files_eq_file_iff {content : Bytes} :
    disk.files path = .file content ↔ disk.Reaches path (.file content) := by
  have walked : path ≠ "" → disk.files path = walk [] disk.root (disk.route path) := by
    intro some
    rw [Disk.files, Disk.route, if_neg some]
    split <;> rfl
  constructor
  · intro found
    have some : path ≠ "" := by
      rintro rfl
      exact nomatch found
    rw [walked some] at found
    exact ⟨some, walk_eq_file_iff.1 found⟩
  · rintro ⟨some, leads⟩
    rw [walked some]
    exact walk_eq_file_iff.2 leads

/-! ## Entries -/

/-- A slash ends the components before it. -/
theorem components_append_slash (front back : List Char) :
    components (String.ofList (front ++ '/' :: back)) =
      components (String.ofList front) ++ components (String.ofList back) := by
  simp only [components, String.toList_ofList, List.splitOn_append_cons_self, List.map_append]

/-- A name without slashes is a component of its own. -/
theorem components_of_plain (plain : '/' ∉ name.toList) : components name = [name] := by
  rw [components, List.splitOn_eq_singleton plain, List.map_singleton, String.ofList_toList]

/-- A name is put behind a path as a component of its own, in place of an empty last one. -/
theorem components_join (inhabited : directory ≠ "") (plain : '/' ∉ name.toList) :
    ∃ front, components (join directory name) = front ++ [name] ∧
      (components directory = front ∨ components directory = front ++ [""]) := by
  have single := components_of_plain plain
  by_cases ended : directory.toList.getLast? = some '/'
  · obtain ⟨front, split⟩ := List.getLast?_eq_some_iff.1 ended
    have whole : directory = String.ofList (front ++ '/' :: []) := by
      rw [← split, String.ofList_toList]
    have joined : join directory name = String.ofList (front ++ '/' :: name.toList) := by
      rw [join, if_neg inhabited, if_pos ended, whole]
      apply String.toList_inj.1
      simp
    refine ⟨components (String.ofList front), ?_, .inr ?_⟩
    · rw [joined, components_append_slash, String.ofList_toList, single]
    · rw [whole, components_append_slash]
      rfl
  · have joined : join directory name =
        String.ofList (directory.toList ++ '/' :: name.toList) := by
      rw [join, if_neg inhabited, if_neg ended]
      apply String.toList_inj.1
      simp
    refine ⟨components directory, ?_, .inl rfl⟩
    rw [joined, components_append_slash, String.ofList_toList, String.ofList_toList, single]

/-- What a name is put behind stays as it is. -/
theorem exists_join_eq (inhabited : directory ≠ "") (name : String) :
    ∃ back, join directory name = directory ++ back := by
  unfold join
  rw [if_neg inhabited]
  split
  · exact ⟨name, rfl⟩
  · exact ⟨"/" ++ name, String.append_assoc⟩

/-- A name behind a path is followed after the path, from the same place. -/
theorem Disk.route_join (disk : Disk) (inhabited : directory ≠ "") (plain : '/' ∉ name.toList) :
    ∃ front, disk.route (join directory name) = front ++ [name] ∧
      (disk.route directory = front ∨ disk.route directory = front ++ [""]) := by
  obtain ⟨back, extended⟩ := exists_join_eq inhabited name
  have some : directory.toList ≠ [] := fun none => inhabited (String.toList_eq_nil_iff.1 none)
  have start : isAbsolute (join directory name) = isAbsolute directory := by
    rw [extended, isAbsolute, isAbsolute, String.toList_append, List.head?_append,
      List.head?_eq_some_head some]
    rfl
  obtain ⟨front, joined, place⟩ := components_join inhabited plain
  by_cases absolute : isAbsolute directory = true
  · refine ⟨front, ?_, ?_⟩
    · rw [Disk.route, start, if_pos absolute, joined]
    · rw [Disk.route, if_pos absolute]
      exact place
  · refine ⟨components disk.current ++ front, ?_, ?_⟩
    · rw [Disk.route, start, if_neg absolute, joined, List.append_assoc]
    · rw [Disk.route, if_neg absolute]
      rcases place with same | blank
      · exact .inl (by rw [same])
      · exact .inr (by rw [blank, List.append_assoc])

/-- Nothing behind a path leads from a directory to the same directory. -/
theorem leads_blank_iff {front : List String} {entries : List (String × Node)}
    {above : List Node} :
    Leads place (front ++ [""]) ⟨.directory entries, above⟩ ↔
      Leads place front ⟨.directory entries, above⟩ := by
  rw [leads_concat_iff]
  constructor
  · rintro ⟨middle, leads, step⟩
    rw [step.eq_of_idle (.inl rfl)]
    exact leads
  · intro leads
    exact ⟨_, leads, .stay (.inl rfl)⟩

/-- A name behind a path leads to the entry of the directory that the path leads to. -/
theorem leads_name_iff {front : List String} (named : IsName name) :
    (∃ above, Leads place (front ++ [name]) ⟨node, above⟩) ↔
      ∃ entries above, Leads place front ⟨.directory entries, above⟩ ∧
        entries.lookup name = some node := by
  simp only [leads_concat_iff]
  constructor
  · rintro ⟨above, ⟨reached, higher⟩, leads, step⟩
    obtain ⟨entries, here, entry, -⟩ := step.entry_of_isName named
    cases here
    exact ⟨entries, higher, leads, entry⟩
  · rintro ⟨entries, above, leads, entry⟩
    exact ⟨_, _, leads, .down named entry⟩

/-- The path of an entry leads to what the directory has under the entry's name. -/
theorem Disk.reaches_join_iff (inhabited : directory ≠ "") (named : IsName name)
    (plain : '/' ∉ name.toList) :
    disk.Reaches (join directory name) node ↔
      ∃ entries, disk.Reaches directory (.directory entries) ∧ entries.lookup name = some node := by
  obtain ⟨front, joined, place⟩ := disk.route_join inhabited plain
  obtain ⟨back, extended⟩ := exists_join_eq inhabited name
  have longer : join directory name ≠ "" := by
    rw [extended]
    exact fun empty => inhabited (String.append_eq_empty_iff.1 empty).1
  have before {entries : List (String × Node)} {above : List Node} :
      Leads ⟨disk.root, []⟩ (disk.route directory) ⟨.directory entries, above⟩ ↔
        Leads ⟨disk.root, []⟩ front ⟨.directory entries, above⟩ := by
    rcases place with same | blank
    · rw [same]
    · rw [blank, leads_blank_iff]
  unfold Disk.Reaches
  rw [joined, leads_name_iff named]
  simp only [before, inhabited, longer, ne_eq, not_false_eq_true, true_and, exists_and_right]

end BuildMatrix.Storage

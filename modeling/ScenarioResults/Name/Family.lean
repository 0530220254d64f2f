import ScenarioResults.Attempt
import ScenarioResults.Name.Siblings

/-!
# Families of named members

A family is a list of members that share one pool of names. A member gets its name when it is first
asked for, derived from a base that depends on the member alone; once assigned, a name stays. Members
are only ever appended, so a position identifies a member for good.
-/

namespace ScenarioResults.Name

/-- A value with the name assigned to it, if any. -/
structure Member (α : Type) where
  value : α
  name : Option String := none
  deriving DecidableEq, Repr, Inhabited

/-- Members in order of arrival and the names handed out among them. -/
structure Family (α : Type) where
  members : List (Member α) := []
  names : Siblings := {}
  deriving DecidableEq, Repr, Inhabited

namespace Family

variable {α β : Type}

/-- Number of members. -/
def size (f : Family α) : Nat := f.members.length

/-- The values in order. -/
def values (f : Family α) : List α := f.members.map Member.value

/-- The assigned names in order. -/
def labels (f : Family α) : List (Option String) := f.members.map Member.name

/-- The value at a position. -/
def get? (f : Family α) (i : Nat) : Option α := f.members[i]?.map Member.value

/-- The name assigned at a position. -/
def name? (f : Family α) (i : Nat) : Option String := f.members[i]?.bind Member.name

/-- Append a member without a name. -/
def push (f : Family α) (a : α) : Family α :=
  { f with members := f.members ++ [{ value := a }] }

/-- Change the value at a position, if there is one. -/
def modify (f : Family α) (i : Nat) (g : α → α) : Family α :=
  { f with members := f.members.modify i fun m => { m with value := g m.value } }

/-- Update every value, keeping names. -/
def attempt (f : Family α) (g : α → Attempt α) : Attempt (Family α) :=
  (Attempt.each (fun m => (g m.value).map fun a => { m with value := a }) f.members).map fun members =>
    { f with members }

/-- Name a member unless it has a name: the answer is the member and the pool afterwards. -/
def label (base : α → String) (m : Member α) (names : Siblings) : Member α × Siblings :=
  match m.name with
  | some _ => (m, names)
  | none =>
    let (name, names) := names.claim (base m.value)
    ({ m with name := some name }, names)

/-- Make sure that the member at a position has a name. -/
def request (base : α → String) (f : Family α) (i : Nat) : Family α :=
  match f.members[i]? with
  | none => f
  | some m =>
    let (m, names) := label base m f.names
    { members := f.members.set i m, names }

/-- Name every member of a list that has no name, in order. -/
def labelEach (base : α → String) : List (Member α) → Siblings → List (Member α) × Siblings
  | [], names => ([], names)
  | m :: ms, names =>
    let (m, names) := label base m names
    let (ms, names) := labelEach base ms names
    (m :: ms, names)

/-- Name every member that has no name, in order. -/
def labelAll (base : α → String) (f : Family α) : Family α :=
  let (members, names) := labelEach base f.members f.names
  { members, names }

/-- Move a member into another pool: its name is claimed there. -/
def rename (m : Member α) (names : Siblings) : Member α × Siblings :=
  match m.name with
  | none => (m, names)
  | some name =>
    let (name, names) := names.claim name
    ({ m with name := some name }, names)

/-- Move the members of a list into another pool, in order. -/
def renameEach : List (Member α) → Siblings → List (Member α) × Siblings
  | [], names => ([], names)
  | m :: ms, names =>
    let (m, names) := rename m names
    let (ms, names) := renameEach ms names
    (m :: ms, names)

/-- Append the members of another family. A name they bring is kept when it is free here and claimed
anew otherwise. -/
def adopt (f other : Family α) : Family α :=
  let (members, names) := renameEach other.members f.names
  { members := f.members ++ members, names }

/-! ## Views of the operations -/

@[simp]
theorem values_push (f : Family α) (a : α) : (f.push a).values = f.values ++ [a] := by
  simp [push, values]

@[simp]
theorem size_push (f : Family α) (a : α) : (f.push a).size = f.size + 1 := by
  simp [push, size]

/-- Naming a member leaves its value alone. -/
theorem value_label (base : α → String) (m : Member α) (names : Siblings) :
    (label base m names).1.value = m.value := by
  unfold label
  split <;> rfl

/-- So does naming it anew. -/
theorem value_rename (m : Member α) (names : Siblings) : (rename m names).1.value = m.value := by
  unfold rename
  split <;> rfl

/-- Naming all members leaves their values alone. -/
@[simp]
theorem values_labelAll (base : α → String) (f : Family α) : (f.labelAll base).values = f.values := by
  have step : ∀ (ms : List (Member α)) (names : Siblings),
      (labelEach base ms names).1.map Member.value = ms.map Member.value := by
    intro ms
    induction ms with
    | nil => intro names; rfl
    | cons m ms ih => intro names; simp [labelEach, value_label, ih]
  exact step f.members f.names

/-- The adopted members come behind the others, with the values they had. -/
@[simp]
theorem values_adopt (f other : Family α) : (f.adopt other).values = f.values ++ other.values := by
  have step : ∀ (ms : List (Member α)) (names : Siblings),
      (renameEach ms names).1.map Member.value = ms.map Member.value := by
    intro ms
    induction ms with
    | nil => intro names; rfl
    | cons m ms ih => intro names; simp [renameEach, value_rename, ih]
  simp [adopt, values, step]

end Family

end ScenarioResults.Name

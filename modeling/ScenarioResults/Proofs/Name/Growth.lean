import Mathlib.Data.List.Basic
import ScenarioResults.Name.Family
import ScenarioResults.Proofs.Attempt
import ScenarioResults.Proofs.Modify
import ScenarioResults.Proofs.Name.Claim

/-!
# Families keep the names they assign

`Named` is the invariant of a family: the assigned names are distinct, belong to the pool and are
safe. `Grows` says what one operation does to it: the invariant is carried over and every assigned
name stays where it is. Naming all members and adopting another family are folds of one-member
operations, so each of them needs one lemma about a single member.
-/

namespace ScenarioResults.Name.Family

variable {α : Type} {base : α → String} {f f' f'' : Family α}

/-- The assigned names are distinct, belong to the pool and are safe. -/
structure Named (f : Family α) : Prop where
  unique : ∀ {i j : ℕ} {n : String}, f.name? i = some n → f.name? j = some n → i = j
  taken : ∀ {i : ℕ} {n : String}, f.name? i = some n → n ∈ f.names.taken
  safe : ∀ {i : ℕ} {n : String}, f.name? i = some n → IsSafe n

/-- From one family to the next the invariant is carried over and every assigned name stays. -/
structure Grows (f f' : Family α) : Prop where
  named : f.Named → f'.Named
  kept : ∀ {i : ℕ} {n : String}, f.name? i = some n → f'.name? i = some n

theorem named_empty : ({} : Family α).Named :=
  ⟨fun h => by simp [name?] at h, fun h => by simp [name?] at h, fun h => by simp [name?] at h⟩

theorem Grows.refl (f : Family α) : f.Grows f := ⟨id, id⟩

theorem Grows.trans (h : f.Grows f') (h' : f'.Grows f'') : f.Grows f'' :=
  ⟨fun hn => h'.named (h.named hn), fun hi => h'.kept (h.kept hi)⟩

/-- An operation that touches neither names nor pool. -/
theorem Grows.of_name?_eq (hname : ∀ i, f'.name? i = f.name? i) (hpool : f'.names = f.names) :
    f.Grows f' := by
  refine ⟨fun hn => ⟨fun hi hj => ?_, fun hi => ?_, fun hi => ?_⟩, fun hi => ?_⟩
  · rw [hname] at hi hj
    exact hn.unique hi hj
  · rw [hname] at hi
    rw [hpool]
    exact hn.taken hi
  · rw [hname] at hi
    exact hn.safe hi
  · rw [hname]
    exact hi

/-! ## Values and names by position -/

/-- A member is found by its position. -/
theorem get?_eq (f : Family α) (i : ℕ) : f.get? i = f.values[i]? := by
  simp [get?, values]

theorem size_eq_length_values (f : Family α) : f.size = f.values.length := by
  simp [size, values]

/-- There is a member at each position below the size. -/
theorem isSome_get?_iff (f : Family α) (i : ℕ) : (f.get? i).isSome ↔ i < f.size := by
  rw [get?_eq, size_eq_length_values]
  simp

/-- The name at a position is the label there, if it has one. -/
theorem name?_eq (f : Family α) (i : ℕ) : f.name? i = f.labels[i]?.join := by
  cases h : f.members[i]? <;> simp [name?, labels, h]

@[simp]
theorem labels_push (f : Family α) (a : α) : (f.push a).labels = f.labels ++ [none] := by
  simp [push, labels]

@[simp]
theorem labels_modify (f : Family α) (i : ℕ) (g : α → α) : (f.modify i g).labels = f.labels := by
  have hname : ∀ m : Member α, ({ m with value := g m.value } : Member α).name = m.name :=
    fun _ => rfl
  exact map_modify_eq_self hname f.members i

@[simp]
theorem values_modify (f : Family α) (i : ℕ) (g : α → α) :
    (f.modify i g).values = f.values.modify i g := by
  have hvalue : ∀ m : Member α, ({ m with value := g m.value } : Member α).value = g m.value :=
    fun _ => rfl
  exact map_modify hvalue f.members i

/-- Attempts on the members' values do not see their names. -/
theorem each_members (g : α → Attempt α) (ms : List (Member α)) :
    (Attempt.each (fun m => (g m.value).map fun a => { m with value := a }) ms).map
        (List.map Member.value) = Attempt.each g (ms.map Member.value) ∧
      (Attempt.each (fun m => (g m.value).map fun a => { m with value := a }) ms).value.map
        Member.name = ms.map Member.name := by
  induction ms with
  | nil => exact ⟨rfl, rfl⟩
  | cons m ms ih =>
      obtain ⟨hvalues, hnames⟩ := ih
      rw [List.map_cons, Attempt.each, Attempt.each, ← hvalues]
      cases g m.value with
      | halted a => simp
      | done a =>
          refine ⟨?_, by simpa using hnames⟩
          cases Attempt.each (fun m => (g m.value).map fun a => { m with value := a }) ms <;> simp

/-- An attempt to update the values updates them one by one. -/
theorem values_attempt (f : Family α) (g : α → Attempt α) :
    (f.attempt g).map values = Attempt.each g f.values := by
  rw [values, ← (each_members g f.members).1, attempt]
  cases Attempt.each (fun m => (g m.value).map fun a => { m with value := a }) f.members <;> rfl

/-- An attempt to update the values keeps the names, also when it stops. -/
@[simp]
theorem labels_attempt (f : Family α) (g : α → Attempt α) :
    (f.attempt g).value.labels = f.labels := by
  simpa [attempt, labels] using (each_members g f.members).2

/-- It keeps the pool as well. -/
@[simp]
theorem names_attempt (f : Family α) (g : α → Attempt α) : (f.attempt g).value.names = f.names := by
  simp [attempt]

/-! ## Operations that assign nothing -/

/-- A family grows by a new member. -/
theorem grows_push (f : Family α) (a : α) : f.Grows (f.push a) := by
  refine Grows.of_name?_eq (fun i => ?_) rfl
  rw [name?_eq, name?_eq, labels_push, List.getElem?_append]
  split
  · rfl
  · next h =>
      rw [List.getElem?_eq_none (Nat.le_of_not_lt h)]
      cases i - f.labels.length <;> simp

/-- A family grows into one with a changed value. -/
theorem grows_modify (f : Family α) (i : ℕ) (g : α → α) : f.Grows (f.modify i g) :=
  Grows.of_name?_eq (fun j => by rw [name?_eq, name?_eq, labels_modify]) rfl

/-- A family grows into what an attempt at its values leaves. -/
theorem grows_attempt (f : Family α) (g : α → Attempt α) : f.Grows (f.attempt g).value :=
  Grows.of_name?_eq (fun j => by rw [name?_eq, name?_eq, labels_attempt]) (names_attempt f g)

/-! ## Naming members -/

/-- A request changes nothing unless it names a nameless member. -/
theorem request_cases (base : α → String) (f : Family α) (i : ℕ) :
    f.request base i = f ∨ ∃ m, f.members[i]? = some m ∧ m.name = none ∧
      f.request base i =
        { members := f.members.set i { m with name := some (f.names.claim (base m.value)).1 }
          names := (f.names.claim (base m.value)).2 } := by
  unfold request
  cases hm : f.members[i]? with
  | none => exact Or.inl rfl
  | some m =>
      cases hname : m.name with
      | none => exact Or.inr ⟨m, rfl, hname, by simp [label, hname]⟩
      | some n =>
          refine Or.inl ?_
          have hset : f.members.set i m = f.members := by
            obtain ⟨hi, rfl⟩ := List.getElem?_eq_some_iff.mp hm
            exact List.set_getElem_self hi
          simp [label, hname, hset]

/-- A nameless member that is asked for its name claims its base. -/
theorem name?_request {i : ℕ} {a : α} (ha : f.get? i = some a) (hname : f.name? i = none) :
    (f.request base i).name? i = some (f.names.claim (base a)).1 := by
  obtain ⟨m, hm, rfl⟩ := Option.map_eq_some_iff.mp ha
  have hi : i < f.members.length := (List.getElem?_eq_some_iff.mp hm).1
  have hnameless : m.name = none := by simpa [name?, hm] using hname
  rw [request, hm]
  simp only [label, hnameless]
  rw [name?, List.getElem?_set_self hi, Option.bind_some]

/-- Asking for a name leaves the values alone. -/
@[simp]
theorem values_request (base : α → String) (f : Family α) (i : ℕ) :
    (f.request base i).values = f.values := by
  rcases request_cases base f i with h | ⟨m, hm, -, h⟩
  · rw [h]
  · rw [h]
    apply List.ext_getElem?
    intro j
    simp only [values, List.getElem?_map, List.getElem?_set]
    by_cases hij : i = j
    · subst hij
      obtain ⟨hi, rfl⟩ := List.getElem?_eq_some_iff.mp hm
      simp [hi]
    · simp [hij]

/-- The invariant survives one more name: at a single position, handed out for a safe base. -/
theorem Named.of_claim (hn : f.Named) {old : String} (hold : IsSafe old) {i : ℕ}
    (hpool : f'.names = (f.names.claim old).2)
    (hat : ∀ {j n}, f'.name? j = some n → f.name? j = some n ∨ (j = i ∧ n = (f.names.claim old).1)) :
    f'.Named := by
  have hfree := f.names.claim_notMem old
  refine ⟨fun {j k n} hj hk => ?_, fun {j n} hj => ?_, fun {j n} hj => ?_⟩
  -- the new name was free, so it differs from all others
  · rcases hat hj with hj | ⟨rfl, hjn⟩ <;> rcases hat hk with hk | ⟨rfl, hkn⟩
    · exact hn.unique hj hk
    · exact absurd (hn.taken hj) (hkn ▸ hfree)
    · exact absurd (hn.taken hk) (hjn ▸ hfree)
    · rfl
  · rw [hpool, Siblings.taken_claim, List.mem_cons]
    rcases hat hj with hj | ⟨-, rfl⟩
    · exact Or.inr (hn.taken hj)
    · exact Or.inl rfl
  · rcases hat hj with hj | ⟨-, rfl⟩
    · exact hn.safe hj
    · exact f.names.isSafe_claim hold

/-- A name that joins the pool as it is assigned keeps the invariant. -/
theorem grows_request (hbase : ∀ a, IsSafe (base a)) (f : Family α) (i : ℕ) :
    f.Grows (f.request base i) := by
  rcases request_cases base f i with h | ⟨m, hm, hname, h⟩
  · rw [h]
    exact Grows.refl f
  rw [h]
  have hi : i < f.members.length := (List.getElem?_eq_some_iff.mp hm).1
  have hnone : f.name? i = none := by simp [name?, hm, hname]
  refine ⟨fun hn => hn.of_claim (hbase m.value) (i := i) rfl fun {j n} hj => ?_, fun {j n} hj => ?_⟩
  · rw [name?, List.getElem?_set] at hj
    by_cases hij : i = j
    · subst hij
      exact Or.inr ⟨rfl, by simpa [hi] using hj.symm⟩
    · exact Or.inl (by simpa [hij, name?] using hj)
  · have hij : i ≠ j := by
      rintro rfl
      rw [hnone] at hj
      cases hj
    simpa [name?, hij] using hj

/-- Naming the members of a list in order is requesting their positions in order. -/
theorem foldl_request_append (base : α → String) (ms done : List (Member α)) (names : Siblings) :
    (List.range' done.length ms.length).foldl (request base) { members := done ++ ms, names } =
      { members := done ++ (labelEach base ms names).1, names := (labelEach base ms names).2 } := by
  induction ms generalizing done names with
  | nil => rfl
  | cons m ms ih =>
      have hstep : request base { members := done ++ m :: ms, names } done.length =
          { members := (done ++ [(label base m names).1]) ++ ms
            names := (label base m names).2 } := by
        simp [request]
      have hrest := ih (done ++ [(label base m names).1]) (label base m names).2
      rw [List.length_append, List.length_singleton] at hrest
      rw [List.length_cons, List.range'_succ, List.foldl_cons, hstep, hrest]
      simp [labelEach]

/-- Naming all members is asking for their names in the order of positions. -/
theorem labelAll_eq_foldl (base : α → String) (f : Family α) :
    f.labelAll base = (List.range f.size).foldl (request base) f := by
  have h := foldl_request_append base f.members [] f.names
  rw [List.range_eq_range']
  simpa [labelAll, size] using h.symm

/-- A family grows by naming its members, where their bases are safe. -/
theorem grows_labelAll (hbase : ∀ a, IsSafe (base a)) (f : Family α) :
    f.Grows (f.labelAll base) := by
  rw [labelAll_eq_foldl]
  generalize List.range f.size = positions
  induction positions generalizing f with
  | nil => exact Grows.refl f
  | cons i is ih => exact (grows_request hbase f i).trans (ih (f.request base i))

/-- A member that was named has a name. -/
theorem isSome_name_label (base : α → String) (m : Member α) (names : Siblings) :
    (label base m names).1.name.isSome := by
  unfold label
  split
  · next h => simp [h]
  · rfl

/-- Every member has a name after all of them were labelled. -/
theorem isSome_name_of_mem_labelEach {base : α → String} {ms : List (Member α)} {names : Siblings}
    {m : Member α} (h : m ∈ (labelEach base ms names).1) : m.name.isSome := by
  induction ms generalizing names with
  | nil => cases h
  | cons m' ms ih =>
      rcases List.mem_cons.mp h with rfl | h
      · exact isSome_name_label base m' names
      · exact ih h

/-- Afterwards every member has a name. -/
theorem isSome_of_mem_labels_labelAll {base : α → String} {f : Family α} {l : Option String}
    (h : l ∈ (f.labelAll base).labels) : l.isSome := by
  obtain ⟨m, hm, rfl⟩ := List.mem_map.mp h
  exact isSome_name_of_mem_labelEach hm

/-- A request leaves a family alone whose members are all named. -/
theorem request_eq_self (h : ∀ l ∈ f.labels, l.isSome) (i : ℕ) : f.request base i = f := by
  unfold request
  cases hm : f.members[i]? with
  | none => rfl
  | some m =>
      obtain ⟨hi, rfl⟩ := List.getElem?_eq_some_iff.mp hm
      obtain ⟨n, hn⟩ := Option.isSome_iff_exists.mp
        (h f.members[i].name (List.mem_map_of_mem (List.getElem_mem hi)))
      simp [label, hn]

/-- A change that changes no value changes nothing. -/
theorem modify_eq_self {i : ℕ} {g : α → α} (h : ∀ a, f.get? i = some a → g a = a) :
    f.modify i g = f := by
  have hid : ∀ m, f.members[i]? = some m → ({ m with value := g m.value } : Member α) = id m := by
    intro m hm
    rw [h m.value (by rw [get?, hm]; rfl)]
    rfl
  rw [modify, modify_congr hid, List.modify_id]

/-- Where all members are named, each of them has a name. -/
theorem exists_name? (h : ∀ l ∈ f.labels, l.isSome) {i : ℕ} {a : α} (ha : f.get? i = some a) :
    ∃ n, f.name? i = some n := by
  obtain ⟨m, hm, -⟩ := Option.map_eq_some_iff.mp ha
  obtain ⟨n, hn⟩ := Option.isSome_iff_exists.mp
    (h m.name (List.mem_map_of_mem (List.mem_of_getElem? hm)))
  exact ⟨n, by rw [name?, hm, Option.bind_some, hn]⟩

/-! ## Adopting another family -/

/-- Append a member that claims in this pool the name it brings. -/
def takeIn (f : Family α) (m : Member α) : Family α :=
  { members := f.members ++ [(rename m f.names).1], names := (rename m f.names).2 }

/-- Adopting members is taking them in one by one. -/
theorem adopt_eq_foldl (f other : Family α) : f.adopt other = other.members.foldl takeIn f := by
  have hfold : ∀ (ms : List (Member α)) (f : Family α), ms.foldl takeIn f =
      { members := f.members ++ (renameEach ms f.names).1
        names := (renameEach ms f.names).2 } := by
    intro ms
    induction ms with
    | nil => intro f; simp [renameEach]
    | cons m ms ih => intro f; rw [List.foldl_cons, ih]; simp [takeIn, renameEach]
  rw [hfold]
  rfl

/-- Taking a member in leaves the names in front alone. -/
theorem name?_takeIn_of_lt (f : Family α) (m : Member α) {i : ℕ} (hi : i < f.size) :
    (f.takeIn m).name? i = f.name? i := by
  simp [takeIn, name?, List.getElem?_append_left (show i < f.members.length from hi)]

/-- Where there is a name there is a member. -/
theorem lt_size_of_name? {f : Family α} {i : ℕ} {n : String} (h : f.name? i = some n) :
    i < f.size := by
  obtain ⟨m, hm, -⟩ := Option.bind_eq_some_iff.mp h
  exact (List.getElem?_eq_some_iff.mp hm).1

/-- A nameless member is simply appended. -/
theorem takeIn_of_nameless (f : Family α) {m : Member α} (h : m.name = none) :
    f.takeIn m = f.push m.value := by
  cases m
  subst h
  rfl

/-- Of the names behind a taken-in member one is new: what the pool hands out for its own. -/
theorem name?_takeIn_cases {m : Member α} {old : String} (h : m.name = some old) {i : ℕ} {n : String}
    (hi : (f.takeIn m).name? i = some n) :
    f.name? i = some n ∨ (i = f.size ∧ n = (f.names.claim old).1) := by
  simp only [takeIn, rename, h, name?, List.getElem?_append] at hi
  split at hi
  · exact Or.inl hi
  · next hlt =>
      cases hk : i - f.members.length with
      | succ k => simp [hk] at hi
      | zero =>
          refine Or.inr ⟨?_, ?_⟩
          · unfold size
            omega
          · simpa [hk] using hi.symm

/-- A member that brings a safe name or none is taken in without harm. -/
theorem grows_takeIn (f : Family α) {m : Member α} (hm : ∀ n, m.name = some n → IsSafe n) :
    f.Grows (f.takeIn m) := by
  cases hname : m.name with
  | none =>
      rw [takeIn_of_nameless f hname]
      exact grows_push f m.value
  | some old =>
      have hpool : (f.takeIn m).names = (f.names.claim old).2 := by rw [takeIn, rename, hname]
      refine ⟨fun hn => hn.of_claim (hm old hname) hpool (name?_takeIn_cases hname), fun hi => ?_⟩
      rwa [name?_takeIn_of_lt f m (lt_size_of_name? hi)]

/-- Renaming gives no name to a member that had none, and takes none away. -/
theorem isSome_name_rename (m : Member α) (names : Siblings) :
    (rename m names).1.name.isSome = m.name.isSome := by
  unfold rename
  cases hname : m.name <;> simp [hname]

/-- Which members have a name is the same after all of them are renamed. -/
theorem map_isSome_renameEach (ms : List (Member α)) (names : Siblings) :
    ((renameEach ms names).1.map fun m => m.name.isSome) = ms.map fun m => m.name.isSome := by
  induction ms generalizing names with
  | nil => rfl
  | cons m ms ih => simp [renameEach, isSome_name_rename, ih]

/-- The members of another family follow those that were here, with a name if they had one. -/
theorem isSome_name?_adopt (f other : Family α) (i : ℕ) :
    ((f.adopt other).name? (f.size + i)).isSome = (other.name? i).isSome := by
  have hi := congrArg (fun l => l[i]?) (map_isSome_renameEach other.members f.names)
  simp only [List.getElem?_map] at hi
  have hget : (f.adopt other).members[f.size + i]? =
      (renameEach other.members f.names).1[i]? := by
    simp [adopt, size, List.getElem?_append_right]
  rw [name?, name?, hget]
  cases hl : (renameEach other.members f.names).1[i]? <;> cases hr : other.members[i]? <;>
    simp_all

/-- A family grows by adopting a named one. -/
theorem grows_adopt (f : Family α) {other : Family α} (hother : other.Named) :
    f.Grows (f.adopt other) := by
  have hsafe : ∀ m ∈ other.members, ∀ n, m.name = some n → IsSafe n := by
    intro m hm n hn
    obtain ⟨i, hi⟩ := List.getElem?_of_mem hm
    exact hother.safe (i := i) (by simp [name?, hi, hn])
  rw [adopt_eq_foldl]
  generalize other.members = ms at hsafe
  induction ms generalizing f with
  | nil => exact Grows.refl f
  | cons m ms ih =>
      exact (grows_takeIn f (hsafe m (by simp))).trans
        (ih (f.takeIn m) fun m' hm' => hsafe m' (by simp [hm']))

end ScenarioResults.Name.Family

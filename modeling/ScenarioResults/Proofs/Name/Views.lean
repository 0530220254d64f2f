import ScenarioResults.Proofs.Name.Growth

/-!
# Families by their views

A family is its values, its assigned names and its pool (`ext_views`), so an operation is known by
what it does to each of the three. An update of the values touches values alone, and an update of a
settled family nothing at all. Naming the nameless members of a list and adopting named ones are the
same claims in the same order (`Siblings.claimEach`). That is why it can be all the same whether
members are named and then adopted or the other way round (`Family.adopt_labelAll`).
-/

namespace ScenarioResults.Name

namespace Siblings

/-- Claim names in order: what is handed out, and the pool afterwards. -/
def claimEach (names : Siblings) : List String → List String × Siblings
  | [] => ([], names)
  | base :: bases =>
    ((names.claim base).1 :: ((names.claim base).2.claimEach bases).1,
      ((names.claim base).2.claimEach bases).2)

/-- Different bases that are all free are handed out themselves. -/
theorem claimEach_eq_self {bases : List String} (hnodup : bases.Nodup) (names : Siblings)
    (hfree : ∀ base ∈ bases, base ∉ names.taken) : (names.claimEach bases).1 = bases := by
  induction bases generalizing names with
  | nil => rfl
  | cons base bases ih =>
      obtain ⟨hnew, hrest⟩ := List.nodup_cons.mp hnodup
      have hfirst : (names.claim base).1 = base :=
        (names.claim_eq_self_iff base).mpr (hfree base List.mem_cons_self)
      -- the pool has grown by the first base, which is none of the others
      have hfree' : ∀ other ∈ bases, other ∉ (names.claim base).2.taken := by
        intro other hother htaken
        rw [taken_claim, hfirst, List.mem_cons] at htaken
        rcases htaken with rfl | htaken
        · exact hnew hother
        · exact hfree other (List.mem_cons_of_mem _ hother) htaken
      rw [claimEach, hfirst, ih hrest _ hfree']

end Siblings

namespace Family

variable {α : Type} {base : α → String} {f f' : Family α} {g : α → Attempt α}

/-- A family is its values, its assigned names and its pool. -/
theorem ext_views (hvalues : f.values = f'.values) (hlabels : f.labels = f'.labels)
    (hnames : f.names = f'.names) : f = f' := by
  have hmembers : f.members = f'.members := by
    apply List.ext_getElem?
    intro i
    have hvalue := congrArg (·[i]?) hvalues
    have hlabel := congrArg (·[i]?) hlabels
    simp only [values, labels, List.getElem?_map] at hvalue hlabel
    cases hm : f.members[i]? with
    | none =>
        rw [hm, Option.map_none] at hvalue
        exact (Option.map_eq_none_iff.mp hvalue.symm).symm
    | some m =>
        rw [hm, Option.map_some] at hvalue hlabel
        obtain ⟨m', hm', hvalue'⟩ := Option.map_eq_some_iff.mp hvalue.symm
        rw [hm', Option.map_some, Option.some.injEq] at hlabel
        rw [hm']
        cases m
        cases m'
        simp_all
  cases f
  cases f'
  simp_all

/-! ## Updates of the values -/

/-- An update completes exactly when that of every value does, and it touches neither names nor
pool. -/
theorem attempt_eq_done_iff : f.attempt g = .done f' ↔
    List.Forall₂ (fun a b => g a = .done b) f.values f'.values ∧ f'.labels = f.labels ∧
      f'.names = f.names := by
  have hvalues := f.values_attempt g
  have hlabels := f.labels_attempt g
  have hnames := f.names_attempt g
  rw [← Attempt.each_eq_done_iff, ← hvalues]
  constructor
  · intro h
    rw [h] at hlabels hnames
    exact ⟨by rw [h]; rfl, hlabels, hnames⟩
  · rintro ⟨hdone, hlabels', hnames'⟩
    obtain ⟨f'', h, hvalues''⟩ := Attempt.map_eq_done_iff.mp hdone
    rw [h] at hlabels hnames
    rw [h, ext_views hvalues'' (hlabels.trans hlabels'.symm) (hnames.trans hnames'.symm)]

/-- An update that completes for every value completes. -/
theorem exists_attempt (h : ∀ a ∈ f.values, ∃ b, g a = .done b) :
    ∃ f', f.attempt g = .done f' := by
  obtain ⟨bs, hbs⟩ := Attempt.exists_each h
  rw [← f.values_attempt g] at hbs
  obtain ⟨f', hf', -⟩ := Attempt.map_eq_done_iff.mp hbs
  exact ⟨f', hf'⟩

/-- Each value that a completed update leaves was left by the update of a value. -/
theorem exists_of_mem_attempt (h : f.attempt g = .done f') {b : α} (hb : b ∈ f'.values) :
    ∃ a, g a = .done b := by
  obtain ⟨heach, -⟩ := attempt_eq_done_iff.mp h
  obtain ⟨i, hi, rfl⟩ := List.getElem_of_mem hb
  exact ⟨_, heach.get (heach.length_eq ▸ hi) hi⟩

/-- An update that changes no value changes nothing. -/
theorem attempt_eq_self (h : ∀ a ∈ f.values, g a = .done a) : f.attempt g = .done f :=
  attempt_eq_done_iff.mpr ⟨List.forall₂_same.mpr h, rfl, rfl⟩

/-- What a completed update makes of the values. -/
theorem values_of_attempt (h : f.attempt g = .done f') :
    f'.values = f.values.map fun a => (g a).value := by
  have heach := (attempt_eq_done_iff.mp h).1
  exact Attempt.eq_map_of_each (Attempt.each_eq_done_iff.mpr heach)

/-- A view that the update of each value keeps. -/
theorem map_values_of_attempt {β : Type} {view : α → β} (hview : ∀ a, view (g a).value = view a)
    (h : f.attempt g = .done f') : f'.values.map view = f.values.map view := by
  rw [values_of_attempt h, List.map_map]
  exact List.map_congr_left fun a _ => hview a

/-! ## Naming -/

/-- Where every member has a name there is nothing to assign. -/
theorem labelAll_eq_self (h : ∀ l ∈ f.labels, l.isSome) : f.labelAll base = f := by
  rw [labelAll_eq_foldl]
  generalize List.range f.size = positions
  induction positions with
  | nil => rfl
  | cons i is ih => rw [List.foldl_cons, request_eq_self h, ih]

/-- Naming all members once more changes nothing. -/
theorem labelAll_labelAll (f : Family α) : (f.labelAll base).labelAll base = f.labelAll base :=
  labelAll_eq_self fun _ hl => isSome_of_mem_labels_labelAll hl

/-- Members are named on from what those in front leave of the pool. -/
theorem labelEach_append (ms ms' : List (Member α)) (names : Siblings) :
    labelEach base (ms ++ ms') names =
      ((labelEach base ms names).1 ++ (labelEach base ms' (labelEach base ms names).2).1,
        (labelEach base ms' (labelEach base ms names).2).2) := by
  induction ms generalizing names with
  | nil => rfl
  | cons m ms ih => simp [labelEach, ih]

/-- Nameless members claim their bases in order. -/
theorem labelEach_of_nameless {ms : List (Member α)} (h : ∀ m ∈ ms, m.name = none)
    (names : Siblings) :
    (labelEach base ms names).1.map Member.name =
        (names.claimEach (ms.map fun m => base m.value)).1.map some ∧
      (labelEach base ms names).2 = (names.claimEach (ms.map fun m => base m.value)).2 := by
  induction ms generalizing names with
  | nil => exact ⟨rfl, rfl⟩
  | cons m ms ih =>
      have hfirst : m.name = none := h m List.mem_cons_self
      obtain ⟨hlabels, hnames⟩ :=
        ih (fun m' hm' => h m' (List.mem_cons_of_mem _ hm')) (names.claim (base m.value)).2
      simp [labelEach, label, hfirst, Siblings.claimEach, hlabels, hnames]

/-- Named members that are adopted claim their names in order. -/
theorem renameEach_of_named {ms : List (Member α)} {old : List String}
    (h : ms.map Member.name = old.map some) (names : Siblings) :
    (renameEach ms names).1.map Member.name = (names.claimEach old).1.map some ∧
      (renameEach ms names).2 = (names.claimEach old).2 := by
  induction ms generalizing old names with
  | nil =>
      obtain rfl : old = [] := by simpa using h.symm
      exact ⟨rfl, rfl⟩
  | cons m ms ih =>
      cases old with
      | nil => simp at h
      | cons n old =>
          obtain ⟨hname, hrest⟩ := List.cons_eq_cons.mp h
          obtain ⟨hlabels, hnames⟩ := ih hrest (names.claim n).2
          simp [renameEach, rename, hname, Siblings.claimEach, hlabels, hnames]

/-- Which names members claim does not depend on their values. -/
theorem renameEach_congr {ms ms' : List (Member α)} (h : ms.map Member.name = ms'.map Member.name)
    (names : Siblings) :
    (renameEach ms names).1.map Member.name = (renameEach ms' names).1.map Member.name ∧
      (renameEach ms names).2 = (renameEach ms' names).2 := by
  induction ms generalizing ms' names with
  | nil =>
      obtain rfl : ms' = [] := by simpa using h.symm
      exact ⟨rfl, rfl⟩
  | cons m ms ih =>
      cases ms' with
      | nil => simp at h
      | cons m' ms' =>
          obtain ⟨hname, hrest⟩ := List.cons_eq_cons.mp h
          -- whether a claim is made, and for what, depends on the name alone
          have hfirst : (rename m names).1.name = (rename m' names).1.name ∧
              (rename m names).2 = (rename m' names).2 := by
            unfold rename
            rw [hname]
            cases m'.name <;> simp [hname]
          obtain ⟨hlabels, hnames⟩ := ih hrest (rename m' names).2
          simp [renameEach, hfirst, hlabels, hnames]

/-- Members that have names keep them, and nothing is handed out. -/
theorem labelEach_of_named {ms : List (Member α)} (h : ∀ m ∈ ms, m.name.isSome) (names : Siblings) :
    labelEach base ms names = (ms, names) := by
  induction ms with
  | nil => rfl
  | cons m ms ih =>
      obtain ⟨n, hn⟩ := Option.isSome_iff_exists.mp (h m List.mem_cons_self)
      simp [labelEach, label, hn, ih fun m' hm' => h m' (List.mem_cons_of_mem _ hm')]

/-- Members that bring no names are adopted as they are. -/
theorem renameEach_of_nameless {ms : List (Member α)} (h : ∀ m ∈ ms, m.name = none)
    (names : Siblings) : renameEach ms names = (ms, names) := by
  induction ms with
  | nil => rfl
  | cons m ms ih =>
      have hrest := ih fun m' hm' => h m' (List.mem_cons_of_mem _ hm')
      simp [renameEach, rename, h m List.mem_cons_self, hrest]

/-! ## Adopting -/

/-- Members are named anew on from what those in front leave of the pool. -/
theorem renameEach_append (ms ms' : List (Member α)) (names : Siblings) :
    renameEach (ms ++ ms') names =
      ((renameEach ms names).1 ++ (renameEach ms' (renameEach ms names).2).1,
        (renameEach ms' (renameEach ms names).2).2) := by
  induction ms generalizing names with
  | nil => rfl
  | cons m ms ih => simp [renameEach, ih]

@[simp]
theorem adopt_empty (f : Family α) : f.adopt {} = f := by
  simp [adopt, renameEach]

/-- A nameless member may be appended before or after its family is adopted. -/
theorem adopt_push (f other : Family α) (a : α) :
    f.adopt (other.push a) = (f.adopt other).push a := by
  simp [adopt, push, renameEach_append, renameEach, rename]

/-- Renaming reads the names alone, so the value of a member may be changed before or after. -/
theorem renameEach_modify (change : α → α) (ms : List (Member α)) (names : Siblings) (i : ℕ) :
    renameEach (ms.modify i fun m => { m with value := change m.value }) names =
      ((renameEach ms names).1.modify i fun m => { m with value := change m.value },
        (renameEach ms names).2) := by
  induction ms generalizing names i with
  | nil => simp [renameEach]
  | cons m ms ih =>
      cases i with
      | zero => cases hname : m.name <;> simp [renameEach, rename, hname]
      | succ i => simp [renameEach, ih]

/-- A value may be changed before or after its family is adopted. -/
theorem adopt_modify (f other : Family α) (i : ℕ) (change : α → α) :
    f.adopt (other.modify i change) = (f.adopt other).modify (f.size + i) change := by
  simp only [adopt, modify, renameEach_modify, size, modify_append_right]

/-- Nameless members of different bases get the same names whether they are named among themselves
and then adopted, or adopted and then named. -/
theorem adopt_labelAll {other : Family α} (hf : ∀ l ∈ f.labels, l.isSome)
    (hother : ∀ l ∈ other.labels, l = none) (htaken : other.names.taken = [])
    (hnodup : (other.values.map base).Nodup) :
    f.adopt (other.labelAll base) = (f.adopt other).labelAll base := by
  have hnamed : ∀ m ∈ f.members, m.name.isSome := fun m hm => hf _ (List.mem_map_of_mem hm)
  have hnameless : ∀ m ∈ other.members, m.name = none := fun m hm =>
    hother _ (List.mem_map_of_mem hm)
  have hbases : (other.members.map fun m => base m.value) = other.values.map base := by
    rw [values, List.map_map]
    rfl
  -- among themselves they are called by their bases, so these are claimed either way
  have hclaims : ∀ names : Siblings,
      (labelEach base other.members names).1.map Member.name =
          (names.claimEach (other.values.map base)).1.map some ∧
        (labelEach base other.members names).2 = (names.claimEach (other.values.map base)).2 :=
    fun names => hbases ▸ labelEach_of_nameless hnameless names
  obtain ⟨hlabels, -⟩ := hclaims other.names
  rw [Siblings.claimEach_eq_self hnodup other.names (by simp [htaken])] at hlabels
  obtain ⟨hadopted, hpool⟩ := renameEach_of_named hlabels f.names
  obtain ⟨hlabelled, hpool'⟩ := hclaims f.names
  apply ext_views
  · rw [values_adopt, values_labelAll, values_labelAll, values_adopt]
  · simp [adopt, labelAll, labels, renameEach_of_nameless hnameless, labelEach_append,
      labelEach_of_named hnamed, hadopted, hlabelled]
  · simp [adopt, labelAll, renameEach_of_nameless hnameless, labelEach_append,
      labelEach_of_named hnamed, hpool, hpool']

/-- Members may be updated before or after their families are put together. -/
theorem attempt_adopt {other other' : Family α} (hf : f.attempt g = .done f')
    (hother : other.attempt g = .done other') :
    (f.adopt other).attempt g = .done (f'.adopt other') := by
  obtain ⟨hvalues, hlabels, hnames⟩ := attempt_eq_done_iff.mp hf
  obtain ⟨hvalues', hlabels', -⟩ := attempt_eq_done_iff.mp hother
  obtain ⟨hrenamed, hpool⟩ := renameEach_congr hlabels' f.names
  refine attempt_eq_done_iff.mpr ⟨?_, ?_, ?_⟩
  · rw [values_adopt, values_adopt]
    exact List.rel_append hvalues hvalues'
  · rw [labels] at hlabels
    simp [adopt, labels, hrenamed, hlabels, hnames]
  · simp [adopt, hpool, hnames]

end Family

end ScenarioResults.Name

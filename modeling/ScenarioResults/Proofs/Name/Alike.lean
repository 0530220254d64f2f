import ScenarioResults.Proofs.Corresponding
import ScenarioResults.Proofs.Name.Views

/-!
# Pools and families that answer alike

What a pool answers depends on which names are taken and on the number from which the search for a
suffix starts, not on the order in which names were handed out. Pools that agree in these answer
alike, now and after every claim (`Siblings.Alike.claim`). Families whose members correspond, bear
the same names and share pools that answer alike are named alike (`Family.Alike.labelAll`).
-/

namespace ScenarioResults.Name

namespace Siblings

variable {s s' : Siblings}

/-- The same names are taken, and the search for a suffix of a base starts from the same number. -/
structure Alike (s s' : Siblings) : Prop where
  taken : ∀ name, name ∈ s.taken ↔ name ∈ s'.taken
  next : ∀ base, s.nextFor base = s'.nextFor base

theorem Alike.refl (s : Siblings) : s.Alike s := ⟨fun _ => Iff.rfl, fun _ => rfl⟩

/-- Only bases that were claimed more than once have a number of their own. -/
theorem alike_iff : s.Alike s' ↔ s.taken ⊆ s'.taken ∧ s'.taken ⊆ s.taken ∧
    ∀ p ∈ s.nextSuffix ++ s'.nextSuffix, s.nextFor p.1 = s'.nextFor p.1 := by
  constructor
  · intro h
    exact ⟨fun name => (h.taken name).mp, fun name => (h.taken name).mpr, fun p _ => h.next p.1⟩
  · rintro ⟨hsub, hsub', hnext⟩
    refine ⟨fun name => ⟨@hsub name, @hsub' name⟩, fun base => ?_⟩
    -- a base that neither pool has counted starts at the same suffix in both
    by_cases hbase : ∃ p ∈ s.nextSuffix ++ s'.nextSuffix, p.1 = base
    · obtain ⟨p, hp, rfl⟩ := hbase
      exact hnext p hp
    · have hnone : ∀ ps : List (String × ℕ), ps ⊆ s.nextSuffix ++ s'.nextSuffix →
          ps.lookup base = none := by
        intro ps hps
        rw [List.lookup_eq_none_iff]
        intro p hp
        exact bne_iff_ne.mpr fun heq => hbase ⟨p, hps hp, heq.symm⟩
      rw [nextFor, nextFor, hnone _ (List.subset_append_left _ _),
        hnone _ (List.subset_append_right _ _)]

instance (s s' : Siblings) : Decidable (s.Alike s') := decidable_of_iff _ alike_iff.symm

/-- Like pools have the same names taken. -/
theorem Alike.isTaken (h : s.Alike s') (name : String) : s.isTaken name = s'.isTaken name := by
  rw [Bool.eq_iff_iff, isTaken_iff, isTaken_iff, h.taken]

/-- What is free for one is free for the other, so their searches end at the same number. -/
theorem Alike.firstFree (h : s.Alike s') (base : String) (start : ℕ) :
    s.firstFree base start = s'.firstFree base start := by
  have hfree : s.freeFrom base start = s'.freeFrom base start := by
    simp only [freeFrom, h.isTaken]
  exact (hfree ▸ s.isLeast_firstFree base start).unique (s'.isLeast_firstFree base start)

/-- Like pools stay alike when they take a name. -/
theorem Alike.take (h : s.Alike s') (name : String) : (s.take name).Alike (s'.take name) :=
  ⟨fun other => by simp only [Siblings.take, List.mem_cons, h.taken], h.next⟩

/-- Without the entries of a base every other base is found as before. -/
theorem lookup_filter_ne {base other : String} (hne : other ≠ base) (ps : List (String × ℕ)) :
    (ps.filter (·.1 != base)).lookup other = ps.lookup other := by
  induction ps with
  | nil => rfl
  | cons p ps ih =>
      obtain ⟨name, n⟩ := p
      rw [List.filter_cons, List.lookup_cons]
      by_cases hname : name = base
      · simp [hname, ih, beq_eq_false_iff_ne.mpr hne]
      · simp [hname, List.lookup_cons, ih]

/-- Setting the next number for one base leaves those for other bases alone. -/
theorem nextFor_setNext (s : Siblings) (base other : String) (k : ℕ) :
    (s.setNext base k).nextFor other = if other = base then k else s.nextFor other := by
  unfold nextFor setNext
  rw [List.lookup_cons]
  by_cases heq : other = base
  · simp [heq]
  · simp only [beq_eq_false_iff_ne.mpr heq, lookup_filter_ne heq, if_neg heq]

/-- Like pools stay alike when they set the next number for a base. -/
theorem Alike.setNext (h : s.Alike s') (base : String) (k : ℕ) :
    (s.setNext base k).Alike (s'.setNext base k) := by
  refine ⟨h.taken, fun other => ?_⟩
  rw [nextFor_setNext, nextFor_setNext, h.next]

/-- Pools that answer alike give the same name and answer alike afterwards. -/
theorem Alike.claim (h : s.Alike s') (base : String) :
    (s.claim base).1 = (s'.claim base).1 ∧ (s.claim base).2.Alike (s'.claim base).2 := by
  unfold Siblings.claim
  rw [h.isTaken base, h.next base, h.firstFree base]
  split
  · exact ⟨rfl, (h.setNext base _).take _⟩
  · exact ⟨rfl, h.take base⟩

end Siblings

namespace Family

variable {α β : Type} {R : α → β → Prop}

/-- The values correspond, the same names are assigned, and the pools answer alike. -/
structure Alike (R : α → β → Prop) (f : Family α) (f' : Family β) : Prop where
  values : List.Forall₂ R f.values f'.values
  labels : f.labels = f'.labels
  names : f.names.Alike f'.names

variable {f : Family α} {f' : Family β}

/-- Families are alike when their values correspond, the same positions have the same names, and
their pools are alike. -/
theorem alike_iff : f.Alike R f' ↔
    List.Forall₂ R f.values f'.values ∧ f.labels = f'.labels ∧ f.names.Alike f'.names :=
  ⟨fun h => ⟨h.values, h.labels, h.names⟩, fun h => ⟨h.1, h.2.1, h.2.2⟩⟩

instance [∀ a b, Decidable (R a b)] (f : Family α) (f' : Family β) : Decidable (f.Alike R f') :=
  decidable_of_iff _ alike_iff.symm

theorem Alike.size_eq (h : f.Alike R f') : f.size = f'.size := by
  rw [size_eq_length_values, size_eq_length_values, h.values.length_eq]

/-- At each position there are corresponding values or none. -/
theorem Alike.rel_get? (h : f.Alike R f') (i : ℕ) : Option.Rel R (f.get? i) (f'.get? i) := by
  rw [get?_eq, get?_eq]
  exact rel_getElem?_of_forall₂ h.values i

/-- Members of like families at the same position have the same name. -/
theorem Alike.name?_eq (h : f.Alike R f') (i : ℕ) : f.name? i = f'.name? i := by
  rw [Family.name?_eq, Family.name?_eq, h.labels]

/-- Member by member, values correspond and names are the same. -/
theorem Alike.members (h : f.Alike R f') :
    List.Forall₂ (fun m m' => R m.value m'.value ∧ m.name = m'.name) f.members f'.members := by
  have hvalues := h.values
  have hlabels := h.labels
  simp only [Family.values, List.forall₂_map_left_iff, List.forall₂_map_right_iff] at hvalues
  simp only [Family.labels] at hlabels
  generalize f.members = ms at hvalues hlabels
  generalize f'.members = ms' at hvalues hlabels
  induction hvalues with
  | nil => exact .nil
  | cons hR _ ih =>
      obtain ⟨hname, hrest⟩ := List.cons_eq_cons.mp hlabels
      exact .cons ⟨hR, hname⟩ (ih hrest)

/-- Members with the same bases and names are named alike from pools that answer alike. -/
theorem labelEach_alike {base : α → String} {base' : β → String} {ms : List (Member α)}
    {ms' : List (Member β)}
    (h : List.Forall₂ (fun m m' => base m.value = base' m'.value ∧ m.name = m'.name) ms ms')
    {names names' : Siblings} (hnames : names.Alike names') :
    (labelEach base ms names).1.map Member.name = (labelEach base' ms' names').1.map Member.name ∧
      (labelEach base ms names).2.Alike (labelEach base' ms' names').2 := by
  -- the pools that the first members leave answer alike, too, and serve the others
  induction h generalizing names names' with
  | nil => exact ⟨rfl, hnames⟩
  | @cons m m' ms ms' hfirst _ ih =>
      obtain ⟨hbase, hname⟩ := hfirst
      have hlabel : (label base m names).1.name = (label base' m' names').1.name ∧
          (label base m names).2.Alike (label base' m' names').2 := by
        unfold label
        rw [← hname, ← hbase]
        cases hm : m.name with
        | some n => exact ⟨hname, hnames⟩
        | none =>
            obtain ⟨hclaim, hpool⟩ := hnames.claim (base m.value)
            exact ⟨congrArg some hclaim, hpool⟩
      obtain ⟨hlabels, hpool⟩ := ih hlabel.2
      refine ⟨?_, hpool⟩
      rw [labelEach, labelEach, List.map_cons, List.map_cons, hlabel.1, hlabels]

/-- Families that are alike are named alike. -/
theorem Alike.labelAll (h : f.Alike R f') {base : α → String} {base' : β → String}
    (hbase : ∀ a b, R a b → base a = base' b) :
    (f.labelAll base).Alike R (f'.labelAll base') := by
  obtain ⟨hlabels, hnames⟩ := labelEach_alike
    (h.members.imp fun _ _ hm => ⟨hbase _ _ hm.1, hm.2⟩) h.names
  refine ⟨?_, hlabels, hnames⟩
  rw [values_labelAll, values_labelAll]
  exact h.values

/-- Families that are alike stay so when their values are updated alike. -/
theorem Alike.attempt {g : α → Attempt α} {g' : β → Attempt β} {S : α → β → Prop}
    (h : f.Alike R f') {f₁ : Family α} {f₁' : Family β} (hf : f.attempt g = .done f₁)
    (hf' : f'.attempt g' = .done f₁')
    (hstep : ∀ a b a' b', R a b → g a = .done a' → g' b = .done b' → S a' b') :
    f₁.Alike S f₁' := by
  obtain ⟨heach, hlabels, hnames⟩ := attempt_eq_done_iff.mp hf
  obtain ⟨heach', hlabels', hnames'⟩ := attempt_eq_done_iff.mp hf'
  refine ⟨forall₂_of_updates hstep h.values heach heach', ?_, ?_⟩
  · rw [hlabels, hlabels', h.labels]
  · rw [hnames, hnames']
    exact h.names

/-- An update of the values leaves a family that is alike. -/
theorem alike_of_attempt {g : α → Attempt α} {R : α → α → Prop} {f' : Family α}
    (h : f.attempt g = .done f') (hR : ∀ a b, g a = .done b → R a b) : f.Alike R f' := by
  obtain ⟨heach, hlabels, hnames⟩ := attempt_eq_done_iff.mp h
  exact ⟨heach.imp hR, hlabels.symm, hnames ▸ Siblings.Alike.refl _⟩

/-! ## Families without names -/

/-- No member has a name, and none was handed out. -/
structure Unnamed (f : Family α) : Prop where
  labels : ∀ l ∈ f.labels, l = none
  names : f.names = {}

theorem unnamed_empty : ({} : Family α).Unnamed := ⟨(fun _ hl => nomatch hl), rfl⟩

/-- A family that has assigned no name still has not when a member comes. -/
theorem Unnamed.push (h : f.Unnamed) (a : α) : (f.push a).Unnamed := by
  refine ⟨fun l hl => ?_, h.names⟩
  rw [labels_push, List.mem_append] at hl
  exact hl.elim (h.labels l) List.eq_of_mem_singleton

/-- Nor when a value is changed. -/
theorem Unnamed.modify (h : f.Unnamed) (i : ℕ) (g : α → α) : (f.modify i g).Unnamed :=
  ⟨fun l hl => h.labels l (f.labels_modify i g ▸ hl), h.names⟩

/-- Without names only the values count. -/
theorem Unnamed.alike (h : f.Unnamed) (h' : f'.Unnamed)
    (hvalues : List.Forall₂ R f.values f'.values) : f.Alike R f' := by
  have hsize : f.labels.length = f'.labels.length := by
    simpa [Family.labels, Family.values] using hvalues.length_eq
  refine ⟨hvalues, ?_, ?_⟩
  · rw [List.eq_replicate_of_mem h.labels, List.eq_replicate_of_mem h'.labels, hsize]
  · rw [h.names, h'.names]
    exact Siblings.Alike.refl _

end Family

end ScenarioResults.Name

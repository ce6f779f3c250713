import Lectern.Proofs.Disk.Leads

/-!
# The steps of paths that are put together

The steps of a path are those of its names, and one more if a slash stands at its end
(`steps_eq`). Below a root, a path of proper names adds a step for each of them
(`steps_join_relative`).
-/

namespace Lectern

/-- Is the text a name that a directory can hold? -/
structure ProperName (s : Name) : Prop where
  ne_nil : s ≠ []
  no_slash : '/' ∉ s
  ne_here : s ≠ ['.']
  ne_up : s ≠ ['.', '.']

instance (s : Name) : Decidable (ProperName s) :=
  decidable_of_iff (s ≠ [] ∧ '/' ∉ s ∧ s ≠ ['.'] ∧ s ≠ ['.', '.'])
    ⟨fun ⟨h₁, h₂, h₃, h₄⟩ => ⟨h₁, h₂, h₃, h₄⟩, fun ⟨h₁, h₂, h₃, h₄⟩ => ⟨h₁, h₂, h₃, h₄⟩⟩

/-- The names of a place as a path from the place they start at. -/
def relative (names : Place) : Path := ⟨List.intercalate ['/'] names⟩

namespace Disk

variable {d : Disk} {links : Nat} {p q : Place} {way : List Component}

/-! ## The steps of a path -/

/-- The steps that the texts between slashes stand for. -/
def stepsOfTexts (texts : List (List Char)) : List Component :=
  (texts.filter fun s => !s.isEmpty).map fun s => if s = ['.'] then .here else Path.stepOf s

/-- The steps of a path, but for the one that a slash at its end asks for. -/
def bareSteps (path : Path) : List Component :=
  (if path.isAbsolute then [.root] else []) ++ stepsOfTexts (path.chars.splitOn '/')

/-- The step that a slash at the end of a path asks for. -/
def lastStep (path : Path) : List Component :=
  if path.chars.getLast? = some '/' then [.here] else []

theorem steps_eq (path : Path) : steps path = bareSteps path ++ lastStep path := rfl

@[simp] theorem stepsOfTexts_append (s t : List (List Char)) :
    stepsOfTexts (s ++ t) = stepsOfTexts s ++ stepsOfTexts t := by
  rw [stepsOfTexts, List.filter_append, List.map_append]
  rfl

@[simp] theorem stepsOfTexts_singleton_nil : stepsOfTexts [[]] = [] := rfl

theorem stepsOfTexts_of_proper {names : Place} (h : ∀ s ∈ names, ProperName s) :
    stepsOfTexts names = names.map .name := by
  induction names with
  | nil => rfl
  | cons s r ih =>
    have hs := h s (List.mem_cons_self ..)
    have ih := ih fun t ht => h t (List.mem_cons_of_mem s ht)
    have hone : stepsOfTexts [s] = [.name s] := by
      simp [stepsOfTexts, Path.stepOf, hs.ne_nil, hs.ne_here, hs.ne_up]
    rw [← List.singleton_append, stepsOfTexts_append, hone, ih]
    rfl

/-- A directory that a slash at the end asks for is where the steps in front lead. -/
theorem Leads.of_append_here {n : Node} (h : Leads d links p (way ++ [.here]) (.found q n)) :
    n = .dir ∧ Leads d links p way (.found q .dir) := by
  obtain ⟨q', links', -, hway, hlast⟩ := h.of_append (List.cons_ne_nil _ _)
  cases hlast with
  | here hlast =>
    cases hlast
    exact ⟨rfl, hway⟩

/-! ## Paths of names -/

theorem relative_cons_cons (s t : Name) (r : Place) :
    (relative (s :: t :: r)).chars = s ++ '/' :: (relative (t :: r)).chars := by
  rw [relative, List.intercalate_cons_cons, List.append_assoc, List.singleton_append, relative]

theorem relative_chars_ne_nil {names : Place} (h : ∀ s ∈ names, ProperName s) (hne : names ≠ []) :
    (relative names).chars ≠ [] := by
  obtain ⟨s, r, rfl⟩ := List.exists_cons_of_ne_nil hne
  have hs := (h s (List.mem_cons_self ..)).ne_nil
  cases r with
  | nil => simpa [relative] using hs
  | cons t r => simp [relative_cons_cons]

theorem splitOn_relative {names : Place} (h : ∀ s ∈ names, ProperName s) (hne : names ≠ []) :
    (relative names).chars.splitOn '/' = names :=
  List.splitOn_intercalate '/' (fun s hs => (h s hs).no_slash) hne

theorem relative_not_absolute {names : Place} (h : ∀ s ∈ names, ProperName s) :
    (relative names).isAbsolute = false := by
  cases names with
  | nil => rfl
  | cons s r =>
    have hs := h s (List.mem_cons_self ..)
    obtain ⟨c, t, rfl⟩ := List.exists_cons_of_ne_nil hs.ne_nil
    have hc : c ≠ '/' := fun e => hs.no_slash (by simp [e])
    cases r with
    | nil => simpa [relative, Path.isAbsolute] using hc
    | cons u r => simpa [Path.isAbsolute, relative_cons_cons] using hc

/-- The last character of a path of names is no slash. -/
theorem relative_getLast {names : Place} (h : ∀ s ∈ names, ProperName s) :
    (relative names).chars.getLast? ≠ some '/' := by
  induction names with
  | nil => simp [relative]
  | cons s r ih =>
    have hs := h s (List.mem_cons_self ..)
    have ih := ih fun t ht => h t (List.mem_cons_of_mem s ht)
    cases r with
    | nil =>
      intro e
      have hmem : '/' ∈ s := by
        simpa [relative] using List.mem_of_getLast? e
      exact hs.no_slash hmem
    | cons t r =>
      have hne := relative_chars_ne_nil (fun u hu => h u (List.mem_cons_of_mem s hu))
        (List.cons_ne_nil t r)
      rw [relative_cons_cons, ← List.singleton_append, ← List.append_assoc,
        List.getLast?_append_of_ne_nil _ hne]
      exact ih

/-- A path of names with one more name. -/
theorem relative_append_name {names : Place} (hne : names ≠ []) (s : Name) :
    (relative (names ++ [s])).chars = (relative names).chars ++ '/' :: s := by
  induction names with
  | nil => exact absurd rfl hne
  | cons t r ih =>
    cases r with
    | nil => simp [relative]
    | cons u r =>
      have ih := ih (List.cons_ne_nil u r)
      rw [List.cons_append, List.cons_append] at *
      rw [relative_cons_cons, ih, relative_cons_cons, List.append_assoc, List.cons_append]

theorem join_eq {path path' : Path} (h : path'.isAbsolute = false) (hne : path.chars ≠ [])
    (hlast : path.chars.getLast? ≠ some '/') :
    path.join path' = ⟨path.chars ++ '/' :: path'.chars⟩ := by
  simp [Path.join, h, hne, hlast]

theorem relative_join_name {names : Place} {s : Name} (h : ∀ t ∈ names, ProperName t)
    (hs : ProperName s) : (relative names).join ⟨s⟩ = relative (names ++ [s]) := by
  have habsolute : Path.isAbsolute ⟨s⟩ = false := by
    have hone : (relative [s]).isAbsolute = false := relative_not_absolute (by simpa using hs)
    simpa [relative] using hone
  by_cases hne : names = []
  · subst hne
    simp [Path.join, habsolute, relative]
  · rw [join_eq habsolute (relative_chars_ne_nil h hne) (relative_getLast h),
      ← relative_append_name hne]

/-- Below a root a path of names adds a step for each name. -/
theorem steps_join_relative (root : Path) {names : Place} (h : ∀ s ∈ names, ProperName s)
    (hne : names ≠ []) :
    steps (root.join (relative names)) = bareSteps root ++ names.map .name := by
  have habsolute := relative_not_absolute h
  have hsplit := splitOn_relative h hne
  have hlast : ∀ s, lastStep ⟨s ++ (relative names).chars⟩ = [] := fun s => by
    rw [lastStep, List.getLast?_append_of_ne_nil _ (relative_chars_ne_nil h hne),
      if_neg (relative_getLast h)]
  by_cases hroot : root.chars = []
  · have hjoin : root.join (relative names) = relative names := by
      simp [Path.join, habsolute, hroot]
    have hbare : bareSteps root = [] := by simp [bareSteps, Path.isAbsolute, hroot]
    rw [hjoin, steps_eq, bareSteps, habsolute, hsplit, stepsOfTexts_of_proper h, hbare]
    exact (congrArg _ (hlast [])).trans (List.append_nil _)
  · have hhead : ∀ s : List Char, Path.isAbsolute ⟨root.chars ++ s⟩ = root.isAbsolute := by
      intro s
      simp [Path.isAbsolute, List.head?_append_of_ne_nil _ hroot]
    by_cases hslash : root.chars.getLast? = some '/'
    · obtain ⟨w, hw⟩ := List.getLast?_eq_some_iff.1 hslash
      have hjoin : root.join (relative names) = ⟨root.chars ++ (relative names).chars⟩ := by
        simp [Path.join, habsolute, hslash]
      rw [hjoin, steps_eq, hlast, bareSteps, hhead, bareSteps]
      simp only [hw, List.append_assoc, List.singleton_append, List.append_nil]
      rw [List.splitOn_append_cons_self, List.splitOn_append_cons_self, hsplit]
      simp [stepsOfTexts_of_proper h]
    · have hend := hlast (root.chars ++ ['/'])
      rw [List.append_assoc, List.singleton_append] at hend
      rw [join_eq habsolute hroot hslash, steps_eq, hend, bareSteps, hhead, bareSteps]
      simp only
      rw [List.splitOn_append_cons_self, hsplit]
      simp [stepsOfTexts_of_proper h]

end Disk

end Lectern

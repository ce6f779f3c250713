import Lectern.Proofs.Disk.Leads

/-!
# How a disk grows

No operation of a program removes a node of a disk or makes a link: directories and links stay,
files stay files, and what is new is a directory or a file. A path that leads to a place then leads
there for good (`Grows.leads_found`), and one that leads to a free place leads to what is put there
(`Grows.leads_free`).
-/

namespace Lectern

/-- Are both nodes files, both directories, or both links with the same target? -/
inductive Node.Like : Node → Node → Prop
  | file (a b : ByteArray) : Like (.file a) (.file b)
  | dir : Like .dir .dir
  | link (target : Path) : Like (.link target) (.link target)

/-- Is the node a symbolic link? -/
def Node.IsLink : Node → Prop
  | link _ => True
  | _ => False

namespace Node

theorem Like.refl (n : Node) : n.Like n := by
  cases n with
  | file b => exact .file b b
  | dir => exact .dir
  | link target => exact .link target

theorem Like.trans {n m k : Node} (h : n.Like m) (h' : m.Like k) : n.Like k := by
  cases h with
  | file a b =>
    cases h' with
    | file _ c => exact .file a c
  | dir => exact h'
  | link target => exact h'

theorem Like.isDir_eq {n m : Node} (h : n.Like m) : n.isDir = m.isDir := by
  cases h <;> rfl

end Node

namespace Disk

variable {d d' d'' : Disk}

/-! ## Growing tables -/

/-- A table that has grown: its entries are kept, up to the bytes of files, and what is new is no
link. -/
inductive TableGrows : List (Place × Node) → List (Place × Node) → Prop
  | new (t : List (Place × Node)) (h : ∀ e ∈ t, ¬ e.2.IsLink) : TableGrows [] t
  | kept (p : Place) {n n' : Node} {t t' : List (Place × Node)} (hn : n.Like n')
      (ht : TableGrows t t') : TableGrows ((p, n) :: t) ((p, n') :: t')

theorem TableGrows.refl : ∀ t : List (Place × Node), TableGrows t t
  | [] => .new [] (by simp)
  | (p, n) :: t => .kept p (Node.Like.refl n) (TableGrows.refl t)

theorem TableGrows.not_isLink {t t' : List (Place × Node)} (h : TableGrows t t')
    (ht : ∀ e ∈ t, ¬ e.2.IsLink) : ∀ e ∈ t', ¬ e.2.IsLink := by
  induction h with
  | new t' ht' => exact ht'
  | @kept p n n' t t' hn _ ih =>
    intro e he
    rcases List.mem_cons.1 he with rfl | he
    · have hlink : ¬ n.IsLink := ht (p, n) (List.mem_cons_self ..)
      cases hn with
      | link target => exact absurd trivial hlink
      | _ => exact hlink
    · exact ih (fun e he => ht e (List.mem_cons_of_mem _ he)) e he

theorem TableGrows.trans {t t' t'' : List (Place × Node)} (h : TableGrows t t')
    (h' : TableGrows t' t'') : TableGrows t t'' := by
  induction h generalizing t'' with
  | new t' ht => exact .new t'' (h'.not_isLink ht)
  | kept p hn _ ih =>
    cases h' with
    | kept _ hn' ht' => exact .kept p (hn.trans hn') (ih ht')

/-- What was at a place in the table is there for good. -/
theorem TableGrows.lookup_some {t t' : List (Place × Node)} (h : TableGrows t t') {p : Place}
    {n : Node} (hn : t.lookup p = some n) : ∃ n', t'.lookup p = some n' ∧ n.Like n' := by
  induction h with
  | new t' ht => simp at hn
  | kept q hlike _ ih =>
    rw [List.lookup_cons] at hn ⊢
    cases hq : p == q with
    | true =>
      rw [hq] at hn
      obtain rfl := Option.some.inj hn
      exact ⟨_, rfl, hlike⟩
    | false =>
      rw [hq] at hn
      exact ih hn

/-- What comes to a free place in the table is no link. -/
theorem TableGrows.lookup_none {t t' : List (Place × Node)} (h : TableGrows t t') {p : Place}
    (hn : t.lookup p = none) {n' : Node} (hn' : t'.lookup p = some n') : ¬ n'.IsLink := by
  induction h with
  | new t' ht =>
    obtain ⟨l₁, l₂, rfl, -⟩ := List.lookup_eq_some_iff.1 hn'
    exact ht (p, n') (by simp)
  | kept q hlike _ ih =>
    rw [List.lookup_cons] at hn hn'
    cases hq : p == q with
    | true =>
      rw [hq] at hn
      cases hn
    | false =>
      rw [hq] at hn hn'
      exact ih hn hn'

theorem tableGrows_setIn {t : List (Place × Node)} {p : Place} {n : Node}
    (h : ∀ m, t.lookup p = some m → m.Like n) (hlink : ¬ n.IsLink) :
    TableGrows t (setIn p n t) := by
  induction t with
  | nil => exact .new _ (by simpa [setIn] using hlink)
  | cons e t ih =>
    obtain ⟨q, m⟩ := e
    rw [List.lookup_cons] at h
    rw [setIn]
    split_ifs with hq
    · obtain rfl : q = p := hq
      rw [beq_self_eq_true] at h
      exact .kept q (h m rfl) (.refl t)
    · have hpq : (p == q) = false := by simpa using Ne.symm hq
      rw [hpq] at h
      exact .kept q (.refl m) (ih h)

theorem map_fst_setIn (p : Place) (n : Node) (t : List (Place × Node)) :
    (setIn p n t).map (·.1) = if p ∈ t.map (·.1) then t.map (·.1) else t.map (·.1) ++ [p] := by
  induction t with
  | nil => simp [setIn]
  | cons e t ih =>
    rw [setIn]
    by_cases he : e.1 = p
    · simp [he]
    · have hpe : p ≠ e.1 := Ne.symm he
      rw [if_neg he, List.map_cons, ih, List.map_cons]
      by_cases hp : p ∈ t.map (·.1)
      · rw [if_pos hp, if_pos (List.mem_cons_of_mem _ hp)]
      · rw [if_neg hp, if_neg (by simpa [hpe] using hp), List.cons_append]

/-! ## Growing disks -/

/-- A disk that has grown; places that were listed once are still listed once. -/
structure Grows (d d' : Disk) : Prop where
  home : d'.home = d.home
  table : TableGrows d.table d'.table
  nodup : (d.table.map (·.1)).Nodup → (d'.table.map (·.1)).Nodup

theorem Grows.refl (d : Disk) : Grows d d := ⟨rfl, .refl d.table, id⟩

theorem Grows.trans (h : Grows d d') (h' : Grows d' d'') : Grows d d'' :=
  ⟨h'.home.trans h.home, h.table.trans h'.table, h'.nodup ∘ h.nodup⟩

/-- What was at a place is there for good. -/
theorem Grows.node?_some (h : Grows d d') {p : Place} {n : Node} (hn : d.node? p = some n) :
    ∃ n', d'.node? p = some n' ∧ n.Like n' := by
  by_cases hp : p = []
  · subst hp
    rw [node?_root] at hn
    obtain rfl := Option.some.inj hn
    exact ⟨.dir, rfl, .dir⟩
  · rw [node?, if_neg (by simpa using hp)] at hn ⊢
    exact h.table.lookup_some hn

/-- What comes to a free place is no link. -/
theorem Grows.node?_none (h : Grows d d') {p : Place} (hn : d.node? p = none) {n' : Node}
    (hn' : d'.node? p = some n') : ¬ n'.IsLink := by
  by_cases hp : p = []
  · subst hp
    cases hn
  · rw [node?, if_neg (by simpa using hp)] at hn hn'
    exact h.table.lookup_none hn hn'

/-- What is free has been free. -/
theorem Grows.node?_eq_none (h : Grows d d') {p : Place} (hn : d'.node? p = none) :
    d.node? p = none := by
  cases hd : d.node? p with
  | none => rfl
  | some n =>
    obtain ⟨n', hn', -⟩ := h.node?_some hd
    rw [hn] at hn'
    cases hn'

theorem grows_set {p : Place} (hp : p ≠ []) {n : Node} (h : ∀ m, d.node? p = some m → m.Like n)
    (hlink : ¬ n.IsLink) : Grows d (d.set p n) := by
  refine ⟨rfl, tableGrows_setIn (fun m hm => h m ?_) hlink, fun hnodup => ?_⟩
  · rwa [node?, if_neg (by simpa using hp)]
  · rw [set, map_fst_setIn]
    split_ifs with hmem
    · exact hnodup
    · refine hnodup.append (List.nodup_singleton p) fun q hq hqp => ?_
      rw [List.mem_singleton.1 hqp] at hq
      exact hmem hq

/-! ## Paths on a disk that grows -/

variable {links : Nat} {p q : Place} {way : List Component}

/-- Steps that lead to a place lead there for good. -/
theorem Grows.leads_found (h : Grows d d') {n : Node} (hl : Leads d links p way (.found q n)) :
    ∃ n', Leads d' links p way (.found q n') ∧ n.Like n' := by
  generalize htarget : Target.found q n = target at hl
  induction hl with
  | stop links p =>
    obtain ⟨rfl, rfl⟩ := Target.found.inj htarget
    exact ⟨.dir, .stop links q, .dir⟩
  | root _ ih =>
    obtain ⟨n', hl', hn'⟩ := ih htarget
    exact ⟨n', .root hl', hn'⟩
  | here _ ih =>
    obtain ⟨n', hl', hn'⟩ := ih htarget
    exact ⟨n', .here hl', hn'⟩
  | up _ ih =>
    obtain ⟨n', hl', hn'⟩ := ih htarget
    exact ⟨n', .up hl', hn'⟩
  | free _ _ _ => cases htarget
  | dir hs hn _ ih =>
    obtain ⟨n', hl', hn'⟩ := ih htarget
    obtain ⟨m, hm, hlike⟩ := h.node?_some hn
    cases hlike
    exact ⟨n', .dir hs hm hl', hn'⟩
  | file links hs hn =>
    obtain ⟨rfl, rfl⟩ := Target.found.inj htarget
    obtain ⟨m, hm, hlike⟩ := h.node?_some hn
    cases hlike with
    | file a b' => exact ⟨.file b', .file links hs hm, .file _ b'⟩
  | link hs hn _ ih =>
    obtain ⟨n', hl', hn'⟩ := ih htarget
    obtain ⟨m, hm, hlike⟩ := h.node?_some hn
    cases hlike
    exact ⟨n', .link hs hm hl', hn'⟩

/-- Steps that lead to a free place lead to what is put there. -/
theorem Grows.leads_free (h : Grows d d') (hl : Leads d links p way (.free q)) :
    Leads d' links p way (.free q) ∨
      ∃ n', Leads d' links p way (.found q n') ∧ d'.node? q = some n' := by
  generalize htarget : Target.free q = target at hl
  induction hl with
  | stop _ _ => cases htarget
  | root _ ih =>
    exact (ih htarget).imp .root fun ⟨n', hl', hn'⟩ => ⟨n', .root hl', hn'⟩
  | here _ ih =>
    exact (ih htarget).imp .here fun ⟨n', hl', hn'⟩ => ⟨n', .here hl', hn'⟩
  | up _ ih =>
    exact (ih htarget).imp .up fun ⟨n', hl', hn'⟩ => ⟨n', .up hl', hn'⟩
  | @free links p s hs hn =>
    obtain rfl := Target.free.inj htarget
    cases hd : d'.node? (p ++ [s]) with
    | none => exact Or.inl (.free links hs hd)
    | some n' =>
      have hlink := h.node?_none hn hd
      cases n' with
      | file b => exact Or.inr ⟨.file b, .file links hs hd, rfl⟩
      | dir => exact Or.inr ⟨.dir, .dir hs hd (.stop links _), rfl⟩
      | link target => exact absurd trivial hlink
  | dir hs hn _ ih =>
    obtain ⟨m, hm, hlike⟩ := h.node?_some hn
    cases hlike
    exact (ih htarget).imp (.dir hs hm) fun ⟨n', hl', hn'⟩ => ⟨n', .dir hs hm hl', hn'⟩
  | file _ _ _ => cases htarget
  | link hs hn _ ih =>
    obtain ⟨m, hm, hlike⟩ := h.node?_some hn
    cases hlike
    exact (ih htarget).imp (.link hs hm) fun ⟨n', hl', hn'⟩ => ⟨n', .link hs hm hl', hn'⟩

/-- A path that leads to a place leads there for good. -/
theorem Grows.pathLeads_found (h : Grows d d') {path : Path} {n : Node}
    (hl : PathLeads d path (.found q n)) :
    ∃ n', PathLeads d' path (.found q n') ∧ n.Like n' := by
  obtain ⟨n', hl', hn'⟩ := h.leads_found hl.2
  rw [← h.home] at hl'
  exact ⟨n', ⟨hl.1, hl'⟩, hn'⟩

theorem Grows.pathLeads_free (h : Grows d d') {path : Path} (hl : PathLeads d path (.free q)) :
    PathLeads d' path (.free q) ∨
      ∃ n', PathLeads d' path (.found q n') ∧ d'.node? q = some n' := by
  have hl' := h.leads_free hl.2
  rw [← h.home] at hl'
  exact hl'.imp (fun hl' => ⟨hl.1, hl'⟩) fun ⟨n', hl', hn'⟩ => ⟨n', ⟨hl.1, hl'⟩, hn'⟩

theorem Grows.canonical (h : Grows d d') {path : Path} (hp : d.canonical path = .ok q) :
    d'.canonical path = .ok q := by
  obtain ⟨n, hl⟩ := canonical_eq_ok_iff.1 hp
  obtain ⟨n', hl', -⟩ := h.pathLeads_found hl
  exact canonical_eq_ok_iff.2 ⟨n', hl'⟩

end Disk

end Lectern

import Lectern.Proofs.Disk.Writing
import Lectern.Proofs.Path

/-!
# Proper disks

A disk is proper if every place is listed once, and if the names of its places can be those of
nodes. What paths lead to has such names (`PathLeads.proper`), so writing and making directories
keep a disk proper (`Proper.of_grows`).
-/

namespace Lectern

namespace Disk

/-- A disk on which every place is listed once, under proper names. -/
structure Proper (d : Disk) : Prop where
  nodup : (d.table.map (·.1)).Nodup
  names : ∀ e ∈ d.table, ∀ s ∈ e.1, ProperName s
  home : ∀ s ∈ d.home, ProperName s

instance (d : Disk) : Decidable d.Proper :=
  decidable_of_iff ((d.table.map (·.1)).Nodup ∧ (∀ e ∈ d.table, ∀ s ∈ e.1, ProperName s) ∧
      ∀ s ∈ d.home, ProperName s)
    ⟨fun ⟨h₁, h₂, h₃⟩ => ⟨h₁, h₂, h₃⟩, fun ⟨h₁, h₂, h₃⟩ => ⟨h₁, h₂, h₃⟩⟩

variable {d d' : Disk} {links : Nat} {p q : Place} {n : Node} {way : List Component}

/-! ## Places in the table -/

theorem lookup_of_mem {t : List (Place × Node)} (h : (t.map (·.1)).Nodup) (hmem : (p, n) ∈ t) :
    t.lookup p = some n := by
  induction t with
  | nil => cases hmem
  | cons e t ih =>
    rw [List.map_cons, List.nodup_cons] at h
    rw [List.lookup_cons]
    rcases List.mem_cons.1 hmem with rfl | hmem
    · rw [beq_self_eq_true]
    · have hne : (p == e.1) = false := by
        rw [beq_eq_false_iff_ne]
        rintro rfl
        exact h.1 (List.mem_map.2 ⟨_, hmem, rfl⟩)
      rw [hne]
      exact ih h.2 hmem

theorem node?_of_mem_table (h : (d.table.map (·.1)).Nodup) (hp : p ≠ []) (hmem : (p, n) ∈ d.table) :
    d.node? p = some n := by
  rw [node?, if_neg (by simpa using hp)]
  exact lookup_of_mem h hmem

theorem mem_table_of_node? (hp : p ≠ []) (hn : d.node? p = some n) : (p, n) ∈ d.table := by
  rw [node?, if_neg (by simpa using hp)] at hn
  obtain ⟨l₁, l₂, hl, -⟩ := List.lookup_eq_some_iff.1 hn
  rw [hl]
  simp

/-! ## Places that paths lead to -/

/-- The names of some steps can be those of nodes. -/
def ProperWay (way : List Component) : Prop := ∀ s, .name s ∈ way → ProperName s

theorem properWay_steps (path : Path) : ProperWay (steps path) := by
  intro s hs
  rw [steps_eq, bareSteps, List.mem_append, List.mem_append] at hs
  rcases hs with (hs | hs) | hs
  · split_ifs at hs <;> simp at hs
  · rw [stepsOfTexts, List.mem_map] at hs
    obtain ⟨t, ht, hts⟩ := hs
    obtain ⟨htext, hne⟩ := List.mem_filter.1 ht
    split_ifs at hts with hdot
    rw [Path.stepOf] at hts
    split_ifs at hts with hup
    obtain rfl := Component.name.inj hts
    exact ⟨by simpa using hne, Path.not_mem_of_mem_splitOn _ _ htext, hdot, hup⟩
  · rw [lastStep] at hs
    split_ifs at hs <;> simp at hs

/-- The place of a target. -/
def Target.place : Target → Place
  | .found p _ => p
  | .free p => p

theorem Leads.proper {t : Target} (h : Leads d links p way t) (hp : ∀ s ∈ p, ProperName s)
    (hway : ProperWay way) : ∀ s ∈ t.place, ProperName s := by
  have hname : ∀ {p : Place} {s : Name} {rest : List Component}, (∀ t ∈ p, ProperName t) →
      ProperWay (.name s :: rest) → ∀ t ∈ p ++ [s], ProperName t := by
    intro p s rest hp hway t ht
    rcases List.mem_append.1 ht with ht | ht
    · exact hp t ht
    · rw [List.mem_singleton.1 ht]
      exact hway s (List.mem_cons_self ..)
  have hrest : ∀ {c : Component} {rest : List Component}, ProperWay (c :: rest) → ProperWay rest :=
    fun hway s hs => hway s (List.mem_cons_of_mem _ hs)
  induction h with
  | stop _ p => exact hp
  | root _ ih => exact ih (by simp) (hrest hway)
  | here _ ih => exact ih hp (hrest hway)
  | up _ ih => exact ih (fun s hs => hp s (List.mem_of_mem_dropLast hs)) (hrest hway)
  | free _ _ _ | file _ _ _ => exact hname hp hway
  | dir _ _ _ ih => exact ih (hname hp hway) (hrest hway)
  | @link _ _ _ target _ _ _ _ _ ih =>
    refine ih hp fun s hs => ?_
    rcases List.mem_append.1 hs with hs | hs
    · exact properWay_steps target s hs
    · exact hrest hway s hs

/-- A disk that grows only where paths lead to stays proper. -/
theorem Proper.of_grows (hd : d.Proper) (h : Grows d d')
    (hplace : ∀ q, d'.node? q = d.node? q ∨ ∃ path n, PathLeads d' path (.found q n)) :
    d'.Proper := by
  refine ⟨h.nodup hd.nodup, fun ⟨q, n⟩ hmem => ?_, by rw [h.home]; exact hd.home⟩
  by_cases hq : q = []
  · subst hq
    simp
  rcases hplace q with heq | ⟨path, n', hl⟩
  · rw [node?_of_mem_table (h.nodup hd.nodup) hq hmem] at heq
    exact hd.names _ (mem_table_of_node? hq heq.symm)
  · have := hl.2.proper (by rw [h.home]; exact hd.home) (properWay_steps path)
    exact this

end Disk

end Lectern

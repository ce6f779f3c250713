import Mathlib
import Lectern.Disk.Access

/-!
# Running on a disk

What a computation gives on a disk, and the disk that it leaves. A sequence of two computations is
taken apart by `runOn_bind_eq`: it stops with the first, or the second goes on with what the first
left.
-/

namespace Lectern

variable {ε ε' α β : Type} {d d' : Disk}

/-- The outcome of a computation on a disk, with the disk that it leaves. -/
def runOn (d : Disk) (x : DiskM ε α) : Except ε α × Disk := (ExceptT.run x).run d

@[simp] theorem runOn_pure (a : α) : runOn d (pure a : DiskM ε α) = (.ok a, d) := rfl

@[simp] theorem runOn_get : runOn d (get : DiskM ε Disk) = (.ok d, d) := rfl

@[simp] theorem runOn_liftM (r : Except ε α) : runOn d (liftM r : DiskM ε α) = (r, d) := rfl

@[simp] theorem runOn_mk_pure (r : Except ε α) :
    runOn d (ExceptT.mk (pure r) : DiskM ε α) = (r, d) := rfl

@[simp] theorem runOn_adapt (f : ε → ε') (x : DiskM ε α) :
    runOn d (ExceptT.adapt f x) = ((runOn d x).1.mapError f, (runOn d x).2) := rfl

theorem runOn_bind (x : DiskM ε α) (f : α → DiskM ε β) :
    runOn d (x >>= f) =
      match runOn d x with
      | (.ok a, d₁) => runOn d₁ (f a)
      | (.error e, d₁) => (.error e, d₁) := by
  cases h : runOn d x with
  | mk r d₁ =>
    unfold runOn at h ⊢
    rw [ExceptT.run_bind, StateT.run_bind, h]
    cases r <;> rfl

theorem runOn_tryCatch (x : DiskM ε α) (f : ε → DiskM ε α) :
    runOn d (tryCatch x f) =
      match runOn d x with
      | (.ok a, d₁) => (.ok a, d₁)
      | (.error e, d₁) => runOn d₁ (f e) := by
  cases h : runOn d x with
  | mk r d₁ =>
    unfold runOn at h ⊢
    simp only [tryCatch, tryCatchThe, MonadExceptOf.tryCatch, ExceptT.tryCatch]
    rw [ExceptT.run_mk, StateT.run_bind, show StateT.run x d = (r, d₁) from h]
    cases r <;> rfl

@[simp] theorem runOn_get_bind (f : Disk → DiskM ε β) :
    runOn d (get >>= f) = runOn d (f d) := by
  rw [runOn_bind, runOn_get]

/-- A sequence stops with its first part, or its second part goes on from there. -/
theorem runOn_bind_eq {x : DiskM ε α} {f : α → DiskM ε β} {r : Except ε β}
    (h : runOn d (x >>= f) = (r, d')) :
    (∃ e, runOn d x = (.error e, d') ∧ r = .error e) ∨
      ∃ a d₁, runOn d x = (.ok a, d₁) ∧ runOn d₁ (f a) = (r, d') := by
  rw [runOn_bind] at h
  cases hx : runOn d x with
  | mk s d₁ =>
    rw [hx] at h
    cases s with
    | error e =>
      obtain ⟨rfl, rfl⟩ := Prod.mk.inj h
      exact Or.inl ⟨e, rfl, rfl⟩
    | ok a => exact Or.inr ⟨a, d₁, rfl, h⟩

/-- A computation whose failure is caught succeeds, or the handler goes on from where it failed. -/
theorem runOn_tryCatch_eq {x : DiskM ε α} {f : ε → DiskM ε α} {r : Except ε α}
    (h : runOn d (tryCatch x f) = (r, d')) :
    (∃ a, runOn d x = (.ok a, d') ∧ r = .ok a) ∨
      ∃ e d₁, runOn d x = (.error e, d₁) ∧ runOn d₁ (f e) = (r, d') := by
  rw [runOn_tryCatch] at h
  cases hx : runOn d x with
  | mk s d₁ =>
    rw [hx] at h
    cases s with
    | error e => exact Or.inr ⟨e, d₁, rfl, h⟩
    | ok a =>
      obtain ⟨rfl, rfl⟩ := Prod.mk.inj h
      exact Or.inl ⟨a, rfl, rfl⟩

/-- A computation of which a failure is reported otherwise leaves the same disk. -/
theorem runOn_adapt_eq {f : ε → ε'} {x : DiskM ε α} {r : Except ε' α}
    (h : runOn d (ExceptT.adapt f x) = (r, d')) :
    ∃ s, runOn d x = (s, d') ∧ r = s.mapError f := by
  obtain ⟨hr, hd⟩ := Prod.mk.inj h
  exact ⟨(runOn d x).1, Prod.ext rfl hd, hr.symm⟩

/-- What is looked up does not change the disk. -/
theorem runOn_liftM_bind_eq {s : Except ε α} {f : α → DiskM ε β} {r : Except ε β}
    (h : runOn d (liftM s >>= f) = (r, d')) :
    (∃ e, s = .error e ∧ r = .error e ∧ d' = d) ∨
      ∃ a, s = .ok a ∧ runOn d (f a) = (r, d') := by
  rcases runOn_bind_eq h with ⟨e, hs, rfl⟩ | ⟨a, d₁, hs, hf⟩
  · obtain ⟨rfl, rfl⟩ := Prod.mk.inj hs
    exact Or.inl ⟨e, rfl, rfl, rfl⟩
  · obtain ⟨rfl, rfl⟩ := Prod.mk.inj hs
    exact Or.inr ⟨a, rfl, hf⟩

/-! ## Why a computation fails -/

/-- The computation fails for such reasons only. -/
def FailsOnly (P : ε → Prop) (x : DiskM ε α) : Prop :=
  ∀ d d' why, runOn d x = (.error why, d') → P why

variable {P : ε → Prop} {x : DiskM ε α}

theorem FailsOnly.of_runOn (h : FailsOnly P x) {why : ε} (hrun : runOn d x = (.error why, d')) :
    P why := h d d' why hrun

theorem FailsOnly.mono {Q : ε → Prop} (h : FailsOnly P x) (hPQ : ∀ why, P why → Q why) :
    FailsOnly Q x := fun d d' why hrun => hPQ why (h d d' why hrun)

theorem failsOnly_pure (a : α) : FailsOnly P (pure a : DiskM ε α) := nofun

theorem failsOnly_get : FailsOnly P (get : DiskM ε Disk) := nofun

theorem failsOnly_throw {why : ε} (h : P why) : FailsOnly P (throw why : DiskM ε α) := by
  intro d d' why' hrun
  obtain rfl := Except.error.inj (Prod.mk.inj hrun).1
  exact h

theorem FailsOnly.bind {f : α → DiskM ε β} (h : FailsOnly P x) (hf : ∀ a, FailsOnly P (f a)) :
    FailsOnly P (x >>= f) := by
  intro d d' why hrun
  rcases runOn_bind_eq hrun with ⟨why', hx, hwhy⟩ | ⟨a, d₁, -, hrest⟩
  · obtain rfl := Except.error.inj hwhy
    exact h.of_runOn hx
  · exact (hf a).of_runOn hrest

theorem failsOnly_adapt {P : ε' → Prop} {f : ε → ε'} (h : ∀ why, P (f why)) (x : DiskM ε α) :
    FailsOnly P (ExceptT.adapt f x) := by
  intro d d' why hrun
  obtain ⟨s, -, hs⟩ := runOn_adapt_eq hrun
  cases s with
  | error why' =>
    obtain rfl := Except.error.inj hs
    exact h why'
  | ok a => cases hs

theorem failsOnly_mapM {f : α → DiskM ε β} (h : ∀ a, FailsOnly P (f a)) (l : List α) :
    FailsOnly P (l.mapM f) := by
  induction l with
  | nil => exact failsOnly_pure _
  | cons a l ih =>
    rw [List.mapM_cons]
    exact (h a).bind fun b => ih.bind fun bs => failsOnly_pure _

theorem failsOnly_forM {f : α → DiskM ε PUnit} (h : ∀ a, FailsOnly P (f a)) (l : List α) :
    FailsOnly P (l.forM f) := by
  induction l with
  | nil => exact failsOnly_pure _
  | cons a l ih =>
    exact (h a).bind fun _ => ih

end Lectern

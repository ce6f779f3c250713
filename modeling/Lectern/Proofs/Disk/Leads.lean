import Mathlib
import Lectern.Disk.Access
import Lectern.Proofs.Results

/-!
# Where steps lead

`Leads` is the relation between a way and its end that `walk` computes when it follows links and
does not fail. A way that passes through a directory is the way to the directory and then the rest
(`Leads.split`), links that are left over do no harm (`Leads.mono`), and steps that mean nothing
make no difference (`Leads.of_filter_eq`).
-/

namespace Lectern

namespace Disk

variable {d : Disk} {links : Nat} {p q : Place} {way way' rest : List Component} {t : Target}

/-- Steps from a place lead to a target, and at most so many links are followed. -/
inductive Leads (d : Disk) : Nat → Place → List Component → Target → Prop
  | stop (links : Nat) (p : Place) : Leads d links p [] (.found p .dir)
  | root {links : Nat} {p : Place} {rest : List Component} {t : Target}
      (h : Leads d links [] rest t) : Leads d links p (.root :: rest) t
  | here {links : Nat} {p : Place} {rest : List Component} {t : Target}
      (h : Leads d links p rest t) : Leads d links p (.here :: rest) t
  | up {links : Nat} {p : Place} {rest : List Component} {t : Target}
      (h : Leads d links p.dropLast rest t) : Leads d links p (.up :: rest) t
  | free (links : Nat) {p : Place} {s : Name} (hs : byteLength s ≤ nameLimit)
      (hn : d.node? (p ++ [s]) = none) : Leads d links p [.name s] (.free (p ++ [s]))
  | dir {links : Nat} {p : Place} {s : Name} {rest : List Component} {t : Target}
      (hs : byteLength s ≤ nameLimit) (hn : d.node? (p ++ [s]) = some .dir)
      (h : Leads d links (p ++ [s]) rest t) : Leads d links p (.name s :: rest) t
  | file (links : Nat) {p : Place} {s : Name} {b : ByteArray} (hs : byteLength s ≤ nameLimit)
      (hn : d.node? (p ++ [s]) = some (.file b)) :
      Leads d links p [.name s] (.found (p ++ [s]) (.file b))
  | link {links : Nat} {p : Place} {s : Name} {target : Path} {rest : List Component} {t : Target}
      (hs : byteLength s ≤ nameLimit) (hn : d.node? (p ++ [s]) = some (.link target))
      (h : Leads d links p (steps target ++ rest) t) : Leads d (links + 1) p (.name s :: rest) t

theorem leads_of_walk (h : d.walk true links p way = .ok t) : Leads d links p way t := by
  fun_induction walk d true links p way with
  | case1 links p =>
    obtain rfl := Except.ok.inj h
    exact .stop links p
  | case2 links p rest ih => exact .root (ih h)
  | case3 links p rest ih => exact .here (ih h)
  | case4 links p rest ih => exact .up (ih h)
  | case5 links p s rest hs => cases h
  | case6 links p s rest q hs hn hrest =>
    obtain rfl := Except.ok.inj h
    obtain rfl := List.isEmpty_iff.1 hrest
    exact .free links (Nat.le_of_not_lt hs) hn
  | case7 links p s rest q hs hn hrest => cases h
  | case8 links p s rest q hs hn ih => exact .dir (Nat.le_of_not_lt hs) hn (ih h)
  | case9 links p s rest q hs b hn hrest =>
    obtain rfl := Except.ok.inj h
    obtain rfl := List.isEmpty_iff.1 hrest
    exact .file links (Nat.le_of_not_lt hs) hn
  | case10 links p s rest q hs b hn hrest => cases h
  | case11 links p s rest q hs target hn hrest => simp at hrest
  | case12 p s rest q hs target hn hrest => cases h
  | case13 p s rest q hs target hn hrest links ih => exact .link (Nat.le_of_not_lt hs) hn (ih h)

theorem walk_of_leads (h : Leads d links p way t) : d.walk true links p way = .ok t := by
  induction h with
  | stop links p => rw [walk]
  | root h ih => rw [walk, ih]
  | here h ih => rw [walk, ih]
  | up h ih => rw [walk, ih]
  | free links hs hn => simp [walk, Nat.not_lt.2 hs, hn]
  | dir hs hn h ih => simp [walk, Nat.not_lt.2 hs, hn, ih]
  | file links hs hn => simp [walk, Nat.not_lt.2 hs, hn]
  | link hs hn h ih => simp [walk, Nat.not_lt.2 hs, hn, ih]

/-- A walk that follows links ends where its steps lead. -/
theorem walk_eq_ok_iff : d.walk true links p way = .ok t ↔ Leads d links p way t :=
  ⟨leads_of_walk, walk_of_leads⟩

/-- Steps lead to one target. -/
theorem Leads.unique {t' : Target} (h : Leads d links p way t) (h' : Leads d links p way t') :
    t = t' :=
  Except.ok.inj ((walk_of_leads h).symm.trans (walk_of_leads h'))

/-- With more links to follow, steps lead to the same target. -/
theorem Leads.mono {links' : Nat} (h : Leads d links p way t) (hle : links ≤ links') :
    Leads d links' p way t := by
  induction h generalizing links' with
  | stop _ p => exact .stop links' p
  | root _ ih => exact .root (ih hle)
  | here _ ih => exact .here (ih hle)
  | up _ ih => exact .up (ih hle)
  | free _ hs hn => exact .free links' hs hn
  | dir hs hn _ ih => exact .dir hs hn (ih hle)
  | file _ hs hn => exact .file links' hs hn
  | link hs hn _ ih =>
    obtain ⟨k, rfl⟩ := Nat.exists_eq_add_of_le' (Nat.one_le_iff_ne_zero.2 (by omega : links' ≠ 0))
    exact .link hs hn (ih (by omega))

theorem Leads.of_dir {s : Name} (hn : d.node? (p ++ [s]) = some .dir)
    (h : Leads d links p (.name s :: rest) t) : Leads d links (p ++ [s]) rest t := by
  cases h with
  | dir _ _ h => exact h
  | free _ _ hn' | file _ _ hn' | link _ hn' _ => simp [hn] at hn'

theorem Leads.of_link {s : Name} {target : Path} (hn : d.node? (p ++ [s]) = some (.link target))
    (h : Leads d links p (.name s :: rest) t) :
    ∃ k, links = k + 1 ∧ Leads d k p (steps target ++ rest) t := by
  cases h with
  | link _ hn' h =>
    obtain rfl := Node.link.inj (Option.some.inj (hn.symm.trans hn'))
    exact ⟨_, rfl, h⟩
  | free _ _ hn' | file _ _ hn' | dir _ hn' _ => simp [hn] at hn'

/-- A name that leads to a place is that of a node. -/
theorem Leads.node?_first {s : Name} {n : Node}
    (h : Leads d links p (.name s :: rest) (.found q n)) :
    d.node? (p ++ [s]) ≠ none := by
  cases h with
  | dir _ hn _ | file _ _ hn | link _ hn _ => simp [hn]

/-- Behind a way to a directory the rest of the steps is followed from there, with at most as many
links. -/
theorem Leads.split (h : Leads d links p way (.found q .dir))
    (h' : Leads d links p (way ++ rest) t) :
    Leads d links q rest t := by
  generalize htarget : Target.found q .dir = target at h
  induction h with
  | stop _ p =>
    obtain ⟨rfl, -⟩ := Target.found.inj htarget
    exact h'
  | root _ ih =>
    cases h' with
    | root h' => exact ih h' htarget
  | here _ ih =>
    cases h' with
    | here h' => exact ih h' htarget
  | up _ ih =>
    cases h' with
    | up h' => exact ih h' htarget
  | free _ hs hn => cases htarget
  | dir hs hn _ ih => exact ih (h'.of_dir hn) htarget
  | file _ hs hn => cases htarget
  | link hs hn _ ih =>
    obtain ⟨k, hk, h'⟩ := h'.of_link hn
    obtain rfl := Nat.succ.inj hk
    exact (ih ((List.append_assoc ..).symm ▸ h') htarget).mono (Nat.le_succ _)

/-- Behind a way to a directory more steps can be followed that need no links. -/
theorem Leads.append (h : Leads d links p way (.found q .dir)) (h' : Leads d 0 q rest t) :
    Leads d links p (way ++ rest) t := by
  generalize htarget : Target.found q .dir = target at h
  induction h with
  | stop links p =>
    obtain ⟨rfl, -⟩ := Target.found.inj htarget
    exact h'.mono (Nat.zero_le links)
  | root _ ih => exact .root (ih htarget)
  | here _ ih => exact .here (ih htarget)
  | up _ ih => exact .up (ih htarget)
  | free _ _ _ | file _ _ _ => cases htarget
  | dir hs hn _ ih => exact .dir hs hn (ih htarget)
  | link hs hn _ ih => exact .link hs hn (List.append_assoc .. ▸ ih htarget)

/-- The first of some steps lead to a directory from which the rest is followed. -/
theorem Leads.of_append (h : Leads d links p (way ++ rest) t) (hrest : rest ≠ []) :
    ∃ q links', links' ≤ links ∧ Leads d links p way (.found q .dir) ∧
      Leads d links' q rest t := by
  -- without steps in front, the rest is followed from the start
  have hnone {links : Nat} {p : Place} {t : Target} (h : Leads d links p rest t) :
      ∃ q links', links' ≤ links ∧ Leads d links p [] (.found q .dir) ∧ Leads d links' q rest t :=
    ⟨p, links, le_rfl, .stop links p, h⟩
  generalize hall : way ++ rest = all at h
  induction h generalizing way with
  | stop links p => exact absurd (List.append_eq_nil_iff.1 hall).2 hrest
  | root h ih =>
    rcases List.append_eq_cons_iff.1 hall with ⟨rfl, rfl⟩ | ⟨way, rfl, rfl⟩
    · exact hnone (.root h)
    · obtain ⟨q, links', hle, hq, hrest⟩ := ih rfl
      exact ⟨q, links', hle, .root hq, hrest⟩
  | here h ih =>
    rcases List.append_eq_cons_iff.1 hall with ⟨rfl, rfl⟩ | ⟨way, rfl, rfl⟩
    · exact hnone (.here h)
    · obtain ⟨q, links', hle, hq, hrest⟩ := ih rfl
      exact ⟨q, links', hle, .here hq, hrest⟩
  | up h ih =>
    rcases List.append_eq_cons_iff.1 hall with ⟨rfl, rfl⟩ | ⟨way, rfl, rfl⟩
    · exact hnone (.up h)
    · obtain ⟨q, links', hle, hq, hrest⟩ := ih rfl
      exact ⟨q, links', hle, .up hq, hrest⟩
  | free links hs hn =>
    rcases List.append_eq_cons_iff.1 hall with ⟨rfl, rfl⟩ | ⟨way, -, hnil⟩
    · exact hnone (.free links hs hn)
    · exact absurd (List.append_eq_nil_iff.1 hnil.symm).2 hrest
  | dir hs hn h ih =>
    rcases List.append_eq_cons_iff.1 hall with ⟨rfl, rfl⟩ | ⟨way, rfl, rfl⟩
    · exact hnone (.dir hs hn h)
    · obtain ⟨q, links', hle, hq, hrest⟩ := ih rfl
      exact ⟨q, links', hle, .dir hs hn hq, hrest⟩
  | file links hs hn =>
    rcases List.append_eq_cons_iff.1 hall with ⟨rfl, rfl⟩ | ⟨way, -, hnil⟩
    · exact hnone (.file links hs hn)
    · exact absurd (List.append_eq_nil_iff.1 hnil.symm).2 hrest
  | link hs hn h ih =>
    rcases List.append_eq_cons_iff.1 hall with ⟨rfl, rfl⟩ | ⟨way, rfl, rfl⟩
    · exact hnone (.link hs hn h)
    · obtain ⟨q, links', hle, hq, hrest⟩ := ih (List.append_assoc ..)
      exact ⟨q, links', Nat.le_succ_of_le hle, .link hs hn hq, hrest⟩

/-- What steps lead to is a directory, or stands at its place. -/
theorem Leads.node?_eq {n : Node} (h : Leads d links p way (.found q n)) :
    n = .dir ∨ q ≠ [] ∧ d.node? q = some n := by
  generalize htarget : Target.found q n = target at h
  induction h with
  | stop _ p =>
    obtain ⟨-, rfl⟩ := Target.found.inj htarget
    exact Or.inl rfl
  | root _ ih | here _ ih | up _ ih | dir _ _ _ ih | link _ _ _ ih => exact ih htarget
  | free _ hs hn => cases htarget
  | file _ hs hn =>
    obtain ⟨rfl, rfl⟩ := Target.found.inj htarget
    exact Or.inr ⟨by simp, hn⟩

/-- The place of a file that steps lead to. -/
theorem Leads.node?_file {b : ByteArray} (h : Leads d links p way (.found q (.file b))) :
    q ≠ [] ∧ d.node? q = some (.file b) := h.node?_eq.resolve_left Node.noConfusion

/-- Nothing stands at a free place. -/
theorem Leads.node?_free (h : Leads d links p way (.free q)) : q ≠ [] ∧ d.node? q = none := by
  generalize htarget : Target.free q = target at h
  induction h with
  | stop _ p => cases htarget
  | root _ ih | here _ ih | up _ ih | dir _ _ _ ih | link _ _ _ ih => exact ih htarget
  | free _ hs hn =>
    obtain rfl := Target.free.inj htarget
    exact ⟨by simp, hn⟩
  | file _ hs hn => cases htarget

/-! ## Idle steps -/

theorem Leads.behind_idle {idle : List Component} (h : Leads d links p way t)
    (hidle : ∀ c ∈ idle, c = .here) : Leads d links p (idle ++ way) t := by
  induction idle with
  | nil => exact h
  | cons c idle ih =>
    obtain ⟨rfl, hrest⟩ := List.forall_mem_cons.1 hidle
    exact .here (ih hrest)

/-- Steps lead to a directory if others that are the same but for idle ones do. -/
theorem Leads.of_filter_eq (h : Leads d links p way (.found q .dir))
    (hsame : way'.filter (· ≠ .here) = way.filter (· ≠ .here)) :
    Leads d links p way' (.found q .dir) := by
  -- in front of a step that is not idle there are idle ones only
  have hfirst {c : Component} {links : Nat} {p : Place} {rest way' : List Component} {t : Target}
      (hsame : way'.filter (· ≠ .here) = (c :: rest).filter (· ≠ .here)) (hc : c ≠ .here)
      (h : ∀ rest', rest'.filter (· ≠ .here) = rest.filter (· ≠ .here) →
        Leads d links p (c :: rest') t) : Leads d links p way' t := by
    rw [List.filter_cons_of_pos (by simpa using hc), List.filter_eq_cons_iff] at hsame
    obtain ⟨idle, rest', rfl, hidle, -, hrest⟩ := hsame
    exact (h rest' hrest).behind_idle fun c hc => by simpa using hidle c hc
  generalize htarget : Target.found q .dir = target at h ⊢
  induction h generalizing way' with
  | stop links p =>
    rw [List.filter_nil, List.filter_eq_nil_iff] at hsame
    have hidle : Leads d links p (way' ++ []) (.found p .dir) :=
      (Leads.stop links p).behind_idle fun c hc => by simpa using hsame c hc
    rwa [List.append_nil] at hidle
  | root _ ih => exact hfirst hsame nofun fun rest' hrest => .root (ih hrest htarget)
  | here _ ih => exact ih hsame htarget
  | up _ ih => exact hfirst hsame nofun fun rest' hrest => .up (ih hrest htarget)
  | free | file => cases htarget
  | dir hs hn _ ih => exact hfirst hsame nofun fun rest' hrest => .dir hs hn (ih hrest htarget)
  | link hs hn _ ih =>
    refine hfirst hsame nofun fun rest' hrest => .link hs hn (ih ?_ htarget)
    rw [List.filter_append, List.filter_append, hrest]

/-! ## Paths -/

/-- A path leads to a target. -/
def PathLeads (d : Disk) (path : Path) (t : Target) : Prop :=
  checkPath path = .ok () ∧ Leads d linkLimit d.home (steps path) t

/-- What a path that can be followed starts with can be followed, if it is not empty. -/
theorem checkPath_of_prefix {path start : Path} (h : checkPath path = .ok ())
    (hpre : start.chars <+: path.chars) (hne : start.chars ≠ []) : checkPath start = .ok () := by
  obtain ⟨rest, hrest⟩ := hpre
  rw [checkPath] at h ⊢
  split_ifs at h with hnul hempty hlimit
  rw [← hrest] at hnul hlimit
  simp only [List.any_append, Bool.or_eq_true, not_or] at hnul
  rw [byteLength_append] at hlimit
  rw [if_neg hnul.1, if_neg (by simpa using hne), if_neg (by omega)]

theorem resolve_eq_ok_iff {path : Path} : d.resolve true path = .ok t ↔ PathLeads d path t := by
  rw [PathLeads, ← walk_eq_ok_iff]
  refine bind_eq_ok_iff.trans ⟨?_, ?_⟩
  · rintro ⟨⟨⟩, hpath, hwalk⟩
    exact ⟨hpath, hwalk⟩
  · rintro ⟨hpath, hwalk⟩
    exact ⟨(), hpath, hwalk⟩

theorem canonical_eq_ok_iff {path : Path} :
    d.canonical path = .ok q ↔ ∃ n, PathLeads d path (.found q n) := by
  simp only [← resolve_eq_ok_iff]
  refine bind_eq_ok_iff.trans ⟨?_, ?_⟩
  · rintro ⟨t, ht, h⟩
    cases t with
    | found p n =>
      obtain rfl := Except.ok.inj h
      exact ⟨n, ht⟩
    | free p => cases h
  · rintro ⟨n, ht⟩
    exact ⟨_, ht, rfl⟩

theorem openFile_eq_bytes_iff {path : Path} {b : ByteArray} :
    d.openFile path = .ok (.bytes b) ↔ ∃ q, PathLeads d path (.found q (.file b)) := by
  simp only [← resolve_eq_ok_iff]
  refine bind_eq_ok_iff.trans ⟨?_, ?_⟩
  · rintro ⟨t, ht, h⟩
    cases t with
    | found p n =>
      cases n with
      | file b' =>
        obtain rfl := Content.bytes.inj (Except.ok.inj h)
        exact ⟨p, ht⟩
      | dir | link _ => cases h
    | free p => cases h
  · rintro ⟨q, ht⟩
    exact ⟨_, ht, rfl⟩

/-- A path leads to one target. -/
theorem PathLeads.unique {path : Path} {t' : Target} (h : PathLeads d path t)
    (h' : PathLeads d path t') : t = t' := h.2.unique h'.2

end Disk

end Lectern

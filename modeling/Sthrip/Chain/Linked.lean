import Mathlib.Data.List.Sort

set_option autoImplicit false

/-! # Chains of linked records

A log is tamper-evident when each record names the one before it. `Linked prev link g l` says so of
the list `l`: its first record names `g`, and each later one names its predecessor. The lemmas are
about what a log does with such a list: appending a record, and cutting a front part off. A log that
is read in the order of a sort key is also read in the order in which it was written, as long as the
keys increase (`filter_insertionSort`).
-/

namespace Chain

variable {ρ H : Type} {prev link : ρ → H} {g : H} {l l₁ l₂ : List ρ} {r : ρ}

/-- Each record names the one before it, and the first one names `g`. -/
def Linked (prev link : ρ → H) : H → List ρ → Prop
  | _, [] => True
  | g, r :: l => prev r = g ∧ Linked prev link (link r) l

/-- What the next record has to name. -/
def tip (link : ρ → H) (g : H) (l : List ρ) : H := (l.getLast?.map link).getD g

@[simp] theorem tip_nil : tip link g ([] : List ρ) = g := rfl

theorem tip_concat : tip link g (l ++ [r]) = link r := by
  rw [tip, List.getLast?_concat, Option.map_some, Option.getD_some]

theorem tip_cons : tip link g (r :: l) = tip link (link r) l := by
  cases l with
  | nil => rfl
  | cons b l =>
      have h : ∀ a : ρ, (b :: l).getLast? = some a → tip link g (r :: b :: l) = link a := by
        intro a ha
        rw [tip, List.getLast?_cons_cons, ha]
        rfl
      obtain ⟨a, ha⟩ : ∃ a, (b :: l).getLast? = some a :=
        ⟨_, List.getLast?_eq_some_getLast (List.cons_ne_nil b l)⟩
      rw [h a ha, tip, ha]
      rfl

theorem linked_append :
    Linked prev link g (l₁ ++ l₂) ↔
      Linked prev link g l₁ ∧ Linked prev link (tip link g l₁) l₂ := by
  induction l₁ generalizing g with
  | nil => exact ⟨fun h => ⟨trivial, h⟩, fun h => h.2⟩
  | cons r l₁ ih =>
      rw [List.cons_append, tip_cons]
      constructor
      · rintro ⟨hr, h⟩
        exact ⟨⟨hr, (ih.mp h).1⟩, (ih.mp h).2⟩
      · rintro ⟨⟨hr, h₁⟩, h₂⟩
        exact ⟨hr, ih.mpr ⟨h₁, h₂⟩⟩

/-- A record may be appended when it names the last one. -/
theorem linked_concat :
    Linked prev link g (l ++ [r]) ↔ Linked prev link g l ∧ prev r = tip link g l := by
  rw [linked_append]
  exact ⟨fun h => ⟨h.1, h.2.1⟩, fun h => ⟨h.1, h.2, trivial⟩⟩

theorem tip_mem : tip link g l ∈ g :: l.map link := by
  rcases List.eq_nil_or_concat l with rfl | ⟨l, r, rfl⟩
  · exact List.mem_cons_self ..
  · rw [List.concat_eq_append, tip_concat]
    exact List.mem_cons_of_mem _ (List.mem_map_of_mem List.mem_concat_self)

theorem tip_append : tip link g (l₁ ++ l₂) = tip link (tip link g l₁) l₂ := by
  induction l₁ generalizing g with
  | nil => rfl
  | cons r l₁ ih => rw [List.cons_append, tip_cons, tip_cons, ih]

theorem linked_map {ρ' : Type} {f : ρ' → ρ} {l' : List ρ'} :
    Linked prev link g (l'.map f) ↔ Linked (fun r => prev (f r)) (fun r => link (f r)) g l' := by
  induction l' generalizing g with
  | nil => exact Iff.rfl
  | cons r l' ih => exact and_congr_right fun _ => ih

/-- A record names the one before it, or what the chain starts from. -/
theorem Linked.prev_mem (h : Linked prev link g l) (hr : r ∈ l) : prev r = g ∨ prev r ∈ l.map link := by
  induction l generalizing g with
  | nil => cases hr
  | cons a l ih =>
      obtain ⟨ha, hl⟩ := h
      rcases List.mem_cons.mp hr with rfl | hr
      · exact .inl ha
      · rcases ih hl hr with heq | hmem
        · exact .inr (heq ▸ List.mem_cons_self ..)
        · exact .inr (List.mem_cons_of_mem _ hmem)

/-- When no two records give out the same, no record names the last one. -/
theorem Linked.prev_ne_tip (h : Linked prev link g l) (hnodup : (g :: l.map link).Nodup) (hr : r ∈ l) :
    prev r ≠ tip link g l := by
  obtain ⟨a, b, rfl⟩ := List.append_of_mem hr
  have hprev : prev r = tip link g a := (linked_append.mp h).2.1
  have hbefore : tip link g a ∈ g :: a.map link := tip_mem
  have hafter : tip link g (a ++ r :: b) ∈ link r :: b.map link := by
    rw [tip_append, tip_cons]
    exact tip_mem
  rw [List.map_append, List.map_cons, ← List.cons_append] at hnodup
  rw [hprev]
  exact (List.nodup_append.mp hnodup).2.2 _ hbefore _ hafter

/-- When no two records give out the same, a chain of records that occur in a given chain is a front
part of it. -/
theorem Linked.prefix {ρ' : Type} {prev' link' : ρ' → H} {l' : List ρ'}
    (h : Linked prev link g l) (h' : Linked prev' link' g l')
    (hmem : ∀ r' ∈ l', ∃ r ∈ l, prev r = prev' r' ∧ link r = link' r')
    (hnodup : (g :: l.map link).Nodup) : l'.map link' <+: l.map link := by
  induction l' generalizing g l with
  | nil => exact List.nil_prefix
  | cons r' l' ih =>
      obtain ⟨hr', hl'⟩ := h'
      obtain ⟨r, hr, hprev, hlink⟩ := hmem r' (List.mem_cons_self ..)
      cases l with
      | nil => cases hr
      | cons a l =>
          obtain ⟨ha, hl⟩ := h
          obtain ⟨hg, hnodup'⟩ := List.nodup_cons.mp hnodup
          -- only the first record of the given chain names `g`
          have hfirst : link' r' = link a := by
            rcases List.mem_cons.mp hr with rfl | hr
            · exact hlink.symm
            · have hout : g ∈ (a :: l).map link := by
                rcases hl.prev_mem hr with heq | hin
                · rw [← hr', ← hprev, heq]
                  exact List.mem_cons_self ..
                · rw [← hr', ← hprev]
                  exact List.mem_cons_of_mem _ hin
              exact absurd hout hg
          rw [hfirst] at hl'
          have hrest : ∀ b' ∈ l', ∃ b ∈ l, prev b = prev' b' ∧ link b = link' b' := by
            intro b' hb'
            obtain ⟨b, hb, hbprev, hblink⟩ := hmem b' (List.mem_cons_of_mem _ hb')
            rcases List.mem_cons.mp hb with rfl | hb
            · have hout : g ∈ (b :: l).map link := by
                rw [← ha, hbprev]
                rcases hl'.prev_mem hb' with heq | hin
                · rw [heq]
                  exact List.mem_cons_self ..
                · obtain ⟨c', hc', heq⟩ := List.mem_map.mp hin
                  obtain ⟨c, hc, -, hclink⟩ := hmem c' (List.mem_cons_of_mem _ hc')
                  rw [← heq, ← hclink]
                  exact List.mem_map_of_mem hc
              exact absurd hout hg
            · exact ⟨b, hb, hbprev, hblink⟩
          rw [List.map_cons, List.map_cons, hfirst]
          exact List.cons_prefix_cons.mpr ⟨rfl, ih hl hl' hrest hnodup'⟩

section Reading

variable {le : ρ → ρ → Prop}

/-- Among records of strictly increasing keys equal keys mean equal records. -/
theorem eq_of_increasing (h : l.Pairwise fun a b => le a b ∧ ¬le b a) :
    ∀ a ∈ l, ∀ b ∈ l, le a b → le b a → a = b := by
  induction h with
  | nil => exact fun a ha => absurd ha List.not_mem_nil
  | @cons r l hr _ ih =>
      intro a ha b hb hab hba
      rcases List.mem_cons.mp ha with har | hal
      · rcases List.mem_cons.mp hb with hbr | hbl
        · rw [har, hbr]
        · exact absurd hba (har ▸ (hr b hbl).2)
      · rcases List.mem_cons.mp hb with hbr | hbl
        · exact absurd hab (hbr ▸ (hr a hal).2)
        · exact ih a hal b hbl hab hba

variable [DecidableRel le] [Std.Total le] [IsTrans ρ le]

/-- Records written in the order of their keys are read in that order, whatever other records
stand between them. -/
theorem filter_insertionSort {p : ρ → Bool} (l : List ρ)
    (h : (l.filter p).Pairwise fun a b => le a b ∧ ¬le b a) :
    (l.insertionSort le).filter p = l.filter p := by
  have hperm : ((l.insertionSort le).filter p).Perm (l.filter p) :=
    (List.perm_insertionSort le l).filter p
  have hsorted : ((l.insertionSort le).filter p).Pairwise le :=
    (List.pairwise_insertionSort le l).filter p
  refine List.Perm.eq_of_pairwise ?_ hsorted (h.imp fun h => h.1) hperm
  intro a b ha hb
  exact eq_of_increasing h a (hperm.mem_iff.mp ha) b hb

end Reading

end Chain

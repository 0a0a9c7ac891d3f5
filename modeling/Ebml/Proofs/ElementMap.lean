import Ebml.Value

/-!
# Building element maps

An element map keeps one group per element, in order of first appearance, and never an empty
group: `push` is the only way values are added, and it keeps that shape. A decoder fills a map
by pushing a fresh value for every element it meets and then replacing that last value with the
one it reads, or, for a master, with the map read from its children. Replacing the value just
pushed is the same as pushing the value read, and pushing the entries of a well-formed map in
listing order builds the map again.
-/

namespace Ebml.ElementMap

/-- The shape every element map keeps: each element has at most one group, and no group is
empty. Maps are built by `push`, which keeps it. -/
def WellFormed (m : ElementMap) : Prop :=
  (m.map Prod.fst).Nodup ∧ ∀ g ∈ m, g.2 ≠ []

/-- Pushing keeps a map well formed: it extends the element's one group, or opens a group for
an element the map does not have yet. -/
theorem WellFormed.push {m : ElementMap} (hwf : WellFormed m) (e : Element) (v : Value) :
    WellFormed (m.push e v) := by
  obtain ⟨hnodup, hne⟩ := hwf
  unfold ElementMap.push
  split
  · -- the groups keep their elements and only grow
    refine ⟨?_, ?_⟩
    · rw [List.map_map]
      refine (List.map_congr_left ?_).symm ▸ hnodup
      intro g _
      obtain ⟨a, vs⟩ := g
      by_cases ha : a = e <;> simp [ha]
    intro g hg
    obtain ⟨⟨a, vs⟩, hmem, rfl⟩ := List.mem_map.mp hg
    by_cases ha : a = e
    · simp [ha]
    · simpa [ha] using hne _ hmem
  · rename_i hany
    refine ⟨?_, ?_⟩
    · rw [List.map_append, List.nodup_append]
      refine ⟨hnodup, by simp, ?_⟩
      intro a ha b hb hab
      simp only [List.map_cons, List.map_nil, List.mem_singleton] at hb
      obtain ⟨g, hg, rfl⟩ := List.mem_map.mp ha
      exact hany (List.any_eq_true.mpr ⟨g, hg, by simp [hab, hb]⟩)
    · intro g hg
      rcases List.mem_append.mp hg with hg | hg
      · exact hne g hg
      · simp only [List.mem_singleton] at hg
        simp [hg]

/-- Storing a value under an element and then replacing that element's last value stores the
replacement. -/
@[simp] theorem setLast_push (m : ElementMap) (e : Element) (x v : Value) :
    (m.push e x).setLast e v = m.push e v := by
  unfold push setLast
  split
  · simp only [List.map_map]
    apply List.map_congr_left
    intro g _
    by_cases hg : g.1 = e
    · simp [hg]
    · simp [hg]
  · rename_i hnone
    simp only [List.map_append, List.map_cons, List.map_nil, beq_self_eq_true, if_true,
      List.dropLast_singleton, List.nil_append]
    congr 1
    have hkeep : ∀ g ∈ m, (if (g.1 == e) = true then (g.1, g.2.dropLast ++ [v]) else (g.1, g.2)) = g := by
      intro g hg
      have : (g.1 == e) = false := by
        simp only [List.any_eq_true, not_exists, not_and] at hnone
        simpa using hnone g hg
      simp [this]
    exact (List.map_congr_left hkeep).trans (List.map_id' m)

/-- The last value stored for an element is the one pushed last. -/
@[simp] theorem getLast_getAll_push (m : ElementMap) (e : Element) (v : Value) :
    ((m.push e v).getAll e).getLast? = some v := by
  unfold getAll
  by_cases hany : m.any (·.1 == e)
  · -- the first group of the element gets the value at its end
    obtain ⟨g, hg⟩ : ∃ g, m.find? (·.1 == e) = some g := by
      cases hf : m.find? (·.1 == e) with
      | none =>
        obtain ⟨g, hg, hge⟩ := List.any_eq_true.mp hany
        exact absurd hge (List.find?_eq_none.mp hf g hg)
      | some g => exact ⟨g, rfl⟩
    have hge : g.1 = e := by simpa using List.find?_some hg
    rw [push, if_pos hany, List.find?_map]
    have hkey : ((fun x : Element × List Value => x.1 == e) ∘ fun x =>
        match x with | (e', vs) => if (e' == e) = true then (e', vs ++ [v]) else (e', vs)) =
        fun x => x.1 == e := by
      funext x
      obtain ⟨a, vs⟩ := x
      by_cases ha : a = e <;> simp [ha]
    obtain ⟨a, vs⟩ := g
    simp only at hge
    subst hge
    rw [hkey, hg]
    simp
  · have hnone : m.find? (·.1 == e) = none := by
      apply List.find?_eq_none.mpr
      intro g hg hge
      exact hany (List.any_eq_true.mpr ⟨g, hg, hge⟩)
    rw [push, if_neg hany, List.find?_append, hnone]
    simp

/-- The entries of a map are its values, each with its group's element. -/
theorem mem_entries {m : ElementMap} {x : Element × Value} :
    x ∈ entries m ↔ ∃ g ∈ m, g.1 = x.1 ∧ x.2 ∈ g.2 := by
  obtain ⟨e, v⟩ := x
  simp only [entries, List.mem_flatMap, List.mem_map, Prod.mk.injEq]
  constructor
  · rintro ⟨⟨e', vs⟩, hg, v', hv', rfl, rfl⟩
    exact ⟨(e', vs), hg, rfl, hv'⟩
  · rintro ⟨⟨e', vs⟩, hg, rfl, hv'⟩
    exact ⟨(e', vs), hg, v, hv', rfl, rfl⟩

section Building

variable {acc : ElementMap} {e : Element}

/-- Pushing an element with no group opens a group at the end. -/
private theorem push_fresh (hacc : ∀ g ∈ acc, g.1 ≠ e) (v : Value) :
    acc.push e v = acc ++ [(e, [v])] := by
  have hany : acc.any (·.1 == e) = false := by
    apply List.any_eq_false.mpr
    intro g hg
    simpa using hacc g hg
  simp [push, hany]

/-- Pushing an element whose group is last appends to that group alone. -/
private theorem push_last (hacc : ∀ g ∈ acc, g.1 ≠ e) (us : List Value) (v : Value) :
    (acc ++ [(e, us)]).push e v = acc ++ [(e, us ++ [v])] := by
  have hany : (acc ++ [(e, us)]).any (·.1 == e) = true := by simp
  rw [push, if_pos hany, List.map_append]
  congr 1
  · -- the groups before the last one have other elements and stay as they are
    refine (List.map_congr_left ?_).trans (List.map_id' acc)
    intro g hg
    obtain ⟨a, vs⟩ := g
    have ha : a ≠ e := hacc (a, vs) hg
    simp [ha]
  · simp

/-- Pushing the values of a group one by one, after the group's earlier values, fills in the
group in order. -/
private theorem foldl_push_group (hacc : ∀ g ∈ acc, g.1 ≠ e) (us vs : List Value) :
    (vs.map (e, ·)).foldl (fun m x => m.push x.1 x.2) (acc ++ [(e, us)]) = acc ++ [(e, us ++ vs)] := by
  induction vs generalizing us with
  | nil => simp
  | cons v vs ih =>
    rw [List.map_cons, List.foldl_cons, push_last hacc, ih]
    simp

/-- Pushing the entries of a well-formed map onto a map that shares none of its elements adds
the map's groups after it. -/
theorem foldl_push_entries {m : ElementMap} (hwf : WellFormed m) :
    ∀ {acc : ElementMap}, (∀ g ∈ acc, ∀ h ∈ m, g.1 ≠ h.1) →
      (entries m).foldl (fun m x => m.push x.1 x.2) acc = acc ++ m := by
  induction m with
  | nil => simp [entries]
  | cons g m ih =>
    intro acc hdisj
    obtain ⟨e, vs⟩ := g
    obtain ⟨hnodup, hne⟩ := hwf
    simp only [List.map_cons, List.nodup_cons] at hnodup
    have hwf' : WellFormed m := ⟨hnodup.2, fun h hh => hne h (List.mem_cons_of_mem _ hh)⟩
    obtain ⟨v, vs, rfl⟩ : ∃ v vs', vs = v :: vs' := by
      cases vs with
      | nil => exact absurd rfl (hne _ (List.mem_cons_self ..))
      | cons v vs' => exact ⟨v, vs', rfl⟩
    have hacc : ∀ g ∈ acc, g.1 ≠ e := fun g hg => hdisj g hg _ (List.mem_cons_self ..)
    simp only [entries, List.flatMap_cons, List.foldl_append] at ih ⊢
    rw [List.map_cons, List.foldl_cons, push_fresh hacc, foldl_push_group hacc, ih hwf']
    · simp
    · intro g hg h hh
      rcases List.mem_append.mp hg with hg | hg
      · exact hdisj g hg h (List.mem_cons_of_mem _ hh)
      · simp only [List.mem_singleton] at hg
        subst hg
        intro hge
        apply hnodup.1
        rw [show e = h.1 from hge]
        exact List.mem_map_of_mem hh

end Building

end Ebml.ElementMap

import Mathlib.Data.List.Nodup
import Ebml.Trie

/-!
# Lookups in a built trie

An insertion follows the octets from the root, adds fresh nodes where the binary search places
them and marks the last one. Sorted children, indices within the arena and distinct paths to
distinct nodes keep it sound, so an insertion changes the lookup of its own octets only
(`WellFormed.insert`), a built trie looks up each string as the last entry under it
(`lookup_build`), and stepping the trie agrees with a whole lookup (`descend_eq_lookup`).
-/

namespace Ebml

/-! ## Binary search among sorted children -/

/-- Children sorted by octet, with no octet twice. -/
def ChildrenSorted (cs : List (UInt8 × Nat)) : Prop := cs.Pairwise fun a b => a.1 < b.1

theorem lookup_children_cons (y o : UInt8) (n : Nat) (cs : List (UInt8 × Nat)) :
    ((o, n) :: cs).lookup y = if y = o then some n else cs.lookup y := by
  by_cases h : y = o
  · subst h
    simp
  · have hne : (y == o) = false := beq_eq_false_iff_ne.mpr h
    simp [List.lookup_cons, hne, h]

theorem mem_of_lookup_children {cs : List (UInt8 × Nat)} {y : UInt8} {n : Nat}
    (h : cs.lookup y = some n) : (y, n) ∈ cs := by
  induction cs with
  | nil => cases h
  | cons c cs ih =>
    obtain ⟨o, m⟩ := c
    rw [lookup_children_cons] at h
    split at h
    · cases h
      subst_vars
      exact List.mem_cons_self ..
    · exact List.mem_cons_of_mem _ (ih h)

/-- No child of a list whose octets are all above `x` has octet `x`. -/
private theorem lookup_of_lt {x : UInt8} {cs : List (UInt8 × Nat)} (h : ∀ c ∈ cs, x < c.1) :
    cs.lookup x = none := by
  induction cs with
  | nil => rfl
  | cons c cs ih =>
    obtain ⟨o, n⟩ := c
    have hx : x < o := h (o, n) (List.mem_cons_self ..)
    rw [lookup_children_cons, if_neg (UInt8.ne_of_lt hx)]
    exact ih fun c hc => h c (List.mem_cons_of_mem _ hc)

/-- Binary search among sorted children finds the child of an octet exactly when there is one. -/
theorem searchOctet_lookup (x : UInt8) {cs : List (UInt8 × Nat)} (hs : ChildrenSorted cs) :
    ((searchOctet x cs).toOption.map fun pos => (cs.getD pos (0, 0)).2) = cs.lookup x := by
  induction cs with
  | nil => rfl
  | cons c cs ih =>
    obtain ⟨o, n⟩ := c
    have hrest : ∀ c ∈ cs, o < c.1 := fun c hc => List.rel_of_pairwise_cons hs hc
    rw [searchOctet, lookup_children_cons]
    by_cases hlt : x < o
    · -- every octet from here on is above `x`
      rw [if_pos hlt, if_neg (UInt8.ne_of_lt hlt),
        lookup_of_lt fun c hc => UInt8.lt_trans hlt (hrest c hc)]
      rfl
    · by_cases heq : x = o
      · rw [if_neg hlt, if_pos heq, if_pos heq]
        rfl
      · rw [if_neg hlt, if_neg heq, if_neg heq, ← ih hs.of_cons]
        cases searchOctet x cs <;> rfl

/-- Where binary search finds no child, the octet is inserted there: the children stay sorted,
and the new child is the one for that octet. -/
theorem searchOctet_insert {x : UInt8} {cs : List (UInt8 × Nat)} {pos : Nat} (hs : ChildrenSorted cs)
    (h : searchOctet x cs = .error pos) (n : Nat) :
    pos ≤ cs.length ∧ ChildrenSorted (cs.insertIdx pos (x, n)) ∧
      ∀ y, (cs.insertIdx pos (x, n)).lookup y = if y = x then some n else cs.lookup y := by
  induction cs generalizing pos with
  | nil =>
    cases h
    exact ⟨Nat.le_refl 0, List.pairwise_singleton _ _, fun y => lookup_children_cons y x n []⟩
  | cons c cs ih =>
    obtain ⟨o, m⟩ := c
    have hrest : ∀ c ∈ cs, o < c.1 := fun c hc => List.rel_of_pairwise_cons hs hc
    rw [searchOctet] at h
    by_cases hlt : x < o
    · -- the octet goes first
      rw [if_pos hlt] at h
      cases h
      refine ⟨Nat.zero_le _, ?_, fun y => ?_⟩
      · rw [List.insertIdx_zero]
        refine List.Pairwise.cons (fun c hc => ?_) hs
        rcases List.mem_cons.mp hc with rfl | hc
        · exact hlt
        · exact UInt8.lt_trans hlt (hrest c hc)
      · rw [List.insertIdx_zero, lookup_children_cons]
    · rw [if_neg hlt] at h
      by_cases heq : x = o
      · rw [if_pos heq] at h
        cases h
      · rw [if_neg heq] at h
        rcases hr : searchOctet x cs with i | i
        · rw [hr] at h
          cases h
          obtain ⟨hle, hsorted, hlook⟩ := ih hs.of_cons hr
          have hgt : o < x := UInt8.lt_of_le_of_ne (UInt8.not_lt.mp hlt) (Ne.symm heq)
          refine ⟨by simp only [List.length_cons]; omega, ?_, fun y => ?_⟩
          · rw [List.insertIdx_succ_cons]
            refine List.Pairwise.cons (fun c hc => ?_) hsorted
            have hc' := (List.perm_insertIdx (x, n) cs hle).mem_iff.mp hc
            rcases List.mem_cons.mp hc' with rfl | hc'
            · exact hgt
            · exact hrest c hc'
          · rw [List.insertIdx_succ_cons, lookup_children_cons, lookup_children_cons, hlook]
            by_cases hyo : y = o
            · subst hyo
              simp [Ne.symm heq]
            · simp [hyo]
        · rw [hr] at h
          cases h

/-- In pairs with no key twice, the first pair under a key is the only one. -/
theorem find?_key_eq_some_iff {β γ : Type} [BEq β] [LawfulBEq β] {l : List (β × γ)}
    (h : (l.map Prod.fst).Nodup) (k : β) (a : γ) :
    ((l.find? fun x => x.1 == k).map Prod.snd) = some a ↔ (k, a) ∈ l := by
  constructor
  · intro hf
    obtain ⟨x, hx, rfl⟩ := Option.map_eq_some_iff.mp hf
    have hk : x.1 = k := by simpa using List.find?_some hx
    rw [← hk]
    exact List.mem_of_find?_eq_some hx
  · intro hm
    rcases hf : l.find? (fun x => x.1 == k) with _ | x
    · -- the pair under `k` would have been found
      have := List.find?_eq_none.mp hf (k, a) hm
      simp at this
    · have hk : x.1 = k := by simpa using List.find?_some hf
      have hx : x = (k, a) := List.inj_on_of_nodup_map h (List.mem_of_find?_eq_some hf) hm hk
      rw [hf, hx]
      rfl

@[simp] theorem TrieNode.children_default {α : Type} : (default : TrieNode α).children = [] := rfl

@[simp] theorem TrieNode.element_default {α : Type} : (default : TrieNode α).element = none := rfl

namespace Trie

variable {α : Type}

/-! ## Nodes, steps and walks -/

/-- A trie whose every node has its children sorted by octet. -/
def Sorted (t : Trie α) : Prop := ∀ a, ChildrenSorted (t.node a).children

/-- In a sorted trie a step goes to the child listed for the octet. -/
theorem step_eq_lookup {t : Trie α} (hs : t.Sorted) (a : Nat) (x : UInt8) :
    t.step a x = (t.node a).children.lookup x :=
  searchOctet_lookup x (hs a)

/-- A node past the arena is empty. -/
theorem node_of_le {t : Trie α} {a : Nat} (h : t.nodes.length ≤ a) : t.node a = default := by
  simp only [node, List.getD_eq_getElem?_getD, List.getElem?_eq_none h, Option.getD_none]

theorem node_addChild {t : Trie α} {p : Nat} (hp : p < t.nodes.length) (pos : Nat) (o : UInt8)
    (a : Nat) : (t.addChild p pos o).node a =
      if a = p then { t.node p with children := (t.node p).children.insertIdx pos (o, t.nodes.length) }
      else t.node a := by
  by_cases hlt : a < t.nodes.length
  · simp only [node, addChild, List.getD_eq_getElem?_getD, List.getElem?_modify,
      List.getElem?_append_left hlt]
    by_cases ha : a = p
    · subst ha
      simp [List.getElem?_eq_getElem hlt]
    · simp [ha, Ne.symm ha]
  · -- past the old arena: the fresh node, or nothing
    have ha : a ≠ p := by omega
    rw [if_neg ha, node_of_le (Nat.le_of_not_lt hlt)]
    simp only [node, addChild, List.getD_eq_getElem?_getD, List.getElem?_modify, Ne.symm ha,
      if_false]
    rcases Nat.lt_or_ge a (t.nodes.length + 1) with h | h
    · obtain rfl : a = t.nodes.length := by omega
      simp
    · rw [List.getElem?_eq_none (by simp; omega)]
      rfl

theorem node_setElement (t : Trie α) (m : Nat) (e : α) (a : Nat) :
    (t.setElement m e).node a =
      if a = m ∧ m < t.nodes.length then { t.node m with element := some e } else t.node a := by
  simp only [node, setElement, List.getD_eq_getElem?_getD, List.getElem?_modify]
  by_cases ha : a = m
  · subst ha
    by_cases hlt : a < t.nodes.length
    · simp [hlt]
    · simp [hlt]
  · simp [ha, Ne.symm ha]

@[simp] theorem length_addChild (t : Trie α) (p pos : Nat) (o : UInt8) :
    (t.addChild p pos o).nodes.length = t.nodes.length + 1 := by
  simp [addChild]

@[simp] theorem length_setElement (t : Trie α) (m : Nat) (e : α) :
    (t.setElement m e).nodes.length = t.nodes.length := by
  simp [setElement]

/-- Marking a node leaves every step as it was. -/
@[simp] theorem step_setElement (t : Trie α) (m : Nat) (e : α) :
    (t.setElement m e).step = t.step := by
  funext a x
  simp only [step, node_setElement]
  by_cases h : a = m ∧ m < t.nodes.length
  · rw [if_pos h]
    obtain ⟨rfl, -⟩ := h
    rfl
  · rw [if_neg h]

@[simp] theorem walk_setElement (t : Trie α) (m : Nat) (e : α) :
    (t.setElement m e).walk = t.walk := by
  funext a s
  induction s generalizing a with
  | nil => rfl
  | cons x xs ih => simp only [walk, step_setElement, ih]

theorem element_setElement (t : Trie α) (m : Nat) (e : α) (a : Nat) :
    (t.setElement m e).element a = if a = m ∧ m < t.nodes.length then some e else t.element a := by
  simp only [element, node_setElement]
  split <;> rfl

theorem walk_append (t : Trie α) (a : Nat) (s s' : Bytes) :
    t.walk a (s ++ s') = (t.walk a s).bind fun c => t.walk c s' := by
  induction s generalizing a with
  | nil => rfl
  | cons x xs ih =>
    simp only [List.cons_append, walk, ih, Option.bind_assoc]

/-- Nothing continues from a node without children. -/
theorem step_of_childless {t : Trie α} {a : Nat} (h : (t.node a).children = []) (x : UInt8) :
    t.step a x = none := by
  simp only [step, h]
  rfl

/-- A walk from a node without children goes nowhere. -/
theorem walk_of_childless {t : Trie α} {a m : Nat} (h : (t.node a).children = []) {s : Bytes}
    (hw : t.walk a s = some m) : s = [] ∧ m = a := by
  cases s with
  | nil =>
    cases hw
    exact ⟨rfl, rfl⟩
  | cons x xs => simp [walk, step_of_childless h] at hw

/-! ## Well-formed tries -/

/-- What building keeps of a trie: the root exists, children are sorted by octet and point
into the arena, and distinct octet strings lead from the root to distinct nodes. -/
structure WellFormed (t : Trie α) : Prop where
  root : 0 < t.nodes.length
  sorted : t.Sorted
  bounded : ∀ a c, c ∈ (t.node a).children → c.2 < t.nodes.length
  injective : ∀ s s' m, t.walk 0 s = some m → t.walk 0 s' = some m → s = s'

/-- A step from a well-formed trie's node stays in the arena. -/
theorem WellFormed.step_lt {t : Trie α} (hw : t.WellFormed) {a c : Nat} {x : UInt8}
    (h : t.step a x = some c) : c < t.nodes.length := by
  rw [step_eq_lookup hw.sorted] at h
  exact hw.bounded a (x, c) (mem_of_lookup_children h)

/-- A walk from a node of the arena stays in it. -/
theorem WellFormed.walk_lt_of_lt {t : Trie α} (hw : t.WellFormed) {s : Bytes} :
    ∀ {a m : Nat}, a < t.nodes.length → t.walk a s = some m → m < t.nodes.length := by
  induction s with
  | nil =>
    intro a m ha hs
    cases hs
    exact ha
  | cons x xs ih =>
    intro a m _ hs
    simp only [walk] at hs
    rcases hc : t.step a x with _ | c
    · simp [hc] at hs
    · rw [hc, Option.bind_some] at hs
      exact ih (hw.step_lt hc) hs

/-- Every node a walk from the root reaches is in the arena. -/
theorem WellFormed.walk_lt {t : Trie α} (hw : t.WellFormed) {s : Bytes} {m : Nat}
    (h : t.walk 0 s = some m) : m < t.nodes.length :=
  hw.walk_lt_of_lt hw.root h

theorem step_empty (a : Nat) (x : UInt8) : ({} : Trie α).step a x = none := by
  cases a <;> rfl

/-- The empty trie: the root alone. -/
theorem wellFormed_empty : (({} : Trie α)).WellFormed := by
  refine ⟨by simp, fun a => ?_, fun a c hc => ?_, fun s s' m hs hs' => ?_⟩
  · cases a <;> exact List.Pairwise.nil
  · cases a with
    | zero => cases hc
    | succ a =>
      rw [node_of_le (by simp)] at hc
      cases hc
  · -- only the empty walk gets anywhere
    have hz : ∀ r : Bytes, ({} : Trie α).walk 0 r = some m → r = [] := by
      intro r hr
      cases r with
      | nil => rfl
      | cons x xs => simp [walk, step_empty] at hr
    rw [hz s hs, hz s' hs']

@[simp] theorem lookup_empty (s : Bytes) : ({} : Trie α).lookup s = none := by
  cases s with
  | nil => rfl
  | cons x xs => simp [lookup, walk, step_empty]

/-! ## Growing a trie -/

/-- `t'` grows `t`: the walks of `t` lead to the same nodes in `t'`, every other walk of `t'`
leads to a node added after `t`'s, and only the old nodes carry elements, the ones they had. -/
structure Grows (t t' : Trie α) : Prop where
  length_le : t.nodes.length ≤ t'.nodes.length
  walk_old : ∀ s x, t.walk 0 s = some x → t'.walk 0 s = some x
  walk_new : ∀ s x, t'.walk 0 s = some x → t.walk 0 s = some x ∨ t.nodes.length ≤ x
  element_old : ∀ x, x < t.nodes.length → t'.element x = t.element x
  element_new : ∀ x, t.nodes.length ≤ x → t'.element x = none

theorem Grows.refl (t : Trie α) : Grows t t := by
  refine ⟨Nat.le_refl _, fun _ _ h => h, fun _ _ h => .inl h, fun _ _ => rfl, fun x hx => ?_⟩
  simp [element, node_of_le hx]

theorem Grows.trans {t t' t'' : Trie α} (h₁ : Grows t t') (h₂ : Grows t' t'') : Grows t t'' := by
  refine ⟨Nat.le_trans h₁.length_le h₂.length_le, fun s x hs => h₂.walk_old s x (h₁.walk_old s x hs),
    fun s x hs => ?_, fun x hx => ?_, fun x hx => ?_⟩
  · rcases h₂.walk_new s x hs with hs' | hx
    · exact h₁.walk_new s x hs'
    · exact .inr (Nat.le_trans h₁.length_le hx)
  · rw [h₂.element_old x (Nat.lt_of_lt_of_le hx h₁.length_le), h₁.element_old x hx]
  · by_cases hx' : x < t'.nodes.length
    · rw [h₂.element_old x hx', h₁.element_new x hx]
    · exact h₂.element_new x (Nat.le_of_not_lt hx')

section AddChild

variable {t : Trie α} {p pos : Nat} {o : UInt8}

/-- Adding a child for octet `o` at the position binary search gives: a step from `p` with `o`
goes to the fresh node, every other step is as before. -/
theorem step_addChild (hs : t.Sorted) (hp : p < t.nodes.length)
    (hsearch : searchOctet o (t.node p).children = .error pos) (a : Nat) (x : UInt8) :
    (t.addChild p pos o).step a x = if a = p ∧ x = o then some t.nodes.length else t.step a x := by
  obtain ⟨-, hsorted, hlook⟩ := searchOctet_insert (hs p) hsearch t.nodes.length
  by_cases ha : a = p
  · subst ha
    have hs' : ChildrenSorted ((t.addChild a pos o).node a).children := by
      rw [node_addChild hp, if_pos rfl]
      exact hsorted
    rw [step, searchOctet_lookup x hs', node_addChild hp, if_pos rfl, hlook, step_eq_lookup hs]
    by_cases hx : x = o
    · simp [hx]
    · simp [hx]
  · simp only [step, node_addChild hp, ha, false_and, if_false]

theorem element_addChild (hp : p < t.nodes.length) (a : Nat) :
    (t.addChild p pos o).element a = t.element a := by
  simp only [element, node_addChild hp]
  split
  · subst_vars
    rfl
  · rfl

/-- A walk after adding a child: a walk of before, or a walk to `p` followed by `o`, which ends
at the fresh node. -/
theorem walk_addChild (hs : t.Sorted) (hp : p < t.nodes.length)
    (hsearch : searchOctet o (t.node p).children = .error pos) (a : Nat) (s : Bytes) (m : Nat) :
    (t.addChild p pos o).walk a s = some m ↔
      t.walk a s = some m ∨ (m = t.nodes.length ∧ ∃ s₁, s = s₁ ++ [o] ∧ t.walk a s₁ = some p) := by
  have hnone : t.step p o = none := by
    rw [step_eq_lookup hs, ← searchOctet_lookup o (hs p), hsearch]
    rfl
  induction s generalizing a with
  | nil =>
    simp only [walk, Option.some.injEq]
    constructor
    · exact .inl
    · rintro (h | ⟨-, s₁, hs₁, -⟩)
      · exact h
      · cases s₁ <;> simp at hs₁
  | cons x xs ih =>
    simp only [walk, step_addChild hs hp hsearch]
    by_cases hax : a = p ∧ x = o
    · obtain ⟨rfl, rfl⟩ := hax
      rw [if_pos ⟨rfl, rfl⟩, hnone]
      simp only [Option.bind_some, Option.bind_none, reduceCtorEq, false_or]
      constructor
      · intro h
        have hfresh : ((t.addChild a pos x).node t.nodes.length).children = [] := by
          rw [node_addChild hp, if_neg (by omega), node_of_le (Nat.le_refl _)]
          rfl
        obtain ⟨rfl, rfl⟩ := walk_of_childless hfresh h
        exact ⟨rfl, [], rfl, rfl⟩
      · rintro ⟨rfl, s₁, hs₁, hw⟩
        cases s₁ with
        | nil =>
          simp only [List.nil_append, List.cons.injEq] at hs₁
          rw [hs₁.2]
          rfl
        | cons y ys =>
          simp only [List.cons_append, List.cons.injEq] at hs₁
          obtain ⟨rfl, -⟩ := hs₁
          simp [walk, hnone] at hw
    · rw [if_neg hax]
      rcases hc : t.step a x with _ | c
      · simp only [Option.bind_none, reduceCtorEq, false_or, false_iff, not_and, not_exists]
        intro _ s₁ hs₁ hw
        cases s₁ with
        | nil =>
          simp only [List.nil_append, List.cons.injEq] at hs₁
          simp only [walk, Option.some.injEq] at hw
          exact hax ⟨hw, hs₁.1⟩
        | cons y ys =>
          simp only [List.cons_append, List.cons.injEq] at hs₁
          obtain ⟨rfl, -⟩ := hs₁
          simp [walk, hc] at hw
      · simp only [Option.bind_some]
        refine (ih c).trans ?_
        -- a split before `x` would put `p` at `a`, which the step excluded
        constructor
        · rintro (h | ⟨hm, s₁, rfl, hw⟩)
          · exact .inl h
          · exact .inr ⟨hm, x :: s₁, rfl, by simp [walk, hc, hw]⟩
        · rintro (h | ⟨hm, s₁, hs₁, hw⟩)
          · exact .inl h
          · refine .inr ⟨hm, ?_⟩
            cases s₁ with
            | nil =>
              simp only [List.nil_append, List.cons.injEq] at hs₁
              simp only [walk, Option.some.injEq] at hw
              exact absurd ⟨hw, hs₁.1⟩ hax
            | cons y ys =>
              simp only [List.cons_append, List.cons.injEq] at hs₁
              obtain ⟨rfl, rfl⟩ := hs₁
              exact ⟨ys, rfl, by simpa [walk, hc] using hw⟩

/-- Adding a child where binary search finds none keeps a trie well formed, grows it, and makes
the walk to `p` followed by `o` end at the fresh node. -/
theorem WellFormed.addChild (hw : t.WellFormed) {P : Bytes} (hP : t.walk 0 P = some p)
    (hsearch : searchOctet o (t.node p).children = .error pos) :
    (t.addChild p pos o).WellFormed ∧ Grows t (t.addChild p pos o) ∧
      (t.addChild p pos o).walk 0 (P ++ [o]) = some t.nodes.length := by
  have hp := hw.walk_lt hP
  have hwalk := walk_addChild hw.sorted hp hsearch 0
  obtain ⟨hle, hsorted, -⟩ := searchOctet_insert (hw.sorted p) hsearch t.nodes.length
  refine ⟨⟨?_, fun a => ?_, fun a c hc => ?_, fun s s' m h h' => ?_⟩, ⟨?_, ?_, ?_, ?_, ?_⟩, ?_⟩
  · simp only [length_addChild]
    omega
  · rw [node_addChild hp]
    split
    · exact hsorted
    · exact hw.sorted a
  · rw [node_addChild hp] at hc
    simp only [length_addChild]
    split at hc
    · -- the fresh child, or one of before
      rcases List.mem_cons.mp ((List.perm_insertIdx _ _ hle).mem_iff.mp hc) with rfl | hc'
      · omega
      · have := hw.bounded p c hc'
        omega
    · have := hw.bounded a c hc
      omega
  · -- old walks are told apart by `t`; new walks by the walk to `p`
    rcases (hwalk s m).mp h with h | ⟨hm, s₁, rfl, h₁⟩ <;>
      rcases (hwalk s' m).mp h' with h' | ⟨hm', s₁', rfl, h₁'⟩
    · exact hw.injective s s' m h h'
    · have := hw.walk_lt h
      omega
    · have := hw.walk_lt h'
      omega
    · rw [hw.injective s₁ s₁' p h₁ h₁']
  · simp only [length_addChild]
    omega
  · exact fun s x h => (hwalk s x).mpr (.inl h)
  · intro s x h
    rcases (hwalk s x).mp h with h | ⟨rfl, -⟩
    · exact .inl h
    · exact .inr (Nat.le_refl _)
  · exact fun x _ => element_addChild hp x
  · intro x hx
    rw [element_addChild hp]
    simp [element, node_of_le hx]
  · exact (hwalk _ _).mpr (.inr ⟨rfl, P, rfl, hP⟩)

end AddChild

/-! ## Inserting -/

/-- Following octets from a node reached by `P`, adding nodes where needed, keeps a trie well
formed, grows it, and ends where `P` followed by the octets leads. -/
theorem WellFormed.insertPath {t : Trie α} (hw : t.WellFormed) {P : Bytes} {n : Nat}
    (hP : t.walk 0 P = some n) (k : Bytes) :
    (t.insertPath n k).1.WellFormed ∧ Grows t (t.insertPath n k).1 ∧
      (t.insertPath n k).1.walk 0 (P ++ k) = some (t.insertPath n k).2 := by
  induction k generalizing t P n with
  | nil => exact ⟨hw, Grows.refl t, by rw [List.append_nil]; exact hP⟩
  | cons o os ih =>
    rcases hsearch : searchOctet o (t.node n).children with pos | pos
    · -- no child for `o`: a fresh node, and on from there
      have hpath : t.insertPath n (o :: os) = (t.addChild n pos o).insertPath t.nodes.length os := by
        rw [insertPath.eq_2]
        simp only [hsearch]
      obtain ⟨hw', hgrow, hP'⟩ := hw.addChild hP hsearch
      obtain ⟨hw'', hgrow', hend⟩ := ih hw' hP'
      rw [hpath]
      exact ⟨hw'', hgrow.trans hgrow', by rwa [List.append_assoc, List.singleton_append] at hend⟩
    · -- a child for `o`: on from it
      have hstep : t.step n o = some ((t.node n).children.getD pos (0, 0)).2 := by
        simp only [step, hsearch]
        rfl
      have hpath : t.insertPath n (o :: os) =
          t.insertPath ((t.node n).children.getD pos (0, 0)).2 os := by
        rw [insertPath.eq_2]
        simp only [hsearch]
      have hP' : t.walk 0 (P ++ [o]) = some ((t.node n).children.getD pos (0, 0)).2 := by
        rw [walk_append, hP]
        simp [walk, hstep]
      obtain ⟨hw', hgrow, hend⟩ := ih hw hP'
      rw [hpath]
      exact ⟨hw', hgrow, by rwa [List.append_assoc, List.singleton_append] at hend⟩

/-- Inserting an element under some octets keeps a trie well formed, gives the octets that
element, and leaves the lookup of every other octet string as it was. -/
theorem WellFormed.insert {t : Trie α} (hw : t.WellFormed) (k : Bytes) (e : α) :
    (t.insert k e).WellFormed ∧
      ∀ s, (t.insert k e).lookup s = if s = k then some e else t.lookup s := by
  obtain ⟨hw', hgrow, hk⟩ := hw.insertPath (P := []) rfl k
  rcases hr : t.insertPath 0 k with ⟨t', m⟩
  rw [hr] at hw' hgrow hk
  dsimp only at hw' hgrow hk
  rw [List.nil_append] at hk
  have hm := hw'.walk_lt hk
  have hins : t.insert k e = t'.setElement m e := by simp only [Trie.insert, hr]
  rw [hins]
  refine ⟨⟨?_, fun a => ?_, fun a c hc => ?_, fun s s' x h h' => ?_⟩, fun s => ?_⟩
  · simpa using hw'.root
  · simp only [node_setElement]
    split
    · exact hw'.sorted m
    · exact hw'.sorted a
  · simp only [node_setElement] at hc
    simp only [length_setElement]
    split at hc
    · exact hw'.bounded m c hc
    · exact hw'.bounded a c hc
  · simp only [walk_setElement] at h h'
    exact hw'.injective s s' x h h'
  · by_cases hs : s = k
    · subst hs
      rw [if_pos rfl, lookup, walk_setElement, hk, Option.bind_some, element_setElement,
        if_pos ⟨rfl, hm⟩]
    · rw [if_neg hs, lookup, lookup, walk_setElement]
      rcases hws : t'.walk 0 s with _ | x
      · -- no walk now, so none before
        rcases hold : t.walk 0 s with _ | y
        · rfl
        · rw [hgrow.walk_old s y hold] at hws
          cases hws
      · -- another node than `m`, with the element it had, or a fresh one
        have hxm : x ≠ m := fun hxm => hs (hw'.injective s k x hws (hxm ▸ hk))
        rw [Option.bind_some, element_setElement, if_neg fun h => hxm h.1]
        rcases hgrow.walk_new s x hws with hold | hx
        · rw [hold, Option.bind_some, hgrow.element_old x (hw.walk_lt hold)]
        · rw [hgrow.element_new x hx]
          rcases hold : t.walk 0 s with _ | y
          · rfl
          · have hy := hw.walk_lt hold
            rw [hgrow.walk_old s y hold] at hws
            cases hws
            omega

/-- Inserting entries in order keeps a trie well formed, and each octet string is then looked up
as the last entry inserted under it, or as before when none was. -/
theorem WellFormed.foldl_insert {t : Trie α} (hw : t.WellFormed) (entries : List (Bytes × α))
    (s : Bytes) :
    (entries.foldl (fun t entry => t.insert entry.1 entry.2) t).WellFormed ∧
      (entries.foldl (fun t entry => t.insert entry.1 entry.2) t).lookup s =
        ((entries.reverse.find? fun entry => entry.1 == s).map Prod.snd).or (t.lookup s) := by
  induction entries generalizing t with
  | nil => exact ⟨hw, by simp⟩
  | cons entry entries ih =>
    obtain ⟨hw', hlook⟩ := hw.insert entry.1 entry.2
    obtain ⟨hw'', hfold⟩ := ih hw'
    have hlast : ((([entry].find? fun entry => entry.1 == s)).map Prod.snd).or (t.lookup s) =
        if s = entry.1 then some entry.2 else t.lookup s := by
      by_cases hs : s = entry.1
      · subst hs
        simp
      · have hne : (entry.1 == s) = false := beq_eq_false_iff_ne.mpr (Ne.symm hs)
        simp [hne, hs]
    refine ⟨hw'', ?_⟩
    rw [List.foldl_cons, hfold, hlook, List.reverse_cons, List.find?_append, Option.map_or,
      Option.or_assoc, hlast]

/-- A built trie looks up every octet string as the last entry inserted under it. -/
theorem lookup_build (entries : List (Bytes × α)) (s : Bytes) :
    (build entries).lookup s = (entries.reverse.find? fun entry => entry.1 == s).map Prod.snd := by
  rw [build, (wellFormed_empty.foldl_insert entries s).2, lookup_empty, Option.or_none]

/-- A trie built from entries with no key twice looks up exactly the entries. -/
theorem lookup_build_eq_some_iff {entries : List (Bytes × α)} (h : (entries.map Prod.fst).Nodup)
    (s : Bytes) (a : α) : (build entries).lookup s = some a ↔ (s, a) ∈ entries := by
  have hrev : (entries.reverse.map Prod.fst).Nodup := by
    rw [List.map_reverse]
    exact List.nodup_reverse.mpr h
  rw [lookup_build, find?_key_eq_some_iff hrev, List.mem_reverse]

/-! ## Stepping while reading -/

private theorem foldl_step (t : Trie α) (tail : Bytes) (start : Option Nat) :
    tail.foldl (fun cursor o => cursor.bind fun c => t.step c o) start =
      start.bind fun c => t.walk c tail := by
  induction tail generalizing start with
  | nil => cases start <;> rfl
  | cons o os ih =>
    rw [List.foldl_cons, ih, Option.bind_assoc]
    rfl

/-- Stepping the trie octet by octet while an identifier is read resolves what a lookup of all
its octets resolves. -/
theorem descend_eq_lookup (t : Trie α) (first : UInt8) (tail : Bytes) :
    t.descend first tail = t.lookup (first :: tail) := by
  rw [descend, foldl_step, lookup, walk]

end Trie

end Ebml

import Mathlib

/-!
# Replacing one element of a list

A list of which one element has been replaced by another (`Replaces`), as a table of tasks is when
one of them takes a step.  Counts change by what the two elements count (`Replaces.countP`), and
whatever is in the new list is the new element or was in the old one (`Replaces.mem`).

Where the elements go by their numbers, what is known of each is kept if it is known of the new
element under its number and is still known of the others (`forall_set`, `forall_concat`).
-/

namespace Slots

variable {α β : Type*} {l l' : List α} {a a' x : α}

def Replaces (l : List α) (a a' : α) (l' : List α) : Prop :=
  ∃ pre post, l = pre ++ a :: post ∧ l' = pre ++ a' :: post

theorem replaces_set {i : ℕ} (h : l[i]? = some a) (a' : α) : Replaces l a a' (l.set i a') := by
  obtain ⟨hi, rfl⟩ := List.getElem?_eq_some_iff.1 h
  refine ⟨l.take i, l.drop (i + 1), ?_, List.set_eq_take_append_cons_drop .. |>.trans (if_pos hi)⟩
  rw [← List.drop_eq_getElem_cons hi, List.take_append_drop]

theorem Replaces.mem (h : Replaces l a a' l') (hx : x ∈ l') : x = a' ∨ x ∈ l := by
  obtain ⟨pre, post, rfl, rfl⟩ := h
  simp only [List.mem_append, List.mem_cons] at hx ⊢
  tauto

theorem Replaces.mem_old (h : Replaces l a a' l') : a ∈ l := by
  obtain ⟨pre, post, rfl, -⟩ := h
  simp

theorem Replaces.countP (h : Replaces l a a' l') (p : α → Bool) :
    l'.countP p + (p a).toNat = l.countP p + (p a').toNat := by
  obtain ⟨pre, post, rfl, rfl⟩ := h
  simp only [List.countP_append, List.countP_cons]
  cases p a <;> cases p a' <;> simp <;> omega

/-- The same for what the elements hold. -/
theorem Replaces.count_filterMap [DecidableEq β] (h : Replaces l a a' l') (f : α → Option β)
    (b : β) : (l'.filterMap f).count b + (f a).toList.count b
      = (l.filterMap f).count b + (f a').toList.count b := by
  obtain ⟨pre, post, rfl, rfl⟩ := h
  rcases ha : f a with _ | y <;> rcases ha' : f a' with _ | z <;>
    simp [List.filterMap_append, ha, ha', List.count_cons] <;> omega

/-- What the replaced element held alone, no other element of the new list holds. -/
theorem Replaces.mem_other [DecidableEq β] (h : Replaces l a a' l') {f : α → Option β} {b : β}
    (ha : f a = some b) (hone : (l.filterMap f).count b ≤ 1) (hx : x ∈ l') :
    x = a' ∨ x ∈ l ∧ f x ≠ some b := by
  obtain ⟨pre, post, rfl, rfl⟩ := h
  simp only [List.filterMap_append, List.filterMap_cons, ha, List.count_append,
    List.count_cons_self] at hone
  have hother : ∀ m : List α, (m.filterMap f).count b = 0 → ∀ y ∈ m, f y ≠ some b := by
    intro m hm y hy hfy
    exact List.count_eq_zero.1 hm (List.mem_filterMap.2 ⟨y, hy, hfy⟩)
  simp only [List.mem_append, List.mem_cons] at hx ⊢
  rcases hx with hx | rfl | hx
  · exact .inr ⟨.inl hx, hother pre (by omega) x hx⟩
  · exact .inl rfl
  · exact .inr ⟨.inr (.inr hx), hother post (by omega) x hx⟩

/-! ## Numbered elements -/

variable {P : ℕ → α → Prop} {i : ℕ}

theorem forall_set (hi : P i a') (hothers : ∀ (j : ℕ) x, j ≠ i → l[j]? = some x → P j x) :
    ∀ (j : ℕ) x, (l.set i a')[j]? = some x → P j x := by
  intro j x hx
  by_cases hij : i = j
  · subst hij
    obtain ⟨hlt, heq⟩ := List.getElem?_eq_some_iff.1 hx
    rw [List.getElem_set_self] at heq
    exact heq ▸ hi
  · rw [List.getElem?_set_ne hij] at hx
    exact hothers j x (Ne.symm hij) hx

theorem forall_concat (hlast : P l.length a) (hothers : ∀ (j : ℕ) x, l[j]? = some x → P j x) :
    ∀ (j : ℕ) x, (l ++ [a])[j]? = some x → P j x := by
  intro j x hx
  rcases Nat.lt_trichotomy j l.length with hj | rfl | hj
  · rw [List.getElem?_append_left hj] at hx
    exact hothers j x hx
  · rw [List.getElem?_concat_length, Option.some.injEq] at hx
    exact hx ▸ hlast
  · rw [List.getElem?_eq_none (by simp; omega)] at hx
    cases hx

end Slots

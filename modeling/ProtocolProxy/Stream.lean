import Mathlib

/-!
# Streams on their way

What a sender sends is in four places: some of it has been delivered, some is held by a relay that
has read it, some waits in a queue, some is still to come.  `Conserved` says that these, in this
order, are all of it.  Arriving, being read and being passed on move the front of one place to the
end of the place before, so they keep it; and what has been delivered is then a prefix of what was
sent, and all of it exactly if the other places are empty.
-/

namespace Stream

variable {α : Type*} {sent delivered held queue pending : List α}

/-- The stream is what has been delivered, what is held, what waits and what is still to come. -/
def Conserved (sent delivered held queue pending : List α) : Prop :=
  delivered ++ held ++ queue ++ pending = sent

theorem Conserved.start (sent : List α) : Conserved sent [] [] [] sent := rfl

theorem Conserved.arrive (h : Conserved sent delivered held queue pending) (n : ℕ) :
    Conserved sent delivered held (queue ++ pending.take n) (pending.drop n) := by
  unfold Conserved at h ⊢
  rw [← h]
  simp only [List.append_assoc, List.take_append_drop]

theorem Conserved.read (h : Conserved sent delivered held queue pending) (n : ℕ) :
    Conserved sent delivered (held ++ queue.take n) (queue.drop n) pending := by
  unfold Conserved at h ⊢
  rw [← h, ← List.append_assoc delivered, List.append_assoc (delivered ++ held),
    List.take_append_drop]

theorem Conserved.pass (h : Conserved sent delivered held queue pending) (n : ℕ) :
    Conserved sent (delivered ++ held.take n) (held.drop n) queue pending := by
  unfold Conserved at h ⊢
  rw [← h, List.append_assoc delivered, List.take_append_drop]

/-- With nothing held and nothing waiting, what arrives may be delivered at once. -/
theorem Conserved.redirect (h : Conserved sent delivered [] [] pending) (n : ℕ) :
    Conserved sent (delivered ++ pending.take n) [] [] (pending.drop n) := by
  unfold Conserved at h ⊢
  simp only [List.append_nil] at h ⊢
  rw [← h, List.append_assoc, List.take_append_drop]

theorem Conserved.isPrefix (h : Conserved sent delivered held queue pending) :
    delivered <+: sent := by
  unfold Conserved at h
  rw [← h, List.append_assoc, List.append_assoc]
  exact List.prefix_append _ _

theorem Conserved.length (h : Conserved sent delivered held queue pending) :
    delivered.length + held.length + queue.length + pending.length = sent.length := by
  rw [← congrArg List.length h]
  simp only [List.length_append]

theorem Conserved.complete_iff (h : Conserved sent delivered held queue pending) :
    delivered = sent ↔ held = [] ∧ queue = [] ∧ pending = [] := by
  have hlen := h.length
  refine ⟨fun heq => ?_, fun ⟨hh, hq, hp⟩ => ?_⟩
  · rw [← heq] at hlen
    exact ⟨List.length_eq_zero_iff.1 (by omega), List.length_eq_zero_iff.1 (by omega),
      List.length_eq_zero_iff.1 (by omega)⟩
  · subst hh hq hp
    simpa [Conserved] using h

end Stream

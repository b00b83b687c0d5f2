import ProtocolProxy.Machine

/-!
# Machines that stand for simpler ones

A machine refines another if what its states stand for moves as the other machine does: for every
step there are actions of the other one, perhaps none, that lead from what the old state stands for
to what the new one does (`Refines`).  A run is then matched by a run (`Refines.run`), so what holds
in every run of the simpler machine holds of what the states of the other stand for
(`Refines.inv`).  A part of a machine that takes a step of its own or none with every step is such a
simpler machine (`run_part`).

Conditions on the actions go along: `D` is what is assumed of the actions of the one machine, `E`
what is promised of the actions of the other.
-/

namespace Machine

variable {σ α τ β : Type*} {step : σ → α → Option σ} {astep : τ → β → Option τ} {s t : σ}

theorem run_append {as bs : List α} :
    run step s (as ++ bs) = some t ↔ ∃ u, run step s as = some u ∧ run step u bs = some t := by
  induction as generalizing s with
  | nil => simp
  | cons a as ih =>
    simp only [List.cons_append, run_cons, ih]
    constructor
    · rintro ⟨s', h, u, hu, ht⟩
      exact ⟨u, ⟨s', h, hu⟩, ht⟩
    · rintro ⟨u, ⟨s', h, hu⟩, ht⟩
      exact ⟨s', h, u, hu, ht⟩

theorem run_singleton {a : α} : run step s [a] = some t ↔ step s a = some t := by
  simp [run_cons]

/-- Where `J` holds, the steps in `D` keep it, and are matched by actions in `E` on what the states
stand for. -/
structure Refines (step : σ → α → Option σ) (astep : τ → β → Option τ) (stands : σ → τ)
    (J : σ → Prop) (D : α → Prop) (E : β → Prop) : Prop where
  keeps : ∀ s a s', J s → D a → step s a = some s' → J s'
  matched : ∀ s a s', J s → D a → step s a = some s' →
    ∃ bs, (∀ b ∈ bs, E b) ∧ run astep (stands s) bs = some (stands s')

variable {stands : σ → τ} {J : σ → Prop} {D : α → Prop} {E : β → Prop}

/-- A run is matched by a run. -/
theorem Refines.run (h : Refines step astep stands J D E) :
    ∀ {as : List α} {s t : σ}, J s → (∀ a ∈ as, D a) → run step s as = some t →
      J t ∧ ∃ bs, (∀ b ∈ bs, E b) ∧ Machine.run astep (stands s) bs = some (stands t)
  | [], s, t, hs, _, hrun => by
    cases hrun
    exact ⟨hs, [], by simp, rfl⟩
  | a :: as, s, t, hs, hD, hrun => by
    obtain ⟨ha, has⟩ := List.forall_mem_cons.1 hD
    obtain ⟨s', hstep, hrest⟩ := run_cons.1 hrun
    obtain ⟨bs, hbs, hrun₁⟩ := h.matched s a s' hs ha hstep
    obtain ⟨ht, cs, hcs, hrun₂⟩ := h.run (h.keeps s a s' hs ha hstep) has hrest
    refine ⟨ht, bs ++ cs, fun b hb => ?_, run_append.2 ⟨_, hrun₁, hrun₂⟩⟩
    rcases List.mem_append.1 hb with hb | hb
    · exact hbs b hb
    · exact hcs b hb

/-- The runs of a machine are runs of its parts. -/
theorem run_part (part : σ → τ) (hpart : ∀ s a s', step s a = some s' →
      part s' = part s ∨ ∃ b, astep (part s) b = some (part s')) {as : List α}
    (hrun : Machine.run step s as = some t) :
    ∃ bs, Machine.run astep (part s) bs = some (part t) := by
  have hrefines : Refines step astep part (fun _ => True) (fun _ => True) (fun _ => True) := by
    refine ⟨fun _ _ _ _ _ _ => trivial, fun s a s' _ _ hstep => ?_⟩
    rcases hpart s a s' hstep with hsame | ⟨b, hb⟩
    · exact ⟨[], fun _ _ => trivial, by rw [hsame, run_nil]⟩
    · exact ⟨[b], fun _ _ => trivial, run_singleton.2 hb⟩
  obtain ⟨-, bs, -, hbs⟩ := hrefines.run trivial (fun _ _ => trivial) hrun
  exact ⟨bs, hbs⟩

/-- What every step of the simpler machine keeps holds of what a run's last state stands for. -/
theorem Refines.inv (h : Refines step astep stands J D E) {P : τ → Prop}
    (hP : ∀ t b t', P t → E b → astep t b = some t' → P t') {as : List α} (hs : J s)
    (hPs : P (stands s)) (hD : ∀ a ∈ as, D a) (hrun : Machine.run step s as = some t) :
    P (stands t) := by
  obtain ⟨-, bs, hbs, habs⟩ := h.run hs hD hrun
  refine run_inv_of_each (C := fun _ b => E b) hP hPs ?_ habs
  exact eachStep_of_inv (J := fun _ => True) (D := E) (fun _ _ _ _ _ _ => trivial)
    (fun _ _ _ hb => hb) trivial hbs

end Machine

import ProtocolProxy.Machine

/-!
# Machines that stop

Where every step makes a number smaller, a run from a state is no longer than the state's number
(`length_le_of_decreases`).  A step may also make it larger if something else grows by as much
(`length_le_of_spends`).
-/

namespace Machine

variable {σ α : Type*} {step : σ → α → Option σ} {J : σ → Prop} {C : σ → α → Prop} {μ g : σ → ℕ}
  {s t : σ}

/-- A run of steps in `C` takes at least one from `μ` at every step, but for what `g` gains. -/
theorem length_le_of_spends (hJ : ∀ s a s', J s → step s a = some s' → J s')
    (hμ : ∀ s a s', J s → C s a → step s a = some s' → 1 + μ s' + g s ≤ μ s + g s') :
    ∀ {as : List α} {s t : σ}, J s → EachStep step C s as → run step s as = some t →
      as.length + μ t + g s ≤ μ s + g t
  | [], s, t, _, _, h => by
    cases h
    simp
  | a :: as, s, t, hs, hC, h => by
    obtain ⟨s', h₁, h₂⟩ := run_cons.1 h
    have hrest := length_le_of_spends hJ hμ (hJ s a s' hs h₁) (hC.2 s' h₁) h₂
    have hstep := hμ s a s' hs hC.1 h₁
    rw [List.length_cons]
    omega

/-- A run takes at least one from `μ` at every step. -/
theorem length_le_of_decreases (hJ : ∀ s a s', J s → step s a = some s' → J s')
    (hμ : ∀ s a s', J s → step s a = some s' → μ s' < μ s) {as : List α} (hs : J s)
    (h : run step s as = some t) : as.length + μ t ≤ μ s := by
  have hall : EachStep step (fun _ _ => True) s as :=
    eachStep_of_inv (J := fun _ => True) (D := fun _ => True) (fun _ _ _ _ _ _ => trivial)
      (fun _ _ _ _ => trivial) trivial (fun _ _ => trivial)
  refine length_le_of_spends (g := fun _ => 0) hJ (fun s a s' hs _ h => ?_) hs hall h
  have hstep := hμ s a s' hs h
  omega

/-- The actions in `D` cannot happen. -/
def Stuck (step : σ → α → Option σ) (D : α → Prop) (s : σ) : Prop := ∀ a, D a → step s a = none

end Machine

import Mathlib

/-!
# Machines and their runs

A machine is a step function: what a state becomes on an action, or that the action cannot happen
there.  A run is a list of actions, each of which happens in the state the ones before it leave.

What holds at the start and survives every step holds in every state a run passes through
(`run_inv`, `always_of_inv`).  A property that one kind of step breaks and no other does holds
along a run exactly when the run takes no such step (`always_iff_eachStep`).

A machine may keep a log of what it did.  That each entry is justified by the ones before it is kept
by adding justified entries (`Justified.append`).
-/

namespace Machine

variable {σ α : Type*} (step : σ → α → Option σ)

/-- The state the actions lead to, if each of them can happen. -/
def run : σ → List α → Option σ
  | s, [] => some s
  | s, a :: as => (step s a).bind fun s' => run s' as

/-- `P` holds in every state the actions pass through, the first and the last included. -/
def Always (P : σ → Prop) : σ → List α → Prop
  | s, [] => P s
  | s, a :: as => P s ∧ ∀ s', step s a = some s' → Always P s' as

/-- Every action meets `C` in the state it is taken in. -/
def EachStep (C : σ → α → Prop) : σ → List α → Prop
  | _, [] => True
  | s, a :: as => C s a ∧ ∀ s', step s a = some s' → EachStep C s' as

variable {step} {P J : σ → Prop} {C : σ → α → Prop} {s s' t : σ}

@[simp] theorem run_nil : run step s [] = some s := rfl

theorem run_cons {a : α} {as : List α} :
    run step s (a :: as) = some t ↔ ∃ s', step s a = some s' ∧ run step s' as = some t := by
  simp only [run, Option.bind_eq_some_iff]

/-- If every action can happen everywhere, every list of actions is a run. -/
theorem exists_run (htotal : ∀ s a, ∃ s', step s a = some s') :
    ∀ (as : List α) (s : σ), ∃ t, run step s as = some t
  | [], s => ⟨s, rfl⟩
  | a :: as, s => by
    obtain ⟨s', h⟩ := htotal s a
    obtain ⟨t, ht⟩ := exists_run htotal as s'
    exact ⟨t, run_cons.2 ⟨s', h, ht⟩⟩

/-- What every step keeps, a run keeps. -/
theorem run_inv (hstep : ∀ s a s', P s → step s a = some s' → P s') :
    ∀ {as : List α} {s t : σ}, P s → run step s as = some t → P t
  | [], s, t, hs, h => by
    cases h
    exact hs
  | a :: as, s, t, hs, h => by
    obtain ⟨s', h₁, h₂⟩ := run_cons.1 h
    exact run_inv hstep (hstep s a s' hs h₁) h₂

/-- The same for what is said of a state and of the actions that have led to it. -/
theorem run_history {H : List α → σ → Prop}
    (hstep : ∀ as s a s', H as s → step s a = some s' → H (as ++ [a]) s') {as : List α}
    (hs : H [] s) (h : run step s as = some t) : H as t := by
  have hfrom : ∀ (as before : List α) (s : σ), H before s → run step s as = some t →
      H (before ++ as) t := by
    intro as
    induction as with
    | nil =>
      intro before s hs h
      cases h
      rwa [List.append_nil]
    | cons a as ih =>
      intro before s hs h
      obtain ⟨s', h₁, h₂⟩ := run_cons.1 h
      have hrest := ih (before ++ [a]) s' (hstep before s a s' hs h₁) h₂
      rwa [List.append_assoc] at hrest
  exact hfrom as [] s hs h

/-- What every step keeps where the invariant `J` holds, a run keeps. -/
theorem run_inv_with (hJ : ∀ s a s', J s → step s a = some s' → J s')
    (hstep : ∀ s a s', J s → P s → step s a = some s' → P s') {as : List α} (hs : J s) (hP : P s)
    (h : run step s as = some t) : P t := by
  have hboth : J t ∧ P t := by
    refine run_inv (P := fun s => J s ∧ P s) (fun s a s' hs h => ?_) ⟨hs, hP⟩ h
    exact ⟨hJ s a s' hs.1 h, hstep s a s' hs.1 hs.2 h⟩
  exact hboth.2

/-- What every step that meets `C` keeps, a run of such steps keeps. -/
theorem run_inv_of_each (hstep : ∀ s a s', P s → C s a → step s a = some s' → P s') :
    ∀ {as : List α} {s t : σ}, P s → EachStep step C s as → run step s as = some t → P t
  | [], s, t, hs, _, h => by
    cases h
    exact hs
  | a :: as, s, t, hs, hC, h => by
    obtain ⟨s', h₁, h₂⟩ := run_cons.1 h
    exact run_inv_of_each hstep (hstep s a s' hs hC.1 h₁) (hC.2 s' h₁) h₂

theorem EachStep.cons {a : α} {as : List α} (hC : C s a) (h : step s a = some s')
    (hrest : EachStep step C s' as) : EachStep step C s (a :: as) := by
  refine ⟨hC, fun s'' h'' => ?_⟩
  cases h.symm.trans h''
  exact hrest

theorem EachStep.and {D : σ → α → Prop} : ∀ {as : List α} {s : σ}, EachStep step C s as →
    EachStep step D s as → EachStep step (fun s a => C s a ∧ D s a) s as
  | [], _, _, _ => trivial
  | _ :: _, _, h, h' => ⟨⟨h.1, h'.1⟩, fun s' hs' => (h.2 s' hs').and (h'.2 s' hs')⟩

/-- Every action meets `C` if it meets `C` wherever `J` holds and the actions in `D` keep `J`. -/
theorem eachStep_of_inv {D : α → Prop} (hJ : ∀ s a s', J s → D a → step s a = some s' → J s')
    (hC : ∀ s a, J s → D a → C s a) :
    ∀ {as : List α} {s : σ}, J s → (∀ a ∈ as, D a) → EachStep step C s as
  | [], _, _, _ => trivial
  | a :: as, s, hs, hD => by
    obtain ⟨ha, has⟩ := List.forall_mem_cons.1 hD
    exact ⟨hC s a hs ha, fun s' h => eachStep_of_inv hJ hC (hJ s a s' hs ha h) has⟩

theorem Always.head {as : List α} (h : Always step P s as) : P s := by
  cases as with
  | nil => exact h
  | cons a as => exact h.1

theorem Always.last : ∀ {as : List α} {s t : σ}, Always step P s as → run step s as = some t → P t
  | [], _, _, h, hrun => by
    cases hrun
    exact h
  | _ :: _, _, _, h, hrun => by
    obtain ⟨s', h₁, h₂⟩ := run_cons.1 hrun
    exact (h.2 s' h₁).last h₂

/-- A property `P` that the steps outside `C` break, on states with the invariant `J` and where `Q`
has held so far, holds along a run exactly when all the run's steps are in `C`.  `Q` implies `P` and
is kept by the steps in `C`.  Only runs whose steps are all in `D` are looked at. -/
theorem always_iff_eachStep_within {D : σ → α → Prop} {Q : σ → Prop}
    (hJ : ∀ s a s', J s → D s a → step s a = some s' → J s') (hQ : ∀ s, J s → Q s → P s)
    (hkeep : ∀ s a s', J s → D s a → Q s → C s a → step s a = some s' → Q s')
    (hbreak : ∀ s a s', J s → D s a → Q s → ¬ C s a → step s a = some s' → ¬ P s') :
    ∀ {as : List α} {s t : σ}, J s → Q s → EachStep step D s as → run step s as = some t →
      (Always step P s as ↔ EachStep step C s as)
  | [], s, t, hs, hQs, _, _ => ⟨fun _ => trivial, fun _ => hQ s hs hQs⟩
  | a :: as, s, t, hs, hQs, hD, h => by
    obtain ⟨s', h₁, h₂⟩ := run_cons.1 h
    have hs' : J s' := hJ s a s' hs hD.1 h₁
    have hD' : EachStep step D s' as := hD.2 s' h₁
    constructor
    · rintro ⟨-, hrest⟩
      have hC : C s a := by
        by_contra hC
        exact hbreak s a s' hs hD.1 hQs hC h₁ (hrest s' h₁).head
      have hQs' : Q s' := hkeep s a s' hs hD.1 hQs hC h₁
      refine ⟨hC, fun s'' h'' => ?_⟩
      cases h₁.symm.trans h''
      exact (always_iff_eachStep_within hJ hQ hkeep hbreak hs' hQs' hD' h₂).1 (hrest s' h₁)
    · rintro ⟨hC, hrest⟩
      have hQs' : Q s' := hkeep s a s' hs hD.1 hQs hC h₁
      refine ⟨hQ s hs hQs, fun s'' h'' => ?_⟩
      cases h₁.symm.trans h''
      exact (always_iff_eachStep_within hJ hQ hkeep hbreak hs' hQs' hD' h₂).2 (hrest s' h₁)

/-- The same if the steps in `C` keep `P` itself. -/
theorem always_iff_eachStep_of {D : σ → α → Prop}
    (hJ : ∀ s a s', J s → D s a → step s a = some s' → J s')
    (hkeep : ∀ s a s', J s → D s a → P s → C s a → step s a = some s' → P s')
    (hbreak : ∀ s a s', J s → D s a → P s → ¬ C s a → step s a = some s' → ¬ P s')
    {as : List α} (hs : J s) (hP : P s) (hD : EachStep step D s as) (h : run step s as = some t) :
    Always step P s as ↔ EachStep step C s as :=
  always_iff_eachStep_within hJ (fun _ _ hP => hP) hkeep hbreak hs hP hD h

theorem eachStep_true : ∀ (as : List α) (s : σ), EachStep step (fun _ _ => True) s as
  | [], _ => trivial
  | _ :: as, _ => ⟨trivial, fun s' _ => eachStep_true as s'⟩

/-- The same for all runs. -/
theorem always_iff_eachStep (hJ : ∀ s a s', J s → step s a = some s' → J s')
    (hkeep : ∀ s a s', J s → P s → C s a → step s a = some s' → P s')
    (hbreak : ∀ s a s', J s → P s → ¬ C s a → step s a = some s' → ¬ P s')
    {as : List α} (hs : J s) (hP : P s) (h : run step s as = some t) :
    Always step P s as ↔ EachStep step C s as :=
  always_iff_eachStep_of (fun s a s' hs _ => hJ s a s' hs) (fun s a s' hs _ => hkeep s a s' hs)
    (fun s a s' hs _ => hbreak s a s' hs) hs hP (eachStep_true as s) h

/-- What never comes back and holds at the end of a run has held along it. -/
theorem always_of_last (hJ : ∀ s a s', J s → step s a = some s' → J s')
    (hlost : ∀ s a s', J s → ¬ P s → step s a = some s' → ¬ P s') :
    ∀ {as : List α} {s t : σ}, J s → run step s as = some t → P t → Always step P s as
  | [], s, t, _, h, ht => by
    cases h
    exact ht
  | a :: as, s, t, hs, h, ht => by
    obtain ⟨s', h₁, h₂⟩ := run_cons.1 h
    have hrest : Always step P s' as := always_of_last hJ hlost (hJ s a s' hs h₁) h₂ ht
    refine ⟨?_, fun s'' h'' => ?_⟩
    · by_contra hP
      exact hlost s a s' hs hP h₁ hrest.head
    · cases h₁.symm.trans h''
      exact hrest

/-! ## Logs -/

/-- Every entry of the log stands to the entries before it as `Q` says. -/
def Justified {ε : Type*} (Q : List ε → ε → Prop) (log : List ε) : Prop :=
  ∀ pre e post, log = pre ++ e :: post → Q pre e

variable {ε : Type*} {Q : List ε → ε → Prop} {log : List ε}

theorem justified_nil : Justified Q [] := by
  intro pre e post h
  simp at h

theorem Justified.append (h : Justified Q log) {e : ε} (he : Q log e) :
    Justified Q (log ++ [e]) := by
  intro pre e' post hlog
  rcases List.eq_nil_or_concat post with rfl | ⟨post', e'', rfl⟩
  · obtain ⟨rfl, hlast⟩ := List.append_inj' hlog rfl
    rw [← List.singleton_inj.1 hlast]
    exact he
  · rw [List.concat_eq_append, ← List.cons_append, ← List.append_assoc] at hlog
    obtain ⟨rfl, -⟩ := List.append_inj' hlog rfl
    exact h pre e' post' rfl

end Machine

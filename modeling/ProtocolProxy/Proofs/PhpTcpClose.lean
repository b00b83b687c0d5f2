import ProtocolProxy.PhpTcp

/-!
# What `onClose` leaves behind

`onClose` removes what the tables have for its descriptor, and it runs once.  A coroutine that is
still dialing then writes the adapter's tables when it is connected, and nothing removes that
(`forgotten_iff_inTime`).  All other coroutines leave nothing: what they write they write for a
client the adapter already has.
-/

namespace ProtocolProxy

namespace PhpTcp

open Machine

variable {ρ : Type} {u : Setup ρ} {s s' : State ρ} {i : ℕ} {pc : Pc} {data : Bytes}

/-- The adapter's tables have an entry for the descriptor only together, only of a registered port,
and up to `onClose` only while the server has its own. -/
structure Kept (u : Setup ρ) (s : State ρ) : Prop where
  open_ : s.gone = false → s.tasks ≠ [] → s.connection.isSome = true
  shut : s.gone = true → s.connection = none
  busy : ∀ pc ∈ s.tasks, pc ≠ .done → u.registered = true
  backed : ∀ k, s.connection = some ⟨some k⟩ → u.registered = true
  started : s.client.isSome = true → s.tasks ≠ [] ∧ u.registered = true
  initialData : s.initialData.isSome = s.client.isSome
  active : s.sockmapActive = true → s.client.isSome = true

theorem kept_new : Kept u new where
  open_ := by simp [new]
  shut := by simp [new]
  busy := by simp [new]
  backed := by simp [new]
  started := by simp [new]
  initialData := rfl
  active := by simp [new]

/-- What a coroutine at `pc` does to the tables when it goes on. -/
inductive Resumes (u : Setup ρ) (s : State ρ) (i : ℕ) : Pc → Input ρ → State ρ → Prop
  | keeps (pc' : Pc) {pc : Pc} {input : Input ρ} {s' : State ρ} (hpc : pc ≠ .done)
      (hinput : input ≠ .connected true) (htasks : s'.tasks = s.tasks.set i pc')
      (hclient : s'.client = s.client) (hdata : s'.initialData = s.initialData)
      (hactive : s'.sockmapActive = true → s.sockmapActive = true ∨ s.client.isSome = true)
      (hconnection : s'.connection = s.connection ∨ s'.connection.isSome = true)
      (hgone : s'.gone = s.gone) : Resumes u s i pc input s'
  | connected {k : ℕ} {data initialData : Bytes} {s' : State ρ}
      (htasks : s'.tasks = s.tasks.set i (.sendingFirst k initialData))
      (hclient : s'.client = some k) (hdata : s'.initialData = some initialData)
      (hactive : s'.sockmapActive = s.sockmapActive) (hconnection : s'.connection.isSome = true)
      (hgone : s'.gone = s.gone) :
      Resumes u s i (.dialing k data initialData) (.connected true) s'

theorem resumes_routed {result : ρ}
    (h : s.resume u i (.routing data) (.routed (some result)) = some s') :
    Resumes u s i (.routing data) (.routed (some result)) s' := by
  obtain ⟨r, hr⟩ : ∃ r, (if i = 0 then { s with result := some result } else s)
      = { s with result := r } := by
    split_ifs
    · exact ⟨some result, rfl⟩
    · exact ⟨s.result, rfl⟩
  simp only [State.resume, hr] at h
  rcases ht : u.transformInitialData data result with _ | initialData <;> rw [ht] at h
  · cases h
    exact .keeps .done (by simp) (by simp) rfl rfl rfl Or.inl (Or.inl rfl) rfl
  · rcases hc : s.client with _ | k <;> rw [hc] at h <;> cases h
    · exact .keeps _ (by simp) (by simp) rfl hc.symm rfl Or.inl (Or.inl rfl) rfl
    · exact .keeps _ (by simp) (by simp) rfl hc.symm rfl Or.inl (Or.inr rfl) rfl

theorem resumes_of_resume {input : Input ρ} (h : s.resume u i pc input = some s') :
    Resumes u s i pc input s' := by
  cases pc with
  | routing data =>
    cases input with
    | routed result =>
      rcases result with _ | result
      · cases h
        exact .keeps .done (by simp) (by simp) rfl rfl rfl Or.inl (Or.inl rfl) rfl
      · exact resumes_routed h
    | connected ok => cases h
    | wrote ok activated exported => cases h
  | dialing k data initialData =>
    cases input with
    | connected ok =>
      cases ok with
      | true =>
        cases h
        exact .connected rfl rfl rfl rfl rfl rfl
      | false =>
        cases h
        exact .keeps .done (by simp) (by simp) rfl rfl rfl Or.inl (Or.inl rfl) rfl
    | routed result => cases h
    | wrote ok activated exported => cases h
  | sendingFirst k data =>
    cases input with
    | wrote ok activated exported =>
      simp only [State.resume] at h
      generalize (if ok then s.sent ++ [(k, data)] else s.sent) = sent at h
      split_ifs at h with hactive hexported <;> cases h
      · have hclient : s.client.isSome = true := (Bool.and_eq_true_iff.1 hactive).2
        exact .keeps .done (by simp) (by simp) rfl rfl rfl (fun _ => Or.inr hclient)
          (Or.inl rfl) rfl
      all_goals
        exact .keeps .done (by simp) (by simp) rfl rfl rfl Or.inl (Or.inl rfl) rfl
    | routed result => cases h
    | connected ok => cases h
  | sending k data =>
    cases input with
    | wrote ok activated exported =>
      simp only [State.resume] at h
      split_ifs at h <;> cases h <;>
        exact .keeps .done (by simp) (by simp) rfl rfl rfl Or.inl (Or.inl rfl) rfl
    | routed result => cases h
    | connected ok => cases h
  | done => cases h

/-! ## What a step keeps -/

theorem Resumes.ne_done {input : Input ρ} (h : Resumes u s i pc input s') : pc ≠ .done := by
  cases h with
  | keeps _ hpc => exact hpc
  | connected => simp

theorem Resumes.gone {input : Input ρ} (h : Resumes u s i pc input s') : s'.gone = s.gone := by
  cases h with
  | keeps _ _ _ _ _ _ _ _ hgone => exact hgone
  | connected _ _ _ _ _ hgone => exact hgone

theorem Resumes.tasks {input : Input ρ} (h : Resumes u s i pc input s') :
    ∃ pc', s'.tasks = s.tasks.set i pc' := by
  cases h with
  | keeps _ _ _ htasks => exact ⟨_, htasks⟩
  | connected htasks => exact ⟨_, htasks⟩

theorem Resumes.connection {input : Input ρ} (h : Resumes u s i pc input s') :
    s'.connection = s.connection ∨ s'.connection.isSome = true := by
  cases h with
  | keeps _ _ _ _ _ _ _ hconnection => exact hconnection
  | connected _ _ _ _ hconnection => exact Or.inr hconnection

/-- What a coroutine keeps, with what becomes of the server's entry. -/
theorem Kept.resume {input : Input ρ} {c : Option Connection} (hs : Kept u s)
    (hi : s.tasks[i]? = some pc) (h : Resumes u s i pc input s')
    (hopen : s.gone = false → c = s'.connection) (hshut : s.gone = true → c = none) :
    Kept u { s' with connection := c } where
  open_ := by
    intro hgone htasks
    have hgone' : s.gone = false := h.gone ▸ hgone
    rw [hopen hgone']
    rcases h.connection with hc | hc
    · rw [hc]
      exact hs.open_ hgone' (List.ne_nil_of_mem (List.mem_of_getElem? hi))
    · exact hc
  shut := fun hgone => hshut (h.gone ▸ hgone)
  busy := fun _ _ _ => hs.busy pc (List.mem_of_getElem? hi) h.ne_done
  backed := fun _ _ => hs.busy pc (List.mem_of_getElem? hi) h.ne_done
  started := by
    intro _
    obtain ⟨pc', htasks⟩ := h.tasks
    refine ⟨?_, hs.busy pc (List.mem_of_getElem? hi) h.ne_done⟩
    simpa [htasks] using List.ne_nil_of_mem (List.mem_of_getElem? hi)
  initialData := by
    cases h with
    | keeps _ _ _ _ hclient hdata =>
      simp only [hclient, hdata]
      exact hs.initialData
    | connected _ hclient hdata => simp [hclient, hdata]
  active := by
    cases h with
    | keeps _ _ _ _ hclient _ hactive =>
      intro ha
      simp only [hclient]
      exact (hactive ha).elim hs.active id
    | connected _ hclient => simp [hclient]

theorem stepOn_resume {input : Input ρ} (h : stepOn u s (.resume i input) = some s') :
    ∃ pc t c, s.tasks[i]? = some pc ∧ Resumes u s i pc input t ∧ s' = { t with connection := c }
      ∧ (s.gone = false → c = t.connection) ∧ (s.gone = true → c = none) := by
  rcases hgone : s.gone with _ | _ <;> simp only [stepOn, step, hgone, Bool.false_eq_true, if_true,
    if_false] at h
  · obtain ⟨pc, hi, hr⟩ := Option.bind_eq_some_iff.1 h
    exact ⟨pc, s', s'.connection, hi, resumes_of_resume hr, rfl, fun _ => rfl, by simp⟩
  · obtain ⟨t, ht, rfl⟩ := Option.map_eq_some_iff.1 h
    obtain ⟨pc, hi, hr⟩ := Option.bind_eq_some_iff.1 ht
    exact ⟨pc, t, none, hi, resumes_of_resume hr, rfl, by simp, fun _ => rfl⟩

theorem stepOn_receive (h : stepOn u s (.receive data) = some s') :
    s.gone = false ∧ s' = s.receive u data := by
  rcases hgone : s.gone with _ | _ <;> simp only [stepOn, step, hgone, Bool.false_eq_true, if_true,
    if_false, reduceCtorEq] at h
  split_ifs at h
  exact ⟨rfl, (Option.some.inj h).symm⟩

theorem stepOn_onClose (h : stepOn u s .onClose = some s') :
    s.gone = false ∧ s' = s.onClose u := by
  rcases hgone : s.gone with _ | _ <;> simp only [stepOn, step, hgone, Bool.false_eq_true, if_true,
    if_false, reduceCtorEq] at h
  exact ⟨rfl, (Option.some.inj h).symm⟩

/-- A packet's coroutine starts. -/
theorem Kept.start (hs : Kept u s) (hgone : s.gone = false) (pc : Pc) (c : Connection)
    (arrived : List Bytes) (closing : Bool) (hpc : pc ≠ .done → u.registered = true)
    (hc : ∀ k, c.backend = some k → u.registered = true) :
    Kept u { s with
      connection := some c, arrived := arrived, tasks := s.tasks ++ [pc], closing := closing } where
  open_ := fun _ _ => rfl
  shut := by simp [hgone]
  busy := by
    intro pc' hpc' hne
    rcases List.mem_append.1 hpc' with hmem | hmem
    · exact hs.busy pc' hmem hne
    · rw [List.mem_singleton.1 hmem] at hne
      exact hpc hne
  backed := by
    intro k hk
    exact hc k (congrArg Connection.backend (Option.some.inj hk))
  started := fun h => ⟨by simp, (hs.started h).2⟩
  initialData := hs.initialData
  active := hs.active

theorem Kept.receive (hs : Kept u s) (hgone : s.gone = false) : Kept u (s.receive u data) := by
  rcases hc : s.connection with _ | ⟨_ | k⟩
  case some.some =>
    have hr : u.registered = true := hs.backed k hc
    have hstart : ∀ pc, Kept u { s with
        connection := some ⟨some k⟩, arrived := s.arrived ++ [data], tasks := s.tasks ++ [pc] } :=
      fun pc => hs.start hgone pc ⟨some k⟩ _ _ (fun _ => hr) fun _ _ => hr
    simp only [State.receive, hc]
    split_ifs <;> simpa only [State.start, ← hc] using hstart _
  -- the connection has no backend yet
  all_goals
    have hstart := fun pc c => hs.start hgone pc c (s.arrived ++ [data])
    rcases hr : u.registered with _ | _
    · simpa [State.receive, State.start, State.close, hc, hr] using
        hstart .done ⟨none⟩ true (by simp) (by simp)
    · rcases hcl : s.client with _ | k
      · simpa [State.receive, State.start, hc, hr, hcl] using
          hstart (.routing data) ⟨none⟩ s.closing (fun _ => hr) (by simp)
      · simpa [State.receive, State.start, hc, hr, hcl] using
          hstart (.sendingFirst k (s.initialData.getD data)) ⟨some k⟩ s.closing (fun _ => hr)
            fun _ _ => hr

theorem Kept.forgotten_iff (hs : Kept u s) (hgone : s.gone = true) :
    s.Forgotten ↔ s.client = none := by
  refine ⟨fun h => h.2.1, fun hclient => ⟨hs.shut hgone, hclient, ?_, ?_⟩⟩
  · have hdata := hs.initialData
    rwa [hclient, Option.isSome_none, Option.isSome_eq_false_iff, Option.isNone_iff_eq_none]
      at hdata
  · rw [← Bool.not_eq_true]
    intro hactive
    simpa [hclient] using hs.active hactive

/-- The adapter has nothing that `onClose` does not remove. -/
theorem Kept.client_onClose (hs : Kept u s) (hgone : s.gone = false) :
    (s.onClose u).client = none := by
  rcases hcl : s.client with _ | k
  · simp only [State.onClose]
    split <;> simp [hcl]
  · obtain ⟨htasks, hr⟩ := hs.started (by rw [hcl]; rfl)
    obtain ⟨c, hc⟩ := Option.isSome_iff_exists.1 (hs.open_ hgone htasks)
    simp [State.onClose, hc, hr, hcl]

theorem Kept.onClose (hs : Kept u s) : Kept u (s.onClose u) := by
  rcases hc : s.connection with _ | c
  · simp only [State.onClose, hc]
    exact ⟨by simp, fun _ => rfl, hs.busy, by simp, hs.started, hs.initialData, hs.active⟩
  · simp only [State.onClose, hc]
    split_ifs with hr
    · exact ⟨by simp, fun _ => rfl, hs.busy, by simp, by simp, rfl, by simp⟩
    · exact ⟨by simp, fun _ => rfl, hs.busy, by simp, hs.started, hs.initialData, hs.active⟩

theorem stepOn_kept {a : Action ρ} (hs : Kept u s) (h : stepOn u s a = some s') : Kept u s' := by
  cases a with
  | receive data =>
    obtain ⟨hgone, rfl⟩ := stepOn_receive h
    exact hs.receive hgone
  | resume i input =>
    obtain ⟨pc, t, c, hi, hr, rfl, hopen, hshut⟩ := stepOn_resume h
    exact hs.resume hi hr hopen hshut
  | onClose =>
    obtain ⟨-, rfl⟩ := stepOn_onClose h
    exact hs.onClose

/-! ## When nothing is left -/

/-- After `onClose` only coroutines go on, and each leaves the adapter's entry as it is, unless it
has been dialing and is connected. -/
theorem client_of_late {a : Action ρ} (hgone : s.gone = true) (h : stepOn u s a = some s') :
    s'.gone = true ∧ (s'.client = none ↔ s.client = none ∧ InTime s a) := by
  cases a with
  | receive data => exact absurd (stepOn_receive h).1 (by simp [hgone])
  | onClose => exact absurd (stepOn_onClose h).1 (by simp [hgone])
  | resume i input =>
    obtain ⟨pc, t, c, hi, hr, rfl, -⟩ := stepOn_resume h
    refine ⟨hr.gone.trans hgone, ?_⟩
    cases hr with
    | keeps _ _ hinput _ hclient => simp [InTime, hclient, hinput]
    | connected _ hclient => simp [InTime, hclient, hgone]

theorem receive_gone (u : Setup ρ) (s : State ρ) (data : Bytes) :
    (s.receive u data).gone = s.gone := by
  simp only [State.receive]
  split
  · split_ifs <;> rfl
  · split_ifs
    · rfl
    · split <;> rfl

/-- The step with which a client goes is `onClose`, which removes the adapter's entry. -/
theorem client_of_onClose {a : Action ρ} (hs : Kept u s) (hgone : s.gone = false)
    (h : stepOn u s a = some s') (hgone' : s'.gone = true) : s'.client = none := by
  cases a with
  | receive data =>
    obtain ⟨-, rfl⟩ := stepOn_receive h
    rw [receive_gone, hgone] at hgone'
    cases hgone'
  | resume i input =>
    obtain ⟨pc, t, c, hi, hr, rfl, -⟩ := stepOn_resume h
    cases hgone.symm.trans (hr.gone.symm.trans hgone')
  | onClose =>
    obtain ⟨-, rfl⟩ := stepOn_onClose h
    exact hs.client_onClose hgone

/-- `onClose` has not run, or nothing is left. -/
def Clean (s : State ρ) : Prop := s.gone = true → s.client = none

theorem clean_of_inTime {a : Action ρ} (hs : Kept u s) (hclean : Clean s) (hin : InTime s a)
    (h : stepOn u s a = some s') : Clean s' := by
  intro hgone'
  rcases hgone : s.gone with _ | _
  · exact client_of_onClose hs hgone h hgone'
  · exact (client_of_late hgone h).2.2 ⟨hclean hgone, hin⟩

theorem not_clean_of_late {a : Action ρ} (hin : ¬ InTime s a) (h : stepOn u s a = some s') :
    ¬ Clean s' := by
  obtain ⟨hgone, -⟩ := Classical.not_imp.1 hin
  obtain ⟨hgone', hclient⟩ := client_of_late hgone h
  exact fun hclean => hin (hclient.1 (hclean hgone')).2

theorem not_clean_of_not_clean {a : Action ρ} (hclean : ¬ Clean s) (h : stepOn u s a = some s') :
    ¬ Clean s' := by
  obtain ⟨hgone, hclient⟩ := Classical.not_imp.1 hclean
  obtain ⟨hgone', hiff⟩ := client_of_late hgone h
  exact fun hclean' => hclient (hiff.1 (hclean' hgone')).1

/-- When a client has gone, the server and the adapter have nothing left of it exactly if none of
its packets' dials has succeeded after `onClose`. -/
theorem forgotten_iff_inTime (u : Setup ρ) {as : List (Action ρ)} {s : State ρ}
    (hrun : run (stepOn u) new as = some s) (hgone : s.gone = true) :
    s.Forgotten ↔ EachStep (stepOn u) InTime new as := by
  have hs : Kept u s := run_inv (fun _ _ _ hs h => stepOn_kept hs h) kept_new hrun
  have halways : Always (stepOn u) Clean new as ↔ EachStep (stepOn u) InTime new as :=
    always_iff_eachStep (fun _ _ _ hs h => stepOn_kept hs h)
      (fun _ _ _ hs hclean hin h => clean_of_inTime hs hclean hin h)
      (fun _ _ _ _ _ hin h => not_clean_of_late hin h) kept_new (fun _ => rfl) hrun
  rw [hs.forgotten_iff hgone, ← halways]
  constructor
  · intro hclient
    exact always_of_last (fun _ _ _ hs h => stepOn_kept hs h)
      (fun _ _ _ _ hclean h => not_clean_of_not_clean hclean h) kept_new hrun fun _ => hclient
  · intro halways
    exact halways.last hrun hgone

/-- The client leaves while its only packet is dialing, and the dial succeeds. -/
theorem forgotten_iff_inTime_dialing : ∃ s : State Unit,
    run (stepOn ⟨true, none⟩) new [.receive [1], .resume 0 (.routed (some ())), .onClose,
      .resume 0 (.connected true)] = some s ∧ ¬ s.Forgotten := by
  have hrun : ∃ s : State Unit, run (stepOn ⟨true, none⟩) new [.receive [1],
      .resume 0 (.routed (some ())), .onClose, .resume 0 (.connected true)] = some s
      ∧ s.gone = true := ⟨_, rfl, rfl⟩
  obtain ⟨s, hrun, hgone⟩ := hrun
  refine ⟨s, hrun, fun hforgotten => ?_⟩
  have heach := (forgotten_iff_inTime _ hrun hgone).1 hforgotten
  exact ((((heach.2 _ rfl).2 _ rfl).2 _ rfl).1 rfl 0) rfl

end PhpTcp

end ProtocolProxy
